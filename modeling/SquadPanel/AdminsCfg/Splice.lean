import SquadPanel.AdminsCfg.Body

/-!
# Replacing the managed segment

`spliceManagedSegment` on any file, with any text in it.  A body that is marked
at its two ends is found again exactly where it was put, so splicing replaces
the segment and leaves the rest of the file alone.

Only the first segment of a file is located.  What stands after it, another
segment included, is kept.
-/

namespace SquadPanel.AdminsCfg

open Js Lib List Option

variable (content : JsString)

/-- What a located segment leaves of its file, before and after it. -/
def outside : Option (JsString × JsString) :=
  (findManagedSegment content).map fun located =>
    (content.take located.start, content.drop located.end)

/-- What the splice puts between a fresh segment and a file that had none. -/
def separator : JsString :=
  if content.length = 0 then SEGMENT_NEWLINE else SEGMENT_NEWLINE ++ SEGMENT_NEWLINE

/-- The surroundings a splice gives to its segment. -/
def surroundings : JsString × JsString :=
  (outside content).getD ([], separator content ++ content)

/-- No begin marker starts before the end of `front`, also when one follows it. -/
def Unstarted (front : JsString) : Prop :=
  ∀ i < front.length, ¬ OccursAt BEGIN_MARKER (front ++ BEGIN_MARKER) i

theorem BEGIN_MARKER_ne_nil : BEGIN_MARKER ≠ [] := by decide

theorem END_MARKER_ne_nil : END_MARKER ≠ [] := by decide

theorem splice_eq_surroundings (content body : JsString) : spliceManagedSegment content body =
      (surroundings content).1 ++ body ++ (surroundings content).2 := by
  unfold spliceManagedSegment surroundings outside separator
  cases findManagedSegment content with
  | some located => simp [slice]
  | none =>
    by_cases hempty : content.length = 0
    · simp [eq_nil_of_length_eq_zero hempty]
    · simp [hempty]

/-! ## Where a marked body is found -/

variable {body : JsString} {front : JsString}

theorem Marked.beginsWith (hmarked : Marked body) :
    BEGIN_MARKER <+: body := (hmarked.begins 0).mpr rfl

theorem Marked.end_le (hmarked : Marked body) :
    OccursAt END_MARKER body (body.length - END_MARKER.length) ∧
      END_MARKER.length ≤ body.length := by
  -- the begin marker is the longer one, so the body has room for the end marker
  have hlen := hmarked.beginsWith.length_le
  have hle : END_MARKER.length ≤ BEGIN_MARKER.length := by decide
  exact ⟨(hmarked.ends _).mpr (by omega), by omega⟩

theorem indexOf_BEGIN_MARKER (hfront : Unstarted front) (hmarked : Marked body)
    (back : JsString) : indexOf BEGIN_MARKER (front ++ body ++ back) = some front.length := by
  obtain ⟨rest, hrest⟩ := hmarked.beginsWith
  rw [indexOf_eq_some]
  constructor
  · have hat := (occursAt_append_length BEGIN_MARKER front (body ++ back) 0).mpr
      (hmarked.beginsWith.trans (prefix_append _ _))
    rwa [append_assoc]
  · intro j hj hoccurs
    rw [← hrest, append_assoc, append_assoc, ← append_assoc] at hoccurs
    refine hfront j hj (hoccurs.of_append ?_)
    rw [length_append]
    omega

theorem indexOf_END_MARKER (hmarked : Marked body) (back : JsString) :
    indexOf END_MARKER (body ++ back) = some (body.length - END_MARKER.length) := by
  obtain ⟨hoccurs, hle⟩ := hmarked.end_le
  rw [indexOf_eq_some]
  refine ⟨hoccurs.append END_MARKER_ne_nil back, fun j hj hoccurs' => ?_⟩
  have hlast := (hmarked.ends j).mp (hoccurs'.of_append (by omega))
  omega

theorem findManagedSegment_marked (hfront : Unstarted front)
    (hmarked : Marked body) (back : JsString) : findManagedSegment (front ++ body ++ back) =
      some { segment := body, start := front.length, «end» := front.length + body.length } := by
  have hle := hmarked.end_le.2
  have hdrop : (front ++ body ++ back).drop front.length = body ++ back := by
    rw [append_assoc, drop_left]
  have hslice : slice (front ++ body ++ back) front.length (front.length + body.length) = body := by
    rw [slice, ← length_append, take_left, drop_left]
  have htail : front.length + (body.length - END_MARKER.length) + END_MARKER.length =
      front.length + body.length := by omega
  simp only [findManagedSegment, indexOf_BEGIN_MARKER hfront hmarked, indexOfFrom, hdrop,
    indexOf_END_MARKER hmarked, map_some, htail, hslice]

theorem splice_marked (hfront : Unstarted front) (hmarked : Marked body) (back body' : JsString) :
    spliceManagedSegment (front ++ body ++ back) body' = front ++ body' ++ back := by
  have htake : (front ++ body ++ back).take front.length = front := by
    rw [append_assoc, take_left]
  have hdrop : (front ++ body ++ back).drop (front.length + body.length) = back := by
    rw [← length_append, drop_left]
  rw [splice_eq_surroundings, surroundings, outside, findManagedSegment_marked hfront hmarked]
  simp only [map_some, getD_some, htake, hdrop]

variable (content : JsString)

/-- The located segment runs from the first begin marker to the first end marker after it, or to
the end of the file. -/
theorem findManagedSegment_spec :
    (findManagedSegment content = none ∧ Absent BEGIN_MARKER content) ∨
      ∃ located, findManagedSegment content = some located ∧
        OccursAt BEGIN_MARKER content located.start ∧
        (∀ i < located.start, ¬ OccursAt BEGIN_MARKER content i) ∧
        ((located.end = content.length ∧ ∀ j ≥ located.start, ¬ OccursAt END_MARKER content j) ∨
          ∃ j ≥ located.start, located.end = j + END_MARKER.length ∧ OccursAt END_MARKER content j ∧
            ∀ j' ≥ located.start, OccursAt END_MARKER content j' → j ≤ j') := by
  rcases indexOf_spec BEGIN_MARKER content with ⟨hnone, habsent⟩ | ⟨b, hsome, hat, hfirst⟩
  · exact .inl ⟨by simp [findManagedSegment, hnone], habsent⟩
  right
  have hfrom (j : Nat) (hj : b ≤ j) :
      OccursAt END_MARKER (content.drop b) (j - b) ↔ OccursAt END_MARKER content j := by
    rw [occursAt_drop, Nat.add_sub_cancel' hj]
  rcases indexOf_spec END_MARKER (content.drop b) with ⟨hnone, habsent⟩ | ⟨e, hend, hat', hfirst'⟩
  · refine ⟨_, by simp only [findManagedSegment, hsome, indexOfFrom, hnone]; rfl, hat, hfirst,
      .inl ⟨rfl, fun j hj hoccurs => habsent _ ((hfrom j hj).mpr hoccurs)⟩⟩
  · refine ⟨_, by simp only [findManagedSegment, hsome, indexOfFrom, hend]; rfl, hat, hfirst,
      .inr ⟨b + e, Nat.le_add_right b e, rfl, (occursAt_drop ..).mp hat', ?_⟩⟩
    intro j' hj' hoccurs
    have hle : b ≤ j' := hj'
    by_contra hlt
    exact hfirst' (j' - b) (by omega) ((hfrom j' hj').mpr hoccurs)

theorem unstarted_surroundings : Unstarted (surroundings content).1 := by
  unfold surroundings outside
  rcases findManagedSegment_spec content with ⟨hnone, -⟩ | ⟨located, hsome, hat, hfirst, -⟩
  · rw [hnone]
    exact fun i hi => absurd hi (Nat.not_lt_zero i)
  · rw [hsome]
    simp only [map_some, getD_some]
    intro i hi hoccurs
    -- the file goes on with the begin marker that `hoccurs` ends in
    obtain ⟨rest, hrest⟩ := hat
    have hsplit : content = content.take located.start ++ BEGIN_MARKER ++ rest := by
      rw [append_assoc, hrest, take_append_drop]
    have hlen : (content.take located.start).length ≤ located.start := length_take_le ..
    apply hfirst i (by omega)
    rw [hsplit]
    exact hoccurs.append BEGIN_MARKER_ne_nil rest

/-! ## What a splice does to a file -/

theorem findManagedSegment_splice (hmarked : Marked body) (content : JsString) :
    findManagedSegment (spliceManagedSegment content body) =
      some
        { segment := body
          start := (surroundings content).1.length
          «end» := (surroundings content).1.length + body.length } := by
  rw [splice_eq_surroundings]
  exact findManagedSegment_marked (unstarted_surroundings content) hmarked _

theorem outside_splice (hmarked : Marked body) (content : JsString) :
    outside (spliceManagedSegment content body) = some (surroundings content) := by
  rw [outside, findManagedSegment_splice hmarked, splice_eq_surroundings]
  simp only [map_some]
  rw [append_assoc, take_left, ← append_assoc, ← length_append, drop_left]

theorem splice_splice (hmarked : Marked body) (content body' : JsString) :
    spliceManagedSegment (spliceManagedSegment content body) body' =
      spliceManagedSegment content body' := by
  rw [splice_eq_surroundings content body,
    splice_marked (unstarted_surroundings content) hmarked, ← splice_eq_surroundings]

/-- In every file the spliced body is located again, the rest of the file is what it was (after
a separator, when the file had no segment), and a later splice replaces an earlier one. -/
theorem splice_locates_preserves_replaces (localeCompare : JsString → JsString → Int)
    {inputs : SegmentInputs} (htyped : inputs.Typed) (content : JsString) :
    let body := (buildManagedSegmentBody localeCompare inputs).body
    (∃ start, findManagedSegment (spliceManagedSegment content body) =
        some { segment := body, start := start, «end» := start + body.length }) ∧
      outside (spliceManagedSegment content body) =
        some ((outside content).getD ([], separator content ++ content)) ∧
      spliceManagedSegment (spliceManagedSegment content body) body =
        spliceManagedSegment content body ∧
      ∀ body', spliceManagedSegment (spliceManagedSegment content body) body' =
        spliceManagedSegment content body' := by
  have hmarked := marked_body localeCompare htyped
  exact ⟨⟨_, findManagedSegment_splice hmarked content⟩, outside_splice hmarked content,
    splice_splice hmarked content _, splice_splice hmarked content⟩

/-- A file with a stray end marker, an orphaned begin marker and no final newline. -/
def strayFile : JsString := js "keep\n//SQUAD-PANEL END\n//SQUAD-PANEL BEGIN\nAdmin=0002b1:Old"

def noInputs : SegmentInputs := { roles := [], admins := [], clanPriority := none }

theorem noInputs_typed : noInputs.Typed := ⟨by decide, by decide, by decide⟩

theorem splice_locates_preserves_replaces_strayFile : hostileInputs.Typed ∧
      spliceManagedSegment
          (spliceManagedSegment strayFile (buildManagedSegmentBody compareUnits hostileInputs).body)
          (buildManagedSegmentBody compareUnits noInputs).body =
        js "keep\n//SQUAD-PANEL END\n" ++
          (buildManagedSegmentBody compareUnits noInputs).body := by
  obtain ⟨-, -, -, hreplaces⟩ := splice_locates_preserves_replaces compareUnits
    hostileInputs_typed strayFile
  exact ⟨hostileInputs_typed, (hreplaces _).trans (by decide +kernel)⟩

/-! ## Segments that a splice leaves behind -/

/-- A begin marker stands after an end marker that itself stands after a begin marker. -/
def BeginsAgain : Prop :=
  ∃ i j k, OccursAt BEGIN_MARKER content i ∧ OccursAt END_MARKER content j ∧
    OccursAt BEGIN_MARKER content k ∧ i ≤ j ∧ j + END_MARKER.length ≤ k

/-- `body` is located in the file, and the file has no other begin marker than its. -/
def OnlySegment (content body : JsString) : Prop :=
  ∃ located, findManagedSegment content = some located ∧ located.segment = body ∧
    ∀ i, OccursAt BEGIN_MARKER content i → i = located.start

/-- A begin marker after the first unit of a marked body lies wholly after the body: the end
marker cannot be the beginning of one. -/
theorem Marked.occursAt_append (hmarked : Marked body) {back : JsString} {j : Nat}
    (hoccurs : OccursAt BEGIN_MARKER (body ++ back) j) :
    j = 0 ∨ ∃ k, j = body.length + k ∧ OccursAt BEGIN_MARKER back k := by
  obtain ⟨hend, hle⟩ := hmarked.end_le
  by_cases hinside : j + BEGIN_MARKER.length ≤ body.length
  · exact .inl ((hmarked.begins j).mp (hoccurs.of_append hinside))
  by_cases hafter : body.length ≤ j
  · rw [show j = body.length + (j - body.length) by omega, occursAt_append_length] at hoccurs
    exact .inr ⟨j - body.length, by omega, hoccurs⟩
  · -- it would straddle the end of the body; some unit differs at each of the 18 offsets
    exfalso
    have hmismatch : ∀ d < 18, ∃ k < BEGIN_MARKER.length,
        1 ≤ d + k ∧ d + k - 1 < END_MARKER.length ∧
          END_MARKER[d + k - 1]? ≠ BEGIN_MARKER[k]? := by
      decide +kernel
    have hB : BEGIN_MARKER.length = 19 := by decide
    have hE : END_MARKER.length = 17 := by decide
    obtain ⟨k, hk, hpos, hlt, hne⟩ := hmismatch (j + 18 - body.length) (by omega)
    have hunit := hoccurs.getElem hk
    have hunit' := (hend.append END_MARKER_ne_nil back).getElem hlt
    rw [show body.length - END_MARKER.length + (j + 18 - body.length + k - 1) = j + k by omega]
      at hunit'
    exact hne (hunit'.symm.trans hunit)

theorem onlySegment_splice (hmarked : Marked body) (content : JsString) :
    OnlySegment (spliceManagedSegment content body) body ↔
      Absent BEGIN_MARKER (surroundings content).2 := by
  have hlocated := findManagedSegment_splice hmarked content
  have hsplit := splice_eq_surroundings content body
  rw [append_assoc] at hsplit
  constructor
  · rintro ⟨located, hfind, -, honly⟩ k hoccurs
    rw [hlocated] at hfind
    cases hfind
    have hlater := honly ((surroundings content).1.length + (body.length + k)) (by
      rw [hsplit, occursAt_append_length, occursAt_append_length]
      exact hoccurs)
    have hlen := hmarked.end_le.2
    have hpos : 0 < END_MARKER.length := by decide
    simp only at hlater
    omega
  · intro habsent
    refine ⟨_, hlocated, rfl, fun i hoccurs => ?_⟩
    rw [hsplit] at hoccurs
    by_cases hfront : i < (surroundings content).1.length
    · -- before the body: the front alone would hold the marker
      obtain ⟨rest, hrest⟩ := hmarked.beginsWith
      rw [← hrest, append_assoc, ← append_assoc] at hoccurs
      refine absurd (hoccurs.of_append ?_) (unstarted_surroundings content i hfront)
      rw [length_append]
      omega
    · rw [show i = (surroundings content).1.length + (i - (surroundings content).1.length) by
        omega, occursAt_append_length] at hoccurs
      rcases hmarked.occursAt_append hoccurs with hzero | ⟨k, -, hback⟩
      · show i = (surroundings content).1.length
        omega
      · exact absurd hback (habsent k)

theorem absent_separator_append {content : JsString} (habsent : Absent BEGIN_MARKER content) :
    Absent BEGIN_MARKER (separator content ++ content) := by
  have hnewline {s : JsString} (hs : Absent BEGIN_MARKER s) :
      Absent BEGIN_MARKER (SEGMENT_NEWLINE ++ s) := by
    have hnil : Absent BEGIN_MARKER [] := absent_of_length_lt (by decide)
    exact Absent.append_cons (a := []) (x := 0x0D) (by decide) hnil
      (Absent.append_cons (a := []) (x := 0x0A) (by decide) hnil hs)
  unfold separator
  split
  · exact hnewline habsent
  · rw [append_assoc]
    exact hnewline (hnewline habsent)

/-- A splice leaves a begin marker behind exactly when the file begins a segment again. -/
theorem absent_surroundings_iff :
    Absent BEGIN_MARKER (surroundings content).2 ↔ ¬ BeginsAgain content := by
  unfold surroundings outside
  rcases findManagedSegment_spec content with
    ⟨hnone, habsent⟩ | ⟨located, hsome, hat, hfirst, hclosed⟩
  · rw [hnone]
    exact ⟨fun _ ⟨i, _, _, hi, _⟩ => habsent i hi, fun _ => absent_separator_append habsent⟩
  · rw [hsome]
    simp only [map_some, getD_some]
    rcases hclosed with ⟨hend, hnoEnd⟩ | ⟨j, hj, hend, hendAt, hfirstEnd⟩
    · -- orphaned: nothing is left after the segment
      rw [hend, drop_length]
      refine ⟨fun _ ⟨i, j, k, hi, hj, hk, hij, hjk⟩ => hnoEnd j ?_ hj,
        fun _ => absent_of_length_lt (by decide)⟩
      by_contra hlt
      exact hfirst i (by omega) hi
    · rw [hend]
      constructor
      · rintro habsent ⟨i, j', k, hi, hj', hk, hij, hjk⟩
        have hstart : located.start ≤ i := by
          by_contra hlt
          exact hfirst i (by omega) hi
        have hle := hfirstEnd j' (by omega) hj'
        apply habsent (k - (j + END_MARKER.length))
        rw [occursAt_drop, Nat.add_sub_cancel' (by omega)]
        exact hk
      · intro hagain k hoccurs
        exact hagain ⟨_, j, _, hat, hendAt, (occursAt_drop ..).mp hoccurs, hj, Nat.le_add_right _ _⟩

/-- Two segments of earlier syncs, as a bad merge leaves them. -/
def twiceSynced : JsString :=
  js "//SQUAD-PANEL BEGIN\r\n//SQUAD-PANEL END\r\n//SQUAD-PANEL BEGIN\r\nGroup=Old:ban\r\n\r\n" ++
    js "Admin=0002b1:Old\r\n//SQUAD-PANEL END\r\n"

end SquadPanel.AdminsCfg
