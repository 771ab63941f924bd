import SquadPanel.AdminsCfg.Splice
import SquadPanel.Bans.Federation

/-!
# The managed segment of LayerRotation.cfg

`rotation-segment.ts`: the layer names of a rotation, written between the markers of
`admins-config.ts` and read back.
-/

namespace SquadPanel.AdminsCfg

open Js Lib List
open Bans (splitLines splitLines_append)

def MAX_LAYER_NAME_LENGTH : Nat := 128

/-- `/[\u0000-\u001f\u007f]/` -/
def isControlCharacter (u : UInt16) : Bool := u ≤ 0x1F || u == 0x7F

def validateLayerName (name : JsString) : Bool :=
  if name.length < 1 ∨ MAX_LAYER_NAME_LENGTH < name.length then false
  else if name.any isControlCharacter then false
  else if trim name ≠ name then false
  else if (indexOf (js "//") name).isSome then false
  else true

/-- `BEGIN_LINE` and `SEGMENT_NEWLINE` are declared again in the file, with the same texts. -/
def buildRotationSegmentBody (layerNames : List JsString) : JsString :=
  SEGMENT_NEWLINE.intercalate (BEGIN_LINE :: (layerNames ++ [END_MARKER]))

structure ParsedRotationSegment where
  layers : List JsString

/-- `/\r\n|\n/` cuts where `/\r?\n/` does. -/
def parseRotationSegment (content : JsString) : ParsedRotationSegment :=
  match findManagedSegment content with
  | none => ⟨[]⟩
  | some located =>
    let lines := (splitLines located.segment).tail.dropLast
    ⟨(lines.map trim).filter fun line => 0 < line.length && !(js "//").isPrefixOf line⟩

variable {name line : JsString} {names lines : List JsString}

theorem validateLayerName_spec (hvalid : validateLayerName name = true) :
    name ≠ [] ∧ (∀ u ∈ name, isLineBreak u = false) ∧ trim name = name ∧
      Absent (js "//") name := by
  simp only [validateLayerName, Bool.if_false_left, Bool.and_true, Bool.and_eq_true,
    Bool.not_eq_true', decide_eq_false_iff_not, not_or, any_eq_false, not_not, Bool.not_eq_true,
    Option.isSome_eq_false_iff, Option.isNone_iff_eq_none, indexOf_eq_none] at hvalid
  obtain ⟨⟨hlength, -⟩, hcontrol, htrim, hslashes⟩ := hvalid
  refine ⟨fun hnil => hlength (by simp [hnil]), fun u hu => ?_, htrim, hslashes⟩
  have hnot := hcontrol u hu
  cases hbreak : isLineBreak u with
  | false => rfl
  | true =>
    rw [isLineBreak, Bool.or_eq_true, beq_iff_eq, beq_iff_eq] at hbreak
    rcases hbreak with rfl | rfl <;> cases hnot

theorem splitLines_intercalate (hline : Unbroken line) (hlines : ∀ line ∈ lines, Unbroken line) :
    splitLines (SEGMENT_NEWLINE.intercalate (line :: lines)) = line :: lines := by
  induction lines generalizing line with
  | nil =>
    rw [intercalate_singleton]
    have hlast : splitLines (line ++ []) = [line] := splitLines_append hline rfl
    rwa [append_nil] at hlast
  | cons line' lines ih =>
    have hrest := ih (hlines line' mem_cons_self) fun l hl => hlines l (mem_cons_of_mem _ hl)
    rw [intercalate_cons_cons, append_assoc]
    exact splitLines_append hline (congrArg ([] :: ·) hrest)

/-- Whatever stands in the file, the names that are written are read back. -/
theorem parseRotationSegment_splice (content : JsString)
    (hnames : ∀ name ∈ names, validateLayerName name = true) :
    (parseRotationSegment
      (spliceManagedSegment content (buildRotationSegmentBody names))).layers = names := by
  have hvalid (name : JsString) (hname : name ∈ names) := validateLayerName_spec (hnames name hname)
  have hmarked : Marked (buildRotationSegmentBody names) :=
    marked_segment fun name hname => (hvalid name hname).2.2.2.mono (by decide)
  have hlines : splitLines (buildRotationSegmentBody names) =
      BEGIN_LINE :: (names ++ [END_MARKER]) := by
    have hfixed {line : JsString} (hall : line.all (!isLineBreak ·) = true) : Unbroken line := by
      simpa using hall
    refine splitLines_intercalate (hfixed (by decide +kernel)) fun line hline => ?_
    rcases mem_append.1 hline with hname | hend
    · exact (hvalid line hname).2.1
    · rw [mem_singleton.1 hend]
      exact hfixed (by decide +kernel)
  have htrim : names.map trim = names :=
    map_congr_left (fun name hname => (hvalid name hname).2.2.1) |>.trans (map_id names)
  simp only [parseRotationSegment, findManagedSegment_splice hmarked, hlines, tail_cons,
    dropLast_concat, htrim]
  rw [filter_eq_self]
  intro name hname
  obtain ⟨hne, -, -, hslashes⟩ := hvalid name hname
  have hstart : (js "//").isPrefixOf name = false := by
    rw [Bool.eq_false_iff, Ne, isPrefixOf_iff_prefix]
    exact hslashes 0
  rw [hstart, Bool.not_false, Bool.and_true, decide_eq_true_eq, length_pos_iff]
  exact hne

theorem parseRotationSegment_splice_strayFile :
    (parseRotationSegment (spliceManagedSegment strayFile
      (buildRotationSegmentBody [js "Narva_RAAS_v1", js "Ёлка v2"]))).layers =
        [js "Narva_RAAS_v1", js "Ёлка v2"] :=
  parseRotationSegment_splice strayFile (by decide +kernel)

end SquadPanel.AdminsCfg
