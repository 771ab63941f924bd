import SquadPanel.Js.Buffer
import SquadPanel.LogIngest.LineSplitter

/-!
# Lines of an SSH tail

`tailSshLog` decodes every chunk of the remote log on its own and pushes the text to the line
splitter.  A character that is cut between two chunks comes out as replacement characters, so
the delivered lines are the lines of the log exactly when no character of a finished line is
cut.
-/

namespace SquadPanel.LogIngest

open Js Lib Lib.LineSplit Utf8 List

/-- The lines handed to `onLine` for the chunks of a session, in the order they arrive. -/
def tailLines (chunks : List (List UInt8)) : List JsString :=
  Splitter.start.pushAll (chunks.map bufferToString)

/-! ## Lines of characters -/

theorem mem_utf16EncodeChar_ascii {c d : Char} (hd : d.toNat ≤ 0x7F)
    (hmem : UInt16.ofNat d.toNat ∈ utf16EncodeChar c) : c = d := by
  have hvalid : c.toNat < 0xD800 ∨ (0xDFFF < c.toNat ∧ c.toNat < 0x110000) := c.valid
  have hunit : (UInt16.ofNat d.toNat).toNat = d.toNat :=
    UInt16.toNat_ofNat_of_lt (show _ < 65536 by omega)
  have htoNat (n : Nat) (hn : n < 65536) (heq : UInt16.ofNat d.toNat = UInt16.ofNat n) :
      d.toNat = n :=
    calc d.toNat = (UInt16.ofNat d.toNat).toNat := hunit.symm
      _ = (UInt16.ofNat n).toNat := congrArg UInt16.toNat heq
      _ = n := UInt16.toNat_ofNat_of_lt hn
  unfold utf16EncodeChar at hmem
  dsimp only at hmem
  split at hmem
  · next hsmall =>
    rw [mem_singleton] at hmem
    exact (Char.toNat_inj.mp (htoNat c.toNat hsmall hmem)).symm
  · simp only [mem_cons, not_mem_nil, or_false] at hmem
    rcases hmem with hmem | hmem
    · have := htoNat _ (by omega) hmem
      omega
    · have := htoNat _ (by omega) hmem
      omega

theorem finished_utf16Encode (text : List Char) :
    finished LF (utf16Encode text) = (finished '\n' text).map utf16Encode :=
  finished_flatMap (f := utf16EncodeChar) rfl (fun c hc hmem =>
    hc (mem_utf16EncodeChar_ascii (d := '\n') (by decide) hmem)) text

variable {text : List Char} {chunks : List (List UInt8)}

theorem mem_utf16Encode_newline : LF ∈ utf16Encode text ↔ '\n' ∈ text := by
  rw [utf16Encode, mem_flatMap]
  constructor
  · rintro ⟨c, hc, hmem⟩
    rwa [mem_utf16EncodeChar_ascii (d := '\n') (by decide) hmem] at hc
  · intro hmem
    exact ⟨'\n', hmem, by decide⟩

theorem utf16Encode_eq_nil : utf16Encode text = [] ↔ text = [] := by
  have hinj := @utf16Encode_inj text []
  exact hinj

theorem linesOf_utf16Encode (text : List Char) : linesOf (utf16Encode text) =
      (finished '\n' text).flatMap fun line => lineOf (utf16Encode line) := by
  rw [linesOf, finished_utf16Encode, flatMap_map]

theorem lineOf_cr (line : List Char) :
    lineOf (utf16Encode (line ++ ['\r'])) = if line = [] then [] else [utf16Encode line] := by
  have hunits : utf16Encode (line ++ ['\r']) = utf16Encode line ++ [CR] := utf16Encode_append _ _
  rw [hunits, lineOf]
  simp only [getLast?_concat, if_true, dropLast_concat, utf16Encode_eq_nil]

/-- The last unit of a text is a carriage return only if its last character is one. -/
theorem lineOf_concat (line : List Char) {c : Char} (hc : c ≠ '\r') :
    lineOf (utf16Encode (line ++ [c])) = [utf16Encode (line ++ [c])] := by
  have hunits : utf16Encode (line ++ [c]) = utf16Encode line ++ utf16EncodeChar c := by
    simp [utf16Encode]
  have hlast : (utf16Encode (line ++ [c])).getLast? ≠ some CR := by
    intro hcr
    rw [hunits, getLast?_append_of_ne_nil _ (by
      unfold utf16EncodeChar
      dsimp only
      split <;> simp)] at hcr
    exact hc (mem_utf16EncodeChar_ascii (d := '\r') (by decide) (mem_of_getLast? hcr))
  have hne : utf16Encode (line ++ [c]) ≠ [] := by
    rw [ne_eq, utf16Encode_eq_nil]
    simp
  rw [lineOf]
  simp only [if_neg hlast, if_neg hne]

/-- A garbled line is delivered like the line, and gives it away. -/
theorem lineOf_garbled {line out : List Char} (hgarbled : Garbled line out) :
    (lineOf (utf16Encode line)).length = (lineOf (utf16Encode out)).length ∧
      (lineOf (utf16Encode line) = lineOf (utf16Encode out) → line = out) := by
  rcases eq_nil_or_concat line with rfl | ⟨front, c, rfl⟩
  · rw [hgarbled.eq_nil]
    exact ⟨rfl, fun _ => rfl⟩
  · rw [concat_eq_append] at hgarbled ⊢
    obtain ⟨front', last, rfl, hfront, hlast⟩ := hgarbled.of_append
    by_cases hc : c = '\r'
    · subst hc
      rw [hlast.eq_singleton (by decide), lineOf_cr, lineOf_cr]
      by_cases hnil : front = []
      · subst hnil
        rw [hfront.eq_nil]
        exact ⟨rfl, fun _ => rfl⟩
      · have hnil' : front' ≠ [] := by
          rintro rfl
          exact hnil (length_eq_zero_iff.mp (Nat.le_zero.mp hfront.length_le))
        rw [if_neg hnil, if_neg hnil']
        refine ⟨rfl, fun heq => ?_⟩
        rw [singleton_inj, utf16Encode_inj] at heq
        rw [heq]
    · have hlast' : ∃ mid d, last = mid ++ [d] ∧ d ≠ '\r' := by
        cases hlast with
        | keep _ hrest =>
          rw [hrest.eq_nil]
          exact ⟨[], c, rfl, hc⟩
        | cut _ n hwide hrest =>
          rw [hrest.eq_nil, append_nil]
          exact ⟨_, replacement, replicate_succ', by decide⟩
      obtain ⟨mid, d, rfl, hd⟩ := hlast'
      rw [lineOf_concat front hc, ← append_assoc, lineOf_concat (front' ++ mid) hd]
      refine ⟨rfl, fun heq => ?_⟩
      rwa [singleton_inj, utf16Encode_inj] at heq

/-- Garbling keeps the lines apart. -/
theorem garbled_finished {out : List Char} (hgarbled : Garbled text out) :
    List.Forall₂ Garbled (finished '\n' text) (finished '\n' out) := by
  induction text using line_induction '\n' generalizing out with
  | hlast text htext =>
    have hout : '\n' ∉ out := fun hmem => htext (hgarbled.mem_of_ascii (by decide) hmem)
    rw [finished_of_not_mem htext, finished_of_not_mem hout]
    exact .nil
  | hline line text hline ih =>
    obtain ⟨line', out', rfl, hgline, hrest⟩ := hgarbled.of_append
    have hout : '\n' ∉ line' := fun hmem => hline (hgline.mem_of_ascii (by decide) hmem)
    cases hrest with
    | keep _ hrest =>
      rw [finished_line hline, finished_line hout]
      exact .cons hgline (ih hrest)
    | cut _ n hwide _ => exact absurd hwide (by decide)

/-- As many lines are delivered of a garbled text, and the same ones only if no finished line
is garbled. -/
theorem linesOf_garbled {lines outs : List (List Char)} (hlines : List.Forall₂ Garbled lines outs) :
    (lines.flatMap fun line => lineOf (utf16Encode line)).length =
        (outs.flatMap fun line => lineOf (utf16Encode line)).length ∧
      ((lines.flatMap fun line => lineOf (utf16Encode line)) =
        (outs.flatMap fun line => lineOf (utf16Encode line)) → lines = outs) := by
  induction hlines with
  | nil => exact ⟨rfl, fun _ => rfl⟩
  | cons hgarbled hrest ih =>
    obtain ⟨hlength, hinj⟩ := lineOf_garbled hgarbled
    rw [flatMap_cons, flatMap_cons, length_append, length_append, hlength, ih.1]
    refine ⟨rfl, fun heq => ?_⟩
    obtain ⟨hfirst, hlater⟩ := append_inj heq hlength
    rw [hinj hfirst, ih.2 hlater]

/-! ## Chunks of bytes -/

/-- No chunk that has a newline in it or after it begins inside a character. -/
def NoFinishedLineCut (chunks : List (List UInt8)) : Prop :=
  ∀ front back, chunks = front ++ back → 0x0A ∈ back.flatten →
    ∃ part, front.flatten = encode part

theorem newline_mem_encode (hmem : '\n' ∈ text) : 0x0A ∈ encode text := by
  rw [encode, mem_flatMap]
  exact ⟨'\n', hmem, by decide⟩

/-- A newline in the decoded chunks is a newline of the log. -/
theorem newline_mem_of_decoded {front back : List (List UInt8)}
    (htext : front.flatten ++ back.flatten = encode text) (hmem : '\n' ∈ back.flatMap decode) :
    0x0A ∈ back.flatten := by
  have hback : ∃ q rest, (∀ b ∈ q, Continuation b) ∧ back.flatten = q ++ encode rest := by
    rcases cut_cases htext with ⟨_, rest, -, -, hrest⟩ |
      ⟨_, c, rest, a, b, -, hchar, ha, -, -, hrest⟩
    · exact ⟨[], rest, by simp, hrest⟩
    · exact ⟨b, rest, continuation_of_cut hchar ha, hrest⟩
  obtain ⟨q, rest, hq, hback⟩ := hback
  obtain ⟨out, hout, hgarbled⟩ := garbled_of_pieces hq hback
  rw [hout, mem_append] at hmem
  rcases hmem with hmem | hmem
  · exact absurd (eq_of_mem_replicate hmem) (by decide)
  · rw [hback]
    exact mem_append_right _
      (newline_mem_encode (hgarbled.mem_of_ascii (by decide) hmem))

/-- The chunks up to the last newline of the log, and the log up to it. -/
structure LastNewline (chunks : List (List UInt8)) (text : List Char)
    (pieces : List (List UInt8)) (lines : List Char) : Prop where
  pieces_eq : pieces.flatten = encode (lines ++ ['\n'])
  finished_text : finished '\n' text = finished '\n' (lines ++ ['\n'])
  finished_out : finished '\n' (chunks.flatMap decode) = finished '\n' (pieces.flatMap decode)
  cut_iff : NoFinishedLineCut chunks ↔ ∀ p ∈ pieces, ∃ part, p = encode part

theorem exists_lastNewline (htext : chunks.flatten = encode text) (hmem : 0x0A ∈ chunks.flatten) :
    ∃ pieces lines, LastNewline chunks text pieces lines := by
  obtain ⟨front, a, b, back, rfl, hb, hback⟩ := exists_last_piece hmem
  have hsplit : encode text = (front.flatten ++ a) ++ 0x0A :: (b ++ back.flatten) := by
    rw [← htext]
    simp
  obtain ⟨lines, rest, rfl, hlines, hrest⟩ := encode_eq_append_ascii (by decide) hsplit
  have hpieces : (front ++ [a ++ [0x0A]]).flatten = encode (lines ++ ['\n']) := by
    rw [encode_append, ← hlines]
    simp [encode, String.utf8EncodeChar]
  refine ⟨front ++ [a ++ [0x0A]], lines, hpieces, ?_, ?_, ?_⟩
  · -- no newline is left after the last one
    have hnone : '\n' ∉ rest := fun hmem => by
      have hbytes := newline_mem_encode hmem
      rw [← hrest, mem_append] at hbytes
      exact hbytes.elim hb hback
    show finished '\n' (lines ++ '\n' :: rest) = _
    rw [append_cons, finished_append_of_not_mem _ hnone]
  · have hnone : '\n' ∉ (b :: back).flatMap decode := fun hmem => by
      have hwhole : (front ++ [a ++ [0x0A]]).flatten ++ (b :: back).flatten =
          encode (lines ++ '\n' :: rest) := by
        refine Eq.trans ?_ htext
        simp
      have hbytes := newline_mem_of_decoded hwhole hmem
      rw [flatten_cons, mem_append] at hbytes
      exact hbytes.elim hb hback
    have hout : (front ++ (a ++ 0x0A :: b) :: back).flatMap decode =
        (front ++ [a ++ [0x0A]]).flatMap decode ++ (b :: back).flatMap decode := by
      rw [flatMap_append, flatMap_cons, decode_append_ascii a b (by decide)]
      simp
    rw [hout, finished_append_of_not_mem _ hnone]
  · rw [whole_pieces_iff]
    constructor
    · intro hcut front' back' hfront
      rcases eq_nil_or_concat back' with rfl | ⟨back', last, rfl⟩
      · rw [append_nil] at hfront
        exact ⟨lines ++ ['\n'], hfront ▸ hpieces⟩
      · rw [concat_eq_append, ← append_assoc] at hfront
        obtain ⟨rfl, -⟩ := append_inj' hfront rfl
        exact hcut front' (back' ++ (a ++ 0x0A :: b) :: back) (by simp) (by simp)
    · intro hwhole front' back' hfront hmem
      rcases append_eq_append_iff.mp hfront with ⟨later, rfl, hlater⟩ | ⟨later, rfl, -⟩
      · cases later with
        | nil =>
          rw [append_nil]
          exact hwhole front [a ++ [0x0A]] rfl
        | cons chunk later =>
          rw [cons_append, List.cons.injEq] at hlater
          refine absurd ?_ hback
          rw [hlater.2, flatten_append]
          exact mem_append_right _ hmem
      · exact hwhole front' (later ++ [a ++ [0x0A]]) (by rw [append_assoc])

/-! ## Delivered lines -/

theorem flatMap_decode_prefix {front back : List (List UInt8)}
    (htext : chunks.flatten = encode text) (hcut : NoFinishedLineCut chunks)
    (hchunks : chunks = front ++ back) (hmem : 0x0A ∈ back.flatten) :
    ∃ rest, text = front.flatMap decode ++ rest ∧ back.flatten = encode rest := by
  have hwhole : ∀ p ∈ front, ∃ part, p = encode part := by
    rw [whole_pieces_iff]
    rintro front' back' rfl
    refine hcut front' (back' ++ back) (by rw [hchunks, append_assoc]) ?_
    rw [flatten_append]
    exact mem_append_right _ hmem
  obtain ⟨part, hpart⟩ := hcut front back hchunks hmem
  rw [decode_pieces_of_whole hwhole, hpart, decode_encode]
  rw [hchunks, flatten_append, hpart] at htext
  obtain ⟨rest, hrest⟩ := encode_of_append htext
  rw [hrest, ← encode_append] at htext
  exact ⟨rest, (encode_injective htext).symm, hrest⟩

/-- Without a cut in a finished line, what is pending stays as short as the lines are. -/
theorem pending_short (htext : chunks.flatten = encode text)
    (hshort : ∀ line ∈ finished LF (utf16Encode text), line.length ≤ MAX_PENDING_LINE_CHARS)
    (hcut : NoFinishedLineCut chunks) {front back : List JsString}
    (hchunks : chunks.map bufferToString = front ++ back) (hmem : LF ∈ back.flatten) :
    (unfinished LF ([] ++ front.flatten)).length ≤ MAX_PENDING_LINE_CHARS := by
  obtain ⟨front, back, rfl, rfl, rfl⟩ := map_eq_append_iff.mp hchunks
  rw [flatten_map_bufferToString, mem_utf16Encode_newline] at hmem
  rw [flatten_append] at htext
  have hbytes := newline_mem_of_decoded htext hmem
  rw [← flatten_append] at htext
  obtain ⟨rest, rfl, hrest⟩ := flatMap_decode_prefix htext hcut rfl hbytes
  have hnewline : LF ∈ utf16Encode rest := by
    obtain ⟨out, hout, hgarbled⟩ := garbled_of_pieces (q := []) (by simp) hrest
    rw [hout] at hmem
    exact mem_utf16Encode_newline.mpr (hgarbled.mem_of_ascii (by decide) hmem)
  rw [nil_append, flatten_map_bufferToString]
  obtain ⟨line, hline, hprefix⟩ :=
    unfinished_prefix_finished (utf16Encode (front.flatMap decode)) hnewline
  rw [← utf16Encode_append] at hline
  exact le_trans hprefix.length_le (hshort line hline)

theorem tailLines_sublist (chunks : List (List UInt8)) :
    (tailLines chunks).Sublist (linesOf (utf16Encode (chunks.flatMap decode))) := by
  rw [← flatten_map_bufferToString]
  exact pushAll_sublist _

/-- If the delivered lines are the lines of the log, no finished line is garbled. -/
theorem finished_eq_of_tailLines_eq (htext : chunks.flatten = encode text)
    (heq : tailLines chunks = linesOf (utf16Encode text)) :
    finished '\n' text = finished '\n' (chunks.flatMap decode) := by
  obtain ⟨out, hout, hgarbled⟩ := garbled_of_pieces (q := []) (by simp) htext
  obtain ⟨hlength, hinj⟩ := linesOf_garbled (garbled_finished hgarbled)
  rw [hout]
  apply hinj
  -- nothing was dropped, for as many lines would be missing
  have hsublist := tailLines_sublist chunks
  rw [hout, heq] at hsublist
  rw [← linesOf_utf16Encode, ← linesOf_utf16Encode] at hlength ⊢
  exact hsublist.eq_of_length hlength

theorem whole_of_finished_eq {pieces : List (List UInt8)} {lines : List Char}
    (hlast : LastNewline chunks text pieces lines)
    (heq : finished '\n' text = finished '\n' (chunks.flatMap decode)) :
    ∀ p ∈ pieces, ∃ part, p = encode part := by
  rw [← decode_pieces_iff hlast.pieces_eq, hlast.pieces_eq, decode_encode]
  obtain ⟨out, hout, hgarbled⟩ := garbled_of_pieces (q := []) (by simp) hlast.pieces_eq
  rw [length_nil, replicate_zero, nil_append] at hout
  obtain ⟨lines', newline, rfl, -, hnewline⟩ := hgarbled.of_append
  obtain rfl := hnewline.eq_singleton (by decide)
  rw [hlast.finished_text, hlast.finished_out, hout] at heq
  rw [hout, ← flatMap_finished lines', ← heq, flatMap_finished]

/-- For a log that is UTF-8 and has no overlong line, the delivered lines are the lines of the
decoded log exactly when no chunk boundary falls inside a character of a finished line. -/
theorem tailLines_eq_iff (chunks : List (List UInt8)) (text : List Char)
    (htext : chunks.flatten = encode text)
    (hshort : ∀ line ∈ finished LF (bufferToString chunks.flatten),
      line.length ≤ MAX_PENDING_LINE_CHARS) :
    tailLines chunks = linesOf (bufferToString chunks.flatten) ↔ NoFinishedLineCut chunks := by
  have hdecoded : bufferToString chunks.flatten = utf16Encode text := by
    rw [bufferToString, htext, decode_encode]
  rw [hdecoded] at hshort ⊢
  by_cases hmem : 0x0A ∈ chunks.flatten
  · obtain ⟨pieces, lines, hlast⟩ := exists_lastNewline htext hmem
    rw [hlast.cut_iff]
    refine ⟨fun heq => whole_of_finished_eq hlast (finished_eq_of_tailLines_eq htext heq),
      fun hwhole => ?_⟩
    have hout : pieces.flatMap decode = lines ++ ['\n'] := by
      rw [decode_pieces_of_whole hwhole, hlast.pieces_eq, decode_encode]
    rw [tailLines, Splitter.start, pushAll_of_short not_mem_nil fun front back =>
      pending_short htext hshort (hlast.cut_iff.mpr hwhole), nil_append,
      flatten_map_bufferToString, linesOf_utf16Encode, linesOf_utf16Encode, hlast.finished_out,
      hout, hlast.finished_text]
  · refine iff_of_true ?_ ?_
    · have hwhole : ([] : List (List UInt8)).flatten ++ chunks.flatten = encode text := htext
      have hnone : '\n' ∉ chunks.flatMap decode := fun hnewline =>
        hmem (newline_mem_of_decoded hwhole hnewline)
      have hnone' : '\n' ∉ text := fun hnewline => by
        rw [htext] at hmem
        exact hmem (newline_mem_encode hnewline)
      have hsublist := tailLines_sublist chunks
      rw [linesOf_utf16Encode, finished_of_not_mem hnone] at hsublist
      rw [linesOf_utf16Encode, finished_of_not_mem hnone']
      exact sublist_nil.mp hsublist
    · rintro front back rfl hback
      refine absurd ?_ hmem
      rw [flatten_append]
      exact mem_append_right _ hback

/-- The two bytes of a character of the unfinished line arrive apart. -/
theorem tailLines_eq_unfinished : tailLines [[0x61, 0x0D], [0x0A, 0xC3], [0xA9]] =
      linesOf (bufferToString [[0x61, 0x0D], [0x0A, 0xC3], [0xA9]].flatten) := by
  have htext : [[0x61, 0x0D], [0x0A, 0xC3], [0xA9]].flatten = encode ['a', '\r', '\n', 'é'] := by
    decide
  have hcut : NoFinishedLineCut [[0x61, 0x0D], [0x0A, 0xC3], [0xA9]] := by
    intro front back hchunks hmem
    match front, hchunks with
    | [], _ => exact ⟨[], rfl⟩
    | [first], hchunks =>
      obtain ⟨rfl, -⟩ := List.cons.inj hchunks
      exact ⟨['a', '\r'], by decide⟩
    | first :: second :: front, hchunks =>
      simp only [cons_append, List.cons.injEq] at hchunks
      obtain ⟨-, -, hrest⟩ := hchunks
      have hmem' : 0x0A ∈ (front ++ back).flatten := by
        rw [flatten_append]
        exact mem_append_right _ hmem
      rw [← hrest] at hmem'
      exact absurd hmem' (by decide)
  exact (tailLines_eq_iff _ _ htext (by decide +kernel)).mpr hcut

/-- The two bytes of a character of a finished line arrive apart. -/
theorem tailLines_ne_cut : [[0xC3], [0xA9, 0x0A]].flatten = encode ['é', '\n'] ∧
      tailLines [[0xC3], [0xA9, 0x0A]] ≠ linesOf (bufferToString [0xC3, 0xA9, 0x0A]) := by
  decide +kernel

end SquadPanel.LogIngest
