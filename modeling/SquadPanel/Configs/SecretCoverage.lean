import SquadPanel.Configs.SecretLines

/-!
# What the masker covers

The panel reads the password of `Rcon.cfg` with one expression and masks it with another.
The reader takes any whitespace, line ends included, around the key and the equals sign;
the masker takes blanks and tabs.  A password on a line that only the reader accepts is left
in the masked content, and this module says exactly when.
-/

namespace SquadPanel.Configs

open Js Lib Scanner List
open Option (map_eq_none_iff map_none map_some some_or none_or)

/-! ## The reader at a masked line

A text goes on with a masked line `lead ++ value` where a line begins.  Whatever the value
is, the reader's expression does one of four things from a given place before the line. -/

/-- A text within a line. -/
abbrev Inside (text : JsString) : Prop := ∀ u ∈ text, isLineTerminator u = false

/-- A text after which a line begins. -/
def Ended (text : JsString) : Prop := ∀ u ∈ text.getLast?, isLineTerminator u = true

theorem Ended.of_append {a b : JsString} (hended : Ended (a ++ b)) : Ended b := by
  intro u hu
  apply hended
  rw [getLast?_append, Option.mem_def.1 hu]
  rfl

theorem gaps_or_text (text : JsString) : AllSpace text ∨
      ∃ gaps u rest, text = gaps ++ u :: rest ∧ AllSpace gaps ∧ isWhitespace u = false := by
  obtain ⟨gaps, heq, hgaps, hhead⟩ := PASSWORD_RE.exists_gaps text
  cases hrest : text.dropWhile PASSWORD_RE.isGap with
  | nil =>
    rw [hrest, append_nil] at heq
    exact .inl (heq ▸ hgaps)
  | cons u rest =>
    rw [hrest] at heq hhead
    exact .inr ⟨gaps, u, rest, heq, hgaps, hhead u rfl⟩

theorem isWhitespace_of_isBlank {u : UInt16} (hu : isBlank u = true) : isWhitespace u = true := by
  simp only [isBlank, Bool.or_eq_true, beq_iff_eq] at hu
  rcases hu with rfl | rfl <;> rfl

section Lead

variable {lead : JsString} {gaps : JsString} {text : JsString}

/-- A lead from its key on. -/
def keyPart (lead : JsString) : JsString := lead.dropWhile isBlank

section
variable (hlead : (secretLineRe .password).IsLead lead)
include hlead

/-- The key of a lead is spelled in any case. -/
theorem exists_keyPart : ∃ blanks k word after tail, lead = blanks ++ keyPart lead ∧
      AllSpace blanks ∧ keyPart lead = (k :: word) ++ (after ++ 0x3D :: tail) ∧
        (k = 0x50 ∨ k = 0x70) ∧ word.length = 7 ∧ AllSpace after ∧ AllSpace tail := by
  obtain ⟨blanks, word, after, tail, rfl, hblanks, hword, hafter, htail⟩ := hlead
  have hkey : keyPart (blanks ++ (word ++ (after ++ 0x3D :: tail))) =
      word ++ (after ++ 0x3D :: tail) :=
    KeyPattern.dropWhile_gaps hblanks (KeyPattern.key_head hword _)
  cases word with
  | nil => cases hword
  | cons k word =>
    obtain ⟨hk, -⟩ := List.cons.inj hword
    refine ⟨blanks, k, word, after, tail, by rw [hkey],
      fun u hu => isWhitespace_of_isBlank (hblanks u hu), hkey, ?_, ?_,
      fun u hu => isWhitespace_of_isBlank (hafter u hu),
      fun u hu => isWhitespace_of_isBlank (htail u hu)⟩
    · have hk : foldCase k = 0x70 := hk
      unfold foldCase at hk
      split at hk
      · exact .inl ((UInt16.add_left_inj 0x20).1 hk)
      · exact .inr hk
    · have hlen := congrArg List.length hword
      have height : (secretLineRe .password).key.length = 8 := by decide
      rw [length_map, length_map, height, length_cons] at hlen
      omega

theorem keyPart_head (text : JsString) :
    ∃ k rest, keyPart lead ++ text = k :: rest ∧ isWhitespace k = false ∧ k ≠ 0x3D := by
  obtain ⟨-, k, word, after, tail, -, -, hkey, hk, -⟩ := exists_keyPart hlead
  refine ⟨k, word ++ (after ++ 0x3D :: tail) ++ text, by rw [hkey]; rfl, ?_⟩
  rcases hk with rfl | rfl <;> decide

theorem dropWhile_lead (hgaps : AllSpace gaps) (text : JsString) :
    (gaps ++ (lead ++ text)).dropWhile isWhitespace = keyPart lead ++ text := by
  obtain ⟨blanks, -, -, -, -, heq, hblanks, -⟩ := exists_keyPart hlead
  obtain ⟨k, rest, hhead, hk, -⟩ := keyPart_head hlead text
  conv_lhs => rw [heq]
  rw [append_assoc, dropWhile_append_of_pos hgaps, dropWhile_append_of_pos hblanks, hhead]
  exact dropWhile_cons_of_neg (by simp [hk])

end

theorem dropWhile_text {rest : JsString} {u : UInt16}
    (hgaps : AllSpace gaps) (hu : isWhitespace u = false) (text : JsString) :
    ((gaps ++ u :: rest) ++ text).dropWhile isWhitespace = (u :: rest) ++ text := by
  rw [append_assoc, dropWhile_append_of_pos hgaps]
  exact dropWhile_cons_of_neg (by simp [hu])

/-- The key cannot reach over a line end. -/
theorem afterKey_cases (hended : Ended text) (hne : text ≠ []) :
    (∀ rest, PASSWORD_RE.afterKey (text ++ rest) = none) ∨
      ∃ text', text = js "Password" ++ text' ∧
        ∀ rest, PASSWORD_RE.afterKey (text ++ rest) = some (text' ++ rest) := by
  have hletters : Inside (js "Password") := by
    have hnone : (js "Password").any isLineTerminator = false := by decide
    simpa using hnone
  by_cases hkey : js "Password" <+: text
  · obtain ⟨text', rfl⟩ := hkey
    refine .inr ⟨text', rfl, fun rest => ?_⟩
    show (if ((js "Password" ++ (text' ++ rest)).take (js "Password").length).map id =
      (js "Password").map id then some ((js "Password" ++ (text' ++ rest)).drop
        (js "Password").length) else none) = _
    rw [take_left, drop_left, if_pos rfl]
  · refine .inl fun rest => ?_
    unfold KeyPattern.afterKey
    split
    · next hfound =>
      have hfound : (text ++ rest).take (js "Password").length = js "Password" := by
        simpa [PASSWORD_RE] using hfound
      have hwhole : js "Password" <+: text ++ rest := hfound ▸ take_prefix _ _
      rcases prefix_or_prefix_of_prefix hwhole (prefix_append text rest) with hin | hout
      · exact absurd hin hkey
      · have hlast := hended _ (getLast?_eq_some_getLast hne)
        rw [hletters _ (hout.subset (getLast_mem hne))] at hlast
        cases hlast
    · rfl

theorem afterLead_eq (text : JsString) : PASSWORD_RE.afterLead text =
      (PASSWORD_RE.afterKey (text.dropWhile isWhitespace)).bind fun rest =>
        (afterEquals (rest.dropWhile isWhitespace)).map fun text => text.dropWhile isWhitespace :=
  rfl

/-- The lead is the reader's own line if its key is spelled as the reader wants it. -/
theorem afterLead_gaps (hlead : (secretLineRe .password).IsLead lead) (hgaps : AllSpace gaps) :
    (∀ text, PASSWORD_RE.afterLead (gaps ++ (lead ++ text)) = none) ∨
      ∀ text, PASSWORD_RE.afterLead (gaps ++ (lead ++ text)) =
        some (text.dropWhile isWhitespace) := by
  obtain ⟨blanks, k, word, after, tail, heq, hblanks, hkey, -, hlen, hafter, htail⟩ :=
    exists_keyPart hlead
  by_cases hword : k :: word = js "Password"
  · refine .inr fun text => ?_
    have hreader : PASSWORD_RE.IsLead (gaps ++ lead) := by
      refine ⟨gaps ++ blanks, k :: word, after, tail, ?_,
        forall_mem_append.2 ⟨hgaps, hblanks⟩, congrArg (List.map id) hword, hafter, htail⟩
      rw [append_assoc, ← hkey, ← heq]
    rw [← append_assoc]
    exact KeyPattern.afterLead_append hreader text
  · refine .inl fun text => ?_
    rw [afterLead_eq, dropWhile_lead hlead hgaps, hkey, append_assoc]
    have height : PASSWORD_RE.key.length = (k :: word).length := by
      rw [length_cons, hlen]
      decide
    rw [KeyPattern.afterKey, height, take_left, if_neg, Option.bind_none]
    rw [show PASSWORD_RE.fold = id from rfl, map_id, map_id]
    exact hword

/-- What the reader's expression makes of a text that goes on with a masked line: it fails
before the value, or it takes the line for its own, or it takes the line for the value, or
its value is over before the line begins. -/
theorem afterLead_cases (hlead : (secretLineRe .password).IsLead lead) (hended : Ended text) :
    (∀ rest, PASSWORD_RE.afterLead (text ++ (lead ++ rest)) = none) ∨
      (AllSpace text ∧ ∀ rest,
        PASSWORD_RE.afterLead (text ++ (lead ++ rest)) = some (rest.dropWhile isWhitespace)) ∨
      (¬ AllSpace text ∧ ∀ rest,
        PASSWORD_RE.afterLead (text ++ (lead ++ rest)) = some (keyPart lead ++ rest)) ∨
      ∃ front value, text = front ++ value ∧ value ≠ [] ∧ Ended value ∧ ∀ rest,
        PASSWORD_RE.afterLead (text ++ (lead ++ rest)) = some (value ++ (lead ++ rest)) := by
  rcases gaps_or_text text with hgaps | ⟨gaps, u, word, rfl, hgaps, hu⟩
  · rcases afterLead_gaps hlead hgaps with hnone | hsome
    · exact .inl hnone
    · exact .inr (.inl ⟨hgaps, hsome⟩)
  have htext : ¬ AllSpace (gaps ++ u :: word) := by
    intro hall
    rw [hall u (by simp)] at hu
    cases hu
  rcases afterKey_cases hended.of_append (cons_ne_nil _ _) with hnone | ⟨keyed, hkeyed, hkey⟩
  · refine .inl fun rest => ?_
    rw [afterLead_eq, dropWhile_text hgaps hu, hnone, Option.bind_none]
  -- the key stands before the line, with the rest `keyed` of the text after it
  have hstep (rest : JsString) :
      PASSWORD_RE.afterLead ((gaps ++ u :: word) ++ (lead ++ rest)) =
        (afterEquals ((keyed ++ (lead ++ rest)).dropWhile isWhitespace)).map
          fun text => text.dropWhile isWhitespace := by
    rw [afterLead_eq, dropWhile_text hgaps hu, hkey, Option.bind_some]
  have hended : Ended keyed := (hkeyed ▸ hended.of_append).of_append
  rcases gaps_or_text keyed with hgaps' | ⟨gaps', v, valued, rfl, hgaps', hv⟩
  · refine .inl fun rest => ?_
    obtain ⟨k, tail, hhead, -, hk⟩ := keyPart_head hlead rest
    rw [hstep, dropWhile_lead hlead hgaps', hhead, afterEquals, if_neg hk]
    rfl
  by_cases hequals : v = 0x3D
  · have hstep (rest : JsString) :
        PASSWORD_RE.afterLead ((gaps ++ u :: word) ++ (lead ++ rest)) =
          some ((valued ++ (lead ++ rest)).dropWhile isWhitespace) := by
      rw [hstep, dropWhile_text hgaps' hv, cons_append, afterEquals, if_pos hequals]
      rfl
    have hended : Ended valued := by
      rw [append_cons] at hended
      exact hended.of_append
    rcases gaps_or_text valued with hgaps'' | ⟨gaps'', w, value, rfl, hgaps'', hw⟩
    · refine .inr (.inr (.inl ⟨htext, fun rest => ?_⟩))
      rw [hstep, dropWhile_lead hlead hgaps'']
    · refine .inr (.inr (.inr ⟨gaps ++ js "Password" ++ gaps' ++ v :: gaps'', w :: value, ?_,
        cons_ne_nil _ _, hended.of_append, fun rest => ?_⟩))
      · rw [hkeyed]
        simp
      · rw [hstep, dropWhile_text hgaps'' hw]
  · refine .inl fun rest => ?_
    rw [hstep, dropWhile_text hgaps' hv, cons_append, afterEquals, if_neg hequals]
    rfl

end Lead

/-! ## The masked line -/

/-- The first line that is masked, with the text before it. -/
def firstMasked : List (Piece UInt16 KeyLine) → Option (JsString × KeyLine)
  | [] => none
  | .letter u :: ps => (firstMasked ps).map fun found => (u :: found.1, found.2)
  | .hit line :: ps =>
    if trim line.value = [] then
      (firstMasked ps).map fun found => (line.text ++ found.1, found.2)
    else some ([], line)

/-- The text of the pieces after masking. -/
abbrev maskedText (ps : List (Piece UInt16 KeyLine)) : JsString :=
  render (fun line => (maskLine line).text) ps

variable {ps : List (Piece UInt16 KeyLine)} {prev : Option UInt16} {line : KeyLine}
  {before : JsString} {text : JsString} {lead : JsString} {password : JsString}

theorem maskedText_of_none (hnone : firstMasked ps = none) :
    maskedText ps = render KeyLine.text ps := by
  induction ps with
  | nil => rfl
  | cons p ps ih =>
    cases p with
    | letter u =>
      rw [firstMasked, map_eq_none_iff] at hnone
      exact congrArg (u :: ·) (ih hnone)
    | hit line =>
      rw [firstMasked] at hnone
      split at hnone
      · next hblank =>
        rw [map_eq_none_iff] at hnone
        rw [maskedText, render_hit, render_hit, maskLine, if_pos hblank]
        exact congrArg (line.text ++ ·) (ih hnone)
      · cases hnone

/-- Up to the first masked line, masking changes nothing. -/
structure MaskedAt (prev : Option UInt16) (ps : List (Piece UInt16 KeyLine)) (before : JsString)
    (line : KeyLine) (after : List (Piece UInt16 KeyLine)) : Prop where
  text : render KeyLine.text ps = before ++ (line.lead ++ (line.value ++ render KeyLine.text after))
  masked : maskedText ps = before ++ (line.lead ++ (CONFIG_SECRET_MASK ++ maskedText after))
  lead : (secretLineRe .password).IsLead line.lead
  start : atLineStart (lastOf prev before) = true
  next : NextLine after

theorem exists_maskedAt (hscanned : (secretLineRe .password).scanner.Scanned prev ps)
    (hsome : firstMasked ps = some (before, line)) :
    ∃ after, MaskedAt prev ps before line after := by
  induction ps generalizing prev before with
  | nil => cases hsome
  | cons p ps ih =>
    cases p with
    | letter u =>
      obtain ⟨⟨before', line'⟩, hfound, heq⟩ := Option.map_eq_some_iff.1 hsome
      cases heq
      obtain ⟨after, hat⟩ := ih hscanned.2 hfound
      exact ⟨after, congrArg (u :: ·) hat.text, congrArg (u :: ·) hat.masked, hat.lead,
        hat.start, hat.next⟩
    | hit line' =>
      rw [firstMasked] at hsome
      split at hsome
      · next hblank =>
        obtain ⟨⟨before', line''⟩, hfound, heq⟩ := Option.map_eq_some_iff.1 hsome
        cases heq
        obtain ⟨after, hat⟩ := ih hscanned.2 hfound
        refine ⟨after, ?_, ?_, hat.lead, ?_, hat.next⟩
        · rw [render_hit, hat.text, append_assoc]
        · rw [maskedText, render_hit, maskLine, if_pos hblank, append_assoc]
          exact congrArg (line'.text ++ ·) hat.masked
        · rw [lastOf_append]
          exact hat.start
      · next hvalue =>
        cases hsome
        obtain ⟨hstart, hcut, hnext⟩ := cut_of_scanned hscanned
        refine ⟨ps, ?_, ?_, hcut.lead, hstart, hnext⟩
        · exact append_assoc _ _ _
        · rw [maskedText, render_hit, maskLine, if_neg hvalue]
          exact append_assoc _ _ _

theorem MaskedAt.ended {after : List (Piece UInt16 KeyLine)}
    (hat : MaskedAt prev ps before line after) : Ended before := by
  intro u hu
  obtain ⟨front, rfl⟩ := getLast?_eq_some_iff.1 (Option.mem_def.1 hu)
  have hstart := hat.start
  rwa [lastOf_append] at hstart

/-! ## One place of the masked text -/

/-- The value that starts a text. -/
def valueOf (text : JsString) : JsString := text.takeWhile fun u => !isLineTerminator u

theorem matchAt_of_afterLead {rest : JsString} (hstart : atLineStart prev = true)
    (hrest : PASSWORD_RE.afterLead text = some rest) : PASSWORD_RE.matchAt prev text =
      some ⟨text.take (text.length - rest.length), valueOf rest⟩ := by
  rw [KeyPattern.matchAt, if_pos hstart, hrest]
  rfl

theorem CONFIG_SECRET_MASK_line : Inside CONFIG_SECRET_MASK := by
  have hunits : CONFIG_SECRET_MASK.any isLineTerminator = false := by decide
  simpa using hunits

theorem valueOf_mask {front : JsString} (hfront : Inside front)
    (hnext : NextLine ps) :
    valueOf (front ++ (CONFIG_SECRET_MASK ++ maskedText ps)) = front ++ CONFIG_SECRET_MASK := by
  have htext : Inside (front ++ CONFIG_SECRET_MASK) :=
    forall_mem_append.2 ⟨hfront, CONFIG_SECRET_MASK_line⟩
  rw [valueOf, ← append_assoc,
    takeWhile_append_of_pos fun u hu => by rw [htext u hu]; rfl]
  rcases hnext with rfl | ⟨u, ps, rfl, hbreak⟩
  · exact append_nil _
  · rw [maskedText, render_letter, takeWhile_cons_of_neg, append_nil]
    rw [isLineTerminator_of_isLineBreak hbreak]
    decide

theorem valueOf_ended {value : JsString} (hended : Ended value) (hne : value ≠ [])
    (rest : JsString) :
    valueOf (value ++ rest) = valueOf value ∧ (valueOf value).length ≤ value.length := by
  refine ⟨?_, (List.takeWhile_prefix _).length_le⟩
  rw [valueOf, takeWhile_append, if_neg, valueOf]
  intro hlen
  have hall := (List.takeWhile_prefix (l := value) fun u => !isLineTerminator u).eq_of_length hlen
  have hlast := takeWhile_eq_self_iff.1 hall _ (getLast_mem hne)
  rw [hended _ (getLast?_eq_some_getLast hne)] at hlast
  cases hlast

section
variable (hlead : (secretLineRe .password).IsLead lead)
include hlead

theorem keyPart_line : Inside (keyPart lead) :=
  fun _ hu => isLineTerminator_of_mem_lead hlead ((dropWhile_suffix _).subset hu)

theorem length_keyPart_le (rest : JsString) :
    (keyPart lead).length ≤ (valueOf (keyPart lead ++ rest)).length := by
  rw [valueOf, takeWhile_append_of_pos fun u hu => by rw [keyPart_line hlead u hu]; rfl,
    length_append]
  omega

theorem trim_keyPart_mask :
    trim (keyPart lead ++ CONFIG_SECRET_MASK) = keyPart lead ++ CONFIG_SECRET_MASK := by
  obtain ⟨k, rest, hhead, hk, -⟩ := keyPart_head hlead []
  rw [append_nil] at hhead
  refine trim_eq_self (Trimmed.append ?_ ?_ (by simp [hhead]) CONFIG_SECRET_MASK_ne_nil)
  · rw [hhead]
    intro u hu
    cases hu
    exact hk
  · have hlast : CONFIG_SECRET_MASK.getLast? = some 0x2A := by decide
    intro u hu
    cases hu
    rfl

end

/-- What is left of the value that the reader finds at the first of the pieces: all of it, if
it is over before a masked line begins; the mask, if it stands on that line; otherwise the
value begins with the line, and the key is left. -/
def shownValue (found : KeyLine) (ps : List (Piece UInt16 KeyLine)) : JsString :=
  match firstMasked ps with
  | none => trim found.value
  | some (before, line) =>
    if found.text.length ≤ before.length then trim found.value
    else if before.all isWhitespace then CONFIG_SECRET_MASK
    else keyPart line.lead ++ CONFIG_SECRET_MASK

/-- The reader matches the masked text where it matches the text. -/
theorem matchAt_maskedText (hscanned : (secretLineRe .password).scanner.Scanned prev ps) :
    (PASSWORD_RE.matchAt prev (maskedText ps)).map (fun found => trim found.value) =
      (PASSWORD_RE.matchAt prev (render KeyLine.text ps)).map
        fun found => shownValue found ps := by
  cases hmasked : firstMasked ps with
  | none => simp only [maskedText_of_none hmasked, shownValue, hmasked]
  | some found =>
    obtain ⟨before, line⟩ := found
    obtain ⟨after, hat⟩ := exists_maskedAt hscanned hmasked
    have hpos := length_pos_of_ne_nil hat.lead.ne_nil
    simp only [shownValue, hmasked]
    rw [hat.text, hat.masked]
    by_cases hstart : atLineStart prev = true
    · rcases afterLead_cases hat.lead hat.ended with
        hnone | ⟨hgaps, hown⟩ | ⟨hgaps, hvalue⟩ | ⟨front, value, rfl, hne, hended, hover⟩
      · simp only [KeyPattern.matchAt, hnone, map_none, ite_self]
      · rw [matchAt_of_afterLead hstart (hown _), matchAt_of_afterLead hstart (hown _)]
        generalize hrest : line.value ++ render KeyLine.text after = rest
        have hshort := (dropWhile_suffix (l := rest) isWhitespace).length_le
        have hstop : (CONFIG_SECRET_MASK ++ maskedText after).dropWhile isWhitespace =
            CONFIG_SECRET_MASK ++ maskedText after :=
          dropWhile_cons_of_neg (by decide)
        have hmask := valueOf_mask (forall_mem_nil _) hat.next
        rw [nil_append, nil_append] at hmask
        rw [map_some, map_some, hstop, hmask, trim_CONFIG_SECRET_MASK, if_neg,
          if_pos (all_eq_true.2 hgaps)]
        simp only [KeyLine.text, length_append, length_take]
        omega
      · rw [matchAt_of_afterLead hstart (hvalue _), matchAt_of_afterLead hstart (hvalue _)]
        generalize hrest : line.value ++ render KeyLine.text after = rest
        obtain ⟨blanks, -, -, -, -, heq, -⟩ := exists_keyPart hat.lead
        have hlong := length_keyPart_le hat.lead rest
        rw [map_some, map_some, valueOf_mask (keyPart_line hat.lead) hat.next,
          trim_keyPart_mask hat.lead, if_neg, if_neg (by rwa [all_eq_true])]
        simp only [KeyLine.text, length_append, length_take]
        omega
      · rw [matchAt_of_afterLead hstart (hover _), matchAt_of_afterLead hstart (hover _)]
        obtain ⟨hsame, hshort⟩ :=
          valueOf_ended hended hne (line.lead ++ (CONFIG_SECRET_MASK ++ maskedText after))
        obtain ⟨hsame', -⟩ :=
          valueOf_ended hended hne (line.lead ++ (line.value ++ render KeyLine.text after))
        rw [map_some, map_some, hsame, hsame', if_pos]
        simp only [KeyLine.text, length_append, length_take]
        omega
    · simp only [KeyPattern.matchAt, if_neg hstart, map_none]

/-! ## Reading on from a place -/

/-- The password as read from a place on. -/
def readFrom (prev : Option UInt16) (text : JsString) : Option JsString :=
  (firstMatch PASSWORD_RE.matchAt prev text).map fun found => trim found.value

/-- The password if the expression matches at a line start before `text`. -/
def readAtStart (text : JsString) : Option JsString :=
  (PASSWORD_RE.afterLead text).map fun rest => trim (valueOf rest)

theorem matchAt_map (prev : Option UInt16) (text : JsString) :
    (PASSWORD_RE.matchAt prev text).map (fun found => trim found.value) =
      if atLineStart prev then readAtStart text else none := by
  unfold KeyPattern.matchAt readAtStart
  split
  · rw [Option.map_map]
    rfl
  · rfl

theorem readFrom_nil (prev : Option UInt16) : readFrom prev [] = none := by
  show (PASSWORD_RE.matchAt prev []).map _ = none
  rw [matchAt_map]
  exact ite_self none

theorem readFrom_cons (prev : Option UInt16) (u : UInt16) (text : JsString) :
    readFrom prev (u :: text) =
      ((PASSWORD_RE.matchAt prev (u :: text)).map fun found => trim found.value).or
        (readFrom (some u) text) := by
  unfold readFrom
  rw [firstMatch]
  cases PASSWORD_RE.matchAt prev (u :: text) <;> rfl

theorem readFrom_of_matchAt
    (hmatch : (PASSWORD_RE.matchAt prev text).map (fun found => trim found.value) =
      some password) : readFrom prev text = some password := by
  cases text with
  | nil => exact hmatch
  | cons u text => rw [readFrom_cons, hmatch, some_or]

theorem readFrom_of_readAtStart (hstart : atLineStart prev = true)
    (hread : readAtStart text = some password) : readFrom prev text = some password :=
  readFrom_of_matchAt (by rw [matchAt_map, if_pos hstart, hread])

theorem readAtStart_gaps {gaps : JsString} (hgaps : AllSpace gaps)
    (text : JsString) : readAtStart (gaps ++ text) = readAtStart text := by
  have hdrop : (gaps ++ text).dropWhile isWhitespace = text.dropWhile isWhitespace :=
    dropWhile_append_of_pos hgaps
  show ((PASSWORD_RE.afterKey ((gaps ++ text).dropWhile isWhitespace)).bind _).map _ = _
  rw [hdrop]
  rfl

/-- Within a line the reader finds nothing. -/
theorem readFrom_append (hprev : atLineStart prev = false)
    (htext : Inside text) (rest : JsString) :
    readFrom prev (text ++ rest) = readFrom (lastOf prev text) rest := by
  induction text generalizing prev with
  | nil => rfl
  | cons u text ih =>
    have hnone : atLineStart prev ≠ true := by simp [hprev]
    rw [cons_append, readFrom_cons, matchAt_map, if_neg hnone, none_or, lastOf_cons]
    exact ih (htext u mem_cons_self) fun v hv => htext v (mem_cons_of_mem _ hv)

/-- Before a line end it does not matter what precedes. -/
theorem readFrom_lineTerminator {u : UInt16} (hu : isLineTerminator u = true) (text : JsString)
    (prev : Option UInt16) :
    readFrom prev (u :: text) = (readAtStart text).or (readFrom (some u) text) := by
  have hstart : atLineStart (some u) = true := hu
  have hgap : readAtStart (u :: text) = readAtStart text :=
    readAtStart_gaps (forall_mem_singleton.2 (isWhitespace_of_isLineTerminator hu)) text
  rw [readFrom_cons, matchAt_map, hgap]
  split
  · rfl
  · cases hread : readAtStart text with
    | none => rfl
    | some password => rw [none_or, some_or, readFrom_of_readAtStart hstart hread]

/-- A line end or nothing at all. -/
def LineEnd (text : JsString) : Prop := ∀ u ∈ text.head?, isLineTerminator u = true

theorem readFrom_lineEnd (hend : LineEnd text) (prev prev' : Option UInt16) :
    readFrom prev text = readFrom prev' text := by
  cases text with
  | nil => rw [readFrom_nil, readFrom_nil]
  | cons u text =>
    have hu := hend u rfl
    rw [readFrom_lineTerminator hu, readFrom_lineTerminator hu]

/-- Whitespace before a line end hides nothing and shows nothing. -/
theorem readFrom_gaps {gaps : JsString} (hgaps : AllSpace gaps)
    (hend : LineEnd text) (prev : Option UInt16) :
    readFrom prev (gaps ++ text) = readFrom (lastOf prev gaps) text := by
  have hstart (prev : Option UInt16) (password : JsString)
      (hread : readAtStart text = some password) : readFrom prev text = some password := by
    rw [readFrom_lineEnd hend prev none]
    exact readFrom_of_readAtStart rfl hread
  induction gaps generalizing prev with
  | nil => rfl
  | cons u gaps ih =>
    have hrest : AllSpace gaps := fun v hv =>
      hgaps v (mem_cons_of_mem _ hv)
    have hskip : readAtStart (u :: (gaps ++ text)) = readAtStart text :=
      readAtStart_gaps hgaps text
    rw [cons_append, readFrom_cons, matchAt_map, hskip, ih hrest, lastOf_cons]
    split
    · cases hread : readAtStart text with
      | none => rfl
      | some password => rw [some_or, hstart _ _ hread]
    · rfl

theorem lineEnd_maskedText (hnext : NextLine ps) : LineEnd (maskedText ps) := by
  intro u hu
  rcases hnext with rfl | ⟨v, ps, rfl, hbreak⟩
  · cases hu
  · cases hu
    exact isLineTerminator_of_isLineBreak hbreak

theorem atLineStart_lastOf (hprev : atLineStart prev = false)
    (htext : Inside text) : atLineStart (lastOf prev text) = false := by
  induction text generalizing prev with
  | nil => exact hprev
  | cons u text ih =>
    exact ih (htext u mem_cons_self) fun v hv => htext v (mem_cons_of_mem _ hv)

theorem readFrom_lead {rest : JsString} (hlead : (secretLineRe .password).IsLead lead)
    (hnone : PASSWORD_RE.matchAt prev (lead ++ rest) = none) :
    readFrom prev (lead ++ rest) = readFrom (lastOf prev lead) rest ∧
      atLineStart (lastOf prev lead) = false := by
  have hline (u : UInt16) (hu : u ∈ lead) := isLineTerminator_of_mem_lead hlead hu
  cases lead with
  | nil => exact absurd rfl hlead.ne_nil
  | cons u lead =>
    have hfirst : atLineStart (some u) = false := hline u mem_cons_self
    have hrest (v : UInt16) (hv : v ∈ lead) := hline v (mem_cons_of_mem _ hv)
    rw [cons_append] at hnone
    rw [cons_append, readFrom_cons, hnone, map_none, none_or, lastOf_cons]
    exact ⟨readFrom_append hfirst hrest rest, atLineStart_lastOf hfirst hrest⟩

/-- A line that the reader does not take for its own is passed over. -/
theorem readFrom_hit (hscanned : (secretLineRe .password).scanner.Scanned prev (.hit line :: ps))
    (hnone : PASSWORD_RE.matchAt prev (maskedText (.hit line :: ps)) = none) :
    readFrom prev (maskedText (.hit line :: ps)) =
      readFrom (lastOf prev line.text) (maskedText ps) := by
  obtain ⟨-, hcut, hnext⟩ := cut_of_scanned hscanned
  have hend := lineEnd_maskedText hnext
  rw [maskedText, render_hit] at hnone ⊢
  by_cases hblank : trim line.value = []
  · rw [maskLine, if_pos hblank, KeyLine.text, append_assoc] at hnone ⊢
    rw [(readFrom_lead hcut.lead hnone).1, readFrom_gaps (trim_eq_nil.1 hblank) hend]
    exact readFrom_lineEnd hend _ _
  · have htext : (maskLine line).text = line.lead ++ CONFIG_SECRET_MASK := by
      rw [maskLine, if_neg hblank]
      rfl
    rw [htext, append_assoc] at hnone ⊢
    obtain ⟨hread, hstart⟩ := readFrom_lead hcut.lead hnone
    rw [hread, readFrom_append hstart CONFIG_SECRET_MASK_line]
    exact readFrom_lineEnd hend _ _

/-! ## When the password stays readable -/

/-- The first place where the reader's expression matches the content, places inside the
masker's matches left out: what it finds, and the pieces from there on. -/
def firstAccepted : Option UInt16 → List (Piece UInt16 KeyLine) →
    Option (KeyLine × List (Piece UInt16 KeyLine))
  | _, [] => none
  | prev, p :: ps =>
    match PASSWORD_RE.matchAt prev (render KeyLine.text (p :: ps)) with
    | some found => some (found, p :: ps)
    | none => firstAccepted (lastOf prev (render KeyLine.text [p])) ps

theorem readFrom_maskedText (hscanned : (secretLineRe .password).scanner.Scanned prev ps) :
    readFrom prev (maskedText ps) =
      (firstAccepted prev ps).map fun found => shownValue found.1 found.2 := by
  induction ps generalizing prev with
  | nil => exact readFrom_nil prev
  | cons p ps ih =>
    have hplace := matchAt_maskedText hscanned
    rw [firstAccepted]
    cases p with
    | letter u =>
      rw [maskedText, render_letter, readFrom_cons, ← render_letter, hplace]
      cases PASSWORD_RE.matchAt prev (render KeyLine.text (.letter u :: ps)) with
      | some found => rfl
      | none => exact ih hscanned.2
    | hit line =>
      cases hfound : PASSWORD_RE.matchAt prev (render KeyLine.text (.hit line :: ps)) with
      | some found =>
        rw [hfound] at hplace
        exact readFrom_of_matchAt hplace
      | none =>
        rw [hfound, map_none, map_eq_none_iff] at hplace
        rw [readFrom_hit hscanned hplace, render_hit, render_nil, append_nil]
        exact ih hscanned.2

/-- The password is left in the masked content: where the reader finds it, no masked line
has begun before the end of its value; or its value begins with a masked line, and what is
left of that line is the password. -/
def Leaks (content password : JsString) : Prop :=
  ∃ found after,
    firstAccepted none ((secretLineRe .password).scanner.pieces content) = some (found, after) ∧
      match firstMasked after with
      | none => trim found.value = password
      | some (before, line) =>
        if found.text.length ≤ before.length then trim found.value = password
        else before.all isWhitespace = false ∧ keyPart line.lead ++ CONFIG_SECRET_MASK = password

end SquadPanel.Configs
