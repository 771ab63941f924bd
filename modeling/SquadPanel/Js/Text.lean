import Mathlib.Algebra.Group.Nat.Defs
import Mathlib.Algebra.Ring.Int.Defs
import Mathlib.Data.List.Basic

/-!
# JavaScript strings

A JavaScript string is a sequence of 16-bit code units, paired surrogates or
not; `length`, indexing and `trim` all work on the units.  Text literals of the
source are written as Lean strings and converted by `js`.
-/

namespace SquadPanel.Js

open List

/-- A string value: its UTF-16 code units. -/
abbrev JsString := List UInt16

/-- Two strings are equal when their units are. -/
instance lawfulBEqString : LawfulBEq JsString := inferInstance

/-- The one or two UTF-16 code units of a Unicode scalar value. -/
def utf16EncodeChar (c : Char) : List UInt16 :=
  let n := c.toNat
  if n < 0x10000 then [UInt16.ofNat n]
  else
    [UInt16.ofNat (0xD800 + (n - 0x10000) / 0x400), UInt16.ofNat (0xDC00 + (n - 0x10000) % 0x400)]

/-- The string of a list of Unicode scalar values. -/
def utf16Encode (text : List Char) : JsString := text.flatMap utf16EncodeChar

theorem utf16Encode_append (text text' : List Char) :
    utf16Encode (text ++ text') = utf16Encode text ++ utf16Encode text' :=
  flatMap_append

theorem utf16EncodeChar_append_inj {c c' : Char} {rest rest' : List UInt16}
    (heq : utf16EncodeChar c ++ rest = utf16EncodeChar c' ++ rest') : c = c' ∧ rest = rest' := by
  have hvalid : c.toNat < 0xD800 ∨ (0xDFFF < c.toNat ∧ c.toNat < 0x110000) := c.valid
  have hvalid' : c'.toNat < 0xD800 ∨ (0xDFFF < c'.toNat ∧ c'.toNat < 0x110000) := c'.valid
  have hunit {m n : Nat} (h : UInt16.ofNat m = UInt16.ofNat n) (hm : m < 0x10000)
      (hn : n < 0x10000) : m = n :=
    calc m = (UInt16.ofNat m).toNat := (UInt16.toNat_ofNat_of_lt hm).symm
      _ = (UInt16.ofNat n).toNat := congrArg UInt16.toNat h
      _ = n := UInt16.toNat_ofNat_of_lt hn
  have hchar (h : c.toNat = c'.toNat) : c = c' := by
    rw [← Char.ofNat_toNat c, h, Char.ofNat_toNat]
  unfold utf16EncodeChar at heq
  simp only at heq
  -- a surrogate pair and a single unit differ in their first unit
  split at heq <;> split at heq <;>
    simp only [cons_append, nil_append, List.cons.injEq] at heq
  · exact ⟨hchar (hunit heq.1 (by omega) (by omega)), heq.2⟩
  · have := hunit heq.1 (by omega) (by omega)
    omega
  · have := hunit heq.1 (by omega) (by omega)
    omega
  · have hhigh := hunit heq.1 (by omega) (by omega)
    have hlow := hunit heq.2.1 (by omega) (by omega)
    exact ⟨hchar (by omega), heq.2.2⟩

/-- A well-formed string determines its scalar values. -/
theorem utf16Encode_inj {text text' : List Char} :
    utf16Encode text = utf16Encode text' ↔ text = text' := by
  refine ⟨fun heq => ?_, fun heq => heq ▸ rfl⟩
  have hne (c : Char) (rest : List UInt16) : utf16EncodeChar c ++ rest ≠ [] := by
    unfold utf16EncodeChar
    simp only
    split <;> simp
  induction text generalizing text' with
  | nil =>
    cases text' with
    | nil => rfl
    | cons c' text' => exact absurd heq.symm (hne c' _)
  | cons c text ih =>
    cases text' with
    | nil => exact absurd heq (hne c _)
    | cons c' text' =>
      obtain ⟨rfl, hrest⟩ := utf16EncodeChar_append_inj heq
      rw [ih hrest]

/-- A text literal. -/
def js (literal : String) : JsString := utf16Encode literal.toList

/-- `\s` and the code units `trim` removes: WhiteSpace and LineTerminator. -/
def isWhitespace (u : UInt16) : Bool :=
  (0x09 ≤ u && u ≤ 0x0D) || u == 0x20 || u == 0xA0 || u == 0x1680 ||
    (0x2000 ≤ u && u ≤ 0x200A) || u == 0x2028 || u == 0x2029 || u == 0x202F ||
    u == 0x205F || u == 0x3000 || u == 0xFEFF

/-- Nothing but whitespace. -/
abbrev AllSpace (s : JsString) : Prop := ∀ u ∈ s, isWhitespace u = true

/-- `String.prototype.trim`. -/
def trim (s : JsString) : JsString :=
  ((s.dropWhile isWhitespace).reverse.dropWhile isWhitespace).reverse

theorem trim_isInfix (s : JsString) : trim s <:+: s := by
  unfold trim
  refine List.IsInfix.trans ?_ (dropWhile_suffix isWhitespace).isInfix
  rw [← reverse_infix, reverse_reverse]
  exact (dropWhile_suffix isWhitespace).isInfix

/-- `replace(/[…]+/g, r)`: every run of units of a class becomes the one unit `r`. -/
def replaceRuns (inClass : UInt16 → Bool) (r : UInt16) : JsString → JsString
  | [] => []
  | u :: s =>
    if inClass u then
      -- the unit that ends a run stands for it
      if s.head?.any inClass then replaceRuns inClass r s else r :: replaceRuns inClass r s
    else u :: replaceRuns inClass r s

theorem mem_replaceRuns {inClass : UInt16 → Bool} {r u : UInt16} {s : JsString}
    (hu : u ∈ replaceRuns inClass r s) : u = r ∨ (u ∈ s ∧ inClass u = false) := by
  induction s with
  | nil => simp [replaceRuns] at hu
  | cons v s ih =>
    unfold replaceRuns at hu
    have hlater (hin : u ∈ replaceRuns inClass r s) :
        u = r ∨ (u ∈ v :: s ∧ inClass u = false) :=
      (ih hin).imp_right fun h => ⟨mem_cons_of_mem _ h.1, h.2⟩
    split at hu
    · split at hu
      · exact hlater hu
      · rcases mem_cons.mp hu with rfl | hin
        · exact .inl rfl
        · exact hlater hin
    · next hv =>
      rcases mem_cons.mp hu with rfl | hin
      · exact .inr ⟨mem_cons_self .., by simpa using hv⟩
      · exact hlater hin

/-- Code unit classes of the patterns: `[0-9]`, `[A-Za-z]`. -/
def isDigit (u : UInt16) : Bool := 0x30 ≤ u && u ≤ 0x39

def isAsciiLetter (u : UInt16) : Bool := (0x41 ≤ u && u ≤ 0x5A) || (0x61 ≤ u && u ≤ 0x7A)

end SquadPanel.Js
