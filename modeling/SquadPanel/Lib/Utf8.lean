import Mathlib.Data.List.Basic
import Mathlib.Data.Char

/-!
# UTF-8 decoding with replacement

The decoder of the Encoding Standard: bytes that do not form a character are
replaced by U+FFFD, one for each maximal prefix of a character and one for each
byte that cannot start or continue one.  The encoder is `String.utf8EncodeChar`.

`decode_pieces_iff` says when bytes may be decoded piece by piece: exactly when
no piece begins or ends inside a character.
-/

namespace SquadPanel.Lib.Utf8

open List
open String (utf8EncodeChar)
open Char (ofNat ofNat_toNat)

/-- U+FFFD -/
def replacement : Char := ofNat 0xFFFD

/-- A character begun: the bytes it still needs, its bits so far, and the range the
next byte must be in. -/
structure Partial where
  needed : Nat
  codePoint : Nat
  lower : Nat
  upper : Nat

/-- A byte at the start of a character: the characters it completes, and the
character it begins. -/
def firstByte (b : Nat) : List Char × Option Partial :=
  if b ≤ 0x7F then ([ofNat b], none)
  else if 0xC2 ≤ b ∧ b ≤ 0xDF then ([], some ⟨1, b - 0xC0, 0x80, 0xBF⟩)
  else if 0xE0 ≤ b ∧ b ≤ 0xEF then
    ([], some ⟨2, b - 0xE0, if b = 0xE0 then 0xA0 else 0x80, if b = 0xED then 0x9F else 0xBF⟩)
  else if 0xF0 ≤ b ∧ b ≤ 0xF4 then
    ([], some ⟨3, b - 0xF0, if b = 0xF0 then 0x90 else 0x80, if b = 0xF4 then 0x8F else 0xBF⟩)
  else ([replacement], none)

/-- A byte inside a character. -/
def nextByte (p : Partial) (b : Nat) : List Char × Option Partial :=
  if p.lower ≤ b ∧ b ≤ p.upper then
    if p.needed = 1 then ([ofNat (p.codePoint * 64 + (b - 0x80))], none)
    else ([], some ⟨p.needed - 1, p.codePoint * 64 + (b - 0x80), 0x80, 0xBF⟩)
  else
    -- the byte is read again as the start of a character
    (replacement :: (firstByte b).1, (firstByte b).2)

def step (p : Option Partial) (b : UInt8) : List Char × Option Partial :=
  match p with
  | none => firstByte b.toNat
  | some p => nextByte p b.toNat

def decodeFrom : Option Partial → List UInt8 → List Char
  | none, [] => []
  | some _, [] => [replacement]
  | p, b :: bs => (step p b).1 ++ decodeFrom (step p b).2 bs

/-- The text of a byte string. -/
def decode (bytes : List UInt8) : List Char := decodeFrom none bytes

/-- The bytes of a text. -/
def encode (text : List Char) : List UInt8 := text.flatMap utf8EncodeChar

example : decode [0xC3] = [replacement] := by decide

/-- The characters some bytes complete, and the character they leave begun. -/
def run : Option Partial → List UInt8 → List Char × Option Partial
  | p, [] => ([], p)
  | p, b :: bs => ((step p b).1 ++ (run (step p b).2 bs).1, (run (step p b).2 bs).2)

theorem decodeFrom_append (p : Option Partial) (a b : List UInt8) :
    decodeFrom p (a ++ b) = (run p a).1 ++ decodeFrom (run p a).2 b := by
  induction a generalizing p with
  | nil => rfl
  | cons x a ih => simp [decodeFrom, run, ih]

/-! ### One character -/

/-- The scalar value of a character and its encoding, by the number of bytes. -/
theorem encodeChar_cases (c : Char) :
    (c.toNat ≤ 0x7F ∧ utf8EncodeChar c = [UInt8.ofNat c.toNat]) ∨
    (0x80 ≤ c.toNat ∧ c.toNat ≤ 0x7FF ∧ utf8EncodeChar c =
      [UInt8.ofNat (c.toNat / 64 + 0xC0), UInt8.ofNat (c.toNat % 64 + 0x80)]) ∨
    (0x800 ≤ c.toNat ∧ c.toNat ≤ 0xFFFF ∧ (c.toNat < 0xD800 ∨ 0xDFFF < c.toNat) ∧
      utf8EncodeChar c =
        [UInt8.ofNat (c.toNat / 4096 + 0xE0), UInt8.ofNat (c.toNat / 64 % 64 + 0x80),
          UInt8.ofNat (c.toNat % 64 + 0x80)]) ∨
    (0x10000 ≤ c.toNat ∧ c.toNat < 0x110000 ∧ utf8EncodeChar c =
      [UInt8.ofNat (c.toNat / 262144 + 0xF0), UInt8.ofNat (c.toNat / 4096 % 64 + 0x80),
        UInt8.ofNat (c.toNat / 64 % 64 + 0x80), UInt8.ofNat (c.toNat % 64 + 0x80)]) := by
  have hvalid : c.toNat < 0xD800 ∨ (0xDFFF < c.toNat ∧ c.toNat < 0x110000) := c.valid
  unfold utf8EncodeChar
  simp only [Char.toNat] at hvalid ⊢
  split
  · left; exact ⟨by assumption, rfl⟩
  · split
    · right; left
      refine ⟨by omega, by omega, ?_⟩
      rw [Nat.mod_eq_of_lt (by omega)]
    · split
      · right; right; left
        refine ⟨by omega, by omega, by omega, ?_⟩
        rw [Nat.mod_eq_of_lt (by omega)]
      · right; right; right
        refine ⟨by omega, by omega, ?_⟩
        rw [Nat.mod_eq_of_lt (by omega : c.val.toNat / 262144 < 8)]

variable {b : Nat} {c : Char} {p : Option Partial} {a : List UInt8}

theorem firstByte_two (h : 0xC2 ≤ b ∧ b ≤ 0xDF) :
    firstByte b = ([], some ⟨1, b - 0xC0, 0x80, 0xBF⟩) := by
  rw [firstByte, if_neg (by omega), if_pos h]

theorem firstByte_three (h : 0xE0 ≤ b ∧ b ≤ 0xEF) :
    firstByte b = ([], some ⟨2, b - 0xE0, if b = 0xE0 then 0xA0 else 0x80,
      if b = 0xED then 0x9F else 0xBF⟩) := by
  rw [firstByte, if_neg (by omega), if_neg (by omega), if_pos h]

theorem firstByte_four (h : 0xF0 ≤ b ∧ b ≤ 0xF4) :
    firstByte b = ([], some ⟨3, b - 0xF0, if b = 0xF0 then 0x90 else 0x80,
      if b = 0xF4 then 0x8F else 0xBF⟩) := by
  rw [firstByte, if_neg (by omega), if_neg (by omega), if_neg (by omega), if_pos h]

/-- A continuation byte cannot start a character. -/
theorem firstByte_continuation (h : 0x80 ≤ b ∧ b ≤ 0xBF) : firstByte b = ([replacement], none) := by
  rw [firstByte, if_neg (by omega), if_neg (by omega), if_neg (by omega), if_neg (by omega)]

theorem nextByte_last {p : Partial} (hrange : p.lower ≤ b ∧ b ≤ p.upper) (hneeded : p.needed = 1) :
    nextByte p b = ([ofNat (p.codePoint * 64 + (b - 0x80))], none) := by
  rw [nextByte, if_pos hrange, if_pos hneeded]

theorem nextByte_more {p : Partial} (hrange : p.lower ≤ b ∧ b ≤ p.upper) (hneeded : p.needed ≠ 1) :
    nextByte p b = ([], some ⟨p.needed - 1, p.codePoint * 64 + (b - 0x80), 0x80, 0xBF⟩) := by
  rw [nextByte, if_pos hrange, if_neg hneeded]

theorem toNat_byte {n : Nat} (h : n < 256) : (UInt8.ofNat n).toNat = n :=
  UInt8.toNat_ofNat_of_lt h

theorem run_encodeChar (c : Char) : run none (utf8EncodeChar c) = ([c], none) := by
  rcases encodeChar_cases c with ⟨h, henc⟩ | ⟨h, h', henc⟩ | ⟨h, h', hs, henc⟩ | ⟨h, h', henc⟩
  · simp only [henc, run, step, toNat_byte (show c.toNat < 256 by omega), firstByte, if_pos h,
      ofNat_toNat, append_nil]
  · have hcode : (c.toNat / 64 + 0xC0 - 0xC0) * 64 + (c.toNat % 64 + 0x80 - 0x80) = c.toNat := by
      omega
    rw [henc, run, step, toNat_byte (by omega), firstByte_two (by omega)]
    simp only [run, step]
    rw [toNat_byte (by omega), nextByte_last (by simp only; omega) rfl]
    simp only [hcode, ofNat_toNat, nil_append, append_nil]
  · have hcode : ((c.toNat / 4096 + 0xE0 - 0xE0) * 64 + (c.toNat / 64 % 64 + 0x80 - 0x80)) * 64 +
        (c.toNat % 64 + 0x80 - 0x80) = c.toNat := by
      omega
    rw [henc, run, step, toNat_byte (by omega), firstByte_three (by omega)]
    simp only [run, step]
    rw [toNat_byte (by omega), nextByte_more (by simp only; split <;> split <;> omega) (by simp)]
    simp only
    rw [toNat_byte (by omega), nextByte_last (by simp only; omega) rfl]
    simp only [hcode, ofNat_toNat, nil_append, append_nil]
  · have hcode : (((c.toNat / 262144 + 0xF0 - 0xF0) * 64 +
        (c.toNat / 4096 % 64 + 0x80 - 0x80)) * 64 + (c.toNat / 64 % 64 + 0x80 - 0x80)) * 64 +
          (c.toNat % 64 + 0x80 - 0x80) = c.toNat := by
      omega
    rw [henc, run, step, toNat_byte (by omega), firstByte_four (by omega)]
    simp only [run, step]
    rw [toNat_byte (by omega), nextByte_more (by simp only; split <;> split <;> omega) (by simp)]
    simp only
    rw [toNat_byte (by omega), nextByte_more (by simp only; omega) (by simp)]
    simp only
    rw [toNat_byte (by omega), nextByte_last (by simp only; omega) rfl]
    simp only [hcode, ofNat_toNat, nil_append, append_nil]

/-- A byte that can only continue a character. -/
def Continuation (b : UInt8) : Prop := 0x80 ≤ b.toNat ∧ b.toNat ≤ 0xBF

theorem continuation_of_mem_tail {b : UInt8} (hb : b ∈ (utf8EncodeChar c).tail) :
    Continuation b := by
  have hbyte (n : Nat) : Continuation (UInt8.ofNat (n % 64 + 0x80)) := by
    unfold Continuation
    rw [toNat_byte (by omega)]
    omega
  rcases encodeChar_cases c with ⟨-, henc⟩ | ⟨-, -, henc⟩ | ⟨-, -, -, henc⟩ | ⟨-, -, henc⟩ <;>
    rw [henc] at hb <;> simp only [tail_cons, mem_cons, not_mem_nil, or_false] at hb
  · rw [hb]
    exact hbyte _
  · rcases hb with rfl | rfl <;> exact hbyte _
  · rcases hb with rfl | rfl | rfl <;> exact hbyte _

/-! ### Bytes at a time -/

@[simp] theorem run_nil (p : Option Partial) : run p [] = ([], p) := rfl

@[simp] theorem run_append (p : Option Partial) (a b : List UInt8) :
    run p (a ++ b) = ((run p a).1 ++ (run (run p a).2 b).1, (run (run p a).2 b).2) := by
  induction a generalizing p with
  | nil => rfl
  | cons x a ih => simp [run, ih]

/-- A byte that completes nothing leaves a character begun. -/
theorem step_output {b : UInt8} (hout : (step p b).1 = []) : (step p b).2 ≠ none := by
  have hfirst (n : Nat) (h : (firstByte n).1 = []) : (firstByte n).2 ≠ none := by
    unfold firstByte at h ⊢
    split_ifs at h ⊢ <;> simp_all
  cases p with
  | none => exact hfirst _ hout
  | some p =>
    simp only [step, nextByte] at hout ⊢
    split_ifs at hout ⊢
    simp

/-- Bytes that leave no character begun complete at least one. -/
theorem run_output (hend : (run p a).2 = none) (hstart : p ≠ none ∨ a ≠ []) : (run p a).1 ≠ [] := by
  induction a generalizing p with
  | nil => simp_all
  | cons b a ih =>
    intro hout
    simp only [run, append_eq_nil_iff] at hend hout
    exact ih hend (.inl (step_output hout.1)) hout.2

variable {b : List UInt8} {text : List Char} {x : UInt8} {out : List Char}
  {pieces : List (List UInt8)}

/-- A character that is cut completes nothing before the cut. -/
theorem run_cutShort (hsplit : utf8EncodeChar c = a ++ b) (ha : a ≠ []) (hb : b ≠ []) :
    ∃ p, run none a = ([], some p) := by
  have hrun : run none (a ++ b) = ([c], none) := hsplit ▸ run_encodeChar c
  rw [run_append, Prod.mk.injEq] at hrun
  obtain ⟨hout, hend⟩ := hrun
  have hlength := congrArg List.length hout
  simp only [length_append, length_singleton] at hlength
  cases hstate : (run none a).2 with
  | none =>
    -- then both parts would complete a character
    have hfirst := length_pos_of_ne_nil (run_output hstate (.inr ha))
    have hsecond := length_pos_of_ne_nil (run_output hend (.inr hb))
    omega
  | some p =>
    rw [hstate] at hend hlength
    have hsecond := length_pos_of_ne_nil (run_output hend (.inl (by simp)))
    have hnil : (run none a).1 = [] := length_eq_zero_iff.mp (by omega)
    exact ⟨p, Prod.ext hnil hstate⟩

/-! ### Texts -/

@[simp] theorem decode_nil : decode [] = [] := rfl

theorem decode_encodeChar_append (c : Char) (bytes : List UInt8) :
    decode (utf8EncodeChar c ++ bytes) = c :: decode bytes := by
  rw [decode, decodeFrom_append, run_encodeChar]
  rfl

@[simp] theorem encode_nil : encode [] = [] := rfl

@[simp] theorem encode_cons (c : Char) (text : List Char) :
    encode (c :: text) = utf8EncodeChar c ++ encode text := rfl

@[simp] theorem encode_append (text text' : List Char) :
    encode (text ++ text') = encode text ++ encode text' := by
  simp [encode]

theorem decode_encode_append (text : List Char) (bytes : List UInt8) :
    decode (encode text ++ bytes) = text ++ decode bytes := by
  induction text with
  | nil => rfl
  | cons c text ih =>
    rw [encode_cons, append_assoc, decode_encodeChar_append, ih, cons_append]

theorem decode_encode (text : List Char) : decode (encode text) = text := by
  simpa using decode_encode_append text []

theorem encode_injective : Function.Injective encode := by
  intro text text' heq
  rw [← decode_encode text, heq, decode_encode]

theorem decode_continuation_append {q : List UInt8} (hq : ∀ b ∈ q, Continuation b)
    (bytes : List UInt8) :
    decode (q ++ bytes) = List.replicate q.length replacement ++ decode bytes := by
  induction q with
  | nil => rfl
  | cons b q ih =>
    have hfirst : decode (b :: (q ++ bytes)) = replacement :: decode (q ++ bytes) := by
      simp only [decode, decodeFrom, step, firstByte_continuation (hq b (by simp)),
        cons_append, nil_append]
    rw [cons_append, hfirst, ih fun b' hb' => hq b' (by simp [hb'])]
    rfl

theorem decode_cutShort (hsplit : utf8EncodeChar c = a ++ b) (ha : a ≠ []) (hb : b ≠ []) :
    decode a = [replacement] := by
  obtain ⟨p, hrun⟩ := run_cutShort hsplit ha hb
  have hdecode := decodeFrom_append none a []
  rw [append_nil, hrun] at hdecode
  exact hdecode

/-! ### Cuts -/

/-- Cutting an encoded text once: the cut falls between two characters or inside one. -/
theorem cut_cases {p r : List UInt8} (hcut : p ++ r = encode text) :
    (∃ text₁ text₂, text = text₁ ++ text₂ ∧ p = encode text₁ ∧ r = encode text₂) ∨
    ∃ text₁ c text₂ a b, text = text₁ ++ c :: text₂ ∧ utf8EncodeChar c = a ++ b ∧
      a ≠ [] ∧ b ≠ [] ∧ p = encode text₁ ++ a ∧ r = b ++ encode text₂ := by
  induction text generalizing p with
  | nil =>
    rw [encode_nil, append_eq_nil_iff] at hcut
    exact .inl ⟨[], [], rfl, hcut.1, hcut.2⟩
  | cons c text ih =>
    rw [encode_cons, append_eq_append_iff] at hcut
    rcases hcut with ⟨q, hchar, rfl⟩ | ⟨p', rfl, htext⟩
    · by_cases hp : p = []
      · subst hp
        exact .inl ⟨[], c :: text, rfl, rfl, by rw [nil_append] at hchar; simp [hchar]⟩
      · by_cases hq : q = []
        · subst hq
          exact .inl ⟨[c], text, rfl, by simpa using hchar.symm, rfl⟩
        · exact .inr ⟨[], c, text, p, q, rfl, hchar, hp, hq, rfl, rfl⟩
    · rcases ih htext.symm with ⟨text₁, text₂, rfl, rfl, rfl⟩ |
        ⟨text₁, d, text₂, a, b, rfl, hchar, ha, hb, rfl, rfl⟩
      · exact .inl ⟨c :: text₁, text₂, rfl, rfl, rfl⟩
      · exact .inr ⟨c :: text₁, d, text₂, a, b, rfl, hchar, ha, hb,
          by rw [encode_cons, append_assoc], rfl⟩

theorem continuation_of_cut (hchar : utf8EncodeChar c = a ++ b) (ha : a ≠ []) :
    ∀ x ∈ b, Continuation x := by
  intro x hx
  apply continuation_of_mem_tail (c := c)
  rw [hchar]
  cases a with
  | nil => exact absurd rfl ha
  | cons y a => simp [hx]

/-- Only a character beyond ASCII can be cut. -/
theorem wide_of_cut (hchar : utf8EncodeChar c = a ++ b) (ha : a ≠ []) (hb : b ≠ []) :
    0x80 ≤ c.toNat := by
  rcases encodeChar_cases c with ⟨-, henc⟩ | ⟨h, -⟩ | ⟨h, -⟩ | ⟨h, -⟩
  · have hlength := congrArg List.length (henc.symm.trans hchar)
    rw [length_singleton, length_append] at hlength
    have hpos := length_pos_of_ne_nil ha
    have hpos' := length_pos_of_ne_nil hb
    omega
  all_goals omega

theorem not_continuation_of_ascii (hx : x.toNat ≤ 0x7F) : ¬ Continuation x := by
  rintro ⟨hlow, -⟩
  omega

theorem toNat_ofNat_ascii {n : Nat} (hn : n ≤ 0x7F) : (ofNat n).toNat = n := by
  have hvalid : n.isValidChar := .inl (by omega)
  rw [ofNat, dif_pos hvalid]
  rfl

/-- An ASCII byte of an encoded text is a character of the text. -/
theorem encode_eq_append_ascii (hx : x.toNat ≤ 0x7F) (hencode : encode text = a ++ x :: b) :
    ∃ text₁ text₂, text = text₁ ++ ofNat x.toNat :: text₂ ∧ a = encode text₁ ∧
      b = encode text₂ := by
  rcases cut_cases hencode.symm with ⟨text₁, text₂, rfl, rfl, hrest⟩ |
    ⟨text₁, c, text₂, a', b', -, hchar, ha, hb, -, hrest⟩
  · cases text₂ with
    | nil => cases hrest
    | cons c text₂ =>
      have hdecode := congrArg decode hrest
      rw [decode_encode] at hdecode
      simp only [decode, decodeFrom, step, firstByte, if_pos hx, singleton_append,
        List.cons.injEq] at hdecode
      obtain ⟨rfl, -⟩ := hdecode
      rcases encodeChar_cases (ofNat x.toNat) with ⟨-, henc⟩ | ⟨h, -⟩ | ⟨h, -⟩ | ⟨h, -⟩
      · rw [encode_cons, henc, singleton_append, List.cons.injEq] at hrest
        exact ⟨text₁, text₂, rfl, rfl, hrest.2⟩
      all_goals
        rw [toNat_ofNat_ascii hx] at h
        omega
  · obtain ⟨y, b', rfl⟩ := exists_cons_of_ne_nil hb
    rw [cons_append, List.cons.injEq] at hrest
    exact absurd (continuation_of_cut hchar ha y mem_cons_self)
      (hrest.1 ▸ not_continuation_of_ascii hx)

/-- The bytes that may continue a character are never ASCII. -/
theorem step_lower {b : UInt8} {q : Partial} (hstep : (step p b).2 = some q) : 0x80 ≤ q.lower := by
  have hfirst {n : Nat} (h : (firstByte n).2 = some q) : 0x80 ≤ q.lower := by
    unfold firstByte at h
    split_ifs at h <;> cases h <;> dsimp only <;> omega
  cases p with
  | none => exact hfirst hstep
  | some p =>
    simp only [step, nextByte] at hstep
    split_ifs at hstep
    · cases hstep
      exact le_refl _
    · exact hfirst hstep

theorem run_lower (hp : ∀ q, p = some q → 0x80 ≤ q.lower) {q : Partial}
    (hrun : (run p a).2 = some q) : 0x80 ≤ q.lower := by
  induction a generalizing p with
  | nil => exact hp q hrun
  | cons b a ih => exact ih (fun q' hq' => step_lower hq') hrun

/-- Nothing of a character is left over after an ASCII byte. -/
theorem run_append_ascii (a : List UInt8) (hx : x.toNat ≤ 0x7F) :
    (run none (a ++ [x])).2 = none := by
  have hfirst : (firstByte x.toNat).2 = none := by
    rw [firstByte, if_pos hx]
  rw [run_append]
  show (step (run none a).2 x).2 = none
  cases hstate : (run none a).2 with
  | none => exact hfirst
  | some q =>
    have hlower := run_lower (by rintro _ ⟨⟩) hstate
    rw [step, nextByte, if_neg (by omega)]
    exact hfirst

theorem decode_append_ascii (a b : List UInt8) (hx : x.toNat ≤ 0x7F) :
    decode (a ++ x :: b) = decode (a ++ [x]) ++ decode b := by
  have hrun := run_append_ascii a hx
  have hsplit : a ++ x :: b = (a ++ [x]) ++ b := by simp
  have hhead := decodeFrom_append none (a ++ [x]) []
  rw [hrun, append_nil] at hhead
  rw [hsplit, decode, decodeFrom_append, hrun]
  show _ = decodeFrom none (a ++ [x]) ++ _
  rw [hhead]
  simp [decode, decodeFrom]

/-! ### Decoding piece by piece -/

/-- A text in which some characters were cut.  Each of these has become two or more replacement
characters. -/
inductive Garbled : List Char → List Char → Prop
  | nil : Garbled [] []
  | keep (c : Char) {text out : List Char} (hrest : Garbled text out) :
      Garbled (c :: text) (c :: out)
  | cut (c : Char) (n : Nat) (hwide : 0x80 ≤ c.toNat) {text out : List Char}
      (hrest : Garbled text out) :
      Garbled (c :: text) (List.replicate (n + 2) replacement ++ out)

theorem Garbled.append_left (hgarbled : Garbled text out) (front : List Char) :
    Garbled (front ++ text) (front ++ out) := by
  induction front with
  | nil => exact hgarbled
  | cons c front ih => exact .keep c ih

/-- A garbled text is longer, or it is the text. -/
theorem Garbled.eq_or_length_lt (hgarbled : Garbled text out) :
    out = text ∨ text.length < out.length := by
  induction hgarbled with
  | nil => exact .inl rfl
  | keep c hrest ih =>
    rcases ih with rfl | hlt
    · exact .inl rfl
    · exact .inr (by simpa using hlt)
  | cut c n hwide hrest ih =>
    refine .inr ?_
    rw [length_append, length_replicate, length_cons]
    rcases ih with rfl | hlt <;> omega

theorem Garbled.length_le (hgarbled : Garbled text out) : text.length ≤ out.length := by
  rcases hgarbled.eq_or_length_lt with rfl | hlt
  · exact le_refl _
  · exact le_of_lt hlt

theorem Garbled.eq_nil (hgarbled : Garbled [] out) : out = [] := by
  cases hgarbled
  rfl

/-- An ASCII character is not cut. -/
theorem Garbled.eq_singleton (hc : c.toNat ≤ 0x7F) (hgarbled : Garbled [c] out) : out = [c] := by
  cases hgarbled with
  | keep _ hrest => rw [hrest.eq_nil]
  | cut _ n hwide _ => omega

theorem Garbled.of_append {a b : List Char} (hgarbled : Garbled (a ++ b) out) :
    ∃ a' b', out = a' ++ b' ∧ Garbled a a' ∧ Garbled b b' := by
  induction a generalizing out with
  | nil => exact ⟨[], out, rfl, .nil, hgarbled⟩
  | cons c a ih =>
    cases hgarbled with
    | keep _ hrest =>
      obtain ⟨a', b', rfl, ha, hb⟩ := ih hrest
      exact ⟨c :: a', b', rfl, .keep c ha, hb⟩
    | cut _ n hwide hrest =>
      obtain ⟨a', b', rfl, ha, hb⟩ := ih hrest
      exact ⟨_, b', (append_assoc _ _ _).symm, .cut c n hwide ha, hb⟩

/-- Garbling brings in no ASCII character. -/
theorem Garbled.mem_of_ascii (hgarbled : Garbled text out) (hc : c.toNat ≤ 0x7F) (hmem : c ∈ out) :
    c ∈ text := by
  induction hgarbled with
  | nil => exact hmem
  | keep d hrest ih =>
    rcases mem_cons.mp hmem with rfl | hmem
    · exact mem_cons_self
    · exact mem_cons_of_mem _ (ih hmem)
  | cut d n hwide hrest ih =>
    rcases mem_append.mp hmem with hmem | hmem
    · rw [eq_of_mem_replicate hmem] at hc
      exact absurd hc (by decide)
    · exact mem_cons_of_mem _ (ih hmem)

/-- Pieces decode to a garbled text; a first piece that starts inside a character gives one
replacement character for each byte of it. -/
theorem garbled_of_pieces {q : List UInt8} (hq : ∀ b ∈ q, Continuation b)
    (hpieces : pieces.flatten = q ++ encode text) :
    ∃ out, pieces.flatMap decode = List.replicate q.length replacement ++ out ∧
      Garbled text out := by
  induction pieces generalizing q text with
  | nil =>
    have hnil := append_eq_nil_iff.mp hpieces.symm
    have htext : text = [] := by simpa [hnil.2] using (decode_encode text).symm
    rw [hnil.1, htext]
    exact ⟨[], rfl, .nil⟩
  | cons p pieces ih =>
    rw [flatten_cons, append_eq_append_iff] at hpieces
    rw [flatMap_cons]
    rcases hpieces with ⟨q', rfl, hrest⟩ | ⟨p', rfl, htext⟩
    · obtain ⟨out, hout, hgarbled⟩ := ih (fun b hb => hq b (by simp [hb])) hrest
      have hdecode := decode_continuation_append (fun b hb => hq b (by simp [hb])) (q := p) []
      rw [append_nil, decode_nil, append_nil] at hdecode
      refine ⟨out, ?_, hgarbled⟩
      rw [hdecode, hout, length_append, ← append_assoc, replicate_append_replicate]
    · rw [decode_continuation_append hq, append_assoc]
      rcases cut_cases htext.symm with ⟨text₁, text₂, rfl, rfl, hrest⟩ |
        ⟨text₁, c, text₂, a, b, rfl, hchar, ha, hb, rfl, hrest⟩
      · obtain ⟨out, hout, hgarbled⟩ := ih (q := []) (by simp) (by simpa using hrest)
        refine ⟨text₁ ++ out, ?_, hgarbled.append_left text₁⟩
        rw [decode_encode, hout]
        rfl
      · obtain ⟨out, hout, hgarbled⟩ := ih (continuation_of_cut hchar ha) hrest
        obtain ⟨n, hn⟩ := Nat.exists_eq_succ_of_ne_zero
          (Nat.ne_zero_of_lt (length_pos_of_ne_nil hb))
        have hcut := Garbled.cut c n (wide_of_cut hchar ha hb) hgarbled
        refine ⟨text₁ ++ _, ?_, hcut.append_left text₁⟩
        rw [decode_encode_append, decode_cutShort hchar ha hb, hout, hn, replicate_succ]
        simp [replicate_succ]

/-- What follows whole characters in an encoded text is an encoded text. -/
theorem encode_of_append {front : List Char} {p : List UInt8}
    (happend : encode front ++ p = encode text) : ∃ part, p = encode part := by
  rcases cut_cases happend with ⟨_, text₂, -, -, hrest⟩ |
    ⟨text₁, c, _, a, b, -, hchar, ha, hb, hfront, -⟩
  · exact ⟨text₂, hrest⟩
  · -- `front` would end inside a character
    have hstate (text : List Char) : (run none (encode text)).2 = none := by
      induction text with
      | nil => rfl
      | cons c text ih => rw [encode_cons, run_append, run_encodeChar, ih]
    have hfronts := congrArg (fun bytes => (run none bytes).2) hfront
    obtain ⟨q, hcut⟩ := run_cutShort hchar ha hb
    simp only [run_append, hstate, hcut] at hfronts
    cases hfronts

/-- Pieces are whole when the text before each of them is. -/
theorem whole_pieces_iff : (∀ p ∈ pieces, ∃ part, p = encode part) ↔
      ∀ front back, pieces = front ++ back → ∃ part, front.flatten = encode part := by
  constructor
  · intro hwhole front back hpieces
    subst hpieces
    induction front with
    | nil => exact ⟨[], rfl⟩
    | cons p front ih =>
      rw [cons_append, forall_mem_cons] at hwhole
      obtain ⟨⟨part, rfl⟩, hrest⟩ := hwhole
      obtain ⟨text, htext⟩ := ih hrest
      exact ⟨part ++ text, by rw [flatten_cons, htext, encode_append]⟩
  · intro hfronts p hp
    obtain ⟨front, back, rfl⟩ := append_of_mem hp
    obtain ⟨text, htext⟩ := hfronts front (p :: back) rfl
    obtain ⟨text', htext'⟩ := hfronts (front ++ [p]) back (by simp)
    rw [flatten_append, flatten_singleton, htext] at htext'
    exact encode_of_append htext'

theorem decode_pieces_of_whole (hwhole : ∀ p ∈ pieces, ∃ part, p = encode part) :
    pieces.flatMap decode = decode pieces.flatten := by
  induction pieces with
  | nil => rfl
  | cons p pieces ih =>
    rw [forall_mem_cons] at hwhole
    obtain ⟨⟨part, rfl⟩, hrest⟩ := hwhole
    rw [flatMap_cons, flatten_cons, decode_encode, decode_encode_append, ih hrest]

/-- The bytes of a text may be decoded piece by piece exactly when no piece begins or
ends inside a character. -/
theorem decode_pieces_iff (hpieces : pieces.flatten = encode text) :
    pieces.flatMap decode = decode pieces.flatten ↔ ∀ p ∈ pieces, ∃ part, p = encode part := by
  refine ⟨fun heq => ?_, decode_pieces_of_whole⟩
  rw [hpieces, decode_encode] at heq
  induction pieces generalizing text with
  | nil => simp
  | cons p pieces ih =>
    rw [flatMap_cons] at heq
    rw [forall_mem_cons]
    rcases cut_cases hpieces with ⟨text₁, text₂, rfl, rfl, hrest⟩ |
      ⟨text₁, c, text₂, a, b, rfl, hchar, ha, hb, rfl, hrest⟩
    · rw [decode_encode, append_cancel_left_eq] at heq
      exact ⟨⟨text₁, rfl⟩, ih hrest heq⟩
    · -- the pieces decode to more characters than the text has
      obtain ⟨out, hout, hgarbled⟩ := garbled_of_pieces (continuation_of_cut hchar ha) hrest
      have hle := hgarbled.length_le
      have hpos := length_pos_of_ne_nil hb
      have hlength := congrArg List.length heq
      rw [decode_encode_append, decode_cutShort hchar ha hb, hout] at hlength
      simp only [length_append, length_replicate, length_cons, length_nil] at hlength
      omega

end SquadPanel.Lib.Utf8
