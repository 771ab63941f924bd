import SquadPanel.Js.Text
import SquadPanel.Lib.Utf8

/-!
# Buffers and strings

`Buffer.from(s, 'utf-8')` works on code units: a surrogate pair is one character and a
surrogate on its own becomes a replacement character.  On a well-formed string this is
the UTF-8 encoding of its text.  `Buffer.from(s, 'hex')` stops at the first pair that
is not hexadecimal.
-/

namespace SquadPanel.Js

open Lib List

/-! ## UTF-8 -/

def isHighSurrogate (u : UInt16) : Bool := 0xD800 ≤ u.toNat && u.toNat < 0xDC00

def isLowSurrogate (u : UInt16) : Bool := 0xDC00 ≤ u.toNat && u.toNat < 0xE000

/-- The character of a surrogate pair. -/
def pairChar (high low : UInt16) : Char :=
  Char.ofNat (0x10000 + (high.toNat - 0xD800) * 0x400 + (low.toNat - 0xDC00))

/-- The bytes of a unit that is not part of a pair. -/
def unitBytes (u : UInt16) : List UInt8 :=
  String.utf8EncodeChar
    (if isHighSurrogate u || isLowSurrogate u then Utf8.replacement else Char.ofNat u.toNat)

/-- `Buffer.from(s, 'utf-8')` -/
def bufferFromUtf8 : JsString → List UInt8
  | [] => []
  | [u] => unitBytes u
  | u :: v :: rest =>
    if isHighSurrogate u && isLowSurrogate v then
      String.utf8EncodeChar (pairChar u v) ++ bufferFromUtf8 rest
    else unitBytes u ++ bufferFromUtf8 (v :: rest)

/-- `Buffer.byteLength(s, 'utf-8')` -/
def byteLength (s : JsString) : Nat := (bufferFromUtf8 s).length

theorem bufferFromUtf8_cons {u : UInt16} (hhigh : isHighSurrogate u = false) (rest : JsString) :
    bufferFromUtf8 (u :: rest) = unitBytes u ++ bufferFromUtf8 rest := by
  cases rest with
  | nil => simp [bufferFromUtf8]
  | cons v rest => simp [bufferFromUtf8, hhigh]

theorem bufferFromUtf8_pair {u v : UInt16} (hhigh : isHighSurrogate u = true)
    (hlow : isLowSurrogate v = true) (rest : JsString) : bufferFromUtf8 (u :: v :: rest) =
      String.utf8EncodeChar (pairChar u v) ++ bufferFromUtf8 rest := by
  simp [bufferFromUtf8, hhigh, hlow]

theorem bufferFromUtf8_char_append (c : Char) (rest : JsString) :
    bufferFromUtf8 (utf16EncodeChar c ++ rest) =
      String.utf8EncodeChar c ++ bufferFromUtf8 rest := by
  have hvalid : c.toNat < 0xD800 ∨ (0xDFFF < c.toNat ∧ c.toNat < 0x110000) := c.valid
  unfold utf16EncodeChar
  dsimp only
  split
  · next hsmall =>
    have hunit : (UInt16.ofNat c.toNat).toNat = c.toNat := UInt16.toNat_ofNat_of_lt hsmall
    have hhigh : isHighSurrogate (UInt16.ofNat c.toNat) = false := by
      simp only [isHighSurrogate, hunit, Bool.and_eq_false_iff, decide_eq_false_iff_not]
      omega
    have hlow : isLowSurrogate (UInt16.ofNat c.toNat) = false := by
      simp only [isLowSurrogate, hunit, Bool.and_eq_false_iff, decide_eq_false_iff_not]
      omega
    rw [singleton_append, bufferFromUtf8_cons hhigh, unitBytes, hhigh, hlow, hunit]
    simp only [Bool.or_self, Bool.false_eq_true, if_false, Char.ofNat_toNat]
  · next hlarge =>
    have hhighUnit : (UInt16.ofNat (0xD800 + (c.toNat - 0x10000) / 0x400)).toNat =
        0xD800 + (c.toNat - 0x10000) / 0x400 := UInt16.toNat_ofNat_of_lt (by show _ < 65536; omega)
    have hlowUnit : (UInt16.ofNat (0xDC00 + (c.toNat - 0x10000) % 0x400)).toNat =
        0xDC00 + (c.toNat - 0x10000) % 0x400 := UInt16.toNat_ofNat_of_lt (by show _ < 65536; omega)
    have hhigh : isHighSurrogate (UInt16.ofNat (0xD800 + (c.toNat - 0x10000) / 0x400)) = true := by
      simp only [isHighSurrogate, hhighUnit, Bool.and_eq_true, decide_eq_true_eq]
      omega
    have hlow : isLowSurrogate (UInt16.ofNat (0xDC00 + (c.toNat - 0x10000) % 0x400)) = true := by
      simp only [isLowSurrogate, hlowUnit, Bool.and_eq_true, decide_eq_true_eq]
      omega
    have hpair : 0x10000 + (0xD800 + (c.toNat - 0x10000) / 0x400 - 0xD800) * 0x400 +
        (0xDC00 + (c.toNat - 0x10000) % 0x400 - 0xDC00) = c.toNat := by
      omega
    rw [cons_append, singleton_append, bufferFromUtf8_pair hhigh hlow, pairChar,
      hhighUnit, hlowUnit, hpair, Char.ofNat_toNat]

/-- The bytes of a well-formed string are the UTF-8 encoding of its text. -/
theorem bufferFromUtf8_utf16Encode (text : List Char) :
    bufferFromUtf8 (utf16Encode text) = Utf8.encode text := by
  induction text with
  | nil => rfl
  | cons c text ih =>
    show bufferFromUtf8 (utf16EncodeChar c ++ utf16Encode text) = _
    rw [bufferFromUtf8_char_append, ih]
    rfl

variable (bytes : List UInt8)

/-- `Buffer.toString('utf-8')` -/
def bufferToString : JsString := utf16Encode (Utf8.decode bytes)

theorem flatten_map_bufferToString (pieces : List (List UInt8)) :
    (pieces.map bufferToString).flatten = utf16Encode (pieces.flatMap Utf8.decode) := by
  rw [← flatMap_def, utf16Encode, flatMap_assoc]
  rfl

/-! ## Hexadecimal digits -/

/-- Two lowercase digits for each byte, as `digest('hex')` and `encode(bytes, 'hex')` write
them. -/
def hexText : List Char :=
  bytes.flatMap fun b => [Nat.digitChar (b.toNat / 16), Nat.digitChar (b.toNat % 16)]

def hexValue (u : UInt16) : Option Nat :=
  let n := u.toNat
  if 0x30 ≤ n ∧ n ≤ 0x39 then some (n - 0x30)
  else if 0x61 ≤ n ∧ n ≤ 0x66 then some (n - 0x61 + 10)
  else if 0x41 ≤ n ∧ n ≤ 0x46 then some (n - 0x41 + 10)
  else none

/-- `Buffer.from(s, 'hex')` -/
def bufferFromHex : JsString → List UInt8
  | u :: v :: rest =>
    match hexValue u, hexValue v with
    | some high, some low => UInt8.ofNat (high * 16 + low) :: bufferFromHex rest
    | _, _ => []
  | _ => []

theorem hexValue_digitChar {n : Nat} (hn : n < 16) :
    utf16EncodeChar (Nat.digitChar n) = [UInt16.ofNat (Nat.digitChar n).toNat] ∧
      hexValue (UInt16.ofNat (Nat.digitChar n).toNat) = some n := by
  have hall : ∀ k : Fin 16,
      utf16EncodeChar (Nat.digitChar k) = [UInt16.ofNat (Nat.digitChar k).toNat] ∧
        hexValue (UInt16.ofNat (Nat.digitChar k).toNat) = some k.val := by
    decide
  exact hall ⟨n, hn⟩

theorem bufferFromHex_hexText : bufferFromHex (utf16Encode (hexText bytes)) = bytes := by
  induction bytes with
  | nil => rfl
  | cons b bytes ih =>
    have hb : b.toNat < 256 := b.toNat_lt
    obtain ⟨hunit, hvalue⟩ := hexValue_digitChar (show b.toNat / 16 < 16 by omega)
    obtain ⟨hunit', hvalue'⟩ := hexValue_digitChar (show b.toNat % 16 < 16 by omega)
    show bufferFromHex (utf16EncodeChar (Nat.digitChar (b.toNat / 16)) ++
      (utf16EncodeChar (Nat.digitChar (b.toNat % 16)) ++ utf16Encode (hexText bytes))) = _
    rw [hunit, hunit', singleton_append, singleton_append, bufferFromHex, hvalue, hvalue', ih]
    dsimp only
    rw [Nat.div_add_mod' b.toNat 16, UInt8.ofNat_toNat]

theorem hexText_injective : Function.Injective hexText := by
  intro bytes bytes' heq
  rw [← bufferFromHex_hexText bytes, heq, bufferFromHex_hexText]

end SquadPanel.Js
