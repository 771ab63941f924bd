import SquadPanel.Js.Text

/-!
# Numbers and dates

A number is a double.  On whole numbers each operation rounds its exact result to the
nearest double, and below 2^53 nothing is lost.  A `Date` holds a whole number of
milliseconds in a bounded range.
-/

namespace SquadPanel.Js

open List

/-! ## Decimal texts -/

/-- A template literal part: the decimal text of a whole number below 10^21. -/
def decimalText (n : Nat) : JsString := utf16Encode (Nat.toDigits 10 n)

def intText (n : Int) : JsString :=
  if n < 0 then js "-" ++ decimalText n.natAbs else decimalText n.natAbs

/-- The number a text of decimal digits stands for, before it is rounded. -/
def digitsValue (digits : JsString) : Nat :=
  digits.foldl (fun n u => 10 * n + (u.toNat - 0x30)) 0

theorem utf16EncodeChar_digit {c : Char} (hdigit : c.isDigit = true) :
    ∃ u, utf16EncodeChar c = [u] ∧ isDigit u = true ∧ u.toNat = c.toNat := by
  have hrange : 0x30 ≤ c.toNat ∧ c.toNat ≤ 0x39 := by
    simpa [Char.isDigit, UInt32.le_iff_toNat_le] using hdigit
  have hunit : (UInt16.ofNat c.toNat).toNat = c.toNat :=
    UInt16.toNat_ofNat_of_lt (by show _ < 65536; omega)
  refine ⟨UInt16.ofNat c.toNat, ?_, ?_, hunit⟩
  · unfold utf16EncodeChar
    rw [if_pos (by omega)]
  · simp only [isDigit, Bool.and_eq_true, decide_eq_true_eq, UInt16.le_iff_toNat_le, hunit]
    exact hrange

theorem isDigit_of_mem_decimalText {n : Nat} {u : UInt16} (hu : u ∈ decimalText n) :
    isDigit u = true := by
  obtain ⟨c, hc, hin⟩ := mem_flatMap.1 hu
  obtain ⟨v, hv, hdigit, -⟩ :=
    utf16EncodeChar_digit (Nat.isDigit_of_mem_toDigits (by omega) (by omega) hc)
  rw [hv, mem_singleton] at hin
  exact hin ▸ hdigit

theorem decimalText_ne_nil (n : Nat) : decimalText n ≠ [] := by
  cases hdigits : Nat.toDigits 10 n with
  | nil => exact absurd hdigits Nat.toDigits_ne_nil
  | cons c cs =>
    have hc : c ∈ Nat.toDigits 10 n := by rw [hdigits]; exact mem_cons_self
    obtain ⟨u, hu, -, -⟩ :=
      utf16EncodeChar_digit (Nat.isDigit_of_mem_toDigits (by omega) (by omega) hc)
    rw [decimalText, hdigits, utf16Encode, flatMap_cons, hu]
    exact cons_ne_nil _ _

theorem digitsValue_decimalText (n : Nat) : digitsValue (decimalText n) = n := by
  have hfold (cs : List Char) (hdigits : ∀ c ∈ cs, c.isDigit = true) (start : Nat) :
      (utf16Encode cs).foldl (fun n u => 10 * n + (u.toNat - 0x30)) start =
        Nat.ofDigitChars 10 cs start := by
    induction cs generalizing start with
    | nil => rfl
    | cons c cs ih =>
      obtain ⟨u, hu, -, hvalue⟩ := utf16EncodeChar_digit (hdigits c mem_cons_self)
      rw [utf16Encode, flatMap_cons, hu, singleton_append, foldl_cons, hvalue,
        Nat.ofDigitChars_cons]
      exact ih (fun c' hc' => hdigits c' (mem_cons_of_mem _ hc')) _
  rw [digitsValue, decimalText,
    hfold _ fun c hc => Nat.isDigit_of_mem_toDigits (by omega) (by omega) hc]
  exact Nat.ofDigitChars_toDigits (by omega) (by omega)

theorem decimalText_injective : Function.Injective decimalText := by
  intro n m heq
  rw [← digitsValue_decimalText n, heq, digitsValue_decimalText]

theorem not_mem_decimalText {u : UInt16} (hu : isDigit u = false) (n : Nat) :
    u ∉ decimalText n := by
  intro hmem
  rw [isDigit_of_mem_decimalText hmem] at hu
  cases hu

/-! ## Whole numbers as doubles -/

/-- The double nearest to a whole number, ties going to the even significand; `none` is
`Infinity`. -/
def toDouble (n : Nat) : Option Nat :=
  let unit := 2 ^ (n.log2 - 52)
  let significand := n / unit
  let rest := n % unit
  let rounded :=
    if 2 * rest < unit ∨ (2 * rest = unit ∧ significand % 2 = 0) then significand
    else significand + 1
  if rounded * unit < (2 ^ 256) ^ 4 then some (rounded * unit) else none

/-- Whole numbers with at most 53 significant bits are doubles. -/
theorem toDouble_of_dvd {n k : Nat} (hdvd : 2 ^ k ∣ n) (hlt : n < 2 ^ (53 + k))
    (hmax : k ≤ 200) : toDouble n = some n := by
  have hbound : n < (2 ^ 256) ^ 4 :=
    calc n < 2 ^ (53 + k) := hlt
      _ ≤ 2 ^ 256 := Nat.pow_le_pow_right (by omega) (by omega)
      _ ≤ (2 ^ 256) ^ 4 := Nat.le_self_pow (by omega) _
  have hunit : 2 ^ (n.log2 - 52) ∣ n := by
    by_cases hzero : n = 0
    · rw [hzero]
      exact Nat.dvd_zero _
    · have hlog : n.log2 < 53 + k := (Nat.log2_lt hzero).2 hlt
      exact Nat.dvd_trans (Nat.pow_dvd_pow 2 (by omega)) hdvd
  have hpos : 0 < 2 ^ (n.log2 - 52) := Nat.two_pow_pos _
  unfold toDouble
  simp only [Nat.mod_eq_zero_of_dvd hunit]
  rw [if_pos (Or.inl hpos), Nat.div_mul_cancel hunit, if_pos hbound]

theorem toDouble_of_lt {n : Nat} (hlt : n < 2 ^ 53) : toDouble n = some n :=
  toDouble_of_dvd (k := 0) (Nat.one_dvd n) hlt (by omega)

/-- The double nearest to a whole number of either sign. -/
def intToDouble : Int → Option Int
  | .ofNat n => (toDouble n).map Int.ofNat
  | .negSucc n => (toDouble (n + 1)).map fun m => -Int.ofNat m

theorem intToDouble_of_lt {z : Int} (hmin : -2 ^ 53 < z) (hmax : z < 2 ^ 53) :
    intToDouble z = some z := by
  cases z with
  | ofNat n =>
    have hn : n < 2 ^ 53 := by
      have : (n : Int) < 2 ^ 53 := hmax
      omega
    rw [intToDouble, toDouble_of_lt hn]
    rfl
  | negSucc n =>
    rw [intToDouble, toDouble_of_lt (by omega)]
    rfl

/-- `Number(digits)` on a text of decimal digits. -/
def numberOfDigits (digits : JsString) : Option Nat := toDouble (digitsValue digits)

/-! ## Dates -/

/-- A valid `Date`: its time value. -/
structure JsDate where
  ms : Int
  inRange : -8640000000000000 ≤ ms ∧ ms ≤ 8640000000000000
  deriving DecidableEq

/-- `new Date(t)`; `none` is an Invalid Date. -/
def JsDate.ofTime (t : Int) : Option JsDate :=
  if h : -8640000000000000 ≤ t ∧ t ≤ 8640000000000000 then some ⟨t, h⟩ else none

theorem JsDate.ofTime_ms (d : JsDate) : JsDate.ofTime d.ms = some d := dif_pos d.inRange

theorem JsDate.ext_ms {d e : JsDate} (hms : d.ms = e.ms) : d = e := by
  cases d
  cases e
  cases hms
  rfl

end SquadPanel.Js
