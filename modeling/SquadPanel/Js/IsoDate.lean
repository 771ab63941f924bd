import SquadPanel.Js.Number

/-!
# Dates as ISO texts
-/

namespace SquadPanel.Js

open List

/-- A number in at least `width` digits. -/
def padded (width n : Nat) : JsString :=
  List.replicate (width - (decimalText n).length) 0x30 ++ decimalText n

/-- The year, month and day of a day counted from 1 January 1970.  Years begin in March, so
that a leap day is the last of its year, of its four years and of its era of 400. -/
def civilDate (day : Int) : Int × Nat × Nat :=
  let shifted := day + 719468
  let dayOfEra := (shifted % 146097).toNat
  let century := min (dayOfEra / 36524) 3
  let dayOfCentury := dayOfEra - 36524 * century
  let dayOfQuad := dayOfCentury % 1461
  let yearOfQuad := min (dayOfQuad / 365) 3
  let dayOfYear := dayOfQuad - 365 * yearOfQuad
  let year := shifted / 146097 * 400 +
    (100 * century + 4 * (dayOfCentury / 1461) + yearOfQuad : Nat)
  let month := (5 * dayOfYear + 2) / 153
  let dayOfMonth := dayOfYear - (153 * month + 2) / 5 + 1
  if month < 10 then (year, month + 3, dayOfMonth) else (year + 1, month - 9, dayOfMonth)

/-- Four digits, or a sign and six. -/
def yearText (year : Int) : JsString :=
  if 0 ≤ year ∧ year ≤ 9999 then padded 4 year.toNat
  else (if year < 0 then js "-" else js "+") ++ padded 6 year.natAbs

/-- `-MM-DDTHH:mm:ss.sssZ`, with the milliseconds of the day. -/
def dayText (month day time : Nat) : JsString :=
  js "-" ++ (padded 2 month ++ (js "-" ++ (padded 2 day ++ (js "T" ++
    (padded 2 (time / 3600000) ++ (js ":" ++ (padded 2 (time / 60000 % 60) ++ (js ":" ++
      (padded 2 (time / 1000 % 60) ++ (js "." ++ (padded 3 (time % 1000) ++ js "Z")))))))))))

def toISOString (date : JsDate) : JsString :=
  let civil := civilDate (date.ms / 86400000)
  yearText civil.1 ++ dayText civil.2.1 civil.2.2 (date.ms % 86400000).toNat

example : toISOString ⟨0, by decide⟩ = js "1970-01-01T00:00:00.000Z" := by decide +kernel

theorem isDigit_of_mem_padded {width n : Nat} {u : UInt16} (hu : u ∈ padded width n) :
    isDigit u = true := by
  rcases mem_append.1 hu with hu | hu
  · rw [eq_of_mem_replicate hu]
    rfl
  · exact isDigit_of_mem_decimalText hu

theorem mem_toISOString {date : JsDate} {u : UInt16} (hu : u ∈ toISOString date) :
    isDigit u = true ∨ u ∈ js "+-T:.Z" := by
  have hpadded {width n : Nat} (hu : u ∈ padded width n) : isDigit u = true ∨ u ∈ js "+-T:.Z" :=
    .inl (isDigit_of_mem_padded hu)
  have hseparator {separator : JsString} (hsub : separator ⊆ js "+-T:.Z") (hu : u ∈ separator) :
      isDigit u = true ∨ u ∈ js "+-T:.Z" := .inr (hsub hu)
  have hsign (year : Int) : (if year < 0 then js "-" else js "+") ⊆ js "+-T:.Z" := by
    split <;> decide
  rcases mem_append.1 hu with hu | hu
  · unfold yearText at hu
    split at hu
    · exact hpadded hu
    · exact (mem_append.1 hu).elim (hseparator (hsign _)) hpadded
  · revert hu
    simp only [dayText, mem_append, or_imp]
    exact ⟨hseparator (by decide), hpadded, hseparator (by decide), hpadded,
      hseparator (by decide), hpadded, hseparator (by decide), hpadded, hseparator (by decide),
      hpadded, hseparator (by decide), hpadded, hseparator (by decide)⟩

theorem hyphen_mem_toISOString (date : JsDate) : 0x2D ∈ toISOString date :=
  mem_append_right _ (mem_append_left _ (by decide))

/-! ## Different dates have different texts -/

/-- The day of a year that begins in March, counted from the start of the eras. -/
def dayOfMarchYear (year : Int) (dayOfYear : Nat) : Int :=
  let yearOfEra := (year % 400).toNat
  year / 400 * 146097 + (36524 * (yearOfEra / 100) + 1461 * (yearOfEra % 100 / 4) +
    365 * (yearOfEra % 4) + dayOfYear : Nat)

theorem dayOfMarchYear_eq (era : Int) {century quad yearOfQuad : Nat} (dayOfYear : Nat)
    (hcentury : century ≤ 3) (hquad : quad ≤ 24) (hyear : yearOfQuad ≤ 3) :
    dayOfMarchYear (era * 400 + (100 * century + 4 * quad + yearOfQuad : Nat)) dayOfYear =
      era * 146097 + (36524 * century + 1461 * quad + 365 * yearOfQuad + dayOfYear : Nat) := by
  have hera : (era * 400 + (100 * century + 4 * quad + yearOfQuad : Nat)) / 400 = era := by omega
  have hyears : ((era * 400 + (100 * century + 4 * quad + yearOfQuad : Nat)) % 400).toNat =
      100 * century + 4 * quad + yearOfQuad := by omega
  have hc : (100 * century + 4 * quad + yearOfQuad) / 100 = century := by omega
  have hq : (100 * century + 4 * quad + yearOfQuad) % 100 / 4 = quad := by omega
  have hy : (100 * century + 4 * quad + yearOfQuad) % 4 = yearOfQuad := by omega
  simp only [dayOfMarchYear, hera, hyears, hc, hq, hy]

/-- The day of a date, the other way round. -/
def dayOfDate (date : Int × Nat × Nat) : Int :=
  if 3 ≤ date.2.1 then
    dayOfMarchYear date.1 ((153 * (date.2.1 - 3) + 2) / 5 + (date.2.2 - 1)) - 719468
  else dayOfMarchYear (date.1 - 1) ((153 * (date.2.1 + 9) + 2) / 5 + (date.2.2 - 1)) - 719468

theorem dayOfDate_civilDate (day : Int) : dayOfDate (civilDate day) = day := by
  unfold civilDate
  simp only
  generalize hdoe : ((day + 719468) % 146097).toNat = dayOfEra
  generalize hcentury : min (dayOfEra / 36524) 3 = century
  generalize hdoc : dayOfEra - 36524 * century = dayOfCentury
  generalize hquad : dayOfCentury / 1461 = quad
  generalize hdoq : dayOfCentury % 1461 = dayOfQuad
  generalize hyoq : min (dayOfQuad / 365) 3 = yearOfQuad
  generalize hdoy : dayOfQuad - 365 * yearOfQuad = dayOfYear
  have hcenturies : century ≤ 3 := by omega
  have hquads : quad ≤ 24 := by omega
  have hyears : yearOfQuad ≤ 3 := by omega
  have hmarch := dayOfMarchYear_eq ((day + 719468) / 146097) dayOfYear hcenturies hquads hyears
  generalize hmonth : (5 * dayOfYear + 2) / 153 = month
  split
  · simp only [dayOfDate]
    have hback : (153 * (month + 3 - 3) + 2) / 5 + (dayOfYear - (153 * month + 2) / 5 + 1 - 1) =
        dayOfYear := by omega
    rw [hback, hmarch]
    omega
  · simp only [dayOfDate]
    have hback : (153 * (month - 9 + 9) + 2) / 5 + (dayOfYear - (153 * month + 2) / 5 + 1 - 1) =
        dayOfYear := by omega
    rw [hback, Int.add_sub_cancel, hmarch]
    omega

theorem civilDate_lt (day : Int) : (civilDate day).2.1 < 100 ∧ (civilDate day).2.2 < 100 := by
  unfold civilDate
  simp only
  generalize hdoe : ((day + 719468) % 146097).toNat = dayOfEra
  generalize hcentury : min (dayOfEra / 36524) 3 = century
  generalize hdoq : (dayOfEra - 36524 * century) % 1461 = dayOfQuad
  generalize hdoy : dayOfQuad - 365 * min (dayOfQuad / 365) 3 = dayOfYear
  split
  · simp only
    omega
  · simp only
    omega

theorem length_decimalText (n : Nat) : (decimalText n).length = (Nat.toDigits 10 n).length := by
  have hlength (text : List Char) (htext : ∀ c ∈ text, c.isDigit = true) :
      (utf16Encode text).length = text.length := by
    induction text with
    | nil => rfl
    | cons c text ih =>
      obtain ⟨u, hu, -⟩ := utf16EncodeChar_digit (htext c mem_cons_self)
      have hrest := ih fun d hd => htext d (mem_cons_of_mem _ hd)
      rw [utf16Encode, flatMap_cons, hu, singleton_append, length_cons, length_cons]
      exact congrArg (· + 1) hrest
  exact hlength _ fun c hc => Nat.isDigit_of_mem_toDigits (by omega) (by omega) hc

theorem length_padded {width n : Nat} (hwidth : 0 < width) (hn : n < 10 ^ width) :
    (padded width n).length = width := by
  have hlen : (decimalText n).length ≤ width := by
    rw [length_decimalText]
    exact (Nat.length_toDigits_le_iff (by omega) hwidth).2 hn
  rw [padded, length_append, length_replicate]
  omega

theorem digitsValue_padded (width n : Nat) : digitsValue (padded width n) = n := by
  have hzeros (k : Nat) (text : JsString) :
      digitsValue (List.replicate k 0x30 ++ text) = digitsValue text := by
    induction k with
    | zero => rfl
    | succ k ih => exact ih
  rw [padded, hzeros, digitsValue_decimalText]

theorem padded_inj {width n m : Nat} (heq : padded width n = padded width m) : n = m := by
  rw [← digitsValue_padded width n, heq, digitsValue_padded]

theorem yearText_inj {year year' : Int} (heq : yearText year = yearText year') : year = year' := by
  have hshort (y : Int) (hy : 0 ≤ y ∧ y ≤ 9999) : (padded 4 y.toNat).length = 4 :=
    length_padded (by omega) (by omega)
  have hlong (sign : JsString) (hsign : sign.length = 1) (n : Nat) :
      4 < (sign ++ padded 6 n).length := by
    rw [length_append, hsign, padded, length_append, length_replicate]
    omega
  have hsign (y : Int) : (if y < 0 then js "-" else js "+").length = 1 := by
    split <;> decide
  unfold yearText at heq
  by_cases hyear : 0 ≤ year ∧ year ≤ 9999
  · by_cases hyear' : 0 ≤ year' ∧ year' ≤ 9999
    · rw [if_pos hyear, if_pos hyear'] at heq
      have hn := padded_inj heq
      omega
    · rw [if_pos hyear, if_neg hyear'] at heq
      have hlen := hlong _ (hsign year') year'.natAbs
      rw [← heq, hshort year hyear] at hlen
      omega
  · by_cases hyear' : 0 ≤ year' ∧ year' ≤ 9999
    · rw [if_neg hyear, if_pos hyear'] at heq
      have hlen := hlong _ (hsign year) year.natAbs
      rw [heq, hshort year' hyear'] at hlen
      omega
    · rw [if_neg hyear, if_neg hyear'] at heq
      obtain ⟨hsame, hdigits⟩ := append_inj heq (by rw [hsign, hsign])
      have hn := padded_inj hdigits
      have hminus : js "-" ≠ js "+" := by decide
      split at hsame <;> split at hsame
      · omega
      · exact absurd hsame hminus
      · exact absurd hsame.symm hminus
      · omega

theorem padded_append_inj {width n m : Nat} {s t : JsString} (hwidth : 0 < width)
    (hn : n < 10 ^ width) (hm : m < 10 ^ width)
    (heq : padded width n ++ s = padded width m ++ t) : n = m ∧ s = t := by
  obtain ⟨hdigits, hrest⟩ :=
    append_inj heq (by rw [length_padded hwidth hn, length_padded hwidth hm])
  exact ⟨padded_inj hdigits, hrest⟩

section DayText

variable {month day time : Nat} (hmonth : month < 100) (hday : day < 100) (htime : time < 86400000)
include hmonth hday htime

theorem length_dayText : (dayText month day time).length = 20 := by
  have h₁ := length_padded (Nat.succ_pos 1) hmonth
  have h₂ := length_padded (Nat.succ_pos 1) hday
  have h₃ : (padded 2 (time / 3600000)).length = 2 := length_padded (by omega) (by omega)
  have h₄ : (padded 2 (time / 60000 % 60)).length = 2 := length_padded (by omega) (by omega)
  have h₅ : (padded 2 (time / 1000 % 60)).length = 2 := length_padded (by omega) (by omega)
  have h₆ : (padded 3 (time % 1000)).length = 3 := length_padded (by omega) (by omega)
  simp only [dayText, length_append, h₁, h₂, h₃, h₄, h₅, h₆]
  decide

theorem dayText_inj {month' day' time' : Nat} (hmonth' : month' < 100) (hday' : day' < 100)
    (htime' : time' < 86400000) (heq : dayText month day time = dayText month' day' time') :
    month = month' ∧ day = day' ∧ time = time' := by
  obtain ⟨h₁, heq⟩ := padded_append_inj (by omega) hmonth hmonth' (append_cancel_left heq)
  obtain ⟨h₂, heq⟩ := padded_append_inj (by omega) hday hday' (append_cancel_left heq)
  obtain ⟨h₃, heq⟩ := padded_append_inj (by omega) (by omega) (by omega)
    (append_cancel_left heq)
  obtain ⟨h₄, heq⟩ := padded_append_inj (by omega) (by omega) (by omega)
    (append_cancel_left heq)
  obtain ⟨h₅, heq⟩ := padded_append_inj (by omega) (by omega) (by omega)
    (append_cancel_left heq)
  obtain ⟨h₆, -⟩ := padded_append_inj (by omega) (by omega) (by omega)
    (append_cancel_left heq)
  refine ⟨h₁, h₂, ?_⟩
  omega

end DayText

theorem toISOString_inj {date date' : JsDate} (heq : toISOString date = toISOString date') :
    date = date' := by
  have hday (ms : Int) := civilDate_lt (ms / 86400000)
  have htime (ms : Int) : (ms % 86400000).toNat < 86400000 := by omega
  obtain ⟨hyear, hrest⟩ := append_inj' heq (by
    rw [length_dayText (hday _).1 (hday _).2 (htime _),
      length_dayText (hday _).1 (hday _).2 (htime _)])
  obtain ⟨hmonth, hdayOfMonth, htimes⟩ := dayText_inj (hday _).1 (hday _).2 (htime _) (hday _).1
    (hday _).2 (htime _) hrest
  have hcivil : civilDate (date.ms / 86400000) = civilDate (date'.ms / 86400000) :=
    Prod.ext (yearText_inj hyear) (Prod.ext hmonth hdayOfMonth)
  have hdays : date.ms / 86400000 = date'.ms / 86400000 := by
    rw [← dayOfDate_civilDate (date.ms / 86400000), hcivil, dayOfDate_civilDate]
  apply JsDate.ext_ms
  omega

end SquadPanel.Js
