import SquadPanel.Js.Text

/-!
# CSV cells

The panel writes an export cell by cell, and the ban list import reads a line with a state
machine of its own.  Whatever the cells hold, the reader gives back their texts, and no text
comes back as a formula.
-/

namespace SquadPanel.Bans.Csv

open Js List

/-! ## Writing a cell -/

/-- A cell: a string, another value with the text that `String` gives for it, or nothing. -/
inductive CellValue where
  | string (text : JsString)
  | other (text : JsString)
  | missing

/-- `/^[=+\-@\t\r]/` -/
def isFormulaTrigger (text : JsString) : Bool :=
  text.head?.any (js "=+-@\t\r").contains

/-- `[+-]?` at the start of a text. -/
def dropSign : JsString → JsString
  | [] => []
  | u :: text => if u = 0x2B ∨ u = 0x2D then text else u :: text

/-- `([eE][+-]?\d+)?$` -/
def isExponent : JsString → Bool
  | [] => true
  | u :: text => (u = 0x65 || u = 0x45) && dropSign text ≠ [] && (dropSign text).all isDigit

/-- `/^[+-]?(\d+\.?\d*|\.\d+)([eE][+-]?\d+)?$/` -/
def isNumericText (text : JsString) : Bool :=
  let whole := (dropSign text).takeWhile isDigit
  match (dropSign text).dropWhile isDigit with
  | [] => whole ≠ []
  | u :: rest =>
    if u = 0x2E then
      (whole ≠ [] || rest.head?.any isDigit) && isExponent (rest.dropWhile isDigit)
    else whole ≠ [] && isExponent (u :: rest)

/-- `/[",;\r\n]/` -/
def needsQuotes (text : JsString) : Bool := text.any (js "\",;\r\n").contains

/-- `replace(/"/g, '""')` -/
def doubleQuotes (text : JsString) : JsString :=
  text.flatMap fun u => if u = 0x22 then [0x22, 0x22] else [u]

def CellValue.text : CellValue → JsString
  | .string text => text
  | .other text => text
  | .missing => []

def CellValue.isFormula : CellValue → Bool
  | .string text => isFormulaTrigger text && !isNumericText text
  | _ => false

/-- The text of a cell with the apostrophe that keeps it from being a formula. -/
def CellValue.safe (value : CellValue) : JsString :=
  if value.isFormula then 0x27 :: value.text else value.text

def csvCell (value : CellValue) : JsString :=
  if value.isFormula || needsQuotes value.safe then
    0x22 :: doubleQuotes value.safe ++ [0x22]
  else value.safe

/-! ## Reading a line -/

def splitLoop (delimiter : JsString) (fields : List JsString) (current : JsString) :
    Bool → JsString → List JsString
  | true, [] => []
  | false, [] => fields ++ [current]
  | true, u :: rest =>
    if u = 0x22 then
      match rest with
      | [] => splitLoop delimiter fields current false []
      | v :: rest =>
        if v = 0x22 then splitLoop delimiter fields (current ++ [0x22]) true rest
        else splitLoop delimiter fields current false (v :: rest)
    else splitLoop delimiter fields (current ++ [u]) true rest
  | false, u :: rest =>
    if u = 0x22 then splitLoop delimiter fields current true rest
    else if [u] = delimiter then splitLoop delimiter (fields ++ [current]) [] false rest
    else splitLoop delimiter fields (current ++ [u]) false rest

def splitCsvLine (line delimiter : JsString) : List JsString :=
  splitLoop delimiter [] [] false line

/-! ## Cells read back -/

section
variable {delimiter : JsString} {fields : List JsString} {text rest : JsString}

theorem splitLoop_plain (current : JsString) (hplain : ∀ u ∈ text, u ≠ 0x22 ∧ [u] ≠ delimiter) :
    splitLoop delimiter fields current false (text ++ rest) =
      splitLoop delimiter fields (current ++ text) false rest := by
  induction text generalizing current with
  | nil => simp
  | cons u text ih =>
    obtain ⟨⟨hquote, hdelimiter⟩, htext⟩ := forall_mem_cons.1 hplain
    rw [cons_append, splitLoop, if_neg hquote, if_neg hdelimiter, ih _ htext, append_assoc]
    rfl

/-- A quoted text ends at the first quote that no other quote follows. -/
theorem splitLoop_doubleQuotes (current : JsString) (hrest : rest.head? ≠ some 0x22) :
    splitLoop delimiter fields current true (doubleQuotes text ++ 0x22 :: rest) =
      splitLoop delimiter fields (current ++ text) false rest := by
  induction text generalizing current with
  | nil =>
    cases rest with
    | nil => simp [doubleQuotes, splitLoop]
    | cons v rest =>
      have hv : v ≠ 0x22 := by simpa using hrest
      simp [doubleQuotes, splitLoop, hv]
  | cons u text ih =>
    rw [doubleQuotes, flatMap_cons, ← doubleQuotes]
    by_cases hu : u = 0x22
    · simp [hu, splitLoop, ih]
    · have hkept : ∀ rest, splitLoop delimiter fields current true (u :: rest) =
          splitLoop delimiter fields (current ++ [u]) true rest := by
        intro rest
        cases rest <;> simp [splitLoop, hu]
      simp [hu, hkept, ih]

end

theorem splitLoop_csvCell (value : CellValue) (fields : List JsString) (rest : JsString)
    (hrest : rest.head? ≠ some 0x22) :
    splitLoop [0x2C] fields [] false (csvCell value ++ rest) =
      splitLoop [0x2C] fields value.safe false rest := by
  unfold csvCell
  split
  · rw [cons_append, cons_append, append_assoc, splitLoop, if_pos rfl]
    exact splitLoop_doubleQuotes [] hrest
  · next hplain =>
    refine splitLoop_plain [] fun u hu => ?_
    have hnot : (js "\",;\r\n").contains u = false := by
      simp only [needsQuotes, Bool.or_eq_true, any_eq_true, not_or, not_exists] at hplain
      simpa using fun h => hplain.2 u ⟨hu, h⟩
    constructor <;> rintro ⟨⟩ <;> cases hnot

theorem splitLoop_csvCells (value : CellValue) (values : List CellValue)
    (fields : List JsString) :
    splitLoop [0x2C] fields [] false ([0x2C].intercalate ((value :: values).map csvCell)) =
      fields ++ (value :: values).map CellValue.safe := by
  induction values generalizing value fields with
  | nil =>
    have hcell := splitLoop_csvCell value fields [] nofun
    simpa [splitLoop] using hcell
  | cons value' values ih =>
    rw [map_cons, map_cons, intercalate_cons_cons, ← map_cons, append_assoc,
      splitLoop_csvCell value fields _ (by simp), cons_append, splitLoop, if_neg (by decide),
      if_pos rfl, nil_append, ih, append_assoc]
    rfl

/-- Every line of cells is read back as their texts, and none of them as a formula. -/
theorem splitCsvLine_csvCells (value : CellValue) (values : List CellValue) :
    splitCsvLine ([0x2C].intercalate ((value :: values).map csvCell)) [0x2C] =
        (value :: values).map CellValue.safe ∧
      ∀ text, (isFormulaTrigger (CellValue.string text).safe &&
        !isNumericText (CellValue.string text).safe) = false := by
  refine ⟨splitLoop_csvCells value values [], fun text => ?_⟩
  unfold CellValue.safe
  split
  · rfl
  · next hplain => simpa [CellValue.isFormula, CellValue.text] using hplain

end SquadPanel.Bans.Csv
