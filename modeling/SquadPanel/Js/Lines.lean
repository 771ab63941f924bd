import SquadPanel.Js.Text

/-!
# Lines of a regular expression

The units that `.` does not match and that `^` follows with the `m` flag, and the narrower
class `[\r\n]`.
-/

namespace SquadPanel.Js

/-- What `.` does not match. -/
def isLineTerminator (u : UInt16) : Bool := u == 0x0A || u == 0x0D || u == 0x2028 || u == 0x2029

/-- `[\r\n]` -/
def isLineBreak (u : UInt16) : Bool := u == 0x0D || u == 0x0A

/-- No line ends in the text. -/
abbrev Unbroken (s : JsString) : Prop := ∀ u ∈ s, isLineBreak u = false

/-- `^` with the `m` flag, after the unit `prev`. -/
def atLineStart : Option UInt16 → Bool
  | none => true
  | some u => isLineTerminator u

theorem isLineTerminator_of_isLineBreak {u : UInt16} (hu : isLineBreak u = true) :
    isLineTerminator u = true := by
  simp only [isLineBreak, Bool.or_eq_true, beq_iff_eq] at hu
  rcases hu with rfl | rfl <;> rfl

theorem isWhitespace_of_isLineTerminator {u : UInt16} (hu : isLineTerminator u = true) :
    isWhitespace u = true := by
  simp only [isLineTerminator, Bool.or_eq_true, beq_iff_eq] at hu
  rcases hu with ((rfl | rfl) | rfl) | rfl <;> rfl

theorem isWhitespace_of_isLineBreak (u : UInt16) (hu : isLineBreak u = true) :
    isWhitespace u = true :=
  isWhitespace_of_isLineTerminator (isLineTerminator_of_isLineBreak hu)

end SquadPanel.Js
