import Mathlib.Data.List.Basic

/-!
# Length-prefixed fields

A field is either absent or a value preceded by its length.  Numbers are written with
symbols of their own, so that a reader knows where the length ends; the value itself may
hold any symbol.  A sequence of fields can be read back in one way only.
-/

namespace SquadPanel.Lib.LengthPrefixed

open List

variable {α : Type}

/-- How numbers are written, and the symbols around them. -/
structure Format (α : Type) where
  mark : α
  absent : α
  stop : α
  number : Nat → List α
  number_injective : Function.Injective number
  number_ne_nil : ∀ n, number n ≠ []
  absent_not_mem : ∀ n, absent ∉ number n
  stop_not_mem : ∀ n, stop ∉ number n

/-- One field. -/
def field (F : Format α) : Option (List α) → List α
  | none => [F.mark, F.absent]
  | some value => F.mark :: (F.number value.length ++ F.stop :: value)

/-- A word without the stop symbol is determined by what is read up to it. -/
theorem append_stop_inj {stop : α} {xs ys rest rest' : List α} (hxs : stop ∉ xs)
    (hys : stop ∉ ys) (heq : xs ++ stop :: rest = ys ++ stop :: rest') :
    xs = ys ∧ rest = rest' := by
  -- what one list has beyond the other would begin with the stop
  rcases append_eq_append_iff.1 heq with ⟨more, rfl, hmore⟩ | ⟨more, rfl, hmore⟩
  · cases more <;> simp_all
  · cases more <;> simp_all

variable (F : Format α)

/-- The length says where the value ends. -/
theorem absent_ne_number {n : Nat} {rest rest' : List α} :
    F.absent :: rest ≠ F.number n ++ rest' := by
  intro heq
  cases hnumber : F.number n with
  | nil => exact F.number_ne_nil n hnumber
  | cons x xs =>
    rw [hnumber] at heq
    have hx : F.absent = x := (List.cons.inj heq).1
    apply F.absent_not_mem n
    rw [hnumber, hx]
    exact mem_cons_self

/-- A field is read back in one way, whatever follows it. -/
theorem field_append_inj {a b : Option (List α)} {rest rest' : List α}
    (heq : field F a ++ rest = field F b ++ rest') : a = b ∧ rest = rest' := by
  cases a with
  | none =>
    cases b with
    | none => exact ⟨rfl, (List.cons.inj (List.cons.inj heq).2).2⟩
    | some value' =>
      simp only [field, cons_append, nil_append, append_assoc] at heq
      exact absurd (List.cons.inj heq).2 (absent_ne_number F)
  | some value =>
    cases b with
    | none =>
      simp only [field, cons_append, nil_append, append_assoc] at heq
      exact absurd (List.cons.inj heq).2.symm (absent_ne_number F)
    | some value' =>
      simp only [field, cons_append, append_assoc] at heq
      obtain ⟨hnumber, htail⟩ :=
        append_stop_inj (F.stop_not_mem _) (F.stop_not_mem _) (List.cons.inj heq).2
      obtain ⟨rfl, hrest⟩ := append_inj htail (F.number_injective hnumber)
      exact ⟨rfl, hrest⟩

theorem field_ne_nil (a : Option (List α)) : field F a ≠ [] := by
  cases a <;> exact cons_ne_nil _ _

/-- So is a sequence of fields. -/
theorem fields_inj {as bs : List (Option (List α))}
    (heq : as.flatMap (field F) = bs.flatMap (field F)) : as = bs := by
  induction as generalizing bs with
  | nil =>
    cases bs with
    | nil => rfl
    | cons b bs =>
      have hnil := append_eq_nil_iff.1 heq.symm
      exact absurd hnil.1 (field_ne_nil F b)
  | cons a as ih =>
    cases bs with
    | nil =>
      have hnil := append_eq_nil_iff.1 heq
      exact absurd hnil.1 (field_ne_nil F a)
    | cons b bs =>
      obtain ⟨rfl, hrest⟩ := field_append_inj F heq
      rw [ih hrest]

end SquadPanel.Lib.LengthPrefixed
