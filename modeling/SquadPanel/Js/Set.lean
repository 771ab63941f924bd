import Mathlib.Data.List.Nodup

/-!
# JavaScript sets

A `Set` iterates over its elements in the order in which they were added.
-/

namespace SquadPanel.Js

open List

structure JsSet (α : Type) where
  elems : List α
  nodup : elems.Nodup

namespace JsSet

variable {α : Type} {s : JsSet α}

instance : Membership α (JsSet α) := ⟨fun s a => a ∈ s.elems⟩

theorem mem_iff {a : α} : a ∈ s ↔ a ∈ s.elems := Iff.rfl

def empty : JsSet α := ⟨[], nodup_nil⟩

variable [DecidableEq α]

instance (s : JsSet α) (a : α) : Decidable (a ∈ s) := inferInstanceAs (Decidable (a ∈ s.elems))

def has (s : JsSet α) (a : α) : Bool := decide (a ∈ s)

def add (s : JsSet α) (a : α) : JsSet α :=
  if h : a ∈ s.elems then s
  else ⟨s.elems ++ [a], nodup_append.2 ⟨s.nodup, nodup_singleton a, by grind⟩⟩

/-- `new Set(list)`. -/
def ofList (list : List α) : JsSet α := list.foldl add empty

omit [DecidableEq α] in
@[simp] theorem not_mem_empty (a : α) : a ∉ (empty : JsSet α) := not_mem_nil

omit [DecidableEq α] in
theorem eq_empty_of_not_mem (hnone : ∀ a, a ∉ s) : s = empty := by
  obtain ⟨elems, hnodup⟩ := s
  obtain rfl : elems = [] := eq_nil_iff_forall_not_mem.2 hnone
  rfl

@[simp] theorem has_eq_true {a : α} : s.has a = true ↔ a ∈ s := decide_eq_true_iff

@[simp] theorem mem_add {a b : α} : b ∈ s.add a ↔ b ∈ s ∨ b = a := by
  unfold add
  split
  · next hmem =>
    constructor
    · exact .inl
    · rintro (hb | rfl)
      · exact hb
      · exact hmem
  · simp [mem_iff]

theorem mem_foldl_add (list : List α) (s : JsSet α) (b : α) :
    b ∈ list.foldl add s ↔ b ∈ s ∨ b ∈ list := by
  induction list generalizing s with
  | nil => simp
  | cons a list ih => rw [foldl_cons, ih, mem_add, mem_cons, or_assoc]

@[simp] theorem mem_ofList {list : List α} {b : α} : b ∈ ofList list ↔ b ∈ list := by
  simp [ofList, mem_foldl_add]

end JsSet

end SquadPanel.Js
