import Mathlib.Data.List.Induction
import Mathlib.Data.List.Sort
import Mathlib.Data.List.TakeWhile
import Mathlib.Order.Defs.LinearOrder

/-!
# The first of the greatest

The element a scan with a strict comparison keeps: the first one whose key is greatest.
Over a list that a stable sort has put in order, it is also greatest in that order among
the elements with its key.
-/

namespace SquadPanel.Lib

open List

variable {α : Type*} {κ : Type*}

section FirstMax
variable [LinearOrder κ] {key : α → κ} {list : List α} {x y : α}

/-- `x` has the greatest key of the list, and no element before it has it. -/
def FirstMax (key : α → κ) (list : List α) (x : α) : Prop :=
  ∃ front back, list = front ++ x :: back ∧ (∀ y ∈ front, key y < key x) ∧
    ∀ y ∈ back, key y ≤ key x

theorem FirstMax.mem (hx : FirstMax key list x) : x ∈ list := by
  obtain ⟨front, back, rfl, -, -⟩ := hx
  exact mem_append_right _ mem_cons_self

theorem FirstMax.le (hx : FirstMax key list x) (hy : y ∈ list) : key y ≤ key x := by
  obtain ⟨front, back, rfl, hfront, hback⟩ := hx
  rcases mem_append.1 hy with hy | hy
  · exact (hfront y hy).le
  · rcases mem_cons.1 hy with rfl | hy
    · exact le_refl _
    · exact hback y hy

/-- A scan that moves on to a strictly greater key only. -/
theorem firstMax_foldl (key : α → κ) (first : α) (rest : List α) : FirstMax key (first :: rest)
      (rest.foldl (fun best y => if key best < key y then y else best) first) := by
  induction rest using List.reverseRecOn with
  | nil => exact ⟨[], [], rfl, by simp, by simp⟩
  | append_singleton rest last ih =>
    rw [foldl_append, foldl_cons, foldl_nil]
    have hle := fun y (hy : y ∈ first :: rest) => ih.le hy
    obtain ⟨front, back, hsplit, hfront, hback⟩ := ih
    split
    · next hlt =>
      refine ⟨first :: rest, [], by simp, fun y hy => ?_, by simp⟩
      exact lt_of_le_of_lt (hle y hy) hlt
    · next hlt =>
      refine ⟨front, back ++ [last], ?_, hfront, fun y hy => ?_⟩
      · rw [← cons_append, hsplit, append_assoc, cons_append]
      · rcases mem_append.1 hy with hy | hy
        · exact hback y hy
        · rw [mem_singleton.1 hy]
          exact le_of_not_gt hlt

/-- Before a first element with the greatest key there is no other. -/
theorem FirstMax.eq_of_split {front back : List α} {r : α}
    (hx : FirstMax key (front ++ r :: back) x) (hr : key x ≤ key r) (hfront : x ∉ front) :
    x = r := by
  obtain ⟨front', back', hsplit, hfront', -⟩ := hx
  rcases append_eq_append_iff.1 hsplit with ⟨c, rfl, hc⟩ | ⟨c, rfl, hc⟩
  · cases c with
    | nil => exact ((List.cons.inj hc).1).symm
    | cons z c =>
      have hz : r = z := (List.cons.inj hc).1
      exact absurd (hfront' r (by simp [hz])) (not_lt_of_ge hr)
  · cases c with
    | nil => exact (List.cons.inj hc).1
    | cons z c =>
      have hz : x = z := (List.cons.inj hc).1
      exact absurd (by simp [hz]) hfront

/-- Among the elements with its key, the first one comes first in the order of the list. -/
theorem FirstMax.related {r : α → α → Prop} (hrefl : ∀ z, r z z) (hsorted : list.Pairwise r)
    (hx : FirstMax key list x) (hy : y ∈ list) (hkey : key y = key x) : r x y := by
  obtain ⟨front, back, rfl, hfront, -⟩ := hx
  rcases mem_append.1 hy with hy | hy
  · exact absurd hkey (hfront y hy).ne
  · rcases mem_cons.1 hy with rfl | hy
    · exact hrefl y
    · exact (pairwise_cons.1 (pairwise_append.1 hsorted).2.1).1 y hy

theorem FirstMax.of_map {β : Type*} {f : β → α} {l : List β} (hx : FirstMax key (l.map f) x) :
    ∃ b, f b = x ∧ FirstMax (fun b => key (f b)) l b := by
  obtain ⟨front, back, hsplit, hfront, hback⟩ := hx
  obtain ⟨front', rest, rfl, rfl, hrest⟩ := map_eq_append_iff.1 hsplit
  obtain ⟨b, back', rfl, rfl, rfl⟩ := map_eq_cons_iff.1 hrest
  exact ⟨b, rfl, front', back', rfl, fun y hy => hfront (f y) (mem_map_of_mem hy),
    fun y hy => hback (f y) (mem_map_of_mem hy)⟩

end FirstMax

/-! ## Stable sorts -/

section StableSort
variable (r : α → α → Prop) [DecidableRel r]

/-- The head of a list stands in its sorted form before all that it may stand before. -/
theorem exists_split_insertionSort_cons (a : α) (l : List α) :
    ∃ front back, (a :: l).insertionSort r = front ++ a :: back ∧ ∀ y ∈ front, ¬ r a y := by
  rw [insertionSort_cons, orderedInsert_eq_take_drop]
  exact ⟨_, _, rfl, fun y hy => by simpa using mem_takeWhile_imp hy⟩

theorem orderedInsert_of_forall {a : α} {l : List α} (hall : ∀ b ∈ l, r a b) :
    l.orderedInsert r a = a :: l := by
  cases l with
  | nil => rfl
  | cons b l => exact orderedInsert_cons_of_le r l (hall b mem_cons_self)

variable [IsTrans α r]

theorem filter_orderedInsert (p : α → Bool) (a : α) {l : List α} (hsorted : l.Pairwise r) :
    (l.orderedInsert r a).filter p =
      if p a then (l.filter p).orderedInsert r a else l.filter p := by
  induction l with
  | nil => cases hp : p a <;> simp [hp]
  | cons b l ih =>
    obtain ⟨hb, hsorted⟩ := pairwise_cons.1 hsorted
    by_cases hab : r a b
    · -- all that follows `b` may follow `a`
      have hall : ∀ c ∈ b :: l, r a c :=
        forall_mem_cons.2 ⟨hab, fun c hc => trans_of r hab (hb c hc)⟩
      have hkept : ∀ c ∈ (b :: l).filter p, r a c := fun c hc => hall c (mem_filter.1 hc).1
      rw [orderedInsert_of_forall r hall, filter_cons, orderedInsert_of_forall r hkept]
    · rw [orderedInsert_of_not_le r l hab, filter_cons, filter_cons, ih hsorted]
      cases hpb : p b with
      | false => rfl
      | true =>
        cases p a with
        | false => rfl
        | true => exact (orderedInsert_of_not_le r _ hab).symm

/-- A stable sort keeps the order of the elements that a filter keeps. -/
theorem filter_insertionSort [Std.Total r] (p : α → Bool) (l : List α) :
    (l.insertionSort r).filter p = (l.filter p).insertionSort r := by
  induction l with
  | nil => rfl
  | cons a l ih =>
    rw [insertionSort_cons, filter_orderedInsert r p a (pairwise_insertionSort r l),
      filter_cons, ih]
    split <;> rfl

end StableSort

end SquadPanel.Lib
