import Mathlib.Data.Finset.Card
import Mathlib.Data.List.Basic

/-!
# The first and the last of each key

Items with keys, several of which may share one.  `firsts` keeps the first item of every
key, as a loop with a set of seen keys does; `lastWith` is the last item of a key, which a
map filled in order holds.
-/

namespace SquadPanel.Lib

open List

variable {α K : Type*} [DecidableEq K] (key : α → K)

/-- The first item of every key, in order. -/
def firsts : List α → List α
  | [] => []
  | x :: xs => x :: (firsts xs).filter fun y => key y ≠ key x

/-- The first item with a key. -/
def firstWith (list : List α) (k : K) : Option α := list.find? fun x => key x = k

/-- The items with a key. -/
def withKey (list : List α) (k : K) : List α := list.filter fun x => key x = k

/-- The last item with a key. -/
def lastWith (list : List α) (k : K) : Option α := (withKey key list k).getLast?

variable {key} {list : List α} {x : α} {k : K}

theorem firstWith_cons (x : α) (xs : List α) (k : K) :
    firstWith key (x :: xs) k = if key x = k then some x else firstWith key xs k := by
  unfold firstWith
  by_cases hk : key x = k <;> simp [hk]

theorem mem_of_firstWith (hx : firstWith key list k = some x) : x ∈ list ∧ key x = k :=
  ⟨mem_of_find?_eq_some hx, by simpa using find?_some hx⟩

theorem exists_firstWith (hx : x ∈ list) : ∃ y, firstWith key list (key x) = some y := by
  rw [← Option.isSome_iff_exists, firstWith, find?_isSome]
  exact ⟨x, hx, decide_eq_true rfl⟩

theorem firstWith_congr {K' : Type*} [DecidableEq K'] {key' : α → K'} {k' : K'}
    (hkey : ∀ x ∈ list, key x = k ↔ key' x = k') :
    firstWith key list k = firstWith key' list k' := by
  induction list with
  | nil => rfl
  | cons x xs ih =>
    have hrest := ih fun y hy => hkey y (mem_cons_of_mem _ hy)
    have hx := hkey x mem_cons_self
    rw [firstWith_cons, firstWith_cons, hrest]
    simp only [hx]

theorem mem_firsts : x ∈ firsts key list ↔ firstWith key list (key x) = some x := by
  induction list with
  | nil => simp [firsts, firstWith]
  | cons y ys ih =>
    rw [firsts, mem_cons, mem_filter, ih, firstWith_cons]
    by_cases hkey : key y = key x
    · rw [if_pos hkey, Option.some_inj]
      constructor
      · rintro (rfl | ⟨-, hne⟩)
        · rfl
        · exact absurd hkey.symm (of_decide_eq_true hne)
      · exact fun h => .inl h.symm
    · rw [if_neg hkey]
      constructor
      · rintro (rfl | ⟨hx, -⟩)
        · exact absurd rfl hkey
        · exact hx
      · exact fun hx => .inr ⟨hx, decide_eq_true fun h => hkey h.symm⟩

theorem firsts_subset (hx : x ∈ firsts key list) : x ∈ list :=
  (mem_of_firstWith (mem_firsts.1 hx)).1

theorem firsts_inj {y : α} (hx : x ∈ firsts key list) (hy : y ∈ firsts key list)
    (hkey : key x = key y) : x = y := by
  have hx := mem_firsts.1 hx
  rw [hkey, mem_firsts.1 hy] at hx
  exact (Option.some.inj hx).symm

theorem exists_mem_firsts (hx : x ∈ list) : ∃ y ∈ firsts key list, key y = key x := by
  obtain ⟨y, hy⟩ : ∃ y, firstWith key list (key x) = some y := exists_firstWith hx
  have hkey := (mem_of_firstWith hy).2
  exact ⟨y, mem_firsts.2 (by rw [hkey]; exact hy), hkey⟩

theorem firsts_pairwise (list : List α) : (firsts key list).Pairwise fun x y => key x ≠ key y := by
  induction list with
  | nil => exact List.Pairwise.nil
  | cons x xs ih =>
    refine pairwise_cons.2 ⟨fun y hy => ?_, ih.filter _⟩
    exact fun h => of_decide_eq_true (mem_filter.1 hy).2 h.symm

variable (key) in
theorem firsts_concat (list : List α) (x : α) : firsts key (list ++ [x]) =
      firsts key list ++ if key x ∈ list.map key then [] else [x] := by
  induction list with
  | nil => rfl
  | cons y ys ih =>
    rw [cons_append, firsts, ih, filter_append, firsts, cons_append, map_cons]
    congr 2
    by_cases hin : key x ∈ ys.map key
    · rw [if_pos hin, if_pos (mem_cons_of_mem _ hin), filter_nil]
    · rw [if_neg hin]
      by_cases hkey : key x = key y
      · rw [if_pos (hkey ▸ mem_cons_self), filter_cons_of_neg (by simpa using hkey),
          filter_nil]
      · rw [if_neg (by simpa [hkey] using hin), filter_cons_of_pos (by simpa using hkey),
          filter_nil]

theorem mem_map_firsts : k ∈ (firsts key list).map key ↔ k ∈ list.map key := by
  constructor
  · intro hk
    obtain ⟨x, hx, rfl⟩ := mem_map.mp hk
    exact mem_map_of_mem (firsts_subset hx)
  · intro hk
    obtain ⟨x, hx, rfl⟩ := mem_map.mp hk
    obtain ⟨y, hy, hkey⟩ : ∃ y ∈ firsts key list, key y = key x := exists_mem_firsts hx
    exact hkey ▸ mem_map_of_mem hy

/-- Items told apart by more than their key: as many of them as there are keys can stand for
all of them only if the key tells them apart too. -/
theorem eq_of_key_eq_of_covers {I : Type*} [DecidableEq I] {identity : α → I} {f : I → K}
    (hkey : ∀ x, key x = f (identity x)) {chosen : List α} (hchosen : ∀ x ∈ chosen, x ∈ list)
    (hlength : chosen.length = (firsts key list).length) (hnodup : (chosen.map identity).Nodup)
    (hcovers : ∀ x ∈ list, identity x ∈ chosen.map identity) {y : α} (hx : x ∈ list) (hy : y ∈ list)
    (hsame : key x = key y) : identity x = identity y := by
  have hcard : (chosen.map identity).toFinset.card = (firsts key list).length := by
    rw [toFinset_card_of_nodup hnodup, length_map, hlength]
  have hkeys : ((firsts key list).map key).toFinset = (chosen.map identity).toFinset.image f := by
    ext k
    simp only [mem_toFinset, Finset.mem_image, mem_map_firsts]
    constructor
    · intro hk
      obtain ⟨z, hz, rfl⟩ := mem_map.mp hk
      exact ⟨identity z, hcovers z hz, (hkey z).symm⟩
    · rintro ⟨i, hi, rfl⟩
      obtain ⟨z, hz, rfl⟩ := mem_map.mp hi
      exact hkey z ▸ mem_map_of_mem (hchosen z hz)
  have hfirsts : ((firsts key list).map key).Nodup :=
    pairwise_map.mpr (firsts_pairwise list)
  have hinjective : Set.InjOn f (chosen.map identity).toFinset := by
    rw [← Finset.card_image_iff, ← hkeys, toFinset_card_of_nodup hfirsts, length_map, hcard]
  apply hinjective
  · exact mem_toFinset.mpr (hcovers x hx)
  · exact mem_toFinset.mpr (hcovers y hy)
  · rw [← hkey, ← hkey, hsame]

/-- A key that is passed over takes its later items along. -/
theorem filter_firsts_of_neg {p : K → Bool} (hx : p (key x) = false) (xs : List α) :
    (firsts key (x :: xs)).filter (fun y => p (key y)) =
      (firsts key xs).filter fun y => p (key y) := by
  rw [firsts, filter_cons_of_neg (by simp [hx]), filter_filter]
  refine filter_congr fun y _ => ?_
  by_cases hkey : key y = key x <;> simp [hkey, hx]

theorem filter_firsts_of_pos {p : K → Bool} (hx : p (key x) = true) (xs : List α) :
    (firsts key (x :: xs)).filter (fun y => p (key y)) =
      x :: (firsts key xs).filter fun y => p (key y) && decide (key y ≠ key x) := by
  rw [firsts, filter_cons_of_pos (by simp [hx]), filter_filter]

theorem mem_withKey : x ∈ withKey key list k ↔ x ∈ list ∧ key x = k := by
  rw [withKey, mem_filter, decide_eq_true_iff]

theorem mem_of_lastWith (hx : lastWith key list k = some x) : x ∈ list ∧ key x = k :=
  mem_withKey.1 (mem_of_getLast? hx)

theorem lastWith_eq_none : lastWith key list k = none ↔ ∀ x ∈ list, key x ≠ k := by
  rw [lastWith, getLast?_eq_none_iff, eq_nil_iff_forall_not_mem]
  simp only [mem_withKey, not_and]

theorem lastWith_append (list list' : List α) (k : K) :
    lastWith key (list ++ list') k = (lastWith key list' k).or (lastWith key list k) := by
  rw [lastWith, withKey, filter_append, getLast?_append]
  rfl

/-- An item can be read last of all. -/
theorem exists_perm_lastWith (hx : x ∈ list) :
    ∃ list' : List α, list'.Perm list ∧ lastWith key list' (key x) = some x := by
  obtain ⟨front, back, rfl⟩ := append_of_mem hx
  refine ⟨(front ++ back) ++ [x], ?_, ?_⟩
  · exact (perm_append_singleton _ _).trans perm_middle.symm
  · rw [lastWith_append]
    simp [lastWith, withKey]

end SquadPanel.Lib
