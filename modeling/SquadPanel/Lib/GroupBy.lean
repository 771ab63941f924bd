import Mathlib.Algebra.BigOperators.Group.List.Basic
import Mathlib.Data.List.Induction
import Mathlib.Data.List.ReduceOption
import SquadPanel.Lib.Keyed

/-!
# Grouped aggregates, kept row by row or computed at once

A table of aggregates has one row for each key that some item has.  A query computes it from
all items, group by group; a writer keeps it up with one upsert for each item.  The two agree
for every aggregate whose value for a longer group follows from its value for the shorter one.
-/

namespace SquadPanel.Lib

open List

/-- A table with at most one row for each key. -/
abbrev Table (K R : Type*) := K → Option R

section Tables

variable {E K R : Type*} [DecidableEq K] {key : E → Option K} {aggregate : List E → R}
  {items : List E}

/-- The insertion of a row, or the update of the row the key already has. -/
def upsert (table : Table K R) (key : K) (excluded : R) (update : R → R) : Table K R :=
  fun k => if k = key then some ((table k).elim excluded update) else table k

/-- One row for each key that some item has, computed from the items with that key. -/
def groupBy (key : E → Option K) (aggregate : List E → R) (items : List E) : Table K R :=
  fun k =>
    match withKey key items (some k) with
    | [] => none
    | item :: rest => some (aggregate (item :: rest))

theorem groupBy_of_nil {k : K} (hgroup : withKey key items (some k) = []) :
    groupBy key aggregate items k = none := by
  unfold groupBy
  rw [hgroup]

theorem groupBy_of_ne_nil {k : K} (hgroup : withKey key items (some k) ≠ []) :
    groupBy key aggregate items k = some (aggregate (withKey key items (some k))) := by
  unfold groupBy
  cases hg : withKey key items (some k) with
  | nil => exact absurd hg hgroup
  | cons item rest => rfl

theorem groupBy_eq_none {k : K} :
    groupBy key aggregate items k = none ↔ withKey key items (some k) = [] := by
  constructor
  · intro hnone
    by_contra hne
    rw [groupBy_of_ne_nil hne] at hnone
    cases hnone
  · exact groupBy_of_nil

theorem withKey_concat (key : E → Option K) (items : List E) (item : E) (k : Option K) :
    withKey key (items ++ [item]) k =
      withKey key items k ++ if key item = k then [item] else [] := by
  unfold withKey
  by_cases hk : key item = k <;> simp [hk]

theorem elim_upsert (table : Table K R) (target : Option K) (excluded : R) (update : R → R)
    (k : K) : target.elim table (fun key => upsert table key excluded update) k =
      if target = some k then some ((table k).elim excluded update) else table k := by
  cases target with
  | none => rfl
  | some key =>
    show (if k = key then _ else _) = _
    simp only [Option.some.injEq, eq_comm]

/-- Upserting the items one by one gives the table that the query computes. -/
theorem foldl_eq_groupBy {S : Type*} {step : S → E → S} {table : S → Table K R} {start : S}
    {next : E → R → R} (hstart : table start = fun _ => none)
    (hstep : ∀ state item, table (step state item) = (key item).elim (table state) fun k =>
        upsert (table state) k (aggregate [item]) (next item))
    (haggregate : ∀ group item, aggregate (group ++ [item]) = next item (aggregate group))
    (items : List E) : table (items.foldl step start) = groupBy key aggregate items := by
  induction items using List.reverseRecOn with
  | nil => exact hstart
  | append_singleton items item ih =>
    funext k
    rw [foldl_append, foldl_cons, foldl_nil, hstep, elim_upsert, ih]
    have hgroup := withKey_concat key items item (some k)
    by_cases hk : key item = some k
    · rw [if_pos hk] at hgroup ⊢
      have hne : withKey key (items ++ [item]) (some k) ≠ [] := by
        rw [hgroup]
        simp
      rw [groupBy_of_ne_nil hne, hgroup]
      by_cases hold : withKey key items (some k) = []
      · rw [groupBy_of_nil hold, hold]
        rfl
      · rw [groupBy_of_ne_nil hold, haggregate]
        rfl
    · rw [if_neg hk, append_nil] at hgroup
      rw [if_neg hk]
      unfold groupBy
      rw [hgroup]

/-- Leaving some keys out of a query shows exactly when an item has one of them. -/
theorem groupBy_eq_iff_of_kept {kept : E → Option K} {keep : K → Prop} [DecidablePred keep]
    (hkept : ∀ item k, kept item = some k ↔ key item = some k ∧ keep k) (items : List E) :
    groupBy kept aggregate items = groupBy key aggregate items ↔
      ∀ item ∈ items, ∀ k, key item = some k → keep k := by
  have hgroup : ∀ k, withKey kept items (some k) =
      if keep k then withKey key items (some k) else [] := by
    intro k
    unfold withKey
    simp only [hkept]
    by_cases hk : keep k <;> simp [hk]
  constructor
  · intro heq item hitem k hkey
    by_contra hk
    have hnone : groupBy key aggregate items k = none := by
      rw [← heq]
      exact groupBy_of_nil (by rw [hgroup, if_neg hk])
    rw [groupBy_eq_none, withKey, filter_eq_nil_iff] at hnone
    exact hnone item hitem (decide_eq_true hkey)
  · intro hall
    funext k
    unfold groupBy
    rw [hgroup]
    by_cases hk : keep k
    · rw [if_pos hk]
    · have hnil : withKey key items (some k) = [] := by
        rw [withKey, filter_eq_nil_iff]
        intro item hitem hkey
        exact hk (hall item hitem k (of_decide_eq_true hkey))
      rw [if_neg hk, hnil]

end Tables

/-! ## Aggregates over columns that may be null -/

section Columns

variable {M : Type*} [AddCommMonoid M] (column : List (Option M))

/-- The sum of the values that are not null, null where there is none. -/
def sumNonNull : Option M :=
  if column.reduceOption = [] then none else some column.reduceOption.sum

theorem sumNonNull_eq_none {column : List (Option M)} :
    sumNonNull column = none ↔ ∀ value ∈ column, value = none := by
  unfold sumNonNull
  split
  · next hnil =>
    simp only [List.reduceOption, filterMap_eq_nil_iff, id] at hnil
    exact iff_of_true rfl hnil
  · next hne =>
    simp only [List.reduceOption, filterMap_eq_nil_iff, id] at hne
    exact iff_of_false (by simp) hne

theorem sumNonNull_getD : (sumNonNull column).getD 0 = column.reduceOption.sum := by
  unfold sumNonNull
  split
  · next hnil =>
    rw [hnil]
    rfl
  · rfl

theorem sumNonNull_append (left right : List (Option M)) : sumNonNull (left ++ right) =
      Option.merge (· + ·) (sumNonNull left) (sumNonNull right) := by
  unfold sumNonNull
  rw [reduceOption_append]
  by_cases hl : left.reduceOption = [] <;> by_cases hr : right.reduceOption = [] <;>
    simp [hl, hr]

theorem sumNonNull_concat_some (value : M) :
    sumNonNull (column ++ [some value]) = some ((sumNonNull column).getD 0 + value) := by
  rw [sumNonNull_append]
  cases hsum : sumNonNull column with
  | none | some total => simp [sumNonNull, List.reduceOption]

theorem sumNonNull_perm {left right : List (Option M)} (hperm : left.Perm right) :
    sumNonNull left = sumNonNull right := by
  have hvalues : left.reduceOption.Perm right.reduceOption := hperm.filterMap id
  unfold sumNonNull
  rw [hvalues.sum_eq]
  by_cases hr : right.reduceOption = []
  · rw [if_pos hr, if_pos (hr ▸ hvalues).eq_nil]
  · rw [if_neg hr, if_neg fun hl => hr (hl ▸ hvalues).symm.eq_nil]

/-- When more values leave a sum as it was. -/
theorem merge_add_eq_left {M : Type*} [AddCancelCommMonoid M] {total added : Option M} :
    Option.merge (· + ·) total added = total ↔
      added = none ∨ (total ≠ none ∧ added.getD 0 = 0) := by
  cases total <;> cases added <;> simp

end Columns

end SquadPanel.Lib
