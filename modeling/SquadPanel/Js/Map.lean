import Mathlib.Data.List.Induction
import Mathlib.Data.List.Nodup

/-!
# JavaScript maps

A `Map` keeps its entries in the order in which their keys were first set.
-/

namespace SquadPanel.Js

open List
open Prod (fst)

structure JsMap (K V : Type) where
  entries : List (K × V)
  nodup : (entries.map fst).Nodup

namespace JsMap

variable {K V : Type}

def empty : JsMap K V := ⟨[], nodup_nil⟩

def keys (m : JsMap K V) : List K := m.entries.map fst

variable [DecidableEq K] {entries : List (K × V)} {k : K} {m : JsMap K V} {v : V}

instance [DecidableEq V] : DecidableEq (JsMap K V) := fun m m' =>
  decidable_of_iff (m.entries = m'.entries) (by cases m; cases m'; simp)

def getEntry (k : K) : List (K × V) → Option V
  | [] => none
  | entry :: rest => if entry.1 = k then some entry.2 else getEntry k rest

def get (m : JsMap K V) (k : K) : Option V := getEntry k m.entries

def setEntry (k : K) (v : V) : List (K × V) → List (K × V)
  | [] => [(k, v)]
  | entry :: rest => if entry.1 = k then (k, v) :: rest else entry :: setEntry k v rest

theorem keys_setEntry (k : K) (v : V) (entries : List (K × V)) :
    (setEntry k v entries).map fst =
      if k ∈ entries.map fst then entries.map fst
      else entries.map fst ++ [k] := by
  induction entries with
  | nil => simp [setEntry]
  | cons entry rest ih =>
    by_cases hkey : entry.1 = k
    · simp [setEntry, hkey]
    · have hne : k ≠ entry.1 := fun h => hkey h.symm
      rw [setEntry, if_neg hkey, map_cons, ih]
      simp only [map_cons, mem_cons, hne, false_or]
      split <;> simp

theorem nodup_setEntry (k : K) (v : V) (hnodup : (entries.map fst).Nodup) :
    ((setEntry k v entries).map fst).Nodup := by
  rw [keys_setEntry]
  split
  · exact hnodup
  · next hfresh => exact nodup_append.2 ⟨hnodup, by simp, by grind⟩

def set (m : JsMap K V) (k : K) (v : V) : JsMap K V :=
  ⟨setEntry k v m.entries, nodup_setEntry k v m.nodup⟩

/-- `new Map(entries)`. -/
def ofEntries (entries : List (K × V)) : JsMap K V :=
  entries.foldl (fun m entry => m.set entry.1 entry.2) empty

@[simp] theorem get_empty (k : K) : (empty : JsMap K V).get k = none := rfl

theorem mem_of_getEntry (hget : getEntry k entries = some v) : (k, v) ∈ entries := by
  induction entries with
  | nil => cases hget
  | cons entry rest ih =>
    rw [getEntry] at hget
    split at hget
    · next hkey =>
      cases hget
      rw [← hkey]
      exact mem_cons_self
    · exact mem_cons_of_mem _ (ih hget)

theorem getEntry_eq_none (hnot : k ∉ entries.map fst) : getEntry k entries = none := by
  cases hget : getEntry k entries with
  | none => rfl
  | some v => exact absurd (mem_map_of_mem (mem_of_getEntry hget)) hnot

theorem getEntry_setEntry (k k' : K) (v : V) (entries : List (K × V)) :
    getEntry k' (setEntry k v entries) = if k = k' then some v else getEntry k' entries := by
  induction entries with
  | nil => rfl
  | cons entry rest ih =>
    unfold setEntry
    split
    · next hkey => simp only [getEntry, hkey]; split <;> rfl
    · next hkey =>
      simp only [getEntry, ih]
      by_cases hk' : entry.1 = k'
      · have hne : k ≠ k' := by rw [← hk']; exact fun h => hkey h.symm
        simp [hk', hne]
      · simp [hk']

theorem get_set (m : JsMap K V) (k k' : K) (v : V) :
    (m.set k v).get k' = if k = k' then some v else m.get k' :=
  getEntry_setEntry k k' v m.entries

theorem get_eq_some_of_mem (hmem : (k, v) ∈ m.entries) : m.get k = some v := by
  obtain ⟨entries, hnodup⟩ := m
  unfold get
  induction entries with
  | nil => cases hmem
  | cons entry rest ih =>
    rw [map_cons, nodup_cons] at hnodup
    obtain rfl | htail := mem_cons.1 hmem
    · simp [getEntry]
    · have hne : entry.1 ≠ k := by
        intro hkey
        rw [hkey] at hnodup
        exact hnodup.1 (mem_map.2 ⟨_, htail, rfl⟩)
      rw [getEntry, if_neg hne]
      exact ih hnodup.2 htail

theorem mem_of_get (hget : m.get k = some v) : (k, v) ∈ m.entries := mem_of_getEntry hget

theorem mem_keys_of_get (hget : (m.get k).isSome) : k ∈ m.keys := by
  obtain ⟨v, hv⟩ := Option.isSome_iff_exists.1 hget
  exact mem_map_of_mem (mem_of_get hv)

/-! ## Deleting entries -/

/-- The map after the entries that fail a test have been deleted. -/
def filter (m : JsMap K V) (keep : K → V → Bool) : JsMap K V :=
  ⟨m.entries.filter fun entry => keep entry.1 entry.2,
    m.nodup.sublist ((filter_sublist).map fst)⟩

def delete (m : JsMap K V) (k : K) : JsMap K V := m.filter fun key _ => key ≠ k

theorem get_eq_some_iff : m.get k = some v ↔ (k, v) ∈ m.entries :=
  ⟨mem_of_get, get_eq_some_of_mem⟩

theorem get_filter (m : JsMap K V) (keep : K → V → Bool) (k : K) :
    (m.filter keep).get k = (m.get k).filter (keep k) := by
  ext v
  rw [get_eq_some_iff, Option.filter_eq_some_iff, get_eq_some_iff]
  exact mem_filter

theorem get_delete (m : JsMap K V) (k k' : K) :
    (m.delete k).get k' = if k' = k then none else m.get k' := by
  rw [delete, get_filter]
  by_cases hk : k' = k
  · rw [if_pos hk]
    cases m.get k' <;> simp [hk]
  · rw [if_neg hk]
    cases m.get k' <;> simp [hk]

/-! ## Maps built from a list of entries -/

theorem ofEntries_concat (entries : List (K × V)) (entry : K × V) :
    ofEntries (entries ++ [entry]) = (ofEntries entries).set entry.1 entry.2 :=
  foldl_concat ..

/-- The last entry with a key counts. -/
theorem get_ofEntries (entries : List (K × V)) (k : K) :
    (ofEntries entries).get k = getEntry k entries.reverse := by
  induction entries using reverseRecOn with
  | nil => rfl
  | append_singleton entries entry ih =>
    rw [ofEntries_concat, get_set, ih, reverse_concat]
    rfl

theorem mem_of_get_ofEntries (hget : (ofEntries entries).get k = some v) : (k, v) ∈ entries := by
  rw [get_ofEntries] at hget
  exact mem_reverse.1 (mem_of_getEntry hget)

theorem keys_ofEntries (entries : List (K × V)) :
    (ofEntries entries).keys = (entries.map fst).eraseDups := by
  induction entries using reverseRecOn with
  | nil => rfl
  | append_singleton entries entry ih =>
    have hmem : entry.1 ∈ (ofEntries entries).keys ↔ entry.1 ∈ entries.map fst := by
      rw [ih, mem_eraseDups]
    rw [ofEntries_concat, map_append, eraseDups_append, ← ih]
    refine (keys_setEntry entry.1 entry.2 (ofEntries entries).entries).trans ?_
    rw [← keys, map_cons, map_nil, cons_removeAll]
    by_cases hk : entry.1 ∈ entries.map fst
    · simp [hmem.2 hk, hk]
    · have hsingle : [entry.1].eraseDups = [entry.1] := rfl
      simp [mt hmem.1 hk, hk, hsingle]

/-- The keys in the order of their first entries, each with the value of its last entry. -/
def lastValues (entries : List (K × V)) : List V :=
  (entries.map fst).eraseDups.filterMap (getEntry · entries.reverse)

theorem values_ofEntries (entries : List (K × V)) :
    (ofEntries entries).entries.map Prod.snd = lastValues entries := by
  rw [lastValues, ← keys_ofEntries, keys, filterMap_map, ← filterMap_eq_map]
  refine filterMap_congr fun entry hentry => ?_
  exact ((get_ofEntries entries entry.1).symm.trans (get_eq_some_of_mem hentry)).symm

theorem get_ofEntries_isSome (hkey : k ∈ entries.map fst) : ((ofEntries entries).get k).isSome := by
  rw [← mem_eraseDups, ← keys_ofEntries] at hkey
  obtain ⟨entry, hentry, rfl⟩ := mem_map.1 hkey
  rw [get_eq_some_of_mem hentry]
  rfl

end JsMap

end SquadPanel.Js
