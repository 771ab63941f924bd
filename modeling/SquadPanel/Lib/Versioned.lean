import Mathlib.Algebra.BigOperators.Group.List.Basic
import Mathlib.Tactic.Abel

/-!
# Rows and cells under open transactions

A table keeps every row together with the open transaction that inserted it and the
open transaction that deleted it, if any.  A cell holds a committed value and the
draft of the transaction that has it locked.  Committing a transaction makes its
inserts and its drafts permanent and drops the rows it deleted; rolling it back does
the opposite.

A weight of the rows adds up to a settled total over the committed rows and, for every
transaction, to what it has added and removed so far.  A commit moves the settled
total by exactly that difference and leaves the books of every other transaction
alone.
-/

namespace SquadPanel.Lib

open List

/-! ## Stamped rows -/

structure Stamped (X R : Type) where
  row : R
  insertedBy : Option X
  deletedBy : Option X

namespace Versioned

section Rows

variable {X R M : Type} [AddCommGroup M]

/-- The total weight of the rows that satisfy `p`. -/
def total (p : Stamped X R → Prop) [DecidablePred p] (w : R → M) (rows : List (Stamped X R)) :
    M :=
  (rows.map fun e => if p e then w e.row else 0).sum

section Total

variable {p q : Stamped X R → Prop} [DecidablePred p] [DecidablePred q] {w : R → M}

@[simp] theorem total_nil : total p w [] = 0 := rfl

theorem total_cons (e : Stamped X R) (rows : List (Stamped X R)) :
    total p w (e :: rows) = (if p e then w e.row else 0) + total p w rows := rfl

theorem total_append (rows rows' : List (Stamped X R)) :
    total p w (rows ++ rows') = total p w rows + total p w rows' := by
  simp [total]

variable {rows : List (Stamped X R)}

theorem total_eq_zero (hnone : ∀ e ∈ rows, ¬ p e) : total p w rows = 0 :=
  sum_eq_zero (forall_mem_map.2 fun e he => if_neg (hnone e he))

variable {f : Stamped X R → Stamped X R}

/-- Rows that are kept or changed one by one keep a total if each keeps its share. -/
theorem total_filter_map {keep : Stamped X R → Bool}
    (hkeep : ∀ e ∈ rows, keep e → (p (f e) ↔ q e) ∧ (f e).row = e.row)
    (hdrop : ∀ e ∈ rows, keep e = false → ¬ q e) :
    total p w ((rows.filter keep).map f) = total q w rows := by
  induction rows with
  | nil => rfl
  | cons e rows ih =>
    have hrest := ih (fun e he => hkeep e (mem_cons_of_mem _ he))
      fun e he => hdrop e (mem_cons_of_mem _ he)
    rw [filter_cons]
    split
    · next hk =>
      obtain ⟨hiff, hrow⟩ := hkeep e mem_cons_self hk
      rw [map_cons, total_cons, total_cons, hrest, hrow]
      simp only [hiff]
    · next hk =>
      have hq := hdrop e mem_cons_self (by simpa using hk)
      rw [total_cons, if_neg hq, zero_add, hrest]

theorem total_map (hmap : ∀ e ∈ rows, (p (f e) ↔ q e) ∧ (f e).row = e.row) :
    total p w (rows.map f) = total q w rows := by
  have hall : total p w ((rows.filter fun _ => true).map f) = total q w rows :=
    total_filter_map (fun e he _ => hmap e he) (by simp)
  rwa [filter_true] at hall

end Total

/-! ### Stamps -/

/-- A transaction sees the committed rows and its own. -/
def Visible (x : X) (e : Stamped X R) : Prop :=
  e.insertedBy = none ∨ e.insertedBy = some x

/-- Only rows that a transaction sees are deleted by it. -/
def WellStamped (rows : List (Stamped X R)) : Prop :=
  ∀ e ∈ rows, ∀ x, e.deletedBy = some x → Visible x e

def insert (x : X) (new : List R) (rows : List (Stamped X R)) : List (Stamped X R) :=
  rows ++ new.map fun row => ⟨row, some x, none⟩

/-- The transaction has left no mark. -/
def Unused (x : X) (rows : List (Stamped X R)) : Prop :=
  ∀ e ∈ rows, e.insertedBy ≠ some x ∧ e.deletedBy ≠ some x

/-- The total over the committed rows. -/
def settled (w : R → M) (rows : List (Stamped X R)) : M :=
  total (fun e => e.insertedBy = none) w rows

theorem settled_eq_zero {w : R → M} {rows : List (Stamped X R)}
    (hzero : ∀ e ∈ rows, w e.row = 0) : settled w rows = 0 :=
  sum_eq_zero (forall_mem_map.2 fun e he => by rw [hzero e he, ite_self])

section Insert

variable {x y : X} {rows : List (Stamped X R)} (new : List R)

theorem wellStamped_insert (hstamped : WellStamped rows) : WellStamped (insert x new rows) := by
  intro e he z hz
  obtain he | he := mem_append.1 he
  · exact hstamped e he z hz
  · obtain ⟨row, _, rfl⟩ := mem_map.1 he
    cases hz

theorem unused_insert (hunused : Unused y rows) (hne : y ≠ x) : Unused y (insert x new rows) := by
  intro e he
  obtain he | he := mem_append.1 he
  · exact hunused e he
  · obtain ⟨row, _, rfl⟩ := mem_map.1 he
    simpa using hne.symm

variable {w : R → M} {p : Stamped X R → Prop}

theorem total_stamped [DecidablePred p] (hall : ∀ row, p ⟨row, some x, none⟩) :
    total p w (new.map fun row => ⟨row, some x, none⟩) = (new.map w).sum := by
  rw [total, map_map]
  exact congrArg sum (map_congr_left fun row _ => if_pos (hall row))

theorem total_unstamped [DecidablePred p] (hnone : ∀ row, ¬ p ⟨row, some x, none⟩) :
    total p w (new.map fun row => ⟨row, some x, none⟩) = 0 := by
  apply total_eq_zero
  intro e he
  obtain ⟨row, _, rfl⟩ := mem_map.1 he
  exact hnone row

theorem settled_insert : settled w (insert x new rows) = settled w rows := by
  rw [settled, insert, total_append, total_unstamped new (by simp), add_zero, settled]

end Insert

variable [DecidableEq X]

instance (x : X) (e : Stamped X R) : Decidable (Visible x e) :=
  inferInstanceAs (Decidable (_ ∨ _))

variable (x : X) (p : R → Prop) (e : Stamped X R)

/-- The rows that a `DELETE` of `x` picks. -/
def Picks : Prop :=
  Visible x e ∧ e.deletedBy = none ∧ p e.row

instance (x : X) (p : R → Prop) [DecidablePred p] (e : Stamped X R) : Decidable (Picks x p e) :=
  inferInstanceAs (Decidable (_ ∧ _ ∧ _))

def delete [DecidablePred p] (rows : List (Stamped X R)) :
    List (Stamped X R) :=
  rows.map fun e => if Picks x p e then { e with deletedBy := some x } else e

def picked [DecidablePred p] (rows : List (Stamped X R)) : List R :=
  (rows.filter fun e => Picks x p e).map (·.row)

def settle : Stamped X R :=
  if e.insertedBy = some x then { e with insertedBy := none } else e

def restore : Stamped X R :=
  if e.deletedBy = some x then { e with deletedBy := none } else e

def commit (rows : List (Stamped X R)) : List (Stamped X R) :=
  (rows.filter fun e => e.deletedBy ≠ some x).map (settle x)

def rollback (rows : List (Stamped X R)) : List (Stamped X R) :=
  (rows.filter fun e => e.insertedBy ≠ some x).map (restore x)

/-! ### Totals of a transaction -/

/-- The total over the rows that `x` has inserted. -/
def added (w : R → M) (rows : List (Stamped X R)) : M :=
  total (fun e => e.insertedBy = some x) w rows

/-- The total over the rows that `x` has deleted. -/
def removed (w : R → M) (rows : List (Stamped X R)) : M :=
  total (fun e => e.deletedBy = some x) w rows

variable {w : R → M} {x y : X} {rows : List (Stamped X R)}

theorem added_of_unused (hunused : Unused x rows) : added x w rows = 0 :=
  total_eq_zero fun e he => (hunused e he).1

theorem removed_of_unused (hunused : Unused x rows) : removed x w rows = 0 :=
  total_eq_zero fun e he => (hunused e he).2

section Insert

variable (new : List R)

theorem added_insert_self : added x w (insert x new rows) = added x w rows + (new.map w).sum := by
  rw [added, insert, total_append, total_stamped new (by simp), added]

theorem added_insert_of_ne (hne : y ≠ x) : added y w (insert x new rows) = added y w rows := by
  rw [added, insert, total_append,
    total_unstamped new (fun _ h => hne (Option.some.inj h).symm), add_zero, added]

theorem removed_insert : removed y w (insert x new rows) = removed y w rows := by
  rw [removed, insert, total_append, total_unstamped new (by simp), add_zero, removed]

end Insert

section Delete

variable (p : R → Prop) [DecidablePred p]

theorem settled_delete : settled w (delete x p rows) = settled w rows := by
  apply total_map
  intro e _
  split <;> simp

theorem added_delete : added y w (delete x p rows) = added y w rows := by
  apply total_map
  intro e _
  split <;> simp

theorem removed_delete_of_ne (hne : y ≠ x) : removed y w (delete x p rows) = removed y w rows := by
  apply total_map
  intro e _
  split
  · next hpicks => simpa [hpicks.2.1] using hne.symm
  · simp

theorem removed_delete_self :
    removed x w (delete x p rows) = removed x w rows + ((picked x p rows).map w).sum := by
  induction rows with
  | nil => simp [removed, delete, picked]
  | cons e rows ih =>
    have hrest : total (fun e => e.deletedBy = some x) w
        (rows.map fun e => if Picks x p e then { e with deletedBy := some x } else e) =
        total (fun e => e.deletedBy = some x) w rows + ((picked x p rows).map w).sum := ih
    unfold removed delete picked
    rw [map_cons, total_cons, total_cons, filter_cons, hrest]
    by_cases hpicks : Picks x p e
    · simp only [hpicks, hpicks.2.1, if_true, decide_true, map_cons, sum_cons, picked]
      abel_nf
    · simp only [hpicks, if_false, decide_false, picked]
      abel

theorem wellStamped_delete (hstamped : WellStamped rows) : WellStamped (delete x p rows) := by
  intro e' he' z hz
  obtain ⟨e, he, rfl⟩ := mem_map.1 he'
  split at hz
  · next hpicks =>
    cases hz
    rw [if_pos hpicks]
    exact hpicks.1
  · next hnot =>
    rw [if_neg hnot]
    exact hstamped e he z hz

theorem unused_delete (hunused : Unused y rows) (hne : y ≠ x) : Unused y (delete x p rows) := by
  intro e' he'
  obtain ⟨e, he, rfl⟩ := mem_map.1 he'
  split
  · exact ⟨(hunused e he).1, by simpa using hne.symm⟩
  · exact hunused e he

end Delete

/-! ### The end of a transaction -/

section End

theorem settle_row (x : X) (e : Stamped X R) : (settle x e).row = e.row := by
  unfold settle
  split <;> rfl

theorem settle_deletedBy (x : X) (e : Stamped X R) : (settle x e).deletedBy = e.deletedBy := by
  unfold settle
  split <;> rfl

theorem restore_row (x : X) (e : Stamped X R) : (restore x e).row = e.row := by
  unfold restore
  split <;> rfl

theorem restore_insertedBy (x : X) (e : Stamped X R) : (restore x e).insertedBy = e.insertedBy := by
  unfold restore
  split <;> rfl

/-- To `y` the end of another transaction, which drops rows and changes stamps, is no change. -/
structure Aside (y : X) (keep : Stamped X R → Bool) (f : Stamped X R → Stamped X R)
    (rows : List (Stamped X R)) : Prop where
  row : ∀ e, (f e).row = e.row
  inserted : ∀ e, (f e).insertedBy = some y ↔ e.insertedBy = some y
  deleted : ∀ e, (f e).deletedBy = some y ↔ e.deletedBy = some y
  dropped : ∀ e ∈ rows, keep e = false → e.insertedBy ≠ some y ∧ e.deletedBy ≠ some y

section
variable {keep : Stamped X R → Bool} {f : Stamped X R → Stamped X R} (haside : Aside y keep f rows)
include haside

theorem Aside.added : added y w ((rows.filter keep).map f) = added y w rows :=
  total_filter_map (fun e _ _ => ⟨haside.inserted e, haside.row e⟩)
    fun e he hdrop => (haside.dropped e he hdrop).1

theorem Aside.removed : removed y w ((rows.filter keep).map f) = removed y w rows :=
  total_filter_map (fun e _ _ => ⟨haside.deleted e, haside.row e⟩)
    fun e he hdrop => (haside.dropped e he hdrop).2

omit [DecidableEq X] in
theorem Aside.unused (hunused : Unused y rows) : Unused y ((rows.filter keep).map f) := by
  intro e' he'
  obtain ⟨e, he, rfl⟩ := mem_map.1 he'
  rw [Ne, haside.inserted, Ne, haside.deleted]
  exact hunused e (mem_filter.1 he).1

end

/-- A commit moves the settled total by what the transaction added and removed. -/
theorem settled_commit (hstamped : WellStamped rows) :
    settled w (commit x rows) = settled w rows + added x w rows - removed x w rows := by
  have hkept : settled w (commit x rows) =
      total (fun e => e.deletedBy ≠ some x ∧ Visible x e) w rows := by
    refine total_filter_map (fun e _ hkeep => ⟨?_, settle_row x e⟩) ?_
    · have hdeleted : e.deletedBy ≠ some x := of_decide_eq_true hkeep
      unfold settle Visible
      split <;> simp_all
    · intro e _ hdrop h
      simp [h.1] at hdrop
  rw [eq_sub_iff_add_eq, hkept]
  unfold settled added removed total
  rw [← sum_map_add, ← sum_map_add]
  -- the shares of a row, which is visible to the transaction that deletes it
  refine congrArg sum (map_congr_left fun e he => ?_)
  have hvisible := hstamped e he x
  unfold Visible at hvisible ⊢
  by_cases hdeleted : e.deletedBy = some x
  · obtain hin | hin := hvisible hdeleted <;> simp [hdeleted, hin]
  · by_cases hin : e.insertedBy = none <;> simp [hdeleted, hin]

theorem aside_commit (hstamped : WellStamped rows) (hne : y ≠ x) :
    Aside y (fun e => e.deletedBy ≠ some x) (settle x) rows where
  row := settle_row x
  inserted e := by
    unfold settle
    split <;> simp_all [eq_comm]
  deleted e := by rw [settle_deletedBy]
  dropped e he hdrop := by
    have hdeleted : e.deletedBy = some x := by simpa using hdrop
    obtain hin | hin := hstamped e he x hdeleted <;> simp [hdeleted, hin, hne.symm]

theorem wellStamped_commit (hstamped : WellStamped rows) : WellStamped (commit x rows) := by
  intro e' he' z hz
  obtain ⟨e, he, rfl⟩ := mem_map.1 he'
  rw [settle_deletedBy] at hz
  obtain hin | hin := hstamped e (mem_filter.1 he).1 z hz
  · left
    unfold settle
    split
    · rfl
    · exact hin
  · unfold settle Visible
    split
    · exact .inl rfl
    · exact .inr hin

theorem settled_rollback : settled w (rollback x rows) = settled w rows :=
  total_filter_map (fun e _ _ => ⟨by rw [restore_insertedBy], restore_row x e⟩)
    fun _ _ hmine hnone => by simp [hnone] at hmine

theorem aside_rollback (hstamped : WellStamped rows) (hne : y ≠ x) :
    Aside y (fun e => e.insertedBy ≠ some x) (restore x) rows where
  row := restore_row x
  inserted e := by rw [restore_insertedBy]
  deleted e := by
    unfold restore
    split <;> simp_all [eq_comm]
  dropped e he hdrop := by
    have hin : e.insertedBy = some x := by simpa using hdrop
    refine ⟨by simp [hin, hne.symm], fun hdeleted => ?_⟩
    obtain hvisible | hvisible := hstamped e he y hdeleted <;> simp_all

theorem wellStamped_rollback (hstamped : WellStamped rows) : WellStamped (rollback x rows) := by
  intro e' he' z hz
  obtain ⟨e, he, rfl⟩ := mem_map.1 he'
  have hold : e.deletedBy = some z := by
    unfold restore at hz
    split at hz
    · cases hz
    · exact hz
  have hvisible := hstamped e (mem_filter.1 he).1 z hold
  unfold Visible
  rw [restore_insertedBy]
  exact hvisible

end End

end Rows

/-! ## Locked cells -/

/-- A committed value, and the draft of the transaction that holds the lock. -/
structure Cell (X V : Type) where
  value : V
  draft : Option (X × V)

namespace Cell

variable {X V : Type} {x y : X} {c : Cell X V}

/-- The transaction has the cell locked. -/
def HeldBy (x : X) (c : Cell X V) : Prop :=
  ∃ v, c.draft = some (x, v)

/-- The transaction may lock the cell. -/
def Free (x : X) (c : Cell X V) : Prop :=
  ∀ held ∈ c.draft, held.1 = x

def write (x : X) (v : V) (c : Cell X V) : Cell X V :=
  { c with draft := some (x, v) }

theorem not_heldBy_of_free (hfree : c.Free x) (hne : y ≠ x) : ¬ c.HeldBy y :=
  fun ⟨v, hdraft⟩ => hne (hfree (y, v) hdraft)

theorem not_heldBy_none {v : V} : ¬ (⟨v, none⟩ : Cell X V).HeldBy x :=
  fun ⟨_, hdraft⟩ => nomatch hdraft

theorem not_heldBy_write (hne : y ≠ x) (v : V) : ¬ (c.write x v).HeldBy y := by
  rintro ⟨v', hdraft⟩
  cases hdraft
  exact hne rfl

variable [DecidableEq X]

instance (x : X) (c : Cell X V) : Decidable (Free x c) :=
  inferInstanceAs (Decidable (∀ held ∈ c.draft, held.1 = x))

/-- What the transaction reads. -/
def view (x : X) (c : Cell X V) : V :=
  match c.draft with
  | some (y, v) => if y = x then v else c.value
  | none => c.value

def commit (x : X) (c : Cell X V) : Cell X V :=
  match c.draft with
  | some (y, v) => if y = x then ⟨v, none⟩ else c
  | none => c

def rollback (x : X) (c : Cell X V) : Cell X V :=
  match c.draft with
  | some (y, _) => if y = x then ⟨c.value, none⟩ else c
  | none => c

theorem view_of_heldBy {v : V} (hdraft : c.draft = some (x, v)) : c.view x = v := by
  simp [view, hdraft]

theorem view_of_not_heldBy (hnot : ¬ c.HeldBy x) : c.view x = c.value := by
  unfold view
  split
  · next y v hdraft =>
    rw [if_neg]
    rintro rfl
    exact hnot ⟨v, hdraft⟩
  · rfl

/-- The end of a transaction frees the cell or has nothing to do with it. -/
theorem commit_eq_or (x : X) (c : Cell X V) :
    c.commit x = c ∨ c.Free x ∧ ∃ v, c.commit x = ⟨v, none⟩ := by
  unfold commit Free
  split
  · next y v hdraft =>
    split
    · next heq => exact .inr ⟨by simp [hdraft, heq], v, rfl⟩
    · exact .inl rfl
  · exact .inl rfl

theorem rollback_eq_or (x : X) (c : Cell X V) :
    c.rollback x = c ∨ c.Free x ∧ ∃ v, c.rollback x = ⟨v, none⟩ := by
  unfold rollback Free
  split
  · next y v hdraft =>
    split
    · next heq => exact .inr ⟨by simp [hdraft, heq], _, rfl⟩
    · exact .inl rfl
  · exact .inl rfl

theorem commit_value : (c.commit x).value = c.view x := by
  unfold commit view
  split
  · split <;> rfl
  · rfl

theorem rollback_value : (c.rollback x).value = c.value := by
  unfold rollback
  split
  · split <;> rfl
  · rfl

end Cell

end Versioned

end SquadPanel.Lib
