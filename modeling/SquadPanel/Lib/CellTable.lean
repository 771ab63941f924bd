import SquadPanel.Lib.Versioned

/-!
# Tables of locked cells

A table keeps a cell for every key; a cell whose value is `none` is a row that
does not exist.  A row that an open transaction has changed is locked by it, so
each transaction sees the committed rows with its own changes in their place.
-/

namespace SquadPanel.Lib

open Versioned

structure CellTable (K X V : Type) where
  keys : List K
  cell : K → Cell X (Option V)
  absent : ∀ k, k ∉ keys → cell k = ⟨none, none⟩

namespace CellTable

variable {K X V : Type}

/-- The committed row. -/
def value (t : CellTable K X V) (k : K) : Option V := (t.cell k).value

variable [DecidableEq X] (x : X) (t : CellTable K X V)

/-- The row as the transaction sees it. -/
def view (k : K) : Option V := (t.cell k).view x

/-- No other transaction has the row locked. -/
def free (k : K) : Bool := decide ((t.cell k).Free x)

def write [DecidableEq K] (x : X) (k : K) (v : Option V) (t : CellTable K X V) :
    CellTable K X V where
  keys := if k ∈ t.keys then t.keys else k :: t.keys
  cell := fun k' => if k' = k then (t.cell k).write x v else t.cell k'
  absent := by
    intro k' hk'
    split at hk'
    · next hk =>
      rw [if_neg (fun heq : k' = k => hk' (heq ▸ hk)), t.absent k' hk']
    · rw [List.mem_cons, not_or] at hk'
      rw [if_neg hk'.1, t.absent k' hk'.2]

def commit : CellTable K X V where
  keys := t.keys
  cell := fun k => (t.cell k).commit x
  absent := fun k hk => by rw [t.absent k hk]; rfl

def rollback : CellTable K X V where
  keys := t.keys
  cell := fun k => (t.cell k).rollback x
  absent := fun k hk => by rw [t.absent k hk]; rfl

/-- The key of a row that the transaction sees and that satisfies `f`. -/
def find? (f : K → V → Bool) (t : CellTable K X V) : Option K :=
  t.keys.find? fun k => (t.view x k).any (f k)

section Lemmas
variable {x y : X} {t : CellTable K X V} {k k' : K} {v : Option V} {f : K → V → Bool}

theorem find?_eq_some (h : t.find? x f = some k) :
    ∃ row, t.view x k = some row ∧ f k row = true := by
  have hfound := List.find?_some h
  rw [Option.any_eq_true] at hfound
  exact hfound

theorem find?_eq_none (h : t.find? x f = none) {row : V} (hrow : t.view x k = some row) :
    f k row = false := by
  have hmem : k ∈ t.keys := by
    by_contra hnot
    rw [view, t.absent k hnot] at hrow
    cases hrow
  have hnone := List.find?_eq_none.1 h k hmem
  simpa [hrow] using hnone

theorem view_of_draft_none (h : (t.cell k).draft = none) : t.view x k = t.value k := by
  simp [view, value, Cell.view, h]

section Write
variable [DecidableEq K]

omit [DecidableEq X] in
theorem value_write : (t.write x k v).value k' = t.value k' := by
  unfold value write
  simp only
  split
  · next heq => rw [heq]; rfl
  · rfl

theorem view_write_self : (t.write x k v).view x k = v := by
  simp [view, write, Cell.write, Cell.view]

theorem view_write_of_ne (hne : k' ≠ k) : (t.write x k v).view y k' = t.view y k' := by
  simp [view, write, hne]

/-- A row that is written was locked by nobody else, so nobody else sees a change. -/
theorem view_write_other (hfree : t.free x k = true) (hne : y ≠ x) :
    (t.write x k v).view y k' = t.view y k' := by
  by_cases hk : k' = k
  · subst hk
    have hfree' : (t.cell k').Free x := of_decide_eq_true hfree
    have hbefore : t.view y k' = t.value k' :=
      Cell.view_of_not_heldBy (Cell.not_heldBy_of_free hfree' hne)
    rw [hbefore]
    simp [view, write, Cell.write, Cell.view, value, hne.symm]
  · exact view_write_of_ne hk

end Write

theorem value_commit : (t.commit x).value k = t.view x k := Cell.commit_value

theorem value_rollback : (t.rollback x).value k = t.value k := Cell.rollback_value

/-- What another transaction sees after a commit: its own draft over the same row, or what was
committed. -/
theorem view_commit (hne : y ≠ x) :
    ((t.commit x).view y k = t.view y k ∧ (t.commit x).value k = t.value k) ∨
      ((t.commit x).view y k = t.view x k ∧ t.view y k = t.value k) := by
  simp only [view, value, commit]
  obtain ⟨committed, _ | ⟨z, drafted⟩⟩ := t.cell k
  · exact .inl ⟨rfl, rfl⟩
  · by_cases hz : z = x
    · right
      simp [Cell.commit, Cell.view, hz, hne.symm]
    · left
      simp [Cell.commit, hz]

theorem view_commit_self : (t.commit x).view x k = t.view x k := by
  simp only [view, commit]
  obtain ⟨committed, _ | ⟨z, drafted⟩⟩ := t.cell k
  · rfl
  · by_cases hz : z = x <;> simp [Cell.commit, Cell.view, hz]

theorem view_rollback (hne : y ≠ x) : (t.rollback x).view y k = t.view y k := by
  simp only [view, rollback]
  obtain ⟨committed, _ | ⟨z, drafted⟩⟩ := t.cell k
  · rfl
  · by_cases hz : z = x
    · simp [Cell.rollback, Cell.view, hz, hne.symm]
    · simp [Cell.rollback, hz]

theorem view_rollback_self : (t.rollback x).view x k = t.value k := by
  simp only [view, value, rollback]
  obtain ⟨committed, _ | ⟨z, drafted⟩⟩ := t.cell k
  · rfl
  · by_cases hz : z = x <;> simp [Cell.rollback, Cell.view, hz]

/-! ### Locks -/

/-- The transaction has the row locked. -/
def Held (x : X) (t : CellTable K X V) (k : K) : Prop := (t.cell k).HeldBy x

theorem Held.free (hheld : Held x t k) : t.free x k = true := by
  obtain ⟨drafted, hdraft⟩ := hheld
  simp [CellTable.free, Cell.Free, hdraft]

omit [DecidableEq X] in
theorem held_write_self [DecidableEq K] : Held x (t.write x k v) k :=
  ⟨v, by simp [write, Cell.write]⟩

/-- A lock is not taken over. -/
theorem Held.write [DecidableEq K] (hheld : Held x t k) (hfree : t.free y k' = true)
    (hne : x ≠ y) : Held x (t.write y k' v) k := by
  have hk : k ≠ k' := by
    rintro rfl
    have hfree' : (t.cell k).Free y := of_decide_eq_true hfree
    exact Cell.not_heldBy_of_free hfree' hne hheld
  simpa [Held, CellTable.write, hk] using hheld

theorem Held.commit (hheld : Held x t k) (hne : x ≠ y) : Held x (t.commit y) k := by
  obtain ⟨drafted, hdraft⟩ := hheld
  exact ⟨drafted, by simp [CellTable.commit, Cell.commit, hdraft, hne]⟩

theorem Held.rollback (hheld : Held x t k) (hne : x ≠ y) : Held x (t.rollback y) k := by
  obtain ⟨drafted, hdraft⟩ := hheld
  exact ⟨drafted, by simp [CellTable.rollback, Cell.rollback, hdraft, hne]⟩

end Lemmas

end CellTable

end SquadPanel.Lib
