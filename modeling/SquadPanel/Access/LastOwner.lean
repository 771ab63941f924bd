import SquadPanel.Js.Text
import SquadPanel.Lib.CellTable
import SquadPanel.Lib.Machine

/-!
# The last Owner stays

The triggers of migration 0107.  Transactions run at READ COMMITTED: a row that
one of them changes is locked by it, and a query sees what is committed at that
time together with the transaction's own changes, those of the rows that its
current statement has already been through included.  `pg_advisory_xact_lock`
is held to the end of the transaction, and an exception rolls the transaction
back.

A statement is its rows one after the other, between which other transactions
move.  The updates by which ON DELETE SET NULL follows the deletion of a role
are rows of the deleting transaction.
-/

set_option linter.unusedSectionVars false

namespace SquadPanel.Access

open Js Lib Option CellTable

/-! ## Tables and transactions -/

structure RoleIdentity where
  name : JsString
  isSystemRole : Bool
deriving Repr, DecidableEq

def RoleIdentity.isOwner (role : RoleIdentity) : Bool :=
  role.name == js "Owner" && role.isSystemRole

/-- `UPDATE OF role_id` or `DELETE` of one row of `players`. -/
inductive PlayerChange (P R : Type) where
  | update (p : P) (roleId : Option R)
  | delete (p : P)
deriving Repr, DecidableEq

section Guards
variable {P R : Type}

def PlayerChange.player : PlayerChange P R → P
  | .update p _ => p
  | .delete p => p

/-- The row afterwards. -/
def PlayerChange.row : PlayerChange P R → Option (Option R)
  | .update _ roleId => some roleId
  | .delete _ => none

/-- `enforce_players_last_owner` up to its lock: the Owner role when `OLD` gives it up. -/
def givesUpOwner [DecidableEq R] (ownerRoleId old : Option R) (change : PlayerChange P R) :
    Option R :=
  match ownerRoleId with
  | none => none
  | some owner =>
    if old ≠ some owner then none
    else
      match change with
      | .update _ new => if new = old then none else some owner
      | .delete _ => some owner

/-- `enforce_owner_role_identity` of a `DELETE`: the Owner role is not deleted. -/
def mayDeleteRole (old : RoleIdentity) : Bool := !old.isOwner

end Guards

/-- A transaction is open with a row whose trigger waits for the lock, or between two rows. -/
structure GuardDb (X P R : Type) where
  players : CellTable P X (Option R)
  roles : CellTable R X RoleIdentity
  lock : Option X
  txs : X → Option (Option (PlayerChange P R × R))

inductive GuardLabel (X P R : Type) where
  | begin (x : X)
  | change (x : X) (change : PlayerChange P R)
  | resume (x : X)
  | insert (x : X) (p : P) (roleId : Option R)
  | deleteRole (x : X) (r : R)
  | commit (x : X)
  | rollback (x : X)

section Steps
variable {X P R : Type} [DecidableEq X] [DecidableEq P] [DecidableEq R]

namespace GuardDb

section
variable (db : GuardDb X P R) (x : X)

def setTx (tx : Option (Option (PlayerChange P R × R))) :
    GuardDb X P R :=
  { db with txs := fun y => if y = x then tx else db.txs y }

/-- `SELECT id INTO owner_role_id`. -/
def ownerRoleId : Option R :=
  db.roles.find? x fun _ role => role.isOwner

/-- Another player than `old` has the role. -/
def otherHolder (owner : R) (old : P) : Bool :=
  (db.players.find? x fun p roleId => roleId = some owner && p ≠ old).isSome

def writePlayer (p : P) (row : Option (Option R)) : GuardDb X P R :=
  { db with players := db.players.write x p row }

def release : Option X := if db.lock = some x then none else db.lock

def commit : GuardDb X P R :=
  { db.setTx x none with
    players := db.players.commit x
    roles := db.roles.commit x
    lock := db.release x }

def rollback : GuardDb X P R :=
  { db.setTx x none with
    players := db.players.rollback x
    roles := db.roles.rollback x
    lock := db.release x }

/-- The row is locked, then its trigger runs. -/
def changePlayer (change : PlayerChange P R) :
    Option (GuardDb X P R) :=
  match db.players.view x change.player with
  | none => none
  | some old =>
    if db.players.free x change.player then
      match givesUpOwner (db.ownerRoleId x) old change with
      | none => some (db.writePlayer x change.player change.row)
      | some owner =>
        some ((db.writePlayer x change.player (some old)).setTx x (some (some (change, owner))))
    else none

/-- The lock is there: the rest of the trigger, and the change. -/
def resume (change : PlayerChange P R) (owner : R) :
    Option (GuardDb X P R) :=
  if db.lock = none ∨ db.lock = some x then
    if db.otherHolder x owner change.player then
      some { (db.writePlayer x change.player change.row).setTx x (some none) with lock := some x }
    else some (db.rollback x)
  else none

def insert (p : P) (roleId : Option R) : Option (GuardDb X P R) :=
  if db.players.view x p = none ∧ db.players.free x p then
    some (db.writePlayer x p (some roleId))
  else none

def deleteRole (r : R) : Option (GuardDb X P R) :=
  match db.roles.view x r with
  | none => none
  | some role =>
    if db.roles.free x r then
      if mayDeleteRole role then some { db with roles := db.roles.write x r none }
      else some (db.rollback x)
    else none

end

end GuardDb

def guardStep (db : GuardDb X P R) : GuardLabel X P R → Option (GuardDb X P R)
  | .begin x => if db.txs x = none then some (db.setTx x (some none)) else none
  | .change x change => if db.txs x = some none then db.changePlayer x change else none
  | .resume x =>
    match db.txs x with
    | some (some (change, owner)) => db.resume x change owner
    | _ => none
  | .insert x p roleId => if db.txs x = some none then db.insert x p roleId else none
  | .deleteRole x r => if db.txs x = some none then db.deleteRole x r else none
  | .commit x => if db.txs x = some none then some (db.commit x) else none
  | .rollback x => if db.txs x ≠ none then some (db.rollback x) else none

/-- Every interleaving is a run. -/
def anyStep (_ : GuardDb X P R) (_ : GuardLabel X P R) : Prop := True

instance (db : GuardDb X P R) (l : GuardLabel X P R) : Decidable (anyStep db l) := .isTrue trivial

/-- A committed player holds the system Owner role. -/
def HasOwner (db : GuardDb X P R) : Prop :=
  ∃ p r role, db.players.value p = some (some r) ∧ db.roles.value r = some role ∧
    role.isOwner = true

/-! ## Who may take an Owner away -/

/-- A committed Owner is missing only in the view of the lock's holder, who sees an Owner. -/
structure Guarded (owner : R) (players : CellTable P X (Option R)) (lock : Option X) : Prop where
  pending : ∀ p x, players.value p = some (some owner) → players.view x p ≠ some (some owner) →
    lock = some x
  holder : ∀ x, lock = some x → ∃ p, players.view x p = some (some owner)

section Guarded
variable {owner : R} {players : CellTable P X (Option R)} {lock : Option X} {x : X}

/-- A row is written by a transaction that may have taken the lock: where it takes an Owner from
its own view, it has the lock and sees another one. -/
theorem Guarded.write {p : P} {row : Option (Option R)} {lock' : Option X}
    (hguarded : Guarded owner players lock) (hfree : players.free x p = true)
    (hlock : lock' = lock ∨ (lock = none ∧ lock' = some x))
    (hother : lock' ≠ lock → ∃ q, q ≠ p ∧ players.view x q = some (some owner))
    (hgives : players.view x p = some (some owner) → row ≠ some (some owner) →
      lock' = some x ∧ ∃ q, q ≠ p ∧ players.view x q = some (some owner)) :
    Guarded owner (players.write x p row) lock' := by
  have hheld {y : X} (h : lock = some y) : lock' = some y := by
    rcases hlock with heq | ⟨hnone, -⟩
    · rw [heq, h]
    · rw [hnone] at h
      cases h
  constructor
  · intro p' y hvalue hview
    rw [value_write] at hvalue
    by_cases hy : y = x
    · subst hy
      by_cases hp : p' = p
      · subst hp
        rw [view_write_self] at hview
        by_cases hbefore : players.view y p' = some (some owner)
        · exact (hgives hbefore hview).1
        · exact hheld (hguarded.pending p' y hvalue hbefore)
      · rw [view_write_of_ne hp] at hview
        exact hheld (hguarded.pending p' y hvalue hview)
    · rw [view_write_other hfree hy] at hview
      exact hheld (hguarded.pending p' y hvalue hview)
  · intro y hy
    by_cases hyx : y = x
    · subst hyx
      -- an Owner that stays in the view, or the row itself
      have hsees (h : ∃ q, q ≠ p ∧ players.view y q = some (some owner)) :
          ∃ q, (players.write y p row).view y q = some (some owner) := by
        obtain ⟨q, hq, hview⟩ := h
        exact ⟨q, by rw [view_write_of_ne hq, hview]⟩
      by_cases hrow : row = some (some owner)
      · exact ⟨p, by rw [view_write_self, hrow]⟩
      · by_cases hbefore : players.view y p = some (some owner)
        · exact hsees (hgives hbefore hrow).2
        · by_cases hsame : lock' = lock
          · obtain ⟨q, hq⟩ := hguarded.holder y (hsame ▸ hy)
            exact hsees ⟨q, fun heq => hbefore (heq ▸ hq), hq⟩
          · exact hsees (hother hsame)
    · have hbefore : lock = some y := by
        rcases hlock with heq | ⟨-, hx⟩
        · rw [← heq, hy]
        · rw [hx] at hy
          exact absurd (some.inj hy).symm hyx
      obtain ⟨q, hq⟩ := hguarded.holder y hbefore
      exact ⟨q, by rw [view_write_other hfree hyx, hq]⟩

theorem release_eq_some {y : X} (h : (if lock = some x then none else lock) = some y) :
    lock = some y ∧ y ≠ x := by
  split at h
  · cases h
  · next hne =>
    refine ⟨h, fun heq => hne ?_⟩
    rw [h, heq]

section
variable (hguarded : Guarded owner players lock)
include hguarded

theorem Guarded.commit :
    Guarded owner (players.commit x) (if lock = some x then none else lock) := by
  constructor
  · intro p y hvalue hview
    by_cases hy : y = x
    · subst hy
      rw [value_commit] at hvalue
      rw [view_commit_self] at hview
      exact absurd hvalue hview
    · rcases view_commit hy with ⟨hsame, hkept⟩ | ⟨hnew, -⟩
      · rw [hsame] at hview
        rw [hkept] at hvalue
        have hlock := hguarded.pending p y hvalue hview
        rw [if_neg, hlock]
        rw [hlock]
        exact fun heq => hy (some.inj heq)
      · rw [value_commit] at hvalue
        rw [hnew] at hview
        exact absurd hvalue hview
  · intro y hy
    obtain ⟨hlock, hne⟩ := release_eq_some hy
    obtain ⟨q, hq⟩ := hguarded.holder y hlock
    refine ⟨q, ?_⟩
    rcases view_commit hne with ⟨hsame, -⟩ | ⟨hnew, hvalue⟩
    · rw [hsame, hq]
    · -- the row has changed under the holder, which only the holder could do
      rw [hnew]
      by_contra hgone
      have hx := hguarded.pending q x (hvalue ▸ hq) hgone
      rw [hlock] at hx
      exact hne (some.inj hx)

theorem Guarded.rollback :
    Guarded owner (players.rollback x) (if lock = some x then none else lock) := by
  constructor
  · intro p y hvalue hview
    rw [value_rollback] at hvalue
    by_cases hy : y = x
    · subst hy
      rw [view_rollback_self] at hview
      exact absurd hvalue hview
    · rw [view_rollback hy] at hview
      have hlock := hguarded.pending p y hvalue hview
      rw [if_neg, hlock]
      rw [hlock]
      exact fun heq => hy (some.inj heq)
  · intro y hy
    obtain ⟨hlock, hne⟩ := release_eq_some hy
    obtain ⟨q, hq⟩ := hguarded.holder y hlock
    exact ⟨q, by rw [view_rollback hne, hq]⟩

theorem Guarded.owner_commit (h : ∃ p, players.value p = some (some owner)) :
    ∃ p, (players.commit x).value p = some (some owner) := by
  obtain ⟨p, hp⟩ := h
  by_cases hlock : lock = some x
  · obtain ⟨q, hq⟩ := hguarded.holder x hlock
    exact ⟨q, by rw [value_commit, hq]⟩
  · refine ⟨p, ?_⟩
    rw [value_commit]
    by_contra hgone
    exact hlock (hguarded.pending p x hp hgone)

end

end Guarded

/-! ## The Owner role -/

/-- Of the roles that `rows` shows, `owner` is the system Owner and the only one. -/
structure OneOwner (owner : R) (rows : R → Option RoleIdentity) : Prop where
  exists_role : ∃ role, rows owner = some role ∧ role.isOwner = true
  unique : ∀ r role, rows r = some role → role.isOwner = true → r = owner

theorem OneOwner.mix {owner : R} {f g rows : R → Option RoleIdentity} (hf : OneOwner owner f)
    (hg : OneOwner owner g)
    (hrows : ∀ r, rows r = f r ∨ rows r = g r ∨ (r ≠ owner ∧ rows r = none)) :
    OneOwner owner rows := by
  constructor
  · rcases hrows owner with heq | heq | ⟨hne, -⟩
    · rw [heq]
      exact hf.exists_role
    · rw [heq]
      exact hg.exists_role
    · exact absurd rfl hne
  · intro r role hrole hisOwner
    rcases hrows r with heq | heq | ⟨-, hnone⟩
    · exact hf.unique r role (heq ▸ hrole) hisOwner
    · exact hg.unique r role (heq ▸ hrole) hisOwner
    · rw [hnone] at hrole
      cases hrole

/-- What holds in every state of a run. -/
structure OwnerInv (owner : R) (db : GuardDb X P R) : Prop where
  guarded : Guarded owner db.players db.lock
  committed : OneOwner owner db.roles.value
  seen : ∀ x, OneOwner owner (db.roles.view x)
  waiting : ∀ x change r, db.txs x = some (some (change, r)) →
    r = owner ∧ CellTable.Held x db.players change.player

section Invariant
variable {owner : R} {db db' : GuardDb X P R} {x : X} {change : PlayerChange P R}
  {row : Option (Option R)}

theorem OwnerInv.ownerRoleId (hinv : OwnerInv owner db) (x : X) :
    db.ownerRoleId x = some owner := by
  unfold GuardDb.ownerRoleId
  cases hfound : db.roles.find? x fun _ role => role.isOwner with
  | none =>
    obtain ⟨role, hrole, hisOwner⟩ := (hinv.seen x).exists_role
    rw [find?_eq_none hfound hrole] at hisOwner
    cases hisOwner
  | some r =>
    obtain ⟨role, hrole, hisOwner⟩ := find?_eq_some hfound
    rw [(hinv.seen x).unique r role hrole hisOwner]

theorem givesUpOwner_eq_some {old : Option R} {r : R}
    (h : givesUpOwner (some owner) old change = some r) : r = owner := by
  simp only [givesUpOwner] at h
  split at h
  · cases h
  · split at h
    · split at h
      · cases h
      · exact (some.inj h).symm
    · exact (some.inj h).symm

theorem row_of_givesUpOwner_none (h : givesUpOwner (some owner) (some owner) change = none) :
    change.row = some (some owner) := by
  cases change with
  | update p new =>
    simp only [givesUpOwner, ne_eq, not_true_eq_false, if_false] at h
    split at h
    · next heq => rw [PlayerChange.row, heq]
    · cases h
  | delete p => simp [givesUpOwner] at h

theorem OwnerInv.rollback (hinv : OwnerInv owner db) : OwnerInv owner (db.rollback x) where
  guarded := hinv.guarded.rollback
  committed := hinv.committed.mix hinv.committed fun r => .inl value_rollback
  seen y := by
    by_cases hy : y = x
    · subst hy
      exact hinv.committed.mix hinv.committed fun r => .inl view_rollback_self
    · exact (hinv.seen y).mix (hinv.seen y) fun r => .inl (view_rollback hy)
  waiting y change r hwait := by
    simp only [GuardDb.rollback, GuardDb.setTx] at hwait
    split at hwait
    · cases hwait
    · next hne =>
      obtain ⟨hr, hheld⟩ := hinv.waiting y change r hwait
      exact ⟨hr, hheld.rollback hne⟩

theorem OwnerInv.commit (hinv : OwnerInv owner db) : OwnerInv owner (db.commit x) where
  guarded := hinv.guarded.commit
  committed := (hinv.seen x).mix (hinv.seen x) fun r => .inl value_commit
  seen y := by
    by_cases hy : y = x
    · subst hy
      exact (hinv.seen y).mix (hinv.seen y) fun r => .inl view_commit_self
    · refine (hinv.seen y).mix (hinv.seen x) fun r => ?_
      rcases view_commit hy with ⟨hsame, -⟩ | ⟨hnew, -⟩
      · exact .inl hsame
      · exact .inr (.inl hnew)
  waiting y change r hwait := by
    simp only [GuardDb.commit, GuardDb.setTx] at hwait
    split at hwait
    · cases hwait
    · next hne =>
      obtain ⟨hr, hheld⟩ := hinv.waiting y change r hwait
      exact ⟨hr, hheld.commit hne⟩

/-- The transaction `x` writes a row, may take the lock and goes on in its own state. -/
theorem OwnerInv.write {p : P} {lock' : Option X}
    (tx : Option (Option (PlayerChange P R × R))) (hinv : OwnerInv owner db)
    (hfree : db.players.free x p = true) (hguarded : Guarded owner (db.players.write x p row) lock')
    (htx : ∀ change r, tx = some (some (change, r)) → r = owner ∧ change.player = p) :
    OwnerInv owner { (db.writePlayer x p row).setTx x tx with lock := lock' } where
  guarded := hguarded
  __ := hinv
  waiting y change r hwait := by
    simp only [GuardDb.setTx, GuardDb.writePlayer] at hwait
    split at hwait
    · next heq =>
      subst heq
      obtain ⟨hr, rfl⟩ := htx change r hwait
      exact ⟨hr, held_write_self⟩
    · next hne =>
      obtain ⟨hr, hheld⟩ := hinv.waiting y change r hwait
      exact ⟨hr, hheld.write hfree hne⟩

theorem setTx_self {tx : Option (Option (PlayerChange P R × R))} (h : db.txs x = tx) :
    db.setTx x tx = db := by
  have htxs : (fun y => if y = x then tx else db.txs y) = db.txs := by
    funext y
    split
    · next heq => rw [heq, h]
    · rfl
  simp only [GuardDb.setTx, htxs]

theorem OwnerInv.writePlayer {p : P} (hinv : OwnerInv owner db)
    (htx : db.txs x = some none) (hfree : db.players.free x p = true)
    (hguarded : Guarded owner (db.players.write x p row) db.lock) :
    OwnerInv owner (db.writePlayer x p row) := by
  have hwritten := hinv.write (some none) hfree hguarded (by
    intro _ _ hnone
    cases hnone)
  have htxs : (db.writePlayer x p row).txs x = some none := htx
  rw [setTx_self htxs] at hwritten
  exact hwritten

/-! ## Steps -/

/-- A step that commits nothing. -/
def Retains (owner : R) (db db' : GuardDb X P R) : Prop :=
  OwnerInv owner db' ∧ ∀ p, db'.players.value p = db.players.value p

section
variable (hinv : OwnerInv owner db)
include hinv

theorem OwnerInv.changePlayer (htx : db.txs x = some none)
    (h : db.changePlayer x change = some db') : Retains owner db db' := by
  unfold GuardDb.changePlayer at h
  cases hold : db.players.view x change.player with
  | none => simp [hold] at h
  | some old =>
    simp only [hold, hinv.ownerRoleId] at h
    split at h
    case isFalse => cases h
    case isTrue hfree =>
      cases hgives : givesUpOwner (some owner) old change with
      | none =>
        simp only [hgives] at h
        cases h
        refine ⟨?_, fun p => value_write⟩
        refine hinv.writePlayer htx hfree (hinv.guarded.write hfree (.inl rfl)
          (fun hne => absurd rfl hne) fun hview hrow => ?_)
        rw [hold, some.injEq] at hview
        exact absurd (row_of_givesUpOwner_none (hview ▸ hgives)) hrow
      | some r =>
        simp only [hgives] at h
        cases h
        obtain rfl := givesUpOwner_eq_some hgives
        refine ⟨?_, fun p => value_write⟩
        -- the row is only locked
        have hguarded : Guarded r (db.players.write x change.player (some old)) db.lock :=
          hinv.guarded.write hfree (.inl rfl) (fun hne => absurd rfl hne)
            fun hview hrow => absurd (hold ▸ hview) hrow
        exact hinv.write _ hfree hguarded (by
          intro _ _ hwait
          cases hwait
          exact ⟨rfl, rfl⟩)

theorem OwnerInv.resume {r : R} (htx : db.txs x = some (some (change, r)))
    (h : db.resume x change r = some db') : Retains owner db db' := by
  obtain ⟨rfl, hheld⟩ := hinv.waiting x change r htx
  unfold GuardDb.resume at h
  split at h
  case isFalse => cases h
  case isTrue hlock =>
    split at h
    case isTrue hother =>
      cases h
      refine ⟨?_, fun p => value_write⟩
      obtain ⟨q, hq⟩ := isSome_iff_exists.1 hother
      obtain ⟨row, hview, hrow⟩ := find?_eq_some hq
      simp only [ne_eq, decide_not, Bool.and_eq_true, decide_eq_true_eq, Bool.not_eq_true',
        decide_eq_false_iff_not] at hrow
      have hseen : ∃ q, q ≠ change.player ∧ db.players.view x q = some (some r) :=
        ⟨q, hrow.2, by rw [hview, hrow.1]⟩
      have hlock' : some x = db.lock ∨ (db.lock = none ∧ some x = some x) :=
        hlock.symm.imp Eq.symm fun hnone => ⟨hnone, rfl⟩
      exact hinv.write _ hheld.free
        (hinv.guarded.write hheld.free hlock' (fun _ => hseen) fun _ _ => ⟨rfl, hseen⟩) (by
          intro _ _ hnone
          cases hnone)
    case isFalse =>
      cases h
      exact ⟨hinv.rollback, fun p => value_rollback⟩

theorem OwnerInv.insert {p : P} {roleId : Option R} (htx : db.txs x = some none)
    (h : db.insert x p roleId = some db') : Retains owner db db' := by
  unfold GuardDb.insert at h
  split at h
  case isFalse => cases h
  case isTrue hnew =>
    cases h
    obtain ⟨hnone, hfree⟩ := hnew
    refine ⟨hinv.writePlayer htx hfree (hinv.guarded.write hfree (.inl rfl)
      (fun hne => absurd rfl hne) fun hview => ?_), fun p => value_write⟩
    rw [hnone] at hview
    cases hview

theorem OwnerInv.deleteRole {r : R} (h : db.deleteRole x r = some db') : Retains owner db db' := by
  unfold GuardDb.deleteRole at h
  cases hview : db.roles.view x r with
  | none => simp [hview] at h
  | some role =>
    simp only [hview] at h
    split at h
    case isFalse => cases h
    case isTrue hfree =>
      split at h
      case isFalse =>
        cases h
        exact ⟨hinv.rollback, fun p => value_rollback⟩
      case isTrue hmay =>
        cases h
        have hne : r ≠ owner := by
          rintro rfl
          obtain ⟨role', hrole', hisOwner⟩ := (hinv.seen x).exists_role
          rw [hview, some.injEq] at hrole'
          rw [mayDeleteRole, hrole', hisOwner] at hmay
          cases hmay
        refine ⟨⟨hinv.guarded, ?_, fun y => ?_, hinv.waiting⟩, fun p => rfl⟩
        · exact hinv.committed.mix hinv.committed fun r' => .inl value_write
        · refine (hinv.seen y).mix (hinv.seen y) fun r' => ?_
          by_cases hy : y = x
          · subst hy
            by_cases hr : r' = r
            · subst hr
              exact .inr (.inr ⟨hne, view_write_self⟩)
            · exact .inl (view_write_of_ne hr)
          · exact .inl (view_write_other hfree hy)

/-- A step keeps the invariant, and a committed Owner leaves another behind. -/
theorem OwnerInv.step {l : GuardLabel X P R} (h : guardStep db l = some db') :
    OwnerInv owner db' ∧ ((∃ p, db.players.value p = some (some owner)) →
      ∃ p, db'.players.value p = some (some owner)) := by
  have hsame (hkept : Retains owner db db') :
      OwnerInv owner db' ∧ ((∃ p, db.players.value p = some (some owner)) →
        ∃ p, db'.players.value p = some (some owner)) :=
    ⟨hkept.1, fun ⟨p, hp⟩ => ⟨p, by rw [hkept.2, hp]⟩⟩
  cases l with
  | begin x =>
    obtain ⟨-, rfl⟩ := of_guarded h
    refine hsame ⟨⟨hinv.guarded, hinv.committed, hinv.seen, fun y change r hwait => ?_⟩,
      fun p => rfl⟩
    simp only [GuardDb.setTx] at hwait
    split at hwait
    · cases hwait
    · exact hinv.waiting y change r hwait
  | change x change =>
    simp only [guardStep, ite_none_right_eq_some] at h
    exact hsame (hinv.changePlayer h.1 h.2)
  | resume x =>
    simp only [guardStep] at h
    split at h
    · next htx => exact hsame (hinv.resume htx h)
    · cases h
  | insert x p roleId =>
    simp only [guardStep, ite_none_right_eq_some] at h
    exact hsame (hinv.insert h.1 h.2)
  | deleteRole x r =>
    simp only [guardStep, ite_none_right_eq_some] at h
    exact hsame (hinv.deleteRole h.2)
  | commit x =>
    obtain ⟨-, rfl⟩ := of_guarded h
    exact ⟨hinv.commit, hinv.guarded.owner_commit⟩
  | rollback x =>
    obtain ⟨-, rfl⟩ := of_guarded h
    exact hsame ⟨hinv.rollback, fun p => value_rollback⟩

end

end Invariant

/-! ## Runs -/

/-- No transaction is open. -/
structure GuardDb.AtRest (db : GuardDb X P R) : Prop where
  players : ∀ p, (db.players.cell p).draft = none
  roles : ∀ r, (db.roles.cell r).draft = none
  lock : db.lock = none
  txs : ∀ x, db.txs x = none

section Runs
variable {owner : R} {db₀ db db' : GuardDb X P R}

theorem GuardDb.AtRest.ownerInv (hrest : db₀.AtRest) (howner : OneOwner owner db₀.roles.value) :
    OwnerInv owner db₀ where
  guarded := by
    constructor
    · intro p x hvalue hview
      rw [view_of_draft_none (hrest.players p)] at hview
      exact absurd hvalue hview
    · intro x hlock
      rw [hrest.lock] at hlock
      cases hlock
  committed := howner
  seen x := howner.mix howner fun r => .inl (view_of_draft_none (hrest.roles r))
  waiting x change r hwait := by
    rw [hrest.txs] at hwait
    cases hwait

theorem hasOwner_iff (hcommitted : OneOwner owner db.roles.value) :
    HasOwner db ↔ ∃ p, db.players.value p = some (some owner) := by
  constructor
  · rintro ⟨p, r, role, hp, hrole, hisOwner⟩
    rw [hcommitted.unique r role hrole hisOwner] at hp
    exact ⟨p, hp⟩
  · rintro ⟨p, hp⟩
    obtain ⟨role, hrole, hisOwner⟩ := hcommitted.exists_role
    exact ⟨p, owner, role, hp, hrole, hisOwner⟩

/-- Once a committed player holds the Owner role, one does ever after. -/
theorem hasOwner_of_reaches (hrest : db₀.AtRest) (howner : OneOwner owner db₀.roles.value)
    (hreach : Machine.Reaches guardStep anyStep db₀ db) (hhas : HasOwner db)
    (hlater : Machine.Reaches guardStep anyStep db db') : HasOwner db' := by
  have hinv : OwnerInv owner db := by
    apply Machine.invariant_of_reaches (hrest.ownerInv howner) _ hreach
    intro db l db' _ _ hinv hstep
    exact (hinv.step hstep).1
  have hkept : OwnerInv owner db' ∧ ∃ p, db'.players.value p = some (some owner) := by
    induction hlater with
    | refl => exact ⟨hinv, (hasOwner_iff hinv.committed).1 hhas⟩
    | step _ _ hstep ih =>
      obtain ⟨hinv', howners⟩ := ih.1.step hstep
      exact ⟨hinv', howners ih.2⟩
  exact (hasOwner_iff hkept.1.committed).2 hkept.2

end Runs

end Steps

/-! ## A sample run -/

/-- Players 0 and 1 hold the Owner role 0; role 1 is another. -/
def twoOwners : GuardDb Nat Nat Nat where
  players :=
    { keys := [0, 1]
      cell := fun p => ⟨if p ∈ [0, 1] then some (some 0) else none, none⟩
      absent := fun p hp => by rw [if_neg hp] }
  roles :=
    { keys := [0, 1]
      cell := fun r =>
        ⟨if r ∈ [0, 1] then some ⟨if r = 0 then js "Owner" else js "Admin", true⟩ else none, none⟩
      absent := fun r hr => by rw [if_neg hr] }
  lock := none
  txs := fun _ => none

theorem twoOwners_atRest : twoOwners.AtRest :=
  ⟨fun _ => rfl, fun _ => rfl, rfl, fun _ => rfl⟩

theorem twoOwners_oneOwner : OneOwner 0 twoOwners.roles.value where
  exists_role := ⟨⟨js "Owner", true⟩, by decide, by decide⟩
  unique r role hrole hisOwner := by
    simp only [CellTable.value, twoOwners, ite_none_right_eq_some, some.injEq]
      at hrole
    obtain ⟨-, rfl⟩ := hrole
    by_contra hr
    rw [if_neg hr] at hisOwner
    exact absurd hisOwner (by decide)

/-- One transaction takes the role from player 0 and deletes role 1 while another, waiting for the
lock, wants to delete player 1. -/
def overlappingRemovals : List (GuardLabel Nat Nat Nat) :=
  [.begin 0, .begin 1, .change 0 (.update 0 none), .resume 0, .change 1 (.delete 1),
    .deleteRole 0 1, .commit 0, .resume 1]

theorem hasOwner_overlappingRemovals :
    ∃ db, Machine.run guardStep anyStep twoOwners overlappingRemovals = some db ∧
      db.players.value 0 = some none ∧ HasOwner db := by
  have hrun : ((Machine.run guardStep anyStep twoOwners overlappingRemovals).map
      fun db => db.players.value 0) = some (some none) := by
    decide +kernel
  obtain ⟨db, hdb, hvalue⟩ := map_eq_some_iff.1 hrun
  have hstart : HasOwner twoOwners := ⟨0, 0, ⟨js "Owner", true⟩, by decide, by decide, by decide⟩
  exact ⟨db, hdb, hvalue, hasOwner_of_reaches twoOwners_atRest twoOwners_oneOwner .refl hstart
    (Machine.reaches_of_run .refl hdb)⟩

end SquadPanel.Access
