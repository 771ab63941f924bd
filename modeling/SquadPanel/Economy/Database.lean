import SquadPanel.Economy.Ledger

/-!
# The database under the ledger

Each statement sees the committed rows and the rows of its own transaction.  A
statement that writes or locks a row held by another transaction waits, so it has no
answer until that transaction ends.  A failing statement changes nothing; whether its
transaction then rolls back is up to the program, or to the server when the
connection is gone.
-/

namespace SquadPanel.Economy

open Js Lib Versioned

variable {P Role K : Type}

structure Db (P Role : Type) where
  players : P → Option (Cell TxId (PlayerRow Role))
  ledger : List (Stamped TxId (BonusTransaction P))
  dayLocks : String → Option TxId
  live : List TxId
  nextTx : TxId

/-- What moves besides the three transactions. -/
inductive EconomyMove (P Role : Type) where
  /-- the server rolls a transaction back -/
  | abort (tx : TxId)
  | createPlayer (id : P)
  | setRole (id : P) (roleId : Option Role) (roleExpiresAt : Option Int)

/-- The rows that the accrual of a day replaces. -/
def IsAccrual (playerIds : List P) (day : String) (row : BonusTransaction P) : Prop :=
  row.playerId ∈ playerIds ∧ row.referenceType = some DAILY_PRESENCE_REFERENCE_TYPE ∧
    row.referenceId = some day ∧ row.type ∈ ACCRUAL_TX_TYPES

section

variable [DecidableEq P] [DecidableEq Role]

instance (playerIds : List P) (day : String) : DecidablePred (IsAccrual playerIds day) :=
  fun _ => inferInstanceAs (Decidable (_ ∧ _ ∧ _ ∧ _))

namespace Db

variable (db : Db P Role) (tx : TxId) (ids : List P)

/-- None of the rows is held by another transaction. -/
def Lockable : Prop :=
  ∀ id ∈ ids, ∀ c ∈ db.players id, c.Free tx

instance (db : Db P Role) (tx : TxId) (ids : List P) : Decidable (db.Lockable tx ids) :=
  inferInstanceAs (Decidable (∀ id ∈ ids, ∀ c ∈ db.players id, c.Free tx))

/-- None of the accrual rows it is about to delete is held by another transaction. -/
def Deletable (playerIds : List P) (day : String) : Prop :=
  ∀ e ∈ db.ledger, Visible tx e → IsAccrual playerIds day e.row → ∀ y ∈ e.deletedBy, y = tx

instance (db : Db P Role) (tx : TxId) (playerIds : List P) (day : String) :
    Decidable (db.Deletable tx playerIds day) :=
  inferInstanceAs (Decidable (∀ e ∈ db.ledger, _ → _ → ∀ y ∈ e.deletedBy, y = tx))

variable (f : P → PlayerRow Role → PlayerRow Role)

/-- Write the rows of the given players, as the transaction sees them. -/
def writePlayers : Db P Role :=
  { db with
    players := fun p =>
      if p ∈ ids then (db.players p).map fun c => c.write tx (f p (c.view tx))
      else db.players p }

def rowsForUpdate : List (P × PlayerRow Role) :=
  ids.filterMap fun id => (db.players id).map fun c => (id, c.view tx)

def addBalance (changes : List (P × Int)) (id : P) (row : PlayerRow Role) : PlayerRow Role :=
  { row with bonusBalance := row.bonusBalance + (JsMap.getEntry id changes).getD 0 }

def setColumns (bonusBalance : Int) (role : Option (Role × Int)) (row : PlayerRow Role) :
    PlayerRow Role :=
  match role with
  | none => { row with bonusBalance := bonusBalance }
  | some (roleId, roleExpiresAt) => ⟨bonusBalance, some roleId, some roleExpiresAt⟩

/-- `players_bonus_balance_nonneg_chk` on the rows a statement has written. -/
def NonNegative : Prop :=
  ∀ id ∈ ids, ∀ c ∈ db.players id, 0 ≤ (c.view tx).bonusBalance

instance (db : Db P Role) (tx : TxId) (ids : List P) : Decidable (db.NonNegative tx ids) :=
  inferInstanceAs (Decidable (∀ id ∈ ids, ∀ c ∈ db.players id, 0 ≤ (c.view tx).bonusBalance))

/-- `UPDATE players`: it takes the row locks and the check applies. -/
def updatePlayers : Option (Db P Role) :=
  if db.Lockable tx ids ∧ (db.writePlayers tx ids f).NonNegative tx ids then
    some (db.writePlayers tx ids f)
  else none

/-- The locks a transaction holds go with it. -/
def release (locks : String → Option TxId) (day : String) : Option TxId :=
  if locks day = some tx then none else locks day

def commitTx : Db P Role where
  players := fun p => (db.players p).map (Cell.commit tx)
  ledger := Versioned.commit tx db.ledger
  dayLocks := release tx db.dayLocks
  live := db.live.filter (· ≠ tx)
  nextTx := db.nextTx

def abortTx : Db P Role where
  players := fun p => (db.players p).map (Cell.rollback tx)
  ledger := Versioned.rollback tx db.ledger
  dayLocks := release tx db.dayLocks
  live := db.live.filter (· ≠ tx)
  nextTx := db.nextTx

/-- The transaction a statement belongs to. -/
def txOf : Sql P Role → Option TxId
  | .begin => none
  | .advisoryXactLock tx _ | .selectSettings tx | .updateSeedSeconds tx _
  | .selectPresence tx _ | .deleteAccruals tx _ _ | .insertTransactions tx _
  | .selectForUpdate tx _ | .addToBalances tx _ | .updatePlayer tx _ _ _ | .other tx
  | .commit tx | .rollback tx => some tx

/-- The database after a statement has succeeded with the given answer, `none` when it cannot
be answered so. -/
def succeed : (e : Sql P Role) → Answer P Role K e → Option (Db P Role)
  | .begin, tx =>
    if tx = db.nextTx then some { db with live := tx :: db.live, nextTx := tx + 1 } else none
  | .advisoryXactLock tx day, () =>
    if db.dayLocks day = none ∨ db.dayLocks day = some tx then
      some { db with dayLocks := fun d => if d = day then some tx else db.dayLocks d }
    else none
  | .deleteAccruals tx playerIds day, removed =>
    if db.Deletable tx playerIds day ∧
        removed = (picked tx (IsAccrual playerIds day) db.ledger).map
          (fun row => (row.playerId, row.amount)) then
      some { db with ledger := delete tx (IsAccrual playerIds day) db.ledger }
    else none
  | .insertTransactions tx rows, () =>
    -- `bonus_transactions_amount_nonzero_chk` and the foreign key
    if ∀ row ∈ rows, row.amount ≠ 0 ∧ (db.players row.playerId).isSome then
      some { db with ledger := insert tx rows db.ledger }
    else none
  | .selectForUpdate tx ids, rows =>
    if db.Lockable tx ids ∧ rows = db.rowsForUpdate tx ids then
      some (db.writePlayers tx ids fun _ row => row)
    else none
  | .addToBalances tx changes, () =>
    db.updatePlayers tx (changes.map Prod.fst) (addBalance changes)
  | .updatePlayer tx id bonusBalance role, () =>
    db.updatePlayers tx [id] fun _ => setColumns bonusBalance role
  | .commit tx, () => some (db.commitTx tx)
  | .rollback tx, () => some (db.abortTx tx)
  | .selectSettings _, _ | .updateSeedSeconds _ _, _ | .selectPresence _ _, _ | .other _, _ =>
    some db

/-- The database after a failed statement: a commit that fails has rolled back. -/
def fail : Sql P Role → Db P Role
  | .commit tx => db.abortTx tx
  | _ => db

/-- A statement of a transaction that is gone can only fail. -/
def perform (e : Sql P Role) (db : Db P Role) : Reply P Role K e → Option (Db P Role)
  | none => some (db.fail e)
  | some a => if ∀ tx ∈ txOf e, tx ∈ db.live then db.succeed e a else none

def environment : EconomyMove P Role → Option (Db P Role)
  | .abort tx => if tx ∈ db.live then some (db.abortTx tx) else none
  | .createPlayer id =>
    match db.players id with
    | none =>
      some { db with
        players := fun p => if p = id then some ⟨⟨0, none, none⟩, none⟩ else db.players p }
    | some _ => none
  | .setRole id roleId roleExpiresAt =>
    match db.players id with
    | some ⟨row, none⟩ =>
      some { db with
        players := fun p =>
          if p = id then some ⟨⟨row.bonusBalance, roleId, roleExpiresAt⟩, none⟩
          else db.players p }
    | _ => none

end Db

/-- The transactions that may run, any number of each. -/
inductive Job (P Role : Type) where
  | accrue (day : String)
  | vipGrant (input : ApplyVipGrantInput P Role)
  | adjust (playerId : P) (amount : Int)

def economySystem (arith : Arithmetic K) :
    System (Sql P Role) (Reply P Role K) (Job P Role) (Db P Role) (EconomyMove P Role) where
  body
    | .accrue day => accrueDailyBonuses arith day
    | .vipGrant input => vipGrantTransaction input
    | .adjust playerId amount => bonusAdjustment playerId amount
  perform := Db.perform
  environment := fun move db => db.environment move

end

end SquadPanel.Economy
