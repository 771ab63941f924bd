import SquadPanel.Economy.VipGrant
import SquadPanel.Js.Map
import SquadPanel.Lib.Interleave
import SquadPanel.Lib.Versioned

/-!
# The bonus ledger

The three transactions that write `bonus_transactions` and `players.bonus_balance`:
the daily accrual, a VIP grant inside its caller's transaction and a manual
adjustment.  Every SQL statement is one call, so transactions interleave statement
by statement; row locks, the per-day advisory lock and the fate of uncommitted rows
are the database's part.
-/

namespace SquadPanel.Economy

open Js Lib Versioned
open Prog (await)

inductive BonusTxType where
  | earnOnline
  | earnBoost
  | earnSeed
  | spend
  | adjust
deriving DecidableEq, Repr

def ACCRUAL_TX_TYPES : List BonusTxType := [.earnOnline, .earnBoost, .earnSeed]

def DAILY_PRESENCE_REFERENCE_TYPE : String := "daily_presence"

/-- A row of `bonus_transactions`. -/
structure BonusTransaction (P : Type) where
  playerId : P
  amount : Int
  type : BonusTxType
  referenceType : Option String
  referenceId : Option String
deriving DecidableEq, Repr

/-! ## Statements -/

abbrev TxId := Nat

/-- The statements of the three transactions, each with the transaction it belongs to. -/
inductive Sql (P Role : Type) where
  | begin
  | advisoryXactLock (tx : TxId) (day : String)
  | selectSettings (tx : TxId)
  /-- The statements that derive `player_daily_presence.seed_seconds`. -/
  | updateSeedSeconds (tx : TxId) (day : String)
  | selectPresence (tx : TxId) (day : String)
  | deleteAccruals (tx : TxId) (playerIds : List P) (day : String)
  | insertTransactions (tx : TxId) (rows : List (BonusTransaction P))
  | selectForUpdate (tx : TxId) (ids : List P)
  | addToBalances (tx : TxId) (changes : List (P × Int))
  | updatePlayer (tx : TxId) (id : P) (bonusBalance : Int) (role : Option (Role × Int))
  /-- The other statements of a caller's transaction; they write neither table. -/
  | other (tx : TxId)
  | commit (tx : TxId)
  | rollback (tx : TxId)
deriving DecidableEq

structure EconomySettings (K : Type) where
  kOnline : K
  kBoost : K
  kSeed : K
  economyEnabled : Bool

/-- A row of the presence aggregate of one day. -/
structure PresenceAgg (P : Type) where
  playerId : P
  onlineSeconds : Int
  boostSeconds : Int
  seedSeconds : Int

/-- What a statement answers when it succeeds. -/
abbrev Answer (P Role K : Type) : Sql P Role → Type
  | .begin => TxId
  | .selectSettings _ => Option (EconomySettings K)
  | .selectPresence _ _ => List (PresenceAgg P)
  | .deleteAccruals _ _ _ => List (P × Int)
  | .selectForUpdate _ _ => List (P × PlayerRow Role)
  | _ => Unit

/-- Any statement may fail. -/
abbrev Reply (P Role K : Type) (e : Sql P Role) : Type := Option (Answer P Role K e)

variable {P Role K : Type}

/-- Code inside a transaction: a failed statement throws. -/
abbrev Query (P Role K : Type) := ExceptT Unit (Prog (Sql P Role) (Reply P Role K))

def answer {α : Type} : Option α → Except Unit α
  | some a => .ok a
  | none => .error ()

section
variable (tx : TxId)

def advisoryXactLock (day : String) : Query P Role K Unit :=
  await (.advisoryXactLock tx day) answer

def selectSettings : Query P Role K (Option (EconomySettings K)) :=
  await (.selectSettings tx) answer

def updateSeedSeconds (day : String) : Query P Role K Unit :=
  await (.updateSeedSeconds tx day) answer

def selectPresence (day : String) : Query P Role K (List (PresenceAgg P)) :=
  await (.selectPresence tx day) answer

def deleteAccruals (playerIds : List P) (day : String) :
    Query P Role K (List (P × Int)) :=
  await (.deleteAccruals tx playerIds day) answer

def insertTransactions (rows : List (BonusTransaction P)) : Query P Role K Unit :=
  await (.insertTransactions tx rows) answer

def selectForUpdate (ids : List P) : Query P Role K (List (P × PlayerRow Role)) :=
  await (.selectForUpdate tx ids) answer

def addToBalances (changes : List (P × Int)) : Query P Role K Unit :=
  await (.addToBalances tx changes) answer

def updatePlayer (id : P) (bonusBalance : Int) (role : Option (Role × Int)) :
    Query P Role K Unit :=
  await (.updatePlayer tx id bonusBalance role) answer

def other : Query P Role K Unit :=
  await (.other tx) answer

end

/-- `sql.begin` and `db.transaction`: commit what the body did, or roll back what it threw at. -/
def transaction (body : TxId → Query P Role K Unit) : Prog (Sql P Role) (Reply P Role K) Unit :=
  .call .begin fun
    | none => .ret ()
    | some tx => do
      match ← (body tx).run with
      | .ok () => .call (.commit tx) fun _ => .ret ()
      | .error () => .call (.rollback tx) fun _ => .ret ()

/-! ## `accrueDailyBonuses` -/

/-- `Math.round((k * seconds) / SECONDS_PER_HOUR)`, in JavaScript numbers. -/
structure Arithmetic (K : Type) where
  roundHours : K → Int → Int

def accrualRow (day : String) (playerId : P) (type : BonusTxType) (amount : Int) :
    BonusTransaction P where
  playerId := playerId
  amount := amount
  type := type
  referenceType := some DAILY_PRESENCE_REFERENCE_TYPE
  referenceId := some day

section
variable (arith : Arithmetic K) (settings : EconomySettings K)

def hours (row : PresenceAgg P) :
    BonusTxType → Int
  | .earnOnline => arith.roundHours settings.kOnline row.onlineSeconds
  | .earnBoost => arith.roundHours settings.kBoost row.boostSeconds
  | .earnSeed => arith.roundHours settings.kSeed row.seedSeconds
  | .spend | .adjust => 0

def desiredRows (day : String)
    (aggregates : List (PresenceAgg P)) : List (BonusTransaction P) :=
  aggregates.flatMap fun row =>
    ACCRUAL_TX_TYPES.map fun type =>
      accrualRow day row.playerId type (hours arith settings row type)

end

theorem mem_desiredRows {arith : Arithmetic K} {settings : EconomySettings K} {day : String}
    {aggregates : List (PresenceAgg P)} {row : BonusTransaction P}
    (hrow : row ∈ desiredRows arith settings day aggregates) :
    row.playerId ∈ aggregates.map (·.playerId) := by
  obtain ⟨agg, hagg, hmem⟩ := List.mem_flatMap.1 hrow
  obtain ⟨type, _, rfl⟩ := List.mem_map.1 hmem
  exact List.mem_map_of_mem hagg

/-- `DELETE ... RETURNING`, left out when nobody was present. -/
def removeAccruals [DecidableEq P] (tx : TxId) (playerIds : List P) (day : String) :
    Query P Role K (List (P × Int)) :=
  if playerIds = [] then pure [] else deleteAccruals tx playerIds day

/-- A statement for a list of rows, left out when there are none. -/
def unlessEmpty {α : Type} [DecidableEq α] (rows : List α) (statement : Query P Role K Unit) :
    Query P Role K Unit :=
  if rows = [] then pure () else statement

section Accrual

variable [DecidableEq P]

/-- The amounts per player, added up in a map. -/
def sumByPlayer (amounts : List (P × Int)) : JsMap P Int :=
  amounts.foldl (fun sums r => sums.set r.1 ((sums.get r.1).getD 0 + r.2)) .empty

def deltaByPlayer (playerIds : List P) (addedByPlayer removedByPlayer : JsMap P Int) :
    JsMap P Int :=
  JsMap.ofEntries (playerIds.map fun playerId =>
    (playerId, (addedByPlayer.get playerId).getD 0 - (removedByPlayer.get playerId).getD 0))

/-- What each locked balance cannot absorb. -/
def shortfallByPlayer (deltas : JsMap P Int) (balances : List (P × PlayerRow Role)) :
    JsMap P Int :=
  JsMap.ofEntries (balances.filterMap fun (id, row) =>
    let shortfall := max 0 (-(row.bonusBalance + (deltas.get id).getD 0))
    if shortfall > 0 then some (id, shortfall) else none)

def balanceChanges (deltas shortfalls : JsMap P Int) : List (P × Int) :=
  (deltas.entries.map fun (playerId, delta) =>
    (playerId, delta + (shortfalls.get playerId).getD 0)).filter fun row => row.2 ≠ 0

/-- Locks the players whose accrual shrinks and forgives what their balance cannot cover. -/
def forgiveShortfall (tx : TxId) (day : String) (deltas : JsMap P Int) :
    Query P Role K (JsMap P Int) := do
  let shrinkingIds := (deltas.entries.filter fun entry => entry.2 < 0).map (·.1)
  if shrinkingIds = [] then pure .empty
  else
    let balances ← selectForUpdate tx shrinkingIds
    let shortfalls := shortfallByPlayer deltas balances
    unlessEmpty shortfalls.entries
      (insertTransactions tx (shortfalls.entries.map fun (playerId, amount) =>
        accrualRow day playerId .adjust amount))
    pure shortfalls

/-- The set-based ledger rewrite of one day. -/
def rewriteLedger (arith : Arithmetic K) (tx : TxId) (day : String)
    (settings : EconomySettings K) (aggregates : List (PresenceAgg P)) : Query P Role K Unit := do
  let playerIds := aggregates.map (·.playerId)
  let removed ← removeAccruals tx playerIds day
  let insertRows := (desiredRows arith settings day aggregates).filter fun r => r.amount ≠ 0
  unlessEmpty insertRows (insertTransactions tx insertRows)
  let deltas := deltaByPlayer playerIds
    (sumByPlayer (insertRows.map fun r => (r.playerId, r.amount))) (sumByPlayer removed)
  let shortfalls ← forgiveShortfall tx day deltas
  let changes := balanceChanges deltas shortfalls
  unlessEmpty changes (addToBalances tx changes)

def accrueDailyBonuses (arith : Arithmetic K) (day : String) :
    Prog (Sql P Role) (Reply P Role K) Unit :=
  transaction fun tx => do
    advisoryXactLock tx day
    let settings ← selectSettings tx
    updateSeedSeconds tx day
    match settings with
    | none => pure ()
    | some settings =>
      if settings.economyEnabled then
        let aggregates ← selectPresence tx day
        rewriteLedger arith tx day settings aggregates
      else pure ()

end Accrual

/-! ## `applyVipGrant` -/

structure ApplyVipGrantInput (P Role : Type) where
  playerId : P
  tier : VipGrantTier Role
  referenceType : String
  referenceId : String
  now : Int

inductive ApplyVipGrantResult (P Role : Type) where
  | ok (balance : Int) (roleId : Role) (roleExpiresAt : Int)
      (transaction : Option (BonusTransaction P))
  | playerNotFound
  | refused (plan : VipGrantPlan Role)

def ApplyVipGrantInput.spendRow (input : ApplyVipGrantInput P Role) (price : Int) :
    BonusTransaction P where
  playerId := input.playerId
  amount := -price
  type := .spend
  referenceType := some input.referenceType
  referenceId := some input.referenceId

def applyVipGrant [DecidableEq Role] (tx : TxId) (input : ApplyVipGrantInput P Role) :
    Query P Role K (ApplyVipGrantResult P Role) := do
  let locked ← selectForUpdate tx [input.playerId]
  match locked with
  | [] => pure .playerNotFound
  | (_, current) :: _ =>
    match planVipGrant current input.tier input.now with
    | .ok price nextBalance roleId roleExpiresAt =>
      -- a row of amount 0 is forbidden, so a free tier writes none
      if price ≠ 0 then insertTransactions tx [input.spendRow price]
      updatePlayer tx input.playerId nextBalance (some (roleId, roleExpiresAt))
      pure (.ok nextBalance roleId roleExpiresAt
        (if price ≠ 0 then some (input.spendRow price) else none))
    | plan => pure (.refused plan)

/-- A purchase or renewal: the grant among the caller's own statements, which may also throw
after it. -/
def vipGrantTransaction [DecidableEq Role] (input : ApplyVipGrantInput P Role) :
    Prog (Sql P Role) (Reply P Role K) Unit :=
  transaction fun tx => do
    other tx
    let _ ← applyVipGrant tx input
    other tx

/-! ## Manual adjustment -/

def adjustRow (playerId : P) (amount : Int) : BonusTransaction P where
  playerId := playerId
  amount := amount
  type := .adjust
  referenceType := none
  referenceId := none

/-- The transaction of `POST /players/:playerId/bonus-adjustments`. -/
def bonusAdjustment (playerId : P) (amount : Int) : Prog (Sql P Role) (Reply P Role K) Unit :=
  transaction fun tx => do
    let locked ← selectForUpdate tx [playerId]
    match locked with
    | [] => pure ()
    | (_, current) :: _ =>
      let nextBalance := current.bonusBalance + amount
      if nextBalance < 0 then pure ()
      else
        insertTransactions tx [adjustRow playerId amount]
        updatePlayer tx playerId nextBalance none
        -- the audit row of the request
        other tx

end SquadPanel.Economy
