import SquadPanel.Economy.Ledger

/-!
# Subscription renewal

The renewal pass of the `role-expirer` worker, over a database in which the scan, the
charge, the expiry and a player's cancellation are one atomic step each.  A step may
fail without effect, and it may take effect while its caller only sees an error.
-/

namespace SquadPanel.Economy

open Js Lib

/-! ## Tables -/

inductive SubscriptionStatus where
  | active
  | cancelled
  | expired
deriving DecidableEq

/-- A row of `vip_subscriptions`, with its `vip_subscriptions_renews_every_days_chk`. -/
structure Subscription (P T : Type) where
  playerId : P
  tierId : T
  status : SubscriptionStatus
  renewsEveryDays : Int
  priceBonuses : Int
  nextRenewalAt : Int
  cancelledAt : Option Int
  renewsEveryDays_pos : 0 < renewsEveryDays
deriving DecidableEq

structure VipTierRow (Role : Type) where
  name : String
  roleId : Role

structure RoleRow where
  panelAccess : Bool
  isSystemRole : Bool

structure RenewalDb (P T Role : Type) where
  subscriptions : JsMap String (Subscription P T)
  players : P → Option (PlayerRow Role)
  canonicalName : P → String
  tiers : T → Option (VipTierRow Role)
  roles : Role → Option RoleRow
  ledger : List (BonusTransaction P)
  /-- the servers an `Admins.cfg` sync is enqueued for -/
  servers : Nat

/-! ## The values of a pass -/

/-- An active subscription whose `next_renewal_at` has come due. -/
structure DueSubscription (P T Role : Type) where
  id : String
  playerId : P
  playerName : String
  tierId : T
  tierName : String
  roleId : Role
  priceBonuses : Int
  renewsEveryDays : Int
  nextRenewalAt : Int
  renewsEveryDays_pos : 0 < renewsEveryDays
deriving DecidableEq

inductive RenewalFailureReason where
  | insufficientBalance
  | roleConflict
  | rolePermanent
  | playerNotFound
  | roleGrantsPanelAccess
deriving DecidableEq

structure ChargeRenewalInput (P T Role : Type) where
  subscriptionId : String
  playerId : P
  tierId : T
  roleId : Role
  price : Int
  days : Int
  /-- the `next_renewal_at` that was scanned -/
  dueAt : Int
  nextRenewalAt : Int
  now : Int
deriving DecidableEq

/-- What `applyVipGrant` is asked for. -/
def ChargeRenewalInput.grant {P T Role : Type} (input : ChargeRenewalInput P T Role) :
    ApplyVipGrantInput P Role where
  playerId := input.playerId
  tier := ⟨input.roleId, input.days, input.price⟩
  referenceType := "vip_subscription"
  referenceId := input.subscriptionId
  now := input.now

inductive ChargeRenewalResult where
  | ok (balance roleExpiresAt : Int) (enqueued : Nat)
  | insufficientBalance (balance : Int)
  | roleConflict
  | rolePermanent
  | playerNotFound
  | roleGrantsPanelAccess
  | notActive
deriving DecidableEq

structure SubscriptionAuditEntry (P T : Type) where
  targetId : P
  subscriptionId : String
  tierId : T
  reason : RenewalFailureReason
  priceBonuses : Int
  expiredAt : Int
deriving DecidableEq

structure SubscriptionExpiredAlertPayload (P T : Type) where
  playerId : P
  playerName : String
  subscriptionId : String
  tierId : T
  tierName : String
  reason : RenewalFailureReason
  priceBonuses : Int
  /-- `none` when the balance was not the cause -/
  balance : Option Int
deriving DecidableEq

structure SubscriptionRenewalResult where
  renewed : Nat
  expired : Nat
  enqueued : Nat
deriving DecidableEq

inductive RenewalDiag (P : Type) where
  | renewalFailed (message : String) (subscriptionId : String) (playerId : P)
  | renewalsOk (message : String) (payload : SubscriptionRenewalResult)
  | renewalsFailed (message : String) (err : String)
deriving DecidableEq

/-! ## Steps on the database -/

namespace RenewalDb

variable {P T Role : Type} (db : RenewalDb P T Role)

def dueRow (now : Int) (id : String) (sub : Subscription P T) :
    Option (DueSubscription P T Role) := do
  -- the inner joins drop a row without its player or tier
  let _ ← db.players sub.playerId
  let tier ← db.tiers sub.tierId
  if sub.status = .active ∧ sub.nextRenewalAt ≤ now then
    some
      { id := id
        playerId := sub.playerId
        playerName := db.canonicalName sub.playerId
        tierId := sub.tierId
        tierName := tier.name
        roleId := tier.roleId
        priceBonuses := sub.priceBonuses
        renewsEveryDays := sub.renewsEveryDays
        nextRenewalAt := sub.nextRenewalAt
        renewsEveryDays_pos := sub.renewsEveryDays_pos }
  else none

def dueRows (now : Int) : List (DueSubscription P T Role) :=
  db.subscriptions.entries.filterMap fun entry => db.dueRow now entry.1 entry.2

/-- `ORDER BY next_renewal_at LIMIT limit`, rows of equal instants in any order. -/
def IsPage (limit : Nat) (rows page : List (DueSubscription P T Role)) : Prop :=
  (∀ r ∈ page, r ∈ rows) ∧ page.Nodup ∧ page.length ≤ limit ∧
    page.Pairwise (fun r r' => r.nextRenewalAt ≤ r'.nextRenewalAt) ∧
      ∀ r ∈ rows, r ∉ page →
        page.length = limit ∧ ∀ r' ∈ page, r'.nextRenewalAt ≤ r.nextRenewalAt

instance [DecidableEq P] [DecidableEq T] [DecidableEq Role] (limit : Nat)
    (rows page : List (DueSubscription P T Role)) : Decidable (IsPage limit rows page) :=
  inferInstanceAs (Decidable (_ ∧ _ ∧ _ ∧ _ ∧ _))

/-- The role exists and gives no access to the panel. -/
def grantable (roleId : Role) : Bool :=
  match db.roles roleId with
  | some role => !role.panelAccess && !role.isSystemRole
  | none => false

def expireSubscription (subscriptionId : String) (now : Int) :
    RenewalDb P T Role × Bool :=
  match db.subscriptions.get subscriptionId with
  | some sub =>
    if sub.status = .active then
      ({ db with
          subscriptions := db.subscriptions.set subscriptionId
            { sub with status := .expired, cancelledAt := some now } }, true)
    else (db, false)
  | none => (db, false)

variable [DecidableEq P]

/-- `DELETE /api/v1/me/subscriptions/:id` -/
def cancelSubscription (db : RenewalDb P T Role) (subscriptionId : String) (playerId : P)
    (now : Int) : RenewalDb P T Role × Bool :=
  match db.subscriptions.get subscriptionId with
  | some sub =>
    if sub.playerId = playerId ∧ sub.status = .active then
      ({ db with
          subscriptions := db.subscriptions.set subscriptionId
            { sub with status := .cancelled, cancelledAt := some now } }, true)
    else (db, false)
  | none => (db, false)

variable [DecidableEq Role]

/-- The charge, atomically.  A compare-and-set that finds no row throws, which rolls the grant
back. -/
def chargeRenewal (db : RenewalDb P T Role) (input : ChargeRenewalInput P T Role) :
    RenewalDb P T Role × ChargeRenewalResult :=
  if db.grantable input.roleId = false then (db, .roleGrantsPanelAccess)
  else
    match db.players input.playerId with
    | none => (db, .playerNotFound)
    | some current =>
      match planVipGrant current input.grant.tier input.now with
      | .insufficientBalance balance => (db, .insufficientBalance balance)
      | .roleConflict => (db, .roleConflict)
      | .rolePermanent => (db, .rolePermanent)
      | .ok price nextBalance roleId roleExpiresAt =>
        match db.subscriptions.get input.subscriptionId with
        | none => (db, .notActive)
        | some sub =>
          if sub.status = .active ∧ sub.nextRenewalAt = input.dueAt then
            ({ db with
                subscriptions := db.subscriptions.set input.subscriptionId
                  { sub with nextRenewalAt := input.nextRenewalAt }
                players := fun p =>
                  if p = input.playerId then
                    some ⟨nextBalance, some roleId, some roleExpiresAt⟩
                  else db.players p
                ledger :=
                  if price ≠ 0 then db.ledger ++ [input.grant.spendRow price]
                  else db.ledger },
              .ok nextBalance roleExpiresAt db.servers)
          else (db, .notActive)

end RenewalDb

/-! ## The pass -/

inductive RenewalCall (P T Role : Type) where
  | findDueSubscriptions (now : Int)
  | chargeRenewal (input : ChargeRenewalInput P T Role)
  | expireSubscription (subscriptionId : String) (now : Int)
  | writeAuditEntry (entry : SubscriptionAuditEntry P T)
  | notifySubscriptionExpired (payload : SubscriptionExpiredAlertPayload P T)
  | emit (event : RenewalDiag P)
  | cancelSubscription (subscriptionId : String) (playerId : P) (now : Int)
deriving DecidableEq

abbrev RenewalAnswer (P T Role : Type) : RenewalCall P T Role → Type
  | .findDueSubscriptions _ => List (DueSubscription P T Role)
  | .chargeRenewal _ => ChargeRenewalResult
  | .expireSubscription _ _ => Bool
  | .cancelSubscription _ _ _ => Bool
  | _ => Unit

/-- The outcome of a step. -/
inductive Outcome (α : Type) where
  | value (a : α)
  /-- it took effect, but the caller sees an error -/
  | lost (a : α) (message : String)
  | failed (message : String)

namespace Outcome

variable {α : Type}

/-- What the step did. -/
def done : Outcome α → Option α
  | .value a => some a
  | .lost a _ => some a
  | .failed _ => none

/-- What the caller sees. -/
def seen : Outcome α → Except String α
  | .value a => .ok a
  | .lost _ message => .error message
  | .failed message => .error message

end Outcome

abbrev RenewalReply (P T Role : Type) (e : RenewalCall P T Role) : Type :=
  Outcome (RenewalAnswer P T Role e)

section Pass

variable {P T Role : Type}

abbrev RenewalProg (P T Role : Type) : Type → Type :=
  Prog (RenewalCall P T Role) (RenewalReply P T Role)

def attempt (e : RenewalCall P T Role) :
    RenewalProg P T Role (Except String (RenewalAnswer P T Role e)) :=
  .call e fun r => .ret r.seen

section
variable (now : Int) (subscription : DueSubscription P T Role)

def chargeInput :
    ChargeRenewalInput P T Role where
  subscriptionId := subscription.id
  playerId := subscription.playerId
  tierId := subscription.tierId
  roleId := subscription.roleId
  price := subscription.priceBonuses
  days := subscription.renewsEveryDays
  dueAt := subscription.nextRenewalAt
  nextRenewalAt := nextRenewalAfter subscription.nextRenewalAt subscription.renewsEveryDays
  now := now

def auditEntry (reason : RenewalFailureReason) : SubscriptionAuditEntry P T where
  targetId := subscription.playerId
  subscriptionId := subscription.id
  tierId := subscription.tierId
  reason := reason
  priceBonuses := subscription.priceBonuses
  expiredAt := now

end

def alertPayload (subscription : DueSubscription P T Role) (reason : RenewalFailureReason)
    (balance : Option Int) : SubscriptionExpiredAlertPayload P T where
  playerId := subscription.playerId
  playerName := subscription.playerName
  subscriptionId := subscription.id
  tierId := subscription.tierId
  tierName := subscription.tierName
  reason := reason
  priceBonuses := subscription.priceBonuses
  balance := balance

/-- The counters, and what was thrown, if anything. -/
abbrev Renewed : Type := SubscriptionRenewalResult × Option String

section
variable (now : Int) (counts : SubscriptionRenewalResult) (subscription : DueSubscription P T Role)

/-- A subscription that could not be charged is ended.  The counter moves before the audit
entry and the notification, which may throw. -/
def endSubscription (reason : RenewalFailureReason)
    (balance : Option Int) : RenewalProg P T Role Renewed := do
  match ← attempt (.expireSubscription subscription.id now) with
  | .error message => pure (counts, some message)
  | .ok false => pure (counts, none)
  | .ok true =>
    let counts := { counts with expired := counts.expired + 1 }
    match ← attempt (.writeAuditEntry (auditEntry now subscription reason)) with
    | .error message => pure (counts, some message)
    | .ok () =>
      match ← attempt (.notifySubscriptionExpired
          (alertPayload subscription reason balance)) with
      | .error message => pure (counts, some message)
      | .ok () => pure (counts, none)

/-- The body of the loop, inside its `try`. -/
def renewOne : RenewalProg P T Role Renewed := do
  match ← attempt (.chargeRenewal (chargeInput now subscription)) with
  | .error message => pure (counts, some message)
  | .ok .notActive => pure (counts, none)
  | .ok (.ok _ _ enqueued) =>
    pure ({ counts with
      renewed := counts.renewed + 1, enqueued := counts.enqueued + enqueued }, none)
  | .ok (.insufficientBalance balance) =>
    endSubscription now counts subscription .insufficientBalance (some balance)
  | .ok .roleConflict => endSubscription now counts subscription .roleConflict none
  | .ok .rolePermanent => endSubscription now counts subscription .rolePermanent none
  | .ok .playerNotFound => endSubscription now counts subscription .playerNotFound none
  | .ok .roleGrantsPanelAccess =>
    endSubscription now counts subscription .roleGrantsPanelAccess none

end

/-- The loop: an error in one subscription is reported and the next one is taken, unless the
report itself throws. -/
def renewAll (now : Int) : SubscriptionRenewalResult → List (DueSubscription P T Role) →
    RenewalProg P T Role (Except String SubscriptionRenewalResult)
  | counts, [] => pure (.ok counts)
  | counts, subscription :: due => do
    match ← renewOne now counts subscription with
    | (counts, none) => renewAll now counts due
    | (counts, some message) =>
      match ← attempt (.emit (.renewalFailed
          ("renewal of subscription " ++ subscription.id ++ " failed: " ++ message)
          subscription.id subscription.playerId)) with
      | .ok () => renewAll now counts due
      | .error message => pure (.error message)

/-- The body of the outer `try`. -/
def renewalPass (now : Int) :
    RenewalProg P T Role (Except String SubscriptionRenewalResult) := do
  match ← attempt (.findDueSubscriptions now) with
  | .error message => pure (.error message)
  | .ok due =>
    match ← renewAll now ⟨0, 0, 0⟩ due with
    | .error message => pure (.error message)
    | .ok counts =>
      match ← attempt (.emit (.renewalsOk ("renewed " ++ toString counts.renewed ++
          " subscription(s), expired " ++ toString counts.expired) counts)) with
      | .ok () => pure (.ok counts)
      | .error message => pure (.error message)

def runSubscriptionRenewalTick (now : Int) :
    RenewalProg P T Role (Except String SubscriptionRenewalResult) := do
  match ← renewalPass now with
  | .ok counts => pure (.ok counts)
  | .error message =>
    match ← attempt (.emit (.renewalsFailed
        ("subscription renewal failed: " ++ message) message)) with
    | .ok () => pure (.error message)
    | .error message => pure (.error message)

end Pass

/-! ## The system -/

/-- What runs: renewal passes and players cancelling. -/
inductive RenewalJob (P : Type) where
  | tick (now : Int)
  | cancel (subscriptionId : String) (playerId : P) (now : Int)

/-- What else moves: purchases, adjustments, role changes and the catalogue. -/
inductive RenewalMove (P T Role : Type) where
  | setPlayer (playerId : P) (row : Option (PlayerRow Role))
  | setTier (tierId : T) (row : Option (VipTierRow Role))
  | setRole (roleId : Role) (row : Option RoleRow)
  | setServers (servers : Nat)
  | subscribe (id : String) (sub : Subscription P T)

section System

variable {P T Role : Type} [DecidableEq P] [DecidableEq T] [DecidableEq Role]

namespace RenewalDb

/-- The database after a step that answered `a`. -/
def succeed (batchSize : Nat) (db : RenewalDb P T Role) :
    (e : RenewalCall P T Role) → RenewalAnswer P T Role e → Option (RenewalDb P T Role)
  | .findDueSubscriptions now, page =>
    if IsPage batchSize (db.dueRows now) page then some db else none
  | .chargeRenewal input, result =>
    if result = (db.chargeRenewal input).2 then some (db.chargeRenewal input).1 else none
  | .expireSubscription id now, updated =>
    if updated = (db.expireSubscription id now).2 then
      some (db.expireSubscription id now).1
    else none
  | .cancelSubscription id playerId now, updated =>
    if updated = (db.cancelSubscription id playerId now).2 then
      some (db.cancelSubscription id playerId now).1
    else none
  | .writeAuditEntry _, () | .notifySubscriptionExpired _, () | .emit _, () => some db

def perform (batchSize : Nat) (e : RenewalCall P T Role) (db : RenewalDb P T Role)
    (r : RenewalReply P T Role e) : Option (RenewalDb P T Role) :=
  match r.done with
  | some a => db.succeed batchSize e a
  | none => some db

def environment (db : RenewalDb P T Role) : RenewalMove P T Role → Option (RenewalDb P T Role)
  | .setPlayer playerId row =>
    some { db with players := fun p => if p = playerId then row else db.players p }
  | .setTier tierId row =>
    some { db with tiers := fun t => if t = tierId then row else db.tiers t }
  | .setRole roleId row =>
    some { db with roles := fun r => if r = roleId then row else db.roles r }
  | .setServers servers => some { db with servers := servers }
  | .subscribe id sub =>
    -- a fresh `uuidv7`, and `vip_subscriptions_one_active_idx`
    if db.subscriptions.get id = none ∧
        ∀ entry ∈ db.subscriptions.entries,
          entry.2.status = .active → entry.2.playerId ≠ sub.playerId then
      some { db with subscriptions := db.subscriptions.set id sub }
    else none

end RenewalDb

def renewalSystem (batchSize : Nat) :
    System (RenewalCall P T Role) (RenewalReply P T Role) (RenewalJob P) (RenewalDb P T Role)
      (RenewalMove P T Role) where
  body
    | .tick now => do
      let _ ← runSubscriptionRenewalTick now
      pure ()
    | .cancel id playerId now => do
      let _ ← attempt (.cancelSubscription id playerId now)
      pure ()
  perform := RenewalDb.perform batchSize
  environment := fun move db => db.environment move

end System

end SquadPanel.Economy
