import SquadPanel.AdminsCfg.Outbox

/-!
# The processes that keep Admins.cfg in step

`syncer.ts`, `delivery.ts` and the relay of `admins-cfg-outbox.ts`, every await a
call.  An error that the source lets through ends the process; an error inside
`db.transaction` first rolls the transaction back.

`hash` is sha256 of a segment.
-/

namespace SquadPanel.AdminsCfg

open Js Lib
open Prog (await)

abbrev SyncM (V I : Type) := ExceptT Unit (Prog (SyncCall V I) SyncReply)

def Reply.toExcept {α : Type} : Reply α → Except Unit α
  | .value a => .ok a
  | .failed => .error ()

def CommitReply.toExcept : CommitReply → Except Unit Unit
  | .committed => .ok ()
  | .lost => .error ()
  | .failed => .error ()

section Programs
variable {V I : Type} [DecidableEq V] [DecidableEq I] {H : Type} [DecidableEq H]

def aside (what : Aside) : SyncM V I Unit := await (.aside what) Reply.toExcept

/-- A failed audit append is logged and forgotten. -/
def safeAppendAudit : SyncM V I Unit := await (.aside .audit) fun _ => .ok ()

def publishStatus : SyncM V I Unit := aside .publishStatus

/-- Best effort: it never throws. -/
def requestAdminsCfgReload : SyncM V I Unit := await (.aside .requestReload) fun _ => .ok ()

/-- Run `work` in a transaction that `begin` opens: committed when `work` returns, rolled back
when it throws. -/
def transaction {α β : Type} (start : SyncM V I β) (number : β → Nat) (work : β → SyncM V I α) :
    SyncM V I α := do
  let opened ← start
  let result ← tryCatch (work opened) fun error => do
    await (.rollback (number opened)) fun _ => .ok ()
    throw error
  await (.commit (number opened)) CommitReply.toExcept
  return result

def withAdminsCfgServerLock {α : Type} (s : V) (work : Nat → SyncM V I α) : SyncM V I α :=
  transaction (await (.lockServer s) Reply.toExcept) id work

/-! ## One sync -/

inductive SyncMode where
  | active
  | passive
deriving Repr, DecidableEq

structure SyncOptions where
  reason : JsString
  forceWrite : Bool
  mode : Option SyncMode
  requestReload : Bool
deriving Repr, DecidableEq

inductive SyncState where
  | wrote
  | inSync
  | unreachable
  | drift
deriving Repr, DecidableEq

/-- The three statements of the snapshot; each sees its own committed state. -/
def snapshotRolesAndAdmins (x : Nat) :
    SyncM V I (RolesTable × AdminsTable × ClanPriorityTable) := do
  let roles ← await (.selectRoles x) Reply.toExcept
  let admins ← await (.selectAdmins x) Reply.toExcept
  let clanPriority ← await (.selectClanPriority x) Reply.toExcept
  return (roles.rows, admins.rows, clanPriority.rows)

variable (localeCompare : JsString → JsString → Int) (hash : JsString → H)

/-- The body of the segment for what was read. -/
def managedSegmentBody (roles : RolesTable) (admins : AdminsTable)
    (clanPriority : ClanPriorityTable) : JsString :=
  (buildManagedSegmentBody localeCompare
    { roles := roles.1, admins := admins.1, clanPriority := some clanPriority.1 }).body

def reportUnreachable : SyncM V I SyncState := do
  publishStatus
  safeAppendAudit
  return .unreachable

/-- `hashesMatch`: the located segment of a file has the hash of the generated body. -/
def hashesMatch (original body : JsString) : Bool :=
  (findManagedSegment original).map (fun located => hash located.segment) == some (hash body)

def SyncOptions.isPassiveCheck (opts : SyncOptions) : Bool :=
  opts.mode == some .passive || (opts.mode == none && opts.reason == js "drift_check")

def reconcileFile (s : V) (opts : SyncOptions) (original body : JsString) :
    SyncM V I SyncState := do
  let hasDrift := !hashesMatch hash original body
  if opts.forceWrite || (!opts.isPassiveCheck && hasDrift) then
    match ← await (.fileAtomicWrite s (spliceManagedSegment original body)) (.ok ·) with
    | .written =>
      publishStatus
      if opts.requestReload then requestAdminsCfgReload
      safeAppendAudit
      return .wrote
    | .lost => reportUnreachable
    | .failed => reportUnreachable
  else
    publishStatus
    return if hasDrift then .drift else .inSync

variable (x : Nat)

def syncServerAdminsCfgLocked (s : V) (opts : SyncOptions) : SyncM V I SyncState := do
  publishStatus
  let (roles, admins, clanPriority) ← snapshotRolesAndAdmins x
  let body := managedSegmentBody localeCompare roles admins clanPriority
  match ← await (.fileRead s) (.ok ·) with
  | .content original => reconcileFile hash s opts original body
  | .notFound => reconcileFile hash s opts [] body
  | .error => reportUnreachable

/-! ## Deliveries -/

/-- `_outbox_id` of a stream entry. -/
inductive OutboxLink (I : Type) where
  | absent
  | invalid
  | id (id : I)
deriving Repr, DecidableEq

/-- `event` is `none` when it is not an object. -/
structure AdminsCfgStreamEntry (V I : Type) where
  serverId : V
  event : Option (SyncEvent × OutboxLink I)
deriving Repr, DecidableEq

def syncParameters (payload : Option SyncEvent) : SyncOptions :=
  let reason := (payload.bind SyncEvent.reason).getD (js "unknown")
  { reason := reason
    forceWrite := reason == js "force_sync" || payload.any SyncEvent.forceWrite
    mode := none
    requestReload := true }

def acknowledgeAndDeleteAdminsCfgEntry : SyncM V I Unit := aside .acknowledge

inductive DeliveryOutcome where
  | completed
  | retry
deriving Repr, DecidableEq

def update (id : I) (change : OutboxChange) : SyncM V I Unit :=
  await (.updateOutbox x id change) Reply.toExcept

def complete (id : I) (outcome : AppliedOutcome) : SyncM V I DeliveryOutcome := do
  update x id (.applied outcome)
  return .completed

def markFailed (id : I) (code : FailureCode) : SyncM V I DeliveryOutcome := do
  update x id (.failed code)
  return .retry

def readServerState (s : V) : SyncM V I (Option (ServerRow V)) :=
  await (.readServerState x s) Reply.toExcept

def confirmReload (s : V) (id : I) : SyncM V I ReloadOutcome :=
  await (.confirmReload s id) Reply.toExcept

def finish (id : I) (finalState : Option (ServerRow V)) : SyncM V I DeliveryOutcome :=
  complete x id (if isLive finalState then .confirmed else .fileReadyForRestart)

section
variable (x : Nat) (s : V) (id : I)

/-- After the file is right: the state is read again after every reload that was waited for. -/
def confirmDelivery (reloadConfirmed : Bool) :
    SyncM V I DeliveryOutcome := do
  let finalState ← readServerState x s
  if isRemoved finalState then complete x id .serverRemoved
  else if isLive finalState && !reloadConfirmed then
    match ← confirmReload s id with
    | .failure code => markFailed x id code
    | .confirmed =>
      let finalState ← readServerState x s
      if isRemoved finalState then complete x id .serverRemoved
      else finish x id finalState
  else finish x id finalState

def applyOutboxRow (payload : Option SyncEvent) :
    SyncM V I DeliveryOutcome := do
  let opts := { syncParameters payload with mode := some .active, requestReload := false }
  let state ← syncServerAdminsCfgLocked localeCompare hash x s opts
  if state = .unreachable then markFailed x id .unavailable
  else
    let firstState ← readServerState x s
    if isRemoved firstState then complete x id .serverRemoved
    else if isLive firstState then
      match ← confirmReload s id with
      | .failure code => markFailed x id code
      | .confirmed => confirmDelivery x s id true
    else confirmDelivery x s id false

def handleOutboxEntry : SyncM V I DeliveryOutcome := do
  match ← await (.getOutbox x id) Reply.toExcept with
  | none => return .completed
  | some outbox =>
    if outbox.serverId ≠ s then return .completed
    else if outbox.appliedAt ≠ none then return .completed
    else applyOutboxRow localeCompare hash x s id outbox.payload

end

def handleAdminsCfgSyncEntry (entry : AdminsCfgStreamEntry V I) : SyncM V I DeliveryOutcome := do
  match entry.event with
  | none | some (_, .invalid) =>
    acknowledgeAndDeleteAdminsCfgEntry
    return .completed
  | some (event, .absent) =>
    let state ← withAdminsCfgServerLock entry.serverId fun x =>
      syncServerAdminsCfgLocked localeCompare hash x entry.serverId (syncParameters (some event))
    if state = .unreachable then return .retry
    else
      acknowledgeAndDeleteAdminsCfgEntry
      return .completed
  | some (_, .id id) =>
    let outcome ← withAdminsCfgServerLock entry.serverId fun x =>
      handleOutboxEntry localeCompare hash x entry.serverId id
    if outcome = .completed then acknowledgeAndDeleteAdminsCfgEntry
    return outcome

/-! ## The relay -/

inductive RelayStep (I : Type) where
  | drained
  | relayed
  | cancelled
  | failed (id : I)
deriving Repr, DecidableEq

/-- `false` when the payload is no object or `XADD` failed, timed out or gave no id; an `XADD` that
timed out may still land. -/
def publishRow (row : ClaimedRow V I) : SyncM V I Bool :=
  if row.payload = none then return false
  else
    await (.xadd row.serverId row.id) fun
      | .value () => .ok true
      | .failed => .ok false

/-- One row of a relay run, in a transaction of its own. -/
def relayRow (failedIds : List I) : SyncM V I (RelayStep I) :=
  transaction (await (.claimRow failedIds) Reply.toExcept) Prod.fst fun (x, claimed) =>
    match claimed with
    | none => return .drained
    | some row => do
      if row.serverDeleted then
        update x row.id .cancelled
        return .cancelled
      else if ← publishRow row then
        update x row.id .relayed
        return .relayed
      else return .failed row.id

/-- The loop of a relay run; `fuel` bounds how many rows this run gets to. -/
def relayAdminsCfgSyncOutbox (maxConsecutiveFailures : Nat) :
    (fuel : Nat) → (failedIds : List I) → (consecutiveFailures : Nat) → SyncM V I Unit
  | 0, _, _ => return ()
  | fuel + 1, failedIds, consecutiveFailures =>
    if consecutiveFailures < maxConsecutiveFailures then do
      match ← relayRow failedIds with
      | .drained => return ()
      | .failed id =>
        relayAdminsCfgSyncOutbox maxConsecutiveFailures fuel (failedIds ++ [id])
          (consecutiveFailures + 1)
      | .cancelled | .relayed =>
        relayAdminsCfgSyncOutbox maxConsecutiveFailures fuel failedIds 0
    else return ()

/-! ## The system -/

/-- A mutation of the tables with `enqueueAdminsCfgSyncForAllServers` in its transaction; `rowId`
gives the ids of the new rows. -/
def mutate (tables : Tables) (payload : Option SyncEvent) (rowId : V → I) : SyncM V I Unit := do
  let targets ← await .selectServers Reply.toExcept
  await (.commitMutation (targets.map fun s => (s, rowId s)) tables payload)
    CommitReply.toExcept

/-- What a process is started for.  A resync is a drift sweep or any other sync of one server. -/
inductive SyncTask (V I : Type) where
  | deliver (entry : AdminsCfgStreamEntry V I)
  | resync (s : V) (opts : SyncOptions)
  | relay (maxConsecutiveFailures fuel : Nat)
  | mutate (tables : Tables) (payload : Option SyncEvent) (rowId : V → I)

def syncBody : SyncTask V I → Prog (SyncCall V I) SyncReply Unit
  | .deliver entry => do
    let _ ← (handleAdminsCfgSyncEntry localeCompare hash entry).run
  | .resync s opts => do
    let _ ← (withAdminsCfgServerLock s fun x =>
      syncServerAdminsCfgLocked localeCompare hash x s opts).run
  | .relay maxConsecutiveFailures fuel => do
    let _ ← (relayAdminsCfgSyncOutbox maxConsecutiveFailures fuel [] 0 : SyncM V I Unit).run
  | .mutate tables payload rowId => do
    let _ ← (AdminsCfg.mutate tables payload rowId).run

def syncSystem : System (SyncCall V I) SyncReply (SyncTask V I) (SyncDb V I) (SyncMove V I) where
  body := syncBody localeCompare hash
  perform := syncPerform
  environment := syncEnvironment

end Programs

end SquadPanel.AdminsCfg
