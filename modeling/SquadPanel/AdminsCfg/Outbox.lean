import SquadPanel.AdminsCfg.Splice
import SquadPanel.Lib.Interleave

/-!
# The database and the files behind Admins.cfg

What the processes that keep Admins.cfg in step share: the committed tables the
managed segment is built from, the rows of `admins_cfg_sync_outbox`, the
servers, the files that the bridge reads and writes, and the per-server
advisory locks with the transactions that hold them.

A statement reads one snapshot of what is committed; the snapshot is named by
the number of mutations it contains.  The changes of a transaction become
visible when it commits.  Redis keeps nothing here: any stream entry may be
delivered at any time and any number of times, so what a stream holds does not
matter, nor do statuses, audit rows and acknowledgements.
-/

namespace SquadPanel.AdminsCfg

open Js Lib

/-! ## Rows -/

/-- `role_squad_permissions` admits the keys of the catalogue only. -/
abbrev RolesTable :=
  { rows : List RoleEntry //
    ∀ r ∈ rows, ∀ p ∈ r.squadPermissions, p ∈ SQUAD_PERMISSION_KEYS }

/-- Players that hold a role and have an EOS id, which is hexadecimal. -/
abbrev AdminsTable :=
  { rows : List AdminEntry // ∀ a ∈ rows, a.eosId.all isHexDigit = true }

abbrev ClanPriorityTable :=
  { rows : List ClanPriorityEntry // ∀ e ∈ rows, e.eosId.all isHexDigit = true }

/-- What `snapshotRolesAndAdmins` projects, each part read by a statement of its own. -/
structure Tables where
  roles : RolesTable
  admins : AdminsTable
  clanPriority : ClanPriorityTable
deriving DecidableEq

inductive AppliedOutcome where
  | confirmed
  | fileReadyForRestart
  | serverRemoved
deriving Repr, DecidableEq

inductive FailureCode where
  | unavailable
  | rejected
  | timeout
  | invalidResult
deriving Repr, DecidableEq

/-- The fields of a sync event that are read: `reason` when it is a string, and whether
`forceWrite` is `true`. -/
structure SyncEvent where
  reason : Option JsString
  forceWrite : Bool
deriving Repr, DecidableEq

/-- A row of the outbox.  `payload` is `none` when it is not an object, and `version` is the number
of mutations that had committed when the row did. -/
structure OutboxRow (V : Type) where
  serverId : V
  payload : Option SyncEvent
  relayedAt : Bool
  appliedAt : Option AppliedOutcome
  lastError : Option FailureCode
  version : Nat
deriving Repr, DecidableEq

/-- What an `UPDATE` of the outbox sets. -/
inductive OutboxChange where
  | applied (outcome : AppliedOutcome)
  | failed (code : FailureCode)
  | relayed
  | cancelled
deriving Repr, DecidableEq

/-- `WHERE applied_at IS NULL` guards the first two; the relay writes the row it has locked. -/
def OutboxRow.change {V : Type} (row : OutboxRow V) : OutboxChange → OutboxRow V
  | .applied outcome =>
    if row.appliedAt = none then { row with appliedAt := some outcome, lastError := none } else row
  | .failed code => if row.appliedAt = none then { row with lastError := some code } else row
  | .relayed => { row with relayedAt := true }
  | .cancelled =>
    { row with relayedAt := true, appliedAt := some .serverRemoved, lastError := none }

inductive ServerStatus where
  | running
  | starting
  | other
deriving Repr, DecidableEq

/-- `hosted` is `runtime = 'container'`. -/
structure ServerRow (V : Type) where
  id : V
  status : ServerStatus
  deletedAt : Bool
  hosted : Bool
deriving Repr, DecidableEq

def isLive {V : Type} : Option (ServerRow V) → Bool
  | none => false
  | some server => !server.deletedAt && (server.status == .running || server.status == .starting)

def isRemoved {V : Type} : Option (ServerRow V) → Bool
  | none => true
  | some server => server.deletedAt

/-! ## Shared state -/

structure SyncDb (V I : Type) where
  tables : Tables
  version : Nat
  servers : List (ServerRow V)
  outbox : I → Option (OutboxRow V)
  files : V → Option JsString
  lock : V → Option Nat
  pending : Nat → Option (List (I × OutboxChange))
  nextTx : Nat

/-- The managed segment of a file; a missing file has none. -/
def segmentOf (file : Option JsString) : Option JsString :=
  (findManagedSegment (file.getD [])).map LocatedSegment.segment

section Db
variable {V I : Type} [DecidableEq V] [DecidableEq I]

namespace SyncDb

section
variable (db : SyncDb V I)

def server (s : V) : Option (ServerRow V) :=
  db.servers.find? fun row => row.id = s

/-- `SELECT id FROM servers WHERE deleted_at IS NULL AND runtime = 'container'`. -/
def activeServers : List V :=
  (db.servers.filter fun row => !row.deletedAt && row.hosted).map ServerRow.id

def updateServer (s : V) (f : ServerRow V → ServerRow V) : SyncDb V I :=
  { db with servers := db.servers.map fun row => if row.id = s then f row else row }

/-- Close a transaction and release its lock. -/
def endTx (x : Nat) : SyncDb V I :=
  { db with
    pending := fun y => if y = x then none else db.pending y
    lock := fun s => if db.lock s = some x then none else db.lock s }

/-- Make the changes of a transaction visible. -/
def publish (changes : List (I × OutboxChange)) : SyncDb V I :=
  { db with
    outbox := fun id => (db.outbox id).map fun row =>
      changes.foldl (fun row change => if change.1 = id then row.change change.2 else row) row }

def insertRows (targets : List (V × I)) (payload : Option SyncEvent) :
    SyncDb V I :=
  { db with
    outbox := fun id =>
      match targets.find? fun t => t.2 = id with
      | some t => some ⟨t.1, payload, false, none, none, db.version⟩
      | none => db.outbox id }

def writeFile (s : V) (content : Option JsString) : SyncDb V I :=
  { db with files := fun s' => if s' = s then content else db.files s' }

end

end SyncDb

end Db

/-! ## Calls -/

/-- The rows a statement returns and the snapshot it returned them from. -/
structure Snapshot (α : Type) where
  version : Nat
  rows : α

inductive Reply (α : Type) where
  | value (a : α)
  | failed

/-- A lost commit took effect, but the caller sees an error. -/
inductive CommitReply where
  | committed
  | lost
  | failed

inductive ReadReply where
  | content (text : JsString)
  | notFound
  | error

/-- A write takes effect before it returns, with or without an error, or not at all. -/
inductive WriteReply where
  | written
  | lost
  | failed

inductive ReloadOutcome where
  | confirmed
  | failure (code : FailureCode)

/-- Calls that change nothing of the shared state. -/
inductive Aside where
  | publishStatus
  | requestReload
  | audit
  | acknowledge
deriving DecidableEq

/-- The row that the relay has locked, with `deleted_at` of its server. -/
structure ClaimedRow (V I : Type) where
  id : I
  serverId : V
  payload : Option SyncEvent
  serverDeleted : Bool

inductive SyncCall (V I : Type) where
  | lockServer (s : V)
  | getOutbox (x : Nat) (id : I)
  | selectRoles (x : Nat)
  | selectAdmins (x : Nat)
  | selectClanPriority (x : Nat)
  | readServerState (x : Nat) (s : V)
  | updateOutbox (x : Nat) (id : I) (change : OutboxChange)
  | commit (x : Nat)
  | rollback (x : Nat)
  | fileRead (s : V)
  | fileAtomicWrite (s : V) (content : JsString)
  | confirmReload (s : V) (id : I)
  | aside (what : Aside)
  | claimRow (skipped : List I)
  | xadd (s : V) (id : I)
  | selectServers
  | commitMutation (targets : List (V × I)) (tables : Tables) (payload : Option SyncEvent)
deriving DecidableEq

/-- Opening a transaction answers its number. -/
def SyncReply {V I : Type} : SyncCall V I → Type
  | .lockServer _ => Reply Nat
  | .getOutbox _ _ => Reply (Option (OutboxRow V))
  | .selectRoles _ => Reply (Snapshot RolesTable)
  | .selectAdmins _ => Reply (Snapshot AdminsTable)
  | .selectClanPriority _ => Reply (Snapshot ClanPriorityTable)
  | .readServerState _ _ => Reply (Option (ServerRow V))
  | .updateOutbox _ _ _ => Reply Unit
  | .commit _ => CommitReply
  | .rollback _ => Unit
  | .fileRead _ => ReadReply
  | .fileAtomicWrite _ _ => WriteReply
  | .confirmReload _ _ => Reply ReloadOutcome
  | .aside _ => Reply Unit
  | .claimRow _ => Reply (Nat × Option (ClaimedRow V I))
  | .xadd _ _ => Reply Unit
  | .selectServers => Reply (List V)
  | .commitMutation _ _ _ => CommitReply

section Perform
variable {V I : Type} [DecidableEq V] [DecidableEq I]

namespace SyncDb

section
variable (db : SyncDb V I)

/-- A row may be claimed when it waits for the relay and was not skipped. -/
def claimable (skipped : List I) (claimed : ClaimedRow V I) : Bool :=
  match db.outbox claimed.id, db.server claimed.serverId with
  | some row, some server =>
    !row.relayedAt && claimed.id ∉ skipped && row.serverId = claimed.serverId &&
      row.payload = claimed.payload && server.deletedAt = claimed.serverDeleted
  | _, _ => false

/-- New rows need ids that were not used before, and `server_id` references a server. -/
def insertable (targets : List (V × I)) : Bool :=
  (targets.map Prod.snd).Nodup &&
    targets.all fun t => (db.outbox t.2).isNone && (db.server t.1).isSome

/-- A mutation commits its tables together with its outbox rows. -/
def commitMutation (targets : List (V × I)) (tables : Tables)
    (payload : Option SyncEvent) : Option (SyncDb V I) :=
  if db.insertable targets then
    some (insertRows { db with tables := tables, version := db.version + 1 } targets payload)
  else none

def commitTx (x : Nat) : Option (SyncDb V I) :=
  (db.pending x).map fun changes => (db.publish changes).endTx x

def openTx : SyncDb V I :=
  { db with
    pending := fun y => if y = db.nextTx then some [] else db.pending y
    nextTx := db.nextTx + 1 }

/-- `pg_advisory_xact_lock` waits until the lock is free. -/
def lockServer (s : V) : SyncDb V I :=
  { db.openTx with lock := fun s' => if s' = s then some db.nextTx else db.lock s' }

/-- A statement needs an open transaction. -/
def reading (x : Nat) (answer : Prop) [Decidable answer] : Option (SyncDb V I) :=
  if (db.pending x).isSome ∧ answer then some db else none

end

end SyncDb

/-- The state after a call got an answer, when the state admits that answer. -/
def syncPerform : (e : SyncCall V I) → SyncDb V I → SyncReply e → Option (SyncDb V I)
  | .lockServer s, db, .value x =>
    if db.lock s = none ∧ x = db.nextTx then some (db.lockServer s) else none
  | .getOutbox x id, db, .value row => db.reading x (row = db.outbox id)
  | .selectRoles x, db, .value snap =>
    db.reading x (snap.version = db.version ∧ snap.rows = db.tables.roles)
  | .selectAdmins x, db, .value snap =>
    db.reading x (snap.version = db.version ∧ snap.rows = db.tables.admins)
  | .selectClanPriority x, db, .value snap =>
    db.reading x (snap.version = db.version ∧ snap.rows = db.tables.clanPriority)
  | .readServerState x s, db, .value state => db.reading x (state = db.server s)
  | .updateOutbox x id change, db, .value () =>
    (db.pending x).map fun changes =>
      { db with pending := fun y => if y = x then some (changes ++ [(id, change)])
                  else db.pending y }
  | .commit x, db, .committed => db.commitTx x
  | .commit x, db, .lost => db.commitTx x
  | .commit x, db, .failed => some (db.endTx x)
  | .rollback x, db, () => some (db.endTx x)
  | .fileRead s, db, .content text => if db.files s = some text then some db else none
  | .fileRead s, db, .notFound => if db.files s = none then some db else none
  | .fileAtomicWrite s content, db, .written => some (db.writeFile s (some content))
  | .fileAtomicWrite s content, db, .lost => some (db.writeFile s (some content))
  | .claimRow skipped, db, .value (x, claimed) =>
    if x = db.nextTx ∧ claimed.all (db.claimable skipped) then some db.openTx else none
  | .selectServers, db, .value ids => if ids = db.activeServers then some db else none
  | .commitMutation targets tables payload, db, .committed =>
    db.commitMutation targets tables payload
  | .commitMutation targets tables payload, db, .lost =>
    db.commitMutation targets tables payload
  -- a statement that fails and a call that only leaves the process change nothing
  | _, db, _ => some db

/-! ## What happens around the processes -/

inductive SyncMove (V I : Type) where
  | createServer (server : ServerRow V)
  | setStatus (s : V) (status : ServerStatus)
  | softDelete (s : V) (rows : List I)
  | enqueueForServer (s : V) (id : I) (payload : Option SyncEvent)
  | editFile (s : V) (content : Option JsString)
  | abort (x : Nat)

def syncEnvironment : SyncMove V I → SyncDb V I → Option (SyncDb V I)
  | .createServer server, db =>
    if db.server server.id = none then some { db with servers := db.servers ++ [server] } else none
  | .setStatus s status, db => some (db.updateServer s fun row => { row with status := status })
  -- the rows are completed in the transaction that sets `deleted_at`
  | .softDelete s rows, db =>
    some ((db.updateServer s fun row => { row with deletedAt := true }).publish
      ((rows.filter fun id => (db.outbox id).any fun row => row.serverId = s).map fun id =>
        (id, .applied .serverRemoved)))
  | .enqueueForServer s id payload, db =>
    if db.insertable [(s, id)] then some (db.insertRows [(s, id)] payload) else none
  -- operators edit around the managed segment
  | .editFile s content, db =>
    if segmentOf content = segmentOf (db.files s) then some (db.writeFile s content) else none
  -- the connection of a process that is gone
  | .abort x, db => some (db.endTx x)

end Perform

end SquadPanel.AdminsCfg
