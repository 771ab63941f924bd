import SquadPanel.Js.Buffer
import SquadPanel.Lib.Interleave

/-!
# Versioned config writes

`writeVersion` of `apps/api/src/lib/server-configs/write.ts`, for the calls on
one file of one server.  The rows of `config_versions` are those of that file,
and a statement sees the committed rows with those of its own transaction.  An
advisory lock goes with the transaction that holds it.

Any statement may fail, the connection of a transaction may be lost at any
time, and the caller of the bridge or of a commit may get an error for what has
been done.
-/

namespace SquadPanel.Configs

open Js Lib
open Prog (await)

/-! ## Files -/

inductive AllowedConfigFile where
  | admins | bans | customOptions | excludedFactions | excludedLayers | excludedLevels
  | layerRotation | layerVoting | layerVotingLowPlayers | layerVotingNight | levelRotation
  | license | motd | rcon | remoteAdminListHosts | remoteBanListHosts | server | serverMessages
  | voteConfig
deriving Repr, DecidableEq

def AllowedConfigFile.text : AllowedConfigFile → JsString
  | .admins => js "Admins.cfg"
  | .bans => js "Bans.cfg"
  | .customOptions => js "CustomOptions.cfg"
  | .excludedFactions => js "ExcludedFactions.cfg"
  | .excludedLayers => js "ExcludedLayers.cfg"
  | .excludedLevels => js "ExcludedLevels.cfg"
  | .layerRotation => js "LayerRotation.cfg"
  | .layerVoting => js "LayerVoting.cfg"
  | .layerVotingLowPlayers => js "LayerVotingLowPlayers.cfg"
  | .layerVotingNight => js "LayerVotingNight.cfg"
  | .levelRotation => js "LevelRotation.cfg"
  | .license => js "License.cfg"
  | .motd => js "MOTD.cfg"
  | .rcon => js "Rcon.cfg"
  | .remoteAdminListHosts => js "RemoteAdminListHosts.cfg"
  | .remoteBanListHosts => js "RemoteBanListHosts.cfg"
  | .server => js "Server.cfg"
  | .serverMessages => js "ServerMessages.cfg"
  | .voteConfig => js "VoteConfig.cfg"

inductive ConfigFileClass where
  | hotReload
  | rotation
  | requiresRestart
deriving Repr, DecidableEq

def HOT_RELOAD_FILES : List AllowedConfigFile :=
  [.admins, .bans, .remoteAdminListHosts, .remoteBanListHosts]

def ROTATION_FILES : List AllowedConfigFile :=
  [.layerRotation, .levelRotation, .excludedLayers, .excludedLevels, .excludedFactions,
    .layerVoting, .layerVotingLowPlayers, .layerVotingNight, .voteConfig]

def configFileClass (name : AllowedConfigFile) : ConfigFileClass :=
  if name ∈ HOT_RELOAD_FILES then .hotReload
  else if name ∈ ROTATION_FILES then .rotation
  else .requiresRestart

/-- Hashing, and the rendering of a file without its secrets. -/
structure ConfigHost where
  sha256 : JsString → List UInt8
  maskConfigSecrets : AllowedConfigFile → JsString → JsString

def hex (bytes : List UInt8) : JsString := utf16Encode (hexText bytes)

/-! ## Rows and answers -/

structure NewVersion where
  content : JsString
  sha256 : List UInt8
  parentVersionId : Option JsString
  authorPlayerId : Option JsString
  authorLabel : Option JsString
  authorIp : Option JsString
  message : Option JsString
deriving Repr, DecidableEq

structure VersionRow extends NewVersion where
  id : JsString
  createdAt : Int
deriving Repr, DecidableEq

inductive ReloadVia where
  | rcon
  | workerRcon
deriving Repr, DecidableEq

inductive ReloadReason where
  | notRunning
  | noCredentials
  | rconFailed
  | notHotReload
deriving Repr, DecidableEq

inductive ReloadOutcome where
  | applied (via : ReloadVia) (command response : JsString) (requestId : Option JsString)
  | notApplied (reason : ReloadReason) (detail : Option JsString)
deriving Repr, DecidableEq

inductive ConfigError where
  | serverNotFound
  | rconRefused
  | failed
deriving Repr, DecidableEq

inductive PersistResponse where
  | unchanged (diskRepaired : Bool) (previousSha256 sha256 : JsString) (behavior : ConfigFileClass)
  | inserted (versionId : JsString) (previousSha256 : Option JsString) (sha256 : JsString)
      (createdAt : Int) (behavior : ConfigFileClass)
deriving Repr, DecidableEq

structure WriteRequest where
  content : JsString
  message : Option JsString
  authorPlayerId : Option JsString
  authorIp : Option JsString
  force : Bool
deriving Repr, DecidableEq

/-! ## Calls -/

abbrev TxId := Nat

inductive ConfigCall where
  | unmaskRconPassword (content : JsString)
  | assertRconCredentialsUnchanged (content : JsString)
  | begin
  | advisoryXactLock (tx : TxId) (key : JsString)
  | selectServer (tx : TxId)
  | selectTip (tx : TxId)
  | insertVersion (tx : TxId) (row : NewVersion)
  | commit (tx : TxId)
  | rollback (tx : TxId)
  | fileRead
  | fileAtomicWrite (content : JsString)
  | reloadServerConfig
deriving DecidableEq

/-- `lost` is an error for something that has been done. -/
inductive EffectReply where
  | done
  | refused
  | lost
deriving Repr, DecidableEq

/-- `none` is an error.  A transaction starts at a time that its statements see as `now()`. -/
abbrev ConfigReply : ConfigCall → Type
  | .unmaskRconPassword _ => Option JsString
  | .assertRconCredentialsUnchanged _ => Option Unit
  | .begin => Option (TxId × Int)
  | .advisoryXactLock _ _ => Option Unit
  | .selectServer _ => Option Bool
  | .selectTip _ => Option (Option (JsString × List UInt8))
  | .insertVersion _ _ => Option (JsString × Int)
  | .commit _ | .fileAtomicWrite _ => EffectReply
  | .rollback _ => Option Unit
  | .fileRead => Option JsString
  | .reloadServerConfig => ReloadOutcome

abbrev ConfigM := ExceptT ConfigError (Prog ConfigCall ConfigReply)

variable {α : Type}

def orFail (error : ConfigError) : Option α → Except ConfigError α
  | some a => .ok a
  | none => .error error

def EffectReply.toExcept : EffectReply → Except ConfigError Unit
  | .done => .ok ()
  | .refused | .lost => .error .failed

/-! ## The programs -/

/-- `db.transaction`. -/
def transaction (work : TxId → ConfigM α) : ConfigM α := do
  let opened ← await .begin (orFail .failed)
  let result ← tryCatch (work opened.1) fun error => do
    await (.rollback opened.1) fun _ => .ok ()
    throw error
  await (.commit opened.1) EffectReply.toExcept
  return result

def withAdvisoryLock (key : JsString) (work : TxId → ConfigM α) : ConfigM α :=
  transaction fun tx => do
    await (.advisoryXactLock tx key) (orFail .failed)
    work tx

def withConfigFileLock (serverId : JsString) (name : AllowedConfigFile)
    (work : TxId → ConfigM α) : ConfigM α :=
  withAdvisoryLock (js "config-write:" ++ serverId ++ js ":" ++ name.text) work

def withAdminsCfgServerLock (serverId : JsString) (work : TxId → ConfigM α) :
    ConfigM α :=
  withAdvisoryLock (js "admins-cfg-sync:" ++ serverId) work

variable (host : ConfigHost) (serverId : JsString) (name : AllowedConfigFile)
  (diskContent : JsString)

/-- The tip has the content already: the file on disk is brought to it. -/
def repairDisk (force : Bool) (prevSha : List UInt8) :
    ConfigM (Bool × PersistResponse) := do
  let onDisk ← await .fileRead fun r => .ok r
  let diskInSync := onDisk.any fun content => host.sha256 content == host.sha256 diskContent
  let wroteDisk := force || !diskInSync
  let response := PersistResponse.unchanged (!diskInSync) (hex prevSha)
    (hex (host.sha256 diskContent)) (configFileClass name)
  if wroteDisk then do
    await (.fileAtomicWrite diskContent) EffectReply.toExcept
    return (wroteDisk, response)
  else return (wroteDisk, response)

/-- A new version goes into the table and onto the disk. -/
def insertAndWrite (tx : TxId) (diskContent : JsString) (request : WriteRequest)
    (prev : Option (JsString × List UInt8)) : ConfigM (Bool × PersistResponse) := do
  let inserted ← await
    (.insertVersion tx
      { content := host.maskConfigSecrets name diskContent
        sha256 := host.sha256 diskContent
        parentVersionId := prev.map (·.1)
        authorPlayerId := request.authorPlayerId
        authorLabel := if request.authorPlayerId.any (· ≠ []) then none else some (js "system")
        authorIp := request.authorIp
        message := request.message })
    (orFail .failed)
  await (.fileAtomicWrite diskContent) EffectReply.toExcept
  return (true, .inserted inserted.1 (prev.map fun row => hex row.2)
    (hex (host.sha256 diskContent)) inserted.2 (configFileClass name))

def persistVersion (request : WriteRequest) (tx : TxId) :
    ConfigM (Bool × PersistResponse) := do
  let live ← await (.selectServer tx) (orFail .failed)
  if live then do
    let prev ← await (.selectTip tx) (orFail .failed)
    match prev with
    | some (id, sha) =>
      if sha = host.sha256 diskContent then repairDisk host name diskContent request.force sha
      else insertAndWrite host name tx diskContent request (some (id, sha))
    | none => insertAndWrite host name tx diskContent request none
  else throw .serverNotFound

/-- The bytes for the disk. -/
def resolveDiskContent (content : JsString) : ConfigM JsString :=
  if name = .rcon then do
    let diskContent ← await (.unmaskRconPassword content) (orFail .rconRefused)
    await (.assertRconCredentialsUnchanged diskContent) (orFail .rconRefused)
    return diskContent
  else return content

/-- `Admins.cfg` shares its lock with config-sync. -/
def withFileLock {α : Type} (work : TxId → ConfigM α) : ConfigM α :=
  if name = .admins then withAdminsCfgServerLock serverId work
  else withConfigFileLock serverId name work

/-- The response carries a reload outcome when the disk was written. -/
def writeVersion (request : WriteRequest) : ConfigM (PersistResponse × Option ReloadOutcome) := do
  let diskContent ← resolveDiskContent name request.content
  let persisted ← withFileLock serverId name (persistVersion host name diskContent request)
  if persisted.1 then
    if configFileClass name = .hotReload then do
      let reload ← await .reloadServerConfig fun r => .ok r
      return (persisted.2, some reload)
    else return (persisted.2, some (.notApplied .notHotReload none))
  else return (persisted.2, none)

/-! ## The database and the disk -/

structure OpenTx where
  startedAt : Int
  inserted : List VersionRow
deriving Repr, DecidableEq

structure ConfigDb where
  serverLive : Bool
  versions : List VersionRow
  disk : Option JsString
  locks : JsString → Option TxId
  txs : TxId → Option OpenTx
  nextTx : TxId

/-- `ORDER BY created_at DESC LIMIT 1` gives one of the latest rows. -/
def IsTip (rows : List VersionRow) : Option (JsString × List UInt8) → Prop
  | none => rows = []
  | some (id, sha) =>
    ∃ row ∈ rows, row.id = id ∧ row.sha256 = sha ∧ ∀ row' ∈ rows, row'.createdAt ≤ row.createdAt

instance (rows : List VersionRow) (answer : Option (JsString × List UInt8)) :
    Decidable (IsTip rows answer) := by
  unfold IsTip
  split <;> infer_instance

/-- What moves besides the calls: the server ends a transaction whose connection is gone, and the
panel deletes or restores the game server. -/
inductive ConfigMove where
  | abort (tx : TxId)
  | setServerLive (live : Bool)
deriving Repr, DecidableEq

namespace ConfigDb

section
variable (db : ConfigDb) (tx : TxId)

def setTx (state : Option OpenTx) : ConfigDb :=
  { db with txs := fun y => if y = tx then state else db.txs y }

/-- The locks of a transaction go with it. -/
def endTx : ConfigDb :=
  { db.setTx tx none with
    locks := fun key => if db.locks key = some tx then none else db.locks key }

def lock (key : JsString) : ConfigDb :=
  { db with locks := fun key' => if key' = key then some tx else db.locks key' }

def insert (opened : OpenTx) (row : VersionRow) : ConfigDb :=
  db.setTx tx (some { opened with inserted := opened.inserted ++ [row] })

def commit (opened : OpenTx) : ConfigDb :=
  { db.endTx tx with versions := db.versions ++ opened.inserted }

end

/-- `none` when the call cannot be answered so; a statement of a transaction that is gone can only
fail. -/
def perform : (e : ConfigCall) → ConfigDb → ConfigReply e → Option ConfigDb
  | .begin, db, some (tx, startedAt) =>
    if tx = db.nextTx then some { db.setTx tx (some ⟨startedAt, []⟩) with nextTx := tx + 1 }
    else none
  | .advisoryXactLock tx key, db, some () =>
    (db.txs tx).bind fun _ =>
      if db.locks key = none ∨ db.locks key = some tx then some (db.lock tx key) else none
  | .selectServer tx, db, some live =>
    (db.txs tx).bind fun _ => if live = db.serverLive then some db else none
  | .selectTip tx, db, some answer =>
    (db.txs tx).bind fun opened =>
      if IsTip (db.versions ++ opened.inserted) answer then some db else none
  | .insertVersion tx new, db, some (id, createdAt) =>
    (db.txs tx).bind fun opened =>
      if createdAt = opened.startedAt ∧ id ∉ (db.versions ++ opened.inserted).map (·.id) then
        some (db.insert tx opened { new with id, createdAt })
      else none
  | .commit tx, db, .refused => some (db.endTx tx)
  | .commit tx, db, .done | .commit tx, db, .lost =>
    (db.txs tx).map fun opened => db.commit tx opened
  | .rollback tx, db, some () => some (db.endTx tx)
  | .fileRead, db, some content => if db.disk = some content then some db else none
  | .fileAtomicWrite content, db, .done | .fileAtomicWrite content, db, .lost =>
    some { db with disk := some content }
  | _, db, _ => some db

def move : ConfigMove → ConfigDb → Option ConfigDb
  | .abort tx, db => some (db.endTx tx)
  | .setServerLive live, db => some { db with serverLive := live }

end ConfigDb

def configSystem :
    System ConfigCall ConfigReply WriteRequest ConfigDb ConfigMove where
  body request := do
    let _ ← (writeVersion host serverId name request).run
  perform := ConfigDb.perform
  environment := ConfigDb.move

end SquadPanel.Configs
