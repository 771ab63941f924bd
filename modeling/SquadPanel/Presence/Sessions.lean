import SquadPanel.Js.Map
import SquadPanel.Presence.Seeding
import Mathlib.Data.List.Pairwise

/-!
# Presence sessions

The statements that write `player_sessions`, on the rows of one server: the poll's
reconcile, the split at a seeding transition and the close when the connection goes
away.  Instants are milliseconds; a roster's ISO texts are the instants they name.
-/

namespace SquadPanel.Presence

open Js

inductive SessionMode where
  | online
  | boost
  | queue
  | seed
deriving DecidableEq, Repr

inductive ClosedReason where
  | disconnect
  | serverCrashed
  | kicked
  | banned
deriving DecidableEq, Repr

/-- A row of `player_sessions`. -/
structure SessionRow (P : Type) where
  playerId : P
  connectedAt : Int
  disconnectedAt : Option Int
  durationSeconds : Option Int
  closedReason : Option ClosedReason
  mode : SessionMode
deriving DecidableEq, Repr

/-- A roster line of `ListPlayers`. -/
structure RconPlayer (E S : Type) where
  eosId : E
  steamId64 : Option S
deriving DecidableEq, Repr

/-- A row of `players`, as far as identities go. -/
structure PlayerRow (P E S : Type) where
  id : P
  eosId : Option E
  steamId64 : Option S
deriving DecidableEq, Repr

variable {P E S : Type}

/-- A row that has just been inserted. -/
def SessionRow.opened (playerId : P) (connectedAt : Int) (mode : SessionMode) : SessionRow P where
  playerId := playerId
  connectedAt := connectedAt
  disconnectedAt := none
  durationSeconds := none
  closedReason := none
  mode := mode

def closedDurationSeconds (closedAt : Int) (row : SessionRow P) : Int :=
  max 0 ((closedAt - row.connectedAt) / 1000)

def SessionRow.closed (row : SessionRow P) (closedAt : Int) (reason : Option ClosedReason) :
    SessionRow P :=
  { row with
    disconnectedAt := some closedAt
    durationSeconds := some (closedDurationSeconds closedAt row)
    closedReason := reason }

/-! ## The roster -/

/-- The `firstSeen` map of `buildRoster`: a player seen before keeps their instant. -/
def buildRoster [DecidableEq E] (players : List (RconPlayer E S)) (previousFirstSeen : JsMap E Int)
    (polledAt : Int) : JsMap E Int :=
  JsMap.ofEntries (players.map fun player =>
    (player.eosId, (previousFirstSeen.get player.eosId).getD polledAt))

section Resolve

variable [DecidableEq E] [DecidableEq S]

/-- The player an entry stands for: by EOS id, else by Steam id.  The `WHERE` clause of the
query leaves out only rows that carry neither. -/
def resolvePlayerId (rows : List (PlayerRow P E S)) (p : RconPlayer E S) : Option P :=
  let byEos := JsMap.ofEntries (rows.filterMap fun r => r.eosId.map (·, r.id))
  let bySteam := JsMap.ofEntries (rows.filterMap fun r => r.steamId64.map (·, r.id))
  match byEos.get p.eosId with
  | some id => some id
  | none => p.steamId64.bind bySteam.get

variable [DecidableEq P]

/-- Resolves roster entries to `players.id`, keyed by id → the entry's `eos_id`. -/
def resolvePlayerIds (rows : List (PlayerRow P E S)) (roster : List (RconPlayer E S)) :
    JsMap P E :=
  JsMap.ofEntries (roster.filterMap fun p => (resolvePlayerId rows p).map (·, p.eosId))

end Resolve

/-! ## `reconcilePlayerSessions` -/

def MAX_BACKDATE_POLL_INTERVALS : Int := 2

def connectedAtFor (firstSeenAt : Option Int) (earliestMs pollAt : Int) : Int :=
  match firstSeenAt with
  | none => pollAt
  | some firstSeenMs => min pollAt (max earliestMs firstSeenMs)

structure ReconcileInput (E S : Type) where
  onlinePlayers : List (RconPlayer E S)
  pollAt : Int
  firstSeenByEosId : JsMap E Int
  mode : SessionMode
  pollIntervalMs : Int

/-- The `UPDATE` that closes the open sessions of players who are not on the roster. -/
def closeAbsent [DecidableEq P] (pollAt : Int) (onlineIds : JsMap P E)
    (rows : List (SessionRow P)) : List (SessionRow P) :=
  rows.map fun r =>
    if r.disconnectedAt = none ∧ r.playerId ∉ onlineIds.keys then
      r.closed pollAt (some .disconnect)
    else r

/-- The sessions to insert, given the rows the `SELECT` of open sessions sees. -/
def toOpen [DecidableEq P] [DecidableEq E] (input : ReconcileInput E S) (onlineIds : JsMap P E)
    (rows : List (SessionRow P)) : List (SessionRow P) :=
  let alreadyOpen := (rows.filter fun r => r.disconnectedAt = none).map (·.playerId)
  let earliestMs := input.pollAt - MAX_BACKDATE_POLL_INTERVALS * input.pollIntervalMs
  (onlineIds.entries.filter fun entry => entry.1 ∉ alreadyOpen).map fun entry =>
    .opened entry.1 (connectedAtFor (input.firstSeenByEosId.get entry.2) earliestMs input.pollAt)
      input.mode

/-! ## The other two writers -/

def closeServerSessions (closedAt : Int) (rows : List (SessionRow P)) : List (SessionRow P) :=
  rows.map fun r =>
    if r.disconnectedAt = none then r.closed closedAt (some .disconnect) else r

def SeedingTransition.targetMode : SeedingTransition → SessionMode
  | .started => .seed
  | .ended => .online

/-- `sourceMode`: which rows the transition moves. -/
def SeedingTransition.moves : SeedingTransition → SessionMode → Bool
  | .started, mode => mode = .online ∨ mode = .boost
  | .ended, mode => mode = .seed

/-- The rows the `closed` part of the statement selects. -/
def splits (occurredAt : Int) (kind : SeedingTransition) (r : SessionRow P) : Bool :=
  r.disconnectedAt = none ∧ r.connectedAt < occurredAt ∧ kind.moves r.mode

/-- One statement: its parts all see the rows as they were before it. -/
def splitOpenSessionsAtSeedingTransition (occurredAt : Int) (kind : SeedingTransition)
    (rows : List (SessionRow P)) : List (SessionRow P) :=
  (rows.map fun r =>
    if splits occurredAt kind r then r.closed occurredAt r.closedReason
    else if r.disconnectedAt = none ∧ occurredAt ≤ r.connectedAt ∧ kind.moves r.mode then
      { r with mode := kind.targetMode }
    else r) ++
  (rows.filter (splits occurredAt kind)).map fun r =>
    .opened r.playerId occurredAt kind.targetMode

end SquadPanel.Presence
