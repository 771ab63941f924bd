import SquadPanel.Presence.Sessions

/-!
# The poller of one server

`runFullPoll` and `closeOpenSessions` as far as they touch sessions, one event for
every stretch between two awaits.  `pollInFlight` keeps a roster refresh and a
second poll out while a poll runs; nothing keeps the teardown of a connection out.
-/

namespace SquadPanel.Presence

open Js

structure Target where
  pollIntervalMs : Int
  seedLiveAt : Int
  seedHysteresis : Int

/-- The statement of `reconcilePlayerSessions` that is awaited. -/
inductive ReconcileStage (P E : Type) where
  | resolve
  | close (onlineIds : JsMap P E)
  | select (onlineIds : JsMap P E)
  | insert (toOpen : List (SessionRow P))

/-- How far the poll in flight has come. -/
inductive Poll (P E S : Type) where
  | idle
  | snapshot (pollAt : Int) (players : List (RconPlayer E S))
  | reconcile (input : ReconcileInput E S) (stage : ReconcileStage P E)
  | reconciled (pollAt : Int) (playerCount : Nat)
  | split (occurredAt : Int) (kind : SeedingTransition)

structure ServerPoller (P E S : Type) where
  /-- the latest clock reading -/
  clock : Int
  /-- the server's rows of `player_sessions` -/
  rows : List (SessionRow P)
  rosterFirstSeen : JsMap E Int
  lastSuccessfulPollAt : Option Int
  seedingState : Option SeedingState
  stopped : Bool
  poll : Poll P E S
  /-- the instant of a `closeServerSessions` that is awaited -/
  closing : Option Int

inductive PollerEvent (P E S : Type) where
  /-- `refreshRoster` with a readable roster -/
  | refresh (t : Int) (players : List (RconPlayer E S))
  /-- `runFullPoll` reads the clock after its RCON round trips.  The client was there when it
  began; by now the connection may be gone. -/
  | snapshot (t : Int) (players : List (RconPlayer E S))
  /-- player upserts and kit time are done: `buildRoster`, and the reconcile begins -/
  | build
  /-- the rows of `players` that `resolvePlayerIds` reads, `none` if the query fails -/
  | resolved (rows : Option (List (PlayerRow P E S)))
  | closed (ok : Bool)
  | selected (ok : Bool)
  | inserted (ok : Bool)
  /-- `tickSeeding`; a transition reads the clock again -/
  | tick (t : Int) (seedLayer : Bool)
  | split (ok : Bool)
  /-- the poll ends without a seeding tick -/
  | finish
  /-- `closeOpenSessions` up to its statement -/
  | drop (t : Int)
  | dropClosed (ok : Bool)
  | stop
  /-- a new supervisor takes over, with the seeding state it finds in Redis -/
  | restart (prior : Option SeedingState)

namespace ServerPoller

variable {P E S : Type}

def start (clock : Int) (rows : List (SessionRow P)) (prior : Option SeedingState) :
    ServerPoller P E S where
  clock := clock
  rows := rows
  rosterFirstSeen := .empty
  lastSuccessfulPollAt := none
  seedingState := prior
  stopped := false
  poll := .idle
  closing := none

section
variable (s : ServerPoller P E S)

/-- The clock never goes back. -/
def read (t : Int) : Option (ServerPoller P E S) :=
  if s.clock ≤ t then some { s with clock := t } else none

def sessionMode : SessionMode :=
  if s.seedingState.map (·.state) = some .seeding then .seed else .online

/-- What follows the reconcile, whether or not its statements succeeded. -/
def endReconcile (pollAt : Int) (playerCount : Nat) :
    ServerPoller P E S :=
  { s with lastSuccessfulPollAt := some pollAt, poll := .reconciled pollAt playerCount }

def withStage (input : ReconcileInput E S)
    (stage : ReconcileStage P E) : ServerPoller P E S :=
  { s with poll := .reconcile input stage }

def withRows (rows : List (SessionRow P)) : ServerPoller P E S :=
  { s with rows := rows }

end

variable [DecidableEq P] [DecidableEq E] [DecidableEq S] (target : Target) (s : ServerPoller P E S)

def buildStep (pollAt : Int)
    (players : List (RconPlayer E S)) : ServerPoller P E S :=
  let firstSeen := buildRoster players s.rosterFirstSeen pollAt
  let s := { s with rosterFirstSeen := firstSeen }
  if s.stopped then s.endReconcile pollAt players.length
  else
    s.withStage
      { onlinePlayers := players
        pollAt := pollAt
        firstSeenByEosId := firstSeen
        mode := s.sessionMode
        pollIntervalMs := target.pollIntervalMs } .resolve

/-- The answer to the awaited statement of the reconcile; an error ends it. -/
def reconcileStep (input : ReconcileInput E S) :
    ReconcileStage P E → PollerEvent P E S → Option (ServerPoller P E S)
  | .resolve, .resolved none => some (s.endReconcile input.pollAt input.onlinePlayers.length)
  | .resolve, .resolved (some rows) =>
    some (s.withStage input (.close (resolvePlayerIds rows input.onlinePlayers)))
  | .close onlineIds, .closed ok =>
    if ok then
      let s := s.withRows (closeAbsent input.pollAt onlineIds s.rows)
      if onlineIds.entries = [] then
        some (s.endReconcile input.pollAt input.onlinePlayers.length)
      else some (s.withStage input (.select onlineIds))
    else some (s.endReconcile input.pollAt input.onlinePlayers.length)
  | .select onlineIds, .selected ok =>
    if ok ∧ toOpen input onlineIds s.rows ≠ [] then
      some (s.withStage input (.insert (toOpen input onlineIds s.rows)))
    else some (s.endReconcile input.pollAt input.onlinePlayers.length)
  | .insert new, .inserted ok =>
    let s := if ok then s.withRows (s.rows ++ new) else s
    some (s.endReconcile input.pollAt input.onlinePlayers.length)
  | _, _ => none

def tickStep (pollAt : Int) (playerCount : Nat)
    (t : Int) (seedLayer : Bool) : ServerPoller P E S :=
  let (state, transition) := computeSeedingTick s.seedingState
    { playerCount := playerCount
      seedLayer := seedLayer
      liveAt := target.seedLiveAt
      hysteresis := target.seedHysteresis
      now := pollAt }
  { s with
    seedingState := some state
    poll := match transition with
      | none => .idle
      | some kind => .split t kind }

def closeOpenSessions : ServerPoller P E S :=
  { s with
    closing := some (s.lastSuccessfulPollAt.getD s.clock)
    lastSuccessfulPollAt := none
    rosterFirstSeen := .empty }

def step (event : PollerEvent P E S) :
    Option (ServerPoller P E S) :=
  match event, s.poll with
  | .refresh t players, .idle => do
    let s ← s.read t
    pure { s with rosterFirstSeen := buildRoster players s.rosterFirstSeen t }
  | .snapshot t players, .idle => do
    let s ← s.read t
    pure { s with poll := .snapshot t players }
  | .build, .snapshot pollAt players => some (s.buildStep target pollAt players)
  | .tick t seedLayer, .reconciled pollAt playerCount =>
    if s.stopped then none
    else do
      let s ← s.read t
      pure (s.tickStep target pollAt playerCount t seedLayer)
  | .finish, .reconciled _ _ => some { s with poll := .idle }
  | .split ok, .split occurredAt kind =>
    let rows :=
      if ok then splitOpenSessionsAtSeedingTransition occurredAt kind s.rows else s.rows
    some { s with rows := rows, poll := .idle }
  | .drop t, _ =>
    if s.closing = none then (s.read t).map closeOpenSessions else none
  | .dropClosed ok, _ =>
    s.closing.map fun closedAt =>
      { s with
        rows := if ok then closeServerSessions closedAt s.rows else s.rows
        closing := none }
  | .stop, _ => some { s with stopped := true }
  | .restart prior, _ => some (.start s.clock s.rows prior)
  | event, .reconcile input stage => s.reconcileStep input stage event
  | _, _ => none

def run (events : List (PollerEvent P E S)) :
    Option (ServerPoller P E S) :=
  events.foldlM (step target) s

end ServerPoller

end SquadPanel.Presence
