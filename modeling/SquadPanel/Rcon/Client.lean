import SquadPanel.Rcon.PacketStream

/-!
# The RCON client

`RconClient` of `apps/workers/rcon/src/client.ts` once it is connected and
authenticated: the serial queue of `exec`, the ids of a command and its probe,
the packet stream, the map of pending commands, and every event that can reach
them.  The client keeps a log of what was sent, received and settled, which the
results are about.
-/

namespace SquadPanel.Rcon

open Js

/-! ## State -/

/-- Why an `exec` rejects. -/
inductive ExecError
  | closed
  | notConnected
  | socketClosed
  | timeout (command : JsString)
  | outOfRange (id : Int)
  deriving DecidableEq

def ExecError.message : ExecError → JsString
  | closed => js "rcon closed"
  | notConnected => js "rcon not connected"
  | socketClosed => js "rcon socket closed"
  | timeout command => js "rcon exec timeout: " ++ command
  | outOfRange id =>
    js "The value of \"value\" is out of range. It must be >= -2147483648 and <= 2147483647. Received "
      ++ intText id

/-- An entry of the pending map, with the number of its `exec` call. -/
structure PendingCommand where
  call : Nat
  command : JsString
  id : Int
  probeId : Int
  chunks : List JsString
  deriving DecidableEq

/-- What happened, in order. -/
inductive LogEntry
  | sent (call : Nat) (id probeId : Int)
  | received (packet : RconPacket)
  | resolved (call : Nat) (value : JsString)
  | rejected (call : Nat) (error : ExecError)
  deriving DecidableEq

structure RconClient where
  nextId : Int
  stream : RconPacketStream := ({}, [])
  /-- the map in insertion order, keyed by `probeId` -/
  pending : List PendingCommand := []
  closed : Bool := false
  socket : Bool := true
  /-- `exec` calls whose turn has not come -/
  queue : List (Nat × JsString) := []
  /-- the `exec` call whose promise is not settled -/
  running : Option Nat := none
  calls : Nat := 0
  log : List LogEntry := []
  deriving DecidableEq

namespace RconClient

/-! ## Events -/

/-- A promise settles once. -/
def settle (c : RconClient) (call : Nat) (entry : LogEntry) : RconClient :=
  if c.running = some call then { c with running := none, log := c.log ++ [entry] } else c

/-- `Buffer.writeInt32LE` accepts the value. -/
def fitsInt32 (n : Int) : Bool := -2147483648 ≤ n && n ≤ 2147483647

def execNow (c : RconClient) (call : Nat) (command : JsString) : RconClient :=
  if c.closed then c.settle call (.rejected call .closed)
  else if !c.socket then c.settle call (.rejected call .notConnected)
  else
    let id := c.nextId + 1
    let probeId := c.nextId + 2
    let c' := { c with
      nextId := c.nextId + 2
      pending := c.pending ++ [⟨call, command, id, probeId, []⟩]
      log := c.log ++ [.sent call id probeId] }
    -- `encodePacket` throws on an id it cannot write; the map entry stays
    if !fitsInt32 id then c'.settle call (.rejected call (.outOfRange id))
    else if !fitsInt32 probeId then c'.settle call (.rejected call (.outOfRange probeId))
    else c'

/-- The loop over the pending map in `handlePacket`. -/
def deliver (p : RconPacket) : List PendingCommand → List PendingCommand × Option (Nat × JsString)
  | [] => ([], none)
  | q :: rest =>
    if p.id = q.probeId then (rest, some (q.call, q.chunks.flatten))
    else if p.id = q.id then ({ q with chunks := q.chunks ++ [p.body] } :: rest, none)
    else (q :: (deliver p rest).1, (deliver p rest).2)

section
variable (c : RconClient)

def handlePacket (p : RconPacket) : RconClient :=
  if p.type = SERVERDATA_CHAT_VALUE then c
  else if p.type ≠ SERVERDATA_RESPONSE_VALUE then c
  else
    let c' := { c with pending := (deliver p c.pending).1 }
    match (deliver p c.pending).2 with
    | none => c'
    | some (call, value) => c'.settle call (.resolved call value)

/-- The timer of a pending command. -/
def onTimeout (q : PendingCommand) : RconClient :=
  { c with pending := c.pending.filter fun x => x.probeId ≠ q.probeId ∧ x.probeId ≠ q.id }.settle
    q.call (.rejected q.call (.timeout q.command))

/-- Reject everything that is pending. -/
def rejectPending (error : ExecError) : RconClient :=
  { c.pending.foldl (fun c q => c.settle q.call (.rejected q.call error)) c with pending := [] }

def close : RconClient :=
  { c.rejectPending .closed with closed := true, socket := false }

def receive (p : RconPacket) : RconClient :=
  handlePacket { c with log := c.log ++ [.received p] } p

/-- The `data` handler: a decoding error closes the client. -/
def onData (chunk : List UInt8) : RconClient :=
  match push c.stream chunk with
  | .ok (packets, stream) => packets.foldl receive { c with stream }
  | .error _ => c.close

end

/-- Everything that can happen to a connected client. -/
inductive ClientEvent
  | exec (command : JsString)
  /-- the promise queue reaches the next `exec` -/
  | turn
  | data (chunk : List UInt8)
  | timeout (probeId : Int)
  | close
  | socketClose

def step (c : RconClient) : ClientEvent → RconClient
  | .exec command => { c with queue := c.queue ++ [(c.calls, command)], calls := c.calls + 1 }
  | .turn => match c.running, c.queue with
    | none, (call, command) :: queue =>
      execNow { c with queue, running := some call } call command
    | _, _ => c
  | .data chunk => if c.socket then c.onData chunk else c
  | .timeout probeId => match c.pending.find? (·.probeId = probeId) with
    | some q => c.onTimeout q
    | none => c
  | .close => c.close
  | .socketClose => { c.rejectPending .socketClosed with socket := false }

/-- A client as `connect` leaves it, when `nextId` is the last id used. -/
def connected (nextId : Int) : RconClient := { nextId }

def run (c : RconClient) (events : List ClientEvent) : RconClient := events.foldl step c

end RconClient

end SquadPanel.Rcon
