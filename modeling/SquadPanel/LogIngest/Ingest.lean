import SquadPanel.Js.Number
import SquadPanel.Lib.Correlate

/-!
# Connecting players in the server log

`apps/workers/log-ingest/src/parser/patterns.ts` and `ingest.ts`: a connecting player leaves
three lines in the log, with the remote address, the name and the ids.  Nothing in the lines says
that they belong together; the ingestor pairs them through two queues.

The patterns run on messages, which have no line terminators, so `.` is any code unit.
-/

namespace SquadPanel.LogIngest.Parser

open Js Lib

/-! ## Patterns -/

/-- The rest after a literal. -/
def literal (text : String) (s : JsString) : Option JsString :=
  if (js text).isPrefixOf s then some (s.drop (js text).length) else none

/-- `[…]{n}`, with the rest. -/
def repeated (inClass : UInt16 → Bool) (n : Nat) (s : JsString) : Option (JsString × JsString) :=
  if (s.take n).length = n ∧ (s.take n).all inClass then some (s.take n, s.drop n) else none

/-- `.*` before `rest`. -/
def greedy {α : Type} (rest : JsString → Option α) (s : JsString) : Option α :=
  s.tails.reverse.findSome? rest

/-- `.*?` before `rest`, and the search for the first match. -/
def lazily {α : Type} (rest : JsString → Option α) (s : JsString) : Option α :=
  s.tails.findSome? rest

/-- `[a-f0-9]` -/
def isLowerHex (u : UInt16) : Bool := (0x61 ≤ u && u ≤ 0x66) || isDigit u

/-- `\d{1,3}` where no digit can follow. -/
def octet (s : JsString) : Option (JsString × JsString) :=
  let digits := s.takeWhile isDigit
  if 1 ≤ digits.length ∧ digits.length ≤ 3 then some (digits, s.drop digits.length) else none

/-- `\d{1,3}(?:\.\d{1,3}){3}` -/
def dottedQuad (s : JsString) : Option (JsString × JsString) := do
  let (a, s) ← octet s
  let (b, s) ← octet (← literal "." s)
  let (c, s) ← octet (← literal "." s)
  let (d, s) ← octet (← literal "." s)
  some (a ++ js "." ++ b ++ js "." ++ c ++ js "." ++ d, s)

variable (message : JsString)

def BEACON_BIND : Option JsString := do
  let port ← literal "Created socket for bind address: 0.0.0.0:" message
  if port.all isDigit ∧ 4 ≤ port.length ∧ port.length ≤ 5 then some port else none

def PLAYER_JOIN_SUCCEEDED : Option JsString := do
  let name ← literal "Join succeeded: " message
  if name = [] then none else some name

/-- The ids of an EOS and a Steam account. -/
def PLAYER_EOS_CONNECTION : JsString → Option (JsString × JsString) :=
  lazily fun s => do
    let s ← (literal "EOS Connection" s).or (literal "EOSNet" s)
    s |> lazily fun s => do
      let (eosId, s) ← repeated isLowerHex 32 (← literal "EOS:" s)
      s |> greedy fun s => do
        let (steamId64, _) ← repeated isDigit 17 (← literal "Steam:" s)
        some (eosId, steamId64)

/-- `(?:EOS:([a-f0-9]{32})\|STEAM:)?(\d{17})` -/
def uniqueId (s : JsString) : Option (Option JsString × JsString) :=
  let both : Option (Option JsString × JsString) := do
    let (eosId, s) ← repeated isLowerHex 32 (← literal "EOS:" s)
    let (steamId64, _) ← repeated isDigit 17 (← literal "|STEAM:" s)
    some (some eosId, steamId64)
  both.or ((repeated isDigit 17 s).map fun matched => (none, matched.1))

def PLAYER_DISCONNECT : Option (Option JsString × JsString) := do
  let s ← literal "UChannel::Close: " message
  -- `.+` takes at least one unit
  s.tail |> greedy fun s => do uniqueId (← literal "UniqueId: " s)

def PLAYER_REMOTE_ADDR : Option JsString := do
  let s ← literal "AddClientConnection: Added client connection: [UNetConnection] RemoteAddr: "
    message
  let (ip, s) ← dottedQuad s
  let s ← literal ":" s
  if s.head?.any isDigit then some ip else none

/-! ## The ingestor -/

/-- A line that `parseLine` accepts; `ts` is its time in milliseconds. -/
structure LogLine where
  category : JsString
  message : JsString
  ts : Int

/-- The type of an event with its payload. -/
inductive Payload where
  | serverReady (port : Nat)
  | playerConnected (name eosId steamId64 : JsString) (ip : Option JsString)
  | playerDisconnected (eosId : Option JsString) (steamId64 : JsString)
  deriving DecidableEq

structure EventEnvelope where
  serverId : JsString
  ts : Int
  payload : Payload
  deriving DecidableEq

structure PendingJoin where
  name : JsString
  ts : Int
  ip : Option JsString

structure PendingIp where
  ip : JsString
  ts : Int

structure LogIngestor where
  serverId : JsString
  beaconPort : Nat
  joinCorrelationWindowMs : Int
  pendingJoins : List PendingJoin
  pendingIps : List PendingIp

def MAX_PENDING_CORRELATIONS : Nat := 64

/-- `new LogIngestor(…)`, with the default window. -/
def LogIngestor.create (serverId : JsString) (beaconPort : Nat)
    (joinCorrelationWindowMs : Option Int) : LogIngestor where
  serverId := serverId
  beaconPort := beaconPort
  joinCorrelationWindowMs := joinCorrelationWindowMs.getD 2500
  pendingJoins := []
  pendingIps := []

namespace LogIngestor

def build (ing : LogIngestor) (ts : Int) (payload : Payload) : EventEnvelope :=
  ⟨ing.serverId, ts, payload⟩

def pushCorrelation {α : Type} (queue : List α) (entry : α) : List α :=
  Correlate.push MAX_PENDING_CORRELATIONS queue entry

def consumeCorrelated {α : Type} (ing : LogIngestor) (tsOf : α → Int) (queue : List α) (ts : Int) :
    Option α × List α :=
  Correlate.consume tsOf ing.joinCorrelationWindowMs ts queue

section
variable (ing : LogIngestor) (message : JsString) (ts : Int)

/-- The branch of `handleMessage` for `LogNet`. -/
def handleNet :
    LogIngestor × List EventEnvelope :=
  match BEACON_BIND message with
  | some digits =>
    let port := digitsValue digits
    (ing, if port = ing.beaconPort then [ing.build ts (.serverReady port)] else [])
  | none =>
    match PLAYER_REMOTE_ADDR message with
    | some ip => ({ ing with pendingIps := pushCorrelation ing.pendingIps ⟨ip, ts⟩ }, [])
    | none =>
      match PLAYER_JOIN_SUCCEEDED message with
      | some name =>
        let (item, pendingIps) := ing.consumeCorrelated PendingIp.ts ing.pendingIps ts
        ({ ing with
            pendingIps := pendingIps
            pendingJoins := pushCorrelation ing.pendingJoins ⟨name, ts, item.map PendingIp.ip⟩ },
          [])
      | none =>
        match PLAYER_DISCONNECT message with
        | some (eosId, steamId64) => (ing, [ing.build ts (.playerDisconnected eosId steamId64)])
        | none => (ing, [])

/-- The branch of `handleMessage` for the EOS categories. -/
def handleEos :
    LogIngestor × List EventEnvelope :=
  match PLAYER_EOS_CONNECTION message with
  | some (eosId, steamId64) =>
    match ing.consumeCorrelated PendingJoin.ts ing.pendingJoins ts with
    | (some join, pendingJoins) =>
      ({ ing with pendingJoins := pendingJoins },
        [ing.build ts (.playerConnected join.name eosId steamId64 join.ip)])
    | (none, pendingJoins) => ({ ing with pendingJoins := pendingJoins }, [])
  | none => (ing, [])

end

def isEosCategory (category : JsString) : Bool :=
  (js "LogRedpointEOS").isPrefixOf category || category = js "LogEOS"

/-- The other categories touch neither queue and give no event about a connection. -/
def handleMessage (ing : LogIngestor) (line : LogLine) : LogIngestor × List EventEnvelope :=
  if line.category = js "LogNet" then ing.handleNet line.message line.ts
  else if isEosCategory line.category then ing.handleEos line.message line.ts
  else (ing, [])

end LogIngestor

end SquadPanel.LogIngest.Parser
