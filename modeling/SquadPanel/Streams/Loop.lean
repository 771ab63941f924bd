import SquadPanel.Js.Map
import SquadPanel.Js.Number
import SquadPanel.Js.Set
import SquadPanel.Lib.GroupLog

/-!
# Consumer-group readers of event streams

`runStreamConsumer` of log-ingest and `runDispatchLoop` of automation are one loop: discover
the streams, create the group on each, reclaim pending entries, read new ones.  They differ
in the streams they look for and in what `processEntry` does with an entry.

An event is what happens at one `await` of the loop, with the answer it gets, or something
that another process does to a stream.  The loop may fail at every command.  A command that
fails may still have been carried out.
-/

namespace SquadPanel.Streams

open Js Lib

abbrev Log := GroupLog (List JsString)

abbrev Entry := LogEntry (List JsString)

/-- An entry and the stream it was read from. -/
abbrev Delivery := JsString × Entry

/-! ## Redis -/

/-- The streams with the loop's consumer group, and the dedup keys that are set. -/
structure Redis where
  logs : JsMap JsString Log
  keys : List JsString

namespace Redis

variable (redis : Redis) (stream : JsString)

/-- A stream that does not exist reads as an empty one. -/
def log : Log := (redis.logs.get stream).getD .empty

def setLog (log : Log) : Redis :=
  { redis with logs := redis.logs.set stream log }

def setKey (key : JsString) : Redis := { redis with keys := key :: redis.keys }

def xack (id : Nat) : Redis :=
  redis.setLog stream ((redis.log stream).ack id)

/-- `XREADGROUP … STREAMS streams > … >`.  One stream without the group fails the command. -/
def xreadgroup (count : Nat) : List JsString → Redis → Option (List Delivery × Redis)
  | [], redis => some ([], redis)
  | stream :: streams, redis => do
    let (taken, log) ← (redis.log stream).readNew count
    let (rest, redis') ← xreadgroup count streams (redis.setLog stream log)
    return (taken.map (fun entry => (stream, entry)) ++ rest, redis')

end Redis

/-- `XGROUP CREATE … MKSTREAM`, where `BUSYGROUP` counts as success. -/
def ensureConsumerGroup (redis : Redis) (stream : JsString) (startId : GroupLog.StartId) : Redis :=
  redis.setLog stream ((redis.log stream).createGroup startId)

/-! ## The two readers -/

/-- What `processEntry` does with an entry: it acks it, or it calls the handler unless the
dedup key is set. -/
inductive Disposition
  | drop
  | handle (dedupKey : Option JsString)

structure LoopOptions where
  /-- Streams that discovery names whether they exist or not. -/
  always : List JsString
  /-- The keys that discovery keeps of those it scans. -/
  accept : JsString → Bool
  disposition : JsString → Entry → Disposition
  batchSize : Nat
  streamRefreshMs : Int
  reclaimIntervalMs : Int

/-- `DEDUP_KEY` -/
def DEDUP_KEY (group eventId : JsString) : JsString :=
  js "dedup:" ++ group ++ js ":" ++ eventId

/-- The text of an id, which is a time of 64 bits before a sequence number of 64 bits. -/
def entryIdText (id : Nat) : JsString :=
  decimalText (id / 2 ^ 64) ++ js "-" ++ decimalText (id % 2 ^ 64)

structure StreamConsumerOptions where
  group : JsString
  always : List JsString
  accept : JsString → Bool
  dedupeByEntry : Bool
  batchSize : Nat
  streamRefreshMs : Int
  reclaimIntervalMs : Int

/-- The dedup key of an entry. -/
def entryKey (group stream : JsString) (id : Nat) : JsString :=
  DEDUP_KEY group (stream ++ js ":" ++ entryIdText id)

/-- The loop that `runStreamConsumer` runs. -/
def runStreamConsumer (opts : StreamConsumerOptions) : LoopOptions where
  always := opts.always
  accept := opts.accept
  disposition stream entry :=
    .handle (if opts.dedupeByEntry then some (entryKey opts.group stream entry.id) else none)
  batchSize := opts.batchSize
  streamRefreshMs := opts.streamRefreshMs
  reclaimIntervalMs := opts.reclaimIntervalMs

/-- `LIVE_SERVER_STREAM`: `events:server:` and a name without a colon. -/
def isLiveServerStream (key : JsString) : Bool :=
  (js "events:server:").isPrefixOf key &&
    decide (key.drop (js "events:server:").length ≠ []) &&
    decide (0x3A ∉ key.drop (js "events:server:").length)

/-- The text after the first `envelope`, if it is not empty, decoded.  `decode` parses the
JSON text and validates it; it gives what the caller uses of the envelope. -/
def parseStreamEnvelope {α : Type} (decode : JsString → Option α) (fields : List JsString) :
    Option α :=
  match (fields.dropWhile fun field => field ≠ js "envelope").tail.head? with
  | some raw => if raw = [] then none else decode raw
  | none => none

/-- `decode` gives the event id. -/
structure DispatchOptions where
  group : JsString
  decode : JsString → Option JsString
  batchSize : Nat
  streamRefreshMs : Int
  reclaimIntervalMs : Int

/-- The loop that `runDispatchLoop` runs over `discoverEventStreams`.  A malformed entry is
dropped; any other is dispatched to the plugins and to the rules. -/
def runDispatchLoop (opts : DispatchOptions) : LoopOptions where
  always := [js "events:global"]
  accept := isLiveServerStream
  disposition _ entry :=
    match parseStreamEnvelope opts.decode entry.fields with
    | none => .drop
    | some eventId => .handle (some (DEDUP_KEY opts.group eventId))
  batchSize := opts.batchSize
  streamRefreshMs := opts.streamRefreshMs
  reclaimIntervalMs := opts.reclaimIntervalMs

/-! ## Processing an entry -/

/-- How `processEntry` ends: the command or call that rejects, and whether a write that
rejects was carried out. -/
inductive Outcome
  | ok
  | getFails
  | handleFails
  | setFails (applied : Bool)
  | ackFails (applied : Bool)
deriving DecidableEq

section
variable (stream : JsString) (id : Nat) (outcome : Outcome) (redis : Redis)

/-- The last command, `XACK`. -/
def ackEntry : Redis :=
  if outcome = .ackFails false then redis else redis.xack stream id

/-- The commands after the handler: `SET` of the dedup key and `XACK`. -/
def finishEntry :
    Option JsString → Redis
  | none => ackEntry stream id outcome redis
  | some key =>
    match outcome with
    | .setFails true => redis.setKey key
    | .setFails false => redis
    | _ => ackEntry stream id outcome (redis.setKey key)

end

/-- `processEntrySafely`: Redis afterwards, and whether the handler was called. -/
def processEntrySafely (disposition : Disposition) (stream : JsString) (id : Nat)
    (outcome : Outcome) (redis : Redis) : Redis × Bool :=
  match disposition with
  | .drop => (ackEntry stream id outcome redis, false)
  | .handle dedupKey =>
    if dedupKey.isSome && decide (outcome = .getFails) then (redis, false)
    else if dedupKey.any (· ∈ redis.keys) then (ackEntry stream id outcome redis, false)
    else if outcome = .handleFails then (redis, true)
    else (finishEntry stream id outcome redis dedupKey, true)

/-! ## The loop -/

/-- Where the loop is. -/
inductive Pc
  | head
  /-- `discoverStreams` is under way; `known` were the keys when it began. -/
  | scanning (known : List JsString)
  | ensuring (todo readable : List JsString)
  | ensured (readable : List JsString)
  /-- `claimed` are the claimed entries not processed yet, `todo` the streams not swept. -/
  | reclaiming (claimed : List Delivery) (todo readable : List JsString)
  | reading (readable : List JsString)
  | processing (entries : List Delivery)
  | stopped

structure State where
  redis : Redis
  groupsCreated : JsSet JsString
  initialDiscovery : Bool
  streams : List JsString
  /-- `none` is `Number.NEGATIVE_INFINITY`. -/
  nextDiscoveryAt : Option Int
  nextReclaimAt : Option Int
  pc : Pc
  /-- The entries that the handler was called with. -/
  handled : List (JsString × Nat)

/-- The loop before its first iteration. -/
def start (redis : Redis) : State where
  redis := redis
  groupsCreated := .empty
  initialDiscovery := true
  streams := []
  nextDiscoveryAt := none
  nextReclaimAt := none
  pc := .head
  handled := []

inductive Event
  /-- Another process adds an entry, or trims a stream. -/
  | xadd (stream : JsString) (id : Nat) (fields : List JsString)
  | xtrim (stream : JsString) (count : Nat)
  /-- `shouldStop()` is true, or it is false and `now()` is read. -/
  | stop
  | iterate (now : Int)
  | discovered (found : List JsString) (now : Int)
  | discoveryFails
  /-- The loop goes on without a command. -/
  | goOn
  | create
  | createFails (applied : Bool)
  | reclaimCheck (now again : Int)
  | claim (ids : List Nat)
  | claimFails
  | process (outcome : Outcome)
  | read
  | readFails (noGroup applied : Bool)

def due (time : Option Int) (now : Int) : Bool := time.all (· ≤ now)

variable (opts : LoopOptions)

/-- What a scan may return: every key kept that was there from its beginning, and only keys
that are there at its end. -/
def Discovers (known existing found : List JsString) : Prop :=
  (∀ stream ∈ opts.always, stream ∈ found) ∧
    (∀ stream ∈ known, opts.accept stream = true → stream ∈ found) ∧
    ∀ stream ∈ found, stream ∈ opts.always ∨ stream ∈ existing ∧ opts.accept stream = true

instance (opts : LoopOptions) (known existing found : List JsString) :
    Decidable (Discovers opts known existing found) := inferInstanceAs (Decidable (_ ∧ _))

/-- `initialDiscovery ? '$' : '0'` -/
def State.startId (s : State) : GroupLog.StartId := if s.initialDiscovery then .dollar else .zero

def State.process (s : State) (delivery : Delivery) (outcome : Outcome)
    (pc : Pc) : State :=
  let (redis, called) := processEntrySafely (opts.disposition delivery.1 delivery.2) delivery.1
    delivery.2.id outcome s.redis
  { s with
    redis := redis
    handled := if called then s.handled ++ [(delivery.1, delivery.2.id)] else s.handled
    pc := pc }

def step (s : State) : Event → Option State
  | .xadd stream id fields =>
    ((s.redis.log stream).add id fields).map fun log =>
      { s with redis := s.redis.setLog stream log }
  | .xtrim stream count =>
    (s.redis.logs.get stream).map fun log =>
      { s with redis := s.redis.setLog stream (log.trim count) }
  | .stop =>
    match s.pc with
    | .head => some { s with pc := .stopped }
    | _ => none
  | .iterate now =>
    match s.pc with
    | .head =>
      if due s.nextDiscoveryAt now then some { s with pc := .scanning s.redis.logs.keys }
      else some { s with pc := .ensuring s.streams [] }
    | _ => none
  | .discovered found now =>
    match s.pc with
    | .scanning known =>
      if Discovers opts known s.redis.logs.keys found then
        some
          { s with
            streams := found
            nextDiscoveryAt := some (now + opts.streamRefreshMs)
            pc := .ensuring found [] }
      else none
    | _ => none
  | .discoveryFails =>
    match s.pc with
    | .scanning _ =>
      if s.streams = [] then some { s with pc := .head }
      else some { s with pc := .ensuring s.streams [] }
    | _ => none
  | .goOn =>
    match s.pc with
    | .ensuring (stream :: todo) readable =>
      if s.groupsCreated.has stream then
        some { s with pc := .ensuring todo (readable ++ [stream]) }
      else none
    | .ensuring [] readable =>
      if readable = [] then some { s with pc := .head }
      else some { s with pc := .ensured readable }
    | .reclaiming [] [] readable =>
      some { s with initialDiscovery := false, pc := .reading readable }
    | .processing [] => some { s with pc := .head }
    | _ => none
  | .create =>
    match s.pc with
    | .ensuring (stream :: todo) readable =>
      if s.groupsCreated.has stream then none
      else
        some
          { s with
            redis := ensureConsumerGroup s.redis stream s.startId
            groupsCreated := s.groupsCreated.add stream
            pc := .ensuring todo (readable ++ [stream]) }
    | _ => none
  | .createFails applied =>
    match s.pc with
    | .ensuring (stream :: todo) readable =>
      if s.groupsCreated.has stream then none
      else
        some
          { s with
            redis :=
              if applied then ensureConsumerGroup s.redis stream s.startId else s.redis
            pc := .ensuring todo readable }
    | _ => none
  | .reclaimCheck now again =>
    match s.pc with
    | .ensured readable =>
      if due s.nextReclaimAt now then
        some
          { s with
            nextReclaimAt := some (again + opts.reclaimIntervalMs)
            pc := .reclaiming [] readable readable }
      else some { s with initialDiscovery := false, pc := .reading readable }
    | _ => none
  | .claim ids =>
    match s.pc with
    | .reclaiming [] (stream :: todo) readable =>
      ((s.redis.log stream).claim ids).map fun claimed =>
        { s with pc := .reclaiming (claimed.map fun entry => (stream, entry)) todo readable }
    | _ => none
  | .claimFails =>
    match s.pc with
    | .reclaiming [] (_ :: todo) readable => some { s with pc := .reclaiming [] todo readable }
    | _ => none
  | .process outcome =>
    match s.pc with
    | .reclaiming (delivery :: claimed) todo readable =>
      some (s.process opts delivery outcome (.reclaiming claimed todo readable))
    | .processing (delivery :: entries) =>
      some (s.process opts delivery outcome (.processing entries))
    | _ => none
  | .read =>
    match s.pc with
    | .reading readable =>
      (s.redis.xreadgroup opts.batchSize readable).map fun (entries, redis) =>
        { s with redis := redis, pc := .processing entries }
    | _ => none
  | .readFails noGroup applied =>
    match s.pc with
    | .reading readable =>
      some
        { s with
          redis :=
            if applied then
              ((s.redis.xreadgroup opts.batchSize readable).map Prod.snd).getD s.redis
            else s.redis
          groupsCreated := if noGroup then .empty else s.groupsCreated
          pc := .head }
    | _ => none

end SquadPanel.Streams
