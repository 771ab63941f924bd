import SquadPanel.Lib.Interleave
import SquadPanel.Rcon.OperatorCommand

/-!
# The rcon command queue

`RconCommandQueue.processEntry` of `apps/workers/rcon/src/commands.ts` as a
program over Redis, the clock and the RCON connection.  Every `await` of the
source is one call, so deliveries to different consumers interleave at exactly
these points.
-/

namespace SquadPanel.Rcon

open Js Lib

/-! ## The environment -/

def STALE_COMMAND_ERROR : JsString := js "stale"
def DONE_MARKER_TTL_SECONDS : Nat := 24 * 3600

/-- A value stored under a Redis key: a marker text, or the JSON of a result. -/
inductive RedisValue
  | text (s : JsString)
  | result (r : RconCommandResult)
  deriving DecidableEq

/-- How a write ended.  A caller sees the same error for a write Redis never
executed (`refused`) and for one whose reply was lost (`lost`). -/
inductive WriteReply
  | done
  | refused (message : JsString)
  | lost (message : JsString)

/-- The reply of `SET ... NX`. -/
inductive ClaimReply
  | ok
  | nil
  | refused (message : JsString)
  | lost (message : JsString)

/-- The calls of `processEntry`. -/
inductive Call
  | now
  | get (key : JsString)
  | set (key : JsString) (value : RedisValue) (ttlSeconds : Nat)
  | setNx (key : JsString) (value : RedisValue) (ttlSeconds : Nat)
  | xack (stream streamId : JsString)
  | execute (command : JsString)
  deriving DecidableEq

/-- The answer to each call; errors carry their message. -/
abbrev Reply : Call → Type
  | .now => Int
  | .get _ => Except JsString (Option RedisValue)
  | .set _ _ _ => WriteReply
  | .setNx _ _ _ => ClaimReply
  | .xack _ _ => WriteReply
  | .execute _ => Except JsString JsString

/-- What the caller sees of a write: it resolves or throws. -/
def WriteReply.outcome : WriteReply → Except JsString Unit
  | .done => .ok ()
  | .refused message | .lost message => .error message

/-- What the caller sees of `SET ... NX`: was the key set? -/
def ClaimReply.outcome : ClaimReply → Except JsString Bool
  | .ok => .ok true
  | .nil => .ok false
  | .refused message | .lost message => .error message

/-- An `async` function of the worker: it may throw an error message. -/
abbrev Async := ExceptT JsString (Prog Call Reply)

def now : Async Int := Prog.await .now .ok

def redisGet (key : JsString) : Async (Option RedisValue) := Prog.await (.get key) id

section
variable (key : JsString) (value : RedisValue) (ttlSeconds : Nat)

def redisSet : Async Unit :=
  Prog.await (.set key value ttlSeconds) WriteReply.outcome

def redisSetNx : Async Bool :=
  Prog.await (.setNx key value ttlSeconds) ClaimReply.outcome

end

def redisXack (stream streamId : JsString) : Async Unit :=
  Prog.await (.xack stream streamId) WriteReply.outcome

/-- Hand a command to the RCON connection; a rejection is returned, not thrown. -/
def execute (command : JsString) : Async (Except JsString JsString) :=
  Prog.await (.execute command) .ok

/-! ## `processEntry` -/

/-- The options of a queue that `processEntry` reads. -/
structure RconCommandQueueOptions where
  serverId : JsString
  resultTtlSeconds : Nat := 120
  maxCommandAgeMs : Int := 45000

/-- A stream entry as delivered: the stream, the entry id and the flat field list. -/
structure Entry where
  streamName : JsString
  streamId : JsString
  kv : List JsString

def getField (kv : List JsString) (name : JsString) : Option JsString :=
  kv[kv.idxOf name + 1]?

def requestIdOf (value : Json) : Option JsString :=
  match value.getString (js "request_id") with
  | some requestId => if requestId.length > 0 then some requestId else none
  | none => none

def commandNameOf (value : Json) : Option RconOperatorCommandName :=
  if value.isRecord then RconOperatorCommandName.parse (value.get (js "command")) else none

section
variable (rt : Runtime)

/-- The instant `commandAgeMs` measures the age from: `enqueued_at` when it is a
date, else the millisecond part of the entry id. -/
def ageOrigin (streamId : JsString) (request : Json) : Option Int :=
  match (request.getString (js "enqueued_at")).bind rt.dateParse with
  | some enqueuedAtMs => some enqueuedAtMs
  | none => rt.number (streamId.takeWhile (· ≠ 0x2D))

def commandAgeMs (streamId : JsString) (request : Json) : Async Int := do
  match ageOrigin rt streamId request with
  | some origin => return (← now) - origin
  | none => return 0

/-- `Date.parse` of the entry's deadline field; `none` is `NaN`. -/
def deadlineMs (kv : List JsString) : Option Int :=
  rt.dateParse ((getField kv RCON_COMMAND_DEADLINE_FIELD).getD [])

/-- `!Number.isNaN(deadlineMs) && startedAt > deadlineMs` -/
def pastDeadline (kv : List JsString) (startedAt : Int) : Bool :=
  (deadlineMs rt kv).any (startedAt > ·)

def writeResult (opts : RconCommandQueueOptions) (result : RconCommandResult) :
    Async Unit :=
  if rconCommandResultSchema rt result then do
    redisSet (rconCommandResultKey result.request_id) (.result result) opts.resultTtlSeconds
    redisSet (rconCommandDoneKey result.request_id) (.text (js "1")) DONE_MARKER_TTL_SECONDS
  else throw (rt.resultError result)

end

/-- Sets the done marker unless it exists; `false` when another delivery holds it. -/
def claimRequest (requestId : JsString) : Async Bool :=
  redisSetNx (rconCommandDoneKey requestId) (.text (js "1")) DONE_MARKER_TTL_SECONDS

/-- Is the key set?  A failing read counts as no. -/
def keyExists (key : JsString) : Async Bool :=
  tryCatch (do return (← redisGet key).isSome) fun _ => return false

def doneExists (requestId : JsString) : Async Bool := keyExists (rconCommandDoneKey requestId)

def resultExists (requestId : JsString) : Async Bool := keyExists (rconCommandResultKey requestId)

section
variable (rt : Runtime) (opts : RconCommandQueueOptions) (request : Json)

/-- The record stored for a command that was dropped without being run. -/
def droppedResult (requestId error : JsString) (completedAt : Int) : RconCommandResult where
  ok := false
  server_id := opts.serverId
  request_id := requestId
  command := commandNameOf request
  response := none
  error := some error
  completed_at := rt.toISOString completedAt
  duration_ms := 0

/-- The record of a command that was run, or rejected while it was built. -/
def outcomeResult (requestId : Option JsString) (outcome : Except JsString JsString)
    (startedAt completedAt finishedAt : Int) : RconCommandResult where
  ok := outcome.isOk
  server_id := opts.serverId
  request_id := requestId.getD []
  command := commandNameOf request
  response := outcome.toOption
  error := match outcome with
    | .ok _ => none
    | .error message => some message
  completed_at := rt.toISOString completedAt
  duration_ms := finishedAt - startedAt

end

/-- Build the command and hand it to the connection. -/
def buildAndExecute (rt : Runtime) (request : Json) : Async (Except JsString JsString) :=
  match buildOperatorCommand rt request with
  | .error message => return .error message
  | .ok command => execute command

section
variable (rt : Runtime) (opts : RconCommandQueueOptions) (entry : Entry) (request : Json)

/-- Drop a stale or expired command: store why, then acknowledge. -/
def dropCommand (error : JsString) : Async Unit := do
  match requestIdOf request with
  | some requestId =>
    writeResult rt opts (droppedResult rt opts request requestId error (← now))
  | none => pure ()
  redisXack entry.streamName entry.streamId

variable (startedAt : Int)

/-- Store the result of a command that ran or was rejected, and acknowledge.  Only
a success whose result could not be stored is acknowledged without one. -/
def recordOutcome (outcome : Except JsString JsString) : Async Unit := do
  let completedAt ← now
  let finishedAt ← now
  match requestIdOf request with
  | some requestId =>
    let result := outcomeResult rt opts request (some requestId) outcome
      startedAt completedAt finishedAt
    tryCatch (writeResult rt opts result) fun message =>
      if !result.ok then throw message else pure ()
  | none => pure ()
  redisXack entry.streamName entry.streamId

def runCommand : Async Unit := do
  recordOutcome rt opts entry request startedAt (← buildAndExecute rt request)

/-- Drop a command that is too old or past its deadline; claim and run any other. -/
def dispatchRequest (startedAt ageMs : Int) : Async Unit :=
  if ageMs > opts.maxCommandAgeMs then
    dropCommand rt opts entry request STALE_COMMAND_ERROR
  else if pastDeadline rt entry.kv startedAt then
    dropCommand rt opts entry request RCON_COMMAND_EXPIRED_ERROR
  else
    match requestIdOf request with
    | some requestId => do
      if ← claimRequest requestId then runCommand rt opts entry request startedAt
      else redisXack entry.streamName entry.streamId
    | none => runCommand rt opts entry request startedAt

/-- The part of `processEntry` after the request was parsed and found new. -/
def processRequest : Async Unit := do
  dispatchRequest rt opts entry request startedAt (← commandAgeMs rt entry.streamId request)

end

/-- Is the request id already answered or claimed? -/
def alreadyHandled (request : Json) : Async Bool :=
  match requestIdOf request with
  | some requestId => do
    if ← resultExists requestId then return true
    doneExists requestId
  | none => return false

/-- The parsed `request` field; `none` when it is missing, empty or not JSON. -/
def entryRequest (rt : Runtime) (entry : Entry) : Option Json :=
  ((getField entry.kv (js "request")).filter (· ≠ [])).bind rt.jsonParse

def processEntry (rt : Runtime) (opts : RconCommandQueueOptions) (entry : Entry) : Async Unit :=
  match entryRequest rt entry with
  | none => redisXack entry.streamName entry.streamId
  | some request => do
    let startedAt ← now
    if ← alreadyHandled request then redisXack entry.streamName entry.streamId
    else processRequest rt opts entry request startedAt

/-! ## Deliveries as a system -/

/-- One delivery of an entry to a consumer with its own options. -/
structure Delivery where
  opts : RconCommandQueueOptions
  entry : Entry

/-- The Redis state the deliveries share. -/
structure Redis where
  keys : JsString → Option RedisValue
  acked : List (JsString × JsString)

namespace Redis

section
variable (redis : Redis)

def put (key : JsString) (value : RedisValue) : Redis :=
  { redis with keys := fun k => if k = key then some value else redis.keys k }

def del (key : JsString) : Redis :=
  { redis with keys := fun k => if k = key then none else redis.keys k }

def ack (stream streamId : JsString) : Redis :=
  { redis with acked := redis.acked ++ [(stream, streamId)] }

@[simp] theorem put_keys (key k : JsString) (value : RedisValue) :
    (redis.put key value).keys k = if k = key then some value else redis.keys k := rfl

@[simp] theorem del_keys (key k : JsString) :
    (redis.del key).keys k = if k = key then none else redis.keys k := rfl

@[simp] theorem ack_keys (stream streamId : JsString) :
    (redis.ack stream streamId).keys = redis.keys := rfl

/-- Redis executes each command atomically.  Keys do not expire. -/
def answer : (call : Call) → Reply call → Option Redis
  | .now, _ => some redis
  | .get key, .ok value => if redis.keys key = value then some redis else none
  | .get _, .error _ => some redis
  | .set key value _, .done => some (redis.put key value)
  | .set _ _ _, .refused _ => some redis
  | .set key value _, .lost _ => some (redis.put key value)
  | .setNx key value _, .ok =>
    if redis.keys key = none then some (redis.put key value) else none
  | .setNx key _ _, .nil => if redis.keys key = none then none else some redis
  | .setNx _ _ _, .refused _ => some redis
  | .setNx key value _, .lost _ =>
    if redis.keys key = none then some (redis.put key value) else some redis
  | .xack stream streamId, .done => some (redis.ack stream streamId)
  | .xack _ _, .refused _ => some redis
  | .xack stream streamId, .lost _ => some (redis.ack stream streamId)
  | .execute _, _ => some redis

end

/-- No call of a delivery deletes a key. -/
theorem keys_none_of_answer {redis redis' : Redis} {call : Call} {reply : Reply call}
    {key : JsString} (hanswer : redis.answer call reply = some redis')
    (hnone : redis'.keys key = none) : redis.keys key = none := by
  have hput (k : JsString) (value : RedisValue) (h : redis.put k value = redis') :
      redis.keys key = none := by
    subst h
    rw [put_keys] at hnone
    split at hnone
    · cases hnone
    · exact hnone
  unfold answer at hanswer
  split at hanswer <;> grind [ack_keys]

/-- The events that can make a key appear. -/
inductive Sets (key : JsString) : Event Call Reply → Prop
  | stored (value : RedisValue) (ttlSeconds : Nat) :
      Sets key ⟨.set key value ttlSeconds, .done⟩
  | storedLost (value : RedisValue) (ttlSeconds : Nat) (message : JsString) :
      Sets key ⟨.set key value ttlSeconds, .lost message⟩
  | claimed (value : RedisValue) (ttlSeconds : Nat) :
      Sets key ⟨.setNx key value ttlSeconds, .ok⟩
  | claimedLost (value : RedisValue) (ttlSeconds : Nat) (message : JsString) :
      Sets key ⟨.setNx key value ttlSeconds, .lost message⟩

theorem sets_of_answer {redis redis' : Redis} {call : Call} {reply : Reply call}
    {key : JsString} (hanswer : redis.answer call reply = some redis')
    (hnone : redis.keys key = none) (hsome : redis'.keys key ≠ none) : Sets key ⟨call, reply⟩ := by
  have hput (k : JsString) (value : RedisValue) (h : redis.put k value = redis') : k = key := by
    subst h
    by_contra hne
    rw [put_keys, if_neg (Ne.symm hne)] at hsome
    exact hsome hnone
  unfold answer at hanswer
  split at hanswer <;> grind [ack_keys, Sets]

end Redis

/-- Any number of deliveries, any of which may crash between two calls, while the
API deletes the result keys it has read. -/
def queueSystem (rt : Runtime) : System Call Reply Delivery Redis JsString where
  body d := (processEntry rt d.opts d.entry).run >>= fun _ => .ret ()
  perform call redis := redis.answer call
  environment requestId redis := some (redis.del (rconCommandResultKey requestId))

/-- The request id of a delivered entry. -/
def Delivery.requestId (rt : Runtime) (d : Delivery) : Option JsString :=
  (entryRequest rt d.entry).bind requestIdOf

end SquadPanel.Rcon
