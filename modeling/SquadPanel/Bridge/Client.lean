import Mathlib.Logic.Function.Basic
import SquadPanel.Bridge.Frame
import SquadPanel.Js.Json
import SquadPanel.Js.Map

/-!
# The bridge client

`packages/bridge-client/src/client.ts`: calls to the bridge over one socket at a time.  A call
waits for the connection if there is none, registers itself under a new id, writes its request
and waits for the response with that id; sockets come and go underneath.

What runs in one go in the event loop is one step.  A continuation of an `await` is a step of
its own that may come at any later time, and so is the handling of each frame of a chunk, since
the stream callbacks of earlier frames may use the client.
-/

namespace SquadPanel.Bridge.Client

open Js

/-! ## Frames -/

inductive BridgeErrorCode where
  | forbidden
  | invalidArgs
  | runtimeError
  | timeout
  | internal
  | transport
  deriving DecidableEq, Repr

/-- `BRIDGE_ERROR_CODES`, with the texts on the wire. -/
def BRIDGE_ERROR_CODES : List (JsString × BridgeErrorCode) :=
  [(js "forbidden", .forbidden), (js "invalid_args", .invalidArgs),
    (js "runtime_error", .runtimeError), (js "timeout", .timeout), (js "internal", .internal),
    (js "transport", .transport)]

structure BridgeRequest where
  id : JsString
  method : JsString
  params : Option Json

structure ErrorObject where
  code : BridgeErrorCode
  message : JsString
  detail : Option Json

structure BridgeResponse where
  id : JsString
  ok : Bool
  result : Option Json
  error : Option ErrorObject

variable (raw : Json)

/-- A field of an object. -/
def field (key : String) : Option Json :=
  match raw with
  | .object entries => (entries.find? fun entry => entry.1 = js key).map (·.2)
  | _ => none

def isStreamFrameCandidate : Bool := (field raw "stream").isSome

/-- The id of a frame that passes `streamFrameSchema`. -/
def streamFrameId : Option JsString :=
  match field raw "id", field raw "stream" with
  | some (.string id), some (.string stream) =>
    if stream ∈ [js "stdout", js "stderr", js "event"] then some id else none
  | _, _ => none

/-- A code that is not known is `internal`. -/
def errorCode (raw : Option Json) : BridgeErrorCode :=
  match raw with
  | some (.string code) =>
    ((BRIDGE_ERROR_CODES.find? fun entry => entry.1 = code).map (·.2)).getD .internal
  | _ => .internal

/-- The `error` field under `responseSchema`: absent, or an object with a message. -/
def errorObject (raw : Option Json) : Option (Option ErrorObject) :=
  match raw with
  | none => some none
  | some (.object entries) =>
    match field (.object entries) "message" with
    | some (.string message) =>
      some (some ⟨errorCode (field (.object entries) "code"), message,
        field (.object entries) "detail"⟩)
    | _ => none
  | some _ => none

/-- The response that passes `responseSchema`. -/
def parseResponse : Option BridgeResponse :=
  match field raw "id", field raw "ok", errorObject (field raw "error") with
  | some (.string id), some (.bool ok), some error => some ⟨id, ok, field raw "result", error⟩
  | _, _, _ => none

/-- What the runtime supplies. -/
structure Externals where
  /-- `JSON.stringify` of a request. -/
  stringify : BridgeRequest → JsString
  /-- `JSON.parse` of a payload's text. -/
  jsonParse : List UInt8 → Option Json
  /-- `describeIssues` of the failed validation of a frame. -/
  describeIssues : Json → JsString

/-! ## Calls -/

/-- A `BridgeError`, or another error with its message. -/
inductive CallError where
  | bridge (code : BridgeErrorCode) (message : JsString) (detail : Option Json)
  | other (message : JsString)

def CallError.isTransport : CallError → Bool
  | .bridge .transport _ _ => true
  | _ => false

def transport (message : JsString) : CallError := .bridge .transport message none

inductive Outcome where
  | resolved (result : Option Json)
  | rejected (err : CallError)

abbrev ConnId := Nat

abbrev CallId := Nat

/-- Where a call is: awaiting `connect()`, awaiting the response to a request, its current
attempt rejected and the `catch` block due, or done. -/
inductive Phase where
  | connecting (conn : ConnId)
  | waiting (id : JsString)
  | failed (err : CallError)
  | settled (outcome : Outcome)

def Phase.awaits : Phase → JsString → Bool
  | .waiting id, id' => id = id'
  | _, _ => false

/-- The arguments of a call; `timeoutMs` is the given or the default timeout, absent when it is
not finite. -/
structure CallOptions where
  method : JsString
  params : Option Json
  timeoutMs : Option Nat
  onStream : Bool
  retryOnTransport : Bool

structure Call extends CallOptions where
  attempt : Nat
  phase : Phase

def CallOptions.maxAttempts (opts : CallOptions) : Nat :=
  if opts.retryOnTransport && !opts.onStream then 2 else 1

/-- An entry of the pending map.  The promise functions it holds are those of the attempt of
`call` under the entry's id. -/
structure PendingCall where
  call : CallId
  method : JsString
  onStream : Bool
  timer : Option Nat
  sock : Option ConnId

/-! ## The client and its sockets -/

structure BridgeClient where
  socket : Option ConnId
  frames : FrameAccumulator
  pending : JsMap JsString PendingCall
  closed : Bool
  connecting : Option ConnId

inductive ConnStatus where
  | absent
  | connecting
  | failed (message : JsString)
  | open
  | closed
  deriving DecidableEq

/-- A socket, with the chunks that the client has taken from it and the frames they gave. -/
structure Connection where
  status : ConnStatus
  taken : List (List UInt8)
  frames : List (List UInt8)

structure World where
  client : BridgeClient
  calls : CallId → Option Call
  connections : ConnId → Connection
  nextConn : ConnId
  /-- Frames of a chunk that are still to be handled, with their connection. -/
  inbox : List (ConnId × List UInt8)
  /-- The frames handled so far. -/
  handled : List (ConnId × List UInt8)
  /-- The requests written so far, latest first. -/
  written : List (CallId × JsString × ConnId)
  /-- The request ids drawn so far. -/
  ids : List JsString

def World.start : World where
  client := ⟨none, .empty, .empty, false, none⟩
  calls := fun _ => none
  connections := fun _ => ⟨.absent, [], []⟩
  nextConn := 0
  inbox := []
  handled := []
  written := []
  ids := []

namespace World

variable (ext : Externals) (w : World)

def setCall (c : CallId) (call : Call) : World :=
  { w with calls := Function.update w.calls c (some call) }

def setStatus (conn : ConnId) (status : ConnStatus) : World :=
  { w with connections :=
      Function.update w.connections conn { w.connections conn with status := status } }

/-- The `resolve` or `reject` of an attempt's promise, without effect once it is settled. -/
def settlePromise (c : CallId) (id : JsString) (phase : Phase) : World :=
  match w.calls c with
  | some call => if call.phase.awaits id then w.setCall c { call with phase := phase } else w
  | none => w

/-- `for (const [, pending] of …) pending.reject(err)` -/
def rejectEach (err : CallError) (entries : List (JsString × PendingCall)) : World :=
  entries.foldl (fun w entry => w.settlePromise entry.2.call entry.1 (.failed err)) w

def deletePending (id : JsString) : World :=
  { w with client := { w.client with pending := w.client.pending.delete id } }

/-! ### Connecting -/

/-- The part of `connect` without a socket: the attempt in progress, or a new one. -/
def startConnecting : World × ConnId :=
  match w.client.connecting with
  | some conn => (w, conn)
  | none =>
    ({ w.setStatus w.nextConn .connecting with
        client := { w.client with connecting := some w.nextConn }
        nextConn := w.nextConn + 1 }, w.nextConn)

def connect : World :=
  if w.client.socket.isSome then w else w.startConnecting.1

/-- The `connect` event of a socket, with `attachHandlers`. -/
def onConnect (conn : ConnId) : World :=
  { w.setStatus conn .open with
    client := { w.client with socket := some conn, frames := .empty, connecting := none } }

/-- The `error` event of a socket that is not connected yet. -/
def onConnectError (conn : ConnId) (message : JsString) : World :=
  { w.setStatus conn (.failed message) with client := { w.client with connecting := none } }

/-! ### Calling -/

section
variable (w : World) (c : CallId) (call : Call)

/-- The promise of `callImpl`: register, then write.  What the executor throws rejects the
promise and leaves the entry. -/
def register (id : JsString) : World :=
  let entry : PendingCall := ⟨c, call.method, call.onStream, call.timeoutMs, w.client.socket⟩
  let w' : World :=
    { w with
      client := { w.client with pending := w.client.pending.set id entry }
      ids := id :: w.ids }
  match w.client.socket with
  | none =>
    w'.setCall c { call with
      phase := .failed (.other (js "Cannot read properties of undefined (reading 'write')")) }
  | some sock =>
    match encodeFrame ext.stringify ⟨id, call.method, call.params⟩ with
    | .error e => w'.setCall c { call with phase := .failed (.other e.message) }
    | .ok _ =>
      { w'.setCall c { call with phase := .waiting id } with
        written := (c, id, sock) :: w.written }

def callImpl (id : JsString) : World :=
  if w.client.closed then
    w.setCall c { call with phase := .failed (transport (js "client is closed")) }
  else if w.client.socket.isSome then w.register ext c call id
  else
    let (w', conn) := w.startConnecting
    w'.setCall c { call with phase := .connecting conn }

/-- The `catch` block of `call`. -/
def afterFailure (err : CallError) (id : JsString) :
    World :=
  let willRetry := err.isTransport && call.attempt < call.maxAttempts && !w.client.closed
  if willRetry then
    let w' : World := { w with client := { w.client with socket := none } }
    w'.callImpl ext c { call with attempt := call.attempt + 1 } id
  else w.setCall c { call with phase := .settled (.rejected err) }

/-- The continuation of `await this.connect()`. -/
def afterConnect (conn : ConnId) (id : JsString) :
    Option World :=
  match (w.connections conn).status with
  | .open | .closed => some (w.register ext c call id)
  | .failed message => some (w.setCall c { call with phase := .failed (.other message) })
  | .connecting | .absent => none

end

/-! ### Receiving -/

variable (w : World)

def onFrameError (err : FrameTooLargeError) : World :=
  let rejected := w.rejectEach (transport err.message) w.client.pending.entries
  { rejected with
    client := { w.client with frames := .empty, pending := .empty, socket := none } }

def onData (conn : ConnId) (chunk : List UInt8) : World :=
  if w.client.socket = some conn then
    match w.client.frames.push chunk with
    | (.error err, _) => w.onFrameError err
    | (.ok frames, acc) =>
      { w with
        client := { w.client with frames := acc }
        inbox := w.inbox ++ frames.map fun payload => (conn, payload)
        connections := Function.update w.connections conn
          { w.connections conn with
            taken := (w.connections conn).taken ++ [chunk]
            frames := (w.connections conn).frames ++ frames } }
  else w

/-- `callbackError` is the message of the error that the stream callback throws. -/
def deliverStreamFrame (id : JsString) (callbackError : Option JsString) : World :=
  match w.client.pending.get id with
  | some pending =>
    match pending.onStream, callbackError with
    | true, some message =>
      (w.deletePending id).settlePromise pending.call id
        (.failed (.bridge .internal (js "stream callback failed: " ++ message) none))
    | _, _ => w
  | none => w

def rejectMalformed (raw : Json) (reason : JsString) : World :=
  match field raw "id" with
  | some (.string id) =>
    match w.client.pending.get id with
    | some pending =>
      (w.deletePending id).settlePromise pending.call id
        (.failed (.bridge .internal
          (js "malformed bridge response to " ++ pending.method ++ js ": " ++ reason) none))
    | none => w
  | _ => w

/-- The error of a response that is not ok. -/
def responseError (response : BridgeResponse) : CallError :=
  match response.error with
  | some err => .bridge err.code err.message err.detail
  | none => .bridge .internal (js "no error object") none

def handleResponse (response : BridgeResponse) : World :=
  match w.client.pending.get response.id with
  | none => w
  | some pending =>
    (w.deletePending response.id).settlePromise pending.call response.id
      (if response.ok then .settled (.resolved response.result)
        else .failed (responseError response))

def handleFrame (payload : List UInt8) (callbackError : Option JsString) : World :=
  match ext.jsonParse payload with
  | none => w
  | some raw =>
    if isStreamFrameCandidate raw then
      match streamFrameId raw with
      | none => w
      | some id => w.deliverStreamFrame id callbackError
    else
      match parseResponse raw with
      | none => w.rejectMalformed raw (ext.describeIssues raw)
      | some response => w.handleResponse response

/-! ### Closing -/

/-- The `close` event of a socket. -/
def onClose (conn : ConnId) : World :=
  let lost := w.client.pending.filter fun _ pending => pending.sock = some conn
  let rejected := w.rejectEach (transport (js "socket closed")) lost.entries
  { rejected.setStatus conn .closed with
    client :=
      { w.client with
        pending := w.client.pending.filter fun _ pending => !(pending.sock = some conn)
        socket := if w.client.socket = some conn then none else w.client.socket
        frames := if w.client.socket = some conn then .empty else w.client.frames } }

/-- `close()`.  The socket is only ended here; it closes with its own event. -/
def close : World :=
  let rejected := w.rejectEach (transport (js "client closed")) w.client.pending.entries
  { rejected with
    client := { w.client with closed := true, socket := none, pending := .empty } }

end World

/-! ## Steps -/

/-- What can happen next.  `id` is the id that is drawn if the step comes to it. -/
inductive Event where
  | connect
  | connected (conn : ConnId)
  | connectFailed (conn : ConnId) (message : JsString)
  | call (c : CallId) (opts : CallOptions) (id : JsString)
  | resume (c : CallId) (id : JsString)
  | proceed (c : CallId) (id : JsString)
  | data (conn : ConnId) (chunk : List UInt8)
  | frame (callbackError : Option JsString)
  | timeout (id : JsString)
  | writeFailed (id : JsString) (message : JsString)
  | socketError (conn : ConnId)
  | socketClosed (conn : ConnId)
  | close

/-- The error of a call whose timer has fired. -/
def timeoutError (pending : PendingCall) (timeoutMs : Nat) : CallError :=
  .bridge .timeout (js "bridge call " ++ pending.method ++ js " timed out after " ++
    decimalText timeoutMs ++ js "ms") none

open World in
def step (ext : Externals) (w : World) : Event → Option World
  | .connect => some w.connect
  | .connected conn =>
    if (w.connections conn).status = .connecting then some (w.onConnect conn) else none
  | .connectFailed conn message =>
    if (w.connections conn).status = .connecting then some (w.onConnectError conn message)
    else none
  | .call c opts id =>
    match w.calls c with
    | some _ => none
    | none => some (w.callImpl ext c { opts with attempt := 1, phase := .connecting 0 } id)
  | .resume c id =>
    match w.calls c with
    | some call =>
      match call.phase with
      | .connecting conn => w.afterConnect ext c call conn id
      | _ => none
    | none => none
  | .proceed c id =>
    match w.calls c with
    | some call =>
      match call.phase with
      | .failed err => some (w.afterFailure ext c call err id)
      | _ => none
    | none => none
  | .data conn chunk =>
    if (w.connections conn).status = .open then some (w.onData conn chunk) else none
  | .frame callbackError =>
    match w.inbox with
    | [] => none
    | (conn, payload) :: inbox =>
      some (({ w with inbox := inbox, handled := w.handled ++ [(conn, payload)] } : World)
        |>.handleFrame ext payload callbackError)
  | .timeout id =>
    -- every deletion of an entry clears its timer
    match w.client.pending.get id with
    | some pending =>
      match pending.timer with
      | some timeoutMs =>
        some ((w.deletePending id).settlePromise pending.call id
          (.failed (timeoutError pending timeoutMs)))
      | none => none
    | none => none
  | .writeFailed id message =>
    match w.written.find? fun request => request.2.1 = id with
    | some (c, _, _) =>
      some ((w.deletePending id).settlePromise c id (.failed (transport message)))
    | none => none
  | .socketError conn => if (w.connections conn).status = .open then some w else none
  | .socketClosed conn =>
    if (w.connections conn).status = .open then some (w.onClose conn) else none
  | .close => some w.close

/-- Request ids are unique. -/
def FreshIds (w : World) : Event → Prop
  | .call _ _ id | .resume _ id | .proceed _ id => id ∉ w.ids
  | _ => True

instance (w : World) (e : Event) : Decidable (FreshIds w e) := by
  cases e <;> unfold FreshIds <;> infer_instance

end SquadPanel.Bridge.Client
