import SquadPanel.Bridge.Client
import SquadPanel.Lib.Machine

/-!
# Steps of the bridge client

A call that awaits a response has its entry in the pending map, under its own id and with the
socket its request went out on, and that socket is open.  A step moves only calls that are not
settled, and resolves one only with the response it awaits.
-/

namespace SquadPanel.Bridge.Client

open Js Lib Lib.Machine List Option World Function
open Function (update)

variable {ext : Externals} {w w' : World} {c : CallId} {e : Event}

/-! ## Promises -/

namespace World

@[simp] theorem awaits_waiting {phase : Phase} {id : JsString} :
    phase.awaits id = true ↔ phase = .waiting id := by
  cases phase <;> simp [Phase.awaits]

variable (w : World)

theorem settlePromise_eq (c : CallId) (id : JsString) (phase : Phase) :
    w.settlePromise c id phase = { w with calls := (w.settlePromise c id phase).calls } := by
  unfold settlePromise
  split
  · split <;> rfl
  · rfl

theorem rejectEach_eq (err : CallError) (entries : List (JsString × PendingCall)) :
    w.rejectEach err entries = { w with calls := (w.rejectEach err entries).calls } := by
  unfold rejectEach
  induction entries generalizing w with
  | nil => rfl
  | cons entry entries ih =>
    rw [foldl_cons, ih]
    rw [settlePromise_eq w]

/-- Settling a promise changes one call, and only from awaiting that very response. -/
theorem calls_settlePromise (c : CallId) (id : JsString) (phase : Phase)
    (other : CallId) : (w.settlePromise c id phase).calls other = w.calls other ∧
        (∀ call, w.calls other = some call → call.phase = .waiting id → other ≠ c) ∨
      (other = c ∧ ∃ call, w.calls c = some call ∧ call.phase = .waiting id ∧
        (w.settlePromise c id phase).calls other = some { call with phase := phase }) := by
  unfold settlePromise
  cases hcall : w.calls c with
  | none =>
    left
    refine ⟨rfl, ?_⟩
    rintro call hother - rfl
    rw [hcall] at hother
    cases hother
  | some call =>
    by_cases hwait : call.phase = .waiting id
    · simp only [awaits_waiting.mpr hwait, if_true, setCall]
      by_cases hother : other = c
      · subst hother
        exact .inr ⟨rfl, call, rfl, hwait, update_self ..⟩
      · exact .inl ⟨update_of_ne hother .., fun _ _ _ => hother⟩
    · left
      simp only [awaits_waiting, hwait, if_false, true_and]
      rintro call' hother hwait' rfl
      rw [hcall] at hother
      cases hother
      exact hwait hwait'

/-- Rejecting entries changes calls that await the response of one of them. -/
theorem calls_rejectEach (err : CallError) (entries : List (JsString × PendingCall))
    (c : CallId) : (w.rejectEach err entries).calls c = w.calls c ∧
        (∀ call id entry, w.calls c = some call → call.phase = .waiting id →
          (id, entry) ∈ entries → entry.call ≠ c) ∨
      ∃ call id, w.calls c = some call ∧ call.phase = .waiting id ∧
        (w.rejectEach err entries).calls c = some { call with phase := .failed err } := by
  induction entries generalizing w with
  | nil => exact .inl ⟨rfl, fun _ _ _ _ _ hmem => absurd hmem not_mem_nil⟩
  | cons entry entries ih =>
    have hfirst := calls_settlePromise w entry.2.call entry.1 (.failed err) c
    have hrest := ih (w.settlePromise entry.2.call entry.1 (.failed err))
    rcases hfirst with ⟨hsame, hfirst⟩ | ⟨rfl, call, hcall, hwait, hnew⟩
    · rw [hsame] at hrest
      rcases hrest with ⟨hrest, hlater⟩ | hrest
      · refine .inl ⟨hrest, fun call id e hcall hwait hmem => ?_⟩
        rcases mem_cons.mp hmem with rfl | hmem
        · exact fun heq => hfirst call hcall hwait heq.symm
        · exact hlater call id e hcall hwait hmem
      · exact .inr hrest
    · right
      refine ⟨call, entry.1, hcall, hwait, ?_⟩
      rcases hrest with ⟨hrest, -⟩ | ⟨call', id', hcall', hwait', -⟩
      · exact hrest.trans hnew
      · rw [hnew] at hcall'
        cases hcall'
        cases hwait'

end World

/-! ## The steps -/

/-- The payload is an ok response with an id and a result. -/
def Answers (ext : Externals) (payload : List UInt8) (id : JsString) (result : Option Json) :
    Prop :=
  ∃ raw response, ext.jsonParse payload = some raw ∧ isStreamFrameCandidate raw = false ∧
    parseResponse raw = some response ∧ response.id = id ∧ response.ok = true ∧
    response.result = result

/-- What the handling of a frame comes down to. -/
inductive Handled (ext : Externals) (w : World) (payload : List UInt8) : World → Prop
  | ignored : Handled ext w payload w
  | rejected {id : JsString} {entry : PendingCall} {err : CallError}
      (hpending : w.client.pending.get id = some entry) :
      Handled ext w payload ((w.deletePending id).settlePromise entry.call id (.failed err))
  | answered {id : JsString} {entry : PendingCall} {result : Option Json}
      (hpending : w.client.pending.get id = some entry)
      (hanswers : Answers ext payload id result) :
      Handled ext w payload
        ((w.deletePending id).settlePromise entry.call id (.settled (.resolved result)))

namespace World

theorem handled_deliverStreamFrame (w : World) (payload : List UInt8) (id : JsString)
    (callbackError : Option JsString) :
    Handled ext w payload (w.deliverStreamFrame id callbackError) := by
  unfold deliverStreamFrame
  split
  · next hpending =>
    split
    · exact .rejected hpending
    · exact .ignored
  · exact .ignored

theorem handled_rejectMalformed (w : World) (payload : List UInt8) (raw : Json)
    (reason : JsString) : Handled ext w payload (w.rejectMalformed raw reason) := by
  unfold rejectMalformed
  split
  · split
    · next hpending => exact .rejected hpending
    · exact .ignored
  · exact .ignored

theorem handled_handleResponse {payload : List UInt8} {raw : Json} {response : BridgeResponse}
    (hparse : ext.jsonParse payload = some raw) (hframe : isStreamFrameCandidate raw = false)
    (hresponse : parseResponse raw = some response) :
    Handled ext w payload (w.handleResponse response) := by
  unfold handleResponse
  split
  · exact .ignored
  · next hpending =>
    by_cases hok : response.ok = true
    · rw [if_pos hok]
      exact .answered hpending ⟨raw, response, hparse, hframe, hresponse, rfl, hok, rfl⟩
    · rw [if_neg hok]
      exact .rejected hpending

theorem handled_handleFrame (w : World) (payload : List UInt8) (callbackError : Option JsString) :
    Handled ext w payload (w.handleFrame ext payload callbackError) := by
  unfold handleFrame
  cases hparse : ext.jsonParse payload with
  | none => exact .ignored
  | some raw =>
    dsimp only
    cases hframe : isStreamFrameCandidate raw with
    | true =>
      rw [if_pos rfl]
      split
      · exact .ignored
      · exact handled_deliverStreamFrame ..
    | false =>
      rw [if_neg Bool.false_ne_true]
      split
      · exact handled_rejectMalformed ..
      · next hresponse => exact handled_handleResponse hparse hframe hresponse

end World

/-- The world after the socket has been dropped for a retry. -/
def World.dropSocket (w : World) : World := { w with client := { w.client with socket := none } }

/-- The world with the next frame taken from the inbox. -/
def World.takeFrame (w : World) (conn : ConnId) (payload : List UInt8)
    (inbox : List (ConnId × List UInt8)) : World :=
  { w with inbox := inbox, handled := w.handled ++ [(conn, payload)] }

/-- What a step comes down to. -/
inductive Stepped (ext : Externals) (w : World) : Event → World → Prop
  | connect : Stepped ext w .connect w.connect
  | connected {conn : ConnId} (hstatus : (w.connections conn).status = .connecting) :
      Stepped ext w (.connected conn) (w.onConnect conn)
  | connectFailed {conn : ConnId} {message : JsString}
      (hstatus : (w.connections conn).status = .connecting) :
      Stepped ext w (.connectFailed conn message) (w.onConnectError conn message)
  | call {c : CallId} {opts : CallOptions} {id : JsString} (hnone : w.calls c = none) :
      Stepped ext w (.call c opts id)
        (w.callImpl ext c { opts with attempt := 1, phase := .connecting 0 } id)
  | resumed {c : CallId} {id : JsString} {call : Call} {conn : ConnId}
      (hcall : w.calls c = some call) (hphase : call.phase = .connecting conn)
      (hstatus : (w.connections conn).status ≠ .connecting) :
      Stepped ext w (.resume c id) (w.register ext c call id)
  | refused {c : CallId} {id : JsString} {call : Call} {conn : ConnId} {message : JsString}
      (hcall : w.calls c = some call) (hphase : call.phase = .connecting conn)
      (hstatus : (w.connections conn).status = .failed message) :
      Stepped ext w (.resume c id)
        (w.setCall c { call with phase := .failed (.other message) })
  | retried {c : CallId} {id : JsString} {call : Call} {err : CallError}
      (hcall : w.calls c = some call) (hphase : call.phase = .failed err)
      (hretry : w.client.closed = false) :
      Stepped ext w (.proceed c id)
        (w.dropSocket.callImpl ext c { call with attempt := call.attempt + 1 } id)
  | gaveUp {c : CallId} {id : JsString} {call : Call} {err : CallError}
      (hcall : w.calls c = some call) (hphase : call.phase = .failed err) :
      Stepped ext w (.proceed c id) (w.setCall c { call with phase := .settled (.rejected err) })
  | data {conn : ConnId} {chunk : List UInt8} (hstatus : (w.connections conn).status = .open) :
      Stepped ext w (.data conn chunk) (w.onData conn chunk)
  | frame {callbackError : Option JsString} {conn : ConnId} {payload : List UInt8}
      {inbox : List (ConnId × List UInt8)} {w' : World}
      (hinbox : w.inbox = (conn, payload) :: inbox)
      (hhandled : Handled ext (w.takeFrame conn payload inbox) payload w') :
      Stepped ext w (.frame callbackError) w'
  | timeout {id : JsString} {pending : PendingCall} {timeoutMs : Nat}
      (hpending : w.client.pending.get id = some pending) :
      Stepped ext w (.timeout id)
        ((w.deletePending id).settlePromise pending.call id
          (.failed (timeoutError pending timeoutMs)))
  | writeFailed {c : CallId} {id message : JsString} {conn : ConnId}
      (hwritten : (c, id, conn) ∈ w.written) :
      Stepped ext w (.writeFailed id message)
        ((w.deletePending id).settlePromise c id (.failed (transport message)))
  | socketError {conn : ConnId} : Stepped ext w (.socketError conn) w
  | socketClosed {conn : ConnId} (hstatus : (w.connections conn).status = .open) :
      Stepped ext w (.socketClosed conn) (w.onClose conn)
  | close : Stepped ext w .close w.close

theorem stepped_afterFailure (w : World) {id : JsString} {call : Call}
    {err : CallError} (hcall : w.calls c = some call) (hphase : call.phase = .failed err) :
    Stepped ext w (.proceed c id) (w.afterFailure ext c call err id) := by
  unfold World.afterFailure
  dsimp only
  split
  · next hretry =>
    simp only [Bool.and_eq_true, Bool.not_eq_true'] at hretry
    exact .retried hcall hphase hretry.2
  · exact .gaveUp hcall hphase

theorem stepped_afterConnect {id : JsString} {call : Call} {conn : ConnId}
    (hcall : w.calls c = some call) (hphase : call.phase = .connecting conn)
    (hstep : w.afterConnect ext c call conn id = some w') : Stepped ext w (.resume c id) w' := by
  unfold World.afterConnect at hstep
  split at hstep
  case h_1 hstatus | h_2 hstatus =>
    cases hstep
    exact .resumed hcall hphase (by rw [hstatus]; exact nofun)
  case h_3 hstatus =>
    cases hstep
    exact .refused hcall hphase hstatus
  case h_4 | h_5 => cases hstep

theorem stepped (hstep : step ext w e = some w') : Stepped ext w e w' := by
  cases e with simp only [step] at hstep
  | connect =>
    cases hstep
    exact .connect
  | connected conn =>
    obtain ⟨hstatus, rfl⟩ := of_guarded hstep
    exact .connected hstatus
  | connectFailed conn message =>
    obtain ⟨hstatus, rfl⟩ := of_guarded hstep
    exact .connectFailed hstatus
  | call c opts id =>
    split at hstep
    · cases hstep
    · next hnone =>
      cases hstep
      exact .call hnone
  | resume c id =>
    split at hstep
    · next hcall =>
      split at hstep
      · next hphase => exact stepped_afterConnect hcall hphase hstep
      · cases hstep
    · cases hstep
  | proceed c id =>
    split at hstep
    · next hcall =>
      split at hstep
      · next hphase =>
        cases hstep
        exact stepped_afterFailure w hcall hphase
      · cases hstep
    · cases hstep
  | data conn chunk =>
    obtain ⟨hstatus, rfl⟩ := of_guarded hstep
    exact .data hstatus
  | frame callbackError =>
    split at hstep
    · cases hstep
    · next hinbox =>
      cases hstep
      exact .frame hinbox (handled_handleFrame ..)
  | timeout id =>
    split at hstep
    · next hpending =>
      split at hstep
      · cases hstep
        exact .timeout hpending
      · cases hstep
    · cases hstep
  | writeFailed id message =>
    split at hstep
    · next c id' conn hfind =>
      cases hstep
      have hid : id' = id := by simpa using find?_some hfind
      exact .writeFailed (hid ▸ mem_of_find?_eq_some hfind)
    · cases hstep
  | socketError conn =>
    obtain ⟨-, rfl⟩ := of_guarded hstep
    exact .socketError
  | socketClosed conn =>
    obtain ⟨hstatus, rfl⟩ := of_guarded hstep
    exact .socketClosed hstatus
  | close =>
    cases hstep
    exact .close

/-! ## How a step moves a call -/

def Phase.IsResolved : Phase → Prop
  | .settled (.resolved _) => True
  | _ => False

/-- What a step does to a call: nothing, or it moves one that is not settled, and resolves it
only with the answer that it awaits. -/
inductive Progress (ext : Externals) (w w' : World) (c : CallId) : Prop
  | same (hsame : w'.calls c = w.calls c)
  | moves {call' : Call} (hnew : w'.calls c = some call')
      (hold : ∀ call outcome, w.calls c = some call → call.phase ≠ .settled outcome)
      (hphase : ¬ call'.phase.IsResolved)
  | answered {call : Call} {id : JsString} {conn : ConnId} {payload : List UInt8}
      {result : Option Json} (hold : w.calls c = some call) (hwait : call.phase = .waiting id)
      (hnew : w'.calls c = some { call with phase := .settled (.resolved result) })
      (hhandled : (conn, payload) ∈ w'.handled) (hanswers : Answers ext payload id result)

/-- Only the calls before the step matter. -/
theorem Progress.of_calls (w₁ : World) (hcalls : w₁.calls = w.calls)
    (hprogress : Progress ext w₁ w' c) : Progress ext w w' c := by
  cases hprogress with
  | same hsame => exact .same (hcalls ▸ hsame)
  | moves hnew hold hphase => exact .moves hnew (hcalls ▸ hold) hphase
  | answered hold hwait hnew hhandled hanswers =>
    exact .answered (hcalls ▸ hold) hwait hnew hhandled hanswers

theorem ne_settled {call : Call} {phase : Phase} (hcall : w.calls c = some call)
    (hphase : call.phase = phase) (hphase' : ∀ outcome, phase ≠ .settled outcome) (call' : Call)
    (outcome : Outcome) (hcall' : w.calls c = some call') : call'.phase ≠ .settled outcome := by
  rw [hcall] at hcall'
  cases hcall'
  rw [hphase]
  exact hphase' outcome

namespace World

theorem progress_update {call' : Call} (hcalls : w'.calls = update w.calls c (some call'))
    (hold : ∀ call outcome, w.calls c = some call → call.phase ≠ .settled outcome)
    (hphase : ¬ call'.phase.IsResolved) (other : CallId) : Progress ext w w' other := by
  by_cases hother : other = c
  · subst hother
    exact .moves (by rw [hcalls, update_self]) hold hphase
  · exact .same (by rw [hcalls, update_of_ne hother])

theorem progress_rejectEach {err : CallError} {entries : List (JsString × PendingCall)}
    (hcalls : w'.calls = (w.rejectEach err entries).calls) (c : CallId) : Progress ext w w' c := by
  rcases calls_rejectEach w err entries c with ⟨hsame, -⟩ | ⟨call, id, hcall, hwait, hnew⟩
  · exact .same (by rw [hcalls, hsame])
  · have hphase : ¬ (Phase.failed err).IsResolved := not_false
    exact .moves (by rw [hcalls, hnew]) (ne_settled hcall hwait nofun) hphase

theorem startConnecting_calls (w : World) : w.startConnecting.1.calls = w.calls := by
  unfold startConnecting
  split <;> rfl

section
variable (ext : Externals) (w : World) (c : CallId) (call : Call) (id : JsString)

theorem register_calls :
    ∃ call', (w.register ext c call id).calls = update w.calls c (some call') ∧
      ¬ call'.phase.IsResolved ∧ call'.attempt = call.attempt := by
  unfold register
  split
  · exact ⟨_, rfl, not_false, rfl⟩
  · split
    · exact ⟨_, rfl, not_false, rfl⟩
    · exact ⟨_, rfl, not_false, rfl⟩

theorem callImpl_calls :
    ∃ call', (w.callImpl ext c call id).calls = update w.calls c (some call') ∧
      ¬ call'.phase.IsResolved ∧ call'.attempt = call.attempt := by
  unfold callImpl
  split
  · exact ⟨_, rfl, not_false, rfl⟩
  · split
    · exact register_calls ext w c call id
    · refine ⟨{ call with phase := .connecting w.startConnecting.2 }, ?_, not_false, rfl⟩
      exact congrArg (update · c _) (startConnecting_calls w)

end

theorem onData_progress (w : World) (conn : ConnId) (chunk : List UInt8) (c : CallId) :
    Progress ext w (w.onData conn chunk) c := by
  unfold onData
  split
  · split
    · next err _ _ =>
      have hcalls : (w.onFrameError err).calls =
          (w.rejectEach (transport err.message) w.client.pending.entries).calls := rfl
      exact progress_rejectEach hcalls c
    · exact .same rfl
  · exact .same rfl

/-- Deleting an entry and rejecting its promise. -/
theorem progress_reject (w : World) (c : CallId) (id : JsString) (err : CallError)
    (other : CallId) :
    Progress ext w ((w.deletePending id).settlePromise c id (.failed err)) other := by
  rcases calls_settlePromise (w.deletePending id) c id (.failed err) other with
    ⟨hsame, -⟩ | ⟨rfl, call, hcall, hwait, hnew⟩
  · exact .same hsame
  · have hphase : ¬ (Phase.failed err).IsResolved := not_false
    exact .moves hnew (ne_settled hcall hwait nofun) hphase

theorem progress_handled {conn : ConnId} {payload : List UInt8}
    (hmem : (conn, payload) ∈ w.handled) (hhandled : Handled ext w payload w') (c : CallId) :
    Progress ext w w' c := by
  cases hhandled with
  | ignored => exact .same rfl
  | rejected _ => exact progress_reject ..
  | @answered id entry result _ hanswers =>
    have hmoves := calls_settlePromise (w.deletePending id) entry.call id
      (.settled (.resolved result)) c
    rcases hmoves with ⟨hsame, -⟩ | ⟨rfl, call, hcall, hwait, hnew⟩
    · exact .same hsame
    · rw [settlePromise_eq]
      exact .answered hcall hwait hnew hmem hanswers

end World

theorem step_progress (hstep : step ext w e = some w') (c : CallId) : Progress ext w w' c := by
  cases stepped hstep with
  | connect =>
    unfold World.connect
    split
    · exact .same rfl
    · exact .same (congrFun (startConnecting_calls w) c)
  | connected _ | connectFailed _ | socketError => exact .same rfl
  | call hnone =>
    obtain ⟨call', hcalls, hphase, -⟩ := callImpl_calls ext w _ _ _
    refine progress_update hcalls ?_ hphase c
    intro call outcome hcall
    rw [hnone] at hcall
    cases hcall
  | resumed hcall hconnecting _ =>
    obtain ⟨call', hcalls, hphase, -⟩ := register_calls ext w _ _ _
    exact progress_update hcalls
      (ne_settled hcall hconnecting nofun) hphase c
  | @refused _ _ _ _ message hcall hconnecting _ =>
    have hphase : ¬ (Phase.failed (.other message)).IsResolved := not_false
    exact progress_update rfl
      (ne_settled hcall hconnecting nofun) hphase c
  | retried hcall hfailed _ =>
    obtain ⟨call', hcalls, hphase, -⟩ := callImpl_calls ext w.dropSocket _ _ _
    exact Progress.of_calls w.dropSocket rfl (progress_update hcalls
      (ne_settled hcall hfailed nofun) hphase c)
  | @gaveUp _ _ _ err hcall hfailed =>
    have hphase : ¬ (Phase.settled (.rejected err)).IsResolved := not_false
    exact progress_update rfl
      (ne_settled hcall hfailed nofun) hphase c
  | data _ => exact onData_progress w _ _ c
  | @frame _ conn payload inbox _ _ hhandled =>
    refine Progress.of_calls (w.takeFrame conn payload inbox) rfl ?_
    exact progress_handled (mem_append_right _ mem_cons_self) hhandled c
  | timeout _ | writeFailed _ => exact progress_reject ..
  | @socketClosed conn _ =>
    have hcalls : (w.onClose conn).calls = (w.rejectEach (transport (js "socket closed"))
        (w.client.pending.filter fun _ pending => pending.sock = some conn).entries).calls := rfl
    exact progress_rejectEach hcalls c
  | close =>
    have hcalls : w.close.calls = (w.rejectEach (transport (js "client closed"))
        w.client.pending.entries).calls := rfl
    exact progress_rejectEach hcalls c

/-! ## Waiting calls and their entries -/

def World.status (w : World) (conn : ConnId) : ConnStatus := (w.connections conn).status

/-- The entry that a waiting call has: its own, with the open socket its request went out on. -/
structure HasEntry (w : World) (c : CallId) (id : JsString) (entry : PendingCall)
    (conn : ConnId) : Prop where
  pending : w.client.pending.get id = some entry
  call : entry.call = c
  sock : entry.sock = some conn
  status : w.status conn = .open

structure Inv (w : World) : Prop where
  waiting : ∀ c call id, w.calls c = some call → call.phase = .waiting id →
    ∃ entry conn, HasEntry w c id entry conn ∧ (c, id, conn) ∈ w.written
  written_ids : ∀ c id conn, (c, id, conn) ∈ w.written → id ∈ w.ids
  written_unique : ∀ c id conn c' conn', (c, id, conn) ∈ w.written → (c', id, conn') ∈ w.written →
    c = c' ∧ conn = conn'
  socket_open : ∀ conn, w.client.socket = some conn → w.status conn = .open
  fresh : ∀ conn, w.nextConn ≤ conn → w.status conn = .absent

namespace Inv

theorem start : Inv World.start where
  waiting _ _ _ hcall := nomatch hcall
  written_ids _ _ _ hmem := absurd hmem not_mem_nil
  written_unique _ _ _ _ _ hmem := absurd hmem not_mem_nil
  socket_open _ hsocket := nomatch hsocket
  fresh _ _ := rfl

variable {call : Call}

section
variable (hinv : Inv w)
include hinv

theorem waiting_unique {c' : CallId} {id : JsString}
    {conn : ConnId} (hcall : w.calls c = some call) (hwait : call.phase = .waiting id)
    (hwritten : (c', id, conn) ∈ w.written) : c = c' ∧ w.status conn = .open := by
  obtain ⟨entry, conn', hentry, hmem⟩ := hinv.waiting c call id hcall hwait
  obtain ⟨rfl, rfl⟩ := hinv.written_unique _ _ _ _ _ hmem hwritten
  exact ⟨rfl, hentry.status⟩

section
variable (hwritten : w'.written = w.written)
  (hsocket : ∀ conn, w'.client.socket = some conn → w'.status conn = .open)
  (hfresh : ∀ conn, w'.nextConn ≤ conn → w'.status conn = .absent)
include hwritten hsocket hfresh

/-- A step that writes no request: the calls that wait still have their entries. -/
theorem of_entries (hwaiting : ∀ c call id, w'.calls c = some call → call.phase = .waiting id →
      w.calls c = some call ∧
        ∀ entry conn, HasEntry w c id entry conn → HasEntry w' c id entry conn)
    (hids : w.ids ⊆ w'.ids) : Inv w' where
  waiting := by
    intro c call id hcall hwait
    obtain ⟨hold, hkept⟩ := hwaiting c call id hcall hwait
    obtain ⟨entry, conn, hentry, hmem⟩ := hinv.waiting c call id hold hwait
    exact ⟨entry, conn, hkept entry conn hentry, hwritten ▸ hmem⟩
  written_ids := by
    intro c id conn hmem
    rw [hwritten] at hmem
    exact hids (hinv.written_ids c id conn hmem)
  written_unique := by
    rw [hwritten]
    exact hinv.written_unique
  socket_open := hsocket
  fresh := hfresh

/-- A call that does not wait, and for the rest entries that are kept. -/
theorem update (hcalls : w'.calls = update w.calls c (some call))
    (hphase : ∀ id, call.phase ≠ .waiting id)
    (hentries : ∀ c id entry conn, id ∈ w.ids → HasEntry w c id entry conn →
      HasEntry w' c id entry conn) (hids : w.ids ⊆ w'.ids) : Inv w' := by
  refine hinv.of_entries hwritten hsocket hfresh ?_ hids
  intro other call' id hother hwait
  rw [hcalls] at hother
  by_cases heq : other = c
  · subst heq
    rw [update_self] at hother
    cases hother
    exact absurd hwait (hphase id)
  · rw [update_of_ne heq] at hother
    obtain ⟨-, conn, -, hmem⟩ := hinv.waiting other call' id hother hwait
    exact ⟨hother, fun entry conn' =>
      hentries other id entry conn' (hinv.written_ids other id conn hmem)⟩

/-- The rejection of some entries, the others kept. -/
theorem reject {err : CallError} {entries : List (JsString × PendingCall)}
    (hcalls : w'.calls = (w.rejectEach err entries).calls)
    (hentries : ∀ c id entry conn, (id, entry) ∉ entries → HasEntry w c id entry conn →
      HasEntry w' c id entry conn) (hids : w'.ids = w.ids) : Inv w' := by
  refine hinv.of_entries hwritten hsocket hfresh ?_ (hids ▸ List.Subset.refl _)
  intro c call id hcall hwait
  rw [hcalls] at hcall
  rcases calls_rejectEach w err entries c with ⟨hsame, hnot⟩ | ⟨call', id', -, -, hnew⟩
  · have hold : w.calls c = some call := hsame ▸ hcall
    refine ⟨hold, fun entry conn hentry => hentries c id entry conn ?_ hentry⟩
    intro hmem
    exact hnot call id entry hold hwait hmem hentry.call
  · have heq : call = { call' with phase := .failed err } := Option.some.inj (hcall.symm.trans hnew)
    rw [heq] at hwait
    cases hwait

/-- Only sockets change, and those that are open stay so. -/
theorem of_status (hcalls : w'.calls = w.calls) (hids : w'.ids = w.ids)
    (hpending : w'.client.pending = w.client.pending)
    (hopen : ∀ conn, w.status conn = .open → w'.status conn = .open) : Inv w' := by
  refine hinv.of_entries hwritten hsocket hfresh ?_ (hids ▸ List.Subset.refl _)
  intro c call id hcall _
  refine ⟨hcalls ▸ hcall, fun _ conn hentry => ?_⟩
  exact ⟨hpending ▸ hentry.pending, hentry.call, hentry.sock, hopen conn hentry.status⟩

end

theorem setCall (hphase : ∀ id, call.phase ≠ .waiting id) : Inv (w.setCall c call) :=
  hinv.update rfl hinv.socket_open hinv.fresh rfl hphase (fun _ _ _ _ _ hentry => { hentry with })
    (List.Subset.refl _)

theorem dropSocket : Inv w.dropSocket :=
  hinv.of_status rfl nofun hinv.fresh rfl rfl rfl fun _ => id

/-- The deletion of an entry with the settling of its promise. -/
theorem settle {id : JsString} {phase : Phase} (hphase : ∀ id', phase ≠ .waiting id')
    (hown : ∀ c' call, w.calls c' = some call → call.phase = .waiting id → c' = c) :
    Inv ((w.deletePending id).settlePromise c id phase) := by
  rw [settlePromise_eq]
  refine hinv.of_entries rfl hinv.socket_open hinv.fresh ?_ (List.Subset.refl _)
  intro other call id' hother hwait
  have hmoves := calls_settlePromise (w.deletePending id) c id phase other
  rcases hmoves with ⟨hsame, hnot⟩ | ⟨rfl, call', -, -, hnew⟩
  · have hold : w.calls other = some call := hsame ▸ hother
    refine ⟨hold, fun entry conn hentry => { hentry with pending := ?_ }⟩
    have hne : id' ≠ id := by
      rintro rfl
      exact hnot call hold hwait (hown other call hold hwait)
    show (w.client.pending.delete id).get id' = some entry
    rw [JsMap.get_delete, if_neg hne]
    exact hentry.pending
  · have hcall : call = { call' with phase := phase } := Option.some.inj (hother.symm.trans hnew)
    rw [hcall] at hwait
    exact absurd hwait (hphase id')

end

end Inv

/-! ## Every step keeps the invariant -/

namespace World

theorem status_setStatus (w : World) (conn conn' : ConnId) (status : ConnStatus) :
    (w.setStatus conn status).status conn' = if conn' = conn then status else w.status conn' := by
  unfold World.status setStatus
  by_cases heq : conn' = conn
  · subst heq
    simp only [update_self, if_true]
  · simp only [update_of_ne heq, if_neg heq]

variable {conn : ConnId} {status : ConnStatus} {id : JsString}

/-- Open sockets stay open when one that is not changes its state. -/
theorem open_setStatus (hnot : w.status conn ≠ .open)
    {conn' : ConnId} (hopen : w.status conn' = .open) :
    (w.setStatus conn status).status conn' = .open := by
  have hne : conn' ≠ conn := by
    rintro rfl
    exact hnot hopen
  rw [status_setStatus, if_neg hne]
  exact hopen

theorem fresh_setStatus (hinv : Inv w)
    (hconn : conn < w.nextConn) {conn' : ConnId} (hle : w.nextConn ≤ conn') :
    (w.setStatus conn status).status conn' = .absent := by
  rw [status_setStatus, if_neg (ne_of_gt (lt_of_lt_of_le hconn hle))]
  exact hinv.fresh conn' hle

theorem lt_nextConn_of_status (hinv : Inv w) (hstatus : w.status conn = status)
    (hne : status ≠ .absent) : conn < w.nextConn := by
  by_contra hle
  exact hne (hstatus.symm.trans (hinv.fresh conn (Nat.le_of_not_lt hle)))

theorem inv_startConnecting (hinv : Inv w) : Inv w.startConnecting.1 := by
  unfold startConnecting
  split
  · exact hinv
  · have hnot : w.status w.nextConn ≠ .open := by
      rw [hinv.fresh _ (le_refl _)]
      exact nofun
    refine hinv.of_status rfl ?_ ?_ rfl rfl rfl fun _ => open_setStatus hnot
    · intro conn hsocket
      exact open_setStatus hnot (hinv.socket_open _ hsocket)
    · intro conn hle
      show (w.setStatus w.nextConn .connecting).status conn = .absent
      have hlt : w.nextConn < conn := hle
      rw [status_setStatus, if_neg (ne_of_gt hlt)]
      exact hinv.fresh conn (le_of_lt hlt)

section Connecting
variable (hinv : Inv w) (hstatus : w.status conn = .connecting)
include hinv hstatus

theorem inv_onConnect : Inv (w.onConnect conn) := by
  have hlt := lt_nextConn_of_status hinv hstatus nofun
  refine hinv.of_status rfl ?_ (fun _ hle => fresh_setStatus hinv hlt hle) rfl rfl rfl
    fun _ => open_setStatus (hstatus.trans_ne nofun)
  intro conn' hsocket
  cases hsocket
  show (w.setStatus conn .open).status conn = .open
  rw [status_setStatus, if_pos rfl]

theorem inv_onConnectError (message : JsString) : Inv (w.onConnectError conn message) := by
  have hlt := lt_nextConn_of_status hinv hstatus nofun
  have hopen {conn' : ConnId} : w.status conn' = .open →
      (w.setStatus conn (.failed message)).status conn' = .open :=
    open_setStatus (hstatus.trans_ne nofun)
  exact hinv.of_status rfl (fun _ hsocket => hopen (hinv.socket_open _ hsocket))
    (fun _ hle => fresh_setStatus hinv hlt hle) rfl rfl rfl fun _ => hopen

end Connecting

section
variable (hinv : Inv w)
include hinv

theorem inv_register {call : Call} (hid : id ∉ w.ids) : Inv (w.register ext c call id) := by
  -- the entries of other requests after the new one has been registered
  have hkept (entry : PendingCall) (c' : CallId) (id' : JsString) (entry' : PendingCall)
      (conn : ConnId) (hid' : id' ∈ w.ids) (hentry : HasEntry w c' id' entry' conn) :
      (w.client.pending.set id entry).get id' = some entry' := by
    rw [JsMap.get_set, if_neg]
    · exact hentry.pending
    · rintro rfl
      exact hid hid'
  unfold register
  split
  · next hsocket =>
    refine hinv.update rfl hinv.socket_open hinv.fresh rfl nofun ?_
      (subset_cons_self _ _)
    intro c' id' entry conn hid' hentry
    exact { hentry with pending := hkept _ c' id' entry conn hid' hentry }
  · next sock hsocket =>
    split
    · refine hinv.update rfl hinv.socket_open hinv.fresh rfl nofun ?_
        (subset_cons_self _ _)
      intro c' id' entry conn hid' hentry
      exact { hentry with pending := hkept _ c' id' entry conn hid' hentry }
    · exact
        { waiting := by
            intro c' call' id' hcall hwait
            by_cases heq : c' = c
            · subst heq
              cases Option.some.inj (hcall.symm.trans (update_self ..))
              cases hwait
              refine ⟨⟨c', call.method, call.onStream, call.timeoutMs, w.client.socket⟩, sock,
                ⟨?_, rfl, hsocket, hinv.socket_open sock hsocket⟩, mem_cons_self⟩
              show (w.client.pending.set id _).get id = _
              rw [JsMap.get_set, if_pos rfl]
            · have hold : w.calls c' = some call' :=
                (update_of_ne heq ..).symm.trans hcall
              obtain ⟨entry, conn, hentry, hmem⟩ := hinv.waiting c' call' id' hold hwait
              have hid' := hinv.written_ids c' id' conn hmem
              exact ⟨entry, conn, { hentry with pending := hkept _ c' id' entry conn hid' hentry },
                mem_cons_of_mem _ hmem⟩
          written_ids := by
            intro c' id' conn hmem
            rcases mem_cons.mp hmem with heq | hmem
            · cases heq
              exact mem_cons_self
            · exact mem_cons_of_mem _ (hinv.written_ids c' id' conn hmem)
          written_unique := by
            intro c₁ id' conn₁ c₂ conn₂ hmem₁ hmem₂
            rcases mem_cons.mp hmem₁ with heq₁ | hmem₁ <;>
              rcases mem_cons.mp hmem₂ with heq₂ | hmem₂
            · cases heq₁
              cases heq₂
              exact ⟨rfl, rfl⟩
            · cases heq₁
              exact absurd (hinv.written_ids _ _ _ hmem₂) hid
            · cases heq₂
              exact absurd (hinv.written_ids _ _ _ hmem₁) hid
            · exact hinv.written_unique _ _ _ _ _ hmem₁ hmem₂
          socket_open := hinv.socket_open
          fresh := hinv.fresh }

theorem inv_callImpl {call : Call} (hid : id ∉ w.ids) : Inv (w.callImpl ext c call id) := by
  unfold callImpl
  split
  · exact hinv.setCall nofun
  · split
    · exact inv_register hinv hid
    · exact (inv_startConnecting hinv).setCall nofun

theorem inv_onData (conn : ConnId) (chunk : List UInt8) : Inv (w.onData conn chunk) := by
  unfold onData
  split
  · split
    · next err _ _ =>
      have hcalls : (w.onFrameError err).calls =
          (w.rejectEach (transport err.message) w.client.pending.entries).calls := rfl
      have hrest := rejectEach_eq w (transport err.message) w.client.pending.entries
      unfold onFrameError
      rw [hrest]
      refine hinv.reject rfl nofun hinv.fresh hcalls ?_ rfl
      intro c id entry conn' hnot hentry
      exact absurd (JsMap.mem_of_get hentry.pending) hnot
    · next frames acc _ =>
      have hstatus : ∀ conn', (update w.connections conn
          { w.connections conn with
            taken := (w.connections conn).taken ++ [chunk]
            frames := (w.connections conn).frames ++ frames } conn').status = w.status conn' := by
        intro conn'
        by_cases heq : conn' = conn
        · subst heq
          rw [update_self]
          rfl
        · rw [update_of_ne heq]
          rfl
      refine hinv.of_status rfl ?_ ?_ rfl rfl rfl fun conn' => (hstatus conn').trans
      · intro conn' hsocket
        exact (hstatus conn').trans (hinv.socket_open conn' hsocket)
      · intro conn' hle
        exact (hstatus conn').trans (hinv.fresh conn' hle)
  · exact hinv

/-- The call that an entry is for is the one that waits for its response. -/
theorem eq_of_pending {entry : PendingCall}
    (hentry : w.client.pending.get id = some entry) (c : CallId) (call : Call)
    (hcall : w.calls c = some call) (hwait : call.phase = .waiting id) : c = entry.call := by
  obtain ⟨own, conn, hown, -⟩ := hinv.waiting c call id hcall hwait
  rw [hown.pending] at hentry
  cases hentry
  exact hown.call.symm

theorem inv_handled {payload : List UInt8} (hhandled : Handled ext w payload w') : Inv w' := by
  cases hhandled with
  | ignored => exact hinv
  | rejected hpending | answered hpending _ =>
    exact hinv.settle nofun (eq_of_pending hinv hpending)

theorem inv_onClose (hstatus : w.status conn = .open) : Inv (w.onClose conn) := by
  have hlt := lt_nextConn_of_status hinv hstatus nofun
  have hrest := rejectEach_eq w (transport (js "socket closed"))
    (w.client.pending.filter fun _ pending => pending.sock = some conn).entries
  have hkept {conn' : ConnId} (hne : conn' ≠ conn) (hopen : w.status conn' = .open) :
      (w.setStatus conn .closed).status conn' = .open := by
    rw [status_setStatus, if_neg hne]
    exact hopen
  unfold onClose
  dsimp only
  rw [hrest]
  refine hinv.reject rfl ?_ (fun _ hle => fresh_setStatus hinv hlt hle) rfl ?_ rfl
  · intro conn' hsocket
    split at hsocket
    · cases hsocket
    · next hne =>
      refine hkept ?_ (hinv.socket_open conn' hsocket)
      rintro rfl
      exact hne hsocket
  · intro c id entry conn' hnot hentry
    have hsock : entry.sock ≠ some conn := by
      intro hsock
      apply hnot
      exact mem_filter.mpr ⟨JsMap.mem_of_get hentry.pending, decide_eq_true hsock⟩
    refine ⟨?_, hentry.call, hentry.sock, hkept ?_ hentry.status⟩
    · show (w.client.pending.filter _).get id = some entry
      rw [JsMap.get_filter, hentry.pending, filter_some, if_pos]
      rw [decide_eq_false hsock]
      rfl
    · rintro rfl
      exact hsock hentry.sock

theorem inv_close : Inv w.close := by
  have hcalls : w.close.calls = (w.rejectEach (transport (js "client closed"))
      w.client.pending.entries).calls := rfl
  have hrest := rejectEach_eq w (transport (js "client closed")) w.client.pending.entries
  unfold close
  rw [hrest]
  refine hinv.reject rfl nofun hinv.fresh hcalls ?_ rfl
  intro c id entry conn' hnot hentry
  exact absurd (JsMap.mem_of_get hentry.pending) hnot

end

end World

theorem inv_step (hinv : Inv w) (hids : FreshIds w e)
    (hstep : step ext w e = some w') : Inv w' := by
  cases stepped hstep with
  | connect =>
    unfold World.connect
    split
    · exact hinv
    · exact inv_startConnecting hinv
  | connected hstatus => exact inv_onConnect hinv hstatus
  | connectFailed hstatus => exact inv_onConnectError hinv hstatus _
  | call _ => exact inv_callImpl hinv hids
  | resumed _ _ _ => exact inv_register hinv hids
  | refused _ _ _ | gaveUp _ _ => exact hinv.setCall nofun
  | retried _ _ _ => exact inv_callImpl hinv.dropSocket hids
  | data _ => exact inv_onData hinv _ _
  | frame _ hhandled =>
    refine inv_handled ?_ hhandled
    exact hinv.of_status rfl hinv.socket_open hinv.fresh rfl rfl rfl fun _ => id
  | timeout hpending =>
    exact hinv.settle nofun (eq_of_pending hinv hpending)
  | writeFailed hwritten =>
    refine hinv.settle nofun ?_
    intro c' call hcall hwait
    exact (hinv.waiting_unique hcall hwait hwritten).1
  | socketError => exact hinv
  | socketClosed hstatus => exact inv_onClose hinv hstatus
  | close => exact inv_close hinv

theorem inv_of_reaches (hreach : Reaches (step ext) FreshIds World.start w) : Inv w :=
  invariant_of_reaches Inv.start (fun _ _ _ _ hids hinv hstep => inv_step hinv hids hstep) hreach

end SquadPanel.Bridge.Client
