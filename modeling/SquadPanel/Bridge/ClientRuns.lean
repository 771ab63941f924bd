import SquadPanel.Bridge.ClientSteps

/-!
# Runs of the bridge client

The close of a socket settles what is pending on it, a response settles the call it is for, and
an accumulator that starts empty with every socket keeps their bytes apart.
-/

namespace SquadPanel.Bridge.Client

open Js Lib.Machine List World Function

variable {ext : Externals} {w w' : World} {e : Event} {c : CallId} {call : Call} {outcome : Outcome}

/-! ## The bytes of a connection -/

theorem pushAll_concat {acc acc' acc'' : FrameAccumulator} {chunks : List (List UInt8)}
    {chunk : List UInt8} {frames more : List (List UInt8)}
    (hchunks : acc.pushAll chunks = (.ok frames, acc'))
    (hchunk : acc'.push chunk = (.ok more, acc'')) :
    acc.pushAll (chunks ++ [chunk]) = (.ok (frames ++ more), acc'') := by
  induction chunks generalizing acc frames with
  | nil =>
    cases hchunks
    simp only [nil_append, FrameAccumulator.pushAll, hchunk, Except.map, append_nil]
  | cons first chunks ih =>
    rw [FrameAccumulator.pushAll] at hchunks
    rw [cons_append, FrameAccumulator.pushAll]
    cases hfirst : acc.push first with
    | mk result next =>
      rw [hfirst] at hchunks
      cases result with
      | error e => cases hchunks
      | ok found =>
        dsimp only at hchunks ⊢
        cases hrest : next.pushAll chunks with
        | mk result last =>
          rw [hrest] at hchunks
          cases result with
          | error e => cases hchunks
          | ok later =>
            cases hchunks
            rw [ih hrest]
            simp only [Except.map, append_assoc]

/-- What is read by the accumulator and its users. -/
def World.stream (w : World) :
    Option ConnId × FrameAccumulator × (ConnId → Connection) × List (ConnId × List UInt8) ×
      List (ConnId × List UInt8) :=
  (w.client.socket, w.client.frames, w.connections, w.inbox, w.handled)

/-- The frames of a connection are those of its own bytes, and the accumulator holds what is
left of the bytes of the current one. -/
structure OwnBytes (w : World) : Prop where
  decoded : ∀ conn, ∃ acc, FrameAccumulator.empty.pushAll (w.connections conn).taken =
    (.ok (w.connections conn).frames, acc) ∧ (w.client.socket = some conn → w.client.frames = acc)
  unused : ∀ conn, w.status conn = .absent ∨ w.status conn = .connecting →
    (w.connections conn).taken = [] ∧ (w.connections conn).frames = []
  delivered : ∀ conn, ((w.handled ++ w.inbox).filter (·.1 = conn)).map (·.2) =
    (w.connections conn).frames

namespace OwnBytes

theorem start : OwnBytes World.start where
  decoded _ := ⟨.empty, rfl, nofun⟩
  unused _ _ := ⟨rfl, rfl⟩
  delivered _ := rfl

theorem of_stream (hown : OwnBytes w) (hstream : w'.stream = w.stream) : OwnBytes w' := by
  unfold World.stream at hstream
  obtain ⟨hsocket, hframes, hconnections, hinbox, hhandled⟩ := by
    simpa only [Prod.mk.injEq] using hstream
  refine ⟨?_, ?_, ?_⟩
  · rw [hsocket, hframes, hconnections]
    exact hown.decoded
  · unfold World.status
    rw [hconnections]
    exact hown.unused
  · rw [hconnections, hinbox, hhandled]
    exact hown.delivered

theorem drop (hown : OwnBytes w) (hsocket : w'.client.socket = none)
    (hconnections : w'.connections = w.connections) (hinbox : w'.inbox = w.inbox)
    (hhandled : w'.handled = w.handled) : OwnBytes w' := by
  refine ⟨?_, ?_, ?_⟩
  · intro conn
    obtain ⟨acc, hacc, -⟩ := hown.decoded conn
    rw [hsocket, hconnections]
    exact ⟨acc, hacc, nofun⟩
  · unfold World.status
    rw [hconnections]
    exact hown.unused
  · rw [hconnections, hinbox, hhandled]
    exact hown.delivered

/-- A connection changes its state.  The socket is the same, or one nothing was read from. -/
theorem setStatus (hown : OwnBytes w) {conn : ConnId} {status : ConnStatus}
    (hconnections : w'.connections = (w.setStatus conn status).connections)
    (hinbox : w'.inbox = w.inbox) (hhandled : w'.handled = w.handled)
    (hsocket : ∀ conn', w'.client.socket = some conn' →
      (w.client.socket = some conn' ∧ w'.client.frames = w.client.frames) ∨
        ((w.connections conn').taken = [] ∧ w'.client.frames = .empty))
    (hunused : status = .absent ∨ status = .connecting →
      w.status conn = .absent ∨ w.status conn = .connecting) : OwnBytes w' := by
  have hsame : ∀ conn', (w'.connections conn').taken = (w.connections conn').taken ∧
      (w'.connections conn').frames = (w.connections conn').frames := by
    intro conn'
    rw [hconnections]
    unfold World.setStatus
    by_cases heq : conn' = conn
    · subst heq
      simp only [update_self, and_self]
    · simp only [update_of_ne heq, and_self]
  have hstatus : ∀ conn', w'.status conn' = if conn' = conn then status else w.status conn' := by
    intro conn'
    rw [← status_setStatus]
    unfold World.status
    rw [hconnections]
  refine ⟨?_, ?_, ?_⟩
  · intro conn'
    obtain ⟨acc, hacc, hcurrent⟩ := hown.decoded conn'
    rw [(hsame conn').1, (hsame conn').2]
    refine ⟨acc, hacc, fun hsome => ?_⟩
    rcases hsocket conn' hsome with ⟨hold, hframes⟩ | ⟨htaken, hframes⟩
    · rw [hframes]
      exact hcurrent hold
    · rw [htaken] at hacc
      rw [hframes]
      exact congrArg Prod.snd hacc
  · intro conn' hconn'
    rw [(hsame conn').1, (hsame conn').2]
    apply hown.unused conn'
    rw [hstatus] at hconn'
    by_cases heq : conn' = conn
    · rw [if_pos heq] at hconn'
      rw [heq]
      exact hunused hconn'
    · rw [if_neg heq] at hconn'
      exact hconn'
  · intro conn'
    rw [(hsame conn').2, hinbox, hhandled]
    exact hown.delivered conn'

theorem data (hown : OwnBytes w) {conn : ConnId} {chunk : List UInt8}
    {frames : List (List UInt8)} {acc : FrameAccumulator}
    (hsocket : w.client.socket = some conn) (hopen : w.status conn = .open)
    (hpush : w.client.frames.push chunk = (.ok frames, acc)) : OwnBytes { w with
      client := { w.client with frames := acc }
      inbox := w.inbox ++ frames.map fun payload => (conn, payload)
      connections := Function.update w.connections conn
        { w.connections conn with
          taken := (w.connections conn).taken ++ [chunk]
          frames := (w.connections conn).frames ++ frames } } := by
  obtain ⟨before, hbefore, hcurrent⟩ := hown.decoded conn
  rw [← hcurrent hsocket] at hbefore
  refine ⟨?_, ?_, ?_⟩
  · intro conn'
    by_cases heq : conn' = conn
    · subst heq
      dsimp only
      rw [update_self]
      exact ⟨acc, pushAll_concat hbefore hpush, fun _ => rfl⟩
    · dsimp only
      rw [update_of_ne heq]
      obtain ⟨other, hother, -⟩ := hown.decoded conn'
      refine ⟨other, hother, fun hsome => ?_⟩
      rw [hsocket] at hsome
      exact absurd (Option.some.inj hsome).symm heq
  · intro conn' hconn'
    unfold World.status at hopen hconn'
    dsimp only at hconn' ⊢
    by_cases heq : conn' = conn
    · subst heq
      rw [update_self, hopen] at hconn'
      rcases hconn' with h | h <;> cases h
    · rw [update_of_ne heq] at hconn' ⊢
      exact hown.unused conn' hconn'
  · intro conn'
    dsimp only
    rw [← append_assoc, filter_append, map_append, hown.delivered conn']
    by_cases heq : conn' = conn
    · subst heq
      simp [filter_map, comp_def]
    · rw [update_of_ne heq]
      have hne : ¬ conn = conn' := fun h => heq h.symm
      simp [filter_map, comp_def, hne]

end OwnBytes

namespace World

theorem stream_settlePromise (w : World) (c : CallId) (id : JsString) (phase : Phase) :
    ((w.deletePending id).settlePromise c id phase).stream = w.stream := by
  rw [settlePromise_eq]
  rfl

theorem stream_handled {payload : List UInt8} (hhandled : Handled ext w payload w') :
    w'.stream = w.stream := by
  cases hhandled with
  | ignored => rfl
  | rejected _ | answered _ _ => exact stream_settlePromise ..

theorem stream_register (w : World) (c : CallId) (call : Call) (id : JsString) :
    (w.register ext c call id).stream = w.stream := by
  unfold register
  split
  · rfl
  · split <;> rfl

theorem own_startConnecting (hinv : Inv w) (hown : OwnBytes w) : OwnBytes w.startConnecting.1 := by
  unfold startConnecting
  split
  · exact hown
  · refine hown.setStatus rfl rfl rfl (fun _ hsocket => .inl ⟨hsocket, rfl⟩) ?_
    intro _
    exact .inl (hinv.fresh _ (le_refl _))

theorem own_callImpl (hinv : Inv w) (hown : OwnBytes w) (c : CallId) (call : Call)
    (id : JsString) : OwnBytes (w.callImpl ext c call id) := by
  unfold callImpl
  split
  · exact hown.of_stream rfl
  · split
    · exact hown.of_stream (stream_register ..)
    · exact (own_startConnecting hinv hown).of_stream rfl

theorem own_onData (hinv : Inv w) (hown : OwnBytes w) (conn : ConnId) (chunk : List UInt8) :
    OwnBytes (w.onData conn chunk) := by
  unfold onData
  split
  · next hsocket =>
    split
    · next err _ _ =>
      unfold onFrameError
      rw [rejectEach_eq]
      exact hown.drop rfl rfl rfl rfl
    · next frames acc hpush =>
      exact hown.data hsocket (hinv.socket_open conn hsocket) hpush
  · exact hown

theorem own_onClose (hown : OwnBytes w) (conn : ConnId) : OwnBytes (w.onClose conn) := by
  unfold onClose
  dsimp only
  rw [rejectEach_eq]
  refine hown.setStatus rfl rfl rfl ?_ ?_
  · intro conn' hsocket
    split at hsocket
    · cases hsocket
    · next hne => exact .inl ⟨hsocket, if_neg hne⟩
  · rintro (h | h) <;> cases h

end World

theorem own_step (hinv : Inv w) (hown : OwnBytes w)
    (hstep : step ext w e = some w') : OwnBytes w' := by
  cases stepped hstep with
  | connect =>
    unfold World.connect
    split
    · exact hown
    · exact own_startConnecting hinv hown
  | @connected conn hstatus =>
    refine hown.setStatus rfl rfl rfl ?_ (by rintro (h | h) <;> cases h)
    intro conn' hsocket
    cases hsocket
    exact .inr ⟨(hown.unused conn (.inr hstatus)).1, rfl⟩
  | connectFailed _ =>
    exact hown.setStatus rfl rfl rfl (fun _ hsocket => .inl ⟨hsocket, rfl⟩)
      (by rintro (h | h) <;> cases h)
  | call _ => exact own_callImpl hinv hown _ _ _
  | resumed _ _ _ => exact hown.of_stream (stream_register ..)
  | refused _ _ _ | gaveUp _ _ => exact hown.of_stream rfl
  | retried _ _ _ =>
    have hdropped : OwnBytes w.dropSocket := hown.drop rfl rfl rfl rfl
    exact own_callImpl hinv.dropSocket hdropped _ _ _
  | data _ => exact own_onData hinv hown _ _
  | frame hinbox hhandled =>
    refine OwnBytes.of_stream ?_ (stream_handled hhandled)
    refine ⟨hown.decoded, hown.unused, ?_⟩
    intro conn'
    have hdelivered := hown.delivered conn'
    rw [hinbox] at hdelivered
    simp only [World.takeFrame, append_assoc, singleton_append]
    exact hdelivered
  | timeout _ | writeFailed _ => exact hown.of_stream (stream_settlePromise ..)
  | socketError => exact hown
  | socketClosed _ => exact own_onClose hown _
  | close =>
    unfold World.close
    rw [rejectEach_eq]
    exact hown.drop rfl rfl rfl rfl

theorem own_of_reaches (hreach : Reaches (step ext) FreshIds World.start w) : OwnBytes w :=
  invariant_of_reaches OwnBytes.start
    (fun _ _ _ hbefore _ hown hstep => own_step (inv_of_reaches hbefore) hown hstep) hreach

/-! ## What is written and handled -/

/-- Requests and handled frames are only added, and a request only with a socket. -/
structure Grows (w w' : World) : Prop where
  written : w.written ⊆ w'.written
  handled : w.handled ⊆ w'.handled
  silent : w.client.socket = none → w'.written = w.written

namespace Grows

theorem of_eq (hwritten : w'.written = w.written) (hhandled : w'.handled = w.handled) :
    Grows w w' :=
  ⟨hwritten ▸ List.Subset.refl _, hhandled ▸ List.Subset.refl _, fun _ => hwritten⟩

end Grows

namespace World

theorem grows_settlePromise (w : World) (c : CallId) (id : JsString) (phase : Phase) :
    Grows w ((w.deletePending id).settlePromise c id phase) := by
  rw [settlePromise_eq]
  exact .of_eq rfl rfl

theorem grows_startConnecting (w : World) : Grows w w.startConnecting.1 := by
  unfold startConnecting
  split <;> exact .of_eq rfl rfl

section
variable (w : World) (c : CallId) (call : Call) (id : JsString)

theorem grows_register : Grows w (w.register ext c call id) := by
  unfold register
  split
  · exact .of_eq rfl rfl
  · next sock hsocket =>
    split
    · exact .of_eq rfl rfl
    · refine ⟨subset_cons_self _ _, List.Subset.refl _, fun hnone => ?_⟩
      rw [hsocket] at hnone
      cases hnone

theorem grows_callImpl : Grows w (w.callImpl ext c call id) := by
  unfold callImpl
  split
  · exact .of_eq rfl rfl
  · split
    · exact grows_register w c call id
    · have hgrows := grows_startConnecting w
      exact ⟨hgrows.written, hgrows.handled, hgrows.silent⟩

end

theorem grows_handled {payload : List UInt8} (hhandled : Handled ext w payload w') :
    Grows w w' := by
  cases hhandled with
  | ignored => exact .of_eq rfl rfl
  | rejected _ | answered _ _ => exact grows_settlePromise ..

end World

theorem step_grows (hstep : step ext w e = some w') : Grows w w' := by
  cases stepped hstep with
  | connect =>
    unfold World.connect
    split
    · exact .of_eq rfl rfl
    · exact grows_startConnecting w
  | connected _ | connectFailed _ | refused _ _ _ | gaveUp _ _ | socketError => exact .of_eq rfl rfl
  | call _ => exact grows_callImpl ..
  | resumed _ _ _ => exact grows_register ..
  | @retried c id call _ _ _ _ =>
    -- the retry has dropped the socket, so nothing is written before it has connected
    have hgrows : Grows w.dropSocket (w.dropSocket.callImpl ext c
        { call with attempt := call.attempt + 1 } id) := grows_callImpl ..
    exact ⟨hgrows.written, hgrows.handled, fun _ => hgrows.silent rfl⟩
  | data _ =>
    unfold World.onData
    split
    · split
      · unfold World.onFrameError
        rw [rejectEach_eq]
        exact .of_eq rfl rfl
      · exact .of_eq rfl rfl
    · exact .of_eq rfl rfl
  | frame _ hhandled =>
    have hgrows := grows_handled hhandled
    exact ⟨hgrows.written, fun _ hmem => hgrows.handled (mem_append_left _ hmem), hgrows.silent⟩
  | timeout _ | writeFailed _ => exact grows_settlePromise ..
  | socketClosed _ =>
    unfold World.onClose
    dsimp only
    rw [rejectEach_eq]
    exact .of_eq rfl rfl
  | close =>
    unfold World.close
    rw [rejectEach_eq]
    exact .of_eq rfl rfl

/-! ## Settled calls -/

theorem step_settled (hstep : step ext w e = some w') (hcall : w.calls c = some call)
    (hphase : call.phase = .settled outcome) : w'.calls c = some call := by
  cases step_progress hstep c with
  | same hsame => exact hsame.trans hcall
  | moves _ hold _ => exact absurd hphase (hold call outcome hcall)
  | answered hold hwait _ _ _ =>
    rw [hcall] at hold
    cases hold
    rw [hphase] at hwait
    cases hwait

theorem reaches_settled (hlater : Reaches (step ext) FreshIds w w') (hcall : w.calls c = some call)
    (hphase : call.phase = .settled outcome) : w'.calls c = some call := by
  induction hlater with
  | refl => exact hcall
  | step _ _ hstep ih => exact step_settled hstep ih hphase

/-- A handled frame answers a request of the call, and the request's id is no other call's. -/
def OwnAnswer (ext : Externals) (w : World) (c : CallId) (result : Option Json) : Prop :=
  ∃ id conn conn' payload, (c, id, conn) ∈ w.written ∧
    (∀ c' sock, (c', id, sock) ∈ w.written → c' = c) ∧ (conn', payload) ∈ w.handled ∧
    Answers ext payload id result

/-- Every resolved call has its own answer. -/
def ResolvedByOwn (ext : Externals) (w : World) : Prop :=
  ∀ c call result, w.calls c = some call → call.phase = .settled (.resolved result) →
    OwnAnswer ext w c result

theorem OwnAnswer.grows (hinv : Inv w') (hgrows : Grows w w') {result : Option Json}
    (hanswer : OwnAnswer ext w c result) : OwnAnswer ext w' c result := by
  obtain ⟨id, conn, conn', payload, hwritten, -, hhandled, hanswers⟩ := hanswer
  refine ⟨id, conn, conn', payload, hgrows.written hwritten, ?_, hgrows.handled hhandled, hanswers⟩
  intro c' sock hwritten'
  exact (hinv.written_unique _ _ _ _ _ hwritten' (hgrows.written hwritten)).1

theorem resolved_step (hinv : Inv w) (hinv' : Inv w')
    (hresolved : ResolvedByOwn ext w) (hstep : step ext w e = some w') : ResolvedByOwn ext w' := by
  have hgrows := step_grows hstep
  intro c call result hcall hphase
  cases step_progress hstep c with
  | same hsame => exact (hresolved c call result (hsame ▸ hcall) hphase).grows hinv' hgrows
  | moves hnew _ hmoved =>
    rw [hnew] at hcall
    cases hcall
    rw [hphase] at hmoved
    exact absurd trivial hmoved
  | @answered _ id conn' payload _ hold hwait hnew hhandled hanswers =>
    rw [hnew] at hcall
    cases hcall
    cases hphase
    obtain ⟨-, conn, -, hwritten⟩ := hinv.waiting c _ id hold hwait
    refine ⟨id, conn, conn', payload, hgrows.written hwritten, ?_, hhandled, hanswers⟩
    intro c' sock hwritten'
    exact (hinv'.written_unique _ _ _ _ _ hwritten' (hgrows.written hwritten)).1

theorem resolved_of_reaches (hreach : Reaches (step ext) FreshIds World.start w) :
    ResolvedByOwn ext w := by
  refine invariant_of_reaches ?_ ?_ hreach
  · exact nofun
  · intro w e w' hreach hids hresolved hstep
    have hinv := inv_of_reaches hreach
    exact resolved_step hinv (inv_step hinv hids hstep) hresolved hstep

/-- The `catch` of `call` ends the call with the error, or it makes another attempt. -/
theorem proceed_failed (ext : Externals) (w : World) {err : CallError}
    (hcall : w.calls c = some call) (hphase : call.phase = .failed err) (id : JsString) :
    ∃ w' call', step ext w (.proceed c id) = some w' ∧ w'.calls c = some call' ∧
      (call'.phase = .settled (.rejected err) ∨
        call.attempt < call.maxAttempts ∧ call'.attempt = call.attempt + 1) := by
  have hstep : step ext w (.proceed c id) = some (w.afterFailure ext c call err id) := by
    simp only [step, hcall, hphase]
  unfold World.afterFailure at hstep
  dsimp only at hstep
  split at hstep
  · next hretry =>
    simp only [Bool.and_eq_true, decide_eq_true_eq] at hretry
    obtain ⟨call', hcalls, -, hattempt⟩ := callImpl_calls ext w.dropSocket c
      { call with attempt := call.attempt + 1 } id
    refine ⟨_, call', hstep, ?_, .inr ⟨hretry.1.2, hattempt⟩⟩
    exact (congrFun hcalls c).trans (update_self ..)
  · exact ⟨_, _, hstep, update_self .., .inl rfl⟩

/-! ## Every run -/

/-- What holds of the calls and the frames in a state. -/
structure Reliable (ext : Externals) (w : World) : Prop where
  /-- A settled call stays as it is. -/
  once : ∀ c call outcome w', w.calls c = some call → call.phase = .settled outcome →
    Reaches (step ext) FreshIds w w' → w'.calls c = some call
  own : ∀ c call result, w.calls c = some call → call.phase = .settled (.resolved result) →
    OwnAnswer ext w c result
  /-- No call waits for the response to a request on a closed connection. -/
  lost : ∀ c call id conn, w.calls c = some call → (c, id, conn) ∈ w.written →
    w.status conn = .closed → call.phase ≠ .waiting id
  /-- A rejected attempt ends the call or leads to the next attempt. -/
  ends : ∀ c call err id, w.calls c = some call → call.phase = .failed err →
    ∃ w' call', step ext w (.proceed c id) = some w' ∧ w'.calls c = some call' ∧
      (call'.phase = .settled (.rejected err) ∨
        call.attempt < call.maxAttempts ∧ call'.attempt = call.attempt + 1)
  /-- The frames handled as those of a connection are decoded from its own chunks, in order. -/
  bytes : ∀ conn, ∃ frames acc, FrameAccumulator.empty.pushAll (w.connections conn).taken =
    (.ok frames, acc) ∧ (w.handled.filter (·.1 = conn)).map (·.2) <+: frames

theorem reliable_of_reaches (hreach : Reaches (step ext) FreshIds World.start w) :
    Reliable ext w where
  once _ _ _ _ hcall hphase hlater := reaches_settled hlater hcall hphase
  own := resolved_of_reaches hreach
  lost _ _ _ _ hcall hwritten hclosed hwait := by
    have hopen := ((inv_of_reaches hreach).waiting_unique hcall hwait hwritten).2
    rw [hclosed] at hopen
    cases hopen
  ends _ _ _ id hcall hphase := proceed_failed ext w hcall hphase id
  bytes conn := by
    have hown := own_of_reaches hreach
    obtain ⟨acc, hdecoded, -⟩ := hown.decoded conn
    refine ⟨_, acc, hdecoded, ?_⟩
    rw [← hown.delivered conn, filter_append, map_append]
    exact prefix_append ..

/-- A bridge whose only frame is the answer to the request `r`. -/
def pongExternals : Externals where
  stringify := fun _ => js "q"
  jsonParse := fun _ =>
    some (.object [(js "id", .string (js "r")), (js "ok", .bool true), (js "result", .null)])
  describeIssues := fun _ => []

/-- A call on a new connection, its answer in two chunks, and the close of the socket. -/
def pongRun : List Event :=
  [.call 0 ⟨js "ping", none, none, false, false⟩ (js "-"), .connected 0, .resume 0 (js "r"),
    .data 0 [0, 0, 0], .data 0 [1, 7], .frame none, .socketClosed 0]

def Call.isResolved (call : Call) : Bool :=
  match call.phase with
  | .settled (.resolved _) => true
  | _ => false

theorem reliable_of_reaches_pong :
    ∃ w, run (step pongExternals) FreshIds World.start pongRun = some w ∧
      (w.calls 0).any Call.isResolved = true ∧ Reliable pongExternals w := by
  have hrun : (run (step pongExternals) FreshIds World.start pongRun).any
      (fun w => (w.calls 0).any Call.isResolved) = true := by
    decide +kernel
  rw [Option.any_eq_true] at hrun
  obtain ⟨w, hw, hresolved⟩ := hrun
  exact ⟨w, hw, hresolved, reliable_of_reaches (reaches_of_run .refl hw)⟩

end SquadPanel.Bridge.Client
