import SquadPanel.Bridge.ClientRuns

/-!
# Closing the bridge client

`close()` ends the socket and rejects what is pending, but it knows nothing of a connection
attempt in progress: when the attempt succeeds the client holds a socket again, and the calls
that waited for it write their requests.  `connect()` does not ask whether the client is closed
either.
-/

namespace SquadPanel.Bridge.Client

open Js Lib.Machine Option World Function
open World (start connect register onData)

variable {ext : Externals} {w w' : World} {e : Event} {c : CallId} {call : Call}

/-- Request ids are unique, `close()` does not fall into a connection attempt, and `connect()`
is not called on a closed client. -/
def Orderly (w : World) : Event → Prop
  | .close => w.client.connecting = none
  | .connect => w.client.closed = false
  | e => FreshIds w e

instance (w : World) (e : Event) : Decidable (Orderly w e) := by
  unfold Orderly
  split <;> infer_instance

theorem Orderly.freshIds (horderly : Orderly w e) : FreshIds w e := by
  cases e with
  | close | connect => trivial
  | _ => exact horderly

theorem reaches_freshIds {w₀ : World} (hreach : Reaches (step ext) Orderly w₀ w) :
    Reaches (step ext) FreshIds w₀ w := by
  induction hreach with
  | refl => exact .refl
  | step _ horderly hstep ih => exact .step ih horderly.freshIds hstep

/-! ## Attempts -/

/-- The call's attempt awaits nothing any more. -/
def Phase.AtRest : Phase → Prop
  | .failed _ | .settled _ => True
  | _ => False

/-- The connection attempts of a client that is closed between attempts. -/
structure Attempts (w : World) : Prop where
  current : ∀ conn, w.status conn = .connecting ↔ w.client.connecting = some conn
  begun : ∀ c call conn, w.calls c = some call → call.phase = .connecting conn →
    w.status conn ≠ .absent
  shut : w.client.closed = true → w.client.socket = none ∧ w.client.connecting = none
  quiet : w.client.closed = true → ∀ c call id, w.calls c = some call →
    call.phase ≠ .waiting id

namespace Attempts

theorem start : Attempts start where
  current _ := ⟨nofun, nofun⟩
  begun := nofun
  shut := nofun
  quiet := nofun

section
variable (hatt : Attempts w) (hstatus : w'.status = w.status)
    (hconnecting : w'.client.connecting = w.client.connecting)
    (hclosed : w'.client.closed = w.client.closed)
include hatt hstatus hconnecting hclosed

/-- Calls may come to rest, and wait while the client is not closed. -/
theorem of_calls (hsocket : w'.client.socket = w.client.socket ∨ w'.client.socket = none)
    (hcalls : ∀ c call, w'.calls c = some call → w.calls c = some call ∨ call.phase.AtRest ∨
      (w.client.closed = false ∧ ∃ id, call.phase = .waiting id)) : Attempts w' := by
  refine ⟨?_, ?_, ?_, ?_⟩
  · intro conn
    rw [hstatus, hconnecting]
    exact hatt.current conn
  · intro c call conn hcall hphase
    rw [hstatus]
    rcases hcalls c call hcall with hold | hrest | ⟨-, id, hwait⟩
    · exact hatt.begun c call conn hold hphase
    · rw [hphase] at hrest
      exact hrest.elim
    · rw [hphase] at hwait
      cases hwait
  · intro hshut
    obtain ⟨hnone, hidle⟩ := hatt.shut (hclosed ▸ hshut)
    refine ⟨?_, hconnecting.trans hidle⟩
    rcases hsocket with hsame | hdropped
    · exact hsame.trans hnone
    · exact hdropped
  · intro hshut c call id hcall hphase
    rw [hclosed] at hshut
    rcases hcalls c call hcall with hold | hrest | ⟨hopen, -⟩
    · exact hatt.quiet hshut c call id hold hphase
    · rw [hphase] at hrest
      exact hrest.elim
    · rw [hopen] at hshut
      cases hshut

theorem update (hsocket : w'.client.socket = w.client.socket)
    (hcalls : w'.calls = Function.update w.calls c (some call))
    (hphase : call.phase.AtRest ∨ (w.client.closed = false ∧ ∃ id, call.phase = .waiting id)) :
    Attempts w' := by
  refine hatt.of_calls hstatus hconnecting hclosed (.inl hsocket) ?_
  intro c' call' hcall'
  rw [hcalls] at hcall'
  by_cases hc : c' = c
  · rw [hc, update_self] at hcall'
    cases hcall'
    exact .inr hphase
  · rw [update_of_ne hc] at hcall'
    exact .inl hcall'

end

theorem settle (hatt : Attempts w) (c : CallId) (id : JsString) {phase : Phase}
    (hphase : phase.AtRest) : Attempts ((w.deletePending id).settlePromise c id phase) := by
  have hcalls := calls_settlePromise (w.deletePending id) c id phase
  rw [settlePromise_eq]
  refine hatt.of_calls rfl rfl rfl (.inl rfl) ?_
  intro c' call' hcall'
  rcases hcalls c' with ⟨hsame, -⟩ | ⟨-, call, -, -, hnew⟩
  · exact .inl (hsame ▸ hcall')
  · rw [hnew] at hcall'
    cases hcall'
    exact .inr (.inl hphase)

/-- After entries have been rejected, whatever else becomes of them and of the socket. -/
theorem reject (hatt : Attempts w) {err : CallError} {entries : List (JsString × PendingCall)}
    (hstatus : w'.status = w.status) (hconnecting : w'.client.connecting = w.client.connecting)
    (hclosed : w'.client.closed = w.client.closed)
    (hsocket : w'.client.socket = w.client.socket ∨ w'.client.socket = none)
    (hcalls : w'.calls = (w.rejectEach err entries).calls) : Attempts w' := by
  refine hatt.of_calls hstatus hconnecting hclosed hsocket ?_
  intro c call hcall
  rw [hcalls] at hcall
  rcases World.calls_rejectEach w err entries c with ⟨hsame, -⟩ | ⟨call', -, -, -, hnew⟩
  · exact .inl (hsame ▸ hcall)
  · rw [hnew] at hcall
    cases hcall
    exact .inr (.inl trivial)

/-- A socket that is not the current attempt changes its status, or the attempt ends. -/
theorem setStatus (hatt : Attempts w) {conn : ConnId} {status : ConnStatus}
    (hstatus : w'.status = (w.setStatus conn status).status) (hcalls : w'.calls = w.calls)
    (hclosed : w'.client.closed = w.client.closed) (hended : status ≠ .connecting)
    (hpresent : status ≠ .absent) (hconnecting : ∀ other, w'.client.connecting = some other ↔
      other ≠ conn ∧ w.client.connecting = some other)
    (hsocket : w.client.closed = true → w'.client.socket = none) : Attempts w' := by
  have hafter (other : ConnId) :
      w'.status other = if other = conn then status else w.status other := by
    rw [hstatus, status_setStatus]
  refine ⟨?_, ?_, ?_, ?_⟩
  · intro other
    rw [hafter, hconnecting]
    by_cases hother : other = conn
    · rw [if_pos hother]
      exact ⟨fun h => absurd h hended, fun h => absurd hother h.1⟩
    · rw [if_neg hother, hatt.current]
      exact ⟨fun h => ⟨hother, h⟩, And.right⟩
  · intro c call other hcall hphase
    rw [hafter]
    rw [hcalls] at hcall
    split
    · exact hpresent
    · exact hatt.begun c call other hcall hphase
  · intro hshut
    rw [hclosed] at hshut
    refine ⟨hsocket hshut, ?_⟩
    cases hattempt : w'.client.connecting with
    | none => rfl
    | some other =>
      have hold := ((hconnecting other).mp hattempt).2
      rw [(hatt.shut hshut).2] at hold
      cases hold
  · intro hshut c call id hcall
    rw [hclosed] at hshut
    rw [hcalls] at hcall
    exact hatt.quiet hshut c call id hcall

theorem not_closed (hatt : Attempts w) {conn : ConnId} (hstatus : w.status conn = .connecting) :
    w.client.closed = false := by
  rw [← Bool.not_eq_true]
  intro hclosed
  have hidle := (hatt.shut hclosed).2
  rw [(hatt.current conn).mp hstatus] at hidle
  cases hidle

end Attempts

namespace World

section
variable (hatt : Attempts w) {conn : ConnId}
include hatt

theorem attempts_startConnecting (hopen : w.client.closed = false) : Attempts w.startConnecting.1 ∧
      w.startConnecting.1.status w.startConnecting.2 ≠ .absent := by
  unfold startConnecting
  cases hconnecting : w.client.connecting with
  | some conn =>
    refine ⟨hatt, ?_⟩
    rw [(hatt.current conn).mpr hconnecting]
    exact nofun
  | none =>
    have hidle (other : ConnId) : w.status other ≠ .connecting := by
      intro hother
      rw [(hatt.current other).mp hother] at hconnecting
      cases hconnecting
    have hnot : w.client.closed ≠ true := ne_true_of_eq_false hopen
    refine ⟨⟨?_, ?_, fun h => absurd h hnot, fun h => absurd h hnot⟩, ?_⟩
    · intro other
      show (w.setStatus w.nextConn .connecting).status other = .connecting ↔
        some w.nextConn = some other
      rw [status_setStatus, Option.some.injEq]
      by_cases hother : other = w.nextConn
      · rw [if_pos hother]
        exact ⟨fun _ => hother.symm, fun _ => rfl⟩
      · rw [if_neg hother]
        exact ⟨fun h => absurd h (hidle other), fun h => absurd h.symm hother⟩
    · intro c call other hcall hphase
      show (w.setStatus w.nextConn .connecting).status other ≠ .absent
      rw [status_setStatus]
      split
      · exact nofun
      · exact hatt.begun c call other hcall hphase
    · show (w.setStatus w.nextConn .connecting).status w.nextConn ≠ .absent
      rw [status_setStatus, if_pos rfl]
      exact nofun

theorem attempts_register (c : CallId) (call : Call) (id : JsString) :
    Attempts (w.register ext c call id) := by
  unfold register
  split
  · exact hatt.update rfl rfl rfl rfl rfl (.inl trivial)
  · next sock hsocket =>
    split
    · exact hatt.update rfl rfl rfl rfl rfl (.inl trivial)
    · -- a client with a socket is not closed
      have hopen : w.client.closed = false := by
        rw [← Bool.not_eq_true]
        intro hclosed
        rw [(hatt.shut hclosed).1] at hsocket
        cases hsocket
      exact hatt.update rfl rfl rfl rfl rfl (.inr ⟨hopen, id, rfl⟩)

theorem attempts_callImpl (c : CallId) (call : Call) (id : JsString) :
    Attempts (w.callImpl ext c call id) := by
  unfold callImpl
  split
  · exact hatt.update rfl rfl rfl rfl rfl (.inl trivial)
  · next hclosed =>
    split
    · exact attempts_register hatt c call id
    · obtain ⟨hstarted, hbegun⟩ := attempts_startConnecting hatt (eq_false_of_ne_true hclosed)
      refine ⟨hstarted.current, ?_, hstarted.shut, ?_⟩
      · intro c' call' conn hcall' hphase
        by_cases hc : c' = c
        · rw [hc] at hcall'
          cases (update_self ..).symm.trans hcall'
          cases hphase
          exact hbegun
        · have hold := (update_of_ne hc ..).symm.trans hcall'
          exact hstarted.begun c' call' conn hold hphase
      · intro hshut c' call' id' hcall'
        by_cases hc : c' = c
        · rw [hc] at hcall'
          cases (update_self ..).symm.trans hcall'
          exact nofun
        · have hold := (update_of_ne hc ..).symm.trans hcall'
          exact hstarted.quiet hshut c' call' id' hold

theorem attempts_handled {payload : List UInt8}
    (hhandled : Handled ext w payload w') : Attempts w' := by
  cases hhandled with
  | ignored => exact hatt
  | rejected _ | answered _ _ => exact hatt.settle _ _ trivial

section
variable (hstatus : w.status conn = .connecting)
include hstatus

theorem ended_iff (other : ConnId) :
    (none : Option ConnId) = some other ↔ other ≠ conn ∧ w.client.connecting = some other := by
  rw [(hatt.current conn).mp hstatus, Option.some.injEq]
  constructor
  · intro h
    cases h
  · rintro ⟨hne, heq⟩
    exact absurd heq.symm hne

theorem attempts_onConnect : Attempts (w.onConnect conn) := by
  refine hatt.setStatus rfl rfl rfl nofun nofun
    (ended_iff hatt hstatus) ?_
  intro hclosed
  rw [hatt.not_closed hstatus] at hclosed
  cases hclosed

theorem attempts_onConnectError {message : JsString} :
    Attempts (w.onConnectError conn message) :=
  hatt.setStatus rfl rfl rfl nofun nofun
    (ended_iff hatt hstatus) fun hclosed => (hatt.shut hclosed).1

end

theorem attempts_onData (conn : ConnId) (chunk : List UInt8) : Attempts (w.onData conn chunk) := by
  unfold onData
  split
  · split
    · unfold onFrameError
      rw [rejectEach_eq]
      exact hatt.reject rfl rfl rfl (.inr rfl) rfl
    · refine hatt.of_calls ?_ rfl rfl (.inl rfl) fun _ _ hcall => .inl hcall
      funext other
      unfold World.status
      by_cases hother : other = conn
      · subst hother
        simp only [update_self]
      · simp only [update_of_ne hother]
  · exact hatt

theorem attempts_onClose (hstatus : w.status conn = .open) : Attempts (w.onClose conn) := by
  -- first the entries of the socket are rejected, then it is closed
  have hrejected : Attempts { w with calls := (w.onClose conn).calls } :=
    hatt.reject rfl rfl rfl (.inl rfl) rfl
  have hother (other : ConnId) : w.client.connecting = some other ↔
      other ≠ conn ∧ w.client.connecting = some other := by
    constructor
    · intro hattempt
      refine ⟨?_, hattempt⟩
      rintro rfl
      rw [(hatt.current other).mpr hattempt] at hstatus
      cases hstatus
    · exact And.right
  unfold onClose at hrejected ⊢
  dsimp only at hrejected ⊢
  rw [rejectEach_eq] at hrejected ⊢
  refine hrejected.setStatus rfl rfl rfl nofun nofun hother ?_
  intro hclosed
  have hnone : w.client.socket = none := (hatt.shut hclosed).1
  rw [hnone, if_neg (some_ne_none conn).symm]

end

theorem attempts_close (hinv : Inv w) (hatt : Attempts w) (hidle : w.client.connecting = none) :
    Attempts w.close := by
  have hrejected : Attempts { w with calls := w.close.calls } :=
    hatt.reject rfl rfl rfl (.inl rfl) rfl
  have hstatus : w.close.status = w.status := by
    unfold World.close
    rw [rejectEach_eq]
    rfl
  refine ⟨?_, ?_, fun _ => ⟨rfl, hidle⟩, ?_⟩
  · intro conn
    rw [hstatus]
    exact hatt.current conn
  · intro c call conn hcall hphase
    rw [hstatus]
    exact hrejected.begun c call conn hcall hphase
  · intro _ c call id hcall hwait
    obtain ⟨entry, conn, hentry, -⟩ := (inv_close hinv).waiting c call id hcall hwait
    have hpending : w.close.client.pending.get id = none := rfl
    rw [hentry.pending] at hpending
    cases hpending

end World

theorem attempts_step (hinv : Inv w) (hatt : Attempts w) (horderly : Orderly w e)
    (hstep : step ext w e = some w') : Attempts w' := by
  cases stepped hstep with
  | connect =>
    unfold connect
    split
    · exact hatt
    · exact (attempts_startConnecting hatt horderly).1
  | connected hstatus => exact attempts_onConnect hatt hstatus
  | connectFailed hstatus => exact attempts_onConnectError hatt hstatus
  | call _ => exact attempts_callImpl hatt _ _ _
  | resumed _ _ _ => exact attempts_register hatt _ _ _
  | refused _ _ _ | gaveUp _ _ => exact hatt.update rfl rfl rfl rfl rfl (.inl trivial)
  | retried _ _ _ =>
    have hdropped : Attempts w.dropSocket :=
      hatt.of_calls rfl rfl rfl (.inr rfl) fun _ _ hcall => .inl hcall
    exact attempts_callImpl hdropped _ _ _
  | data _ => exact attempts_onData hatt _ _
  | frame _ hhandled =>
    refine attempts_handled ?_ hhandled
    exact hatt.of_calls rfl rfl rfl (.inl rfl) fun _ _ hcall => .inl hcall
  | timeout _ | writeFailed _ => exact hatt.settle _ _ trivial
  | socketError => exact hatt
  | socketClosed hstatus => exact attempts_onClose hatt hstatus
  | close => exact attempts_close hinv hatt horderly

theorem attempts_of_reaches (hreach : Reaches (step ext) Orderly start w) : Attempts w :=
  invariant_of_reaches .start
    (fun _ _ _ hreach horderly hatt hstep =>
      attempts_step (inv_of_reaches (reaches_freshIds hreach)) hatt horderly hstep) hreach

/-! ## A closed client -/

/-- A continuation of the call. -/
def Event.Continues (c : CallId) : Event → Prop
  | .resume c' _ | .proceed c' _ => c' = c
  | _ => False

/-- No call waits for a response. -/
def Quiet (w : World) : Prop := ∀ c call id, w.calls c = some call → call.phase ≠ .waiting id

theorem Quiet.calls_settle {w₁ : World} (hquiet : Quiet w) (id : JsString) (c : CallId)
    (phase : Phase) (hcalls : w₁.calls = w.calls) :
    ((w₁.deletePending id).settlePromise c id phase).calls = w.calls := by
  funext other
  rcases calls_settlePromise (w₁.deletePending id) c id phase other with
    ⟨hsame, -⟩ | ⟨-, call, hcall, hwait, -⟩
  · exact hsame.trans (congrFun hcalls other)
  · exact absurd hwait (hquiet c call id ((congrFun hcalls c).symm.trans hcall))

theorem Quiet.calls_rejectEach (hquiet : Quiet w) (err : CallError)
    (entries : List (JsString × PendingCall)) : (w.rejectEach err entries).calls = w.calls := by
  funext c
  rcases World.calls_rejectEach w err entries c with ⟨hsame, -⟩ | ⟨call, id, hcall, hwait, -⟩
  · exact hsame
  · exact absurd hwait (hquiet c call id hcall)

/-- How a step of a closed client moves a call that has begun: not at all, or by its own
continuation, from awaiting a connection to a failed attempt and from there to its rejection. -/
inductive Winds (w w' : World) (e : Event) (c : CallId) (call : Call) : Prop
  | same (hother : ¬ e.Continues c) (hsame : w'.calls c = some call)
  | fails {conn : ConnId} {err : CallError} (hphase : call.phase = .connecting conn)
      (hnew : w'.calls c = some { call with phase := .failed err })
  | ends {err : CallError} (hphase : call.phase = .failed err)
      (hnew : w'.calls c = some { call with phase := .settled (.rejected err) })

theorem Winds.of_calls (hother : ¬ e.Continues c) (hcall : w.calls c = some call)
    (hcalls : w'.calls = w.calls) : Winds w w' e c call :=
  .same hother ((congrFun hcalls c).trans hcall)

/-- One call is updated: this one, as it winds, or another. -/
theorem Winds.of_update {c' : CallId} {call' call'' : Call} (hown : e.Continues c → c' = c)
    (hcall : w.calls c = some call) (hcall' : w.calls c' = some call')
    (hcalls : w'.calls = Function.update w.calls c' (some call''))
    (hself : w'.calls c' = some call'' → Winds w w' e c' call') : Winds w w' e c call := by
  by_cases hc : c' = c
  · subst hc
    rw [hcall] at hcall'
    cases hcall'
    exact hself ((congrFun hcalls c').trans (update_self ..))
  · refine .same (fun h => hc (hown h)) ?_
    rw [hcalls, update_of_ne (Ne.symm hc)]
    exact hcall

theorem winds_step (hatt : Attempts w) (hclosed : w.client.closed = true)
    (hstep : step ext w e = some w') (hcall : w.calls c = some call) : Winds w w' e c call := by
  have hquiet : Quiet w := hatt.quiet hclosed
  have hsocket := (hatt.shut hclosed).1
  cases stepped hstep with
  | connect =>
    refine .of_calls not_false hcall ?_
    unfold connect
    split
    · rfl
    · exact startConnecting_calls w
  | connected _ | connectFailed _ | socketError => exact .of_calls not_false hcall rfl
  | @call c' opts id hnone =>
    obtain ⟨call', hcalls, -⟩ := callImpl_calls ext w c'
      { opts with attempt := 1, phase := .connecting 0 } id
    refine .same not_false ?_
    rw [hcalls, update_of_ne]
    · exact hcall
    · rintro rfl
      rw [hnone] at hcall
      cases hcall
  | resumed hcall' hphase _ =>
    unfold register
    rw [hsocket]
    exact .of_update (fun h => h) hcall hcall' rfl (.fails hphase)
  | refused hcall' hphase _ => exact .of_update (fun h => h) hcall hcall' rfl (.fails hphase)
  | retried _ _ hopen =>
    rw [hclosed] at hopen
    cases hopen
  | gaveUp hcall' hphase => exact .of_update (fun h => h) hcall hcall' rfl (.ends hphase)
  | data _ =>
    refine .of_calls not_false hcall ?_
    unfold onData
    rw [hsocket, if_neg (some_ne_none _).symm]
  | frame _ hhandled =>
    refine .of_calls not_false hcall ?_
    cases hhandled with
    | ignored => rfl
    | rejected _ | answered _ _ => exact hquiet.calls_settle _ _ _ rfl
  | timeout _ | writeFailed _ => exact .of_calls not_false hcall (hquiet.calls_settle _ _ _ rfl)
  | socketClosed _ | close => exact .of_calls not_false hcall (hquiet.calls_rejectEach ..)

theorem startConnecting_closed (w : World) :
    w.startConnecting.1.client.closed = w.client.closed := by
  unfold World.startConnecting
  split <;> rfl

section
variable (ext : Externals) (w : World) (c : CallId) (call : Call) (id : JsString)

theorem register_closed : (w.register ext c call id).client.closed = w.client.closed := by
  unfold register
  split
  · rfl
  · split <;> rfl

theorem callImpl_closed : (w.callImpl ext c call id).client.closed = w.client.closed := by
  unfold World.callImpl
  split
  · rfl
  · split
    · exact register_closed ext w c call id
    · exact startConnecting_closed w

end

theorem closed_step (hclosed : w.client.closed = true) (hstep : step ext w e = some w') :
    w'.client.closed = true := by
  cases stepped hstep with
  | connect =>
    unfold connect
    split
    · exact hclosed
    · exact (startConnecting_closed w).trans hclosed
  | call _ | retried _ _ _ => exact (callImpl_closed ..).trans hclosed
  | resumed _ _ _ => exact (register_closed ..).trans hclosed
  | data _ =>
    unfold onData
    split
    · split <;> exact hclosed
    · exact hclosed
  | frame _ hhandled =>
    cases hhandled with
    | ignored => exact hclosed
    | rejected _ | answered _ _ =>
      rw [settlePromise_eq]
      exact hclosed
  | timeout _ | writeFailed _ =>
    rw [settlePromise_eq]
    exact hclosed
  | close => rfl
  | _ => exact hclosed

/-! ## Every run -/

/-- The closed client of a run. -/
structure Closed (ext : Externals) (w : World) : Prop where
  reached : Reaches (step ext) Orderly start w
  closed : w.client.closed = true

namespace Closed

theorem attempts (hclosed : Closed ext w) : Attempts w := attempts_of_reaches hclosed.reached

theorem step (hclosed : Closed ext w) (horderly : Orderly w e)
    (hstep : step ext w e = some w') : Closed ext w' :=
  ⟨.step hclosed.reached horderly hstep, closed_step hclosed.closed hstep⟩

theorem of_reaches (hclosed : Closed ext w) (hlater : Reaches (Client.step ext) Orderly w w') :
    Closed ext w' ∧ w'.written = w.written := by
  induction hlater with
  | refl => exact ⟨hclosed, rfl⟩
  | step _ horderly hstep ih =>
    have hsilent := (step_grows hstep).silent (ih.1.attempts.shut ih.1.closed).1
    exact ⟨ih.1.step horderly hstep, hsilent.trans ih.2⟩

end Closed

/-- The event loop runs the continuations that are due. -/
def KeepsRunning (ex : Execution (step ext) Orderly) : Prop :=
  ∀ n c e, e.Continues c → (step ext (ex.state n) e).isSome →
    ∃ m, n ≤ m ∧ (ex.event m).Continues c

def Rejected (c : CallId) (w : World) : Prop :=
  ∃ call err, w.calls c = some call ∧ call.phase = .settled (.rejected err)

/-- How many continuations are left before the call of a closed client is rejected. -/
def Phase.left : Phase → Nat
  | .connecting _ => 2
  | .failed _ => 1
  | _ => 0

def continuationsLeft (c : CallId) (w : World) : Nat :=
  ((w.calls c).map fun call => call.phase.left).getD 0

/-- The call of a closed client that is not settled, or rejected by now. -/
structure Winding (ext : Externals) (c : CallId) (w : World) : Prop where
  closed : Closed ext w
  unresolved : ∃ call, w.calls c = some call ∧ ¬ call.phase.IsResolved

/-- An unsettled call of a closed client has a continuation that can run. -/
theorem Winding.enabled (hwinding : Winding ext c w) (hnot : ¬ Rejected c w) :
    ∃ e : Event, e.Continues c ∧ (step ext w e).isSome := by
  obtain ⟨hclosed, call, hcall, hunresolved⟩ := hwinding
  have hatt := hclosed.attempts
  cases hphase : call.phase with
  | connecting conn =>
    refine ⟨.resume c [], rfl, ?_⟩
    have hbegun := hatt.begun c call conn hcall hphase
    have hidle : w.status conn ≠ .connecting := by
      intro hconnecting
      have hopen := hatt.not_closed hconnecting
      rw [hclosed.closed] at hopen
      cases hopen
    simp only [step, hcall, hphase, World.afterConnect]
    cases hstatus : (w.connections conn).status with
    | absent => exact absurd hstatus hbegun
    | connecting => exact absurd hstatus hidle
    | failed message => rfl
    | «open» => rfl
    | closed => rfl
  | waiting id => exact absurd hphase (hatt.quiet hclosed.closed c call id hcall)
  | failed err =>
    refine ⟨.proceed c [], rfl, ?_⟩
    simp only [step, hcall, hphase, isSome_some]
  | settled outcome =>
    cases outcome with
    | resolved result =>
      rw [hphase] at hunresolved
      exact absurd trivial hunresolved
    | rejected err => exact absurd ⟨call, err, hcall, hphase⟩ hnot

theorem Winding.step (hwinding : Winding ext c w) (horderly : Orderly w e)
    (hstep : step ext w e = some w') :
    Winding ext c w' ∧ continuationsLeft c w' ≤ continuationsLeft c w ∧
      (e.Continues c → continuationsLeft c w' < continuationsLeft c w) := by
  obtain ⟨hclosed, call, hcall, hunresolved⟩ := hwinding
  have hclosed' := hclosed.step horderly hstep
  have hleft {w : World} {call : Call} (hcall : w.calls c = some call) :
      continuationsLeft c w = call.phase.left := by
    unfold continuationsLeft
    rw [hcall]
    rfl
  cases winds_step hclosed.attempts hclosed.closed hstep hcall with
  | same hother hsame =>
    rw [hleft hcall, hleft hsame]
    exact ⟨⟨hclosed', call, hsame, hunresolved⟩, le_refl _, fun h => absurd h hother⟩
  | fails hphase hnew =>
    rw [hleft hcall, hleft hnew, hphase]
    exact ⟨⟨hclosed', _, hnew, not_false⟩, Nat.le_succ 1, fun _ => Nat.lt_succ_self 1⟩
  | ends hphase hnew =>
    rw [hleft hcall, hleft hnew, hphase]
    exact ⟨⟨hclosed', _, hnew, not_false⟩, Nat.le_succ 0, fun _ => Nat.lt_succ_self 0⟩

/-- What `close()` is for: no socket and no request any more, and the calls that are not
settled are rejected. -/
structure Shut (ext : Externals) (w : World) : Prop where
  silent : ∀ w', Reaches (step ext) Orderly w w' →
    w'.client.socket = none ∧ w'.written = w.written
  rejects : ∀ ex : Execution (step ext) Orderly, ex.state 0 = w → KeepsRunning ex →
    ∀ c call, w.calls c = some call → (∀ outcome, call.phase ≠ .settled outcome) →
      ∃ n, Rejected c (ex.state n)

theorem Closed.rejects (hclosed : Closed ext w) (ex : Execution (Client.step ext) Orderly)
    (hstart : ex.state 0 = w) (hruns : KeepsRunning ex)
    (hcall : w.calls c = some call) (hunsettled : ∀ outcome, call.phase ≠ .settled outcome) :
    ∃ n, Rejected c (ex.state n) := by
  have hunresolved : ¬ call.phase.IsResolved := by
    cases hphase : call.phase with
    | settled outcome => exact absurd hphase (hunsettled outcome)
    | _ => exact not_false
  have hwinding : Winding ext c (ex.state 0) := by
    rw [hstart]
    exact ⟨hclosed, call, hcall, hunresolved⟩
  have hfair (n : Nat) (hn : Winding ext c (ex.state n)) (hnot : ¬ Rejected c (ex.state n)) :
      ∃ m, n ≤ m ∧ (ex.event m).Continues c := by
    obtain ⟨e, hcontinues, henabled⟩ := hn.enabled hnot
    exact hruns n c e hcontinues henabled
  obtain ⟨n, -, hrejected⟩ := ex.eventually_of_rank (continuationsLeft c) hfair
    (fun _ _ _ horderly hstep hs _ => hs.step horderly hstep) hwinding
  exact ⟨n, hrejected⟩

theorem shut_of_reaches (hreach : Reaches (step ext) Orderly start w)
    (hclosed : w.client.closed = true) : Shut ext w where
  silent w' hlater := by
    obtain ⟨hclosed', hwritten⟩ := Closed.of_reaches ⟨hreach, hclosed⟩ hlater
    exact ⟨(hclosed'.attempts.shut hclosed'.closed).1, hwritten⟩
  rejects ex hstart hruns _ _ hcall hunsettled :=
    Closed.rejects ⟨hreach, hclosed⟩ ex hstart hruns hcall hunsettled

/-- A call on a new connection, closed before the answer. -/
def closeRun : List Event :=
  [.call 0 ⟨js "ping", none, none, false, false⟩ (js "-"), .connected 0, .resume 0 (js "r"), .close]

theorem shut_of_reaches_ping : ∃ w, run (step pongExternals) Orderly start closeRun = some w ∧
      w.client.closed = true ∧ Shut pongExternals w := by
  have hrun : (run (step pongExternals) Orderly start closeRun).any
      (fun w => w.client.closed) = true := by
    decide +kernel
  rw [any_eq_true] at hrun
  obtain ⟨w, hw, hclosed⟩ := hrun
  exact ⟨w, hw, hclosed, shut_of_reaches (reaches_of_run .refl hw) hclosed⟩

/-- With `close()` in the attempt, and with `connect()` after it, the closed client gets a
socket, and the call that waited for the attempt writes its request. -/
theorem close_while_connecting : (∃ w w', Reaches (step pongExternals) FreshIds start w ∧
      Reaches (step pongExternals) FreshIds w w' ∧ w.client.closed = true ∧ w.written = [] ∧
      w'.client.socket = some 0 ∧ w'.written = [(0, js "r", 0)]) ∧
    ∃ w w', Reaches (step pongExternals) FreshIds start w ∧
      Reaches (step pongExternals) FreshIds w w' ∧ w.client.closed = true ∧
      w'.client.socket = some 0 := by
  have hduring : (run (step pongExternals) FreshIds start
      [.call 0 ⟨js "ping", none, none, false, false⟩ (js "-"), .close]).any (fun w =>
        decide (w.client.closed = true ∧ w.written = []) &&
          (run (step pongExternals) FreshIds w [.connected 0, .resume 0 (js "r")]).any
            fun w' => decide (w'.client.socket = some 0 ∧ w'.written = [(0, js "r", 0)])) =
      true := by
    decide +kernel
  have hafter : (run (step pongExternals) FreshIds start [.close]).any (fun w =>
        w.client.closed && (run (step pongExternals) FreshIds w [.connect, .connected 0]).any
            fun w' => decide (w'.client.socket = some 0)) = true := by
    decide +kernel
  rw [any_eq_true] at hduring hafter
  constructor
  · obtain ⟨w, hw, hrest⟩ := hduring
    rw [Bool.and_eq_true, decide_eq_true_iff, any_eq_true] at hrest
    obtain ⟨⟨hclosed, hnone⟩, w', hw', hholds⟩ := hrest
    rw [decide_eq_true_iff] at hholds
    exact ⟨w, w', reaches_of_run .refl hw, reaches_of_run .refl hw', hclosed, hnone, hholds⟩
  · obtain ⟨w, hw, hrest⟩ := hafter
    rw [Bool.and_eq_true, any_eq_true] at hrest
    obtain ⟨hclosed, w', hw', hholds⟩ := hrest
    rw [decide_eq_true_iff] at hholds
    exact ⟨w, w', reaches_of_run .refl hw, reaches_of_run .refl hw', hclosed, hholds⟩

end SquadPanel.Bridge.Client
