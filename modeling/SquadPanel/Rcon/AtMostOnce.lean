import Mathlib.Data.List.Induction
import Mathlib.Order.Basic
import SquadPanel.Rcon.CommandQueue

/-!
# A command reaches the game server at most once

The done marker is claimed with `SET ... NX` before a command is handed to the
RCON connection.  Over every interleaving of deliveries, with crashes between
any two calls and result keys deleted at any time, a request id is handed over
at most once, and only after its own delivery found it neither too old nor past
its deadline.
-/

namespace SquadPanel.Rcon

open Js Lib Option Prog

/-! ## Frames of `processEntry` -/

/-- Calls that neither claim a request nor hand it over. -/
def Call.Bookkeeping : Call → Prop
  | .setNx _ _ _ | .execute _ => False
  | _ => True

/-- Calls that only read Redis. -/
def Call.Reads : Call → Prop
  | .get _ => True
  | _ => False

theorem bookkeeping_of_reads {call : Call} (hreads : call.Reads) : call.Bookkeeping := by
  cases call <;> trivial

section Frames

variable (rt : Runtime) (opts : RconCommandQueueOptions) (entry : Entry) (request : Json)

theorem keyExists_calls (key : JsString) : (keyExists key).run.Calls Call.Reads := by
  refine calls_run_tryCatch (calls_run_bind ?_ fun _ => ?_) fun _ => ?_
  · simp [redisGet, Call.Reads]
  · simp
  · simp

theorem alreadyHandled_calls : (alreadyHandled request).run.Calls Call.Reads := by
  unfold alreadyHandled
  split
  · refine calls_run_bind (keyExists_calls _) fun handled => ?_
    split
    · simp
    · exact keyExists_calls _
  · simp

theorem writeResult_calls (result : RconCommandResult) :
    (writeResult rt opts result).run.Calls Call.Bookkeeping := by
  unfold writeResult
  split
  · refine calls_run_bind ?_ fun _ => ?_ <;> simp [redisSet, Call.Bookkeeping]
  · simp

theorem redisXack_calls (stream streamId : JsString) :
    (redisXack stream streamId).run.Calls Call.Bookkeeping := by
  simp [redisXack, Call.Bookkeeping]

theorem now_calls : now.run.Calls Call.Bookkeeping := by
  simp [now, Call.Bookkeeping]

theorem commandAgeMs_calls (streamId : JsString) :
    (commandAgeMs rt streamId request).run.Calls Call.Bookkeeping := by
  unfold commandAgeMs
  split
  · exact calls_run_bind now_calls fun _ => by simp
  · simp

theorem dropCommand_calls (error : JsString) :
    (dropCommand rt opts entry request error).run.Calls Call.Bookkeeping := by
  unfold dropCommand
  split
  · exact calls_run_bind now_calls fun _ =>
      calls_run_bind (writeResult_calls rt opts _) fun _ => redisXack_calls _ _
  · exact redisXack_calls _ _

theorem recordOutcome_calls (startedAt : Int) (outcome : Except JsString JsString) :
    (recordOutcome rt opts entry request startedAt outcome).run.Calls Call.Bookkeeping := by
  refine calls_run_bind now_calls fun _ => calls_run_bind now_calls fun _ => ?_
  split
  · refine calls_run_bind (calls_run_tryCatch (writeResult_calls rt opts _) ?_)
      fun _ => redisXack_calls _ _
    intro message
    split <;> simp
  · exact redisXack_calls _ _

end Frames

/-! ## The claim protocol -/

/-- What a delivery knows about one request id: does it carry that id, and has it
been granted the marker without having handed the command over yet? -/
structure ClaimGhost where
  mine : Bool
  held : Bool

/-- A delivery that carries the request id hands it over only while it holds the
claim, and handing over gives the claim up. -/
def claimProtocol (rid : JsString) : Protocol Call Reply ClaimGhost where
  pre call g := match call with
    | .execute _ => g.mine → g.held
    | _ => True
  next call reply g := match call, reply with
    | .setNx key _ _, .ok => if key = rconCommandDoneKey rid then { g with held := true } else g
    | .execute _, _ => { g with held := false }
    | _, _ => g

def claimGhost (rt : Runtime) (rid : JsString) (d : Delivery) : ClaimGhost where
  mine := d.requestId rt = some rid
  held := false

section Claim

variable (rt : Runtime) (opts : RconCommandQueueOptions) (entry : Entry) (request : Json)
  {rid : JsString} {g : ClaimGhost}

theorem claim_pre {call : Call} (hcall : call.Bookkeeping) (g : ClaimGhost) :
    (claimProtocol rid).pre call g := by
  cases call <;> trivial

theorem claim_next {call : Call} (hcall : call.Bookkeeping) (reply : Reply call)
    (g : ClaimGhost) : (claimProtocol rid).next call reply g = g := by
  cases call with
  | setNx key value ttl | execute command => exact hcall.elim
  | _ => rfl

theorem claim_of_bookkeeping {α : Type} {p : Prog Call Reply α}
    {Q : α → ClaimGhost → Prop} (hp : p.Calls Call.Bookkeeping) (hQ : ∀ a, Q a g) :
    p.Wp (claimProtocol rid) Q g :=
  wp_of_calls (fun _ hcall => claim_pre hcall g)
    (fun _ hcall reply => claim_next hcall reply g) hp hQ

theorem claim_runCommand (startedAt : Int) (hheld : g.mine → g.held) :
    (runCommand rt opts entry request startedAt).run.Wp (claimProtocol rid)
      (fun _ _ => True) g := by
  have hrecord (outcome : Except JsString JsString) (g' : ClaimGhost) :
      (recordOutcome rt opts entry request startedAt outcome).run.Wp (claimProtocol rid)
        (fun _ _ => True) g' :=
    claim_of_bookkeeping (recordOutcome_calls rt opts entry request startedAt outcome)
      fun _ => trivial
  unfold runCommand buildAndExecute
  rw [wp_run_bind]
  split
  · exact hrecord _ g
  · rw [execute, wp_run_await]
    exact ⟨hheld, fun reply => hrecord reply _⟩

theorem claim_dispatchRequest (startedAt ageMs : Int)
    (hmine : g.mine ↔ requestIdOf request = some rid) :
    (dispatchRequest rt opts entry request startedAt ageMs).run.Wp (claimProtocol rid)
      (fun _ _ => True) g := by
  unfold dispatchRequest
  split
  · exact claim_of_bookkeeping (dropCommand_calls ..) fun _ => trivial
  · split
    · exact claim_of_bookkeeping (dropCommand_calls ..) fun _ => trivial
    · split
      · rename_i requestId hrequestId
        refine ⟨trivial, ?_⟩
        rintro (_ | _ | message | message)
        · -- the claim is granted: a delivery of `rid` now holds it
          refine claim_runCommand rt opts entry request startedAt fun hg => ?_
          rw [hrequestId, Option.some.injEq] at hmine
          have heq : requestId = rid := hmine.mp (by
            simpa [claimProtocol, apply_ite] using hg)
          simp [claimProtocol, heq]
        · exact claim_of_bookkeeping (redisXack_calls ..) fun _ => trivial
        · trivial
        · trivial
      · rename_i hnone
        refine claim_runCommand rt opts entry request startedAt fun hg => ?_
        simp [hmine.mp hg] at hnone

theorem claim_processRequest (startedAt : Int) (hmine : g.mine ↔ requestIdOf request = some rid) :
    (processRequest rt opts entry request startedAt).run.Wp (claimProtocol rid)
      (fun _ _ => True) g := by
  unfold processRequest
  rw [wp_run_bind]
  refine claim_of_bookkeeping (commandAgeMs_calls rt request entry.streamId) ?_
  rintro (message | ageMs)
  · trivial
  · exact claim_dispatchRequest rt opts entry request startedAt ageMs hmine

theorem claim_body (d : Delivery) :
    ((queueSystem rt).body d).Wp (claimProtocol rid) (fun _ _ => True)
      (claimGhost rt rid d) := by
  simp only [queueSystem]
  rw [wp_bind]
  have hack : (redisXack d.entry.streamName d.entry.streamId).run.Wp (claimProtocol rid)
      (fun _ _ => True) (claimGhost rt rid d) :=
    claim_of_bookkeeping (redisXack_calls _ _) fun _ => trivial
  unfold processEntry
  split
  · exact hack
  · rename_i request hrequest
    have hmine : (claimGhost rt rid d).mine ↔ requestIdOf request = some rid := by
      simp [claimGhost, Delivery.requestId, hrequest]
    rw [wp_run_bind, now, wp_run_await]
    refine ⟨trivial, fun startedAt => ?_⟩
    simp only [wp_run_bind]
    refine claim_of_bookkeeping
      (calls_mono (fun _ => bookkeeping_of_reads) (alreadyHandled_calls request)) ?_
    rintro (message | handled)
    · trivial
    · simp only
      split
      · exact hack
      · exact claim_processRequest rt d.opts d.entry request startedAt hmine

end Claim

/-! ## One hand-over per request id -/

section Handover

variable {ι : Type} {rt : Runtime} {rid : JsString} {c c' : Config ι Call Reply Delivery Redis}
  {hist : List (Event Call Reply)} {d : Delivery} {pid : ι}

section
variable (rt : Runtime) (rid : JsString)

/-- The record hands a command with request id `rid` to the RCON connection. -/
def IsHandover (rec : Record ι Call Reply Delivery) : Bool :=
  match rec.event.call with
  | .execute _ => rec.arg.requestId rt = some rid
  | _ => false

/-- How often a request id was handed over. -/
def handovers (log : List (Record ι Call Reply Delivery)) : Nat :=
  log.countP (IsHandover rt rid)

/-- Does a process hold the claim of `rid`? -/
def Holds (p : Proc Call Reply Delivery) : Prop :=
  ((claimProtocol rid).ghost (claimGhost rt rid) p.arg p.hist).held

end

/-- The claim of `rid` is held at most once and used at most once. -/
structure ClaimInv (rt : Runtime) (rid : JsString)
    (c : Config ι Call Reply Delivery Redis) : Prop where
  /-- Without the marker nobody was granted the claim. -/
  unclaimed : c.shared.keys (rconCommandDoneKey rid) = none →
    handovers rt rid c.log = 0 ∧ ∀ pid p, c.procs pid = some p → ¬Holds rt rid p
  /-- A held claim has not been used, and nobody else holds it. -/
  held : ∀ pid p, c.procs pid = some p → Holds rt rid p →
    handovers rt rid c.log = 0 ∧
      ∀ pid' p', c.procs pid' = some p' → Holds rt rid p' → pid' = pid
  atMostOnce : handovers rt rid c.log ≤ 1

/-- The three kinds of answered calls, as far as the claim of `rid` is concerned:
a hand-over, the granting of the claim, and everything else. -/
theorem answer_cases {redis redis' : Redis} {call : Call} {reply : Reply call}
    (hanswer : redis.answer call reply = some redis') :
    (∃ command, call = .execute command ∧ redis' = redis) ∨
    ((∀ command, call ≠ .execute command) ∧ redis.keys (rconCommandDoneKey rid) = none ∧
      redis'.keys (rconCommandDoneKey rid) ≠ none) ∨
    ((∀ command, call ≠ .execute command) ∧
      ∀ g, (claimProtocol rid).next call reply g = g) := by
  cases call with
  | execute command =>
    exact .inl ⟨command, rfl, by simpa [Redis.answer] using hanswer.symm⟩
  | setNx key value ttl =>
    right
    by_cases hgrant : key = rconCommandDoneKey rid ∧ reply = .ok
    · obtain ⟨rfl, rfl⟩ := hgrant
      obtain ⟨hnone, rfl⟩ := of_guarded hanswer
      exact .inl ⟨by simp, hnone, by simp⟩
    · refine .inr ⟨by simp, fun g => ?_⟩
      cases reply with
      | ok => simpa [claimProtocol] using fun heq => absurd ⟨heq, rfl⟩ hgrant
      | _ => rfl
  | _ => exact .inr (.inr ⟨by simp, fun g => rfl⟩)

theorem handovers_append (log : List (Record ι Call Reply Delivery))
    (rec : Record ι Call Reply Delivery) : handovers rt rid (log ++ [rec]) =
      handovers rt rid log + if IsHandover rt rid rec then 1 else 0 := by
  simp [handovers, List.countP_append, List.countP_singleton]

theorem isHandover_of_ne {call : Call} {reply : Reply call}
    (hne : ∀ command, call ≠ .execute command) :
    IsHandover rt rid ⟨pid, d, hist, ⟨call, reply⟩⟩ = false := by
  cases call with
  | execute command => exact absurd rfl (hne command)
  | _ => rfl

theorem claim_ghost_mine (d : Delivery) (hist : List (Event Call Reply)) :
    ((claimProtocol rid).ghost (claimGhost rt rid) d hist).mine =
      decide (d.requestId rt = some rid) := by
  have hnext (call : Call) (reply : Reply call) (g : ClaimGhost) :
      ((claimProtocol rid).next call reply g).mine = g.mine := by
    unfold claimProtocol
    dsimp only
    split
    · split <;> rfl
    · rfl
    · rfl
  exact List.foldlRecOn (motive := fun g : ClaimGhost => g.mine = _) hist _ rfl fun _ hg _ _ =>
    (hnext ..).trans hg

theorem claimInv_start (redis : Redis) :
    ClaimInv rt rid (Config.start redis : Config ι Call Reply Delivery Redis) where
  unclaimed _ := ⟨rfl, by rintro pid p ⟨⟩⟩
  held := by rintro pid p ⟨⟩
  atMostOnce := Nat.zero_le 1

/-- A move keeps the invariant if the marker stays, nothing is handed over and no
delivery becomes a holder. -/
theorem claimInv_of_no_new_holder (hinv : ClaimInv rt rid c)
    (hkey : c'.shared.keys (rconCommandDoneKey rid) = none →
      c.shared.keys (rconCommandDoneKey rid) = none)
    (hcount : handovers rt rid c'.log = handovers rt rid c.log)
    (hprocs : ∀ pid p', c'.procs pid = some p' → Holds rt rid p' →
      ∃ p, c.procs pid = some p ∧ Holds rt rid p) : ClaimInv rt rid c' where
  unclaimed hnone := by
    have hold := hinv.unclaimed (hkey hnone)
    refine ⟨hcount ▸ hold.1, fun pid p' hp' hholds' => ?_⟩
    obtain ⟨p, hp, hholds⟩ := hprocs pid p' hp' hholds'
    exact hold.2 pid p hp hholds
  held pid p' hp' hholds' := by
    obtain ⟨p, hp, hholds⟩ := hprocs pid p' hp' hholds'
    have hold := hinv.held pid p hp hholds
    refine ⟨hcount ▸ hold.1, fun pid₂ p₂' hp₂' hholds₂' => ?_⟩
    obtain ⟨p₂, hp₂, hholds₂⟩ := hprocs pid₂ p₂' hp₂' hholds₂'
    exact hold.2 pid₂ p₂ hp₂ hholds₂
  atMostOnce := hcount ▸ hinv.atMostOnce

variable [DecidableEq ι]

/-- Handing over uses the claim up: the count rises only if the delivery held it. -/
theorem claimInv_execute {command : JsString} {prog rest : Prog Call Reply Unit}
    {reply : Reply (.execute command)} (hinv : ClaimInv rt rid c)
    (hproc : c.procs pid = some ⟨d, hist, prog⟩)
    (hpre : d.requestId rt = some rid → Holds rt rid ⟨d, hist, prog⟩)
    (hc' : c' = System.answered c pid d hist ⟨.execute command, reply⟩ rest c.shared) :
    ClaimInv rt rid c' := by
  have hothers (q : ι) (p : Proc Call Reply Delivery) (hp : c'.procs q = some p)
      (hholds : Holds rt rid p) : q ≠ pid ∧ c.procs q = some p := by
    subst hc'
    rcases Config.setProc_procs_eq_some hp with ⟨-, hnew⟩ | hold
    · cases hnew
      simp [Holds, claimProtocol] at hholds
    · exact hold
  have hlog : handovers rt rid c'.log =
      handovers rt rid c.log + if d.requestId rt = some rid then 1 else 0 := by
    simp [hc', System.answered, handovers_append, IsHandover]
  by_cases hmine : d.requestId rt = some rid
  · have hheld := hinv.held pid _ hproc (hpre hmine)
    rw [if_pos hmine, hheld.1] at hlog
    refine ⟨fun hkey => ?_, fun q p hp hholds => ?_, by omega⟩
    · have hkey' : c.shared.keys (rconCommandDoneKey rid) = none := by rwa [hc'] at hkey
      exact absurd (hpre hmine) ((hinv.unclaimed hkey').2 pid _ hproc)
    · obtain ⟨hne, hold⟩ := hothers q p hp hholds
      exact absurd (hheld.2 q p hold hholds) hne
  · rw [if_neg hmine, Nat.add_zero] at hlog
    exact claimInv_of_no_new_holder hinv (by simp [hc', System.answered]) hlog
      fun q p hp hholds => ⟨p, (hothers q p hp hholds).2, hholds⟩

/-- The marker is granted only while nobody holds it and nothing was handed over. -/
theorem claimInv_grant {event : Event Call Reply} {rest : Prog Call Reply Unit} {redis : Redis}
    (hinv : ClaimInv rt rid c) (hnone : c.shared.keys (rconCommandDoneKey rid) = none)
    (hsome : redis.keys (rconCommandDoneKey rid) ≠ none)
    (hquiet : IsHandover rt rid ⟨pid, d, hist, event⟩ = false)
    (hc' : c' = System.answered c pid d hist event rest redis) : ClaimInv rt rid c' := by
  have hold := hinv.unclaimed hnone
  have hlog : handovers rt rid c'.log = 0 := by
    simp [hc', System.answered, handovers_append, hquiet, hold.1]
  have hholder (q : ι) (p : Proc Call Reply Delivery) (hp : c'.procs q = some p)
      (hholds : Holds rt rid p) : q = pid := by
    subst hc'
    rcases Config.setProc_procs_eq_some hp with ⟨heq, -⟩ | ⟨-, hp⟩
    · exact heq
    · exact absurd hholds (hold.2 q p hp)
  refine ⟨fun hkey => ?_, fun q p hp hholds => ⟨hlog, fun q' p' hp' hholds' => ?_⟩, by omega⟩
  · rw [hc'] at hkey
    exact absurd hkey hsome
  · rw [hholder q p hp hholds, hholder q' p' hp' hholds']

theorem claimInv_step {l : Label ι Call Reply Delivery JsString}
    (hfollows : System.Follows (claimProtocol rid) (fun _ => True) (claimGhost rt rid) c)
    (hinv : ClaimInv rt rid c) (hstep : (queueSystem rt).step c l = some c') :
    ClaimInv rt rid c' := by
  have hsame (q : ι) (p) (hp : c.procs q = some p) (hholds : Holds rt rid p) :
      ∃ p₀, c.procs q = some p₀ ∧ Holds rt rid p₀ := ⟨p, hp, hholds⟩
  obtain ⟨pid, d, -, -, rfl⟩ | ⟨pid, d, hist, call, k, reply, redis, -, hproc, hanswer, hc'⟩ |
    ⟨pid, -, rfl⟩ | ⟨requestId, redis, -, henv, rfl⟩ := System.step_cases hstep
  · refine claimInv_of_no_new_holder hinv id rfl (Config.forall_setProc ?_ hsame)
    rintro _ ⟨⟩ hholds
    simp [Holds, claimGhost] at hholds
  · have hwp := hfollows.procs pid _ hproc
    rcases answer_cases hanswer with ⟨command, rfl, rfl⟩ | ⟨hne, hnone, hsome⟩ |
      ⟨hne, hnext⟩
    · refine claimInv_execute hinv hproc (fun hmine => ?_) hc'
      exact hwp.1 (by simpa [claim_ghost_mine] using hmine)
    · exact claimInv_grant hinv hnone hsome (isHandover_of_ne hne) hc'
    · subst hc'
      refine claimInv_of_no_new_holder hinv (Redis.keys_none_of_answer hanswer) ?_
        (Config.forall_setProc ?_ hsame)
      · simp [System.answered, handovers_append, isHandover_of_ne hne]
      · rintro _ ⟨⟩ hholds
        refine ⟨_, hproc, ?_⟩
        simpa [Holds, hnext] using hholds
  · exact claimInv_of_no_new_holder hinv id rfl (Config.forall_setProc (by rintro _ ⟨⟩) hsame)
  · -- the API deletes a result key, which is never a done marker
    cases henv
    refine claimInv_of_no_new_holder hinv (fun hkey => ?_) rfl hsame
    simpa [(rconCommandResultKey_ne_doneKey requestId rid).symm] using hkey

end Handover

/-! ## Only fresh commands are handed over -/

/-- The clock readings in a delivery's history. -/
def readings (hist : List (Event Call Reply)) : List Int :=
  hist.filterMap fun
    | ⟨.now, t⟩ => some t
    | _ => none

/-- The delivery read the clock as it started and, when the command has an age, once
more to compute it; the command was neither past its deadline nor too old then. -/
def FreshAt (rt : Runtime) (d : Delivery) (times : List Int) : Prop :=
  ∃ request startedAt rest, entryRequest rt d.entry = some request ∧
    times = startedAt :: rest ∧
    (∀ deadline ∈ deadlineMs rt d.entry.kv, startedAt ≤ deadline) ∧
    ∀ origin ∈ ageOrigin rt d.entry.streamId request,
      ∃ checkedAt, rest = [checkedAt] ∧ checkedAt - origin ≤ d.opts.maxCommandAgeMs

/-- A delivery hands its command over only when its readings show it to be fresh. -/
def freshProtocol (rt : Runtime) : Protocol Call Reply (Delivery × List Int) where
  pre call g := match call with
    | .execute _ => FreshAt rt g.1 g.2
    | _ => True
  next call reply g := match call, reply with
    | .now, t => (g.1, g.2 ++ [t])
    | _, _ => g

section Fresh

variable (rt : Runtime) (d : Delivery)

theorem fresh_ghost (hist : List (Event Call Reply)) :
    (freshProtocol rt).ghost (fun d => (d, [])) d hist = (d, readings hist) := by
  induction hist using List.reverseRecOn with
  | nil => rfl
  | append_singleton hist ev ih =>
    rw [Protocol.ghost_append_singleton, ih]
    obtain ⟨call, reply⟩ := ev
    cases call <;> simp [freshProtocol, readings]

theorem fresh_pre {call : Call} (hcall : call.Bookkeeping) (g : Delivery × List Int) :
    (freshProtocol rt).pre call g := by
  cases call with
  | execute command => exact hcall.elim
  | _ => trivial

theorem fresh_of_bookkeeping {α : Type} {p : Prog Call Reply α} {g : Delivery × List Int}
    (hp : p.Calls Call.Bookkeeping) : p.Wp (freshProtocol rt) (fun _ _ => True) g :=
  wp_true_of_calls (fun _ hcall g => fresh_pre rt hcall g) hp

theorem fresh_runCommand (request : Json) (startedAt : Int) (times : List Int)
    (hfresh : FreshAt rt d times) :
    (runCommand rt d.opts d.entry request startedAt).run.Wp (freshProtocol rt)
      (fun _ _ => True) (d, times) := by
  unfold runCommand buildAndExecute
  rw [wp_run_bind]
  split
  · exact fresh_of_bookkeeping rt (recordOutcome_calls ..)
  · rw [execute, wp_run_await]
    exact ⟨hfresh, fun reply => fresh_of_bookkeeping rt (recordOutcome_calls ..)⟩

theorem fresh_dispatchRequest (request : Json) (startedAt ageMs : Int)
    (rest : List Int) (hrequest : entryRequest rt d.entry = some request)
    (hage : ageMs ≤ d.opts.maxCommandAgeMs → ∀ origin ∈ ageOrigin rt d.entry.streamId request,
        ∃ checkedAt, rest = [checkedAt] ∧ checkedAt - origin ≤ d.opts.maxCommandAgeMs) :
    (dispatchRequest rt d.opts d.entry request startedAt ageMs).run.Wp (freshProtocol rt)
      (fun _ _ => True) (d, startedAt :: rest) := by
  unfold dispatchRequest
  split
  · exact fresh_of_bookkeeping rt (dropCommand_calls ..)
  · rename_i hyoung
    split
    · exact fresh_of_bookkeeping rt (dropCommand_calls ..)
    · rename_i hdeadline
      have hfresh : FreshAt rt d (startedAt :: rest) := by
        refine ⟨request, startedAt, rest, hrequest, rfl, fun deadline hmem => ?_, hage (by omega)⟩
        rw [mem_def] at hmem
        simpa [pastDeadline, hmem] using hdeadline
      split
      · rw [wp_run_bind, claimRequest, redisSetNx, wp_run_await]
        refine ⟨trivial, ?_⟩
        rintro (_ | _ | message | message)
        · exact fresh_runCommand rt d request startedAt _ hfresh
        · exact fresh_of_bookkeeping rt (redisXack_calls ..)
        · trivial
        · trivial
      · exact fresh_runCommand rt d request startedAt _ hfresh

theorem fresh_processRequest (request : Json) (startedAt : Int)
    (hrequest : entryRequest rt d.entry = some request) :
    (processRequest rt d.opts d.entry request startedAt).run.Wp (freshProtocol rt)
      (fun _ _ => True) (d, [startedAt]) := by
  unfold processRequest
  rw [wp_run_bind]
  unfold commandAgeMs
  split
  · -- afterwards the readings end with the one the age was computed from
    rename_i origin horigin
    refine ⟨trivial, fun checkedAt => ?_⟩
    refine fresh_dispatchRequest rt d request startedAt (checkedAt - origin) [checkedAt]
      hrequest fun hle origin' hmem => ?_
    rw [horigin, mem_some] at hmem
    exact ⟨checkedAt, rfl, hmem ▸ hle⟩
  · rename_i hmissing
    exact fresh_dispatchRequest rt d request startedAt 0 [] hrequest
      fun _ origin hmem => by simp [hmissing] at hmem

theorem fresh_body : ((queueSystem rt).body d).Wp (freshProtocol rt) (fun _ _ => True) (d, []) := by
  simp only [queueSystem]
  rw [wp_bind]
  unfold processEntry
  split
  · exact fresh_of_bookkeeping rt (redisXack_calls ..)
  · rename_i request hrequest
    rw [wp_run_bind, now, wp_run_await]
    refine ⟨trivial, fun startedAt => ?_⟩
    simp only [wp_run_bind]
    refine wp_of_calls (fun call hcall => fresh_pre rt (bookkeeping_of_reads hcall) _)
      (fun call hcall reply => ?_) (alreadyHandled_calls request) ?_
    · cases call with
      | get key => rfl
      | _ => exact hcall.elim
    · rintro (message | handled)
      · trivial
      · simp only
        split
        · exact fresh_of_bookkeeping rt (redisXack_calls ..)
        · exact fresh_processRequest rt d request startedAt hrequest

end Fresh

/-! ## The result -/

section Result

variable {ι : Type} [DecidableEq ι]

/-- In every configuration any run of deliveries reaches, each request id was handed
to the game server at most once, and every command handed over passed the age and
deadline checks of its own delivery. -/
theorem handovers_le_one_and_fresh (rt : Runtime) (redis : Redis)
    (c : Config ι Call Reply Delivery Redis)
    (hreach : (queueSystem rt).Reaches System.anyMove (Config.start redis) c) :
    (∀ rid, handovers rt rid c.log ≤ 1) ∧
      ∀ rec ∈ c.log, (∃ command, rec.event.call = .execute command) →
        FreshAt rt rec.arg (readings rec.hist) := by
  constructor
  · intro rid
    have hinv : ClaimInv rt rid c :=
      System.invariant_of_reaches (claim_body rt) (claimInv_start redis)
        (fun _ _ _ hfollows _ hinv hstep => claimInv_step hfollows hinv hstep) hreach
    exact hinv.atMostOnce
  · rintro rec hrec ⟨command, hcommand⟩
    have hlog := (System.follows_of_reaches (fresh_body rt) hreach).log rec hrec
    rw [fresh_ghost, hcommand] at hlog
    exact hlog

end Result

/-! ### A redelivered command -/

/-- A stored request `{"request_id":"r1","command":"AdminEndMatch"}`. -/
def sampleText : JsString :=
  js "\x7b\"request_id\":\"r1\",\"command\":\"AdminEndMatch\"\x7d"

def sampleInstant : Int := 1700000000000

/-- The built-ins on the inputs of the sample runs. -/
def sampleRuntime : Runtime where
  jsonParse text := if text = sampleText then
      some (.obj [(js "request_id", .str (js "r1")), (js "command", .str (js "AdminEndMatch"))])
    else none
  dateParse _ := none
  number text := if text = js "1700000000000" then some sampleInstant else none
  toISOString t := if t = sampleInstant then js "2023-11-14T22:13:20.000Z" else []
  isDatetime text := text == js "2023-11-14T22:13:20.000Z"
  requestError _ := js "invalid"
  resultError _ := js "invalid"

def sampleDelivery : Delivery where
  opts := { serverId := js "s1" }
  entry := ⟨js "rcon:commands:s1", js "1700000000000-0", [js "request", sampleText]⟩

def emptyRedis : Redis := ⟨fun _ => none, []⟩

/-- A delivery starts, finds neither result nor marker, and reads its age. -/
def sampleCheck : List (Event Call Reply) :=
  [⟨.now, sampleInstant⟩, ⟨.get (rconCommandResultKey (js "r1")), .ok none⟩,
    ⟨.get (rconCommandDoneKey (js "r1")), .ok none⟩, ⟨.now, sampleInstant⟩]

def sampleClaim (reply : ClaimReply) : Event Call Reply :=
  ⟨.setNx (rconCommandDoneKey (js "r1")) (.text (js "1")) DONE_MARKER_TTL_SECONDS, reply⟩

/-- A delivery finds the done marker and acknowledges. -/
def sampleSkip : List (Event Call Reply) :=
  [⟨.now, sampleInstant⟩, ⟨.get (rconCommandResultKey (js "r1")), .ok none⟩,
    ⟨.get (rconCommandDoneKey (js "r1")), .ok (some (.text (js "1")))⟩,
    ⟨.xack (js "rcon:commands:s1") (js "1700000000000-0"), .done⟩]

/-- Two deliveries race for the claim; the winner hands over and crashes, and the
entry is delivered once more. -/
def sampleRace : List (Label Nat Call Reply Delivery JsString) :=
  [Label.spawn 0 sampleDelivery, .spawn 1 sampleDelivery] ++
    sampleCheck.map (Label.perform 0) ++ sampleCheck.map (Label.perform 1) ++
    [Label.perform 0 (sampleClaim .ok), .perform 1 (sampleClaim .nil),
      .perform 0 ⟨.execute (js "AdminEndMatch"), .ok []⟩, .stop 0, .spawn 2 sampleDelivery] ++
    sampleSkip.map (Label.perform 2)

theorem handovers_le_one_and_fresh_sampleRace : ∃ c : Config Nat Call Reply Delivery Redis,
      (queueSystem sampleRuntime).Reaches System.anyMove (Config.start emptyRedis) c ∧
      handovers sampleRuntime (js "r1") c.log = 1 ∧
      (∀ rid, handovers sampleRuntime rid c.log ≤ 1) ∧
      ∀ rec ∈ c.log, (∃ command, rec.event.call = .execute command) →
        FreshAt sampleRuntime rec.arg (readings rec.hist) := by
  have hrun : ((queueSystem sampleRuntime).run System.anyMove (Config.start emptyRedis)
      sampleRace).map (fun c => handovers sampleRuntime (js "r1") c.log) = some 1 := by
    decide +kernel
  obtain ⟨c, hc, hcount⟩ := map_eq_some_iff.mp hrun
  have hreach := Machine.reaches_of_run .refl hc
  exact ⟨c, hreach, hcount, handovers_le_one_and_fresh sampleRuntime emptyRedis c hreach⟩

end SquadPanel.Rcon
