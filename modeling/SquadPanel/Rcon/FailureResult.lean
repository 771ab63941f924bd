import SquadPanel.Rcon.AtMostOnce

/-!
# Failure results are stored before the acknowledgement

One consumer, no crash: it takes the next delivery only after the previous one
ended.  An entry is meant to be acknowledged only when its command succeeded or
a failure result was stored.  The done marker is claimed before the outcome is
known, so a failure result whose write is refused is lost: the redelivery finds
the marker and acknowledges.  Where no such write is refused, the property holds
over every run.
-/

namespace SquadPanel.Rcon

open Js Lib List Option Prog
open Config (setProc_procs_self start)

/-! ## What the log shows -/

section Log

variable {ι : Type}

/-- The command with request id `rid` was executed successfully. -/
def succeeded (rt : Runtime) (rid : JsString) (log : List (Record ι Call Reply Delivery)) : Bool :=
  log.any fun rec => match rec.event with
    | ⟨.execute _, .ok _⟩ => rec.arg.requestId rt = some rid
    | _ => false

variable (rid : JsString)

/-- The event stores a failure result for `rid`. -/
def storesFailure : Event Call Reply → Bool
  | ⟨.set _ _ _, .refused _⟩ => false
  | ⟨.set key (.result result) _, _⟩ => key = rconCommandResultKey rid && !result.ok
  | _ => false

variable (log : List (Record ι Call Reply Delivery))

def failureStored : Bool :=
  log.any fun rec => storesFailure rid rec.event

/-- The event may have set the done marker of `rid` by a claim: `some true` when the
claim was granted, `some false` when its reply was lost. -/
def claimOutcome : Event Call Reply → Option Bool
  | ⟨.setNx key _ _, .ok⟩ => if key = rconCommandDoneKey rid then some true else none
  | ⟨.setNx key _ _, .lost _⟩ => if key = rconCommandDoneKey rid then some false else none
  | _ => none

/-- The worker never learnt that it had claimed `rid`, so the command was not
attempted: it was neither rejected nor run. -/
def unattempted : Bool :=
  (log.findSome? fun rec => claimOutcome rid rec.event) = some false

section
variable (rt : Runtime) (rid : JsString)

def settled (log : List (Record ι Call Reply Delivery)) : Bool :=
  succeeded rt rid log || failureStored rid log || unattempted rid log

/-- The record acknowledges an entry that carries `rid`. -/
def isAck (rec : Record ι Call Reply Delivery) : Bool :=
  match rec.event with
  | ⟨.xack _ _, .refused _⟩ => false
  | ⟨.xack _ _, _⟩ => rec.arg.requestId rt = some rid
  | _ => false

/-- Whenever an entry with request id `rid` was acknowledged, its command had
succeeded, had not been attempted, or a failure result had been stored before. -/
def AcksSettled (log : List (Record ι Call Reply Delivery)) : Prop :=
  ∀ n, ∀ h : n < log.length, isAck rt rid (log.get ⟨n, h⟩) → settled rt rid (log.take n)

end

instance (rt : Runtime) (rid : JsString) (log : List (Record ι Call Reply Delivery)) :
    Decidable (AcksSettled rt rid log) :=
  inferInstanceAs (Decidable (∀ n, ∀ h : n < log.length,
    isAck rt rid (log.get ⟨n, h⟩) → settled rt rid (log.take n)))

end Log

/-! ## The runs of one consumer -/

/-- The consumer does not crash: a delivery stops only at its end. -/
def crashFree (c : Config Unit Call Reply Delivery Redis) :
    Label Unit Call Reply Delivery JsString → Bool
  | .stop () => match c.procs () with
    | some ⟨_, _, .ret _⟩ => true
    | _ => false
  | _ => true

def claimGranted (rid : JsString) (hist : List (Event Call Reply)) : Bool :=
  hist.any fun ev => claimOutcome rid ev = some true

section
variable (rt : Runtime) (rid : JsString)

/-- The delivery claimed `rid`, and its command was rejected or failed. -/
def commandFailed (d : Delivery)
    (hist : List (Event Call Reply)) : Bool :=
  claimGranted rid hist &&
    (((entryRequest rt d.entry).any fun request => !(buildOperatorCommand rt request).isOk) ||
      hist.any fun
        | ⟨.execute _, .error _⟩ => true
        | _ => false)

/-- Nothing keeps the failure result of a claimed command from being stored: the
request id, the server id and the clock give a valid record, and Redis does not
refuse to store it. -/
def storable (d : Delivery) (hist : List (Event Call Reply))
    (event : Event Call Reply) : Bool :=
  !commandFailed rt rid d hist ||
    match event with
    | ⟨.now, t⟩ =>
      rt.isDatetime (rt.toISOString t) && (readings hist).head?.all (· ≤ t) &&
        1 ≤ d.opts.serverId.length && rid.length ≤ 128
    | ⟨.set key _ _, .refused _⟩ => key ≠ rconCommandResultKey rid
    | _ => true

/-- The move does not keep a failure result from being stored. -/
def keepsFailures (c : Config Unit Call Reply Delivery Redis) :
    Label Unit Call Reply Delivery JsString → Bool
  | .perform () event => (c.procs ()).all fun p => storable rt rid p.arg p.hist event
  | _ => true

end

/-! ## The protocol of a delivery -/

/-- The event tells its delivery that the outcome of `rid` is settled. -/
def settles (rid : JsString) : Event Call Reply → Bool
  | ⟨.get key, .ok (some _)⟩ => key = rconCommandResultKey rid || key = rconCommandDoneKey rid
  | ⟨.setNx key _ _, .nil⟩ => key = rconCommandDoneKey rid
  | ⟨.execute _, .ok _⟩ => true
  | event => storesFailure rid event

def known (rid : JsString) (hist : List (Event Call Reply)) : Bool := hist.any (settles rid)

section Histories

variable (rid : JsString) (event : Event Call Reply) (hist hist' : List (Event Call Reply))

@[simp] theorem known_append : known rid (hist ++ hist') = (known rid hist || known rid hist') := by
  simp [known]

variable {rid hist} in
theorem known_append_left (hknown : known rid hist) : known rid (hist ++ hist') := by
  simp [hknown]

@[simp] theorem known_cons : known rid (event :: hist) = (settles rid event || known rid hist) := by
  simp [known]

@[simp] theorem known_nil : known rid [] = false := rfl

@[simp] theorem claimGranted_append :
    claimGranted rid (hist ++ hist') = (claimGranted rid hist || claimGranted rid hist') := by
  simp [claimGranted]

@[simp] theorem claimGranted_cons : claimGranted rid (event :: hist) =
      (decide (claimOutcome rid event = some true) || claimGranted rid hist) := by
  simp [claimGranted]

@[simp] theorem claimGranted_nil : claimGranted rid [] = false := rfl

end Histories

/-- A delivery, what it has done, and whether all of it was `storable`. -/
structure StoreGhost where
  delivery : Delivery
  hist : List (Event Call Reply)
  storable : Bool

namespace StoreGhost

def push (rt : Runtime) (rid : JsString) (g : StoreGhost) (event : Event Call Reply) :
    StoreGhost where
  delivery := g.delivery
  hist := g.hist ++ [event]
  storable := g.storable && Rcon.storable rt rid g.delivery g.hist event

variable (rt : Runtime) (rid : JsString) (g : StoreGhost) (event : Event Call Reply)

@[simp] theorem push_delivery : (g.push rt rid event).delivery = g.delivery := rfl

@[simp] theorem push_hist : (g.push rt rid event).hist = g.hist ++ [event] := rfl

@[simp] theorem push_storable : (g.push rt rid event).storable =
    (g.storable && Rcon.storable rt rid g.delivery g.hist event) := rfl

/-- The delivery carries the request id `rid`. -/
def Mine (g : StoreGhost) : Prop := g.delivery.requestId rt = some rid

@[simp] theorem mine_push : (g.push rt rid event).Mine rt rid ↔ g.Mine rt rid := Iff.rfl

end StoreGhost

section
variable (rt : Runtime) (rid : JsString)

/-- A delivery reads and claims only before it holds the claim; it stores a success
and sets the marker only when the outcome is settled, and it acknowledges only then. -/
def StorePre (d : Delivery) (hist : List (Event Call Reply)) :
    Call → Prop
  | .get _ => ¬claimGranted rid hist
  | .setNx key _ _ => ¬claimGranted rid hist ∧
      (key = rconCommandDoneKey rid → d.requestId rt = some rid) ∧ key ≠ rconCommandResultKey rid
  | .set key value _ =>
    (key = rconCommandDoneKey rid → d.requestId rt = some rid ∧ known rid hist) ∧
    (key = rconCommandResultKey rid → d.requestId rt = some rid ∧
      (known rid hist ∨ ∃ result, value = .result result ∧ result.ok = false))
  | .xack _ _ => d.requestId rt = some rid → known rid hist
  | _ => True

def storeProtocol : Protocol Call Reply StoreGhost where
  pre call g := StorePre rt rid g.delivery g.hist call
  next call reply g := g.push rt rid ⟨call, reply⟩

@[simp] theorem storeProtocol_next (call : Call) (reply : Reply call) (g : StoreGhost) :
    (storeProtocol rt rid).next call reply g = g.push rt rid ⟨call, reply⟩ := rfl

/-- A delivery that holds the claim ends only with the outcome settled, unless the
failure result could not be stored. -/
def StoreEnd (g : StoreGhost) : Prop :=
  g.Mine rt rid → claimGranted rid g.hist → g.storable → known rid g.hist

end

def storeGhost (d : Delivery) : StoreGhost := ⟨d, [], true⟩

section Store

variable {rt : Runtime} {rid : JsString} {g : StoreGhost} {hist : List (Event Call Reply)}
  {d : Delivery}

theorem storeEnd_of_known (hknown : g.Mine rt rid → known rid g.hist) : StoreEnd rt rid g :=
  fun hmine _ _ => hknown hmine

theorem storeEnd_of_unclaimed (hclaim : ¬claimGranted rid g.hist) : StoreEnd rt rid g :=
  fun _ hgranted _ => absurd hgranted hclaim

/-- Acknowledging, once the outcome is known. -/
theorem store_redisXack (stream streamId : JsString) (hknown : g.Mine rt rid → known rid g.hist) :
    (redisXack stream streamId).run.Wp (storeProtocol rt rid) (fun _ => StoreEnd rt rid) g := by
  exact ⟨hknown, fun reply => storeEnd_of_known fun hmine => known_append_left _ (hknown hmine)⟩

/-- Storing a result.  Either nothing happens, or the write of the result is refused,
or the result is stored and the outcome is known. -/
theorem store_writeResult (opts : RconCommandQueueOptions) (result : RconCommandResult)
    (Q : Except JsString Unit → StoreGhost → Prop) (hmine : result.request_id = rid → g.Mine rt rid)
    (hok : result.request_id = rid → result.ok → known rid g.hist)
    (hinvalid : rconCommandResultSchema rt result = false → Q (.error (rt.resultError result)) g)
    (hrefused : ∀ message, Q (.error message) (g.push rt rid
      ⟨.set (rconCommandResultKey result.request_id) (.result result) opts.resultTtlSeconds,
        .refused message⟩)) (hstored : ∀ r g', g'.delivery = g.delivery →
      claimGranted rid g'.hist = claimGranted rid g.hist →
      (result.request_id = rid → known rid g'.hist) → Q r g') :
    (writeResult rt opts result).run.Wp (storeProtocol rt rid) Q g := by
  unfold writeResult
  split
  · have hpre : (storeProtocol rt rid).pre
        (.set (rconCommandResultKey result.request_id) (.result result) opts.resultTtlSeconds)
        g := by
      refine ⟨fun hkey => absurd hkey (rconCommandResultKey_ne_doneKey _ _), fun hkey => ?_⟩
      have heq := rconCommandResultKey_inj.mp hkey
      refine ⟨hmine heq, ?_⟩
      cases hresult : result.ok with
      | true => exact .inl (hok heq hresult)
      | false => exact .inr ⟨result, rfl, hresult⟩
    -- a result that Redis stored settles the outcome
    have hknown (reply : WriteReply) (hreply : ∀ message, reply ≠ .refused message)
        (heq : result.request_id = rid) :
        known rid (g.hist ++ [⟨.set (rconCommandResultKey result.request_id) (.result result)
          opts.resultTtlSeconds, reply⟩]) := by
      cases hresult : result.ok with
      | true => simp [hok heq hresult]
      | false =>
        cases reply with
        | refused message => exact absurd rfl (hreply message)
        | _ => simp [settles, storesFailure, heq, hresult]
    refine ⟨hpre, ?_⟩
    rintro (_ | message | message)
    · refine ⟨⟨fun hkey => ?_, fun hkey => ?_⟩, fun reply => hstored _ _ rfl ?_ fun heq => ?_⟩
      · have heq := rconCommandDoneKey_inj.mp hkey
        exact ⟨hmine heq, hknown .done (by simp) heq⟩
      · exact absurd hkey.symm (rconCommandResultKey_ne_doneKey _ _)
      · simp [storeProtocol, claimOutcome]
      · exact known_append_left _ (hknown .done (by simp) heq)
    · exact hrefused message
    · exact hstored _ _ rfl (by simp [storeProtocol, claimOutcome])
        (hknown (.lost message) (by simp))
  · rename_i hschema
    exact hinvalid (by simpa using hschema)

theorem requestIdOf_length {request : Json} {requestId : JsString}
    (hid : requestIdOf request = some requestId) : 1 ≤ requestId.length := by
  unfold requestIdOf at hid
  split at hid
  · split at hid
    · cases hid
      assumption
    · cases hid
  · cases hid

theorem commandFailed_append (hist' : List (Event Call Reply))
    (hfailed : commandFailed rt rid d hist) : commandFailed rt rid d (hist ++ hist') := by
  simp only [commandFailed, claimGranted_append, any_append, Bool.and_eq_true,
    Bool.or_eq_true] at hfailed ⊢
  exact ⟨.inl hfailed.1, hfailed.2.imp id .inl⟩

/-- Two `storable` clock readings give a failure record that passes its schema. -/
theorem outcomeResult_valid {request : Json} (message : JsString)
    {startedAt completedAt finishedAt : Int}
    (hid : requestIdOf request = some rid) (hstart : (readings hist).head? = some startedAt)
    (hfailed : commandFailed rt rid d hist)
    (hcompleted : storable rt rid d hist ⟨.now, completedAt⟩)
    (hfinished : storable rt rid d (hist ++ [⟨.now, completedAt⟩]) ⟨.now, finishedAt⟩) :
    rconCommandResultSchema rt (outcomeResult rt d.opts request (some rid) (.error message)
      startedAt completedAt finishedAt) := by
  have hlength := requestIdOf_length hid
  have hstart' : (readings (hist ++ [⟨.now, completedAt⟩])).head? = some startedAt := by
    simp only [readings, filterMap_append] at hstart ⊢
    simp [head?_append, hstart]
  simp only [storable, hfailed, commandFailed_append _ hfailed, hstart, hstart', Bool.not_true,
    Bool.false_or, all_some, Bool.and_eq_true, decide_eq_true_eq] at hcompleted hfinished
  obtain ⟨⟨⟨hdate, -⟩, hserver⟩, hrid⟩ := hcompleted
  obtain ⟨⟨⟨-, hle⟩, -⟩, -⟩ := hfinished
  simp only [rconCommandResultSchema, Bool.and_eq_true, decide_eq_true_eq]
  exact ⟨⟨⟨hserver, hlength, hrid⟩, hdate⟩, Int.sub_nonneg_of_le hle⟩

theorem not_storable_refused {value : RedisValue} {ttlSeconds : Nat} {message : JsString}
    (hfailed : commandFailed rt rid d hist) : ¬storable rt rid d hist
      ⟨.set (rconCommandResultKey rid) value ttlSeconds, .refused message⟩ := by
  simp [storable, hfailed]

section
variable {request : Json} {startedAt : Int}

section
variable (hrequest : entryRequest rt d.entry = some request) (hdelivery : g.delivery = d)
include hrequest hdelivery

theorem mine_iff : g.Mine rt rid ↔ requestIdOf request = some rid := by
  simp [StoreGhost.Mine, Delivery.requestId, hdelivery, hrequest]

theorem store_dropCommand (error : JsString) (hclaim : ¬claimGranted rid g.hist) :
    (dropCommand rt d.opts d.entry request error).run.Wp (storeProtocol rt rid)
      (fun _ => StoreEnd rt rid) g := by
  unfold dropCommand
  split
  · rename_i requestId hid
    have hmine : g.Mine rt rid ↔ requestId = rid := by simp [mine_iff hrequest hdelivery, hid]
    simp only [now, wp_run_bind, wp_run_await]
    refine ⟨trivial, fun completedAt => ?_⟩
    apply store_writeResult
    · exact hmine.mpr
    · intro _ hok
      cases hok
    · intro _
      exact storeEnd_of_unclaimed (by simpa [storeProtocol, claimOutcome] using hclaim)
    · intro message
      exact storeEnd_of_unclaimed (by simpa [storeProtocol, claimOutcome] using hclaim)
    · rintro (message | _) g' hdelivery' hgranted hknown
      · exact storeEnd_of_unclaimed (by
          rw [hgranted]; simpa [storeProtocol, claimOutcome] using hclaim)
      · apply store_redisXack
        intro hg'
        exact hknown (hmine.mp (by
          simpa [StoreGhost.Mine, hdelivery', storeProtocol] using hg'))
  · rename_i hid
    apply store_redisXack
    intro hg
    simp [mine_iff hrequest hdelivery, hid] at hg

section
variable (hstart : (readings g.hist).head? = some startedAt)
include hstart

/-- Recording an outcome: a success is known already, and a failure is stored before
the acknowledgement or the delivery ends in an error. -/
theorem store_recordOutcome (outcome : Except JsString JsString)
    (hok : outcome.isOk → g.Mine rt rid → known rid g.hist)
    (hfailed : outcome.isOk = false → g.Mine rt rid → commandFailed rt rid d g.hist) :
    (recordOutcome rt d.opts d.entry request startedAt outcome).run.Wp (storeProtocol rt rid)
      (fun _ => StoreEnd rt rid) g := by
  unfold recordOutcome
  simp only [now, wp_run_bind, wp_run_await]
  refine ⟨trivial, fun completedAt => ⟨trivial, fun finishedAt => ?_⟩⟩
  split
  · rename_i requestId hid
    have hmine : g.Mine rt rid ↔ requestId = rid := by simp [mine_iff hrequest hdelivery, hid]
    have hlater {g' : StoreGhost} (hsame : g'.delivery = g.delivery) (hg : g'.Mine rt rid) :
        requestId = rid := by
      apply hmine.mp
      rwa [StoreGhost.Mine, ← hsame]
    simp only [wp_run_bind, wp_run_tryCatch]
    cases outcome with
    | ok response =>
      have hknown (hg : g.Mine rt rid) :
          known rid (g.hist ++ [⟨.now, completedAt⟩] ++ [⟨.now, finishedAt⟩]) :=
        known_append_left _ (known_append_left _ (hok rfl hg))
      apply store_writeResult
      · exact hmine.mpr
      · exact fun heq _ => hknown (hmine.mpr heq)
      · exact fun _ => store_redisXack _ _ hknown
      · exact fun message => store_redisXack _ _ fun hg => known_append_left _ (hknown hg)
      · rintro (message | _) g' hdelivery' - hknown' <;>
          exact store_redisXack _ _ fun hg => hknown' (hlater hdelivery' hg)
    | error message =>
      apply store_writeResult
      · exact hmine.mpr
      · exact fun _ h => by cases h
      · -- an invalid record contradicts the readings having been storable
        intro hinvalid hg _ hstorable
        have heq := hmine.mp hg
        subst heq
        simp only [storeProtocol, StoreGhost.push_storable, StoreGhost.push_delivery,
          StoreGhost.push_hist, hdelivery, Bool.and_eq_true] at hstorable
        have hvalid := outcomeResult_valid message hid hstart (hfailed rfl hg)
          hstorable.1.2 hstorable.2
        rw [hvalid] at hinvalid
        cases hinvalid
      · -- so does a refused write
        intro error hg _ hstorable
        have heq := hmine.mp hg
        subst heq
        have hfailed' : commandFailed rt requestId d
            (g.hist ++ [⟨.now, completedAt⟩] ++ [⟨.now, finishedAt⟩]) :=
          commandFailed_append _ (commandFailed_append _ (hfailed rfl hg))
        simp only [storeProtocol, StoreGhost.push_storable, StoreGhost.push_delivery,
          StoreGhost.push_hist, hdelivery, Bool.and_eq_true] at hstorable
        exact absurd hstorable.2 (not_storable_refused hfailed')
      · rintro (error | _) g' hdelivery' - hknown'
        · exact storeEnd_of_known fun hg => hknown' (hlater hdelivery' hg)
        · exact store_redisXack _ _ fun hg => hknown' (hlater hdelivery' hg)
  · rename_i hid
    apply store_redisXack
    intro hg
    simp [mine_iff hrequest hdelivery, hid] at hg

theorem store_runCommand (hclaim : g.Mine rt rid → claimGranted rid g.hist) :
    (runCommand rt d.opts d.entry request startedAt).run.Wp (storeProtocol rt rid)
      (fun _ => StoreEnd rt rid) g := by
  unfold runCommand buildAndExecute
  rw [wp_run_bind]
  split
  · rename_i message hbuild
    refine store_recordOutcome hrequest hdelivery hstart _ ?_ ?_
    · intro hok
      cases hok
    · intro _ hg
      simp [commandFailed, hclaim hg, hrequest, hbuild, Except.isOk, Except.toBool]
  · rename_i command hbuild
    refine ⟨trivial, fun outcome => ?_⟩
    refine store_recordOutcome hrequest (by exact hdelivery) ?_ _ ?_ ?_
    · simpa [storeProtocol, readings] using hstart
    · intro hok hg
      cases outcome with
      | ok response => simp [storeProtocol, settles]
      | error message => cases hok
    · intro herror hg
      cases outcome with
      | ok response => cases herror
      | error message =>
        have hgranted := hclaim hg
        simp [storeProtocol, commandFailed, hgranted]

theorem store_dispatchRequest (ageMs : Int) (hclaim : ¬claimGranted rid g.hist) :
    (dispatchRequest rt d.opts d.entry request startedAt ageMs).run.Wp (storeProtocol rt rid)
      (fun _ => StoreEnd rt rid) g := by
  unfold dispatchRequest
  split
  · exact store_dropCommand hrequest hdelivery _ hclaim
  · split
    · exact store_dropCommand hrequest hdelivery _ hclaim
    · split
      · rename_i requestId hid
        have hmine : g.Mine rt rid ↔ requestId = rid := by simp [mine_iff hrequest hdelivery, hid]
        refine ⟨⟨hclaim, fun hkey => hmine.mpr (rconCommandDoneKey_inj.mp hkey),
          (rconCommandResultKey_ne_doneKey _ _).symm⟩, ?_⟩
        rintro (_ | _ | message | message)
        · refine store_runCommand hrequest (by exact hdelivery) ?_ fun hg => ?_
          · simpa [storeProtocol, readings] using hstart
          · simp [storeProtocol, claimOutcome, hmine.mp hg]
        · refine store_redisXack _ _ fun hg => ?_
          simp [storeProtocol, settles, hmine.mp hg]
        · exact storeEnd_of_unclaimed (by simpa [storeProtocol, claimOutcome] using hclaim)
        · exact storeEnd_of_unclaimed (by simpa [storeProtocol, claimOutcome] using hclaim)
      · rename_i hid
        refine store_runCommand hrequest hdelivery hstart fun hg => ?_
        simp [mine_iff hrequest hdelivery, hid] at hg

theorem store_processRequest (hclaim : ¬claimGranted rid g.hist) :
    (processRequest rt d.opts d.entry request startedAt).run.Wp (storeProtocol rt rid)
      (fun _ => StoreEnd rt rid) g := by
  unfold processRequest commandAgeMs
  rw [wp_run_bind]
  split
  · rw [wp_run_bind, now, wp_run_await]
    refine ⟨trivial, fun checkedAt => ?_⟩
    refine store_dispatchRequest hrequest (by exact hdelivery) ?_ _ ?_
    · simp only [storeProtocol, StoreGhost.push_hist, readings, filterMap_append]
      simp only [readings] at hstart
      simp [head?_append, hstart]
    · simpa [storeProtocol, claimOutcome] using hclaim
  · exact store_dispatchRequest hrequest hdelivery hstart _ hclaim

end

end

theorem store_keyExists (key : JsString) (Q : Except JsString Bool → StoreGhost → Prop)
    (hdelivery : g.delivery = d) (hclaim : ¬claimGranted rid g.hist)
    (hfound : ∀ value, Q (.ok true) (g.push rt rid ⟨.get key, .ok (some value)⟩))
    (hmissing : ∀ g', g'.delivery = d → ¬claimGranted rid g'.hist →
      readings g'.hist = readings g.hist → Q (.ok false) g') :
    (keyExists key).run.Wp (storeProtocol rt rid) Q g := by
  have hskip (reply : Except JsString (Option RedisValue)) :
      Q (.ok false) (g.push rt rid ⟨.get key, reply⟩) :=
    hmissing _ hdelivery (by simpa [claimOutcome] using hclaim) (by simp [readings])
  refine ⟨hclaim, ?_⟩
  rintro (message | _ | value)
  · exact hskip _
  · exact hskip _
  · exact hfound value

/-- Looking for a result or a marker: finding one settles the outcome, and otherwise
nothing has changed. -/
theorem store_alreadyHandled (Q : Except JsString Bool → StoreGhost → Prop)
    (hrequest : entryRequest rt d.entry = some request) (hdelivery : g.delivery = d)
    (hclaim : ¬claimGranted rid g.hist)
    (hhandled : ∀ g', g'.delivery = d → (g'.Mine rt rid → known rid g'.hist) → Q (.ok true) g')
    (hnew : ∀ g', g'.delivery = d → ¬claimGranted rid g'.hist →
      readings g'.hist = readings g.hist → Q (.ok false) g') :
    (alreadyHandled request).run.Wp (storeProtocol rt rid) Q g := by
  unfold alreadyHandled
  split
  · rename_i requestId hid
    have hmine (g' : StoreGhost) (hdelivery' : g'.delivery = d) (hg' : g'.Mine rt rid) :
        requestId = rid := by
      simpa [StoreGhost.Mine, Delivery.requestId, hdelivery', hrequest, hid] using hg'
    rw [wp_run_bind, resultExists]
    refine store_keyExists _ _ hdelivery hclaim (fun value => ?_) ?_
    · refine hhandled _ hdelivery fun hg => ?_
      simp [settles, hmine _ hdelivery hg]
    · intro g₁ hdelivery₁ hclaim₁ hreadings₁
      refine store_keyExists _ _ hdelivery₁ hclaim₁ (fun value => ?_) ?_
      · refine hhandled _ hdelivery₁ fun hg => ?_
        simp [settles, hmine _ hdelivery₁ hg]
      · intro g₂ hdelivery₂ hclaim₂ hreadings₂
        exact hnew g₂ hdelivery₂ hclaim₂ (hreadings₂.trans hreadings₁)
  · exact hnew g hdelivery hclaim rfl

theorem store_body (d : Delivery) : ((queueSystem rt).body d).Wp (storeProtocol rt rid)
      (fun _ => StoreEnd rt rid) (storeGhost d) := by
  simp only [queueSystem]
  rw [wp_bind]
  unfold processEntry
  split
  · rename_i hnone
    refine store_redisXack _ _ fun hg => ?_
    simp [StoreGhost.Mine, Delivery.requestId, storeGhost, hnone] at hg
  · rename_i request hrequest
    rw [wp_run_bind, now, wp_run_await]
    refine ⟨trivial, fun startedAt => ?_⟩
    simp only [wp_run_bind]
    refine store_alreadyHandled _ hrequest rfl ?_ ?_ ?_
    · simp [storeProtocol, storeGhost, claimOutcome]
    · intro g hdelivery hknown
      exact store_redisXack _ _ hknown
    · intro g hdelivery hclaim hreadings
      have hstart : (readings g.hist).head? = some startedAt := by
        rw [hreadings]
        rfl
      exact store_processRequest hrequest hdelivery hstart hclaim

end

end Store

/-! ## The invariant of a run -/

section Run

variable {rt : Runtime} {rid : JsString} {c c' : Config Unit Call Reply Delivery Redis}
  {p : Proc Call Reply Delivery}

theorem store_ghost (d : Delivery) (hist : List (Event Call Reply)) :
    ((storeProtocol rt rid).ghost storeGhost d hist).delivery = d ∧
      ((storeProtocol rt rid).ghost storeGhost d hist).hist = hist := by
  induction hist using List.reverseRecOn with
  | nil => exact ⟨rfl, rfl⟩
  | append_singleton hist event ih =>
    simp only [Protocol.ghost_append_singleton, storeProtocol, StoreGhost.push_delivery,
      StoreGhost.push_hist] at ih ⊢
    exact ⟨ih.1, by rw [ih.2]⟩

section Settled

variable {ι : Type} {log : List (Record ι Call Reply Delivery)} {rec : Record ι Call Reply Delivery}

theorem settled_append (hsettled : settled rt rid log) : settled rt rid (log ++ [rec]) := by
  simp only [settled, succeeded, failureStored, unattempted, any_append,
    findSome?_append, Bool.or_eq_true, decide_eq_true_eq] at hsettled ⊢
  rcases hsettled with (hsucceeded | hstored) | hlost
  · exact .inl (.inl (.inl hsucceeded))
  · exact .inl (.inr (.inl hstored))
  · exact .inr (by simp [hlost])

theorem settled_of_stores (hstores : storesFailure rid rec.event) :
    settled rt rid (log ++ [rec]) := by
  simp [settled, failureStored, hstores]

theorem acksSettled_append (hacks : AcksSettled rt rid log)
    (hrec : isAck rt rid rec → settled rt rid log) : AcksSettled rt rid (log ++ [rec]) := by
  intro n hn hack
  by_cases hlt : n < log.length
  · rw [take_append_of_le_length (Nat.le_of_lt hlt)]
    apply hacks n hlt
    simpa [getElem_append_left hlt] using hack
  · have heq : n = log.length := by
      simp only [length_append, length_singleton] at hn
      omega
    subst heq
    simp only [get_eq_getElem, getElem_concat_length] at hack
    simpa using hrec hack

end Settled

/-- The delivery being processed, if any, holds the claim of `rid`. -/
def Claimed (rt : Runtime) (rid : JsString) (c : Config Unit Call Reply Delivery Redis) : Prop :=
  ∃ p, c.procs () = some p ∧ p.arg.requestId rt = some rid ∧ claimGranted rid p.hist

/-- What holds of `rid` between any two moves. -/
structure StoreInv (rt : Runtime) (rid : JsString)
    (c : Config Unit Call Reply Delivery Redis) : Prop where
  marker : c.shared.keys (rconCommandDoneKey rid) ≠ none →
    settled rt rid c.log ∨ Claimed rt rid c
  result : c.shared.keys (rconCommandResultKey rid) ≠ none → settled rt rid c.log
  known : ∀ p, c.procs () = some p → p.arg.requestId rt = some rid → known rid p.hist →
    settled rt rid c.log
  unclaimed : c.shared.keys (rconCommandDoneKey rid) = none →
    (c.log.findSome? fun rec => claimOutcome rid rec.event) = none
  storable : ∀ p, c.procs () = some p →
    ((storeProtocol rt rid).ghost storeGhost p.arg p.hist).storable
  acks : AcksSettled rt rid c.log

/-- A marker that this delivery did not claim belongs to a settled outcome. -/
theorem settled_of_marker (hinv : StoreInv rt rid c)
    (hproc : c.procs () = some p) (hclaim : ¬claimGranted rid p.hist)
    (hkey : c.shared.keys (rconCommandDoneKey rid) ≠ none) : settled rt rid c.log := by
  rcases hinv.marker hkey with hsettled | ⟨q, hq, -, hgranted⟩
  · exact hsettled
  · rw [hproc, some.injEq] at hq
    subst hq
    exact absurd hgranted hclaim

section Answered

variable {d : Delivery} {hist : List (Event Call Reply)} {call : Call} {prog : Prog Call Reply Unit}
  {reply : Reply call} {redis : Redis}

/-- What a delivery learns about the outcome is true. -/
theorem settled_of_settles (hinv : StoreInv rt rid c)
    (hproc : c.procs () = some ⟨d, hist, prog⟩) (hmine : d.requestId rt = some rid)
    (hpre : StorePre rt rid d hist call) (hanswer : c.shared.answer call reply = some redis)
    (hsettles : settles rid ⟨call, reply⟩) :
    settled rt rid (c.log ++ [⟨(), d, hist, ⟨call, reply⟩⟩]) := by
  cases call with
  | get key =>
    rcases reply with message | _ | value
    · cases hsettles
    · cases hsettles
    · simp only [Redis.answer, ite_none_right_eq_some] at hanswer
      have hkey : c.shared.keys key ≠ none := by simp [hanswer.1]
      simp only [settles, Bool.or_eq_true, decide_eq_true_eq] at hsettles
      rcases hsettles with rfl | rfl
      · exact settled_append (hinv.result hkey)
      · exact settled_append (settled_of_marker hinv hproc hpre hkey)
  | setNx key value ttl =>
    rcases reply with _ | _ | message | message
    · cases hsettles
    · simp only [settles, decide_eq_true_eq] at hsettles
      subst hsettles
      refine settled_append (settled_of_marker hinv hproc hpre.1 fun hkey => ?_)
      simp [Redis.answer, hkey] at hanswer
    · cases hsettles
    · cases hsettles
  | execute command =>
    rcases reply with message | response
    · cases hsettles
    · simp [settled, succeeded, hmine]
  | set key value ttl => exact settled_of_stores hsettles
  | now | xack => cases hsettles

section
variable (hinv : StoreInv rt rid c) (hproc : c.procs () = some ⟨d, hist, prog⟩)
  (hpre : StorePre rt rid d hist call) (hanswer : c.shared.answer call reply = some redis)
include hinv hproc hpre hanswer

theorem marker_answered (hkey : redis.keys (rconCommandDoneKey rid) ≠ none) :
    settled rt rid (c.log ++ [⟨(), d, hist, ⟨call, reply⟩⟩]) ∨
      (d.requestId rt = some rid ∧ claimGranted rid (hist ++ [⟨call, reply⟩])) := by
  by_cases hnone : c.shared.keys (rconCommandDoneKey rid) = none
  · cases Redis.sets_of_answer hanswer hnone hkey with
    | stored value ttl | storedLost value ttl message =>
      obtain ⟨hmine, hknown⟩ := hpre.1 rfl
      exact .inl (settled_append (hinv.known _ hproc hmine hknown))
    | claimed value ttl => exact .inr ⟨hpre.2.1 rfl, by simp [claimOutcome]⟩
    | claimedLost value ttl message =>
      have hlost : claimOutcome rid ⟨.setNx (rconCommandDoneKey rid) value ttl,
          .lost message⟩ = some false := by
        simp [claimOutcome]
      simp [settled, unattempted, findSome?_append, hinv.unclaimed hnone, hlost]
  · rcases hinv.marker hnone with hsettled | ⟨q, hq, hmine, hgranted⟩
    · exact .inl (settled_append hsettled)
    · rw [hproc, some.injEq] at hq
      subst hq
      exact .inr ⟨hmine, by simp [hgranted]⟩

theorem result_answered (hkey : redis.keys (rconCommandResultKey rid) ≠ none) :
    settled rt rid (c.log ++ [⟨(), d, hist, ⟨call, reply⟩⟩]) := by
  by_cases hnone : c.shared.keys (rconCommandResultKey rid) = none
  · cases Redis.sets_of_answer hanswer hnone hkey with
    | stored value ttl | storedLost value ttl message =>
      obtain ⟨hmine, hknown | ⟨result, rfl, hfailed⟩⟩ := hpre.2 rfl
      · exact settled_append (hinv.known _ hproc hmine hknown)
      · exact settled_of_stores (by simp [storesFailure, hfailed])
    | claimed value ttl | claimedLost value ttl message => exact absurd rfl hpre.2.2
  · exact settled_append (hinv.result hnone)

end

theorem unclaimed_answered (hanswer : c.shared.answer call reply = some redis)
    (hkey : redis.keys (rconCommandDoneKey rid) = none) :
    claimOutcome rid ⟨call, reply⟩ = none := by
  have hnone := Redis.keys_none_of_answer hanswer hkey
  by_contra hclaim
  unfold claimOutcome at hclaim
  split at hclaim
  case h_1 heq | h_2 heq =>
    -- a claim that was granted has set the key, whether or not its reply came back
    cases heq
    split at hclaim
    · rename_i hdone
      subst hdone
      simp [Redis.answer, hnone] at hanswer
      simp [← hanswer] at hkey
    · exact hclaim rfl
  case h_3 => exact hclaim rfl

theorem storeInv_answered {rest : Prog Call Reply Unit} (hinv : StoreInv rt rid c)
    (hproc : c.procs () = some ⟨d, hist, prog⟩) (hpre : StorePre rt rid d hist call)
    (hanswer : c.shared.answer call reply = some redis)
    (hstorable : storable rt rid d hist ⟨call, reply⟩) :
    StoreInv rt rid (System.answered c () d hist ⟨call, reply⟩ rest redis) where
  marker hkey := by
    rcases marker_answered hinv hproc hpre hanswer hkey with hsettled | hclaimed
    · exact .inl hsettled
    · exact .inr ⟨⟨d, hist ++ [⟨call, reply⟩], rest⟩, by simp [System.answered], hclaimed⟩
  result hkey := result_answered hinv hproc hpre hanswer hkey
  known p hp hmine hknown := by
    have heq : p = ⟨d, hist ++ [⟨call, reply⟩], rest⟩ := by
      simpa [System.answered] using hp.symm
    subst heq
    simp only [known_append, known_cons, known_nil, Bool.or_false, Bool.or_eq_true] at hknown
    rcases hknown with hold | hnew
    · exact settled_append (hinv.known _ hproc hmine hold)
    · exact settled_of_settles hinv hproc hmine hpre hanswer hnew
  unclaimed hkey := by
    have hold := hinv.unclaimed (Redis.keys_none_of_answer hanswer hkey)
    simp [System.answered, findSome?_append, hold, unclaimed_answered hanswer hkey]
  storable p hp := by
    have heq : p = ⟨d, hist ++ [⟨call, reply⟩], rest⟩ := by
      simpa [System.answered] using hp.symm
    subst heq
    have hold := hinv.storable _ hproc
    obtain ⟨hdelivery, hhist⟩ := @store_ghost rt rid d hist
    rw [Protocol.ghost_append_singleton, storeProtocol_next, StoreGhost.push_storable,
      hdelivery, hhist, hold, hstorable]
    rfl
  acks := by
    refine acksSettled_append hinv.acks fun hack => ?_
    cases call with
    | xack stream streamId =>
      have hmine : d.requestId rt = some rid := by
        cases reply with
        | refused message => cases hack
        | _ => simpa [isAck] using hack
      exact hinv.known _ hproc hmine (hpre hmine)
    | _ => cases hack

end Answered

section
variable (hfollows : System.Follows (storeProtocol rt rid) (StoreEnd rt rid) storeGhost c)
include hfollows

/-- A delivery that ends with the claim knows how its command ended. -/
theorem storeInv_end (hcrash : crashFree c (.stop ())) (hinv : StoreInv rt rid c)
    (hproc : c.procs () = some p) (hmine : p.arg.requestId rt = some rid)
    (hgranted : claimGranted rid p.hist) : known rid p.hist := by
  obtain ⟨d, hist, prog⟩ := p
  obtain ⟨hdelivery, hhist⟩ := @store_ghost rt rid d hist
  cases prog with
  | call e k => simp [crashFree, hproc] at hcrash
  | ret u =>
    have hend := hfollows.procs () _ hproc
    simp only [wp_ret, StoreEnd, StoreGhost.Mine, hdelivery, hhist] at hend
    exact hend hmine hgranted (hinv.storable _ hproc)

theorem storeInv_step {l : Label Unit Call Reply Delivery JsString}
    (hguard : crashFree c l && keepsFailures rt rid c l)
    (hinv : StoreInv rt rid c) (hstep : (queueSystem rt).step c l = some c') :
    StoreInv rt rid c' := by
  obtain ⟨hcrash, hkeep⟩ := Bool.and_eq_true_iff.mp hguard
  obtain ⟨pid, d, rfl, hidle, rfl⟩ | ⟨pid, d, hist, call, k, reply, redis, rfl, hproc, hanswer,
    rfl⟩ | ⟨pid, rfl, rfl⟩ | ⟨requestId, redis, rfl, henv, rfl⟩ := System.step_cases hstep
  · -- a new delivery: the previous one has ended, so no claim is pending
    refine ⟨fun hkey => ?_, hinv.result, fun p hp hmine hknown => ?_, hinv.unclaimed,
      fun p hp => ?_, hinv.acks⟩
    · rcases hinv.marker hkey with hsettled | ⟨p, hp, -⟩
      · exact .inl hsettled
      · rw [hidle] at hp
        cases hp
    · rw [setProc_procs_self, some.injEq] at hp
      subst hp
      cases hknown
    · rw [setProc_procs_self, some.injEq] at hp
      subst hp
      rfl
  · obtain ⟨hdelivery, hhist⟩ := @store_ghost rt rid d hist
    have hpre : StorePre rt rid ((storeProtocol rt rid).ghost storeGhost d hist).delivery
        ((storeProtocol rt rid).ghost storeGhost d hist).hist call :=
      (hfollows.procs () _ hproc).1
    rw [hdelivery, hhist] at hpre
    have hstorable : storable rt rid d hist ⟨call, reply⟩ := by
      simpa [keepsFailures, hproc] using hkeep
    exact storeInv_answered hinv hproc hpre hanswer hstorable
  · refine ⟨fun hkey => .inl ?_, hinv.result, fun p hp => ?_, hinv.unclaimed, fun p hp => ?_,
      hinv.acks⟩
    · rcases hinv.marker hkey with hsettled | ⟨p, hp, hmine, hgranted⟩
      · exact hsettled
      · -- the delivery that claimed the marker has come to its end
        exact hinv.known p hp hmine (storeInv_end hfollows hcrash hinv hp hmine hgranted)
    · rw [setProc_procs_self] at hp
      cases hp
    · rw [setProc_procs_self] at hp
      cases hp
  · cases henv
    have hdone : (c.shared.del (rconCommandResultKey requestId)).keys (rconCommandDoneKey rid) =
        c.shared.keys (rconCommandDoneKey rid) := by
      simp [(rconCommandResultKey_ne_doneKey requestId rid).symm]
    refine ⟨fun hkey => hinv.marker (hdone ▸ hkey), fun hkey => hinv.result fun hnone => hkey ?_,
      hinv.known, fun hkey => hinv.unclaimed (hdone ▸ hkey), hinv.storable, hinv.acks⟩
    simp [hnone]

end

theorem storeInv_start (redis : Redis) (hdone : redis.keys (rconCommandDoneKey rid) = none)
    (hresult : redis.keys (rconCommandResultKey rid) = none) :
    StoreInv rt rid (start redis) where
  marker hkey := absurd hdone hkey
  result hkey := absurd hresult hkey
  known := by rintro p ⟨⟩
  unclaimed _ := rfl
  storable := by rintro p ⟨⟩
  acks := by rintro n ⟨⟩

end Run

/-! ## The result -/

/-- The failure result of the sample command. -/
def sampleFailure : RconCommandResult :=
  outcomeResult sampleRuntime sampleDelivery.opts
    (.obj [(js "request_id", .str (js "r1")), (js "command", .str (js "AdminEndMatch"))])
    (some (js "r1")) (.error (js "rcon timeout")) sampleInstant sampleInstant sampleInstant

/-- The command is claimed and fails, and Redis answers `reply` when its failure result
is stored. -/
def sampleFailing (reply : WriteReply) : List (Event Call Reply) :=
  sampleCheck ++
    [sampleClaim .ok, ⟨.execute (js "AdminEndMatch"), .error (js "rcon timeout")⟩,
      ⟨.now, sampleInstant⟩, ⟨.now, sampleInstant⟩,
      ⟨.set (rconCommandResultKey (js "r1")) (.result sampleFailure) 120, reply⟩]

/-- Two deliveries of the sample entry, one after the other. -/
def sampleRedelivery (first second : List (Event Call Reply)) :
    List (Label Unit Call Reply Delivery JsString) :=
  .spawn () sampleDelivery :: first.map (.perform ()) ++
    .stop () :: .spawn () sampleDelivery :: second.map (.perform ())

end SquadPanel.Rcon
