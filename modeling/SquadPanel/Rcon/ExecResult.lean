import Mathlib.Data.List.Flatten
import SquadPanel.Rcon.Client

/-!
# What an `exec` resolves with

Over every sequence of events, an `exec` that resolves does so at the first echo
of its own probe, with the bodies of the responses that carried its own id since
it was sent, in order.  Ids are never reused, so a late answer to a command that
timed out cannot reach a later one.
-/

namespace SquadPanel.Rcon

open Js RconClient List

/-! ## Reading the log -/

/-- The packet answers the id. -/
def IsResponse (p : RconPacket) (id : Int) : Prop :=
  p.type = SERVERDATA_RESPONSE_VALUE ∧ p.id = id

instance (p : RconPacket) (id : Int) : Decidable (IsResponse p id) :=
  inferInstanceAs (Decidable (_ ∧ _))

/-- The bodies of the responses that carry an id, in order of arrival. -/
def responses (id : Int) (log : List LogEntry) : List JsString :=
  log.filterMap fun
    | .received p => if IsResponse p id then some p.body else none
    | _ => none

/-- The ids of the commands and probes sent, in order. -/
def sentIds (log : List LogEntry) : List Int :=
  log.flatMap fun
    | .sent _ id probeId => [id, probeId]
    | _ => []

@[simp] theorem responses_append (id : Int) (log log' : List LogEntry) :
    responses id (log ++ log') = responses id log ++ responses id log' := by
  simp [responses]

@[simp] theorem sentIds_append (log log' : List LogEntry) :
    sentIds (log ++ log') = sentIds log ++ sentIds log' := by
  simp [sentIds]

theorem responses_received (id : Int) (p : RconPacket) :
    responses id [.received p] = if IsResponse p id then [p.body] else [] := by
  unfold responses
  split <;> simp_all

/-- The log up to the resolution of a call: the call was sent, its probe's first echo
has just arrived, and the value is made of the responses in between. -/
def ResolvesOwn (pre : List LogEntry) (call : Nat) (value : JsString) : Prop :=
  ∃ before between id probeId echo,
    pre = before ++ .sent call id probeId :: (between ++ [.received echo]) ∧
    IsResponse echo probeId ∧ responses probeId between = [] ∧
    value = (responses id between).flatten

/-- Every resolution in the log is of that kind. -/
def AllResolveOwn (log : List LogEntry) : Prop :=
  ∀ pre post call value, log = pre ++ .resolved call value :: post → ResolvesOwn pre call value

variable {log : List LogEntry} {q : PendingCommand} {c : RconClient} {p : RconPacket}

theorem allResolveOwn_append {entry : LogEntry} (hlog : AllResolveOwn log)
    (hentry : ∀ call value, entry = .resolved call value → ResolvesOwn log call value) :
    AllResolveOwn (log ++ [entry]) := by
  intro pre post call value heq
  rcases eq_nil_or_concat post with rfl | ⟨post', last, rfl⟩
  · obtain ⟨hpre, hlast⟩ := append_inj' heq rfl
    rw [← hpre]
    exact hentry call value (singleton_inj.mp hlast)
  · have hsplit : log ++ [entry] = (pre ++ .resolved call value :: post') ++ [last] := by
      simpa using heq
    exact hlog pre post' call value (append_inj' hsplit rfl).1

/-! ## The invariant -/

/-- A pending command has collected exactly the responses to its id since it was sent,
and its probe has not been answered. -/
def Tracked (log : List LogEntry) (q : PendingCommand) : Prop :=
  ∃ before between, log = before ++ .sent q.call q.id q.probeId :: between ∧
    q.chunks = responses q.id between ∧ responses q.probeId between = []

theorem tracked_append {more : List LogEntry} (hq : Tracked log q) (hid : responses q.id more = [])
    (hprobe : responses q.probeId more = []) : Tracked (log ++ more) q := by
  obtain ⟨before, between, rfl, hchunks, hecho⟩ := hq
  refine ⟨before, between ++ more, by simp, ?_, ?_⟩
  · simp [hchunks, hid]
  · simp [hecho, hprobe]

/-- The ids a pending command listens to. -/
def PendingCommand.ids (q : PendingCommand) : List Int := [q.id, q.probeId]

structure ClientInv (c : RconClient) : Prop where
  tracked : ∀ q ∈ c.pending, Tracked c.log q
  /-- no two pending commands share an id -/
  distinct : (c.pending.flatMap PendingCommand.ids).Nodup
  bounded : ∀ i ∈ c.pending.flatMap PendingCommand.ids, i ≤ c.nextId
  /-- no id was ever sent twice -/
  fresh : (sentIds c.log).Nodup ∧ ∀ i ∈ sentIds c.log, i ≤ c.nextId
  resolved : AllResolveOwn c.log

theorem clientInv_connected (nextId : Int) : ClientInv (connected nextId) where
  tracked q hq := by simp [connected] at hq
  distinct := nodup_nil
  bounded i hi := by simp [connected] at hi
  fresh := ⟨nodup_nil, fun i hi => by simp [connected, sentIds] at hi⟩
  resolved pre post call value heq := by simp [connected] at heq

/-! ## Moves -/

theorem clientInv_sublist {pending : List PendingCommand} (hinv : ClientInv c)
    (hsub : pending.Sublist c.pending) : ClientInv { c with pending } where
  tracked q hq := hinv.tracked q (hsub.mem hq)
  distinct := (hsub.flatMap PendingCommand.ids).nodup hinv.distinct
  bounded i hi := hinv.bounded i ((hsub.flatMap PendingCommand.ids).mem hi)
  __ := hinv

/-- A promise that settles leaves the pending commands alone; a resolution must be one
the log accounts for. -/
theorem clientInv_settle {call : Nat} {entry : LogEntry} (hinv : ClientInv c)
    (hsent : sentIds [entry] = []) (hresponses : ∀ id, responses id [entry] = [])
    (hresolved : ∀ call value, entry = .resolved call value → ResolvesOwn c.log call value) :
    ClientInv (c.settle call entry) := by
  unfold settle
  split
  · exact {
      tracked := fun q hq => tracked_append (hinv.tracked q hq) (hresponses _) (hresponses _)
      distinct := hinv.distinct
      bounded := hinv.bounded
      fresh := by simpa [hsent] using hinv.fresh
      resolved := allResolveOwn_append hinv.resolved hresolved }
  · exact hinv

theorem clientInv_reject (call : Nat) (error : ExecError) (hinv : ClientInv c) :
    ClientInv (c.settle call (.rejected call error)) :=
  clientInv_settle hinv rfl (fun _ => rfl) nofun

theorem clientInv_rejectPending (error : ExecError) (hinv : ClientInv c) :
    ClientInv (c.rejectPending error) := by
  have hrejected := foldlRecOn c.pending _ hinv fun _ hc q _ => clientInv_reject q.call error hc
  exact clientInv_sublist hrejected (nil_sublist _)

theorem nodup_append_fresh {ids : List Int} {n : Int} (hids : ids.Nodup ∧ ∀ i ∈ ids, i ≤ n) :
    (ids ++ [n + 1, n + 2]).Nodup ∧ ∀ i ∈ ids ++ [n + 1, n + 2], i ≤ n + 2 := by
  constructor
  · rw [nodup_append]
    refine ⟨hids.1, by simp, fun i hi j hj heq => ?_⟩
    have hle := hids.2 i hi
    simp only [mem_cons, not_mem_nil, or_false] at hj
    omega
  · intro i hi
    simp only [mem_append, mem_cons, not_mem_nil, or_false] at hi
    rcases hi with hold | hnew
    · have hle := hids.2 i hold
      omega
    · omega

theorem clientInv_send (call : Nat) (command : JsString) (hinv : ClientInv c) : ClientInv { c with
      nextId := c.nextId + 2
      pending := c.pending ++ [⟨call, command, c.nextId + 1, c.nextId + 2, []⟩]
      log := c.log ++ [.sent call (c.nextId + 1) (c.nextId + 2)] } where
  tracked q hq := by
    rcases mem_append.mp hq with hold | hnew
    · exact tracked_append (hinv.tracked q hold) rfl rfl
    · rw [mem_singleton] at hnew
      subst hnew
      exact ⟨c.log, [], rfl, rfl, rfl⟩
  distinct := by
    rw [flatMap_append]
    exact (nodup_append_fresh ⟨hinv.distinct, hinv.bounded⟩).1
  bounded := by
    rw [flatMap_append]
    exact (nodup_append_fresh ⟨hinv.distinct, hinv.bounded⟩).2
  fresh := by
    rw [sentIds_append]
    exact nodup_append_fresh hinv.fresh
  resolved := allResolveOwn_append hinv.resolved nofun

/-- What the loop over the pending map does with a packet: the packet echoes the probe
of one command, answers one command, or concerns none of them. -/
inductive Delivered (p : RconPacket) (pending : List PendingCommand) : Prop
  | echo (before after : List PendingCommand) (q : PendingCommand)
      (hpending : pending = before ++ q :: after) (hid : p.id = q.probeId)
      (hdeliver : deliver p pending = (before ++ after, some (q.call, q.chunks.flatten)))
  | answer (before after : List PendingCommand) (q : PendingCommand)
      (hpending : pending = before ++ q :: after) (hid : p.id = q.id)
      (hdeliver : deliver p pending =
        (before ++ { q with chunks := q.chunks ++ [p.body] } :: after, none))
  | nobody (hid : ∀ q ∈ pending, p.id ∉ q.ids) (hdeliver : deliver p pending = (pending, none))

theorem deliver_cases (p : RconPacket) (pending : List PendingCommand) : Delivered p pending := by
  induction pending with
  | nil => exact .nobody (by simp) rfl
  | cons q rest ih =>
    by_cases hecho : p.id = q.probeId
    · exact .echo [] rest q rfl hecho (by simp [deliver, hecho])
    · by_cases hanswer : p.id = q.id
      · exact .answer [] rest q rfl hanswer (by
          simp only [deliver, if_neg hecho, if_pos hanswer, nil_append])
      · have hskip : deliver p (q :: rest) = (q :: (deliver p rest).1, (deliver p rest).2) := by
          simp [deliver, hecho, hanswer]
        cases ih with
        | echo before after q' hpending hid hdeliver =>
          exact .echo (q :: before) after q' (by simp [hpending]) hid
            (by rw [hskip, hdeliver]; rfl)
        | answer before after q' hpending hid hdeliver =>
          exact .answer (q :: before) after q' (by simp [hpending]) hid
            (by rw [hskip, hdeliver]; rfl)
        | nobody hid hdeliver =>
          refine .nobody (fun q' hq' => ?_) (by rw [hskip, hdeliver])
          rcases mem_cons.mp hq' with rfl | hrest
          · simp [PendingCommand.ids, hecho, hanswer]
          · exact hid q' hrest

/-- A packet that is no response to a pending command is not collected by it. -/
theorem tracked_received (hq : Tracked log q)
    (hother : p.type = SERVERDATA_RESPONSE_VALUE → p.id ∉ q.ids) :
    Tracked (log ++ [.received p]) q := by
  have hnone (i : Int) (hi : i ∈ q.ids) : responses i [.received p] = [] := by
    rw [responses_received, if_neg]
    rintro ⟨htype, rfl⟩
    exact hother htype hi
  exact tracked_append hq (hnone _ (by simp [PendingCommand.ids]))
    (hnone _ (by simp [PendingCommand.ids]))

/-- The response to a pending command becomes its next chunk. -/
theorem tracked_answer (hq : Tracked log q) (hresponse : IsResponse p q.id)
    (hne : q.id ≠ q.probeId) :
    Tracked (log ++ [.received p]) { q with chunks := q.chunks ++ [p.body] } := by
  obtain ⟨before, between, rfl, hchunks, hecho⟩ := hq
  refine ⟨before, between ++ [.received p], by simp, ?_, ?_⟩
  · rw [responses_append, responses_received, if_pos hresponse, ← hchunks]
  · rw [responses_append, responses_received, if_neg, hecho]
    · rfl
    · rintro ⟨-, hid⟩
      exact hne (hresponse.2.symm.trans hid)

section Packet

variable {c : RconClient} {p : RconPacket}

/-- After a packet the pending commands listen to ids that were listened to before, and
each of them accounts for the packet. -/
theorem clientInv_received {pending : List PendingCommand} (hinv : ClientInv c)
    (hids : (pending.flatMap PendingCommand.ids).Sublist (c.pending.flatMap PendingCommand.ids))
    (htracked : ∀ q ∈ pending, Tracked (c.log ++ [.received p]) q) :
    ClientInv { c with pending, log := c.log ++ [.received p] } where
  tracked := htracked
  distinct := hids.nodup hinv.distinct
  bounded i hi := hinv.bounded i (hids.mem hi)
  fresh := by simpa [sentIds] using hinv.fresh
  resolved := allResolveOwn_append hinv.resolved nofun

theorem clientInv_ignored (hinv : ClientInv c)
    (hother : ∀ q ∈ c.pending, p.type = SERVERDATA_RESPONSE_VALUE → p.id ∉ q.ids) :
    ClientInv { c with log := c.log ++ [.received p] } := by
  have htracked : ∀ q ∈ c.pending, Tracked (c.log ++ [.received p]) q :=
    fun q hq => tracked_received (hinv.tracked q hq) (hother q hq)
  exact clientInv_received hinv (List.Sublist.refl _) htracked

variable {before after : List PendingCommand} {q : PendingCommand}

section
variable (hinv : ClientInv c) (hpending : c.pending = before ++ q :: after)
include hinv hpending

/-- The commands beside the one a packet is for do not collect it. -/
theorem tracked_beside (hid : p.id ∈ q.ids) {q' : PendingCommand} (hq' : q' ∈ before ++ after) :
    Tracked (c.log ++ [.received p]) q' := by
  have hdistinct := hpending ▸ hinv.distinct
  rw [flatMap_append, flatMap_cons, nodup_append] at hdistinct
  obtain ⟨-, hright, hdisjoint⟩ := hdistinct
  rw [nodup_append] at hright
  have hmem : q' ∈ c.pending := by
    rw [hpending]
    exact ((sublist_cons_self q after).append_left before).mem hq'
  refine tracked_received (hinv.tracked q' hmem) fun _ hid' => ?_
  rcases mem_append.mp hq' with hbefore | hafter
  · exact hdisjoint p.id (mem_flatMap.mpr ⟨q', hbefore, hid'⟩) p.id (by simp [hid]) rfl
  · exact hright.2.2 p.id hid p.id (mem_flatMap.mpr ⟨q', hafter, hid'⟩) rfl

theorem clientInv_echo (hecho : IsResponse p q.probeId) :
    ClientInv (settle { c with pending := before ++ after, log := c.log ++ [.received p] } q.call
      (.resolved q.call q.chunks.flatten)) := by
  have hsub : (before ++ after).Sublist c.pending := by
    rw [hpending]
    exact (sublist_cons_self q after).append_left before
  have hid : p.id ∈ q.ids := by simp [PendingCommand.ids, hecho.2]
  have hinv' := clientInv_received hinv (hsub.flatMap PendingCommand.ids) fun q' hq' =>
    tracked_beside hinv hpending hid hq'
  refine clientInv_settle hinv' rfl (fun _ => rfl) fun call value heq => ?_
  cases heq
  obtain ⟨before', between, hlog, hchunks, hnone⟩ := hinv.tracked q (by simp [hpending])
  exact ⟨before', between, q.id, q.probeId, p, by simp [hlog], hecho, hnone, by rw [hchunks]⟩

theorem clientInv_answer (hresponse : IsResponse p q.id) : ClientInv { c with
      pending := before ++ { q with chunks := q.chunks ++ [p.body] } :: after
      log := c.log ++ [.received p] } := by
  have hdistinct := hpending ▸ hinv.distinct
  have hid : p.id ∈ q.ids := by simp [PendingCommand.ids, hresponse.2]
  have hne : q.id ≠ q.probeId := by
    rw [flatMap_append, flatMap_cons, nodup_append, nodup_append] at hdistinct
    simpa [PendingCommand.ids] using hdistinct.2.1.1
  have hids : (before ++ { q with chunks := q.chunks ++ [p.body] } :: after).flatMap
      PendingCommand.ids = c.pending.flatMap PendingCommand.ids := by
    simp [hpending, PendingCommand.ids]
  refine clientInv_received hinv (hids ▸ List.Sublist.refl _) fun q' hq' => ?_
  rw [mem_append, mem_cons] at hq'
  rcases hq' with hbefore | rfl | hafter
  · exact tracked_beside hinv hpending hid (mem_append_left after hbefore)
  · exact tracked_answer (hinv.tracked q (by simp [hpending])) hresponse hne
  · exact tracked_beside hinv hpending hid (mem_append_right before hafter)

end

theorem clientInv_packet (p : RconPacket) (hinv : ClientInv c) : ClientInv (c.receive p) := by
  unfold receive handlePacket
  split
  · rename_i hchat
    refine clientInv_ignored hinv fun q _ htype => ?_
    rw [hchat] at htype
    cases htype
  · split
    · rename_i hother
      exact clientInv_ignored hinv fun q _ htype => absurd htype hother
    · rename_i hresponse
      have htype : p.type = SERVERDATA_RESPONSE_VALUE := not_not.mp hresponse
      cases deliver_cases p c.pending with
      | echo before after q hpending hid hdeliver =>
        simp only [hdeliver]
        exact clientInv_echo hinv hpending ⟨htype, hid⟩
      | answer before after q hpending hid hdeliver =>
        simp only [hdeliver]
        exact clientInv_answer hinv hpending ⟨htype, hid⟩
      | nobody hid hdeliver =>
        simp only [hdeliver]
        exact clientInv_ignored hinv fun q hq _ => hid q hq

end Packet

theorem clientInv_execNow (call : Nat) (command : JsString) (hinv : ClientInv c) :
    ClientInv (c.execNow call command) := by
  have hsend := clientInv_send call command hinv
  unfold execNow
  split
  · exact clientInv_reject call _ hinv
  · split
    · exact clientInv_reject call _ hinv
    · simp only
      split
      · exact clientInv_reject call _ hsend
      · split
        · exact clientInv_reject call _ hsend
        · exact hsend

/-- The invariant does not depend on the queue, the turn or the connection. -/
theorem clientInv_of_eq {c' : RconClient} (hinv : ClientInv c) (hnext : c'.nextId = c.nextId)
    (hpending : c'.pending = c.pending) (hlog : c'.log = c.log) : ClientInv c' := by
  obtain ⟨htracked, hdistinct, hbounded, hfresh, hresolved⟩ := hinv
  constructor <;> simpa only [hnext, hpending, hlog]

theorem clientInv_close (hinv : ClientInv c) : ClientInv c.close :=
  clientInv_of_eq (clientInv_rejectPending .closed hinv) rfl rfl rfl

theorem clientInv_onData (chunk : List UInt8) (hinv : ClientInv c) :
    ClientInv (c.onData chunk) := by
  unfold onData
  split
  · exact foldlRecOn _ receive (clientInv_of_eq hinv rfl rfl rfl) fun _ hc p _ =>
      clientInv_packet p hc
  · exact clientInv_close hinv

theorem clientInv_step (event : ClientEvent) (hinv : ClientInv c) : ClientInv (c.step event) := by
  cases event with
  | exec command => exact clientInv_of_eq hinv rfl rfl rfl
  | turn =>
    simp only [step]
    split
    · exact clientInv_execNow _ _ (clientInv_of_eq hinv rfl rfl rfl)
    · exact hinv
  | data chunk =>
    simp only [step]
    split
    · exact clientInv_onData chunk hinv
    · exact hinv
  | timeout probeId =>
    simp only [step]
    split
    · exact clientInv_reject _ _ (clientInv_sublist hinv filter_sublist)
    · exact hinv
  | close => exact clientInv_close hinv
  | socketClose => exact clientInv_of_eq (clientInv_rejectPending .socketClosed hinv) rfl rfl rfl

theorem clientInv_run (events : List ClientEvent) (hinv : ClientInv c) :
    ClientInv (c.run events) := by
  induction events generalizing c with
  | nil => exact hinv
  | cons event events ih => exact ih (clientInv_step event hinv)

/-! ## The result -/

/-- However calls, received bytes, timeouts and closings interleave: no id is ever sent
twice, and every `exec` that resolves does so at the first echo of its own probe, with
the bodies of the responses to its own id received since it was sent, in order. -/
theorem exec_resolves_own_responses (nextId : Int) (events : List ClientEvent) :
    (sentIds ((connected nextId).run events).log).Nodup ∧
      AllResolveOwn ((connected nextId).run events).log := by
  have hinv := clientInv_run events (clientInv_connected nextId)
  exact ⟨hinv.fresh.1, hinv.resolved⟩

end SquadPanel.Rcon
