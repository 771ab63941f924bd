import SquadPanel.Streams.LoopSteps

/-!
# History is not replayed

A group that is created at `$` never hands out what the stream held before.  While no stream
has been read, every group is created at `$`; so history stays hidden as long as no stream
misses its group in the pass after which streams are read.
-/

namespace SquadPanel.Streams

open Js Lib List Redis

/-! ## Entries before the group's position -/

/-- The entries that were read or claimed and are not processed yet. -/
def Pc.deliveries : Pc → List Delivery
  | .reclaiming claimed _ _ => claimed
  | .processing entries => entries
  | _ => []

/-- The entries of `stream` up to `bound` are skipped. -/
structure Passed (stream : JsString) (bound : Nat) (s : State) : Prop where
  log : GroupLog.Past bound (s.redis.log stream)
  deliveries : ∀ entry, (stream, entry) ∈ s.pc.deliveries → bound < entry.id
  handled : ∀ id, (stream, id) ∈ s.handled → bound < id

variable {opts : LoopOptions} {s s' : State} {event : Event} {stream : JsString} {bound : Nat}
  {redis : Redis} {other : JsString} {found : List JsString} {created : JsSet JsString}
  {guard : State → Event → Prop} {s₁ : State}

theorem past_ensureConsumerGroup (hpast : GroupLog.Past bound (redis.log stream))
    (startId : GroupLog.StartId) :
    GroupLog.Past bound ((ensureConsumerGroup redis other startId).log stream) := by
  rw [ensureConsumerGroup, log_setLog]
  split
  · next heq => exact heq ▸ hpast.createGroup startId
  · exact hpast

theorem Passed.process (hpassed : Passed stream bound s) {delivery : Delivery}
    {entries : List Delivery} (hpc : s.pc.deliveries = delivery :: entries) (outcome : Outcome)
    {pc : Pc} (hpc' : pc.deliveries = entries) :
    Passed stream bound (s.process opts delivery outcome pc) where
  log := acked_process.rule (P := GroupLog.Past bound) (fun hpast => hpast.ack _) hpassed.log
  deliveries entry hentry := by
    refine hpassed.deliveries entry ?_
    rw [hpc]
    exact mem_cons_of_mem _ (hpc' ▸ hentry)
  handled id hid := by
    rcases mem_handled_process hid with hold | heq
    · exact hpassed.handled id hold
    · obtain ⟨rfl, rfl⟩ := Prod.mk.inj heq
      refine hpassed.deliveries delivery.2 ?_
      rw [hpc]
      exact mem_cons_self

theorem Passed.step (hpassed : Passed stream bound s) (hmove : Moves opts s event s') :
    Passed stream bound s' := by
  have hquiet {pc : Pc} (hpc : pc.deliveries = []) (entry : Entry) :
      (stream, entry) ∈ pc.deliveries → bound < entry.id := by
    rw [hpc]
    exact fun hmem => absurd hmem not_mem_nil
  cases hmove with
  | xadd hadd =>
    refine ⟨?_, hpassed.deliveries, hpassed.handled⟩
    rw [log_setLog]
    split
    · next heq => exact (heq ▸ hpassed.log).of_group_eq (GroupLog.group_add hadd).1
    · exact hpassed.log
  | xtrim hget =>
    refine ⟨?_, hpassed.deliveries, hpassed.handled⟩
    rw [log_setLog]
    split
    · next heq =>
      subst heq hget
      exact hpassed.log.of_group_eq rfl
    · exact hpassed.log
  | create hpc hnew =>
    exact ⟨past_ensureConsumerGroup hpassed.log _, hquiet rfl, hpassed.handled⟩
  | @createFails other todo readable applied hpc =>
    refine ⟨?_, hquiet rfl, hpassed.handled⟩
    cases applied with
    | false => exact hpassed.log
    | true => exact past_ensureConsumerGroup hpassed.log _
  | @claim other todo readable ids claimed hpc hclaim =>
    refine ⟨hpassed.log, fun entry hentry => ?_, hpassed.handled⟩
    obtain ⟨claimedEntry, hin, heq⟩ := mem_map.1 hentry
    obtain ⟨rfl, rfl⟩ := Prod.mk.inj heq
    exact hpassed.log.claim hclaim _ hin
  | processClaimed hpc | processRead hpc => exact hpassed.process (by rw [hpc]; rfl) _ rfl
  | read hpc hread =>
    obtain ⟨taken, hreads, hmem, -⟩ := xreadgroup_spec hread stream
    obtain ⟨hpast, htaken⟩ := hpassed.log.reads hreads
    exact ⟨hpast, fun entry hentry => htaken entry ((hmem entry).1 hentry), hpassed.handled⟩
  | readLost hpc hread =>
    obtain ⟨taken, hreads, -, -⟩ := xreadgroup_spec hread stream
    exact ⟨(hpassed.log.reads hreads).1, hquiet rfl, hpassed.handled⟩
  | _ => exact ⟨hpassed.log, hquiet rfl, hpassed.handled⟩

/-! ## Before the first discovery -/

structure Undiscovered (redis : Redis) (s : State) : Prop where
  streams : s.streams = []
  created : s.groupsCreated = .empty
  flag : s.initialDiscovery = true
  handled : s.handled = []
  keys : s.redis.keys = redis.keys
  groups : ∀ stream, (s.redis.log stream).group = (redis.log stream).group
  place : s.pc = .head ∨ (∃ known, s.pc = .scanning known) ∨ s.pc = .stopped

/-- Until a discovery succeeds, the loop does nothing to the streams. -/
theorem undiscovered_step (hbefore : s.nextDiscoveryAt = none → Undiscovered redis s)
    (hmove : Moves opts s event s') : s'.nextDiscoveryAt = none → Undiscovered redis s' := by
  have hgroup {log : Log} {other : JsString} (hundiscovered : Undiscovered redis s)
      (hlog : log.group = (s.redis.log other).group) (stream : JsString) :
      ((s.redis.setLog other log).log stream).group = (redis.log stream).group := by
    rw [log_setLog]
    split
    · next heq => rw [hlog, heq, hundiscovered.groups]
    · exact hundiscovered.groups stream
  cases hmove with
  | xadd hadd =>
    intro hnone
    have hold := hbefore hnone
    exact { hold with groups := hgroup hold (GroupLog.group_add hadd).1 }
  | xtrim hget =>
    intro hnone
    have hold := hbefore hnone
    exact { hold with groups := hgroup hold (hget ▸ rfl) }
  | stop hpc =>
    intro hnone
    exact { hbefore hnone with place := .inr (.inr rfl) }
  | scan hpc hdue =>
    intro hnone
    exact { hbefore hnone with place := .inr (.inl ⟨_, rfl⟩) }
  | noScan hpc hdue =>
    intro hnone
    rw [hnone] at hdue
    cases hdue
  | discovered hpc hfound => exact nofun
  | discoveryFailsFirst hpc hnil =>
    intro hnone
    exact { hbefore hnone with place := .inl rfl }
  | discoveryFails hpc hne => exact fun hnone => absurd (hbefore hnone).streams hne
  | _ =>
    intro hnone
    have hplace := (hbefore hnone).place
    simp_all only [reduceCtorEq, exists_false, or_self]

/-! ## While no stream has been read -/

/-- While no stream has been read, group creation fails in a pass for every stream or for
none. -/
def AllOrNone (s : State) (event : Event) : Prop :=
  s.initialDiscovery = true →
    match event, s.pc with
    | .create, .ensuring todo readable => readable ++ todo = s.streams
    | .createFails _, .ensuring _ readable => readable = []
    | _, _ => True

/-- Discovery returns `stream` from now on. -/
def Wanted (opts : LoopOptions) (known : List JsString) (stream : JsString) : Prop :=
  stream ∈ opts.always ∨ stream ∈ known ∧ opts.accept stream = true

theorem Wanted.mem {known existing : List JsString} (hwanted : Wanted opts known stream)
    (hfound : Discovers opts known existing found) : stream ∈ found := by
  rcases hwanted with halways | ⟨hknown, haccept⟩
  · exact hfound.1 stream halways
  · exact hfound.2.1 stream hknown haccept

theorem Wanted.mono {known known' : List JsString} (hwanted : Wanted opts known stream)
    (hsub : stream ∈ known → stream ∈ known') : Wanted opts known' stream :=
  hwanted.imp_right fun hboth => ⟨hsub hboth.1, hboth.2⟩

/-- Where the loop can be while `stream` has no group: no stream is readable after a
failure, and otherwise `stream` is still to come. -/
def WaitingAt (opts : LoopOptions) (stream : JsString) (created : JsSet JsString) : Pc → Prop
  | .head => created = .empty
  | .scanning known => created = .empty ∧ Wanted opts known stream
  | .ensuring todo readable =>
    (∀ other ∈ created, other ∈ readable) ∧ stream ∉ readable ∧ (stream ∈ todo ∨ readable = [])
  | .stopped => True
  | _ => False

/-- `stream` was discovered, and its group is still to be created at `$`. -/
structure Waiting (opts : LoopOptions) (stream : JsString) (bound : Nat) (s : State) : Prop where
  group : (s.redis.log stream).group = none
  lastId : bound ≤ (s.redis.log stream).lastId
  handled : ∀ id, (stream, id) ∉ s.handled
  flag : s.initialDiscovery = true
  streams : stream ∈ s.streams
  wanted : Wanted opts s.redis.logs.keys stream
  created : stream ∉ s.groupsCreated
  place : WaitingAt opts stream s.groupsCreated s.pc

theorem waitingAt_ensuring {streams : List JsString}
    (hempty : created = .empty) (hstreams : stream ∈ streams) :
    WaitingAt opts stream created (.ensuring streams []) := by
  refine ⟨fun other hother => ?_, not_mem_nil, .inl hstreams⟩
  rw [hempty] at hother
  exact absurd hother (JsSet.not_mem_empty other)

section
variable (hwaiting : Waiting opts stream bound s)
include hwaiting

/-- A log is written that has no group if it is the one of `stream`. -/
theorem Waiting.setLog {log : Log}
    (hlog : other = stream → log.group = none ∧ bound ≤ log.lastId) :
    Waiting opts stream bound { s with redis := s.redis.setLog other log } := by
  have hboth : ((s.redis.setLog other log).log stream).group = none ∧
      bound ≤ ((s.redis.setLog other log).log stream).lastId := by
    rw [log_setLog]
    split
    · next heq => exact hlog heq
    · exact ⟨hwaiting.group, hwaiting.lastId⟩
  exact { hwaiting with
    group := hboth.1, lastId := hboth.2, wanted := hwaiting.wanted.mono Has.setLog }

/-- The group of `stream` is created. -/
theorem Waiting.passed_create {todo readable : List JsString} : Passed stream bound
      { s with
        redis := ensureConsumerGroup s.redis stream s.startId
        groupsCreated := created
        pc := .ensuring todo readable } where
  log := by
    rw [ensureConsumerGroup, log_setLog, if_pos rfl, State.startId, hwaiting.flag]
    exact GroupLog.past_createGroup_dollar hwaiting.group hwaiting.lastId
  deliveries := fun _ hmem => absurd hmem not_mem_nil
  handled id hid := absurd hid (hwaiting.handled id)

/-- The group of another stream is created, or not. -/
theorem Waiting.of_redis {pc : Pc} (hlog : redis.log stream = s.redis.log stream)
    (hhas : s.redis.Has stream → redis.Has stream) (hcreated : stream ∉ created)
    (hplace : WaitingAt opts stream created pc) :
    Waiting opts stream bound { s with redis, groupsCreated := created, pc } where
  group := hlog ▸ hwaiting.group
  lastId := hlog ▸ hwaiting.lastId
  __ := hwaiting
  wanted := hwaiting.wanted.mono hhas
  created := hcreated
  place := hplace

end

theorem log_ensureConsumerGroup_of_ne (hne : other ≠ stream) (startId : GroupLog.StartId) :
    (ensureConsumerGroup redis other startId).log stream = redis.log stream := by
  rw [ensureConsumerGroup, log_setLog, if_neg hne]

/-- A discovered stream keeps waiting, or its history is skipped. -/
theorem Waiting.step (hwaiting : Waiting opts stream bound s) (hguard : AllOrNone s event)
    (hmove : Moves opts s event s') : Waiting opts stream bound s' ∨ Passed stream bound s' := by
  have hplace := hwaiting.place
  cases hmove with
  | xadd hadd =>
    obtain ⟨hgroup, hlt, hlast, -⟩ := GroupLog.group_add hadd
    refine .inl (hwaiting.setLog fun heq => ?_)
    subst heq
    have hbound := hwaiting.lastId
    exact ⟨hgroup.trans hwaiting.group, by omega⟩
  | xtrim hget =>
    refine .inl (hwaiting.setLog fun heq => ?_)
    subst heq hget
    exact ⟨hwaiting.group, hwaiting.lastId⟩
  | stop hpc => exact .inl { hwaiting with place := trivial }
  | scan hpc hdue =>
    rw [hpc] at hplace
    exact .inl { hwaiting with place := ⟨hplace, hwaiting.wanted⟩ }
  | noScan hpc hdue =>
    rw [hpc] at hplace
    exact .inl { hwaiting with place := waitingAt_ensuring hplace hwaiting.streams }
  | discovered hpc hfound =>
    rw [hpc] at hplace
    have hmem := hplace.2.mem hfound
    exact .inl { hwaiting with
      streams := hmem, place := waitingAt_ensuring hplace.1 hmem }
  | discoveryFailsFirst hpc hnil =>
    rw [hpc] at hplace
    exact .inl { hwaiting with place := hplace.1 }
  | discoveryFails hpc hne =>
    rw [hpc] at hplace
    exact .inl { hwaiting with place := waitingAt_ensuring hplace.1 hwaiting.streams }
  | @created other todo readable hpc hin =>
    rw [hpc] at hplace
    obtain ⟨hcreated, hnot, htodo⟩ := hplace
    have hother := hcreated other hin
    have hne : other ≠ stream := fun heq => hnot (heq ▸ hother)
    left
    refine { hwaiting with place := ⟨fun x hx => ?_, ?_, ?_⟩ }
    · exact mem_append_left _ (hcreated x hx)
    · exact not_mem_append hnot (mt mem_singleton.1 hne.symm)
    · rcases htodo with hin' | rfl
      · exact .inl ((mem_cons.1 hin').resolve_left fun heq => hne heq.symm)
      · cases hother
  | nothingReadable hpc =>
    rw [hpc] at hplace
    refine .inl { hwaiting with place := JsSet.eq_empty_of_not_mem fun x hx => ?_ }
    exact absurd (hplace.1 x hx) not_mem_nil
  | ensured hpc hne =>
    rw [hpc] at hplace
    rcases hplace.2.2 with htodo | hnil
    · cases htodo
    · exact absurd hnil hne
  | @create other todo readable hpc hnew =>
    rw [hpc] at hplace
    obtain ⟨hcreated, hnot, -⟩ := hplace
    by_cases heq : other = stream
    · subst heq
      exact .inr hwaiting.passed_create
    · have hall : readable ++ other :: todo = s.streams := by
        have h := hguard hwaiting.flag
        rw [hpc] at h
        exact h
      have hin := hwaiting.streams
      rw [← hall, mem_append, mem_cons] at hin
      left
      refine hwaiting.of_redis (log_ensureConsumerGroup_of_ne heq _) Redis.Has.setLog ?_
        ⟨?_, ?_, ?_⟩
      · rw [JsSet.mem_add]
        rintro (hin | heq')
        · exact hwaiting.created hin
        · exact heq heq'.symm
      · intro x hx
        rw [JsSet.mem_add] at hx
        rw [mem_append, mem_singleton]
        exact hx.imp_left (hcreated x)
      · exact not_mem_append hnot (mt mem_singleton.1 (Ne.symm heq))
      · exact .inl ((hin.resolve_left hnot).resolve_left fun heq' => heq heq'.symm)
  | @createFails other todo readable applied hpc =>
    rw [hpc] at hplace
    obtain ⟨hcreated, hnot, -⟩ := hplace
    have hnil : readable = [] := by
      have h := hguard hwaiting.flag
      rw [hpc] at h
      exact h
    have hplace' : WaitingAt opts stream s.groupsCreated (.ensuring todo readable) :=
      ⟨hcreated, hnot, .inr hnil⟩
    cases applied with
    | false => exact .inl { hwaiting with place := hplace' }
    | true =>
      by_cases heq : other = stream
      · subst heq
        exact .inr hwaiting.passed_create
      · exact .inl (hwaiting.of_redis (log_ensureConsumerGroup_of_ne heq _)
          Redis.Has.setLog hwaiting.created hplace')
  | _ => simp_all only [WaitingAt]

/-! ## Whole runs -/

open Machine (Reaches)

theorem undiscovered_of_reaches (hreach : Reaches (step opts) guard (start redis) s)
    (hnone : s.nextDiscoveryAt = none) : Undiscovered redis s := by
  revert hnone
  apply Machine.invariant_of_reaches _ _ hreach
  · exact fun _ => ⟨rfl, rfl, rfl, rfl, rfl, fun _ => rfl, .inl rfl⟩
  · intro s event s' _ _ hinv hstep
    exact undiscovered_step hinv (moves_of_step hstep)

/-- A stream that the first discovery returns waits for its group. -/
theorem Undiscovered.waiting {now : Int} (hundiscovered : Undiscovered redis s)
    (hfirst : Streams.step opts s (.discovered found now) = some s') (hfound : stream ∈ found)
    (hfresh : (redis.log stream).group = none) :
    Waiting opts stream (s.redis.log stream).lastId s' := by
  cases moves_of_step hfirst with
  | discovered hpc hdiscovers =>
    exact
      { group := (hundiscovered.groups stream).trans hfresh
        lastId := Nat.le_refl _
        handled := by
          intro id hid
          rw [hundiscovered.handled] at hid
          cases hid
        flag := hundiscovered.flag
        streams := hfound
        wanted := hdiscovers.2.2 stream hfound
        created := by
          rw [hundiscovered.created]
          exact JsSet.not_mem_empty stream
        place := waitingAt_ensuring hundiscovered.created hfound }

theorem not_handled_of_waiting (hwaiting : Waiting opts stream bound s₁)
    (hreach : Reaches (step opts) AllOrNone s₁ s) {id : Nat} (hid : id ≤ bound) :
    (stream, id) ∉ s.handled := by
  have hinv : Waiting opts stream bound s ∨ Passed stream bound s := by
    apply Machine.invariant_of_reaches _ _ hreach
    · exact .inl hwaiting
    · rintro s event s' - hguard (hwaiting | hpassed) hstep
      · exact hwaiting.step hguard (moves_of_step hstep)
      · exact .inr (hpassed.step (moves_of_step hstep))
  intro hmem
  rcases hinv with hwaiting | hpassed
  · exact hwaiting.handled id hmem
  · exact absurd (hpassed.handled id hmem) (Nat.not_lt.2 hid)

theorem passed_of_reaches (hpassed : Passed stream bound s₁)
    (hreach : Reaches (step opts) guard s₁ s) : Passed stream bound s := by
  apply Machine.invariant_of_reaches hpassed _ hreach
  intro s event s' _ _ hpassed hstep
  exact hpassed.step (moves_of_step hstep)

/-- What a stream holds at the first discovery is never handled. -/
theorem history_not_handled {s₀ : State} {now : Int}
    (hbefore : Reaches (step opts) guard (start redis) s₀) (hnone : s₀.nextDiscoveryAt = none)
    (hfirst : step opts s₀ (.discovered found now) = some s₁)
    (hafter : Reaches (step opts) AllOrNone s₁ s) (hfound : stream ∈ found)
    (hfresh : (redis.log stream).group = none) {entry : Entry}
    (hentry : entry ∈ (s₀.redis.log stream).entries) : (stream, entry.id) ∉ s.handled := by
  have hwaiting := (undiscovered_of_reaches hbefore hnone).waiting hfirst hfound hfresh
  exact not_handled_of_waiting hwaiting hafter ((s₀.redis.log stream).bounded entry hentry).2

/-! ## The dispatch loop -/

instance (s : State) (event : Event) : Decidable (AllOrNone s event) := by
  unfold AllOrNone
  cases event <;> cases s.pc <;> infer_instance

/-- Started with a fresh group, the dispatch loop never dispatches what a stream held when
the streams were first discovered. -/
theorem dispatchLoop_skips_history (opts : DispatchOptions) (redis : Redis) (s₀ s₁ s : State)
    (found : List JsString) (now : Int) (hfresh : ∀ stream, (redis.log stream).group = none)
    (hbefore : Reaches (step (runDispatchLoop opts)) AllOrNone (start redis) s₀)
    (hnone : s₀.nextDiscoveryAt = none)
    (hfirst : step (runDispatchLoop opts) s₀ (.discovered found now) = some s₁)
    (hafter : Reaches (step (runDispatchLoop opts)) AllOrNone s₁ s) :
    ∀ stream ∈ found, ∀ entry ∈ (s₀.redis.log stream).entries,
      (stream, entry.id) ∉ s.handled := by
  intro stream hfound entry hentry
  exact history_not_handled hbefore hnone hfirst hafter hfound (hfresh stream) hentry

/-- A log with the given entries, all of the same fields. -/
def logOf (fields : List JsString) (ids : List Nat) : Log :=
  ids.foldl (fun log id => (log.add id fields).getD log) .empty

/-- One server stream with an entry in it. -/
def playedServer : Redis where
  logs := .ofEntries [(js "events:server:1", logOf [js "envelope", js "a"] [1])]
  keys := []

def sampleDispatch : DispatchOptions where
  group := js "automation-dispatch:v1"
  decode raw := some raw
  batchSize := 50
  streamRefreshMs := 30000
  reclaimIntervalMs := 30000

theorem playedServer_fresh (stream : JsString) : (playedServer.log stream).group = none := by
  by_cases hstream : stream = js "events:server:1"
  · subst hstream
    decide +kernel
  · have hget : playedServer.logs.get stream = none := by
      apply JsMap.getEntry_eq_none
      have hkeys : playedServer.logs.entries.map Prod.fst = [js "events:server:1"] := by
        decide +kernel
      rw [hkeys, mem_singleton]
      exact hstream
    rw [Redis.log, hget]
    rfl

/-- Both creations of the first pass fail, both of the second succeed, and an entry is added. -/
def firstPassFails : List Event :=
  [.createFails false, .createFails false, .goOn, .iterate 1000, .create, .create, .goOn,
    .reclaimCheck 1000 1000, .claim [], .claim [], .goOn,
    .xadd (js "events:server:1") 2 [js "envelope", js "b"], .read, .process .ok]

theorem dispatchLoop_skips_history_sample :
    ((Machine.run (step (runDispatchLoop sampleDispatch)) AllOrNone (start playedServer)
        [.iterate 0]).bind fun s₀ =>
      (step (runDispatchLoop sampleDispatch) s₀
        (.discovered [js "events:global", js "events:server:1"] 0)).bind fun s₁ =>
      (Machine.run (step (runDispatchLoop sampleDispatch)) AllOrNone s₁ firstPassFails).map
        State.handled) = some [(js "events:server:1", 2)] ∧
      ∀ s₀ s₁ s,
        Machine.run (step (runDispatchLoop sampleDispatch)) AllOrNone (start playedServer)
          [.iterate 0] = some s₀ →
        step (runDispatchLoop sampleDispatch) s₀
          (.discovered [js "events:global", js "events:server:1"] 0) = some s₁ →
        Machine.run (step (runDispatchLoop sampleDispatch)) AllOrNone s₁ firstPassFails =
          some s →
        (js "events:server:1", 1) ∉ s.handled := by
  refine ⟨by decide +kernel, fun s₀ s₁ s hbefore hfirst hafter => ?_⟩
  have hnone : s₀.nextDiscoveryAt = none := by
    cases hbefore
    rfl
  have hentry : (⟨1, [js "envelope", js "a"]⟩ : Entry) ∈
      (s₀.redis.log (js "events:server:1")).entries := by
    cases hbefore
    decide +kernel
  exact dispatchLoop_skips_history sampleDispatch playedServer s₀ s₁ s _ 0 playedServer_fresh
    (Machine.reaches_of_run .refl hbefore) hnone hfirst (Machine.reaches_of_run .refl hafter)
    _ (by decide) _ hentry

/-- The group of the server stream is not created in the first pass.  In the second pass it is
created at `0`, and the entry that was there before is dispatched. -/
theorem dispatchLoop_replays_history : ((playedServer.log (js "events:server:1")).group = none ∧
      (playedServer.log (js "events:server:1")).entries.map LogEntry.id = [1]) ∧
      (Machine.run (step (runDispatchLoop sampleDispatch)) (fun _ _ => True) (start playedServer)
        [.iterate 0, .discovered [js "events:global", js "events:server:1"] 0, .create,
          .createFails false, .goOn, .reclaimCheck 0 0, .claim [], .goOn, .read, .goOn,
          .iterate 1000, .goOn, .create, .goOn, .reclaimCheck 1000 1000, .read,
          .process .ok]).map State.handled = some [(js "events:server:1", 1)] := by
  decide +kernel

end SquadPanel.Streams
