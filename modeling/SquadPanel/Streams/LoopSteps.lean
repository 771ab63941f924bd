import SquadPanel.Lib.Machine
import SquadPanel.Streams.Loop

/-!
# What one step of a reader does
-/

namespace SquadPanel.Streams

open Js Lib List Option

/-! ## Streams and keys -/

namespace Redis

variable {redis redis' : Redis} {stream other : JsString} {log : Log} {streams : List JsString}
  {entries : List Delivery}

@[simp] theorem log_setLog :
    (redis.setLog stream log).log other = if stream = other then log else redis.log other := by
  unfold Redis.log setLog
  rw [JsMap.get_set]
  split <;> rfl

/-- The stream exists. -/
def Has (redis : Redis) (stream : JsString) : Prop := stream ∈ redis.logs.keys

theorem Has.setLog (hhas : redis.Has other) : (redis.setLog stream log).Has other := by
  unfold Has Redis.setLog JsMap.keys JsMap.set at *
  rw [JsMap.keys_setEntry]
  split
  · exact hhas
  · exact mem_append_left _ hhas

theorem has_of_mem {entry : Entry} (hentry : entry ∈ (redis.log stream).entries) :
    redis.Has stream := by
  unfold Redis.log at hentry
  cases hget : redis.logs.get stream with
  | none =>
    rw [hget] at hentry
    cases hentry
  | some log => exact JsMap.mem_keys_of_get (by rw [hget]; rfl)

theorem log_of_get (hget : redis.logs.get stream = some log) : redis.log stream = log := by
  rw [Redis.log, hget]
  rfl

/-- What a read hands out of each stream, and that it hands out something of a stream it
reads. -/
theorem xreadgroup_spec {count : Nat}
    (hread : redis.xreadgroup count streams = some (entries, redis')) (stream : JsString) :
    ∃ taken, GroupLog.Reads (redis.log stream) taken (redis'.log stream) ∧
      (∀ entry, (stream, entry) ∈ entries ↔ entry ∈ taken) ∧
      (stream ∈ streams → ∃ group group', (redis.log stream).group = some group ∧
        (redis'.log stream).group = some group' ∧
        ((∃ entry ∈ (redis.log stream).entries, group.lastDelivered < entry.id) →
          group.lastDelivered < group'.lastDelivered)) := by
  induction streams generalizing redis entries with
  | nil =>
    cases hread
    exact ⟨[], .refl _, by simp, by simp⟩
  | cons first streams ih =>
    simp only [xreadgroup, Option.bind_eq_bind, Option.bind_eq_some_iff, Option.pure_def,
      some.injEq, Prod.mk.injEq, Prod.exists] at hread
    obtain ⟨now, log, hnew, later, redis₂, hlater, rfl, rfl⟩ := hread
    obtain ⟨hreads, group, group', hgroup, hgroup', hmoves⟩ := GroupLog.readNew_spec hnew
    obtain ⟨taken, hrest, hmem, hlast⟩ := ih hlater
    rw [log_setLog] at hrest hlast
    by_cases hfirst : first = stream
    · subst hfirst
      rw [if_pos rfl] at hrest hlast
      refine ⟨now ++ taken, hreads.trans hrest, fun entry => ?_, fun _ => ?_⟩
      · rw [mem_append, mem_append, hmem]
        simp
      · obtain ⟨group₂, hgroup₂, hle, -⟩ := hrest.group group' hgroup'
        exact ⟨group, group₂, hgroup, hgroup₂, fun hunread =>
          Nat.lt_of_lt_of_le (hmoves hunread) hle⟩
    · rw [if_neg hfirst] at hrest hlast
      refine ⟨taken, hrest, fun entry => ?_, fun hin => ?_⟩
      · rw [mem_append, hmem]
        simp [hfirst]
      · exact hlast ((mem_cons.1 hin).resolve_left fun heq => hfirst heq.symm)

theorem xreadgroup_frame {count : Nat}
    (hread : redis.xreadgroup count streams = some (entries, redis')) :
    redis'.keys = redis.keys ∧ ∀ stream, redis.Has stream → redis'.Has stream := by
  induction streams generalizing redis entries with
  | nil =>
    cases hread
    exact ⟨rfl, fun _ hhas => hhas⟩
  | cons first streams ih =>
    simp only [xreadgroup, Option.bind_eq_bind, Option.bind_eq_some_iff, Option.pure_def,
      some.injEq, Prod.mk.injEq, Prod.exists] at hread
    obtain ⟨now, log, -, later, redis₂, hlater, rfl, rfl⟩ := hread
    obtain ⟨hkeys, hhas⟩ := ih hlater
    exact ⟨hkeys, fun stream hold => hhas stream hold.setLog⟩

end Redis

/-! ## Processing -/

section

variable {redis : Redis} {stream other : JsString} {id : Nat} {outcome : Outcome}
  {disposition : Disposition} {key : JsString} {dedupKey : Option JsString}

/-- The log of `other` after an entry of `stream` was processed. -/
def Acked (stream : JsString) (id : Nat) (redis redis' : Redis) : Prop :=
  (∀ other, redis'.log other = redis.log other ∨
    other = stream ∧ redis'.log other = (redis.log other).ack id) ∧
    ∀ other, redis.Has other → redis'.Has other

theorem Acked.rule {P : Log → Prop} {redis' : Redis} {other : JsString}
    (hacked : Acked stream id redis redis')
    (hack : P (redis.log other) → P ((redis.log other).ack id)) (hlog : P (redis.log other)) :
    P (redis'.log other) := by
  rcases hacked.1 other with heq | ⟨-, heq⟩
  · exact heq ▸ hlog
  · exact heq ▸ hack hlog

theorem acked_refl : Acked stream id redis redis := ⟨fun _ => Or.inl rfl, fun _ hhas => hhas⟩

theorem acked_setKey : Acked stream id redis (redis.setKey key) :=
  ⟨fun _ => .inl rfl, fun _ hhas => hhas⟩

theorem acked_ackEntry : Acked stream id redis (ackEntry stream id outcome redis) := by
  unfold ackEntry
  split
  · exact acked_refl
  · refine ⟨fun other => ?_, fun other hhas => hhas.setLog⟩
    unfold Redis.xack
    rw [Redis.log_setLog]
    split
    · next heq => exact .inr ⟨heq.symm, by rw [heq]⟩
    · exact .inl rfl

@[simp] theorem keys_ackEntry : (ackEntry stream id outcome redis).keys = redis.keys := by
  unfold ackEntry
  split <;> rfl

theorem acked_finishEntry :
    Acked stream id redis (finishEntry stream id outcome redis dedupKey) := by
  unfold finishEntry
  split
  · exact acked_ackEntry
  · next key =>
    split
    · exact acked_setKey
    · exact acked_refl
    · have hacked : Acked stream id (redis.setKey key)
          (ackEntry stream id outcome (redis.setKey key)) := acked_ackEntry
      exact hacked

theorem acked_processEntrySafely :
    Acked stream id redis (processEntrySafely disposition stream id outcome redis).1 := by
  unfold processEntrySafely
  split
  · exact acked_ackEntry
  · split
    · exact acked_refl
    · split
      · exact acked_ackEntry
      · split
        · exact acked_refl
        · exact acked_finishEntry

theorem mem_keys_finishEntry (hkey : key ∈ (finishEntry stream id outcome redis dedupKey).keys) :
    key ∈ redis.keys ∨ dedupKey = some key := by
  unfold finishEntry at hkey
  split at hkey
  · exact .inl (by simpa using hkey)
  · split at hkey
    · exact (mem_cons.1 hkey).symm.imp_right fun heq => by rw [heq]
    · exact .inl hkey
    · rw [keys_ackEntry] at hkey
      exact (mem_cons.1 hkey).symm.imp_right fun heq => by rw [heq]

/-- A key is only set after the handler was called. -/
theorem mem_keys_processEntrySafely
    (hkey : key ∈ (processEntrySafely disposition stream id outcome redis).1.keys) :
    key ∈ redis.keys ∨ disposition = .handle (some key) ∧
      (processEntrySafely disposition stream id outcome redis).2 = true := by
  unfold processEntrySafely at hkey ⊢
  split at hkey
  · exact .inl (by simpa using hkey)
  · next dedupKey =>
    by_cases hget : (dedupKey.isSome && decide (outcome = .getFails)) = true
    · rw [if_pos hget] at hkey
      exact .inl hkey
    · by_cases hset : dedupKey.any (· ∈ redis.keys) = true
      · rw [if_neg hget, if_pos hset] at hkey
        exact .inl (by simpa using hkey)
      · by_cases hhandle : outcome = .handleFails
        · rw [if_neg hget, if_neg hset, if_pos hhandle] at hkey
          exact .inl hkey
        · rw [if_neg hget, if_neg hset, if_neg hhandle] at hkey ⊢
          exact (mem_keys_finishEntry hkey).imp_right fun heq => ⟨by rw [heq], rfl⟩

/-- Unless the dedup lookup fails, the handler is called or the key is set already. -/
theorem called_or_mem_keys (houtcome : outcome ≠ .getFails) :
    (processEntrySafely (.handle dedupKey) stream id outcome redis).2 = true ∨
      ∃ key, dedupKey = some key ∧ key ∈ redis.keys := by
  unfold processEntrySafely
  simp only [houtcome, decide_false, Bool.and_false, Bool.false_eq_true, if_false]
  split
  · next hset =>
    obtain ⟨key, hkey, hmem⟩ := (any_eq_true _ _).1 hset
    exact .inr ⟨key, hkey, by simpa using hmem⟩
  · left
    split <;> rfl

end

section

variable {opts : LoopOptions} {s : State} {delivery : Delivery} {outcome : Outcome} {pc : Pc}
  {pair : JsString × Nat}

theorem acked_process :
    Acked delivery.1 delivery.2.id s.redis (s.process opts delivery outcome pc).redis :=
  acked_processEntrySafely

theorem handled_subset_process (hpair : pair ∈ s.handled) :
    pair ∈ (s.process opts delivery outcome pc).handled := by
  simp only [State.process]
  split
  · exact mem_append_left _ hpair
  · exact hpair

theorem mem_handled_of_called
    (hcalled : (processEntrySafely (opts.disposition delivery.1 delivery.2) delivery.1
      delivery.2.id outcome s.redis).2 = true) :
    (delivery.1, delivery.2.id) ∈ (s.process opts delivery outcome pc).handled := by
  simp only [State.process, hcalled, if_true]
  exact mem_append_right _ (mem_singleton.2 rfl)

theorem mem_handled_process (hpair : pair ∈ (s.process opts delivery outcome pc).handled) :
    pair ∈ s.handled ∨ pair = (delivery.1, delivery.2.id) := by
  simp only [State.process] at hpair
  split at hpair
  · exact (mem_append.1 hpair).imp_right mem_singleton.1
  · exact .inl hpair

end

/-! ## Steps by the place they are taken at -/

/-- The branches of `step`. -/
inductive Moves (opts : LoopOptions) (s : State) : Event → State → Prop
  | xadd {stream id fields log} : (s.redis.log stream).add id fields = some log →
      Moves opts s (.xadd stream id fields) { s with redis := s.redis.setLog stream log }
  | xtrim {stream count log} : s.redis.log stream = log →
      Moves opts s (.xtrim stream count)
        { s with redis := s.redis.setLog stream (log.trim count) }
  | stop : s.pc = .head → Moves opts s .stop { s with pc := .stopped }
  | scan {now} : s.pc = .head → due s.nextDiscoveryAt now = true →
      Moves opts s (.iterate now) { s with pc := .scanning s.redis.logs.keys }
  | noScan {now} : s.pc = .head → due s.nextDiscoveryAt now = false →
      Moves opts s (.iterate now) { s with pc := .ensuring s.streams [] }
  | discovered {known found now} : s.pc = .scanning known →
      Discovers opts known s.redis.logs.keys found →
      Moves opts s (.discovered found now)
        { s with
          streams := found
          nextDiscoveryAt := some (now + opts.streamRefreshMs)
          pc := .ensuring found [] }
  | discoveryFailsFirst {known} : s.pc = .scanning known → s.streams = [] →
      Moves opts s .discoveryFails { s with pc := .head }
  | discoveryFails {known} : s.pc = .scanning known → s.streams ≠ [] →
      Moves opts s .discoveryFails { s with pc := .ensuring s.streams [] }
  | created {stream todo readable} : s.pc = .ensuring (stream :: todo) readable →
      stream ∈ s.groupsCreated →
      Moves opts s .goOn { s with pc := .ensuring todo (readable ++ [stream]) }
  | nothingReadable : s.pc = .ensuring [] [] → Moves opts s .goOn { s with pc := .head }
  | ensured {readable} : s.pc = .ensuring [] readable → readable ≠ [] →
      Moves opts s .goOn { s with pc := .ensured readable }
  | reclaimed {readable} : s.pc = .reclaiming [] [] readable →
      Moves opts s .goOn { s with initialDiscovery := false, pc := .reading readable }
  | processed : s.pc = .processing [] → Moves opts s .goOn { s with pc := .head }
  | create {stream todo readable} : s.pc = .ensuring (stream :: todo) readable →
      stream ∉ s.groupsCreated →
      Moves opts s .create
        { s with
          redis := ensureConsumerGroup s.redis stream s.startId
          groupsCreated := s.groupsCreated.add stream
          pc := .ensuring todo (readable ++ [stream]) }
  | createFails {stream todo readable applied} : s.pc = .ensuring (stream :: todo) readable →
      Moves opts s (.createFails applied)
        { s with
          redis := if applied then ensureConsumerGroup s.redis stream s.startId else s.redis
          pc := .ensuring todo readable }
  | reclaim {readable now again} : s.pc = .ensured readable →
      Moves opts s (.reclaimCheck now again)
        { s with
          nextReclaimAt := some (again + opts.reclaimIntervalMs)
          pc := .reclaiming [] readable readable }
  | noReclaim {readable now again} : s.pc = .ensured readable →
      Moves opts s (.reclaimCheck now again)
        { s with initialDiscovery := false, pc := .reading readable }
  | claim {stream todo readable ids claimed} : s.pc = .reclaiming [] (stream :: todo) readable →
      (s.redis.log stream).claim ids = some claimed →
      Moves opts s (.claim ids)
        { s with pc := .reclaiming (claimed.map fun entry => (stream, entry)) todo readable }
  | claimFails {stream todo readable} : s.pc = .reclaiming [] (stream :: todo) readable →
      Moves opts s .claimFails { s with pc := .reclaiming [] todo readable }
  | processClaimed {delivery claimed todo readable outcome} :
      s.pc = .reclaiming (delivery :: claimed) todo readable →
      Moves opts s (.process outcome)
        (s.process opts delivery outcome (.reclaiming claimed todo readable))
  | processRead {delivery entries outcome} : s.pc = .processing (delivery :: entries) →
      Moves opts s (.process outcome) (s.process opts delivery outcome (.processing entries))
  | read {readable entries redis} : s.pc = .reading readable →
      s.redis.xreadgroup opts.batchSize readable = some (entries, redis) →
      Moves opts s .read { s with redis := redis, pc := .processing entries }
  | readFails {readable noGroup groupsCreated} : s.pc = .reading readable →
      Moves opts s (.readFails noGroup false) { s with groupsCreated, pc := .head }
  | readLost {readable noGroup groupsCreated entries redis} : s.pc = .reading readable →
      s.redis.xreadgroup opts.batchSize readable = some (entries, redis) →
      Moves opts s (.readFails noGroup true) { s with redis, groupsCreated, pc := .head }
  | readFailsAll {readable noGroup groupsCreated} : s.pc = .reading readable →
      Moves opts s (.readFails noGroup true) { s with groupsCreated, pc := .head }

theorem moves_of_step {opts : LoopOptions} {s s' : State} {event : Event}
    (hstep : step opts s event = some s') : Moves opts s event s' := by
  cases event with simp only [step] at hstep
  | xadd stream id fields =>
    obtain ⟨log, hadd, rfl⟩ := map_eq_some_iff.1 hstep
    exact .xadd hadd
  | xtrim stream count =>
    obtain ⟨log, hget, rfl⟩ := map_eq_some_iff.1 hstep
    exact .xtrim (Redis.log_of_get hget)
  | stop =>
    split at hstep
    · next hpc =>
      cases hstep
      exact .stop hpc
    · cases hstep
  | iterate now =>
    split at hstep
    · next hpc =>
      split at hstep
      · next hdue =>
        cases hstep
        exact .scan hpc hdue
      · next hdue =>
        cases hstep
        exact .noScan hpc (Bool.eq_false_iff.2 hdue)
    · cases hstep
  | discovered found now =>
    split at hstep
    · next hpc =>
      split at hstep
      · next hfound =>
        cases hstep
        exact .discovered hpc hfound
      · cases hstep
    · cases hstep
  | discoveryFails =>
    split at hstep
    · next hpc =>
      split at hstep
      · next hnil =>
        cases hstep
        exact .discoveryFailsFirst hpc hnil
      · next hne =>
        cases hstep
        exact .discoveryFails hpc hne
    · cases hstep
  | goOn =>
    split at hstep
    · next hpc =>
      split at hstep
      · next hhas =>
        cases hstep
        exact .created hpc (JsSet.has_eq_true.1 hhas)
      · cases hstep
    · next hpc =>
      split at hstep
      · next hnil =>
        cases hstep
        exact .nothingReadable (hnil ▸ hpc)
      · next hne =>
        cases hstep
        exact .ensured hpc hne
    · next hpc =>
      cases hstep
      exact .reclaimed hpc
    · next hpc =>
      cases hstep
      exact .processed hpc
    · cases hstep
  | create =>
    split at hstep
    · next hpc =>
      split at hstep
      · cases hstep
      · next hhas =>
        cases hstep
        exact .create hpc fun hmem => hhas (JsSet.has_eq_true.2 hmem)
    · cases hstep
  | createFails applied =>
    split at hstep
    · next hpc =>
      split at hstep
      · cases hstep
      · cases hstep
        exact .createFails hpc
    · cases hstep
  | reclaimCheck now again =>
    split at hstep
    · next hpc =>
      split at hstep
      · cases hstep
        exact .reclaim hpc
      · cases hstep
        exact .noReclaim hpc
    · cases hstep
  | claim ids =>
    split at hstep
    · next hpc =>
      obtain ⟨claimed, hclaim, rfl⟩ := map_eq_some_iff.1 hstep
      exact .claim hpc hclaim
    · cases hstep
  | claimFails =>
    split at hstep
    · next hpc =>
      cases hstep
      exact .claimFails hpc
    · cases hstep
  | process outcome =>
    split at hstep
    · next hpc =>
      cases hstep
      exact .processClaimed hpc
    · next hpc =>
      cases hstep
      exact .processRead hpc
    · cases hstep
  | read =>
    split at hstep
    · next hpc =>
      obtain ⟨⟨entries, redis⟩, hread, rfl⟩ := map_eq_some_iff.1 hstep
      exact .read hpc hread
    · cases hstep
  | readFails noGroup applied =>
    split at hstep
    · next readable hpc =>
      cases hstep
      cases applied with
      | false => exact .readFails hpc
      | true =>
        cases hread : s.redis.xreadgroup opts.batchSize readable with
        | none => exact .readFailsAll hpc
        | some answer => exact .readLost hpc hread
    · cases hstep

end SquadPanel.Streams
