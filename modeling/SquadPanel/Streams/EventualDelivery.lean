import SquadPanel.Streams.NewStreams

/-!
# New streams are delivered

If the loop keeps iterating and Redis errors cease, a new stream is discovered, each iteration
moves its group past at least one more entry, and what the group has passed is handled when
the loop comes back to its head.
-/

namespace SquadPanel.Streams

open Js Lib List GroupLog
open Machine (Reaches Execution)

variable {opts : LoopOptions} {s s' : State} {event : Event} {stream : JsString} {redis : Redis}
  {now : Int}

/-! ## What steps keep -/

theorem has_step (hmove : Moves opts s event s') (hhas : s.redis.Has stream) :
    s'.redis.Has stream := by
  cases hmove with
  | xadd hadd | xtrim hget | create hpc hnew => exact hhas.setLog
  | @createFails other todo readable applied hpc =>
    cases applied with
    | false => exact hhas
    | true => exact hhas.setLog
  | processClaimed hpc | processRead hpc => exact acked_process.2 stream hhas
  | read hpc hread | readLost hpc hread => exact (Redis.xreadgroup_frame hread).2 stream hhas
  | _ => exact hhas

theorem grows_ensureConsumerGroup (redis : Redis) (other : JsString) (startId : GroupLog.StartId) :
    GroupLog.Grows (redis.log stream) ((ensureConsumerGroup redis other startId).log stream) := by
  rw [ensureConsumerGroup, Redis.log_setLog]
  split
  · next heq => exact heq ▸ grows_createGroup _ startId
  · exact .refl _

theorem grows_step (hmove : Moves opts s event s')
    (htrim : ∀ other count, event ≠ .xtrim other count) :
    GroupLog.Grows (s.redis.log stream) (s'.redis.log stream) := by
  cases hmove with
  | xadd hadd =>
    rw [Redis.log_setLog]
    split
    · next heq => exact heq ▸ grows_add hadd
    · exact .refl _
  | xtrim hget => exact absurd rfl (htrim _ _)
  | create hpc hnew => exact grows_ensureConsumerGroup _ _ _
  | @createFails other todo readable applied hpc =>
    cases applied with
    | false => exact .refl _
    | true => exact grows_ensureConsumerGroup _ _ _
  | processClaimed hpc | processRead hpc =>
    exact acked_process.rule (P := GroupLog.Grows _) (fun _ => grows_ack _ _) (.refl _)
  | read hpc hread | readLost hpc hread =>
    obtain ⟨taken, hreads, -⟩ := Redis.xreadgroup_spec hread stream
    exact hreads.grows
  | _ => exact .refl _

/-! ## A stream that is discovered -/

/-- A Redis command was answered with an error. -/
def Event.failed : Event → Bool
  | .discoveryFails => true
  | .createFails _ => true
  | .claimFails => true
  | .readFails _ _ => true
  | .process .getFails => true
  | .process (.setFails _) => true
  | .process (.ackFails _) => true
  | _ => false

/-- The current or the next discovery returns the stream, or the last one did. -/
def Seen (stream : JsString) (s : State) : Prop :=
  match s.pc with
  | .scanning known => stream ∈ known
  | _ => stream ∈ s.streams

theorem Seen.step (hseen : Seen stream s) (hhas : s.redis.Has stream)
    (haccept : opts.accept stream = true) (hfailed : event.failed = false)
    (hmove : Moves opts s event s') : Seen stream s' := by
  cases hmove with
  | xadd | xtrim => exact hseen
  | scan hpc hdue => exact hhas
  | discovered hpc hfound =>
    unfold Seen at hseen
    rw [hpc] at hseen
    exact hfound.2.1 stream hseen haccept
  | discoveryFailsFirst | discoveryFails => cases hfailed
  | _ =>
    unfold Seen at hseen ⊢
    simp_all only [State.process]

/-- The loop has not begun a discovery since `nextDiscoveryAt` was `time`, or the stream is
seen. -/
def SeenSince (stream : JsString) (time : Option Int) (s : State) : Prop :=
  Seen stream s ∨ s.nextDiscoveryAt = time ∧ ∀ known, s.pc ≠ .scanning known

theorem SeenSince.step {time : Option Int} (hseen : SeenSince stream time s)
    (hhas : s.redis.Has stream) (haccept : opts.accept stream = true)
    (hfailed : event.failed = false) (hmove : Moves opts s event s') :
    SeenSince stream time s' := by
  rcases hseen with hseen | ⟨htime, hpc⟩
  · exact .inl (hseen.step hhas haccept hfailed hmove)
  · cases hmove with
    | scan hhead hdue => exact .inl hhas
    | discovered hscan hfound => exact absurd hscan (hpc _)
    | xadd hadd | xtrim hget => exact .inr ⟨htime, hpc⟩
    | _ => exact .inr ⟨htime, nofun⟩

/-! ## One iteration -/

/-- The iteration is on its way to reading the stream. -/
def Coming (stream : JsString) : Pc → Prop
  | .scanning known => stream ∈ known
  | .ensuring todo readable => stream ∈ readable ++ todo
  | .ensured readable => stream ∈ readable
  | .reclaiming _ _ readable => stream ∈ readable
  | .reading readable => stream ∈ readable
  | _ => False

/-- The group gets past `position` in this iteration, or reaches the entry. -/
def Advances (stream : JsString) (id position : Nat) (s : State) : Prop :=
  id ≤ (s.redis.log stream).position ∨ position < (s.redis.log stream).position ∨
    position ≤ (s.redis.log stream).position ∧ Coming stream s.pc

/-- The read that comes hands out an entry. -/
theorem Coming.step (hcoming : Coming stream s.pc) (haccept : opts.accept stream = true)
    (hfailed : event.failed = false) (hmove : Moves opts s event s') :
    Coming stream s'.pc ∨ ∃ readable entries redis, s.pc = .reading readable ∧
      s.redis.xreadgroup opts.batchSize readable = some (entries, redis) ∧ s'.redis = redis := by
  cases hmove with
  | xadd hadd | xtrim hget => exact .inl hcoming
  | discovered hpc hfound =>
    rw [hpc] at hcoming
    exact .inl (hfound.2.1 stream hcoming haccept)
  | created hpc hin | ensured hpc hne | create hpc hnew =>
    rw [hpc] at hcoming
    exact .inl (by simpa [Coming] using hcoming)
  | nothingReadable hpc =>
    rw [hpc] at hcoming
    cases hcoming
  | read hpc hread => exact .inr ⟨_, _, _, hpc, hread, rfl⟩
  | reclaimed hpc | reclaim hpc | noReclaim hpc | claim hpc hclaim | processClaimed hpc =>
    exact .inl (by rw [hpc] at hcoming; exact hcoming)
  | discoveryFailsFirst | discoveryFails | createFails | claimFails | readFails | readLost
  | readFailsAll => cases hfailed
  | _ => simp_all only [Coming]

theorem Advances.step {entry : Entry} {position : Nat}
    (hadvances : Advances stream entry.id position s)
    (hentry : entry ∈ (s.redis.log stream).entries) (haccept : opts.accept stream = true)
    (hfailed : event.failed = false) (htrim : ∀ other count, event ≠ .xtrim other count)
    (hmove : Moves opts s event s') : Advances stream entry.id position s' := by
  have hgrows : (s.redis.log stream).position ≤ (s'.redis.log stream).position :=
    (grows_step hmove htrim).2
  rcases hadvances with hreached | hpast | ⟨hle, hcoming⟩
  · exact .inl (Nat.le_trans hreached hgrows)
  · exact .inr (.inl (Nat.lt_of_lt_of_le hpast hgrows))
  · rcases Nat.lt_or_ge (s.redis.log stream).position entry.id with hlt | hge
    · rcases hcoming.step haccept hfailed hmove with
        hstill | ⟨readable, entries, redis, hpc, hread, heq⟩
      · exact .inr (.inr ⟨Nat.le_trans hle hgrows, hstill⟩)
      · rw [hpc] at hcoming
        obtain ⟨-, -, -, hmoves⟩ := Redis.xreadgroup_spec hread stream
        obtain ⟨group, group', hgroup, hgroup', hmoves⟩ := hmoves hcoming
        have hmoved : (s.redis.log stream).position < (redis.log stream).position := by
          rw [position_of_group hgroup] at hlt ⊢
          rw [position_of_group hgroup']
          exact hmoves ⟨entry, hentry, hlt⟩
        rw [← heq] at hmoved
        exact .inr (.inl (Nat.lt_of_le_of_lt hle hmoved))
    · exact .inl (Nat.le_trans hge hgrows)

theorem pc_iterate (hmove : Moves opts s (.iterate now) s') : s.pc = .head := by
  cases hmove with
  | scan hpc | noScan hpc => exact hpc

/-- A discovery that is due sees every stream. -/
theorem seen_iterate (hdue : due s.nextDiscoveryAt now = true)
    (hhas : s.redis.Has stream) (hmove : Moves opts s (.iterate now) s') : Seen stream s' := by
  cases hmove with
  | scan hpc _ => exact hhas
  | noScan hpc hnot =>
    rw [hdue] at hnot
    cases hnot

/-- An iteration that begins with the stream seen is on its way to reading it. -/
theorem coming_iterate (hseen : Seen stream s) (hhas : s.redis.Has stream)
    (hmove : Moves opts s (.iterate now) s') : Coming stream s'.pc ∧ s'.redis = s.redis := by
  cases hmove with
  | scan hpc hdue => exact ⟨hhas, rfl⟩
  | noScan hpc hdue =>
    unfold Seen at hseen
    rw [hpc] at hseen
    exact ⟨hseen, rfl⟩

/-! ## Runs that go on -/

/-- The loop keeps iterating while time passes, Redis errors cease, and no entry is stranded
by an error or trimmed. -/
structure KeepsIterating (ex : Execution (step opts) Ready) : Prop where
  iterates : ∀ n time, ∃ m, n ≤ m ∧ ∃ now, time ≤ now ∧ ex.event m = .iterate now
  quiet : ∃ n, ∀ m, n ≤ m → (ex.event m).failed = false
  reaches : ∀ n, (ex.event n).strands = false
  untrimmed : ∀ n stream count, ex.event n ≠ .xtrim stream count

/-- The loop is at its head and begins an iteration with the stream seen. -/
structure Begins (ex : Execution (step opts) Ready) (stream : JsString) (n : Nat) : Prop where
  head : (ex.state n).pc = .head
  iterate : ∃ now, ex.event n = .iterate now
  seen : Seen stream (ex.state n)

section

variable {ex : Execution (step opts) Ready} {n : Nat} {m : Nat} {entry : Entry}

theorem head_of_iterate (hevent : ex.event n = .iterate now) : (ex.state n).pc = .head := by
  have hmove := moves_of_step (ex.steps n)
  rw [hevent] at hmove
  exact pc_iterate hmove

theorem has_of_le (hmn : n ≤ m) (hhas : (ex.state n).redis.Has stream) :
    (ex.state m).redis.Has stream :=
  ex.keeps (P := fun s => s.redis.Has stream) hmn hhas fun k _ hk =>
    has_step (moves_of_step (ex.steps k)) hk

theorem mem_of_le (hkeeps : KeepsIterating ex) (hmn : n ≤ m)
    (hentry : entry ∈ ((ex.state n).redis.log stream).entries) :
    entry ∈ ((ex.state m).redis.log stream).entries :=
  ex.keeps (P := fun s => entry ∈ (s.redis.log stream).entries) hmn hentry fun k _ hk =>
    (grows_step (moves_of_step (ex.steps k)) (hkeeps.untrimmed k)).1 entry hk

variable (hkeeps : KeepsIterating ex) (haccept : opts.accept stream = true)
  (hquiet : ∀ m, n ≤ m → (ex.event m).failed = false) (hhas : (ex.state n).redis.Has stream)
include hkeeps haccept hquiet hhas

/-- A stream that is seen is seen when the next iteration begins. -/
theorem exists_begins_of_seen (hmn : n ≤ m) (hseen : Seen stream (ex.state m)) :
    ∃ m', m ≤ m' ∧ Begins ex stream m' := by
  obtain ⟨m', hm', now, -, hevent⟩ := hkeeps.iterates m 0
  refine ⟨m', hm', head_of_iterate hevent, ⟨now, hevent⟩, ?_⟩
  refine ex.keeps hm' hseen fun k hk hseen => ?_
  exact hseen.step (has_of_le (Nat.le_trans hmn hk) hhas) haccept
    (hquiet k (Nat.le_trans hmn hk)) (moves_of_step (ex.steps k))

theorem exists_begins : ∃ m, n ≤ m ∧ Begins ex stream m := by
  obtain ⟨h, hnh, now, -, hhead⟩ := hkeeps.iterates n 0
  obtain ⟨m, hhm, later, hlater, hevent⟩ :=
    hkeeps.iterates h ((ex.state h).nextDiscoveryAt.getD 0)
  have hsince : SeenSince stream (ex.state h).nextDiscoveryAt (ex.state m) := by
    refine ex.keeps hhm (.inr ⟨rfl, ?_⟩) fun k hk hsince => ?_
    · rw [head_of_iterate hhead]
      exact nofun
    · exact hsince.step (has_of_le (Nat.le_trans hnh hk) hhas) haccept
        (hquiet k (Nat.le_trans hnh hk)) (moves_of_step (ex.steps k))
  have hnm : n ≤ m := Nat.le_trans hnh hhm
  rcases hsince with hseen | ⟨htime, -⟩
  · exact ⟨m, hnm, head_of_iterate hevent, ⟨later, hevent⟩, hseen⟩
  · have hmove := moves_of_step (ex.steps m)
    rw [hevent] at hmove
    have hdue : due (ex.state m).nextDiscoveryAt later = true := by
      rw [htime]
      cases htime' : (ex.state h).nextDiscoveryAt with
      | none => rfl
      | some time =>
        rw [htime'] at hlater
        exact decide_eq_true hlater
    have hseen := seen_iterate hdue (has_of_le hnm hhas) hmove
    obtain ⟨m', hm', hbegins⟩ := exists_begins_of_seen hkeeps haccept hquiet hhas
      (Nat.le_succ_of_le hnm) hseen
    exact ⟨m', by omega, hbegins⟩

/-- Each iteration moves the group on until it has passed the entry. -/
theorem exists_advanced (hmn : n ≤ m) (hbegins : Begins ex stream m)
    (hentry : entry ∈ ((ex.state n).redis.log stream).entries) :
    ∃ m', n ≤ m' ∧ Begins ex stream m' ∧
      (entry.id ≤ ((ex.state m').redis.log stream).position ∨
        ((ex.state m).redis.log stream).position < ((ex.state m').redis.log stream).position) := by
  obtain ⟨now, hevent⟩ := hbegins.iterate
  have hmove := moves_of_step (ex.steps m)
  have hseen := hbegins.seen.step (has_of_le hmn hhas) haccept (hquiet m hmn) hmove
  rw [hevent] at hmove
  obtain ⟨hcoming, hredis⟩ := coming_iterate hbegins.seen (has_of_le hmn hhas) hmove
  obtain ⟨m', hm', hbegins'⟩ := exists_begins_of_seen hkeeps haccept hquiet hhas
    (Nat.le_succ_of_le hmn) hseen
  have hadvances : Advances stream entry.id ((ex.state m).redis.log stream).position
      (ex.state m') := by
    refine ex.keeps hm' (.inr (.inr ⟨Nat.le_of_eq (by rw [hredis]), hcoming⟩))
      fun k hk hadvances => ?_
    have hnk : n ≤ k := by omega
    exact hadvances.step (mem_of_le hkeeps hnk hentry) haccept (hquiet k hnk)
      (hkeeps.untrimmed k) (moves_of_step (ex.steps k))
  refine ⟨m', by omega, hbegins', ?_⟩
  rcases hadvances with hreached | hpast | ⟨-, hcoming'⟩
  · exact .inl hreached
  · exact .inr hpast
  · rw [hbegins'.head] at hcoming'
    cases hcoming'

theorem exists_position (hentry : entry ∈ ((ex.state n).redis.log stream).entries) :
    ∃ m, n ≤ m ∧ (ex.state m).pc = .head ∧
      entry.id ≤ ((ex.state m).redis.log stream).position := by
  obtain ⟨m, hnm, hbegins⟩ := exists_begins hkeeps haccept hquiet hhas
  -- by induction on the distance to the entry
  generalize hdistance : entry.id - ((ex.state m).redis.log stream).position = distance
  induction distance using Nat.strongRecOn generalizing m with
  | ind distance ih =>
    obtain ⟨m', hnm', hbegins', hreached | hpast⟩ :=
      exists_advanced hkeeps haccept hquiet hhas hnm hbegins hentry
    · exact ⟨m', hnm', hbegins'.head, hreached⟩
    · by_cases hdone : entry.id ≤ ((ex.state m').redis.log stream).position
      · exact ⟨m', hnm', hbegins'.head, hdone⟩
      · exact ih (entry.id - ((ex.state m').redis.log stream).position) (by omega) m' hnm'
          hbegins' rfl

end

/-! ## The two halves -/

theorem Redis.log_of_not_has (hnew : ¬ redis.Has stream) : redis.log stream = .empty := by
  cases hget : redis.logs.get stream with
  | none =>
    rw [Redis.log, hget]
    rfl
  | some log => exact absurd (JsMap.mem_keys_of_get (by rw [hget]; rfl)) hnew

/-- A stream that the first discovery does not find is followed from then on. -/
theorem Undiscovered.followed {group : JsString} {found : List JsString}
    (hundiscovered : Undiscovered redis s) (hready : Ready s (.discovered found now))
    (hstep : Streams.step opts s (.discovered found now) = some s')
    (hnew : ¬ s.redis.Has stream) (hkeys : ∀ id, entryKey group stream id ∉ redis.keys) :
    Followed group stream s' := by
  have hsettling := settling_discovered hundiscovered.flag hready hstep
  cases moves_of_step hstep with
  | discovered hpc hfound =>
    refine ⟨hsettling, fun _ hin => ?_, covered_of_none ?_, fun id hkey => ?_⟩
    · exact hnew ((hready hundiscovered.flag).2 stream hin)
    · rw [Redis.log_of_not_has hnew]
      rfl
    · rw [show s.redis.keys = redis.keys from hundiscovered.keys] at hkey
      exact absurd hkey (hkeys id)

section

variable {consumer : StreamConsumerOptions} {redis : Redis}
  {ex : Execution (step (runStreamConsumer consumer)) Ready} {d : Nat} {found : List JsString}
  {now : Int}

section
variable (hstart : ex.state 0 = start redis) (hkeeps : KeepsIterating ex)
    (hkeys : ∀ stream id, ¬ redis.Has stream → entryKey consumer.group stream id ∉ redis.keys)
    (hnone : (ex.state d).nextDiscoveryAt = none) (hevent : ex.event d = .discovered found now)
include hstart hkeeps hkeys hnone hevent

theorem followed_of_lt (hnew : ¬ (ex.state d).redis.Has stream) {n : Nat} (hdn : d < n) :
    Followed consumer.group stream (ex.state n) := by
  have hreach := ex.reaches (Nat.zero_le d)
  rw [hstart] at hreach
  have hready := ex.guarded d
  have hstep := ex.steps d
  rw [hevent] at hready hstep
  have hnot : ¬ redis.Has stream := by
    intro hhas
    have hhas₀ : (ex.state 0).redis.Has stream := by
      rw [hstart]
      exact hhas
    exact hnew (has_of_le (Nat.zero_le d) hhas₀)
  have hfirst : Followed consumer.group stream (ex.state (d + 1)) :=
    (undiscovered_of_reaches hreach hnone).followed hready hstep hnew
      fun id => hkeys stream id hnot
  refine ex.keeps (Nat.succ_le_of_lt hdn) hfirst fun k _ hfollowed => ?_
  exact hfollowed.step (ex.guarded k) (hkeeps.reaches k) (moves_of_step (ex.steps k))

/-- Every entry of a stream that was not there at the first discovery is handled. -/
theorem exists_handled (haccept : consumer.accept stream = true)
    (hnew : ¬ (ex.state d).redis.Has stream) {n : Nat}
    {entry : Entry} (hentry : entry ∈ ((ex.state n).redis.log stream).entries) :
    ∃ m, (stream, entry.id) ∈ (ex.state m).handled := by
  have hhas := Redis.has_of_mem hentry
  have hdn : d < n := by
    by_contra hle
    exact hnew (has_of_le (Nat.not_lt.1 hle) hhas)
  obtain ⟨calm, hcalm⟩ := hkeeps.quiet
  have hlater := mem_of_le hkeeps (Nat.le_max_left n calm) hentry
  obtain ⟨m, hm, hhead, hposition⟩ := exists_position hkeeps haccept
    (fun k hk => hcalm k (Nat.le_trans (Nat.le_max_right n calm) hk))
    (has_of_le (Nat.le_max_left n calm) hhas) hlater
  have hfollowed := followed_of_lt hstart hkeeps hkeys hnone hevent hnew
    (Nat.lt_of_lt_of_le hdn (Nat.le_trans (Nat.le_max_left n calm) hm))
  have hin := mem_of_le hkeeps hm hlater
  refine ⟨m, ?_⟩
  cases hgroup : ((ex.state m).redis.log stream).group with
  | none =>
    have hpos := (((ex.state m).redis.log stream).bounded entry hin).1
    rw [GroupLog.position, hgroup] at hposition
    exact absurd hpos (Nat.not_lt.2 hposition)
  | some group =>
    rw [position_of_group hgroup] at hposition
    rcases hfollowed.covered group hgroup entry hin hposition with hhandled | hunprocessed
    · exact hhandled
    · rw [hhead] at hunprocessed
      cases hunprocessed

end

/-- The first discovery returns the streams that are always read, and these exist. -/
theorem has_of_always (hstart : ex.state 0 = start redis)
    (hnone : (ex.state d).nextDiscoveryAt = none) (hevent : ex.event d = .discovered found now)
    (halways : stream ∈ consumer.always) : (ex.state d).redis.Has stream := by
  have hreach := ex.reaches (Nat.zero_le d)
  rw [hstart] at hreach
  have hready := ex.guarded d
  have hmove := moves_of_step (ex.steps d)
  rw [hevent] at hready hmove
  have hfound : stream ∈ found := by
    generalize ex.state (d + 1) = next at hmove
    cases hmove with
    | discovered hpc hdiscovers => exact hdiscovers.1 stream halways
  exact (hready (undiscovered_of_reaches hreach hnone).flag).2 stream hfound

end

def sampleConsumer : StreamConsumerOptions where
  group := js "g"
  always := []
  accept _ := true
  dedupeByEntry := true
  batchSize := 50
  streamRefreshMs := 30000
  reclaimIntervalMs := 30000

def oldStream : Redis where
  logs := .ofEntries [(js "a", logOf [] [1])]
  keys := []

def firstIterations : List Event :=
  [.iterate 0, .discovered [js "a"] 0, .create, .goOn, .reclaimCheck 0 0, .claim [], .goOn, .read,
    .goOn, .xadd (js "b") 1 [], .iterate 30000, .discovered [js "a", js "b"] 30000, .goOn, .create,
    .goOn, .reclaimCheck 30000 30000, .claim [], .claim [], .goOn, .read, .process .ok, .goOn]

def twoIterations (n : Nat) : State :=
  (firstIterations.take n).foldl
    (fun s event => (step (runStreamConsumer sampleConsumer) s event).getD s) (start oldStream)

/-- Both streams are known and have their group, and nothing is unread. -/
structure Calm (s : State) : Prop where
  streams : s.streams = [js "a", js "b"]
  existing : s.redis.logs.keys = [js "a", js "b"]
  created : s.groupsCreated.has (js "a") = true ∧ s.groupsCreated.has (js "b") = true
  flag : s.initialDiscovery = false
  claims : (s.redis.log (js "a")).claim [] = some [] ∧ (s.redis.log (js "b")).claim [] = some []
  reads : s.redis.xreadgroup 50 [js "a", js "b"] = some ([], s.redis)

def stage (s : State) (discovery reclaim : Int) (pc : Pc) : State :=
  { s with nextDiscoveryAt := some discovery, nextReclaimAt := some reclaim, pc }

/-- An iteration over both streams at the time when both timers expire. -/
def idleState (s : State) (time : Int) : Nat → State
  | 0 => stage s time time .head
  | 1 => stage s time time (.scanning [js "a", js "b"])
  | 2 => stage s (time + 30000) time (.ensuring [js "a", js "b"] [])
  | 3 => stage s (time + 30000) time (.ensuring [js "b"] [js "a"])
  | 4 => stage s (time + 30000) time (.ensuring [] [js "a", js "b"])
  | 5 => stage s (time + 30000) time (.ensured [js "a", js "b"])
  | 6 => stage s (time + 30000) (time + 30000)
      (.reclaiming [] [js "a", js "b"] [js "a", js "b"])
  | 7 => stage s (time + 30000) (time + 30000) (.reclaiming [] [js "b"] [js "a", js "b"])
  | 8 => stage s (time + 30000) (time + 30000) (.reclaiming [] [] [js "a", js "b"])
  | 9 => stage s (time + 30000) (time + 30000) (.reading [js "a", js "b"])
  | 10 => stage s (time + 30000) (time + 30000) (.processing [])
  | _ => stage s (time + 30000) (time + 30000) .head

def idleEvent (time : Int) : Nat → Event
  | 0 => .iterate time
  | 1 => .discovered [js "a", js "b"] time
  | 5 => .reclaimCheck time time
  | 6 => .claim []
  | 7 => .claim []
  | 9 => .read
  | _ => .goOn

theorem due_self (time : Int) : due (some time) time = true := by
  simp [due]

variable {s : State}

theorem step_idle (hcalm : Calm s) (time : Int) {j : Nat} (hj : j < 11) :
    step (runStreamConsumer sampleConsumer) (idleState s time j) (idleEvent time j) =
      some (idleState s time (j + 1)) := by
  have hdiscovers : Discovers (runStreamConsumer sampleConsumer) [js "a", js "b"]
      s.redis.logs.keys [js "a", js "b"] := by
    rw [hcalm.existing]
    decide
  match j, hj with
  | 0, _ =>
    have hkeys := hcalm.existing
    simp [step, idleState, idleEvent, stage, due_self, hkeys]
  | 1, _ =>
    have hstreams := hcalm.streams
    simp only [step, idleState, idleEvent, stage]
    rw [if_pos hdiscovers, hstreams]
    rfl
  | 2, _ | 3, _ | 5, _ | 6, _ | 7, _ =>
    simp only [step, idleState, idleEvent, stage, hcalm.created, hcalm.claims, due_self, if_true]
    rfl
  | 4, _ | 10, _ => rfl
  | 8, _ =>
    simp only [step, idleState, idleEvent, stage]
    rw [← hcalm.flag]
  | 9, _ =>
    show (s.redis.xreadgroup 50 [js "a", js "b"]).map _ = _
    rw [hcalm.reads]
    rfl

theorem calm_twoIterations : Calm (twoIterations 22) where
  streams := by decide +kernel
  existing := by decide +kernel
  created := by decide +kernel
  flag := by decide +kernel
  claims := by decide +kernel
  reads := by rfl

theorem stage_self {discovery reclaim : Int} {pc : Pc}
    (hdiscovery : s.nextDiscoveryAt = some discovery) (hreclaim : s.nextReclaimAt = some reclaim)
    (hpc : s.pc = pc) : stage s discovery reclaim pc = s := by
  cases s
  cases hdiscovery
  cases hreclaim
  cases hpc
  rfl

/-- The second iteration ends where the others begin. -/
theorem idleState_zero : idleState (twoIterations 22) 60000 0 = twoIterations 22 := by
  have hpc : (twoIterations 22).pc = .head := by rfl
  exact stage_self (by decide +kernel) (by decide +kernel) hpc

variable (n : Nat)

def sampleTime : Int := 30000 * (((n - 22) / 11 : Nat) + 2)

def sampleState : State :=
  if n < 22 then twoIterations n else idleState (twoIterations 22) (sampleTime n) ((n - 22) % 11)

def sampleEvent : Event :=
  if n < 22 then firstIterations.getD n .goOn else idleEvent (sampleTime n) ((n - 22) % 11)

theorem twoIterations_succ {n : Nat} (hn : n < 22) :
    step (runStreamConsumer sampleConsumer) (twoIterations n) (firstIterations.getD n .goOn) =
      some (twoIterations (n + 1)) := by
  have hsome : ∀ n < 22, (step (runStreamConsumer sampleConsumer) (twoIterations n)
      (firstIterations.getD n .goOn)).isSome = true := by
    decide +kernel
  obtain ⟨next, hnext⟩ := Option.isSome_iff_exists.1 (hsome n hn)
  have htake : firstIterations.take (n + 1) =
      firstIterations.take n ++ [firstIterations.getD n .goOn] := by
    have hlength : n < firstIterations.length := hn
    rw [take_succ_eq_append_getElem hlength, getD_eq_getElem?_getD,
      getElem?_eq_getElem hlength, Option.getD_some]
  have hfirst : twoIterations (n + 1) = next := by
    unfold twoIterations at hnext ⊢
    rw [htake, foldl_append, foldl_cons, foldl_nil, hnext]
    rfl
  rw [hnext, hfirst]

theorem step_sample : step (runStreamConsumer sampleConsumer) (sampleState n) (sampleEvent n) =
      some (sampleState (n + 1)) := by
  unfold sampleState sampleEvent
  by_cases hn : n < 22
  · rw [if_pos hn, if_pos hn, twoIterations_succ hn]
    by_cases hlast : n + 1 < 22
    · rw [if_pos hlast]
    · obtain rfl : n = 21 := by omega
      exact congrArg some idleState_zero.symm
  · have hlast : ¬ n + 1 < 22 := by omega
    rw [if_neg hn, if_neg hn, if_neg hlast,
      step_idle calm_twoIterations _ (Nat.mod_lt _ (by decide))]
    by_cases hj : (n - 22) % 11 = 10
    · have hnext : (n + 1 - 22) % 11 = 0 := by omega
      have htime : sampleTime (n + 1) = sampleTime n + 30000 := by
        unfold sampleTime
        omega
      rw [hj, hnext, htime]
      rfl
    · have hnext : (n + 1 - 22) % 11 = (n - 22) % 11 + 1 := by omega
      have htime : sampleTime (n + 1) = sampleTime n := by
        unfold sampleTime
        omega
      rw [hnext, htime]

/-- Neither an error nor a trim. -/
def Event.smooth : Event → Bool
  | .xtrim _ _ => false
  | event => !event.failed && !event.strands

theorem smooth_sampleEvent : (sampleEvent n).failed = false ∧ (sampleEvent n).strands = false ∧
    ∀ stream count, sampleEvent n ≠ .xtrim stream count := by
  suffices hsmooth : (sampleEvent n).smooth = true by
    cases hevent : sampleEvent n <;> simp_all [Event.smooth]
  unfold sampleEvent
  split
  · next hn =>
    have hfirst : ∀ n < 22, (firstIterations.getD n .goOn).smooth = true := by decide +kernel
    exact hfirst n hn
  · unfold idleEvent
    split <;> rfl

instance (redis : Redis) (stream : JsString) : Decidable (redis.Has stream) :=
  inferInstanceAs (Decidable (stream ∈ redis.logs.keys))

instance (s : State) : (event : Event) → Decidable (Ready s event)
  | .discovered found _ =>
    inferInstanceAs (Decidable (s.initialDiscovery = true →
      found ≠ [] ∧ ∀ stream ∈ found, s.redis.Has stream))
  | .createFails _ => inferInstanceAs (Decidable (s.initialDiscovery = false))
  | .xadd _ _ _ | .xtrim _ _ | .stop | .iterate _ | .discoveryFails | .goOn | .create
  | .reclaimCheck _ _ | .claim _ | .claimFails | .process _ | .read | .readFails _ _ =>
    .isTrue trivial

/-- Once a stream has been read there is no condition. -/
theorem ready_of_flag (hflag : s.initialDiscovery = false) (event : Event) : Ready s event := by
  unfold Ready
  split
  · intro hset
    rw [hflag] at hset
    cases hset
  · exact hflag
  · trivial

theorem flag_idleState (s : State) (time : Int) (j : Nat) :
    (idleState s time j).initialDiscovery = s.initialDiscovery := by
  unfold idleState
  split <;> rfl

theorem ready_sample : Ready (sampleState n) (sampleEvent n) := by
  unfold sampleState sampleEvent
  split
  · next hn =>
    have hfirst : ∀ n < 22, Ready (twoIterations n) (firstIterations.getD n .goOn) := by
      decide +kernel
    exact hfirst n hn
  · apply ready_of_flag
    rw [flag_idleState, calm_twoIterations.flag]

def sampleRun : Execution (step (runStreamConsumer sampleConsumer)) Ready where
  state := sampleState
  event := sampleEvent
  guarded := ready_sample
  steps := step_sample

theorem keepsIterating_sampleRun : KeepsIterating sampleRun where
  iterates n time := by
    refine ⟨22 + 11 * (n + time.toNat), by omega, sampleTime (22 + 11 * (n + time.toNat)), ?_, ?_⟩
    · unfold sampleTime
      omega
    · show sampleEvent _ = _
      unfold sampleEvent
      rw [if_neg (by omega), show (22 + 11 * (n + time.toNat) - 22) % 11 = 0 by omega]
      rfl
  quiet := ⟨0, fun m _ => (smooth_sampleEvent m).1⟩
  reaches n := (smooth_sampleEvent n).2.1
  untrimmed n := (smooth_sampleEvent n).2.2

end SquadPanel.Streams
