import SquadPanel.Lib.LengthPrefixed
import SquadPanel.Streams.History

/-!
# Streams that appear later

A stream that is not there at the first discovery gets its group at `0`, provided that the
first discovery finds a stream and that no group creation fails in the pass after it: this
pass then ends with `initialDiscovery` cleared.  From there on every entry that the group
hands out is processed, and every iteration hands out more of what there is.
-/

namespace SquadPanel.Streams

open Js Lib List
open Machine (Reaches Execution)

variable {opts : LoopOptions} {s s' : State} {event : Event} {stream : JsString}

/-! ## The first pass -/

/-- While no stream has been read, a discovery returns some streams, all of which exist, and
no group creation fails. -/
def Ready (s : State) : Event → Prop
  | .discovered found _ =>
    s.initialDiscovery = true → found ≠ [] ∧ ∀ stream ∈ found, s.redis.Has stream
  | .createFails _ => s.initialDiscovery = false
  | _ => True

/-- The pass over all streams after the first discovery. -/
def FirstPass (streams : List JsString) : Pc → Prop
  | .ensuring todo readable => readable ++ todo = streams ∧ streams ≠ []
  | .ensured _ => True
  | .reclaiming _ _ _ => True
  | _ => False

/-- The flag is only set during the first pass. -/
def Settling (s : State) : Prop := s.initialDiscovery = true → FirstPass s.streams s.pc

/-- The streams do not change while the flag is set. -/
theorem Settling.step (hsettling : Settling s) (hready : Ready s event)
    (hmove : Moves opts s event s') :
    Settling s' ∧ (s'.initialDiscovery = true → s'.streams = s.streams) := by
  cases hmove with
  | xadd hadd | xtrim hget => exact ⟨hsettling, fun _ => rfl⟩
  | discovered hpc hfound =>
    have hnot (hflag : s.initialDiscovery = true) : False := by
      have hpass := hsettling hflag
      rw [hpc] at hpass
      exact hpass
    exact ⟨fun hflag => (hnot hflag).elim, fun hflag => (hnot hflag).elim⟩
  | created hpc hin | create hpc hnew =>
    refine ⟨fun hflag => ?_, fun _ => rfl⟩
    have hpass := hsettling hflag
    rw [hpc] at hpass
    exact ⟨by rw [append_assoc]; exact hpass.1, hpass.2⟩
  | nothingReadable hpc =>
    refine ⟨fun hflag => ?_, fun _ => rfl⟩
    have hpass := hsettling hflag
    rw [hpc] at hpass
    exact absurd hpass.1.symm hpass.2
  | createFails hpc =>
    refine ⟨fun hflag => ?_, fun _ => rfl⟩
    rw [hready] at hflag
    cases hflag
  | reclaimed hpc | noReclaim hpc => exact ⟨nofun, nofun⟩
  | ensured hpc hne | reclaim hpc | claim hpc hclaim | claimFails hpc | processClaimed hpc =>
    exact ⟨fun _ => trivial, fun _ => rfl⟩
  | _ =>
    refine ⟨fun hflag => ?_, fun _ => rfl⟩
    have hpass := hsettling hflag
    simp_all only [FirstPass]

theorem Settling.allOrNone (hsettling : Settling s) (hready : Ready s event) :
    AllOrNone s event := by
  intro hflag
  have hpass := hsettling hflag
  split
  · next hpc =>
    rw [hpc] at hpass
    exact hpass.1
  · have hready : s.initialDiscovery = false := hready
    rw [hready] at hflag
    cases hflag
  · trivial

theorem settling_discovered {found : List JsString} {now : Int}
    (hflag : s.initialDiscovery = true) (hready : Ready s (.discovered found now))
    (hstep : step opts s (.discovered found now) = some s') : Settling s' := by
  cases moves_of_step hstep with
  | discovered hpc hfound => exact fun _ => ⟨rfl, (hready hflag).1⟩

theorem settling_of_reaches {s₁ : State} (hsettling : Settling s₁)
    (hreach : Reaches (step opts) Ready s₁ s) :
    Settling s ∧ Reaches (step opts) AllOrNone s₁ s := by
  induction hreach with
  | refl => exact ⟨hsettling, .refl⟩
  | step hreach hready hstep ih =>
    exact ⟨(ih.1.step hready (moves_of_step hstep)).1, .step ih.2 (ih.1.allOrNone hready) hstep⟩

/-! ## Dedup keys -/

theorem entryIdText_inj {id id' : Nat} (heq : entryIdText id = entryIdText id') : id = id' := by
  have hdash : js "-" = [0x2D] := by decide
  unfold entryIdText at heq
  rw [hdash, append_assoc, append_assoc, singleton_append, singleton_append] at heq
  obtain ⟨hhigh, hlow⟩ := LengthPrefixed.append_stop_inj
    (not_mem_decimalText (by decide) _) (not_mem_decimalText (by decide) _) heq
  have hdiv := decimalText_injective hhigh
  have hmod := decimalText_injective hlow
  rw [← Nat.div_add_mod id (2 ^ 64), hdiv, hmod, Nat.div_add_mod]

theorem colon_not_mem_entryIdText (id : Nat) : 0x3A ∉ entryIdText id := by
  have hdash : (0x3A : UInt16) ∉ js "-" := by decide
  unfold entryIdText
  rw [mem_append, mem_append]
  rintro ((hhigh | hmid) | hlow)
  · exact not_mem_decimalText (by decide) _ hhigh
  · exact hdash hmid
  · exact not_mem_decimalText (by decide) _ hlow

/-- The id is what follows the last colon. -/
theorem entryKey_inj {group stream' : JsString} {id id' : Nat}
    (heq : entryKey group stream id = entryKey group stream' id') : stream = stream' ∧ id = id' :=
    by
  have hcolon : js ":" = [0x3A] := by decide
  have htail := congrArg List.reverse (append_cancel_left heq)
  rw [hcolon] at htail
  simp only [reverse_append, reverse_singleton, singleton_append] at htail
  have hnot (id : Nat) : 0x3A ∉ (entryIdText id).reverse := by
    rw [mem_reverse]
    exact colon_not_mem_entryIdText id
  obtain ⟨hid, hstream⟩ := LengthPrefixed.append_stop_inj (hnot id) (hnot id') htail
  exact ⟨reverse_injective hstream, entryIdText_inj (reverse_injective hid)⟩

/-! ## Entries of a new stream -/

/-- The entries that were read and are not processed yet. -/
def Pc.unprocessed : Pc → List Delivery
  | .processing entries => entries
  | _ => []

/-- An error after which an entry that was read is not processed: the answer with it is lost,
or its dedup key cannot be looked up. -/
def Event.strands : Event → Bool
  | .readFails _ applied => applied
  | .process .getFails => true
  | _ => false

/-- The entry was handled or is about to be processed. -/
def Served (stream : JsString) (s : State) (entry : Entry) : Prop :=
  (stream, entry.id) ∈ s.handled ∨ (stream, entry) ∈ s.pc.unprocessed

/-- `stream` was not there at the first discovery. -/
structure Followed (group stream : JsString) (s : State) : Prop where
  settling : Settling s
  flag : s.initialDiscovery = true → stream ∉ s.streams
  covered : GroupLog.Covered (Served stream s) (s.redis.log stream)
  keys : ∀ id, entryKey group stream id ∈ s.redis.keys → (stream, id) ∈ s.handled

theorem flag_of_step (hmove : Moves opts s event s') (hflag : s'.initialDiscovery = true) :
    s.initialDiscovery = true := by
  cases hmove with
  | reclaimed | noReclaim => cases hflag
  | _ => exact hflag

theorem handled_step (hmove : Moves opts s event s') {pair : JsString × Nat}
    (hpair : pair ∈ s.handled) : pair ∈ s'.handled := by
  cases hmove with
  | processClaimed hpc | processRead hpc => exact handled_subset_process hpair
  | _ => exact hpair

section

variable {consumer : StreamConsumerOptions} {delivery : Delivery} {outcome : Outcome}

/-- A dedup key that is set belongs to an entry that was handled. -/
theorem keys_step (hmove : Moves (runStreamConsumer consumer) s event s') {key : JsString}
    (hkey : key ∈ s'.redis.keys) :
    key ∈ s.redis.keys ∨ ∃ stream id, key = entryKey consumer.group stream id ∧
      (stream, id) ∈ s'.handled := by
  cases hmove with
  | @createFails other todo readable applied hpc =>
    cases applied <;> exact .inl hkey
  | processClaimed hpc | processRead hpc =>
    refine (mem_keys_processEntrySafely hkey).imp_right fun ⟨hdisposition, hcalled⟩ =>
      ⟨_, _, ?_, mem_handled_of_called hcalled⟩
    simp only [runStreamConsumer, Disposition.handle.injEq, Option.ite_none_right_eq_some,
      Option.some.injEq] at hdisposition
    exact hdisposition.2.symm
  | read hpc hread | readLost hpc hread => exact .inl ((Redis.xreadgroup_frame hread).1 ▸ hkey)
  | _ => exact .inl hkey

/-- The handler is called with the entry unless it was before. -/
theorem handled_process {pc : Pc} (houtcome : outcome ≠ .getFails)
    (hkeys : entryKey consumer.group delivery.1 delivery.2.id ∈ s.redis.keys →
      (delivery.1, delivery.2.id) ∈ s.handled) : (delivery.1, delivery.2.id) ∈
      (s.process (runStreamConsumer consumer) delivery outcome pc).handled := by
  have hcalled : (processEntrySafely ((runStreamConsumer consumer).disposition delivery.1
      delivery.2) delivery.1 delivery.2.id outcome s.redis).2 = true ∨
        entryKey consumer.group delivery.1 delivery.2.id ∈ s.redis.keys := by
    refine (called_or_mem_keys houtcome).imp_right ?_
    rintro ⟨key, hkey, hmem⟩
    rw [Option.ite_none_right_eq_some] at hkey
    cases hkey.2
    exact hmem
  rcases hcalled with hcalled | hset
  · exact mem_handled_of_called hcalled
  · exact handled_subset_process (hkeys hset)

/-- A new stream gets its group at `0`. -/
theorem Followed.covered_create {group other : JsString} {todo readable : List JsString}
    (hfollowed : Followed group stream s) (hpc : s.pc = .ensuring (other :: todo) readable) :
    GroupLog.Covered (Served stream s)
      ((ensureConsumerGroup s.redis other s.startId).log stream) := by
  rw [ensureConsumerGroup, Redis.log_setLog]
  split
  · next heq =>
    subst heq
    have hflag : s.initialDiscovery = false := by
      rw [Bool.eq_false_iff]
      intro hflag
      have hpass := hfollowed.settling hflag
      rw [hpc] at hpass
      exact hfollowed.flag hflag (by rw [← hpass.1]; simp)
    rw [State.startId, hflag]
    exact hfollowed.covered.createGroup_zero
  · exact hfollowed.covered

/-- Between two reads everything handed out is handled. -/
theorem covered_of_quiet {log : Log} (hcovered : GroupLog.Covered (Served stream s) log)
    (hquiet : s.pc.unprocessed = []) (hhandled : s'.handled = s.handled) :
    GroupLog.Covered (Served stream s') log := by
  refine hcovered.mono fun entry hserved => ?_
  rcases hserved with hold | hunprocessed
  · exact .inl (hhandled ▸ hold)
  · rw [hquiet] at hunprocessed
    cases hunprocessed

/-- What the group has handed out is handled or about to be processed. -/
theorem Followed.covered_step (hfollowed : Followed consumer.group stream s)
    (hstrands : event.strands = false) (hmove : Moves (runStreamConsumer consumer) s event s') :
    GroupLog.Covered (Served stream s') (s'.redis.log stream) := by
  have hcovered := hfollowed.covered
  cases hmove with
  | xadd hadd =>
    rw [Redis.log_setLog]
    split
    · next heq =>
      subst heq
      exact hcovered.add hadd
    · exact hcovered
  | xtrim hget =>
    rw [Redis.log_setLog]
    split
    · next heq =>
      subst heq hget
      exact hcovered.trim _
    · exact hcovered
  | create hpc hnew =>
    exact covered_of_quiet (hfollowed.covered_create hpc) (by rw [hpc]; rfl) rfl
  | @createFails other todo readable applied hpc =>
    cases applied with
    | false => exact covered_of_quiet hcovered (by rw [hpc]; rfl) rfl
    | true => exact covered_of_quiet (hfollowed.covered_create hpc) (by rw [hpc]; rfl) rfl
  | processClaimed hpc =>
    refine acked_process.rule (P := GroupLog.Covered _) (fun hold => hold.ack _)
      (hcovered.mono fun entry hserved => ?_)
    rcases hserved with hhandled | hunprocessed
    · exact .inl (handled_subset_process hhandled)
    · rw [hpc] at hunprocessed
      cases hunprocessed
  | @processRead delivery entries outcome hpc =>
    refine acked_process.rule (P := GroupLog.Covered _) (fun hold => hold.ack _)
      (hcovered.mono fun entry hserved => ?_)
    rcases hserved with hhandled | hunprocessed
    · exact .inl (handled_subset_process hhandled)
    · rw [hpc] at hunprocessed
      rcases mem_cons.1 hunprocessed with heq | hrest
      · left
        subst heq
        refine handled_process (fun houtcome => ?_) (hfollowed.keys entry.id)
        rw [houtcome] at hstrands
        cases hstrands
      · exact .inr hrest
  | read hpc hread =>
    obtain ⟨taken, hreads, hmem, -⟩ := Redis.xreadgroup_spec hread stream
    refine (hcovered.reads hreads).mono fun entry hserved => ?_
    rcases hserved with (hhandled | hunprocessed) | htaken
    · exact .inl hhandled
    · rw [hpc] at hunprocessed
      cases hunprocessed
    · exact .inr ((hmem entry).2 htaken)
  | readLost | readFailsAll => cases hstrands
  | _ =>
    refine covered_of_quiet hcovered ?_ rfl
    simp_all only [Pc.unprocessed]

theorem Followed.step (hfollowed : Followed consumer.group stream s) (hready : Ready s event)
    (hstrands : event.strands = false) (hmove : Moves (runStreamConsumer consumer) s event s') :
    Followed consumer.group stream s' where
  settling := (hfollowed.settling.step hready hmove).1
  flag hflag := by
    rw [(hfollowed.settling.step hready hmove).2 hflag]
    exact hfollowed.flag (flag_of_step hmove hflag)
  covered := hfollowed.covered_step hstrands hmove
  keys id hkey := by
    rcases keys_step hmove hkey with hold | ⟨other, id', heq, hhandled⟩
    · exact handled_step hmove (hfollowed.keys id hold)
    · obtain ⟨rfl, rfl⟩ := entryKey_inj heq
      exact hhandled

end

end SquadPanel.Streams
