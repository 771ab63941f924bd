import Mathlib.Data.List.Pairwise

/-!
# Logs read by a consumer group

A log keeps its entries in the order of their ids.  A consumer group remembers the id up to
which the entries have been handed out, and which of these are not acknowledged yet.
-/

namespace SquadPanel.Lib

open List

structure LogEntry (F : Type) where
  id : Nat
  fields : F
deriving DecidableEq

structure ConsumerGroup where
  lastDelivered : Nat
  pending : List Nat
deriving DecidableEq

structure GroupLog (F : Type) where
  entries : List (LogEntry F)
  /-- The id of the last entry ever added. -/
  lastId : Nat
  group : Option ConsumerGroup
  sorted : entries.Pairwise fun a b => a.id < b.id
  bounded : ∀ entry ∈ entries, 0 < entry.id ∧ entry.id ≤ lastId
  reached : ∀ g, group = some g → g.lastDelivered ≤ lastId

namespace GroupLog

variable {F : Type} {count : Nat} {taken : List (LogEntry F)}

def empty : GroupLog F := ⟨[], 0, none, List.Pairwise.nil, by simp, by simp⟩

variable (log : GroupLog F)

/-- A new entry has a larger id than every earlier one. -/
def add (id : Nat) (fields : F) : Option (GroupLog F) :=
  if hid : log.lastId < id then
    some
      { entries := log.entries ++ [⟨id, fields⟩]
        lastId := id
        group := log.group
        sorted := by
          refine pairwise_append.2 ⟨log.sorted, pairwise_singleton _ _, ?_⟩
          intro entry hentry new hnew
          rw [mem_singleton.1 hnew]
          exact Nat.lt_of_le_of_lt (log.bounded entry hentry).2 hid
        bounded := by
          intro entry hentry
          rcases mem_append.1 hentry with hold | hnew
          · have hbounded := log.bounded entry hold
            omega
          · rw [mem_singleton.1 hnew]
            exact ⟨Nat.zero_lt_of_lt hid, Nat.le_refl id⟩
        reached := fun g hg => Nat.le_trans (log.reached g hg) (Nat.le_of_lt hid) }
  else none

/-- Removes the oldest entries. -/
def trim (count : Nat) : GroupLog F where
  entries := log.entries.drop count
  lastId := log.lastId
  group := log.group
  sorted := log.sorted.sublist (drop_sublist count log.entries)
  bounded entry hentry := log.bounded entry (mem_of_mem_drop hentry)
  reached := log.reached

def withGroup (group : ConsumerGroup)
    (hreached : group.lastDelivered ≤ log.lastId) : GroupLog F :=
  { log with group := some group, reached := by rintro g ⟨⟩; exact hreached }

/-- Where a new group starts: `0` hands out every entry, `$` only later ones. -/
inductive StartId
  | zero
  | dollar
deriving DecidableEq

section
variable (log : GroupLog F)

def StartId.position : StartId → Nat
  | .zero => 0
  | .dollar => log.lastId

theorem StartId.position_le (start : StartId) : start.position log ≤ log.lastId := by
  cases start with
  | zero => exact Nat.zero_le _
  | dollar => exact Nat.le_refl _

/-- Creates the group; one that exists is left as it is. -/
def createGroup (start : StartId) : GroupLog F :=
  match log.group with
  | some _ => log
  | none => log.withGroup ⟨start.position log, []⟩ (start.position_le log)

/-- The entries that were not handed out yet. -/
def unread (group : ConsumerGroup) : List (LogEntry F) :=
  log.entries.filter fun entry => group.lastDelivered < entry.id

end

/-- A count of 0 is no limit. -/
def limited {α : Type} (count : Nat) (list : List α) : List α :=
  if count = 0 then list else list.take count

/-- The position after `taken` was handed out from position `low`. -/
def positionAfter (low : Nat) (taken : List (LogEntry F)) : Nat :=
  (taken.getLast?.map LogEntry.id).getD low

/-- The group after `taken` was handed out. -/
def ConsumerGroup.deliver (group : ConsumerGroup) (taken : List (LogEntry F)) :
    ConsumerGroup where
  lastDelivered := positionAfter group.lastDelivered taken
  pending := group.pending ++ taken.map LogEntry.id

theorem mem_of_mem_limited {α : Type} {list : List α} {x : α}
    (hx : x ∈ limited count list) : x ∈ list := by
  unfold limited at hx
  split at hx
  · exact hx
  · exact mem_of_mem_take hx

theorem deliver_reached {log : GroupLog F} {group : ConsumerGroup}
    (hgroup : log.group = some group) (count : Nat) :
    (ConsumerGroup.deliver group (limited count (log.unread group))).lastDelivered ≤
      log.lastId := by
  unfold ConsumerGroup.deliver positionAfter
  cases hlast : (limited count (log.unread group)).getLast? with
  | none => exact log.reached group hgroup
  | some last =>
    have hmem := mem_of_mem_limited (mem_of_getLast? hlast)
    exact (log.bounded last (mem_filter.1 hmem).1).2

/-- Hands out new entries; there is no answer without a group. -/
def readNew (log : GroupLog F) (count : Nat) : Option (List (LogEntry F) × GroupLog F) :=
  match hgroup : log.group with
  | none => none
  | some group =>
    some (limited count (log.unread group),
      log.withGroup (ConsumerGroup.deliver group (limited count (log.unread group)))
        (deliver_reached hgroup count))

/-- The pending entries among `ids`. -/
def claim (log : GroupLog F) (ids : List Nat) : Option (List (LogEntry F)) :=
  log.group.map fun group =>
    log.entries.filter fun entry => entry.id ∈ group.pending ∧ entry.id ∈ ids

def ack (log : GroupLog F) (id : Nat) : GroupLog F :=
  match hgroup : log.group with
  | none => log
  | some group =>
    log.withGroup ⟨group.lastDelivered, group.pending.filter fun pending => pending ≠ id⟩
      (log.reached group hgroup)

/-! ## Reading -/

section

variable {log log' log'' : GroupLog F} {taken taken' : List (LogEntry F)}

/-- `taken` are the entries between the two positions of the group. -/
structure Reads (log : GroupLog F) (taken : List (LogEntry F)) (log' : GroupLog F) : Prop where
  entries : log'.entries = log.entries
  lastId : log'.lastId = log.lastId
  none : log.group = none → log'.group = none
  group : ∀ group, log.group = some group → ∃ group', log'.group = some group' ∧
    group.lastDelivered ≤ group'.lastDelivered ∧
    (∀ entry, entry ∈ taken ↔ entry ∈ log.entries ∧ group.lastDelivered < entry.id ∧
      entry.id ≤ group'.lastDelivered) ∧
    ∀ id ∈ group'.pending, id ∈ group.pending ∨ group.lastDelivered < id

theorem Reads.refl (log : GroupLog F) : Reads log [] log where
  entries := rfl
  lastId := rfl
  none h := h
  group group hgroup := ⟨group, hgroup, Nat.le_refl _, by simp, fun _ hid => .inl hid⟩

theorem Reads.trans (hfirst : Reads log taken log') (hthen : Reads log' taken' log'') :
    Reads log (taken ++ taken') log'' where
  entries := hthen.entries.trans hfirst.entries
  lastId := hthen.lastId.trans hfirst.lastId
  none h := hthen.none (hfirst.none h)
  group group hgroup := by
    obtain ⟨mid, hmid, hle, htaken, hpending⟩ := hfirst.group group hgroup
    obtain ⟨last, hlast, hle', htaken', hpending'⟩ := hthen.group mid hmid
    refine ⟨last, hlast, Nat.le_trans hle hle', fun entry => ?_, fun id hid => ?_⟩
    · rw [mem_append, htaken, htaken', hfirst.entries]
      constructor
      · rintro (⟨hmem, hlow, hhigh⟩ | ⟨hmem, hlow, hhigh⟩)
        · exact ⟨hmem, hlow, Nat.le_trans hhigh hle'⟩
        · exact ⟨hmem, Nat.lt_of_le_of_lt hle hlow, hhigh⟩
      · rintro ⟨hmem, hlow, hhigh⟩
        rcases Nat.lt_or_ge mid.lastDelivered entry.id with hlt | hge
        · exact .inr ⟨hmem, hlt, hhigh⟩
        · exact .inl ⟨hmem, hlow, hge⟩
    · rcases hpending' id hid with hold | hnew
      · exact hpending id hold
      · exact .inr (Nat.lt_of_le_of_lt hle hnew)

end

theorem exists_limited_append {α : Type} (count : Nat) (list : List α) :
    ∃ rest, list = limited count list ++ rest ∧ (list ≠ [] → limited count list ≠ []) := by
  unfold limited
  split
  · exact ⟨[], (append_nil list).symm, id⟩
  · next hcount =>
    refine ⟨list.drop count, (take_append_drop count list).symm, fun hne htake => ?_⟩
    rcases take_eq_nil_iff.1 htake with hzero | hnil
    · exact hcount hzero
    · exact hne hnil

theorem readNew_eq_some {log log' : GroupLog F} (hread : log.readNew count = some (taken, log')) :
    ∃ group, log.group = some group ∧ limited count (log.unread group) = taken ∧
      log'.entries = log.entries ∧ log'.lastId = log.lastId ∧
      log'.group = some (ConsumerGroup.deliver group taken) := by
  unfold readNew at hread
  split at hread
  · cases hread
  · next group hgroup =>
    cases hread
    exact ⟨group, hgroup, rfl, rfl, rfl, rfl⟩

section

variable {low : Nat} {taken rest : List (LogEntry F)}
    (hlow : ∀ entry ∈ taken ++ rest, low < entry.id)
include hlow

theorem lt_positionAfter (hne : taken ≠ []) : low < positionAfter low taken := by
  unfold positionAfter
  rw [getLast?_eq_some_getLast hne]
  exact hlow _ (mem_append_left _ (getLast_mem hne))

theorem le_positionAfter : low ≤ positionAfter low taken := by
  by_cases hne : taken = []
  · subst hne
    exact Nat.le_refl low
  · exact Nat.le_of_lt (lt_positionAfter hlow hne)

/-- The entries of a front part are those up to its last one. -/
theorem mem_iff_le_positionAfter (hsorted : (taken ++ rest).Pairwise fun a b => a.id < b.id)
    (entry : LogEntry F) :
    entry ∈ taken ↔ entry ∈ taken ++ rest ∧ entry.id ≤ positionAfter low taken := by
  obtain ⟨htaken, -, hrest⟩ := pairwise_append.1 hsorted
  by_cases hne : taken = []
  · subst hne
    refine ⟨fun hmem => absurd hmem not_mem_nil, fun hmem => ?_⟩
    exact absurd (hlow entry hmem.1) (Nat.not_lt.2 hmem.2)
  · have hlast := getLast_mem hne
    unfold positionAfter
    rw [getLast?_eq_some_getLast hne]
    constructor
    · intro hmem
      have hordered : taken.Pairwise fun a b => a.id ≤ b.id := htaken.imp Nat.le_of_lt
      refine ⟨mem_append_left _ hmem, ?_⟩
      exact hordered.rel_getLast_of_rel_getLast_getLast hmem (Nat.le_refl _)
    · rintro ⟨hmem, hle⟩
      rcases mem_append.1 hmem with htake | hafter
      · exact htake
      · exact absurd (hrest _ hlast entry hafter) (Nat.not_lt.2 hle)

end

/-- One read hands out the entries up to its last one, and something if there is anything. -/
theorem readNew_spec {log log' : GroupLog F} (hread : log.readNew count = some (taken, log')) :
    Reads log taken log' ∧ ∃ group group', log.group = some group ∧ log'.group = some group' ∧
      ((∃ entry ∈ log.entries, group.lastDelivered < entry.id) →
        group.lastDelivered < group'.lastDelivered) := by
  obtain ⟨group, hgroup, htaken, hentries, hlastId, hgroup'⟩ := readNew_eq_some hread
  obtain ⟨rest, hsplit, hsome⟩ := exists_limited_append count (log.unread group)
  rw [htaken] at hsplit hsome
  have hmem (entry : LogEntry F) : entry ∈ taken ++ rest ↔
      entry ∈ log.entries ∧ group.lastDelivered < entry.id := by
    rw [← hsplit, unread, mem_filter, decide_eq_true_eq]
  have hlow (entry : LogEntry F) (hentry : entry ∈ taken ++ rest) :
      group.lastDelivered < entry.id := ((hmem entry).1 hentry).2
  have hsorted : (taken ++ rest).Pairwise fun a b => a.id < b.id := by
    rw [← hsplit]
    exact log.sorted.filter _
  refine ⟨⟨hentries, hlastId, fun hnone => ?_, fun g hg => ?_⟩, group, _, hgroup, hgroup', ?_⟩
  · rw [hnone] at hgroup
    cases hgroup
  · rw [hgroup] at hg
    cases hg
    refine ⟨_, hgroup', le_positionAfter hlow, fun entry => ?_, fun id hid => ?_⟩
    · rw [mem_iff_le_positionAfter hlow hsorted, hmem, and_assoc]
      rfl
    · rcases mem_append.1 hid with hold | hnew
      · exact .inl hold
      · obtain ⟨entry, hentry, rfl⟩ := mem_map.1 hnew
        exact .inr (hlow entry (mem_append_left _ hentry))
  · rintro ⟨entry, hentry, hlt⟩
    apply lt_positionAfter hlow
    apply hsome
    rw [hsplit]
    exact ne_nil_of_mem ((hmem entry).2 ⟨hentry, hlt⟩)

/-! ## A position that is passed -/

/-- No entry up to `bound` is handed out any more. -/
def Past (bound : Nat) (log : GroupLog F) : Prop :=
  ∃ group, log.group = some group ∧ bound ≤ group.lastDelivered ∧
    ∀ id ∈ group.pending, bound < id

section

variable {bound : Nat} {log log' : GroupLog F}

theorem group_add {id : Nat} {fields : F} (hadd : log.add id fields = some log') :
    log'.group = log.group ∧ log.lastId < id ∧ log'.lastId = id ∧
      log'.entries = log.entries ++ [⟨id, fields⟩] := by
  unfold add at hadd
  split at hadd
  · next hid =>
    cases hadd
    exact ⟨rfl, hid, rfl, rfl⟩
  · cases hadd

theorem group_ack (log : GroupLog F) (id : Nat) : (log.ack id).group = log.group.map fun group =>
      ⟨group.lastDelivered, group.pending.filter fun pending => pending ≠ id⟩ := by
  unfold GroupLog.ack
  split
  · next hgroup => simp [hgroup]
  · next hgroup => simp [withGroup, hgroup]

theorem Past.of_group_eq (hpast : Past bound log) (hgroup : log'.group = log.group) :
    Past bound log' := by
  obtain ⟨group, hsome, hrest⟩ := hpast
  exact ⟨group, hgroup.trans hsome, hrest⟩

theorem Past.createGroup (hpast : Past bound log) (start : StartId) :
    Past bound (log.createGroup start) := by
  obtain ⟨group, hsome, hrest⟩ := hpast
  refine ⟨group, ?_, hrest⟩
  rw [GroupLog.createGroup, hsome]
  exact hsome

theorem past_createGroup_dollar (hgroup : log.group = none) (hbound : bound ≤ log.lastId) :
    Past bound (log.createGroup .dollar) := by
  refine ⟨⟨log.lastId, []⟩, ?_, hbound, by simp⟩
  rw [GroupLog.createGroup, hgroup]
  rfl

theorem Past.reads (hpast : Past bound log)
    (hreads : Reads log taken log') : Past bound log' ∧ ∀ entry ∈ taken, bound < entry.id := by
  obtain ⟨group, hsome, hle, hpending⟩ := hpast
  obtain ⟨group', hsome', hle', htaken, hpending'⟩ := hreads.group group hsome
  refine ⟨⟨group', hsome', Nat.le_trans hle hle', fun id hid => ?_⟩, fun entry hentry => ?_⟩
  · rcases hpending' id hid with hold | hnew
    · exact hpending id hold
    · exact Nat.lt_of_le_of_lt hle hnew
  · exact Nat.lt_of_le_of_lt hle ((htaken entry).1 hentry).2.1

theorem Past.claim {ids : List Nat} {claimed : List (LogEntry F)} (hpast : Past bound log)
    (hclaim : log.claim ids = some claimed) : ∀ entry ∈ claimed, bound < entry.id := by
  obtain ⟨group, hsome, -, hpending⟩ := hpast
  rw [GroupLog.claim, hsome, Option.map_some, Option.some.injEq] at hclaim
  subst hclaim
  intro entry hentry
  rw [mem_filter, decide_eq_true_eq] at hentry
  exact hpending entry.id hentry.2.1

theorem Past.ack (hpast : Past bound log) (id : Nat) : Past bound (log.ack id) := by
  obtain ⟨group, hsome, hle, hpending⟩ := hpast
  refine ⟨⟨group.lastDelivered, group.pending.filter fun pending => pending ≠ id⟩, ?_, hle, ?_⟩
  · rw [group_ack, hsome]
    rfl
  · exact fun other hother => hpending other (mem_filter.1 hother).1

end

/-! ## Entries that were handed out -/

/-- Everything up to the group's position is done. -/
def Covered (done : LogEntry F → Prop) (log : GroupLog F) : Prop :=
  ∀ group, log.group = some group → ∀ entry ∈ log.entries,
    entry.id ≤ group.lastDelivered → done entry

section

variable {done done' : LogEntry F → Prop} {log log' : GroupLog F}

theorem Covered.mono (hcovered : Covered done log) (himp : ∀ entry, done entry → done' entry) :
    Covered done' log :=
  fun group hgroup entry hentry hle => himp entry (hcovered group hgroup entry hentry hle)

theorem covered_of_none (hnone : log.group = none) : Covered done log := by
  intro group hgroup
  rw [hnone] at hgroup
  cases hgroup

section
variable (hcovered : Covered done log)
include hcovered

theorem Covered.add {id : Nat} {fields : F}
    (hadd : log.add id fields = some log') : Covered done log' := by
  obtain ⟨hgroup, hid, -, hentries⟩ := group_add hadd
  intro group hsome entry hentry hle
  rw [hgroup] at hsome
  rw [hentries, mem_append, mem_singleton] at hentry
  rcases hentry with hold | rfl
  · exact hcovered group hsome entry hold hle
  · have hle : id ≤ group.lastDelivered := hle
    have hreached := log.reached group hsome
    omega

theorem Covered.trim (count : Nat) : Covered done (log.trim count) :=
  fun group hgroup entry hentry hle =>
    hcovered group hgroup entry (mem_of_mem_drop hentry) hle

/-- Nothing is before a group that starts at the beginning. -/
theorem Covered.createGroup_zero : Covered done (log.createGroup .zero) := by
  unfold GroupLog.createGroup
  split
  · exact hcovered
  · rintro group ⟨⟩ entry hentry hle
    exact absurd (log.bounded entry hentry).1 (Nat.not_lt.2 hle)

theorem Covered.reads (hreads : Reads log taken log') :
    Covered (fun entry => done entry ∨ entry ∈ taken) log' := by
  intro group' hgroup' entry hentry hle
  rw [hreads.entries] at hentry
  cases hgroup : log.group with
  | none =>
    rw [hreads.none hgroup] at hgroup'
    cases hgroup'
  | some group =>
    obtain ⟨g, hg, -, htaken, -⟩ := hreads.group group hgroup
    rw [hgroup'] at hg
    cases hg
    rcases Nat.lt_or_ge group.lastDelivered entry.id with hlt | hge
    · exact .inr ((htaken entry).2 ⟨hentry, hlt, hle⟩)
    · exact .inl (hcovered group hgroup entry hentry hge)

end

theorem entries_ack (log : GroupLog F) (id : Nat) : (log.ack id).entries = log.entries := by
  unfold GroupLog.ack
  split <;> rfl

theorem Covered.ack (hcovered : Covered done log) (id : Nat) : Covered done (log.ack id) := by
  intro group' hgroup' entry hentry hle
  rw [entries_ack] at hentry
  rw [group_ack] at hgroup'
  obtain ⟨group, hgroup, rfl⟩ := Option.map_eq_some_iff.1 hgroup'
  exact hcovered group hgroup entry hentry hle

end

/-! ## The position of a group -/

/-- The id up to which entries were handed out. -/
def position (log : GroupLog F) : Nat := (log.group.map ConsumerGroup.lastDelivered).getD 0

section

variable {log log' : GroupLog F}

theorem position_of_group {group : ConsumerGroup} (hgroup : log.group = some group) :
    log.position = group.lastDelivered := by
  rw [position, hgroup]
  rfl

/-- No entry is lost, and the position does not move back. -/
def Grows (log log' : GroupLog F) : Prop :=
  (∀ entry ∈ log.entries, entry ∈ log'.entries) ∧ log.position ≤ log'.position

theorem Grows.refl (log : GroupLog F) : Grows log log := ⟨fun _ hentry => hentry, Nat.le_refl _⟩

theorem grows_add {id : Nat} {fields : F} (hadd : log.add id fields = some log') :
    Grows log log' := by
  obtain ⟨hgroup, -, -, hentries⟩ := group_add hadd
  refine ⟨fun entry hentry => ?_, ?_⟩
  · rw [hentries]
    exact mem_append_left _ hentry
  · exact Nat.le_of_eq (by rw [position, position, hgroup])

theorem grows_createGroup (log : GroupLog F) (start : StartId) :
    Grows log (log.createGroup start) := by
  cases hgroup : log.group with
  | none =>
    refine ⟨fun entry hentry => ?_, ?_⟩
    · rw [createGroup, hgroup]
      exact hentry
    · rw [position, hgroup]
      exact Nat.zero_le _
  | some group =>
    rw [createGroup, hgroup]
    exact Grows.refl log

theorem Reads.grows (hreads : Reads log taken log') : Grows log log' := by
  refine ⟨fun entry hentry => hreads.entries ▸ hentry, ?_⟩
  cases hgroup : log.group with
  | none =>
    rw [position, hgroup]
    exact Nat.zero_le _
  | some group =>
    obtain ⟨group', hgroup', hle, -⟩ := hreads.group group hgroup
    rw [position_of_group hgroup, position_of_group hgroup']
    exact hle

theorem grows_ack (log : GroupLog F) (id : Nat) : Grows log (log.ack id) := by
  refine ⟨fun entry hentry => (entries_ack log id).symm ▸ hentry, Nat.le_of_eq ?_⟩
  rw [position, position, group_ack, Option.map_map]
  rfl

end

end GroupLog

end SquadPanel.Lib
