import SquadPanel.Lib.Timeline
import SquadPanel.Presence.Poller
import Mathlib.Algebra.Order.Ring.Int

/-!
# Session rows as timelines

The three writers of `player_sessions` as updates of a table of spans, and the
invariant that relates the rows to what the poller remembers: for a player without
an open session, everything they have ended before they were first seen.
-/

namespace SquadPanel.Presence

open Js Lib Timeline ServerPoller List

variable {P E S : Type} {r : SessionRow P} {t : Int} {rows : List (SessionRow P)} {occurredAt : Int}
  {kind : SeedingTransition}

section
variable (r : SessionRow P)

/-- A session row as a span of its player. -/
def SessionRow.span : Span P Int :=
  ⟨r.playerId, r.connectedAt, r.disconnectedAt⟩

@[simp] theorem span_key : r.span.key = r.playerId := rfl

@[simp] theorem span_start : r.span.start = r.connectedAt := rfl

@[simp] theorem span_stop : r.span.stop = r.disconnectedAt := rfl

end

/-- No session ends before it starts, and two sessions of one player do not overlap; in
particular no player has two open sessions. -/
abbrev SessionsWellFormed (rows : List (SessionRow P)) : Prop :=
  WellFormed SessionRow.span rows

/-! ## The writers, as updates of a timeline -/

theorem closesTo_closed {reason : Option ClosedReason} (hopen : r.disconnectedAt = none)
    (hle : r.connectedAt ≤ t) : ClosesTo t r.span (r.closed t reason).span :=
  .inr ⟨hopen, hle, rfl⟩

theorem closesTo_closeAbsent [DecidableEq P] {pollAt : Int} {onlineIds : JsMap P E}
    (hpast : Past SessionRow.span rows pollAt) : ∀ r ∈ rows, ClosesTo pollAt r.span
      (if r.disconnectedAt = none ∧ r.playerId ∉ onlineIds.keys then
        r.closed pollAt (some .disconnect) else r).span := by
  intro r hr
  split
  · next hopen => exact closesTo_closed hopen.1 (hpast r hr).1
  · exact .inl rfl

/-- What the split does to one row. -/
def splitRow (occurredAt : Int) (kind : SeedingTransition) (r : SessionRow P) : SessionRow P :=
  if splits occurredAt kind r then r.closed occurredAt r.closedReason
  else if r.disconnectedAt = none ∧ occurredAt ≤ r.connectedAt ∧ kind.moves r.mode then
    { r with mode := kind.targetMode }
  else r

theorem splits_iff : splits occurredAt kind r ↔
      r.disconnectedAt = none ∧ r.connectedAt < occurredAt ∧ kind.moves r.mode := by
  simp [splits]

theorem span_splitRow_of_not (hnot : ¬ splits occurredAt kind r) :
    (splitRow occurredAt kind r).span = r.span := by
  unfold splitRow
  rw [if_neg hnot]
  split <;> rfl

theorem closesTo_splitRow (occurredAt : Int) (kind : SeedingTransition) (r : SessionRow P) :
    ClosesTo occurredAt r.span (splitRow occurredAt kind r).span := by
  by_cases hsplits : splits occurredAt kind r
  · have hr := splits_iff.1 hsplits
    rw [splitRow, if_pos hsplits]
    exact closesTo_closed hr.1 hr.2.1.le
  · exact .inl (span_splitRow_of_not hsplits)

theorem stop_splitRow (hsplits : splits occurredAt kind r) :
    (splitRow occurredAt kind r).span.stop = some occurredAt := by
  rw [splitRow, if_pos hsplits]
  rfl

section
variable (occurredAt : Int) (kind : SeedingTransition) (rows : List (SessionRow P))

/-- The sessions the split inserts. -/
def splitOpened :
    List (SessionRow P) :=
  (rows.filter (splits occurredAt kind)).map fun r =>
    .opened r.playerId occurredAt kind.targetMode

theorem split_eq : splitOpenSessionsAtSeedingTransition occurredAt kind rows =
      rows.map (splitRow occurredAt kind) ++ splitOpened occurredAt kind rows :=
  rfl

end

theorem mem_splitOpened {n : SessionRow P} : n ∈ splitOpened occurredAt kind rows ↔
      ∃ r ∈ rows, splits occurredAt kind r ∧
        n = .opened r.playerId occurredAt kind.targetMode := by
  simp only [splitOpened, mem_map, mem_filter]
  constructor
  · rintro ⟨r, ⟨hr, hsplits⟩, rfl⟩
    exact ⟨r, hr, hsplits, rfl⟩
  · rintro ⟨r, hr, hsplits, rfl⟩
    exact ⟨r, ⟨hr, hsplits⟩, rfl⟩

theorem wellFormed_split (hrows : SessionsWellFormed rows) (occurredAt : Int)
    (kind : SeedingTransition) :
    SessionsWellFormed (splitOpenSessionsAtSeedingTransition occurredAt kind rows) := by
  have hclose : ∀ r ∈ rows, ClosesTo occurredAt r.span (splitRow occurredAt kind r).span :=
    fun r _ => closesTo_splitRow occurredAt kind r
  rw [split_eq]
  apply (hrows.closed hclose).opened
  · intro n hn
    obtain ⟨r, _, _, rfl⟩ := mem_splitOpened.1 hn
    rfl
  · -- two rows that are split are both open, so they belong to different players
    rw [splitOpened, map_map, List.Nodup, pairwise_map]
    refine (hrows.apart.filter _).imp_of_mem ?_
    intro r r' hr hr' hapart hkey
    have hopen := (splits_iff.1 (mem_filter.1 hr).2).1
    have hopen' := (splits_iff.1 (mem_filter.1 hr').2).1
    exact not_endsBy_of_open hopen' (hapart.endsBy hkey hopen)
  · intro n hn
    obtain ⟨r, hr, hsplits, rfl⟩ := mem_splitOpened.1 hn
    have hopen := (splits_iff.1 hsplits).1
    have hended := hrows.ended_of_closed hclose hr hopen (stop_splitRow hsplits)
    exact hended

/-! ## The invariant -/

/-- Nothing the poll in flight meets is later than its own instant. -/
structure InFlight (s : ServerPoller P E S) [DecidableEq E] (pollAt : Int) : Prop where
  pollAt_le : pollAt ≤ s.clock
  past : Past SessionRow.span s.rows pollAt
  closing_le : ∀ c, s.closing = some c → c ≤ pollAt
  seen_le : ∀ e v, s.rosterFirstSeen.get e = some v → v ≤ pollAt

variable [DecidableEq E] {players : List (RconPlayer E S)} {previous : JsMap E Int} (owner : E → P)

/-- The resolved players are the ones their roster entries stand for. -/
def Resolved (input : ReconcileInput E S) (onlineIds : JsMap P E) : Prop :=
  ∀ id e, (id, e) ∈ onlineIds.entries →
    owner e = id ∧ ∃ v, input.firstSeenByEosId.get e = some v

/-- Sessions that may be inserted: after everything their player has. -/
structure Insertable (rows : List (SessionRow P)) (pollAt : Int) (new : List (SessionRow P)) :
    Prop where
  isOpen : ∀ n ∈ new, n.span.stop = none ∧ n.span.start ≤ pollAt
  keys : (new.map fun n => n.span.key).Nodup
  ended : ∀ n ∈ new, Ended SessionRow.span rows n.span.key n.span.start

def StageInv (rows : List (SessionRow P)) (input : ReconcileInput E S) :
    ReconcileStage P E → Prop
  | .resolve => True
  | .close onlineIds =>
    Resolved owner input onlineIds ∧
      ∀ e v, input.firstSeenByEosId.get e = some v →
        owner e ∈ onlineIds.keys ∨ ∀ r ∈ rows, r.playerId ≠ owner e
  | .select onlineIds => Resolved owner input onlineIds
  | .insert new => Insertable rows input.pollAt new

/-- The roster of the poll in flight is the one the poller remembers. -/
structure RosterOf (s : ServerPoller P E S) (input : ReconcileInput E S) : Prop where
  firstSeen_eq : s.rosterFirstSeen = input.firstSeenByEosId
  seen : ∀ p ∈ input.onlinePlayers, ∃ v, input.firstSeenByEosId.get p.eosId = some v
  listed : ∀ e v, input.firstSeenByEosId.get e = some v →
    ∃ p ∈ input.onlinePlayers, p.eosId = e

def PollInv (s : ServerPoller P E S) : Poll P E S → Prop
  | .idle => True
  | .snapshot pollAt _ => InFlight s pollAt
  | .reconcile input stage =>
    InFlight s input.pollAt ∧ RosterOf s input ∧ StageInv owner s.rows input stage
  | .reconciled pollAt _ => pollAt ≤ s.clock
  | .split occurredAt _ => occurredAt ≤ s.clock

structure PollerInv (owner : E → P) (s : ServerPoller P E S) : Prop where
  rows : SessionsWellFormed s.rows
  past : Past SessionRow.span s.rows s.clock
  lastPoll : ∀ t, s.lastSuccessfulPollAt = some t → t ≤ s.clock
  seen : ∀ e v, s.rosterFirstSeen.get e = some v →
    v ≤ s.clock ∧ Settled SessionRow.span s.rows (owner e) v
  closing : ∀ c, s.closing = some c →
    c ≤ s.clock ∧ ∀ e v, s.rosterFirstSeen.get e = some v → c ≤ v
  poll : PollInv owner s s.poll

/-! ## What the roster remembers -/

theorem get_buildRoster {e : E} {v : Int} (hget : (buildRoster players previous t).get e = some v) :
    (∃ p ∈ players, p.eosId = e) ∧ v = (previous.get e).getD t := by
  have hmem := JsMap.mem_of_get_ofEntries hget
  obtain ⟨p, hp, heq⟩ := mem_map.1 hmem
  cases heq
  exact ⟨⟨p, hp, rfl⟩, rfl⟩

theorem buildRoster_seen {p : RconPlayer E S} (hp : p ∈ players) :
    ∃ v, (buildRoster players previous t).get p.eosId = some v := by
  apply Option.isSome_iff_exists.1
  apply JsMap.get_ofEntries_isSome
  rw [map_map]
  exact mem_map.2 ⟨p, hp, rfl⟩

section Build

variable {owner : E → P} {rows : List (SessionRow P)} {previous : JsMap E Int} {t : Int}
  {players : List (RconPlayer E S)}

theorem seen_buildRoster (hpast : Past SessionRow.span rows t)
    (hseen : ∀ e v, previous.get e = some v → v ≤ t ∧ Settled SessionRow.span rows (owner e) v) :
    ∀ e v, (buildRoster players previous t).get e = some v →
      v ≤ t ∧ Settled SessionRow.span rows (owner e) v := by
  intro e v hget
  have hv := (get_buildRoster hget).2
  cases hprevious : previous.get e with
  | none =>
    rw [hprevious, Option.getD_none] at hv
    rw [hv]
    exact ⟨le_rfl, hpast.settled (owner e)⟩
  | some w =>
    rw [hprevious, Option.getD_some] at hv
    rw [hv]
    exact hseen e w hprevious

theorem le_buildRoster {c : Int} (hc : c ≤ t) (hseen : ∀ e v, previous.get e = some v → c ≤ v) :
    ∀ e v, (buildRoster players previous t).get e = some v → c ≤ v := by
  intro e v hget
  have hv := (get_buildRoster hget).2
  cases hprevious : previous.get e with
  | none =>
    rw [hprevious, Option.getD_none] at hv
    omega
  | some w =>
    rw [hprevious, Option.getD_some] at hv
    rw [hv]
    exact hseen e w hprevious

end Build

/-! ## Identities -/

section Identities

variable [DecidableEq P] [DecidableEq S] {table : List (PlayerRow P E S)}
  {roster : List (RconPlayer E S)}

/-- The entry resolves to the player its EOS id stands for, or to nobody while that player
has no session on the server. -/
def StandsFor (owner : E → P) (rows : List (SessionRow P)) (table : List (PlayerRow P E S))
    (p : RconPlayer E S) : Prop :=
  resolvePlayerId table p = some (owner p.eosId) ∨
    (resolvePlayerId table p = none ∧ ∀ r ∈ rows, r.playerId ≠ owner p.eosId)

theorem stageInv_resolved {owner : E → P} {s : ServerPoller P E S} {input : ReconcileInput E S}
    (hroster : RosterOf s input)
    (hstands : ∀ p ∈ input.onlinePlayers, StandsFor owner s.rows table p) :
    StageInv owner s.rows input (.close (resolvePlayerIds table input.onlinePlayers)) := by
  constructor
  · intro id e hmem
    have hget := JsMap.mem_of_get_ofEntries (JsMap.get_eq_some_of_mem hmem)
    obtain ⟨p, hp, heq⟩ := mem_filterMap.1 hget
    obtain ⟨id', hid, hpair⟩ := Option.map_eq_some_iff.1 heq
    cases hpair
    refine ⟨?_, hroster.seen p hp⟩
    obtain hsome | ⟨hnone, _⟩ := hstands p hp
    · rw [hid] at hsome
      exact (Option.some.inj hsome).symm
    · rw [hid] at hnone
      cases hnone
  · intro e v hget
    obtain ⟨p, hp, rfl⟩ := hroster.listed e v hget
    obtain hsome | ⟨_, hfresh⟩ := hstands p hp
    · left
      apply JsMap.mem_keys_of_get
      apply JsMap.get_ofEntries_isSome
      refine mem_map.2 ⟨(_, p.eosId), ?_, rfl⟩
      exact mem_filterMap.2 ⟨p, hp, by rw [hsome]; rfl⟩
    · exact .inr hfresh

end Identities

/-! ## The reconcile -/

theorem connectedAtFor_le (firstSeenAt : Option Int) (earliestMs pollAt : Int) :
    connectedAtFor firstSeenAt earliestMs pollAt ≤ pollAt := by
  cases firstSeenAt with
  | none => exact le_rfl
  | some v => exact min_le_left _ _

section ToOpen

variable [DecidableEq P] {input : ReconcileInput E S} {onlineIds : JsMap P E}

theorem mem_toOpen {n : SessionRow P} (hn : n ∈ toOpen input onlineIds rows) :
    ∃ id e earliestMs, (id, e) ∈ onlineIds.entries ∧
      (∀ r ∈ rows, r.disconnectedAt = none → r.playerId ≠ id) ∧
      n = .opened id (connectedAtFor (input.firstSeenByEosId.get e) earliestMs input.pollAt)
        input.mode := by
  obtain ⟨⟨id, e⟩, hentry, rfl⟩ := mem_map.1 hn
  obtain ⟨hmem, hclosed⟩ := mem_filter.1 hentry
  refine ⟨id, e, _, hmem, ?_, rfl⟩
  intro r hr hopen hid
  have hnot : id ∉ (rows.filter fun r => r.disconnectedAt = none).map (·.playerId) := by
    simpa using hclosed
  exact hnot (mem_map.2 ⟨r, mem_filter.2 ⟨hr, by simpa using hopen⟩, hid⟩)

theorem insertable_toOpen {owner : E → P} {s : ServerPoller P E S} (hinv : PollerInv owner s)
    (hflight : InFlight s input.pollAt)
    (hroster : RosterOf s input) (hresolved : Resolved owner input onlineIds) :
    Insertable s.rows input.pollAt (toOpen input onlineIds s.rows) where
  isOpen := by
    intro n hn
    obtain ⟨id, e, earliestMs, _, _, rfl⟩ := mem_toOpen hn
    exact ⟨rfl, connectedAtFor_le _ _ _⟩
  keys := by
    unfold toOpen
    rw [map_map]
    exact onlineIds.nodup.sublist (filter_sublist.map Prod.fst)
  ended := by
    intro n hn
    obtain ⟨id, e, earliestMs, hmem, hnone, rfl⟩ := mem_toOpen hn
    obtain ⟨rfl, v, hget⟩ := hresolved id e hmem
    have hseen : s.rosterFirstSeen.get e = some v := by rw [hroster.firstSeen_eq, hget]
    -- without an open session, everything the player has ended before they were first seen
    have hended := (hinv.seen e v hseen).2.ended hnone
    rw [hget]
    have hle := hflight.seen_le e v hseen
    exact hended.mono (le_min hle (le_max_right earliestMs v))

end ToOpen

end SquadPanel.Presence
