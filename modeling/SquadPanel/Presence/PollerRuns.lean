import SquadPanel.Lib.Machine
import SquadPanel.Presence.SessionTimeline

/-!
# Runs of the poller

The sessions of a player on one server follow each other as long as no teardown of
the connection closes a session at an instant before its start, no teardown starts
while a poll is between its snapshot and its last session statement, and a roster
entry keeps standing for the same player.
-/

namespace SquadPanel.Presence

open Js Lib Timeline ServerPoller List

variable {P E S : Type} [DecidableEq E]

/-! ## What one event preserves -/

section Steps

variable {owner : E → P} {s : ServerPoller P E S} {s' : ServerPoller P E S} {poll : Poll P E S}
  {pollAt : Int} {input : ReconcileInput E S} {new : List (SessionRow P)}

/-- What the poll in flight relies on: the rows, the remembered roster, an awaited close and
that the clock has not gone back. -/
theorem pollInv_of_le (hpoll : PollInv owner s poll)
    (hclock : s.clock ≤ s'.clock) (hrows : s'.rows = s.rows)
    (hseen : s'.rosterFirstSeen = s.rosterFirstSeen)
    (hclosing : ∀ c, s'.closing = some c → s.closing = some c) : PollInv owner s' poll := by
  have hflight {pollAt : Int} (hat : InFlight s pollAt) : InFlight s' pollAt :=
    { pollAt_le := hat.pollAt_le.trans hclock
      past := by
        rw [hrows]
        exact hat.past
      closing_le := fun c hc => hat.closing_le c (hclosing c hc)
      seen_le := by
        rw [hseen]
        exact hat.seen_le }
  cases poll with
  | idle => trivial
  | snapshot pollAt players => exact hflight hpoll
  | reconcile input stage =>
    obtain ⟨hat, hroster, hstage⟩ := hpoll
    refine ⟨hflight hat, { hroster with firstSeen_eq := hseen.trans hroster.firstSeen_eq }, ?_⟩
    rw [hrows]
    exact hstage
  | reconciled pollAt count | split occurredAt kind => exact le_trans hpoll hclock

theorem stageInv_closed {f : SessionRow P → SessionRow P} {c : Int} {stage : ReconcileStage P E}
    (hclose : ∀ r ∈ s.rows, ClosesTo c r.span (f r).span)
    (hstage : StageInv owner s.rows input stage) : StageInv owner (s.rows.map f) input stage := by
  cases stage with
  | resolve => trivial
  | close onlineIds =>
    refine ⟨hstage.1, fun e v hget => (hstage.2 e v hget).imp_right ?_⟩
    intro hnone r' hr'
    obtain ⟨r, hr, rfl⟩ := mem_map.1 hr'
    have hkey : (f r).playerId = r.playerId := (hclose r hr).key_eq
    rw [hkey]
    exact hnone r hr
  | select onlineIds => exact hstage
  | insert new =>
    exact { hstage with ended := fun n hn => (hstage.ended n hn).closed hclose }

/-- No poll is between its snapshot and its last session statement. -/
def Poll.sessionsWritten : Poll P E S → Bool
  | .snapshot _ _ | .reconcile _ _ => false
  | .idle | .reconciled _ _ | .split _ _ => true

theorem pollerInv_start {clock : Int} {rows : List (SessionRow P)}
    (hrows : SessionsWellFormed rows) (hpast : Past SessionRow.span rows clock)
    (prior : Option SeedingState) :
    PollerInv owner (ServerPoller.start clock rows prior : ServerPoller P E S) where
  rows := hrows
  past := hpast
  lastPoll t ht := by cases ht
  seen e v hget := by cases hget
  closing c hc := by cases hc
  poll := trivial

variable (hinv : PollerInv owner s)
include hinv

theorem pollerInv_clock {t : Int} (hle : s.clock ≤ t) : PollerInv owner { s with clock := t } where
  rows := hinv.rows
  past := hinv.past.mono hle
  lastPoll u hu := (hinv.lastPoll u hu).trans hle
  seen e v hget := ⟨(hinv.seen e v hget).1.trans hle, (hinv.seen e v hget).2⟩
  closing c hc := ⟨(hinv.closing c hc).1.trans hle, (hinv.closing c hc).2⟩
  poll := pollInv_of_le hinv.poll hle rfl rfl fun _ hc => hc

theorem pollerInv_read {t : Int} (hread : s.read t = some s') :
    PollerInv owner s' ∧ s'.clock = t ∧ s'.poll = s.poll ∧ s'.closing = s.closing := by
  unfold ServerPoller.read at hread
  split at hread
  · next hle =>
    cases hread
    exact ⟨pollerInv_clock hinv hle, rfl, rfl, rfl⟩
  · cases hread

theorem pollerInv_refresh (players : List (RconPlayer E S))
    (hidle : s.poll = .idle) : PollerInv owner
      { s with rosterFirstSeen := buildRoster players s.rosterFirstSeen s.clock } where
  __ := hinv
  seen := seen_buildRoster hinv.past hinv.seen
  closing c hc :=
    ⟨(hinv.closing c hc).1, le_buildRoster (hinv.closing c hc).1 (hinv.closing c hc).2⟩
  poll := by
    rw [hidle]
    trivial

theorem inFlight_now : InFlight s s.clock where
  pollAt_le := le_rfl
  past := hinv.past
  closing_le c hc := (hinv.closing c hc).1
  seen_le e v hget := (hinv.seen e v hget).1

theorem PollerInv.pollInv (hpoll : s.poll = poll) : PollInv owner s poll := hpoll ▸ hinv.poll

theorem pollerInv_poll (hpoll : PollInv owner { s with poll := poll } poll) :
    PollerInv owner { s with poll := poll } :=
  { hinv with poll := hpoll }

theorem pollerInv_endReconcile (count : Nat)
    (hle : pollAt ≤ s.clock) : PollerInv owner (s.endReconcile pollAt count) :=
  { hinv with
    lastPoll := by
      intro t ht
      cases ht
      exact hle
    poll := hle }

theorem pollerInv_build (target : Target) {players : List (RconPlayer E S)}
    (hflight : InFlight s pollAt) (hpoll : s.poll = .snapshot pollAt players) :
    PollerInv owner (s.buildStep target pollAt players) := by
  have hseen : ∀ e v, (buildRoster players s.rosterFirstSeen pollAt).get e = some v →
      v ≤ pollAt ∧ Settled SessionRow.span s.rows (owner e) v :=
    seen_buildRoster hflight.past fun e v hget =>
      ⟨hflight.seen_le e v hget, (hinv.seen e v hget).2⟩
  have hflight' : InFlight
      { s with rosterFirstSeen := buildRoster players s.rosterFirstSeen pollAt } pollAt :=
    { hflight with seen_le := fun e v hget => (hseen e v hget).1 }
  have hbuilt : PollerInv owner
      { s with rosterFirstSeen := buildRoster players s.rosterFirstSeen pollAt } :=
    { hinv with
      seen := fun e v hget =>
        ⟨(hseen e v hget).1.trans hflight.pollAt_le, (hseen e v hget).2⟩
      closing := fun c hc =>
        ⟨(hinv.closing c hc).1, le_buildRoster (hflight.closing_le c hc) (hinv.closing c hc).2⟩
      poll := by
        rw [hpoll]
        exact { hflight' with } }
  unfold ServerPoller.buildStep
  dsimp only
  split
  · exact pollerInv_endReconcile hbuilt players.length hflight.pollAt_le
  · refine pollerInv_poll hbuilt ⟨{ hflight' with }, ?_, trivial⟩
    exact
      { firstSeen_eq := rfl
        seen := fun p hp => buildRoster_seen hp
        listed := fun e v hget => (get_buildRoster hget).1 }

theorem pollerInv_insert (hle : pollAt ≤ s.clock) (hnew : Insertable s.rows pollAt new) :
    PollerInv owner ({ s with rows := s.rows ++ new, poll := .idle } : ServerPoller P E S) := by
  have hkeep : ∀ r ∈ s.rows, ClosesTo pollAt r.span (id r).span := fun r _ => .inl rfl
  refine
    { hinv with
      rows := hinv.rows.opened (fun n hn => (hnew.isOpen n hn).1) hnew.keys hnew.ended
      past := ?_
      seen := ?_
      poll := trivial }
  · have hupdate : Past SessionRow.span (s.rows.map id ++ new) s.clock :=
      hinv.past.update hkeep hle fun n hn =>
        ⟨(hnew.isOpen n hn).1, (hnew.isOpen n hn).2.trans hle⟩
    rwa [map_id] at hupdate
  · intro e v hget
    have hupdate : Settled SessionRow.span (s.rows.map id ++ new) (owner e) v :=
      (hinv.seen e v hget).2.update hkeep hinv.rows (fun n hn => (hnew.isOpen n hn).1) (by
        intro r _ _ hstop hopen
        rw [id_eq, hopen] at hstop
        cases hstop)
    rw [map_id] at hupdate
    exact ⟨(hinv.seen e v hget).1, hupdate⟩

theorem pollerInv_split {occurredAt : Int} (kind : SeedingTransition)
    (hle : occurredAt ≤ s.clock) : PollerInv owner
      ({ s with
        rows := splitOpenSessionsAtSeedingTransition occurredAt kind s.rows
        poll := .idle } : ServerPoller P E S) := by
  have hclose : ∀ r ∈ s.rows, ClosesTo occurredAt r.span (splitRow occurredAt kind r).span :=
    fun r _ => closesTo_splitRow occurredAt kind r
  have hnew : ∀ n ∈ splitOpened occurredAt kind s.rows,
      n.span.stop = none ∧ n.span.start ≤ s.clock := by
    intro n hn
    obtain ⟨r, _, _, rfl⟩ := mem_splitOpened.1 hn
    exact ⟨rfl, hle⟩
  refine
    { hinv with
      rows := wellFormed_split hinv.rows occurredAt kind
      past := hinv.past.update hclose hle hnew
      seen := ?_
      poll := trivial }
  intro e v hget
  refine ⟨(hinv.seen e v hget).1,
    (hinv.seen e v hget).2.update hclose hinv.rows (fun n hn => (hnew n hn).1) ?_⟩
  -- every session that is closed is reopened for the same player
  intro r hr hkey hstop hopen
  right
  by_cases hsplits : splits occurredAt kind r
  · exact ⟨_, mem_splitOpened.2 ⟨r, hr, hsplits, rfl⟩, hkey⟩
  · have hkept : (splitRow occurredAt kind r).span.stop = some occurredAt := hstop
    rw [span_splitRow_of_not hsplits, hopen] at hkept
    cases hkept

theorem pollerInv_dropClosed {c : Int} (hclosing : s.closing = some c)
    (hstarted : ∀ r ∈ s.rows, r.disconnectedAt = none → r.connectedAt ≤ c) :
    PollerInv owner { s with rows := closeServerSessions c s.rows, closing := none } := by
  have hclose : ∀ r ∈ s.rows, ClosesTo c r.span
      (if r.disconnectedAt = none then r.closed c (some .disconnect) else r).span := by
    intro r hr
    split
    · next hopen => exact closesTo_closed hopen (hstarted r hr hopen)
    · exact .inl rfl
  obtain ⟨hc, hremembered⟩ := hinv.closing c hclosing
  refine
    { hinv with
      rows := hinv.rows.closed hclose
      past := hinv.past.closed hclose hc
      seen := ?_
      closing := nofun
      poll := ?_ }
  · intro e v hget
    refine ⟨(hinv.seen e v hget).1, (hinv.seen e v hget).2.closed hclose hinv.rows ?_⟩
    -- the roster was emptied when the teardown began
    exact fun _ _ _ _ _ => hremembered e v hget
  · have hflight {pollAt : Int} (hat : InFlight s pollAt) :
        InFlight { s with rows := closeServerSessions c s.rows, closing := none } pollAt :=
      { hat with
        past := hat.past.closed hclose (hat.closing_le c hclosing)
        closing_le := nofun }
    have hat := hinv.poll
    cases hpoll : s.poll with
    | idle => trivial
    | snapshot pollAt players =>
      rw [hpoll] at hat
      exact { hflight hat with }
    | reconcile input stage =>
      rw [hpoll] at hat
      exact ⟨{ hflight hat.1 with }, { hat.2.1 with }, stageInv_closed hclose hat.2.2⟩
    | reconciled pollAt count | split occurredAt kind =>
      rw [hpoll] at hat
      exact hat

theorem pollerInv_dropFailed : PollerInv owner { s with closing := none } :=
  { hinv with
    closing := nofun
    poll := pollInv_of_le hinv.poll le_rfl rfl rfl nofun }

theorem pollerInv_stop : PollerInv owner { s with stopped := true } :=
  { hinv with poll := pollInv_of_le hinv.poll le_rfl rfl rfl fun _ hc => hc }

theorem pollerInv_drop (hpoll : s.poll.sessionsWritten) :
    PollerInv owner s.closeOpenSessions where
  __ := hinv
  lastPoll t ht := by cases ht
  seen e v hget := by cases hget
  closing c hc := by
    cases hc
    refine ⟨?_, nofun⟩
    cases hlast : s.lastSuccessfulPollAt with
    | none => exact le_rfl
    | some t => exact hinv.lastPoll t hlast
  poll := by
    have hat := hinv.poll
    show PollInv owner _ s.poll
    cases hstage : s.poll with
    | idle => trivial
    | snapshot _ _ | reconcile _ _ =>
      rw [hstage] at hpoll
      cases hpoll
    | reconciled _ _ | split _ _ =>
      rw [hstage] at hat
      exact hat

theorem pollerInv_tick (target : Target) (pollAt : Int) (count : Nat)
    (seedLayer : Bool) :
    PollerInv owner (s.tickStep target pollAt count s.clock seedLayer) := by
  unfold tickStep
  refine { hinv with poll := ?_ }
  dsimp only
  split
  · trivial
  · exact le_rfl

variable [DecidableEq P] {onlineIds : JsMap P E}

theorem pollerInv_closeAbsent (hpoll : s.poll = .reconcile input (.close onlineIds))
    (poll : Poll P E S) (hnext : PollInv owner
      { s with rows := closeAbsent input.pollAt onlineIds s.rows, poll := poll } poll) :
    PollerInv owner
      { s with rows := closeAbsent input.pollAt onlineIds s.rows, poll := poll } := by
  obtain ⟨hflight, hroster, _, hlisted⟩ := hinv.pollInv hpoll
  have hclose := @closesTo_closeAbsent P E s.rows _ input.pollAt onlineIds hflight.past
  refine
    { hinv with
      rows := hinv.rows.closed hclose
      past := hinv.past.closed hclose hflight.pollAt_le
      seen := ?_
      poll := hnext }
  intro e v hget
  refine ⟨(hinv.seen e v hget).1, (hinv.seen e v hget).2.closed hclose hinv.rows ?_⟩
  -- whoever is closed here is not on the roster, so nobody remembered stands for them
  intro r hr hkey hstop hopen
  rw [span_key] at hkey
  rw [span_stop] at hopen
  have habsent : r.playerId ∉ onlineIds.keys := by
    intro hmem
    simp [hmem, hopen] at hstop
  rw [hroster.firstSeen_eq] at hget
  obtain honline | hnone := hlisted e v hget
  · rw [hkey] at habsent
    exact absurd honline habsent
  · exact absurd hkey (hnone r hr)

variable [DecidableEq S] {ok : Bool}

theorem pollerInv_closed (hpoll : s.poll = .reconcile input (.close onlineIds))
    (hstep : s.reconcileStep input (.close onlineIds) (.closed ok) = some s') :
    PollerInv owner s' := by
  obtain ⟨hflight, hroster, hresolved, _⟩ := hinv.pollInv hpoll
  have hclose := @closesTo_closeAbsent P E s.rows _ input.pollAt onlineIds hflight.past
  simp only [reconcileStep] at hstep
  split at hstep
  · split at hstep
    · cases hstep
      have hended := pollerInv_closeAbsent hinv hpoll .idle trivial
      exact pollerInv_endReconcile hended input.onlinePlayers.length hflight.pollAt_le
    · cases hstep
      apply pollerInv_closeAbsent hinv hpoll
      have hpast := hflight.past.closed hclose le_rfl
      exact ⟨{ hflight with past := hpast }, { hroster with }, hresolved⟩
  · cases hstep
    exact pollerInv_endReconcile hinv input.onlinePlayers.length hflight.pollAt_le

theorem pollerInv_selected (hpoll : s.poll = .reconcile input (.select onlineIds))
    (hstep : s.reconcileStep input (.select onlineIds) (.selected ok) = some s') :
    PollerInv owner s' := by
  obtain ⟨hflight, hroster, hresolved⟩ := hinv.pollInv hpoll
  simp only [reconcileStep] at hstep
  split at hstep
  · cases hstep
    have hnew := insertable_toOpen hinv hflight hroster hresolved
    exact pollerInv_poll hinv ⟨{ hflight with }, { hroster with }, hnew⟩
  · cases hstep
    exact pollerInv_endReconcile hinv input.onlinePlayers.length hflight.pollAt_le

theorem pollerInv_inserted (hpoll : s.poll = .reconcile input (.insert new))
    (hstep : s.reconcileStep input (.insert new) (.inserted ok) = some s') :
    PollerInv owner s' := by
  obtain ⟨hflight, _, hnew⟩ := hinv.pollInv hpoll
  simp only [reconcileStep] at hstep
  split at hstep
  · cases hstep
    have hinserted := pollerInv_insert hinv hflight.pollAt_le hnew
    exact pollerInv_endReconcile hinserted input.onlinePlayers.length hflight.pollAt_le
  · cases hstep
    exact pollerInv_endReconcile hinv input.onlinePlayers.length hflight.pollAt_le

end Steps

/-! ## Runs -/

section Runs

variable [DecidableEq P] [DecidableEq S] {owner : E → P} {s s' : ServerPoller P E S}
  {target : Target} {event : PollerEvent P E S}

/-- The roster a poll in flight reconciles. -/
def Poll.roster : Poll P E S → List (RconPlayer E S)
  | .reconcile input _ => input.onlinePlayers
  | _ => []

/-- The condition on a step, in the state it is taken in.  A roster entry stands for the same
player throughout, no teardown begins inside a poll, and when a teardown closes the
sessions none of them was opened after the instant it closes them at. -/
def Meets (owner : E → P) (s : ServerPoller P E S) : PollerEvent P E S → Prop
  | .resolved (some table) => ∀ p ∈ s.poll.roster, StandsFor owner s.rows table p
  | .drop _ => s.poll.sessionsWritten
  | .dropClosed true =>
    ∀ c ∈ s.closing, ∀ r ∈ s.rows, r.disconnectedAt = none → r.connectedAt ≤ c
  | _ => True

instance (owner : E → P) (rows : List (SessionRow P)) (table : List (PlayerRow P E S))
    (p : RconPlayer E S) : Decidable (StandsFor owner rows table p) := by
  unfold StandsFor
  infer_instance

instance (owner : E → P) (s : ServerPoller P E S) (event : PollerEvent P E S) :
    Decidable (Meets owner s event) := by
  unfold Meets
  split <;> infer_instance

theorem pollerInv_reconcileStep {input : ReconcileInput E S} {stage : ReconcileStage P E}
    (hinv : PollerInv owner s) (hmeets : Meets owner s event)
    (hpoll : s.poll = .reconcile input stage)
    (hstep : s.reconcileStep input stage event = some s') : PollerInv owner s' := by
  obtain ⟨hflight, hroster, _⟩ := hinv.pollInv hpoll
  unfold reconcileStep at hstep
  split at hstep
  · cases hstep
    exact pollerInv_endReconcile hinv _ hflight.pollAt_le
  · rename_i table _
    cases hstep
    have hstands : ∀ p ∈ input.onlinePlayers, StandsFor owner s.rows table p := by
      simpa only [Meets, hpoll, Poll.roster] using hmeets
    have hstage := stageInv_resolved hroster hstands
    exact pollerInv_poll hinv ⟨{ hflight with }, { hroster with }, hstage⟩
  · exact pollerInv_closed hinv hpoll hstep
  · exact pollerInv_selected hinv hpoll hstep
  · exact pollerInv_inserted hinv hpoll hstep
  · cases hstep

theorem pollerInv_step (hinv : PollerInv owner s)
    (hmeets : Meets owner s event) (hstep : s.step target event = some s') :
    PollerInv owner s' := by
  unfold ServerPoller.step at hstep
  split at hstep
  · next t players hidle =>
    obtain ⟨s₁, hread, heq⟩ := Option.bind_eq_some_iff.1 hstep
    cases heq
    obtain ⟨hinv₁, hclock, hpoll, _⟩ := pollerInv_read hinv hread
    rw [← hclock]
    exact pollerInv_refresh hinv₁ players (by rw [hpoll, hidle])
  · next t players hidle =>
    obtain ⟨s₁, hread, heq⟩ := Option.bind_eq_some_iff.1 hstep
    cases heq
    obtain ⟨hinv₁, hclock, _, _⟩ := pollerInv_read hinv hread
    rw [← hclock]
    exact pollerInv_poll hinv₁ { inFlight_now hinv₁ with }
  · next pollAt players hpoll =>
    cases hstep
    have hflight := hinv.poll
    rw [hpoll] at hflight
    exact pollerInv_build hinv target hflight hpoll
  · next t seedLayer pollAt count _ =>
    split at hstep
    · cases hstep
    · obtain ⟨s₁, hread, heq⟩ := Option.bind_eq_some_iff.1 hstep
      cases heq
      obtain ⟨hinv₁, hclock, _, _⟩ := pollerInv_read hinv hread
      rw [← hclock]
      exact pollerInv_tick hinv₁ target pollAt count seedLayer
  · cases hstep
    exact pollerInv_poll hinv trivial
  · next ok occurredAt kind hpoll =>
    cases hstep
    have hat := hinv.poll
    rw [hpoll] at hat
    cases ok with
    | true => exact pollerInv_split hinv kind hat
    | false => exact pollerInv_poll hinv trivial
  · split at hstep
    · obtain ⟨s₁, hread, rfl⟩ := Option.map_eq_some_iff.1 hstep
      obtain ⟨hinv₁, _, hpoll, _⟩ := pollerInv_read hinv hread
      exact pollerInv_drop hinv₁ (by rw [hpoll]; exact hmeets)
    · cases hstep
  · next ok =>
    obtain ⟨c, hclosing, rfl⟩ := Option.map_eq_some_iff.1 hstep
    cases ok with
    | true => exact pollerInv_dropClosed hinv hclosing (hmeets c hclosing)
    | false =>
      exact pollerInv_dropFailed hinv
  · cases hstep
    exact pollerInv_stop hinv
  · cases hstep
    exact pollerInv_start hinv.rows hinv.past _
  · next hpoll =>
    exact pollerInv_reconcileStep hinv hmeets hpoll hstep
  · cases hstep

/-- The states reached by steps that all meet the condition. -/
abbrev SafelyReaches (target : Target) (owner : E → P) (s₀ s : ServerPoller P E S) : Prop :=
  Machine.Reaches (ServerPoller.step target) (Meets owner) s₀ s

end Runs

/-! ## The sessions of a player -/

/-- The row counts the instant as play time. -/
def SessionRow.Covers (r : SessionRow P) (t : Int) : Prop :=
  r.connectedAt ≤ t ∧ ∀ d ∈ r.disconnectedAt, t < d

instance (r : SessionRow P) (t : Int) : Decidable (r.Covers t) := by
  unfold SessionRow.Covers
  infer_instance

/-- The sessions a player has open. -/
def openSessions [DecidableEq P] (rows : List (SessionRow P)) (playerId : P) :
    List (SessionRow P) :=
  rows.filter fun r => r.playerId = playerId ∧ r.disconnectedAt = none

/-- No player has two open sessions, no two sessions of a player overlap in time, and no
session ends before it starts. -/
structure SessionsSound [DecidableEq P] (rows : List (SessionRow P)) : Prop where
  oneOpen : ∀ playerId, (openSessions rows playerId).length ≤ 1
  noOverlap : rows.Pairwise fun r r' =>
    r.playerId = r'.playerId → ∀ t, ¬ (r.Covers t ∧ r'.Covers t)
  forward : ∀ r ∈ rows, ∀ d ∈ r.disconnectedAt, r.connectedAt ≤ d

theorem not_covers_of_endsBy {r r' : SessionRow P} (hends : EndsBy r.span r'.span.start)
    (t : Int) : ¬ (r.Covers t ∧ r'.Covers t) := by
  rintro ⟨hcovers, hcovers'⟩
  obtain ⟨d, hstop, hd⟩ := hends
  have hlt : t < d := hcovers.2 d hstop
  have hle : r'.connectedAt ≤ t := hcovers'.1
  rw [span_start] at hd
  omega

theorem length_le_one_of_pairwise_false {α : Type} {xs : List α}
    (hpairs : xs.Pairwise fun _ _ => False) : xs.length ≤ 1 := by
  match xs, hpairs with
  | [], _ => exact Nat.zero_le 1
  | [_], _ => exact le_rfl
  | _ :: y :: _, hpairs => exact absurd (rel_of_pairwise_cons hpairs mem_cons_self) id

theorem sessionsSound_of_wellFormed [DecidableEq P] {rows : List (SessionRow P)}
    (hrows : SessionsWellFormed rows) : SessionsSound rows where
  oneOpen := by
    intro playerId
    apply length_le_one_of_pairwise_false
    refine (hrows.apart.filter _).imp_of_mem ?_
    intro r r' hr hr' hapart
    have hmine := (mem_filter.1 hr).2
    have hmine' := (mem_filter.1 hr').2
    simp only [decide_eq_true_eq] at hmine hmine'
    have hkey : r.span.key = r'.span.key := hmine.1.trans hmine'.1.symm
    exact not_endsBy_of_open hmine'.2 (hapart.endsBy hkey hmine.2)
  noOverlap := by
    refine hrows.apart.imp ?_
    intro r r' hapart hkey t hboth
    obtain hends | hends := hapart hkey
    · exact not_covers_of_endsBy hends t hboth
    · exact not_covers_of_endsBy hends t hboth.symm
  forward := hrows.forward

/-- In every run whose steps meet the condition, from a freshly started poller over a sound
table, the sessions stay sound. -/
theorem sessionsSound_of_safelyReaches [DecidableEq P] [DecidableEq S] (target : Target)
    (owner : E → P) {clock : Int} {rows : List (SessionRow P)} (prior : Option SeedingState)
    (hrows : SessionsWellFormed rows) (hpast : Past SessionRow.span rows clock)
    {s : ServerPoller P E S}
    (hreach : SafelyReaches target owner (ServerPoller.start clock rows prior) s) :
    SessionsSound s.rows := by
  have hinv : PollerInv owner s := by
    apply Machine.invariant_of_reaches (pollerInv_start hrows hpast prior) _ hreach
    intro s e s' _ hmeets hinv hstep
    exact pollerInv_step hinv hmeets hstep
  exact sessionsSound_of_wellFormed hinv.rows

/-! ### A server with one player -/

def sampleTarget : Target := ⟨30000, 60, 5⟩

def sampleStart : ServerPoller Nat Nat Nat := .start 0 [] none

/-- Player 1 is known by EOS id 7. -/
def sampleTable : List (PlayerRow Nat Nat Nat) := [⟨1, some 7, none⟩]

/-- A poll that finds the player, up to the `SELECT` of open sessions. -/
def samplePoll (t : Int) : List (PollerEvent Nat Nat Nat) :=
  [.snapshot t [⟨7, none⟩], .build, .resolved (some sampleTable), .closed true, .selected true]

/-- The first poll opens a session, the seeding transition splits it, and the connection goes
away after the next poll. -/
def sampleEvents : List (PollerEvent Nat Nat Nat) :=
  samplePoll 0 ++ [PollerEvent.inserted true, .tick 5 false, .split true] ++
    samplePoll 30000 ++ [PollerEvent.finish, .drop 30001, .dropClosed true]

theorem sessionsSound_sampleEvents :
    ∃ s, SafelyReaches sampleTarget (fun _ => 1) sampleStart s ∧ s.rows.length = 2 ∧
      SessionsSound s.rows := by
  have hrun : (Machine.run (ServerPoller.step sampleTarget) (Meets fun _ => 1) sampleStart
      sampleEvents).map (fun s => s.rows.length) = some 2 := by
    decide +kernel
  obtain ⟨s, hreach, hlength⟩ := Machine.reaches_of_map_run hrun
  refine ⟨s, hreach, hlength, ?_⟩
  apply sessionsSound_of_safelyReaches sampleTarget (fun _ => 1) none _ _ hreach
  · exact ⟨by simp, List.Pairwise.nil⟩
  · intro r hr
    cases hr

/-- Three runs: the connection goes away right after the split; it goes away inside a poll;
the player's row is missing from one poll's query. -/
theorem not_sessionsSound_samples :
    (∃ s, sampleStart.run sampleTarget (samplePoll 0 ++ [PollerEvent.inserted true, .tick 5 false,
        .split true, .drop 10, .dropClosed true]) = some s ∧ ¬ SessionsSound s.rows) ∧
    (∃ s, sampleStart.run sampleTarget (samplePoll 0 ++ [PollerEvent.inserted true, .finish] ++
        samplePoll 30000 ++ [PollerEvent.finish, .snapshot 60000 [⟨7, none⟩], .build, .drop 60001,
          .dropClosed true, .resolved (some sampleTable), .closed true, .selected true,
          .inserted true]) = some s ∧ ¬ SessionsSound s.rows) ∧
    (∃ s, sampleStart.run sampleTarget (samplePoll 0 ++ [PollerEvent.inserted true, .finish,
        .snapshot 30000 [⟨7, none⟩], .build, .resolved (some []), .closed true, .finish] ++
        samplePoll 60000 ++ [PollerEvent.inserted true]) = some s ∧ ¬ SessionsSound s.rows) := by
  have hbackwards {events : List (PollerEvent Nat Nat Nat)}
      (hrun : (sampleStart.run sampleTarget events).map (fun s =>
        decide (∀ r ∈ s.rows, ∀ d ∈ r.disconnectedAt, r.connectedAt ≤ d)) = some false) :
      ∃ s, sampleStart.run sampleTarget events = some s ∧ ¬ SessionsSound s.rows := by
    obtain ⟨s, hs, hfalse⟩ := Option.map_eq_some_iff.1 hrun
    exact ⟨s, hs, fun hsound => of_decide_eq_false hfalse hsound.forward⟩
  -- both sessions cover instant 0
  have hoverlap {events : List (PollerEvent Nat Nat Nat)}
      (hrun : (sampleStart.run sampleTarget events).map (fun s =>
        decide (s.rows.Pairwise fun r r' =>
          r.playerId = r'.playerId → ¬ (r.Covers 0 ∧ r'.Covers 0))) = some false) :
      ∃ s, sampleStart.run sampleTarget events = some s ∧ ¬ SessionsSound s.rows := by
    obtain ⟨s, hs, hfalse⟩ := Option.map_eq_some_iff.1 hrun
    refine ⟨s, hs, fun hsound => of_decide_eq_false hfalse ?_⟩
    exact hsound.noOverlap.imp fun hpair hkey => hpair hkey 0
  exact ⟨hbackwards (by decide +kernel), hoverlap (by decide +kernel),
    hoverlap (by decide +kernel)⟩

end SquadPanel.Presence
