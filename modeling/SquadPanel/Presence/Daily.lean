import SquadPanel.Presence.Sessions

/-!
# Sessions by UTC day

A session's seconds are split over the UTC days it touches, in the worker by a loop and in the
database by one expression for each day (`packages/db/src/presence/daily.ts`).  Instants are in
milliseconds, and a day is its number since the epoch.
-/

namespace SquadPanel.Presence

def DAY_MS : Int := 86400000

/-- The UTC day of an instant. -/
def utcDayKey (instant : Int) : Int := instant / DAY_MS

structure DaySegment where
  day : Int
  seconds : Int
  deriving DecidableEq

/-- The rounds of the loop from a cursor. -/
def splitFrom (startMs endMs cursorMs carriedOffsetSeconds : Int) : List DaySegment :=
  if cursorMs < endMs then
    let nextMidnightMs := (cursorMs / DAY_MS + 1) * DAY_MS
    let segmentEndMs := min nextMidnightMs endMs
    let offsetSeconds := (segmentEndMs - startMs) / 1000
    let seconds := offsetSeconds - carriedOffsetSeconds
    let segments := splitFrom startMs endMs segmentEndMs offsetSeconds
    if 0 < seconds then ⟨utcDayKey cursorMs, seconds⟩ :: segments else segments
  else []
termination_by (endMs - cursorMs).toNat
decreasing_by
  unfold DAY_MS at *
  omega

def splitSessionSecondsByUtcDay (connectedAt endAt : Int) : List DaySegment :=
  if endAt ≤ connectedAt then [] else splitFrom connectedAt endAt connectedAt 0

/-- The seconds of a day in the query of `recomputeDailyPresence`. -/
def daySeconds (connectedAt endAt day : Int) : Int :=
  (min endAt ((day + 1) * DAY_MS) - connectedAt) / 1000 -
    (max connectedAt (day * DAY_MS) - connectedAt) / 1000

/-- `generate_series`: the days that get a row. -/
def InSeries (connectedAt endAt day : Int) : Prop :=
  connectedAt / DAY_MS ≤ day ∧ day ≤ endAt / DAY_MS

instance (connectedAt endAt day : Int) : Decidable (InSeries connectedAt endAt day) :=
  inferInstanceAs (Decidable (_ ∧ _))

/-- The seconds the query gives a day, zero without a row. -/
def sqlSeconds (connectedAt endAt day : Int) : Int :=
  if InSeries connectedAt endAt day then daySeconds connectedAt endAt day else 0

variable {start stop : Int}

theorem sqlSeconds_bounds (hlt : start < stop) (day : Int) :
    0 ≤ sqlSeconds start stop day ∧ sqlSeconds start stop day ≤ 86400 := by
  unfold sqlSeconds InSeries daySeconds DAY_MS
  omega

theorem lt_of_sqlSeconds_pos {day : Int} (hpos : 0 < sqlSeconds start stop day) :
    start / DAY_MS ≤ day ∧ day * DAY_MS < stop := by
  unfold sqlSeconds InSeries daySeconds DAY_MS at *
  omega

/-- From a cursor at the start, at a midnight or at the end, the loop reports the days with
seconds that are left. -/
theorem splitFrom_spec (cursor : Int) (hstart : start ≤ cursor) (hstop : cursor ≤ stop)
    (hcursor : cursor = start ∨ cursor % DAY_MS = 0 ∨ cursor = stop) : ∃ days : List Int,
      splitFrom start stop cursor ((cursor - start) / 1000) =
        days.map (fun day => ⟨day, sqlSeconds start stop day⟩) ∧
      days.Pairwise (· < ·) ∧
      (∀ day, day ∈ days ↔ cursor / DAY_MS ≤ day ∧ cursor < stop ∧ 0 < sqlSeconds start stop day) ∧
      (days.map (sqlSeconds start stop)).sum = (stop - start) / 1000 - (cursor - start) / 1000 := by
  induction hn : (stop - cursor).toNat using Nat.strong_induction_on generalizing cursor with
  | _ n ih =>
    by_cases hlt : cursor < stop
    · obtain ⟨days, hdays, hsorted, hmem, hsum⟩ := ih _ (by unfold DAY_MS; omega)
        (min ((cursor / DAY_MS + 1) * DAY_MS) stop) (by unfold DAY_MS; omega) (by omega)
        (by unfold DAY_MS; omega) rfl
      have hfirst : (min ((cursor / DAY_MS + 1) * DAY_MS) stop - start) / 1000 -
          (cursor - start) / 1000 = sqlSeconds start stop (cursor / DAY_MS) := by
        unfold sqlSeconds InSeries daySeconds DAY_MS at *
        omega
      -- after the last piece only the day that starts at the end is left, and it has no seconds
      have hlater (day : Int) :
          day ∈ days ↔ cursor / DAY_MS < day ∧ 0 < sqlSeconds start stop day := by
        rw [hmem]
        constructor
        · rintro ⟨hle, hnext, hpos⟩
          unfold DAY_MS at *
          exact ⟨by omega, hpos⟩
        · rintro ⟨hafter, hpos⟩
          have hbegun := (lt_of_sqlSeconds_pos hpos).2
          unfold DAY_MS at *
          exact ⟨by omega, by omega, hpos⟩
      rw [splitFrom, if_pos hlt]
      dsimp only
      rw [hfirst, hdays]
      split
      · next hpos =>
        refine ⟨cursor / DAY_MS :: days, rfl, hsorted.cons fun day hin => ((hlater day).1 hin).1,
          fun day => ?_, ?_⟩
        · rw [List.mem_cons, hlater]
          grind
        · rw [List.map_cons, List.sum_cons, hsum]
          omega
      · next hzero =>
        refine ⟨days, rfl, hsorted, fun day => ?_, ?_⟩
        · rw [hlater]
          grind
        · have hbounds := sqlSeconds_bounds (by omega : start < stop) (cursor / DAY_MS)
          omega
    · rw [splitFrom, if_neg hlt]
      obtain rfl : cursor = stop := by omega
      exact ⟨[], rfl, .nil, by simp, by simp⟩

structure PlayerSession (P S I : Type) where
  id : I
  playerId : P
  serverId : S
  connectedAt : Int
  disconnectedAt : Option Int
  mode : SessionMode

/-- The columns of `player_daily_presence` besides its key. -/
structure DailyPresence where
  onlineSeconds : Int
  boostSeconds : Int
  queueSeconds : Int
  seedSeconds : Int
  sessionCount : Nat
  deriving DecidableEq

/-- The rows by player, server and day. -/
abbrev DailyTable (P S : Type) : Type := P → S → Int → Option DailyPresence

def SESSION_PRUNE_LOOKBACK_SECONDS : Int := 2 * 86400

section
variable {P S I : Type} (session : PlayerSession P S I)

/-- `COALESCE(disconnected_at, now)` -/
def PlayerSession.endAt (now : Int) : Int :=
  session.disconnectedAt.getD now

/-- The sessions the query looks at for a window of days. -/
def PlayerSession.InWindow (now fromDay toDay : Int) : Prop :=
  session.connectedAt < (toDay + 1) * DAY_MS ∧ fromDay * DAY_MS < session.endAt now ∧
    (fromDay * DAY_MS - SESSION_PRUNE_LOOKBACK_SECONDS * 1000 ≤ session.connectedAt ∨
      session.disconnectedAt = none)

instance (session : PlayerSession P S I) (now fromDay toDay : Int) :
    Decidable (session.InWindow now fromDay toDay) := inferInstanceAs (Decidable (_ ∧ _ ∧ _))

def PlayerSession.secondsOn (now day : Int) : Int :=
  sqlSeconds session.connectedAt (session.endAt now) day

/-- No closed session lasts longer than the lookback. -/
def WithinLookback (sessions : List (PlayerSession P S I)) : Prop :=
  ∀ session ∈ sessions, ∀ disconnectedAt ∈ session.disconnectedAt,
    disconnectedAt - session.connectedAt ≤ SESSION_PRUNE_LOOKBACK_SECONDS * 1000

variable [DecidableEq P] [DecidableEq S] [DecidableEq I] (sessions : List (PlayerSession P S I))
  (now fromDay toDay : Int)

/-- The sessions of a group: one player, one server and one day. -/
def groupOf (p : P) (s : S)
    (day : Int) : List (PlayerSession P S I) :=
  sessions.filter fun session => session.playerId = p ∧ session.serverId = s ∧
    session.InWindow now fromDay toDay ∧ 0 < session.secondsOn now day

def dailyRow (now day : Int) (group : List (PlayerSession P S I)) : Option DailyPresence :=
  let sum (mode : SessionMode) :=
    ((group.filter (·.mode = mode)).map (·.secondsOn now day)).sum
  if group = [] then none
  else some ⟨sum .online, sum .boost, sum .queue, sum .seed, (group.map (·.id)).dedup.length⟩

def recomputeDailyPresence (table : DailyTable P S) : DailyTable P S :=
  if toDay < fromDay then table
  else fun p s day =>
    if fromDay ≤ day ∧ day ≤ toDay then
      dailyRow now day (groupOf sessions now fromDay toDay p s day)
    else table p s day

variable {sessions : List (PlayerSession P S I)} (hclosed : WithinLookback sessions) (now : Int)
include hclosed

omit [DecidableEq P] [DecidableEq S] [DecidableEq I] in
/-- A session with seconds on a day is looked at in every window with that day. -/
theorem inWindow_of_secondsOn {session : PlayerSession P S I} (hsession : session ∈ sessions)
    {fromDay toDay day : Int} (hfrom : fromDay ≤ day) (hto : day ≤ toDay)
    (hpos : 0 < session.secondsOn now day) : session.InWindow now fromDay toDay := by
  obtain ⟨hstart, hbegun⟩ := lt_of_sqlSeconds_pos hpos
  have hlong := hclosed session hsession
  unfold PlayerSession.InWindow PlayerSession.endAt SESSION_PRUNE_LOOKBACK_SECONDS DAY_MS at *
  cases hdone : session.disconnectedAt with
  | none =>
    rw [hdone] at hbegun
    exact ⟨by omega, by omega, .inr rfl⟩
  | some disconnectedAt =>
    have hlong := hlong disconnectedAt hdone
    rw [hdone] at hbegun
    dsimp only [Option.getD_some] at *
    exact ⟨by omega, by omega, .inl (by omega)⟩

/-- What a window makes of a day does not depend on the window. -/
theorem recomputeDailyPresence_apply (fromDay toDay : Int) (table : DailyTable P S) (p : P) (s : S)
    (day : Int) : recomputeDailyPresence sessions now fromDay toDay table p s day =
      if fromDay ≤ day ∧ day ≤ toDay then dailyRow now day (groupOf sessions now day day p s day)
      else table p s day := by
  unfold recomputeDailyPresence
  by_cases hempty : toDay < fromDay
  · rw [if_pos hempty, if_neg (by omega)]
  · rw [if_neg hempty]
    refine ite_congr rfl (fun hin => ?_) fun _ => rfl
    refine congrArg _ (List.filter_congr fun session hsession => decide_eq_decide.2 ?_)
    refine and_congr_right fun _ => and_congr_right fun _ => and_congr_left fun hpos => ?_
    exact iff_of_true (inWindow_of_secondsOn hclosed now hsession hin.1 hin.2 hpos)
      (inWindow_of_secondsOn hclosed now hsession (Int.le_refl _) (Int.le_refl _) hpos)

theorem foldl_recompute_apply (order : List Int) (table : DailyTable P S) (p : P) (s : S)
    (day : Int) :
    order.foldl (fun table day => recomputeDailyPresence sessions now day day table) table p s day =
      if day ∈ order then dailyRow now day (groupOf sessions now day day p s day)
      else table p s day := by
  induction order generalizing table with
  | nil => rfl
  | cons first order ih =>
    rw [List.foldl_cons, ih, recomputeDailyPresence_apply hclosed]
    have hsingle : (first ≤ day ∧ day ≤ first) ↔ day = first := by omega
    split <;> simp_all

omit hclosed in
/-- A window is as good as its days one by one in any order, touches no other day, and settles. -/
theorem recompute_by_day (sessions : List (PlayerSession P S I)) (now fromDay toDay : Int)
    (table : DailyTable P S) (hclosed : WithinLookback sessions) :
    (∀ order : List Int, (∀ day, day ∈ order ↔ fromDay ≤ day ∧ day ≤ toDay) →
      order.foldl (fun table day => recomputeDailyPresence sessions now day day table) table =
        recomputeDailyPresence sessions now fromDay toDay table) ∧
    (∀ p s day, ¬ (fromDay ≤ day ∧ day ≤ toDay) →
      recomputeDailyPresence sessions now fromDay toDay table p s day = table p s day) ∧
    recomputeDailyPresence sessions now fromDay toDay
        (recomputeDailyPresence sessions now fromDay toDay table) =
      recomputeDailyPresence sessions now fromDay toDay table := by
  have happly := recomputeDailyPresence_apply hclosed now fromDay toDay
  refine ⟨fun order horder => ?_, fun p s day hout => ?_, ?_⟩
  · funext p s day
    rw [foldl_recompute_apply hclosed, happly]
    exact if_congr (horder day) rfl rfl
  · rw [happly, if_neg hout]
  · funext p s day
    rw [happly, happly]
    split <;> rfl

end

/-- Seeding over midnight, and an open session. -/
def sampleSessions : List (PlayerSession Nat Nat Nat) :=
  [⟨1, 1, 1, 86000000, some 87000000, .seed⟩, ⟨2, 1, 1, 90000000, none, .online⟩]

theorem recompute_by_day_sample : [1, 0].foldl
      (fun table day => recomputeDailyPresence sampleSessions 90005000 day day table)
      (fun _ _ _ => none) =
    recomputeDailyPresence sampleSessions 90005000 0 1 (fun _ _ _ => none) ∧
      recomputeDailyPresence sampleSessions 90005000 0 1 (fun _ _ _ => none) 1 1 1 =
        some ⟨5, 0, 0, 600, 2⟩ := by
  refine ⟨(recompute_by_day sampleSessions 90005000 0 1 (fun _ _ _ => none) ?_).1 [1, 0] ?_,
    by decide⟩
  · unfold WithinLookback
    decide
  · intro day
    simp only [List.mem_cons, List.not_mem_nil, or_false]
    omega

end SquadPanel.Presence
