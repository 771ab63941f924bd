import SquadPanel.Presence.Seeding
import Mathlib.Data.List.Pairwise

/-!
# Seeding windows

The tracker of a server stores when it started and stopped seeding.  The daily
accrual rebuilds from these transitions the windows in which the server was
seeding, and they are exactly the seconds the tracker was seeding in.
-/

namespace SquadPanel.Economy

open Presence List

structure SeedingTransitionEvent where
  type : SeedingTransition
  atSec : Int
deriving DecidableEq, Repr

structure SeedingWindow where
  startSec : Int
  endSec : Int
deriving DecidableEq, Repr

def SeedingWindow.Covers (window : SeedingWindow) (t : Int) : Prop :=
  window.startSec ≤ t ∧ t < window.endSec

/-- A window is pushed unless it is empty. -/
def pushWindow (startSec endSec : Int) : List SeedingWindow :=
  if startSec < endSec then [⟨startSec, endSec⟩] else []

section Windows
variable (dayStartSec dayEndSec : Int)

/-- A window that is still open after the loop ends with the day. -/
def closeWindow (seeding : Bool) (openStart : Option Int) : List SeedingWindow :=
  if seeding then pushWindow (openStart.getD dayStartSec) dayEndSec else []

/-- The loop over the transitions, from its variables `seeding` and `openStart` on. -/
def windowsFrom (seeding : Bool) (openStart : Option Int) :
    List SeedingTransitionEvent → List SeedingWindow
  | [] => closeWindow dayStartSec dayEndSec seeding openStart
  | transition :: rest =>
    if transition.atSec < dayStartSec then
      windowsFrom (transition.type = .started) openStart rest
    else if dayEndSec < transition.atSec then
      closeWindow dayStartSec dayEndSec seeding openStart
    else
      match transition.type with
      | .started =>
        if seeding then windowsFrom seeding openStart rest
        else windowsFrom true (some (max transition.atSec dayStartSec)) rest
      | .ended =>
        if seeding then
          let start := openStart.getD dayStartSec
          pushWindow start (min (max transition.atSec start) dayEndSec) ++
            windowsFrom false none rest
        else windowsFrom seeding openStart rest

variable (transitions : List SeedingTransitionEvent)

def computeSeedingWindows : List SeedingWindow :=
  windowsFrom dayStartSec dayEndSec false none transitions

/-- The rows of the two queries: the latest transition before the day, then those of the day. -/
def dayTransitions : List SeedingTransitionEvent :=
  (transitions.filter (·.atSec < dayStartSec)).getLast?.toList ++
    transitions.filter fun transition =>
      dayStartSec ≤ transition.atSec ∧ transition.atSec < dayEndSec

/-- The windows of a day, up to now if the day is not over. -/
def seedingWindows (nowSec : Int) (transitions : List SeedingTransitionEvent) :
    List SeedingWindow :=
  computeSeedingWindows dayStartSec (min dayEndSec nowSec)
    (dayTransitions dayStartSec dayEndSec transitions)

end Windows

/-! ## The tracker -/

def isSeeding (state : Option SeedingState) : Bool :=
  state.any (·.state = .seeding)

/-- The transitions stored over a run of polls.  Polls are timed in milliseconds. -/
def pollTransitions : Option SeedingState → List SeedingTickInput → List SeedingTransitionEvent
  | _, [] => []
  | prev, input :: rest =>
    let tick := computeSeedingTick prev input
    (tick.2.map fun type => ⟨type, input.now / 1000⟩).toList ++ pollTransitions (some tick.1) rest

/-- The tracker's state at second `t`: all polls up to this second have been made. -/
def trackedAt (t : Int) (prev : Option SeedingState) (polls : List SeedingTickInput) :
    Option SeedingState :=
  (polls.filter (·.now / 1000 ≤ t)).foldl (fun prev input => (computeSeedingTick prev input).1) prev

/-- A transition tells the state it leads to, and without one the state stays. -/
theorem isSeeding_computeSeedingTick (prev : Option SeedingState) (input : SeedingTickInput) :
    isSeeding (computeSeedingTick prev input).1 =
      ((computeSeedingTick prev input).2.map fun type => decide (type = .started)).getD
        (isSeeding prev) := by
  rcases prev with _ | ⟨_ | _, startedAt, currentPlayers, liveAt, updatedAt⟩
  all_goals
    simp only [computeSeedingTick]
    split <;> rfl

/-! ## What transitions say of an instant -/

/-- Whether the server is seeding at `t`, by the latest transition up to then. -/
def seedingAt (t : Int) (seeding : Bool) (transitions : List SeedingTransitionEvent) : Bool :=
  ((transitions.filter (·.atSec ≤ t)).getLast?.map fun last => decide (last.type = .started)).getD
    seeding

/-- The transitions are stored in the order they happened in. -/
def InOrder (transitions : List SeedingTransitionEvent) : Prop :=
  transitions.Pairwise fun a b => a.atSec ≤ b.atSec

variable {transitions : List SeedingTransitionEvent} {transition : SeedingTransitionEvent} {t : Int}
  {seeding : Bool} {prev : Option SeedingState} {polls : List SeedingTickInput}
  {dayStartSec dayEndSec : Int} {openStart : Option Int}

theorem seedingAt_of_later (hlater : ∀ transition ∈ transitions, t < transition.atSec) :
    seedingAt t seeding transitions = seeding := by
  have hnone : transitions.filter (·.atSec ≤ t) = [] :=
    filter_eq_nil_iff.2 fun later hmem => by simpa using hlater later hmem
  rw [seedingAt, hnone]
  rfl

theorem seedingAt_cons : seedingAt t seeding (transition :: transitions) =
      seedingAt t (if transition.atSec ≤ t then transition.type = .started else seeding)
        transitions := by
  by_cases hle : transition.atSec ≤ t
  · simp only [seedingAt, filter_cons, hle, decide_true, if_true, getLast?_cons]
    cases (transitions.filter (·.atSec ≤ t)).getLast? <;> rfl
  · simp only [seedingAt, filter_cons, hle, decide_false, Bool.false_eq_true, if_false]

theorem atSec_of_mem_pollTransitions (hmem : transition ∈ pollTransitions prev polls) :
    ∃ input ∈ polls, transition.atSec = input.now / 1000 := by
  induction polls generalizing prev with
  | nil => cases hmem
  | cons input rest ih =>
    rcases mem_append.1 hmem with hnow | hlater
    · obtain ⟨type, -, rfl⟩ := Option.map_eq_some_iff.1 (Option.mem_toList.1 hnow)
      exact ⟨input, mem_cons_self, rfl⟩
    · obtain ⟨input', hin, hat⟩ := ih hlater
      exact ⟨input', mem_cons_of_mem _ hin, hat⟩

theorem inOrder_pollTransitions (hordered : polls.Pairwise fun a b => a.now / 1000 ≤ b.now / 1000) :
    InOrder (pollTransitions prev polls) := by
  induction polls generalizing prev with
  | nil => exact List.Pairwise.nil
  | cons input rest ih =>
    simp only [pollTransitions]
    cases (computeSeedingTick prev input).2 with
    | none => exact ih hordered.of_cons
    | some type =>
      refine pairwise_cons.2 ⟨fun later hlater => ?_, ih hordered.of_cons⟩
      obtain ⟨input', hin, hat⟩ := atSec_of_mem_pollTransitions hlater
      exact hat ▸ rel_of_pairwise_cons hordered hin

theorem seedingAt_pollTransitions
    (hordered : polls.Pairwise fun a b => a.now / 1000 ≤ b.now / 1000) :
    seedingAt t (isSeeding prev) (pollTransitions prev polls) =
      isSeeding (trackedAt t prev polls) := by
  induction polls generalizing prev with
  | nil => rfl
  | cons input rest ih =>
    by_cases hle : input.now / 1000 ≤ t
    · have htracked : trackedAt t prev (input :: rest) =
          trackedAt t (computeSeedingTick prev input).1 rest := by
        simp only [trackedAt, filter_cons, hle, decide_true, if_true, foldl_cons]
      rw [htracked, ← ih hordered.of_cons, isSeeding_computeSeedingTick, pollTransitions]
      cases (computeSeedingTick prev input).2 with
      | none => rfl
      | some type =>
        rw [Option.map_some, Option.toList_some, singleton_append, seedingAt_cons, if_pos hle]
        rfl
    · -- the poll and all later ones are still to come
      have hlater : ∀ input' ∈ input :: rest, t < input'.now / 1000 := by
        intro input' hmem
        rcases mem_cons.1 hmem with rfl | hrest
        · omega
        · have := rel_of_pairwise_cons hordered hrest
          omega
      have hnone : (input :: rest).filter (·.now / 1000 ≤ t) = [] :=
        filter_eq_nil_iff.2 fun input' hmem => by simpa using hlater input' hmem
      rw [trackedAt, hnone, foldl_nil]
      refine seedingAt_of_later fun transition hmem => ?_
      obtain ⟨input', hin, hat⟩ := atSec_of_mem_pollTransitions hmem
      exact hat ▸ hlater input' hin

/-! ## The rows of one day -/

theorem filter_le_eq_append (horder : InOrder transitions) (hstart : dayStartSec ≤ t) :
    transitions.filter (·.atSec ≤ t) = transitions.filter (·.atSec < dayStartSec) ++
      transitions.filter fun later => dayStartSec ≤ later.atSec ∧ later.atSec ≤ t := by
  induction transitions with
  | nil => rfl
  | cons transition rest ih =>
    by_cases hbefore : transition.atSec < dayStartSec
    · have hle : transition.atSec ≤ t := by omega
      simp only [filter_cons, hbefore, hle, Int.not_le.2 hbefore, false_and, decide_true,
        decide_false, if_true, Bool.false_eq_true, if_false, ih horder.of_cons, cons_append]
    · -- from here on no transition is before the day
      have hin : ∀ later ∈ transition :: rest, dayStartSec ≤ later.atSec := by
        intro later hmem
        rcases mem_cons.1 hmem with rfl | hrest
        · omega
        · have := rel_of_pairwise_cons horder hrest
          omega
      have hnone : (transition :: rest).filter (·.atSec < dayStartSec) = [] :=
        filter_eq_nil_iff.2 fun later hmem => by simpa using hin later hmem
      rw [hnone, nil_append]
      exact filter_congr fun later hmem => by simp [hin later hmem]

/-- The rows of the day say of its instants what all transitions say. -/
theorem seedingAt_dayTransitions (horder : InOrder transitions) (hstart : dayStartSec ≤ t)
    (hend : t < dayEndSec) :
    seedingAt t seeding (dayTransitions dayStartSec dayEndSec transitions) =
      seedingAt t seeding transitions := by
  have hpre : ((transitions.filter (·.atSec < dayStartSec)).getLast?.toList).filter
      (·.atSec ≤ t) = (transitions.filter (·.atSec < dayStartSec)).getLast?.toList := by
    refine filter_eq_self.2 fun last hlast => ?_
    have hlt := (mem_filter.1 (mem_of_getLast? (Option.mem_toList.1 hlast))).2
    simp only [decide_eq_true_eq] at hlt ⊢
    omega
  have hday : (transitions.filter fun later =>
      dayStartSec ≤ later.atSec ∧ later.atSec < dayEndSec).filter (·.atSec ≤ t) =
      transitions.filter fun later => dayStartSec ≤ later.atSec ∧ later.atSec ≤ t := by
    rw [filter_filter]
    refine filter_congr fun later _ => ?_
    simp only [← Bool.decide_and, decide_eq_decide]
    omega
  simp only [seedingAt, dayTransitions, filter_append, hpre, hday, getLast?_append,
    filter_le_eq_append horder hstart]
  cases (transitions.filter (·.atSec < dayStartSec)).getLast? <;> rfl

theorem inOrder_dayTransitions (horder : InOrder transitions) :
    InOrder (dayTransitions dayStartSec dayEndSec transitions) := by
  refine pairwise_append.2 ⟨?_, horder.sublist filter_sublist, ?_⟩
  · cases (transitions.filter (·.atSec < dayStartSec)).getLast? with
    | none => exact List.Pairwise.nil
    | some last => exact pairwise_singleton _ _
  · intro last hlast later hlater
    have hlt := (mem_filter.1 (mem_of_getLast? (Option.mem_toList.1 hlast))).2
    have hle := (mem_filter.1 hlater).2
    simp only [decide_eq_true_eq] at hlt hle
    omega

/-! ## The loop -/

/-- The windows are not empty, follow each other, and cover exactly these instants. -/
structure Shows (windows : List SeedingWindow) (instants : Int → Prop) : Prop where
  proper : ∀ window ∈ windows, window.startSec < window.endSec
  ordered : windows.Pairwise fun window window' => window.endSec ≤ window'.startSec
  covers : ∀ t, (∃ window ∈ windows, window.Covers t) ↔ instants t

section Shows
variable {windows windows' : List SeedingWindow} {instants instants' : Int → Prop}

theorem Shows.congr (hshows : Shows windows instants) (hiff : ∀ t, instants t ↔ instants' t) :
    Shows windows instants' :=
  ⟨hshows.proper, hshows.ordered, fun t => (hshows.covers t).trans (hiff t)⟩

theorem Shows.append (hshows : Shows windows instants) (hshows' : Shows windows' instants')
    (hlt : ∀ t t', instants t → instants' t' → t < t') :
    Shows (windows ++ windows') fun t => instants t ∨ instants' t := by
  refine ⟨fun window hmem => ?_, pairwise_append.2 ⟨hshows.ordered, hshows'.ordered, ?_⟩, ?_⟩
  · exact (mem_append.1 hmem).elim (hshows.proper window) (hshows'.proper window)
  · -- the last second of the one window is covered, and so is the first of the other
    intro window hmem window' hmem'
    have hproper := hshows.proper window hmem
    have hproper' := hshows'.proper window' hmem'
    have hlast := (hshows.covers (window.endSec - 1)).1 ⟨window, hmem, by omega, by omega⟩
    have hfirst := (hshows'.covers window'.startSec).1 ⟨window', hmem', by omega, hproper'⟩
    have := hlt _ _ hlast hfirst
    omega
  · intro t
    rw [← hshows.covers, ← hshows'.covers]
    simp only [mem_append, or_and_right, exists_or]

theorem shows_pushWindow (startSec endSec : Int) :
    Shows (pushWindow startSec endSec) fun t => startSec ≤ t ∧ t < endSec := by
  by_cases hlt : startSec < endSec
  · simp only [pushWindow, if_pos hlt]
    exact ⟨by simpa using hlt, pairwise_singleton _ _, fun t => by simp [SeedingWindow.Covers]⟩
  · simp only [pushWindow, if_neg hlt]
    exact ⟨nofun, List.Pairwise.nil, fun t => ⟨nofun, fun _ => by omega⟩⟩

end Shows

/-- The open window began in the day and before the transitions to come. -/
def OpenBefore (dayStartSec : Int) (openStart : Option Int)
    (transitions : List SeedingTransitionEvent) : Prop :=
  ∀ start, openStart = some start →
    dayStartSec ≤ start ∧ ∀ transition ∈ transitions, start ≤ transition.atSec

/-- The instants of the day that the rest of the loop is to show. -/
def Remaining (dayStartSec dayEndSec : Int) (seeding : Bool) (openStart : Option Int)
    (transitions : List SeedingTransitionEvent) (t : Int) : Prop :=
  dayStartSec ≤ t ∧ t < dayEndSec ∧ (seeding = true → openStart.getD dayStartSec ≤ t) ∧
    seedingAt t seeding transitions = true

theorem openBefore_none : OpenBefore dayStartSec none transitions := nofun

theorem OpenBefore.bounds (hopen : OpenBefore dayStartSec openStart transitions) :
    dayStartSec ≤ openStart.getD dayStartSec ∧ ∀ transition ∈ transitions,
      openStart.getD dayStartSec ≤ transition.atSec ∨
        (openStart = none ∧ transition.atSec < dayStartSec) := by
  cases openStart with
  | none =>
    refine ⟨Int.le_refl _, fun transition _ => ?_⟩
    exact (Int.lt_or_le transition.atSec dayStartSec).symm.imp_right fun hlt => ⟨rfl, hlt⟩
  | some start =>
    obtain ⟨hstart, hlater⟩ := hopen start rfl
    exact ⟨hstart, fun later hmem => .inl (hlater later hmem)⟩

theorem shows_closeWindow (hstart : dayStartSec ≤ openStart.getD dayStartSec)
    (hlater : ∀ transition ∈ transitions, dayEndSec ≤ transition.atSec) :
    Shows (closeWindow dayStartSec dayEndSec seeding openStart)
      (Remaining dayStartSec dayEndSec seeding openStart transitions) := by
  have hat {t : Int} (hlt : t < dayEndSec) : seedingAt t seeding transitions = seeding :=
    seedingAt_of_later fun later hmem => by have := hlater later hmem; omega
  cases seeding with
  | false =>
    refine ⟨nofun, List.Pairwise.nil, fun t => ⟨nofun, fun hremaining => ?_⟩⟩
    exact nomatch (hat hremaining.2.1).symm.trans hremaining.2.2.2
  | true => exact (shows_pushWindow _ _).congr fun t => by grind [Remaining]

theorem shows_windowsFrom (horder : InOrder transitions)
    (hopen : OpenBefore dayStartSec openStart transitions) :
    Shows (windowsFrom dayStartSec dayEndSec seeding openStart transitions)
      (Remaining dayStartSec dayEndSec seeding openStart transitions) := by
  induction transitions generalizing seeding openStart with
  | nil => exact shows_closeWindow hopen.bounds.1 nofun
  | cons transition rest ih =>
    have hlater : ∀ later ∈ rest, transition.atSec ≤ later.atSec :=
      fun later hmem => rel_of_pairwise_cons horder hmem
    have hfuture {t : Int} (hlt : t < transition.atSec) (seeding : Bool) :
        seedingAt t seeding rest = seeding :=
      seedingAt_of_later fun later hmem => by have := hlater later hmem; omega
    obtain ⟨hstart, hnow⟩ := hopen.bounds
    have hrest : OpenBefore dayStartSec openStart rest := fun start hstart =>
      ⟨(hopen start hstart).1, fun later hmem =>
        (hopen start hstart).2 later (mem_cons_of_mem _ hmem)⟩
    simp only [windowsFrom]
    split
    · -- a transition before the day only tells how the day began
      refine (ih horder.of_cons hrest).congr fun t => ?_
      grind [Remaining, seedingAt_cons]
    next hin =>
    split
    · next hafter =>
      refine shows_closeWindow hstart fun later hmem => ?_
      rcases mem_cons.1 hmem with rfl | hmem
      · omega
      · have := hlater later hmem
        omega
    cases htype : transition.type with
    | started =>
      cases seeding with
      | true =>
        refine (ih horder.of_cons hrest).congr fun t => ?_
        grind [Remaining, seedingAt_cons]
      | false =>
        have hopened : OpenBefore dayStartSec (some (max transition.atSec dayStartSec)) rest := by
          rintro start ⟨⟩
          exact ⟨by omega, fun later hmem => by have := hlater later hmem; omega⟩
        refine (ih horder.of_cons hopened).congr fun t => ?_
        grind [Remaining, seedingAt_cons]
    | ended =>
      cases seeding with
      | true =>
        -- the open window is closed here, and nothing is open from here on
        have hclosed : Shows (windowsFrom dayStartSec dayEndSec false none rest)
            (Remaining dayStartSec dayEndSec false none rest) :=
          ih horder.of_cons openBefore_none
        refine ((shows_pushWindow _ _).append hclosed fun t t' hat hat' => ?_).congr fun t => ?_
        · grind [Remaining]
        · grind [Remaining, seedingAt_cons]
      | false =>
        refine (ih horder.of_cons hrest).congr fun t => ?_
        grind [Remaining, seedingAt_cons]

/-- For every run of polls the windows of any day are not empty, in order and disjoint, and cover
exactly the seconds of the day, up to now, in which the tracker was seeding. -/
theorem seedingWindows_eq_tracked (polls : List SeedingTickInput)
    (hordered : polls.Pairwise fun a b => a.now ≤ b.now) (dayStartSec dayEndSec nowSec : Int) :
    Shows (seedingWindows dayStartSec dayEndSec nowSec (pollTransitions none polls)) fun t =>
      dayStartSec ≤ t ∧ t < min dayEndSec nowSec ∧ isSeeding (trackedAt t none polls) = true := by
  have hseconds : polls.Pairwise fun a b => a.now / 1000 ≤ b.now / 1000 :=
    hordered.imp fun h => Int.ediv_le_ediv (by omega) h
  have horder : InOrder (pollTransitions none polls) := inOrder_pollTransitions hseconds
  refine (shows_windowsFrom (inOrder_dayTransitions horder) openBefore_none).congr fun t => ?_
  refine and_congr_right fun hs => and_congr_right fun he => ?_
  rw [seedingAt_dayTransitions horder hs (by omega), ← seedingAt_pollTransitions hseconds]
  exact and_iff_right nofun

/-- Polls of a server that fills up past its threshold and empties again. -/
def samplePolls : List SeedingTickInput :=
  [⟨10, false, 40, 10, 5000⟩, ⟨45, false, 40, 10, 15000⟩, ⟨20, false, 40, 10, 25500⟩]

theorem seedingWindows_eq_tracked_samplePolls : samplePolls.Pairwise (fun a b => a.now ≤ b.now) ∧
    seedingWindows 8 40 30 (pollTransitions none samplePolls) = [⟨8, 15⟩, ⟨25, 30⟩] ∧
    Shows (seedingWindows 8 40 30 (pollTransitions none samplePolls)) fun t =>
      8 ≤ t ∧ t < min 40 30 ∧ isSeeding (trackedAt t none samplePolls) = true :=
  ⟨by decide, by decide, seedingWindows_eq_tracked samplePolls (by decide) 8 40 30⟩

end SquadPanel.Economy
