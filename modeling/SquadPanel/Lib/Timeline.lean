import Mathlib.Data.List.Pairwise
import Mathlib.Order.Lattice

/-!
# Tables of timed spans

A table row carries a span: a key, a start and, once it has ended, a stop.  The
spans of one key are to follow each other without overlapping, so that at most one
of them is still open.  A table changes by closing some open rows at one instant
and then appending new open rows; the lemmas below say when such an update keeps
the table well formed.
-/

namespace SquadPanel.Lib

open List

structure Span (K T : Type) where
  key : K
  start : T
  stop : Option T
deriving DecidableEq

namespace Timeline

variable {K T R : Type} [LinearOrder T]

/-- The span has ended, at `t` at the latest. -/
def EndsBy (s : Span K T) (t : T) : Prop :=
  ∃ d, s.stop = some d ∧ d ≤ t

/-- Two spans of one key follow each other. -/
def Apart (s s' : Span K T) : Prop :=
  s.key = s'.key → EndsBy s s'.start ∨ EndsBy s' s.start

/-- `s'` is `s`, or `s` closed at `t`. -/
def ClosesTo (t : T) (s s' : Span K T) : Prop :=
  s' = s ∨ (s.stop = none ∧ s.start ≤ t ∧ s' = { s with stop := some t })

section Spans

variable {s s' : Span K T} {t t' : T}

theorem EndsBy.mono (hends : EndsBy s t) (hle : t ≤ t') : EndsBy s t' := by
  obtain ⟨d, hstop, hd⟩ := hends
  exact ⟨d, hstop, hd.trans hle⟩

theorem not_endsBy_of_open (hopen : s.stop = none) : ¬ EndsBy s t := by
  rintro ⟨d, hstop, _⟩
  rw [hopen] at hstop
  cases hstop

theorem Apart.symm (hapart : Apart s s') : Apart s' s :=
  fun hkey => (hapart hkey.symm).symm

instance (span : R → Span K T) : Std.Symm fun r r' => Apart (span r) (span r') where
  symm _ _ hapart := hapart.symm

theorem Apart.endsBy (hapart : Apart s s') (hkey : s.key = s'.key) (hopen : s.stop = none) :
    EndsBy s' s.start :=
  (hapart hkey).resolve_left (not_endsBy_of_open hopen)

theorem ClosesTo.key_eq (hclose : ClosesTo t s s') : s'.key = s.key := by
  obtain rfl | ⟨_, _, rfl⟩ := hclose <;> rfl

theorem ClosesTo.start_eq (hclose : ClosesTo t s s') : s'.start = s.start := by
  obtain rfl | ⟨_, _, rfl⟩ := hclose <;> rfl

theorem ClosesTo.endsBy (hclose : ClosesTo t s s') (hends : EndsBy s t') : EndsBy s' t' := by
  obtain rfl | ⟨hopen, _, _⟩ := hclose
  · exact hends
  · exact absurd hends (not_endsBy_of_open hopen)

theorem Apart.closesTo {r r' : Span K T} (hapart : Apart s r) (hs : ClosesTo t s s')
    (hr : ClosesTo t r r') : Apart s' r' := by
  intro hkey
  rw [hs.key_eq, hr.key_eq] at hkey
  rw [hs.start_eq, hr.start_eq]
  exact (hapart hkey).imp hs.endsBy hr.endsBy

end Spans

variable (span : R → Span K T)

/-- No row ends before it starts, and the rows of one key follow each other. -/
structure WellFormed (rows : List R) : Prop where
  forward : ∀ r ∈ rows, ∀ d, (span r).stop = some d → (span r).start ≤ d
  apart : rows.Pairwise fun r r' => Apart (span r) (span r')

/-- Every row of the key has ended, at `t` at the latest. -/
def Ended (rows : List R) (k : K) (t : T) : Prop :=
  ∀ r ∈ rows, (span r).key = k → EndsBy (span r) t

/-- The key has an open row, or all its rows have ended by `t`. -/
def Settled (rows : List R) (k : K) (t : T) : Prop :=
  (∃ r ∈ rows, (span r).key = k ∧ (span r).stop = none) ∨ Ended span rows k t

/-- Nothing in the table is later than `t`. -/
def Past (rows : List R) (t : T) : Prop :=
  ∀ r ∈ rows, (span r).start ≤ t ∧ ∀ d, (span r).stop = some d → d ≤ t

variable {span} {rows : List R} {k : K} {t t' : T}

theorem Past.mono (hpast : Past span rows t) (hle : t ≤ t') : Past span rows t' := by
  intro r hr
  exact ⟨(hpast r hr).1.trans hle, fun d hd => ((hpast r hr).2 d hd).trans hle⟩

theorem Past.settled (hpast : Past span rows t) (k : K) : Settled span rows k t := by
  by_cases hopen : ∃ r ∈ rows, (span r).key = k ∧ (span r).stop = none
  · exact .inl hopen
  · refine .inr fun r hr hkey => ?_
    cases hstop : (span r).stop with
    | none => exact absurd ⟨r, hr, hkey, hstop⟩ hopen
    | some d => exact ⟨d, hstop, (hpast r hr).2 d hstop⟩

theorem Ended.mono (hended : Ended span rows k t) (hle : t ≤ t') : Ended span rows k t' :=
  fun r hr hkey => (hended r hr hkey).mono hle

theorem Settled.ended (hsettled : Settled span rows k t)
    (hnone : ∀ r ∈ rows, (span r).stop = none → (span r).key ≠ k) : Ended span rows k t := by
  refine hsettled.resolve_left ?_
  rintro ⟨r, hr, hkey, hopen⟩
  exact hnone r hr hopen hkey

/-! ## Updates -/

section Update

variable {f : R → R} {new : List R} {c : T}

theorem WellFormed.opened (hrows : WellFormed span rows) (hopen : ∀ n ∈ new, (span n).stop = none)
    (hkeys : (new.map fun n => (span n).key).Nodup)
    (hended : ∀ n ∈ new, Ended span rows (span n).key (span n).start) :
    WellFormed span (rows ++ new) where
  forward := by
    intro r hr d hstop
    obtain hr | hr := mem_append.1 hr
    · exact hrows.forward r hr d hstop
    · rw [hopen r hr] at hstop
      cases hstop
  apart := by
    rw [pairwise_append]
    refine ⟨hrows.apart, ?_, ?_⟩
    · rw [List.Nodup, pairwise_map] at hkeys
      exact hkeys.imp fun hne hkey => absurd hkey hne
    · intro r hr n hn hkey
      exact .inl (hended n hn r hr hkey)

section
variable (hclose : ∀ r ∈ rows, ClosesTo c (span r) (span (f r)))
include hclose

theorem WellFormed.closed (hrows : WellFormed span rows) : WellFormed span (rows.map f) where
  forward := by
    intro r' hr' d hstop
    obtain ⟨r, hr, rfl⟩ := mem_map.1 hr'
    obtain heq | ⟨_, hle, heq⟩ := hclose r hr
    · rw [heq] at hstop ⊢
      exact hrows.forward r hr d hstop
    · rw [heq] at hstop ⊢
      cases hstop
      exact hle
  apart := by
    rw [pairwise_map]
    exact hrows.apart.imp_of_mem fun hr hr' h => h.closesTo (hclose _ hr) (hclose _ hr')

theorem Ended.closed (hended : Ended span rows k t) : Ended span (rows.map f) k t := by
  intro r' hr' hkey
  obtain ⟨r, hr, rfl⟩ := mem_map.1 hr'
  rw [(hclose r hr).key_eq] at hkey
  exact (hclose r hr).endsBy (hended r hr hkey)

/-- Closing the open row of a key at `c` leaves every row of the key ended by `c`. -/
theorem WellFormed.ended_of_closed (hrows : WellFormed span rows) {r : R}
    (hr : r ∈ rows) (hopen : (span r).stop = none) (hstop : (span (f r)).stop = some c) :
    Ended span (rows.map f) (span r).key c := by
  intro r' hr' hkey
  obtain ⟨q, hq, rfl⟩ := mem_map.1 hr'
  rw [(hclose q hq).key_eq] at hkey
  by_cases hsame : r = q
  · subst hsame
    exact ⟨c, hstop, le_rfl⟩
  · have hle : (span r).start ≤ c := by
      obtain heq | ⟨_, hle, _⟩ := hclose r hr
      · rw [heq, hopen] at hstop
        cases hstop
      · exact hle
    -- an open row is the last of its key
    have hends := (hrows.apart.forall hr hq hsame).endsBy hkey.symm hopen
    exact (hclose q hq).endsBy (hends.mono hle)

theorem Past.update (hpast : Past span rows t) (hc : c ≤ t)
    (hnew : ∀ n ∈ new, (span n).stop = none ∧ (span n).start ≤ t) :
    Past span (rows.map f ++ new) t := by
  intro r' hr'
  obtain hr' | hr' := mem_append.1 hr'
  · obtain ⟨r, hr, rfl⟩ := mem_map.1 hr'
    obtain heq | ⟨_, _, heq⟩ := hclose r hr
    · rw [heq]
      exact hpast r hr
    · rw [heq]
      refine ⟨(hpast r hr).1, fun d hd => ?_⟩
      cases hd
      exact hc
  · refine ⟨(hnew r' hr').2, fun d hd => ?_⟩
    rw [(hnew r' hr').1] at hd
    cases hd

/-- An update keeps a key settled by `t` if each row of the key that it closes is closed
by `t` or followed by a new row. -/
theorem Settled.update (hsettled : Settled span rows k t) (hrows : WellFormed span rows)
    (hnew : ∀ n ∈ new, (span n).stop = none)
    (hclosed : ∀ r ∈ rows, (span r).key = k → (span (f r)).stop = some c →
      (span r).stop = none → c ≤ t ∨ ∃ n ∈ new, (span n).key = k) :
    Settled span (rows.map f ++ new) k t := by
  by_cases hreopened : ∃ n ∈ new, (span n).key = k
  · obtain ⟨n, hn, hkey⟩ := hreopened
    exact .inl ⟨n, mem_append_right _ hn, hkey, hnew n hn⟩
  have hmapped (hended : Ended span (rows.map f) k t) : Ended span (rows.map f ++ new) k t := by
    intro r hr hkey
    obtain hr | hr := mem_append.1 hr
    · exact hended r hr hkey
    · exact absurd ⟨r, hr, hkey⟩ hreopened
  obtain ⟨r, hr, hkey, hopen⟩ | hended := hsettled
  · obtain heq | ⟨_, _, heq⟩ := hclose r hr
    · refine .inl ⟨f r, mem_append_left _ (mem_map_of_mem hr), ?_, ?_⟩
      · rw [heq, hkey]
      · rw [heq, hopen]
    · have hstop : (span (f r)).stop = some c := by rw [heq]
      have hle : c ≤ t := (hclosed r hr hkey hstop hopen).resolve_right hreopened
      have hended := hrows.ended_of_closed hclose hr hopen hstop
      rw [hkey] at hended
      exact .inr (hmapped (hended.mono hle))
  · exact .inr (hmapped (hended.closed hclose))

/-! An update that appends nothing. -/

theorem Past.closed (hpast : Past span rows t) (hc : c ≤ t) : Past span (rows.map f) t := by
  have hupdate : Past span (rows.map f ++ []) t := hpast.update hclose hc (by simp)
  rwa [append_nil] at hupdate

theorem Settled.closed (hsettled : Settled span rows k t) (hrows : WellFormed span rows)
    (hclosed : ∀ r ∈ rows, (span r).key = k → (span (f r)).stop = some c →
      (span r).stop = none → c ≤ t) :
    Settled span (rows.map f) k t := by
  have hupdate : Settled span (rows.map f ++ []) k t :=
    hsettled.update hclose hrows (by simp)
      fun r hr hkey hstop hopen => .inl (hclosed r hr hkey hstop hopen)
  rwa [append_nil] at hupdate

end

end Update

end Timeline

end SquadPanel.Lib
