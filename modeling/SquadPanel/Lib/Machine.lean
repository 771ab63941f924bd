import Mathlib.Init

/-!
# Machines

A machine is a partial step function: `step s e` is the state after event `e`, or
`none` when `e` is not possible in `s`.  A guard restricts a run to events that meet
a condition on the state they are taken in.
-/

namespace SquadPanel.Lib

/-- A step behind a condition. -/
theorem of_guarded {α : Type} {p : Prop} [Decidable p] {a b : α}
    (hstep : (if p then some a else none) = some b) : p ∧ a = b := by
  simpa using hstep

namespace Machine

variable {σ ε : Type} {step : σ → ε → Option σ} {guard : σ → ε → Prop}

/-- The states reached from `s₀` by events that all meet the guard. -/
inductive Reaches (step : σ → ε → Option σ) (guard : σ → ε → Prop) (s₀ : σ) : σ → Prop
  | refl : Reaches step guard s₀ s₀
  | step {s s' : σ} {e : ε} :
      Reaches step guard s₀ s → guard s e → step s e = some s' → Reaches step guard s₀ s'

/-- The state after a list of events that all meet the guard. -/
def run (step : σ → ε → Option σ) (guard : σ → ε → Prop) [∀ s e, Decidable (guard s e)]
    (s : σ) : List ε → Option σ
  | [] => some s
  | e :: es => if guard s e then (step s e).bind fun s' => run step guard s' es else none

theorem reaches_of_run [∀ s e, Decidable (guard s e)] {s₀ s s' : σ} {es : List ε}
    (hreach : Reaches step guard s₀ s) (hrun : run step guard s es = some s') :
    Reaches step guard s₀ s' := by
  induction es generalizing s with
  | nil =>
    simp only [run, Option.some.injEq] at hrun
    exact hrun ▸ hreach
  | cons e es ih =>
    simp only [run, Option.ite_none_right_eq_some, Option.bind_eq_some_iff] at hrun
    obtain ⟨hguard, mid, hstep, hrest⟩ := hrun
    exact ih (.step hreach hguard hstep) hrest

theorem reaches_of_map_run [∀ s e, Decidable (guard s e)] {τ : Type} {s : σ} {es : List ε}
    {view : σ → τ} {v : τ} (hrun : (run step guard s es).map view = some v) :
    ∃ s', Reaches step guard s s' ∧ view s' = v := by
  obtain ⟨s', hend, hview⟩ := Option.map_eq_some_iff.1 hrun
  exact ⟨s', reaches_of_run .refl hend, hview⟩

/-- The invariant rule. -/
theorem invariant_of_reaches {s₀ s : σ} {Inv : σ → Prop} (hstart : Inv s₀)
    (hkeep : ∀ s e s', Reaches step guard s₀ s → guard s e → Inv s → step s e = some s' → Inv s')
    (hreach : Reaches step guard s₀ s) : Inv s := by
  induction hreach with
  | refl => exact hstart
  | step hreach hguard hstep ih => exact hkeep _ _ _ hreach hguard ih hstep

theorem Reaches.trans {s₀ s s' : σ} (hreach : Reaches step guard s₀ s)
    (hlater : Reaches step guard s s') : Reaches step guard s₀ s' := by
  induction hlater with
  | refl => exact hreach
  | step _ hguard hstep ih => exact .step ih hguard hstep

/-- A run that goes on for ever. -/
structure Execution (step : σ → ε → Option σ) (guard : σ → ε → Prop) where
  state : Nat → σ
  event : Nat → ε
  guarded : ∀ n, guard (state n) (event n)
  steps : ∀ n, step (state n) (event n) = some (state (n + 1))

namespace Execution

variable (ex : Execution step guard)

theorem reaches {m n : Nat} (hmn : m ≤ n) : Reaches step guard (ex.state m) (ex.state n) := by
  induction hmn with
  | refl => exact .refl
  | step hmn ih => exact .step ih (ex.guarded _) (ex.steps _)

/-- What every later step keeps holds from then on. -/
theorem keeps {P : σ → Prop} {m n : Nat} (hmn : m ≤ n) (hm : P (ex.state m))
    (hkeep : ∀ k, m ≤ k → P (ex.state k) → P (ex.state (k + 1))) : P (ex.state n) := by
  induction hmn with
  | refl => exact hm
  | step hmn ih => exact hkeep _ hmn ih

/-- Events that are taken again and again until `Q`, and that lower a rank no step raises, lead
to `Q`. -/
theorem eventually_of_rank {P Q : σ → Prop} {fair : ε → Prop} (rank : σ → Nat)
    (hfair : ∀ n, P (ex.state n) → ¬ Q (ex.state n) → ∃ m, n ≤ m ∧ fair (ex.event m))
    (hstep : ∀ s e s', guard s e → step s e = some s' → P s → ¬ Q s →
      P s' ∧ rank s' ≤ rank s ∧ (fair e → rank s' < rank s))
    {n : Nat} (hn : P (ex.state n)) : ∃ m, n ≤ m ∧ Q (ex.state m) := by
  induction hrank : rank (ex.state n) using Nat.strongRecOn generalizing n with
  | _ r ih =>
    apply Classical.byContradiction
    intro hnever
    have hnot (m : Nat) (hnm : n ≤ m) : ¬ Q (ex.state m) := fun hm => hnever ⟨m, hnm, hm⟩
    obtain ⟨m, hnm, hm⟩ := hfair n hn (hnot n (Nat.le_refl n))
    have hkeep (k : Nat) (hnk : n ≤ k) : P (ex.state k) ∧ rank (ex.state k) ≤ r :=
      ex.keeps (P := fun s => P s ∧ rank s ≤ r) hnk ⟨hn, Nat.le_of_eq hrank⟩
        fun k hnk hk =>
          have hafter := hstep _ _ _ (ex.guarded k) (ex.steps k) hk.1 (hnot k hnk)
          ⟨hafter.1, Nat.le_trans hafter.2.1 hk.2⟩
    obtain ⟨hP, hle⟩ := hkeep m hnm
    have hafter := hstep _ _ _ (ex.guarded m) (ex.steps m) hP (hnot m hnm)
    obtain ⟨k, hmk, hk⟩ := ih _ (Nat.lt_of_lt_of_le (hafter.2.2 hm) hle) hafter.1 rfl
    exact hnot k (Nat.le_trans hnm (Nat.le_trans (Nat.le_succ m) hmk)) hk

end Execution

end Machine

end SquadPanel.Lib
