import Mathlib.Logic.Basic

/-!
# Programs as trees of calls

A program over an environment is a tree: it either returns or makes one call
and continues with the answer.  Whatever happens between a call and its answer
belongs to the environment, so one tree covers every interleaving with other
programs.  `Prog.Wp` is the matching program logic: a protocol says which calls
a process may make in which ghost state and how each answer moves that state.
-/

namespace SquadPanel.Lib

/-- A program making calls `e : E` that are answered by values of `R e`. -/
inductive Prog (E : Type) (R : E → Type) (α : Type) : Type
  | ret (a : α) : Prog E R α
  | call (e : E) (k : R e → Prog E R α) : Prog E R α

namespace Prog

variable {E : Type} {R : E → Type} {α β : Type}

/-- Run the second program on the value the first one returns. -/
def bind : Prog E R α → (α → Prog E R β) → Prog E R β
  | .ret a, f => f a
  | .call e k, f => .call e fun r => bind (k r) f

instance : Monad (Prog E R) where
  pure := .ret
  bind := bind

@[simp] theorem pure_eq_ret (a : α) : (pure a : Prog E R α) = .ret a := rfl

@[simp] theorem call_bind (e : E) (k : R e → Prog E R α) (f : α → Prog E R β) :
    (.call e k >>= f) = .call e fun r => k r >>= f := rfl

/-- Make a single call; `outcome` says what the caller sees of its answer, a value
or a thrown error. -/
def await {ε : Type} (e : E) (outcome : R e → Except ε α) : ExceptT ε (Prog E R) α :=
  ExceptT.mk (.call e fun r => .ret (outcome r))

end Prog

/-- What a process is obliged to: `pre e g` must hold when it makes call `e` in
ghost state `g`, and `next e r g` is its ghost state once `e` is answered `r`. -/
structure Protocol (E : Type) (R : E → Type) (G : Type) where
  pre : E → G → Prop
  next : (e : E) → R e → G → G

namespace Prog

variable {E : Type} {R : E → Type} {G : Type} {α β : Type} {P : Protocol E R G}

/-- Weakest precondition: every call along every branch of the program meets the
protocol, and `Q` holds of the returned value and the final ghost state. -/
def Wp (P : Protocol E R G) : Prog E R α → (α → G → Prop) → G → Prop
  | .ret a, Q, g => Q a g
  | .call e k, Q, g => P.pre e g ∧ ∀ r, Wp P (k r) Q (P.next e r g)

@[simp] theorem wp_ret (a : α) (Q : α → G → Prop) (g : G) : Wp P (.ret a) Q g ↔ Q a g := Iff.rfl

@[simp] theorem wp_call (e : E) (k : R e → Prog E R α) (Q : α → G → Prop) (g : G) :
    Wp P (.call e k) Q g ↔ P.pre e g ∧ ∀ r, Wp P (k r) Q (P.next e r g) := Iff.rfl

theorem wp_mono {p : Prog E R α} {Q Q' : α → G → Prop} {g : G}
    (himp : ∀ a g', Q a g' → Q' a g') (hp : Wp P p Q g) : Wp P p Q' g := by
  induction p generalizing g with
  | ret a => exact himp a g hp
  | call e k ih => exact ⟨hp.1, fun r => ih r (hp.2 r)⟩

theorem wp_bind (p : Prog E R α) (f : α → Prog E R β) (Q : β → G → Prop) (g : G) :
    Wp P (p >>= f) Q g ↔ Wp P p (fun a g' => Wp P (f a) Q g') g := by
  induction p generalizing g with
  | ret a => exact Iff.rfl
  | call e k ih =>
    simp only [call_bind, wp_call, ih]

/-! ### Programs that may throw -/

section Except

variable {ε : Type}

@[simp] theorem wp_run_pure (a : α) (Q : Except ε α → G → Prop) (g : G) :
    Wp P (pure a : ExceptT ε (Prog E R) α).run Q g ↔ Q (.ok a) g := Iff.rfl

@[simp] theorem wp_run_throw (e : ε) (Q : Except ε α → G → Prop) (g : G) :
    Wp P (throw e : ExceptT ε (Prog E R) α).run Q g ↔ Q (.error e) g := Iff.rfl

@[simp] theorem wp_run_await (e : E) (outcome : R e → Except ε α)
    (Q : Except ε α → G → Prop) (g : G) : Wp P (await e outcome).run Q g ↔
      P.pre e g ∧ ∀ r, Q (outcome r) (P.next e r g) := Iff.rfl

@[simp] theorem wp_run_bind (p : ExceptT ε (Prog E R) α) (f : α → ExceptT ε (Prog E R) β)
    (Q : Except ε β → G → Prop) (g : G) : Wp P (p >>= f).run Q g ↔
      Wp P p.run (fun r g' => match r with
        | .ok a => Wp P (f a).run Q g'
        | .error e => Q (.error e) g') g := by
  change Wp P (p.run >>= _) Q g ↔ _
  rw [wp_bind]
  constructor <;>
    · apply wp_mono
      rintro (e | a) g' hr <;> exact hr

/-- A handler runs on the error, from the ghost state reached when it was thrown. -/
@[simp] theorem wp_run_tryCatch (p : ExceptT ε (Prog E R) α)
    (handler : ε → ExceptT ε (Prog E R) α) (Q : Except ε α → G → Prop) (g : G) :
    Wp P (tryCatch p handler).run Q g ↔
      Wp P p.run (fun r g' => match r with
        | .ok a => Q (.ok a) g'
        | .error e => Wp P (handler e).run Q g') g := by
  change Wp P (p.run >>= _) Q g ↔ _
  rw [wp_bind]
  constructor <;>
    · apply wp_mono
      rintro (e | a) g' hr <;> exact hr

end Except

/-! ### Frames -/

/-- Every call the program can make satisfies `C`. -/
def Calls (C : E → Prop) : Prog E R α → Prop
  | .ret _ => True
  | .call e k => C e ∧ ∀ r, Calls C (k r)

section Calls

variable {C C' : E → Prop} {ε : Type} {p : Prog E R α}

theorem calls_mono (himp : ∀ e, C e → C' e) (hp : Calls C p) : Calls C' p := by
  induction p with
  | ret a => trivial
  | call e k ih => exact ⟨himp e hp.1, fun r => ih r (hp.2 r)⟩

theorem calls_bind {f : α → Prog E R β}
    (hp : Calls C p) (hf : ∀ a, Calls C (f a)) : Calls C (p >>= f) := by
  induction p with
  | ret a => exact hf a
  | call e k ih => exact ⟨hp.1, fun r => ih r (hp.2 r)⟩

@[simp] theorem calls_ret (a : α) : Calls C (.ret a : Prog E R α) := trivial

@[simp] theorem calls_run_await (e : E) (outcome : R e → Except ε α) :
    Calls C (await e outcome).run ↔ C e :=
  ⟨fun h => h.1, fun h => ⟨h, fun _ => trivial⟩⟩

theorem calls_run_bind {p : ExceptT ε (Prog E R) α} {f : α → ExceptT ε (Prog E R) β}
    (hp : Calls C p.run) (hf : ∀ a, Calls C (f a).run) : Calls C (p >>= f).run :=
  calls_bind hp fun
    | .ok a => hf a
    | .error _ => trivial

theorem calls_run_tryCatch {p : ExceptT ε (Prog E R) α} {handler : ε → ExceptT ε (Prog E R) α}
    (hp : Calls C p.run) (hhandler : ∀ e, Calls C (handler e).run) :
    Calls C (tryCatch p handler).run :=
  calls_bind hp fun
    | .ok _ => trivial
    | .error e => hhandler e

/-- The frame rule: calls that are always allowed and never move the ghost state. -/
theorem wp_of_calls {Q : α → G → Prop} {g : G}
    (hpre : ∀ e, C e → P.pre e g) (hnext : ∀ e, C e → ∀ r, P.next e r g = g)
    (hp : Calls C p) (hQ : ∀ a, Q a g) : Wp P p Q g := by
  induction p with
  | ret a => exact hQ a
  | call e k ih =>
    refine ⟨hpre e hp.1, fun r => ?_⟩
    rw [hnext e hp.1 r]
    exact ih r (hp.2 r)

/-- The invariant rule: calls that are allowed and keep `I` lead to a state with `I`. -/
theorem wp_invariant_of_calls {I : G → Prop} {g : G}
    (hpre : ∀ e, C e → ∀ g, I g → P.pre e g) (hnext : ∀ e, C e → ∀ r g, I g → I (P.next e r g))
    (hp : Calls C p) (hI : I g) : Wp P p (fun _ g' => I g') g := by
  induction p generalizing g with
  | ret a => exact hI
  | call e k ih => exact ⟨hpre e hp.1 g hI, fun r => ih r (hp.2 r) (hnext e hp.1 r g hI)⟩

/-- Calls that are allowed in every ghost state, when nothing is left to show. -/
theorem wp_true_of_calls {g : G} (hpre : ∀ e, C e → ∀ g, P.pre e g) (hp : Calls C p) :
    Wp P p (fun _ _ => True) g :=
  wp_invariant_of_calls (fun e he g _ => hpre e he g) (fun _ _ _ _ _ => trivial) hp trivial

end Calls

end Prog

end SquadPanel.Lib
