import SquadPanel.Lib.Machine
import SquadPanel.Lib.Prog

/-!
# Interleaved processes over a shared state

Any number of processes run bodies written as `Prog` trees against one shared
state.  A run is a list of labels: a process is started, performs its next
call, stops (because it is done or because it crashed), or the environment
moves.  Each label fixes the answer of the call it performs, so `step` is a
function and a concrete run can be evaluated.

Every process remembers the calls it has made with their answers, and the
configuration keeps a log of all calls.  A protocol that the bodies satisfy
(`Prog.Wp`) therefore holds of every process of every reachable configuration,
with the ghost state computed from the process's own history
(`System.follows_of_reaches`).
-/

namespace SquadPanel.Lib

/-- A performed call and the answer it got. -/
structure Event (E : Type) (R : E → Type) where
  call : E
  answer : R call

/-- Shared state, process bodies and environment moves.  `perform e s r` is the
state after answering call `e` by `r` in state `s`, or `none` when `e` cannot be
answered so in `s`. -/
structure System (E : Type) (R : E → Type) (A S X : Type) where
  body : A → Prog E R Unit
  perform : (e : E) → S → R e → Option S
  environment : X → S → Option S

/-- A running process: what it was started with, the calls it has made, and the
rest of its program. -/
structure Proc (E : Type) (R : E → Type) (A : Type) where
  arg : A
  hist : List (Event E R)
  prog : Prog E R Unit

/-- No call is left. -/
def Proc.completed {E : Type} {R : E → Type} {A : Type} (p : Proc E R A) : Bool :=
  match p.prog with
  | .ret _ => true
  | .call _ _ => false

/-- One line of the log: which process made the call, with what history. -/
structure Record (ι E : Type) (R : E → Type) (A : Type) where
  pid : ι
  arg : A
  hist : List (Event E R)
  event : Event E R

/-- The shared state, the running processes and the log, oldest call first. -/
structure Config (ι E : Type) (R : E → Type) (A S : Type) where
  shared : S
  procs : ι → Option (Proc E R A)
  log : List (Record ι E R A)

/-- One move of a run. -/
inductive Label (ι E : Type) (R : E → Type) (A X : Type)
  | spawn (pid : ι) (arg : A)
  | perform (pid : ι) (event : Event E R)
  | stop (pid : ι)
  | environment (move : X)

namespace Config

variable {ι E : Type} {R : E → Type} {A S : Type} [DecidableEq ι]

section
variable (c : Config ι E R A S) (pid : ι) (p : Option (Proc E R A))

/-- Replace the process running under `pid`. -/
def setProc :
    Config ι E R A S :=
  { c with procs := fun q => if q = pid then p else c.procs q }

@[simp] theorem setProc_procs_self : (c.setProc pid p).procs pid = p := by
  simp [setProc]

end

theorem setProc_procs_of_ne (c : Config ι E R A S) {pid q : ι}
    (p : Option (Proc E R A)) (hne : q ≠ pid) : (c.setProc pid p).procs q = c.procs q := by
  simp [setProc, hne]

theorem setProc_procs_eq_some {c : Config ι E R A S} {pid q : ι}
    {p : Option (Proc E R A)} {proc : Proc E R A} (hproc : (c.setProc pid p).procs q = some proc) :
    (q = pid ∧ p = some proc) ∨ (q ≠ pid ∧ c.procs q = some proc) := by
  by_cases heq : q = pid
  · subst heq
    exact .inl ⟨rfl, by simpa using hproc⟩
  · exact .inr ⟨heq, by rwa [setProc_procs_of_ne c p heq] at hproc⟩

/-- What the new process and all earlier ones have. -/
theorem forall_setProc {c : Config ι E R A S} {pid : ι} {p : Option (Proc E R A)}
    {P : ι → Proc E R A → Prop} (hnew : ∀ q, p = some q → P pid q)
    (hold : ∀ pid' q, c.procs pid' = some q → P pid' q) :
    ∀ pid' q, (c.setProc pid p).procs pid' = some q → P pid' q := by
  intro pid' q hq
  rcases setProc_procs_eq_some hq with ⟨rfl, hp⟩ | ⟨-, hbefore⟩
  · exact hnew q hp
  · exact hold pid' q hbefore

/-- The configuration before any process has started. -/
def start (s : S) : Config ι E R A S where
  shared := s
  procs := fun _ => none
  log := []

end Config

namespace System

variable {ι E : Type} {R : E → Type} {A S X : Type} [DecidableEq ι] [DecidableEq E]
  {sys : System E R A S X} {c c' : Config ι E R A S} {l : Label ι E R A X}

/-- The configuration after process `pid` got its pending call answered. -/
def answered (c : Config ι E R A S) (pid : ι) (arg : A) (hist : List (Event E R))
    (ev : Event E R) (rest : Prog E R Unit) (s : S) : Config ι E R A S where
  shared := s
  procs := (c.setProc pid (some ⟨arg, hist ++ [ev], rest⟩)).procs
  log := c.log ++ [⟨pid, arg, hist, ev⟩]

/-- One move of the system, `none` when it is not possible. -/
def step (sys : System E R A S X) (c : Config ι E R A S) :
    Label ι E R A X → Option (Config ι E R A S)
  | .spawn pid arg =>
    match c.procs pid with
    | none => some (c.setProc pid (some ⟨arg, [], sys.body arg⟩))
    | some _ => none
  | .perform pid ⟨e, r⟩ =>
    match c.procs pid with
    | some ⟨arg, hist, .call e' k⟩ =>
      if h : e = e' then
        (sys.perform e c.shared r).map
          (answered c pid arg hist ⟨e, r⟩ (k (h ▸ r)))
      else none
    | _ => none
  | .stop pid => some (c.setProc pid none)
  | .environment x => (sys.environment x c.shared).map fun s => { c with shared := s }

section
variable (sys : System E R A S X) (guard : Config ι E R A S → Label ι E R A X → Bool)

/-- The configuration after a list of moves that all meet the guard. -/
abbrev run (c : Config ι E R A S) (ls : List (Label ι E R A X)) : Option (Config ι E R A S) :=
  Machine.run sys.step (fun c l => guard c l) c ls

/-- The configurations reached from `c₀` by moves that all meet the guard. -/
abbrev Reaches (c₀ c : Config ι E R A S) : Prop :=
  Machine.Reaches sys.step (fun c l => guard c l) c₀ c

end

/-- What one move can do. -/
theorem step_cases (hstep : sys.step c l = some c') :
    (∃ pid arg, l = .spawn pid arg ∧ c.procs pid = none ∧
      c' = c.setProc pid (some ⟨arg, [], sys.body arg⟩)) ∨
    (∃ pid arg hist e k r s, l = .perform pid ⟨e, r⟩ ∧ c.procs pid = some ⟨arg, hist, .call e k⟩ ∧
      sys.perform e c.shared r = some s ∧
      c' = answered c pid arg hist ⟨e, r⟩ (k r) s) ∨
    (∃ pid, l = .stop pid ∧ c' = c.setProc pid none) ∨
    (∃ x s, l = .environment x ∧ sys.environment x c.shared = some s ∧
      c' = { c with shared := s }) := by
  cases l with
  | spawn pid arg =>
    left
    simp only [step] at hstep
    split at hstep
    · rename_i hnone
      exact ⟨pid, arg, rfl, hnone, by simpa using hstep.symm⟩
    · cases hstep
  | perform pid ev =>
    right; left
    obtain ⟨e, r⟩ := ev
    simp only [step] at hstep
    split at hstep
    · rename_i arg hist e' k hproc
      split at hstep
      · rename_i heq
        subst heq
        simp only [Option.map_eq_some_iff] at hstep
        obtain ⟨s, hperform, rfl⟩ := hstep
        exact ⟨pid, arg, hist, e, k, r, s, rfl, hproc, hperform, rfl⟩
      · cases hstep
    · cases hstep
  | stop pid =>
    right; right; left
    simp only [step, Option.some.injEq] at hstep
    exact ⟨pid, rfl, hstep.symm⟩
  | environment x =>
    right; right; right
    simp only [step, Option.map_eq_some_iff] at hstep
    obtain ⟨s, henv, rfl⟩ := hstep
    exact ⟨x, s, rfl, henv, rfl⟩

/-- No restriction on the moves. -/
def anyMove (_ : Config ι E R A S) (_ : Label ι E R A X) : Bool := true

end System

namespace Protocol

variable {E : Type} {R : E → Type} {A G : Type}

section
variable (P : Protocol E R G) (g₀ : A → G) (arg : A)

/-- The ghost state of a process, computed from what it was started with and the
calls it has made. -/
def ghost (hist : List (Event E R)) : G :=
  hist.foldl (fun g ev => P.next ev.call ev.answer g) (g₀ arg)

@[simp] theorem ghost_nil : P.ghost g₀ arg [] = g₀ arg := rfl

@[simp] theorem ghost_append_singleton (hist : List (Event E R)) (ev : Event E R) :
    P.ghost g₀ arg (hist ++ [ev]) = P.next ev.call ev.answer (P.ghost g₀ arg hist) := by
  simp [ghost]

end

end Protocol

namespace System

variable {ι E : Type} {R : E → Type} {A S X G : Type} {sys : System E R A S X} {P : Protocol E R G}
  {Q : G → Prop} {g₀ : A → G}

/-- Every running process meets the protocol from its current ghost state and will
end in `Q`, and every call in the log was allowed when it was made. -/
structure Follows (P : Protocol E R G) (Q : G → Prop) (g₀ : A → G)
    (c : Config ι E R A S) : Prop where
  procs : ∀ pid p, c.procs pid = some p →
    p.prog.Wp P (fun _ g => Q g) (P.ghost g₀ p.arg p.hist)
  log : ∀ rec ∈ c.log, P.pre rec.event.call (P.ghost g₀ rec.arg rec.hist)

/-- A process that has come to its end has met its postcondition. -/
theorem Follows.of_completed {c : Config ι E R A S} {pid : ι} {p : Proc E R A}
    (hc : Follows P Q g₀ c) (hproc : c.procs pid = some p) (hcompleted : p.completed = true) :
    Q (P.ghost g₀ p.arg p.hist) := by
  have hend := hc.procs pid p hproc
  unfold Proc.completed at hcompleted
  split at hcompleted
  · next hret =>
    rw [hret] at hend
    exact hend
  · cases hcompleted

theorem follows_start (s : S) : Follows P Q g₀ (Config.start s : Config ι E R A S) :=
  ⟨by rintro pid p ⟨⟩, by rintro rec ⟨⟩⟩

section Moves

variable [DecidableEq ι] {c : Config ι E R A S}

theorem follows_setProc {pid : ι} {p : Option (Proc E R A)} (hc : Follows P Q g₀ c)
    (hp : ∀ q, p = some q → q.prog.Wp P (fun _ g => Q g) (P.ghost g₀ q.arg q.hist)) :
    Follows P Q g₀ (c.setProc pid p) :=
  ⟨Config.forall_setProc hp hc.procs, hc.log⟩

variable [DecidableEq E] {guard : Config ι E R A S → Label ι E R A X → Bool}

section
variable (hbody : ∀ a, (sys.body a).Wp P (fun _ g => Q g) (g₀ a))
include hbody

/-- If all bodies meet the protocol, one move keeps every process and the log
within it. -/
theorem follows_step {c' : Config ι E R A S} {l : Label ι E R A X} (hc : Follows P Q g₀ c)
    (hstep : sys.step c l = some c') : Follows P Q g₀ c' := by
  obtain ⟨pid, arg, -, -, rfl⟩ | ⟨pid, arg, hist, e, k, r, s, -, hproc, -, rfl⟩ |
    ⟨pid, -, rfl⟩ | ⟨x, s, -, -, rfl⟩ := step_cases hstep
  · exact follows_setProc hc (by rintro q ⟨⟩; simpa using hbody arg)
  · have hcall := hc.procs pid _ hproc
    have hset : Follows P Q g₀ (c.setProc pid (some ⟨arg, hist ++ [⟨e, r⟩], k r⟩)) :=
      follows_setProc hc (by rintro q ⟨⟩; simpa using hcall.2 r)
    refine ⟨hset.procs, fun rec hrec => ?_⟩
    simp only [answered, List.mem_append, List.mem_singleton] at hrec
    rcases hrec with hrec | rfl
    · exact hc.log rec hrec
    · exact hcall.1
  · exact follows_setProc hc (by rintro q ⟨⟩)
  · exact ⟨hc.procs, hc.log⟩

/-- In every reachable configuration the processes and the log meet the protocol
that the bodies meet. -/
theorem follows_of_reaches {s : S}
    (hreach : sys.Reaches guard (Config.start s) c) : Follows P Q g₀ c := by
  apply Machine.invariant_of_reaches (follows_start s) _ hreach
  intro c l c' _ _ hfollows hstep
  exact follows_step hbody hfollows hstep

/-- The invariant rule.  `Inv` may be proved preserved knowing that the moves meet
the guard and that all processes follow the protocol. -/
theorem invariant_of_reaches {s : S} {Inv : Config ι E R A S → Prop} (hstart : Inv (Config.start s))
    (hkeep : ∀ c l c', Follows P Q g₀ c → guard c l → Inv c →
      sys.step c l = some c' → Inv c') (hreach : sys.Reaches guard (Config.start s) c) : Inv c := by
  apply Machine.invariant_of_reaches hstart _ hreach
  intro c l c' hreach hguard hinv hstep
  exact hkeep c l c' (follows_of_reaches hbody hreach) hguard hinv hstep

end

end Moves

end System

end SquadPanel.Lib
