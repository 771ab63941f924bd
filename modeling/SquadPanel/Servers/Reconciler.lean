import SquadPanel.Lib.Machine

/-!
# The status reconciler

A tick reads the rows that docker owns, inspects each container and writes back what it saw; the
watchdog fails the installs that take too long.  Install pipelines and operators write in between.
-/

set_option linter.unusedSectionVars false

namespace SquadPanel.Servers

open Lib Option

inductive ServerStatus where
  | starting | stopping | running | stopped | ready | installing | failed
  deriving DecidableEq

inductive DockerStateLabel where
  | running | created | restarting | paused | removing | exited | dead | notFound

structure ContainerInspect where
  state : Option DockerStateLabel
  running : Bool
  restartCount : Nat

def TRANSIENT_STATES : List ServerStatus := [.starting, .stopping, .running, .stopped, .ready]

def CRASH_LOOP_THRESHOLD : Nat := 3

def STALE_INSTALL_AFTER_MS : Int := 30 * 60000

def mapState (state : Option DockerStateLabel) (running : Bool) : Option ServerStatus :=
  if running then some .running
  else state.map fun
    | .running => .running
    | .restarting | .created => .starting
    | .removing | .paused => .stopping
    | .exited | .dead | .notFound => .stopped

def detectCrash (previous : Option Nat) (restartCount : Nat) : Bool :=
  previous.any (· < restartCount)

/-- Where a `reconcileServer` is; `crashed` has found a crash and asks Redis about it. -/
inductive Stage where
  | read
  | mapped (res : ContainerInspect) (status : ServerStatus)
      (hmap : mapState res.state res.running = some status)
  | crashed

structure Reconcile (Id : Type) where
  server : Id
  status : ServerStatus
  stage : Stage

structure ServerRow where
  status : ServerStatus
  updatedAt : Int

/-- `stale` are the rows that the watchdog has selected and not yet updated. -/
structure Panel (Id : Type) where
  servers : Id → Option ServerRow
  knownRestartCounts : Id → Option Nat
  reconciles : Nat → Option (Reconcile Id)
  stale : List Id

inductive Event (Id : Type) where
  | select (r : Nat) (server : Id)
  | inspect (r : Nat) (res : Option ContainerInspect)
  | update (r : Nat) (now : Int)
  | crashLoop (r : Nat) (wasRequested : Bool) (crashScores : Nat) (now : Int)
  | abandon (r : Nat)
  | forget (server : Id)
  | selectStale (server : Id) (now : Int)
  | failStale (server : Id) (now : Int)
  | set (server : Id) (row : Option ServerRow)

variable {Id : Type} [DecidableEq Id] {p p' : Panel Id} {r : Nat}

namespace Panel

variable (p : Panel Id)

def setRow (server : Id) (row : Option ServerRow) : Panel Id :=
  { p with servers := fun id => if id = server then row else p.servers id }

def setStatus (server : Id) (status : ServerStatus) (now : Int) : Panel Id :=
  p.setRow server ((p.servers server).map fun _ => ⟨status, now⟩)

def setReconcile (r : Nat) (reconcile : Option (Reconcile Id)) : Panel Id :=
  { p with reconciles := fun r' => if r' = r then reconcile else p.reconciles r' }

/-- The part of `reconcileServer` behind the update, up to its first question to Redis. -/
def settle (r : Nat) (c : Reconcile Id) (res : ContainerInspect) : Panel Id :=
  { p with knownRestartCounts := fun id =>
      if id = c.server then some res.restartCount else p.knownRestartCounts id }.setReconcile r
    (if detectCrash (p.knownRestartCounts c.server) res.restartCount then
      some { c with stage := .crashed } else none)

end Panel

def step (p : Panel Id) : Event Id → Option (Panel Id)
  | .select r server =>
    match p.reconciles r, p.servers server with
    | none, some row =>
      if row.status ∈ TRANSIENT_STATES then
        some (p.setReconcile r (some ⟨server, row.status, .read⟩)) else none
    | _, _ => none
  | .inspect r res =>
    match p.reconciles r, res with
    | some ⟨server, status, .read⟩, some res =>
      match hmap : mapState res.state res.running with
      | some mapped =>
        if mapped = status then some (p.settle r ⟨server, status, .read⟩ res)
        else some (p.setReconcile r (some ⟨server, status, .mapped res mapped hmap⟩))
      | none => some (p.setReconcile r none)
    | some ⟨_, _, .read⟩, none => some (p.setReconcile r none)
    | _, _ => none
  | .update r now =>
    match p.reconciles r with
    | some ⟨server, status, .mapped res mapped _⟩ =>
      some ((p.setStatus server mapped now).settle r ⟨server, status, .read⟩ res)
    | _ => none
  | .crashLoop r wasRequested crashScores now =>
    match p.reconciles r with
    | some ⟨server, _, .crashed⟩ =>
      if !wasRequested && CRASH_LOOP_THRESHOLD ≤ crashScores then
        some ((p.setStatus server .failed now).setReconcile r none)
      else some (p.setReconcile r none)
    | _ => none
  | .abandon r => some (p.setReconcile r none)
  | .forget server =>
    some { p with knownRestartCounts := fun id =>
      if id = server then none else p.knownRestartCounts id }
  | .selectStale server now =>
    if (p.servers server).any fun row =>
      row.status = .installing && row.updatedAt < now - STALE_INSTALL_AFTER_MS then
      some { p with stale := server :: p.stale } else none
  | .failStale server now =>
    if server ∈ p.stale then
      some ({ p with stale := p.stale.filter (· ≠ server) }.setStatus server .failed now)
    else none
  | .set server row => some (p.setRow server row)

/-- A reconcile replaces neither `installing` nor `failed`, which it has not read, and the watchdog
fails only what is installing. -/
def Respects (p : Panel Id) : Event Id → Prop
  | .update r _ | .crashLoop r _ _ _ => ∀ c, p.reconciles r = some c →
      ∀ row, p.servers c.server = some row → row.status ≠ .installing ∧ row.status ≠ .failed
  | .failStale server _ => server ∈ p.stale →
      ∀ row, p.servers server = some row → row.status = .installing
  | _ => True

/-- Nobody else sets the status of a server between the reading of its row, by a reconcile or by
the watchdog, and the writes that follow it. -/
def Alone (p : Panel Id) : Event Id → Prop
  | .set server _ => (∀ r c, p.reconciles r = some c → c.server ≠ server) ∧ server ∉ p.stale
  | .update r _ | .crashLoop r _ _ _ => ∀ c, p.reconciles r = some c → c.server ∉ p.stale ∧
      ∀ r' c', p.reconciles r' = some c' → c'.server = c.server → r' = r
  | .failStale server _ => ∀ r c, p.reconciles r = some c → c.server ≠ server
  | _ => True

structure PanelInv (p : Panel Id) : Prop where
  docker : ∀ r c, p.reconciles r = some c → ∀ row, p.servers c.server = some row →
    row.status ∈ TRANSIENT_STATES
  installing : ∀ server ∈ p.stale, ∀ row, p.servers server = some row → row.status = .installing

theorem mapState_mem {state : Option DockerStateLabel} {running : Bool} {status : ServerStatus}
    (hmap : mapState state running = some status) : status ∈ TRANSIENT_STATES := by
  unfold mapState at hmap
  split at hmap
  · cases hmap
    decide
  · obtain ⟨label, -, rfl⟩ := map_eq_some_iff.1 hmap
    cases label <;> decide

theorem PanelInv.setReconcile (hinv : PanelInv p) {c : Option (Reconcile Id)}
    (hdocker : ∀ c', c = some c' → ∀ row, p.servers c'.server = some row →
      row.status ∈ TRANSIENT_STATES) : PanelInv (p.setReconcile r c) := by
  refine ⟨fun r' c' hc' => ?_, hinv.installing⟩
  by_cases hr : r' = r
  · exact hdocker c' ((if_pos hr).symm.trans hc')
  · exact hinv.docker r' c' ((if_neg hr).symm.trans hc')

theorem PanelInv.settle (hinv : PanelInv p) {c : Reconcile Id} (res : ContainerInspect)
    (hc : ∀ row, p.servers c.server = some row → row.status ∈ TRANSIENT_STATES) :
    PanelInv (p.settle r c res) := by
  have hcounts (counts) : PanelInv { p with knownRestartCounts := counts } := { hinv with }
  refine (hcounts _).setReconcile fun c' hc' => ?_
  obtain ⟨-, hc'⟩ := ite_none_right_eq_some.1 hc'
  cases hc'
  exact hc

theorem PanelInv.setRow (hinv : PanelInv p) {server : Id} {row : Option ServerRow}
    (hstale : server ∉ p.stale) (hrow : ∀ r c, p.reconciles r = some c → c.server = server →
      ∀ row', row = some row' → row'.status ∈ TRANSIENT_STATES) :
    PanelInv (p.setRow server row) := by
  refine ⟨fun r c hc row' hrow' => ?_, fun id hid row' hrow' => ?_⟩
  · by_cases hserver : c.server = server
    · exact hrow r c hc hserver row' ((if_pos hserver).symm.trans hrow')
    · exact hinv.docker r c hc row' ((if_neg hserver).symm.trans hrow')
  · have hne : id ≠ server := fun heq => hstale (heq ▸ hid)
    exact hinv.installing id hid row' ((if_neg hne).symm.trans hrow')

theorem panelInv_step {event : Event Id} (hinv : PanelInv p) (halone : Alone p event)
    (hstep : step p event = some p') : PanelInv p' := by
  cases event <;> simp only [step] at hstep
  case select r server =>
    split at hstep
    · next row _ hrow =>
      obtain ⟨hstatus, hstep⟩ := ite_none_right_eq_some.1 hstep
      cases hstep
      refine hinv.setReconcile fun c hc row' hrow' => ?_
      cases hc
      cases hrow.symm.trans hrow'
      exact hstatus
    · cases hstep
  case inspect r res =>
    split at hstep
    · next server status res hc =>
      have hdocker := hinv.docker r _ hc
      split at hstep
      · split at hstep <;> cases hstep
        · exact hinv.settle res hdocker
        · exact hinv.setReconcile fun c hc => by cases hc; exact hdocker
      · cases hstep
        exact hinv.setReconcile fun _ h => by cases h
    · cases hstep
      exact hinv.setReconcile fun _ h => by cases h
    · cases hstep
  case update r now =>
    split at hstep <;> cases hstep
    next server status res mapped hmap hc =>
    have hwritten (row) (hrow : (p.servers server).map (fun _ => ⟨mapped, now⟩) = some row) :
        ServerRow.status row ∈ TRANSIENT_STATES := by
      obtain ⟨-, -, rfl⟩ := map_eq_some_iff.1 hrow
      exact mapState_mem hmap
    have hset : PanelInv (p.setStatus server mapped now) :=
      hinv.setRow (halone _ hc).1 fun _ _ _ _ => hwritten
    exact hset.settle res fun row hrow => hwritten row ((if_pos rfl).symm.trans hrow)
  case crashLoop r wasRequested crashScores now =>
    split at hstep
    · next server status hc =>
      obtain ⟨hstale, hother⟩ := halone _ hc
      have hended : PanelInv (p.setReconcile r none) := hinv.setReconcile fun _ h => by cases h
      split at hstep <;> cases hstep
      · refine hended.setRow hstale fun r' c' hc' hserver => ?_
        obtain ⟨hr, hc'⟩ := ite_none_left_eq_some.1 hc'
        exact absurd (hother r' c' hc' hserver) hr
      · exact hended
    · cases hstep
  case abandon r =>
    cases hstep
    exact hinv.setReconcile fun _ h => by cases h
  case forget server =>
    cases hstep
    exact { hinv with }
  case selectStale server now =>
    obtain ⟨hstale, hstep⟩ := ite_none_right_eq_some.1 hstep
    cases hstep
    refine ⟨hinv.docker, List.forall_mem_cons.2 ⟨fun row hrow => ?_, hinv.installing⟩⟩
    obtain ⟨row', hrow', hstatus⟩ := (any_eq_true _ _).1 hstale
    cases hrow'.symm.trans hrow
    simp only [Bool.and_eq_true, decide_eq_true_eq] at hstatus
    exact hstatus.1
  case failStale server now =>
    obtain ⟨-, hstep⟩ := ite_none_right_eq_some.1 hstep
    cases hstep
    have hrest : PanelInv { p with stale := p.stale.filter (· ≠ server) } :=
      ⟨hinv.docker, fun id hid => hinv.installing id (List.mem_filter.1 hid).1⟩
    exact hrest.setRow (by simp) fun r c hc hserver => absurd hserver (halone r c hc)
  case set server row =>
    cases hstep
    exact hinv.setRow halone.2 fun r c hc hserver => absurd hserver (halone.1 r c hc)

def Panel.start (servers : Id → Option ServerRow) : Panel Id :=
  ⟨servers, fun _ => none, fun _ => none, []⟩

/-- Where nobody else writes a server between a reading of its row and the writes that follow it,
no write of the reconciler replaces what it does not own. -/
theorem respects_of_alone (servers : Id → Option ServerRow)
    (hreach : Machine.Reaches step Alone (.start servers) p) (event : Event Id) :
    Respects p event := by
  have hstart : PanelInv (Panel.start servers) := ⟨nofun, nofun⟩
  have hinv := Machine.invariant_of_reaches hstart
    (fun _ _ _ _ halone hinv hstep => panelInv_step hinv halone hstep) hreach
  have howned {status : ServerStatus} (hmem : status ∈ TRANSIENT_STATES) :
      status ≠ .installing ∧ status ≠ .failed := by
    revert hmem
    cases status <;> decide
  cases event with
  | update r _ | crashLoop r _ _ _ =>
    exact fun c hc row hrow => howned (hinv.docker r c hc row hrow)
  | failStale server _ => exact hinv.installing server
  | _ => trivial

/-- An install starts between the reading of a `ready` row and the update to `stopped`. -/
theorem not_respects_sample : ∃ p : Panel Nat, Machine.Reaches step (fun _ _ => True)
      (.start fun _ => some ⟨.ready, 0⟩) p ∧ ¬Respects p (.update 0 2) :=
  ⟨_, .step (e := .inspect 0 (some ⟨some .notFound, false, 0⟩))
    (.step (e := .set 0 (some ⟨.installing, 1⟩)) (.step (e := .select 0 0) .refl trivial rfl)
      trivial rfl) trivial rfl, fun h => (h _ rfl _ rfl).1 rfl⟩

theorem respects_of_alone_sample :
    ∃ p : Panel Nat, Machine.Reaches step Alone (.start fun _ => some ⟨.ready, 0⟩) p ∧
      (p.reconciles 0).isSome ∧ Respects p (.update 0 2) :=
  have hreach := .step (e := .inspect 0 (some ⟨some .notFound, false, 0⟩))
    (.step (e := .select 0 0) .refl trivial rfl) trivial rfl
  ⟨_, hreach, rfl, respects_of_alone _ hreach _⟩

end SquadPanel.Servers
