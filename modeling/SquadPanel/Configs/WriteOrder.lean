import SquadPanel.Configs.WriteVersion

/-!
# The order of a config write

What every call of `writeVersion` does in which order: lock, tip, version, disk,
commit.
-/

namespace SquadPanel.Configs

open Js Lib Prog

/-! ## Where a call is -/

/-- A call has a transaction, then the lock, with the hash of the tip once it has read it.  It
inserts a version of some hash, and writes the disk. -/
inductive WritePhase where
  | outside
  | opened (tx : TxId)
  | locked (tx : TxId) (tip : Option (List UInt8))
  | inserted (tx : TxId) (sha : List UInt8)
  | written (tx : TxId)
deriving Repr, DecidableEq

namespace WritePhase

def tx : WritePhase → Option TxId
  | .outside => none
  | .opened tx | .locked tx _ | .inserted tx _ | .written tx => some tx

/-- The transaction that has been given the lock. -/
def holder : WritePhase → Option TxId
  | .outside | .opened _ => none
  | .locked tx _ | .inserted tx _ | .written tx => some tx

theorem tx_of_holder {phase : WritePhase} {y : TxId} (h : phase.holder = some y) :
    phase.tx = some y := by
  cases phase with
  | outside | opened => cases h
  | locked | inserted | written => exact h

def next (e : ConfigCall) (r : ConfigReply e) (phase : WritePhase) : WritePhase :=
  match e, r, phase with
  | .begin, some (tx, _), _ => .opened tx
  | .advisoryXactLock tx _, some _, _ => .locked tx none
  | .selectTip tx, some answer, _ => .locked tx (answer.map (·.2))
  | .insertVersion tx row, some _, _ => .inserted tx row.sha256
  | .fileAtomicWrite _, .done, .inserted tx _ => .written tx
  | .commit _, _, _ | .rollback _, _, _ => .outside
  | _, _, phase => phase

end WritePhase

section Protocol
variable (host : ConfigHost) (key : JsString)

/-- The disk is written with the tip's content or with that of the inserted version, and a version
is committed after it was written. -/
def writeOrder : Protocol ConfigCall ConfigReply WritePhase where
  pre
    | .begin, phase => phase = .outside
    | .advisoryXactLock tx key', phase => phase = .opened tx ∧ key' = key
    | .selectTip tx, phase => phase = .locked tx none
    | .insertVersion tx _, phase => ∃ tip, phase = .locked tx tip
    | .fileAtomicWrite content, phase =>
      ∃ tx, phase = .locked tx (some (host.sha256 content)) ∨
        phase = .inserted tx (host.sha256 content)
    | .commit tx, phase => (∃ tip, phase = .locked tx tip) ∨ phase = .written tx
    | .rollback tx, phase => phase.tx = some tx ∧ phase ≠ .written tx
    | _, _ => True
  next := WritePhase.next

end Protocol

/-- The key of the lock that the calls on a file take. -/
def lockKey (serverId : JsString) (name : AllowedConfigFile) : JsString :=
  if name = .admins then js "admins-cfg-sync:" ++ serverId
  else js "config-write:" ++ serverId ++ js ":" ++ name.text

theorem withFileLock_eq {α : Type} (serverId : JsString) (name : AllowedConfigFile)
    (work : TxId → ConfigM α) :
    withFileLock serverId name work = withAdvisoryLock (lockKey serverId name) work := by
  unfold withFileLock lockKey
  split <;> rfl

/-- How the work inside the lock ends: it may be committed, or must be rolled back. -/
def WorkDone {α : Type} (tx : TxId) : Except ConfigError α → WritePhase → Prop
  | .ok _, phase => (∃ tip, phase = .locked tx tip) ∨ phase = .written tx
  | .error _, phase => phase.tx = some tx ∧ phase ≠ .written tx

section Order
variable {host : ConfigHost} {key serverId : JsString} {name : AllowedConfigFile} {tx : TxId}
  {α : Type}

theorem workDone_locked {result : Except ConfigError α} {tip : Option (List UInt8)} :
    WorkDone tx result (.locked tx tip) := by
  cases result with
  | ok _ => exact .inl ⟨tip, rfl⟩
  | error _ => exact ⟨rfl, nofun⟩

variable (diskContent : JsString)

theorem writeOrder_repairDisk (force : Bool) (prevSha : List UInt8) :
    (repairDisk host name diskContent force prevSha).run.Wp (writeOrder host key) (WorkDone tx)
      (.locked tx (some (host.sha256 diskContent))) := by
  simp only [repairDisk, wp_run_bind, wp_run_await]
  refine ⟨trivial, fun onDisk => ?_⟩
  split
  · simp only [wp_run_bind, wp_run_await]
    refine ⟨⟨tx, .inl rfl⟩, fun reply => ?_⟩
    cases reply <;> exact workDone_locked
  · exact workDone_locked

variable (request : WriteRequest)

theorem writeOrder_insertAndWrite (prev : Option (JsString × List UInt8))
    (tip : Option (List UInt8)) :
    (insertAndWrite host name tx diskContent request prev).run.Wp (writeOrder host key)
      (WorkDone tx) (.locked tx tip) := by
  refine ⟨⟨tip, rfl⟩, fun answer => ?_⟩
  cases answer with
  | none => exact workDone_locked
  | some answer =>
    refine ⟨⟨tx, .inr rfl⟩, fun reply => ?_⟩
    cases reply with
    | done => exact .inr rfl
    | refused | lost => exact ⟨rfl, nofun⟩

theorem writeOrder_persistVersion :
    (persistVersion host name diskContent request tx).run.Wp (writeOrder host key) (WorkDone tx)
      (.locked tx none) := by
  simp only [persistVersion, wp_run_bind, wp_run_await]
  refine ⟨trivial, fun answer => ?_⟩
  cases answer with
  | none => exact workDone_locked
  | some live =>
    simp only [orFail]
    split
    · simp only [wp_run_bind, wp_run_await]
      refine ⟨rfl, fun answer => ?_⟩
      cases answer with
      | none => exact workDone_locked
      | some prev =>
        cases prev with
        | none => exact writeOrder_insertAndWrite diskContent request none none
        | some row =>
          simp only [orFail]
          split
          · next hsha =>
            obtain ⟨id, sha⟩ := row
            obtain rfl : sha = host.sha256 diskContent := hsha
            exact writeOrder_repairDisk diskContent request.force _
          · exact writeOrder_insertAndWrite diskContent request (some row) (some row.2)
    · exact workDone_locked

/-- A transaction leaves nothing open. -/
theorem writeOrder_transaction {work : TxId → ConfigM α}
    (hwork : ∀ tx, (work tx).run.Wp (writeOrder host key) (WorkDone tx) (.opened tx)) :
    (transaction work).run.Wp (writeOrder host key) (fun _ phase => phase = .outside)
      .outside := by
  simp only [transaction, wp_run_bind, wp_run_await, wp_run_tryCatch]
  refine ⟨rfl, fun answer => ?_⟩
  cases answer with
  | none => rfl
  | some opened =>
    refine wp_mono (fun result phase hdone => ?_) (hwork opened.1)
    cases result with
    | ok a => exact ⟨hdone, fun reply => by cases reply <;> rfl⟩
    | error error => exact ⟨hdone, fun _ => rfl⟩

theorem writeOrder_withAdvisoryLock {work : TxId → ConfigM α}
    (hwork : ∀ tx, (work tx).run.Wp (writeOrder host key) (WorkDone tx) (.locked tx none)) :
    (withAdvisoryLock key work).run.Wp (writeOrder host key) (fun _ phase => phase = .outside)
      .outside := by
  refine writeOrder_transaction fun tx => ?_
  refine ⟨⟨rfl, rfl⟩, fun answer => ?_⟩
  cases answer with
  | none => exact ⟨rfl, nofun⟩
  | some _ => exact hwork tx

theorem writeOrder_resolveDiskContent (content : JsString) :
    (resolveDiskContent name content).run.Wp (writeOrder host key)
      (fun _ phase => phase = .outside) .outside := by
  unfold resolveDiskContent
  split
  · simp only [wp_run_bind, wp_run_await]
    refine ⟨trivial, fun answer => ?_⟩
    cases answer with
    | none => rfl
    | some diskContent => exact ⟨trivial, fun answer => by cases answer <;> rfl⟩
  · rfl

theorem writeOrder_writeVersion :
    (writeVersion host serverId name request).run.Wp (writeOrder host (lockKey serverId name))
      (fun _ phase => phase = .outside) .outside := by
  simp only [writeVersion, wp_run_bind, withFileLock_eq]
  refine wp_mono (fun content phase hphase => ?_)
    (writeOrder_resolveDiskContent request.content)
  subst hphase
  cases content with
  | error error => rfl
  | ok diskContent =>
    refine wp_mono (fun persisted phase hphase => ?_)
      (writeOrder_withAdvisoryLock fun tx => writeOrder_persistVersion diskContent request)
    subst hphase
    cases persisted with
    | error error => rfl
    | ok persisted =>
      simp only
      split
      · split
        · exact ⟨trivial, fun _ => rfl⟩
        · rfl
      · rfl

theorem writeOrder_body :
    ((configSystem host serverId name).body request).Wp (writeOrder host (lockKey serverId name))
      (fun _ phase => phase = .outside) .outside := by
  refine (wp_bind _ _ _ _).2 (wp_mono ?_ (writeOrder_writeVersion request))
  exact fun _ _ hphase => hphase

end Order

end SquadPanel.Configs
