import Mathlib.Data.Fintype.Basic
import SquadPanel.Configs.WriteOrder

/-!
# The latest version and the bytes on disk

Versions are ordered by the start of their transactions, the disk writes by the
lock.  Where a transaction gets the lock only when it has started after every
version there is, and no call fails between its disk write and its commit, the
latest version describes the disk whenever no call is between these two.
-/

namespace SquadPanel.Configs

open Js Lib List Option

variable {ι : Type}

/-! ## Versions and phases -/

def Latest (rows : List VersionRow) (row : VersionRow) : Prop :=
  row ∈ rows ∧ ∀ row' ∈ rows, row'.createdAt ≤ row.createdAt

/-- The latest version has the hash of the bytes on disk. -/
def TipOnDisk (host : ConfigHost) (db : ConfigDb) : Prop :=
  ∀ row, Latest db.versions row →
    ∃ content, db.disk = some content ∧ row.sha256 = host.sha256 content

abbrev WriteConfig (ι : Type) := Config ι ConfigCall ConfigReply WriteRequest ConfigDb

abbrev WriteProc := Proc ConfigCall ConfigReply WriteRequest

section Phases
variable (host : ConfigHost) (key : JsString)

def phaseOf (p : WriteProc) : WritePhase :=
  (writeOrder host key).ghost (fun _ => .outside) p.arg p.hist

/-- The transaction has the lock and is younger than every version. -/
structure Owns (db : ConfigDb) (tx : TxId) (opened : OpenTx) : Prop where
  lock : db.locks key = some tx
  later : ∀ row ∈ db.versions, row.createdAt < opened.startedAt

/-- What a phase says about the database, as long as the transaction is there. -/
def PhaseInv (db : ConfigDb) : WritePhase → Prop
  | .outside => True
  | .opened tx => ∀ opened, db.txs tx = some opened → opened.inserted = []
  | .locked tx tip => ∀ opened, db.txs tx = some opened → opened.inserted = [] ∧
      Owns key db tx opened ∧
      ∀ sha, tip = some sha → ∃ row, Latest db.versions row ∧ row.sha256 = sha
  | .inserted tx sha => ∀ opened, db.txs tx = some opened → Owns key db tx opened ∧
      ∃ row, opened.inserted = [row] ∧ row.createdAt = opened.startedAt ∧ row.sha256 = sha
  | .written tx => ∃ opened, db.txs tx = some opened ∧ Owns key db tx opened ∧
      ∃ row content, opened.inserted = [row] ∧ row.createdAt = opened.startedAt ∧
        db.disk = some content ∧ row.sha256 = host.sha256 content

end Phases

section Frame
variable {host : ConfigHost} {key : JsString} {db db' : ConfigDb} {phase : WritePhase}

section
variable (hinv : PhaseInv host key db phase)
include hinv

theorem PhaseInv.lock {tx : TxId} {opened : OpenTx}
    (hholder : phase.holder = some tx) (hopen : db.txs tx = some opened) :
    db.locks key = some tx := by
  cases phase with
  | outside | opened => cases hholder
  | locked =>
    cases hholder
    exact (hinv opened hopen).2.1.lock
  | inserted =>
    cases hholder
    exact (hinv opened hopen).1.lock
  | written =>
    cases hholder
    obtain ⟨_, _, howns, -⟩ := hinv
    exact howns.lock

/-- A step that leaves a call's transaction alone, and what the lock protects where it holds the
lock. -/
theorem PhaseInv.frame (htxs : ∀ tx, phase.tx = some tx → db'.txs tx = db.txs tx)
    (hheld : ∀ tx opened, phase.holder = some tx → db.txs tx = some opened →
      db'.locks key = some tx ∧ db'.versions = db.versions ∧
        (phase = .written tx → db'.disk = db.disk)) :
    PhaseInv host key db' phase := by
  cases phase with
  | outside => trivial
  | opened tx =>
    intro opened hopen
    rw [htxs tx rfl] at hopen
    exact hinv opened hopen
  | locked tx tip =>
    intro opened hopen
    rw [htxs tx rfl] at hopen
    obtain ⟨hempty, howns, htip⟩ := hinv opened hopen
    obtain ⟨hlock, hversions, -⟩ := hheld tx opened rfl hopen
    rw [hversions]
    exact ⟨hempty, ⟨hlock, hversions ▸ howns.later⟩, htip⟩
  | inserted tx sha =>
    intro opened hopen
    rw [htxs tx rfl] at hopen
    obtain ⟨howns, hrow⟩ := hinv opened hopen
    obtain ⟨hlock, hversions, -⟩ := hheld tx opened rfl hopen
    exact ⟨⟨hlock, hversions ▸ howns.later⟩, hrow⟩
  | written tx =>
    obtain ⟨opened, hopen, howns, row, content, hrow, hcreated, hdisk, hsha⟩ := hinv
    obtain ⟨hlock, hversions, hsame⟩ := hheld tx opened rfl hopen
    refine ⟨opened, (htxs tx rfl).trans hopen, ⟨hlock, hversions ▸ howns.later⟩, row, content,
      hrow, hcreated, ?_, hsha⟩
    rw [hsame rfl, hdisk]

/-- A call that has not written its version says nothing any more when its transaction ends, and
other calls do not notice. -/
theorem PhaseInv.endTx {tx : TxId}
    (hphase : phase ≠ .written tx) : PhaseInv host key (db.endTx tx) phase := by
  by_cases htx : phase.tx = some tx
  · have hgone {opened : OpenTx} (hopen : (db.endTx tx).txs tx = some opened) : False := by
      simp [ConfigDb.endTx, ConfigDb.setTx] at hopen
    cases phase with
    | outside => trivial
    | opened | locked | inserted =>
      cases htx
      exact fun opened hopen => (hgone hopen).elim
    | written =>
      cases htx
      exact absurd rfl hphase
  · have hne {y : TxId} (hy : phase.tx = some y) : y ≠ tx := fun heq => htx (heq ▸ hy)
    refine hinv.frame (fun y hy => ?_) fun y opened hy hopen => ?_
    · simp only [ConfigDb.endTx, ConfigDb.setTx, if_neg (hne hy)]
    · have hlock := hinv.lock hy hopen
      refine ⟨?_, rfl, fun _ => rfl⟩
      simp only [ConfigDb.endTx, hlock, some.injEq,
        if_neg (hne (WritePhase.tx_of_holder hy))]

end

end Frame

/-! ## One call -/

/-- A call that goes as it should: the lock is given to a transaction that has started after every
version, the disk is written while the transaction is there, and a call that has written its
version to the disk is not refused its commit. -/
def OrderlyCall (db : ConfigDb) (phase : WritePhase) : (e : ConfigCall) → ConfigReply e → Prop
  | .advisoryXactLock tx _, some _ =>
    ∀ opened, db.txs tx = some opened → ∀ row ∈ db.versions, row.createdAt < opened.startedAt
  | .fileAtomicWrite _, .done => ∀ tx, phase.tx = some tx → (db.txs tx).isSome
  | .fileAtomicWrite _, .lost =>
    (∀ tx, phase.tx = some tx → (db.txs tx).isSome) ∧ ∀ tx sha, phase ≠ .inserted tx sha
  | .commit tx, .refused => phase ≠ .written tx
  | _, _ => True

/-- What the calls of an orderly write come to. -/
inductive PhaseStep (host : ConfigHost) (key : JsString) (db : ConfigDb) :
    WritePhase → ConfigDb → WritePhase → Prop
  | idle {phase : WritePhase} : PhaseStep host key db phase db phase
  | begin (startedAt : Int) : PhaseStep host key db .outside
      { db.setTx db.nextTx (some ⟨startedAt, []⟩) with nextTx := db.nextTx + 1 } (.opened db.nextTx)
  | lock {tx : TxId} {opened : OpenTx} (hopen : db.txs tx = some opened)
      (hfree : db.locks key = none ∨ db.locks key = some tx)
      (hlater : ∀ row ∈ db.versions, row.createdAt < opened.startedAt) :
      PhaseStep host key db (.opened tx) (db.lock tx key) (.locked tx none)
  | readTip {tx : TxId} {opened : OpenTx} {answer : Option (JsString × List UInt8)}
      (hopen : db.txs tx = some opened) (htip : IsTip (db.versions ++ opened.inserted) answer) :
      PhaseStep host key db (.locked tx none) db (.locked tx (answer.map (·.2)))
  | insert {tx : TxId} {tip : Option (List UInt8)} {opened : OpenTx} {row : VersionRow}
      (hopen : db.txs tx = some opened) (hcreated : row.createdAt = opened.startedAt) :
      PhaseStep host key db (.locked tx tip) (db.insert tx opened row) (.inserted tx row.sha256)
  | writeTip {tx : TxId} {opened : OpenTx} {content : JsString} (hopen : db.txs tx = some opened) :
      PhaseStep host key db (.locked tx (some (host.sha256 content)))
        { db with disk := some content } (.locked tx (some (host.sha256 content)))
  | writeVersion {tx : TxId} {opened : OpenTx} {content : JsString}
      (hopen : db.txs tx = some opened) :
      PhaseStep host key db (.inserted tx (host.sha256 content))
        { db with disk := some content } (.written tx)
  | commit {tx : TxId} {phase : WritePhase} {opened : OpenTx}
      (hphase : (∃ tip, phase = .locked tx tip) ∨ phase = .written tx)
      (hopen : db.txs tx = some opened) :
      PhaseStep host key db phase (db.commit tx opened) .outside
  | rollback {tx : TxId} {phase : WritePhase} (htx : phase.tx = some tx)
      (hphase : phase ≠ .written tx) : PhaseStep host key db phase (db.endTx tx) .outside
  | leave {tx : TxId} {phase : WritePhase} (htx : phase.tx = some tx)
      (hphase : phase ≠ .written tx) : PhaseStep host key db phase db .outside

section Perform
variable {host : ConfigHost} {key : JsString} {db db' : ConfigDb} {phase : WritePhase}
  {e : ConfigCall} {r : ConfigReply e}

theorem phaseStep_fileAtomicWrite {content : JsString} {r : EffectReply}
    (hpre : (writeOrder host key).pre (.fileAtomicWrite content) phase)
    (horderly : OrderlyCall db phase (.fileAtomicWrite content) r)
    (hperform : ConfigDb.perform (.fileAtomicWrite content) db r = some db') :
    PhaseStep host key db phase db' (WritePhase.next (.fileAtomicWrite content) r phase) := by
  cases r with
  | refused =>
    cases hperform
    obtain ⟨tx, rfl | rfl⟩ := hpre
    · exact .idle
    · exact .idle
  | done =>
    cases hperform
    obtain ⟨tx, rfl | rfl⟩ := hpre <;>
      obtain ⟨opened, hopen⟩ := isSome_iff_exists.1 (horderly tx rfl)
    · exact .writeTip hopen
    · exact .writeVersion hopen
  | lost =>
    cases hperform
    obtain ⟨tx, rfl | rfl⟩ := hpre
    · obtain ⟨opened, hopen⟩ := isSome_iff_exists.1 (horderly.1 tx rfl)
      exact .writeTip hopen
    · exact absurd rfl (horderly.2 tx _)

theorem phaseStep_commit {tx : TxId} {r : EffectReply}
    (hpre : (writeOrder host key).pre (.commit tx) phase)
    (horderly : OrderlyCall db phase (.commit tx) r)
    (hperform : ConfigDb.perform (.commit tx) db r = some db') :
    PhaseStep host key db phase db' .outside := by
  cases r with
  | refused =>
    cases hperform
    refine .rollback ?_ horderly
    rcases hpre with ⟨tip, rfl⟩ | rfl <;> rfl
  | done | lost =>
    obtain ⟨opened, hopen, rfl⟩ := map_eq_some_iff.1 hperform
    exact .commit hpre hopen

theorem phaseStep_of_perform (hpre : (writeOrder host key).pre e phase)
    (horderly : OrderlyCall db phase e r) (hperform : ConfigDb.perform e db r = some db') :
    PhaseStep host key db phase db' (WritePhase.next e r phase) := by
  cases e with
  | fileAtomicWrite content => exact phaseStep_fileAtomicWrite hpre horderly hperform
  | commit tx => exact phaseStep_commit hpre horderly hperform
  | rollback tx =>
    cases r with
    | none =>
      cases hperform
      exact .leave hpre.1 hpre.2
    | some _ =>
      cases hperform
      exact .rollback hpre.1 hpre.2
  | begin =>
    obtain rfl : phase = .outside := hpre
    cases r with
    | none =>
      cases hperform
      exact .idle
    | some answer =>
      obtain ⟨tx, startedAt⟩ := answer
      obtain ⟨rfl, rfl⟩ := of_guarded hperform
      exact .begin startedAt
  | advisoryXactLock tx key' =>
    obtain ⟨rfl, rfl⟩ := hpre
    cases r with
    | none =>
      cases hperform
      exact .idle
    | some _ =>
      obtain ⟨opened, hopen, hlock⟩ := bind_eq_some_iff.1 hperform
      obtain ⟨hfree, rfl⟩ := of_guarded hlock
      exact .lock hopen hfree (horderly opened hopen)
  | selectTip tx =>
    obtain rfl : phase = .locked tx none := hpre
    cases r with
    | none =>
      cases hperform
      exact .idle
    | some answer =>
      obtain ⟨opened, hopen, htip⟩ := bind_eq_some_iff.1 hperform
      simp only [ite_none_right_eq_some, some.injEq] at htip
      obtain ⟨htip, rfl⟩ := htip
      exact .readTip hopen htip
  | insertVersion tx new =>
    obtain ⟨tip, rfl⟩ := hpre
    cases r with
    | none =>
      cases hperform
      exact .idle
    | some answer =>
      obtain ⟨id, createdAt⟩ := answer
      obtain ⟨opened, hopen, hinsert⟩ := bind_eq_some_iff.1 hperform
      obtain ⟨⟨hcreated, -⟩, rfl⟩ := of_guarded hinsert
      exact .insert hopen hcreated
  | selectServer tx =>
    cases r with
    | none =>
      cases hperform
      exact .idle
    | some live =>
      obtain ⟨_, _, hsame⟩ := bind_eq_some_iff.1 hperform
      obtain ⟨-, rfl⟩ := of_guarded hsame
      exact .idle
  | fileRead =>
    cases r with
    | none =>
      cases hperform
      exact .idle
    | some content =>
      obtain ⟨-, rfl⟩ := of_guarded hperform
      exact .idle
  | unmaskRconPassword | assertRconCredentialsUnchanged | reloadServerConfig =>
    cases hperform
    exact .idle

end Perform

/-! ## What a step keeps -/

section Step
variable {host : ConfigHost} {key : JsString} {db db' : ConfigDb} {phase phase' : WritePhase}

section
variable (hstep : PhaseStep host key db phase db' phase') (hinv : PhaseInv host key db phase)
include hstep hinv

theorem PhaseStep.phaseInv : PhaseInv host key db' phase' := by
  cases hstep with
  | idle => exact hinv
  | begin startedAt =>
    intro opened hopen
    simp only [ConfigDb.setTx, if_true, some.injEq] at hopen
    rw [← hopen]
  | lock hopen hfree hlater =>
    intro opened hopen'
    refine ⟨hinv opened hopen', ⟨by simp [ConfigDb.lock], ?_⟩, nofun⟩
    rw [show opened = _ from some.inj (hopen'.symm.trans hopen)]
    exact hlater
  | @readTip _ _ answer hopen htip =>
    intro opened hopen'
    obtain rfl := some.inj (hopen.symm.trans hopen')
    obtain ⟨hempty, howns, -⟩ := hinv _ hopen
    rw [hempty, append_nil] at htip
    refine ⟨hempty, howns, fun sha hsha => ?_⟩
    cases answer with
    | none => cases hsha
    | some answer =>
      obtain ⟨row, hrow, -, hrowSha, hlatest⟩ := htip
      cases hsha
      exact ⟨row, ⟨hrow, hlatest⟩, hrowSha⟩
  | insert hopen hcreated =>
    intro opened hopen'
    simp only [ConfigDb.insert, ConfigDb.setTx, if_true, some.injEq] at hopen'
    obtain ⟨hempty, howns, -⟩ := hinv _ hopen
    subst hopen'
    exact ⟨⟨howns.lock, howns.later⟩, _, by rw [hempty]; rfl, hcreated, rfl⟩
  | writeTip hopen =>
    exact hinv.frame (fun _ _ => rfl) fun tx opened htx hopen' =>
      ⟨hinv.lock htx hopen', rfl, nofun⟩
  | writeVersion hopen =>
    obtain ⟨howns, row, hrow, hcreated, hsha⟩ := hinv _ hopen
    exact ⟨_, hopen, ⟨howns.lock, howns.later⟩, row, _, hrow, hcreated, rfl, hsha⟩
  | commit | rollback | leave => trivial

/-- A transaction that has the lock is the only one. -/
theorem PhaseStep.others {other : WritePhase} (hother : PhaseInv host key db other)
    (hapart : ∀ tx, phase.tx = some tx → other.tx ≠ some tx)
    (hold : ∀ tx, other.tx = some tx → tx < db.nextTx) : PhaseInv host key db' other := by
  have hne {tx y : TxId} (htx : phase.tx = some tx) (hy : other.tx = some y) : y ≠ tx :=
    fun heq => hapart tx htx (heq ▸ hy)
  -- where the step is one of the lock's holder, the other call has no lock to lose
  have halone {tx : TxId} {opened : OpenTx} {db' : ConfigDb} (htx : phase.holder = some tx)
      (hopen : db.txs tx = some opened)
      (htxs : ∀ y, other.tx = some y → db'.txs y = db.txs y) : PhaseInv host key db' other := by
    refine hother.frame htxs fun y opened' hy hopen' => ?_
    have hlock := hinv.lock htx hopen
    rw [hother.lock hy hopen', some.injEq] at hlock
    exact absurd hlock (hne (WritePhase.tx_of_holder htx) (WritePhase.tx_of_holder hy))
  cases hstep with
  | idle | readTip | leave => exact hother
  | begin startedAt =>
    refine hother.frame (fun y hy => ?_) fun y opened hy hopen =>
      ⟨hother.lock hy hopen, rfl, fun _ => rfl⟩
    have hlt := hold y hy
    simp only [ConfigDb.setTx, if_neg (ne_of_lt hlt)]
  | lock hopen hfree hlater =>
    refine hother.frame (fun y hy => rfl) fun y opened hy hopen' => ?_
    -- the lock was free
    have hlock := hother.lock hy hopen'
    rw [hlock] at hfree
    rcases hfree with hnone | hsome
    · cases hnone
    · exact absurd (some.inj hsome) (hne rfl (WritePhase.tx_of_holder hy))
  | insert hopen hcreated =>
    refine halone rfl hopen fun y hy => ?_
    simp only [ConfigDb.insert, ConfigDb.setTx, if_neg (hne rfl hy)]
  | writeTip hopen | writeVersion hopen => exact halone rfl hopen fun y hy => rfl
  | @commit tx _ opened hphase hopen =>
    have htx : phase.holder = some tx := by
      rcases hphase with ⟨tip, rfl⟩ | rfl <;> rfl
    refine halone htx hopen fun y hy => ?_
    simp only [ConfigDb.commit, ConfigDb.endTx, ConfigDb.setTx,
      if_neg (hne (WritePhase.tx_of_holder htx) hy)]
  | rollback htx hphase =>
    refine hother.endTx ?_
    rintro rfl
    exact hapart _ htx rfl

end

theorem tipOnDisk_commit {tx : TxId} {opened : OpenTx}
    (hinv : PhaseInv host key db (.written tx)) (hopen : db.txs tx = some opened) :
    TipOnDisk host (db.commit tx opened) := by
  obtain ⟨opened', hopen', howns, row, content, hrow, hcreated, hdisk, hsha⟩ := hinv
  obtain rfl := some.inj (hopen.symm.trans hopen')
  rintro row' ⟨hmem, hlatest⟩
  simp only [ConfigDb.commit, hrow, mem_append, mem_singleton] at hmem hlatest
  rcases hmem with hmem | rfl
  · have hle := hlatest row (.inr rfl)
    have hlt := howns.later row' hmem
    omega
  · exact ⟨content, hdisk, hsha⟩

section
variable (hstep : PhaseStep host key db phase db' phase')
include hstep

theorem PhaseStep.tipOnDisk (hinv : PhaseInv host key db phase)
    (htip : (∀ tx, phase ≠ .written tx) → TipOnDisk host db)
    (hafter : ∀ tx, phase' ≠ .written tx) : TipOnDisk host db' := by
  have hunwritten {tx : TxId} (htx : phase.tx = some tx) (hphase : phase ≠ .written tx) :
      ∀ y, phase ≠ .written y := by
    rintro y rfl
    cases htx
    exact hphase rfl
  cases hstep with
  | idle => exact htip hafter
  | begin | lock | readTip | insert => exact htip nofun
  | @writeTip tx opened content hopen =>
    -- all latest versions describe the disk, so that a write of the hash of one keeps them so
    intro row hlatest
    obtain ⟨row₀, hlatest₀, hsha₀⟩ := (hinv opened hopen).2.2 _ rfl
    obtain ⟨before, hdisk, hsha⟩ := htip nofun row hlatest
    obtain ⟨before₀, hdisk₀, hshaBefore⟩ := htip nofun row₀ hlatest₀
    obtain rfl := some.inj (hdisk.symm.trans hdisk₀)
    exact ⟨content, rfl, by rw [hsha, ← hshaBefore, hsha₀]⟩
  | writeVersion hopen => exact absurd rfl (hafter _)
  | @commit tx _ opened hphase hopen =>
    rcases hphase with ⟨tip, rfl⟩ | rfl
    · have hempty := (hinv opened hopen).1
      have hsame : (db.commit tx opened).versions = db.versions := by
        simp only [ConfigDb.commit, hempty, append_nil]
      intro row hlatest
      rw [hsame] at hlatest
      exact htip nofun row hlatest
    · exact tipOnDisk_commit hinv hopen
  | rollback htx hphase | leave htx hphase => exact htip (hunwritten htx hphase)

theorem PhaseStep.nextTx_le : db.nextTx ≤ db'.nextTx := by
  cases hstep with
  | begin => exact Nat.le_succ _
  | _ => exact le_refl _

/-- A transaction is the call's own or a new one. -/
theorem PhaseStep.tx {y : TxId}
    (hy : phase'.tx = some y) : phase.tx = some y ∨ (y = db.nextTx ∧ y < db'.nextTx) := by
  cases hstep with
  | begin =>
    cases hy
    exact .inr ⟨rfl, Nat.lt_succ_self _⟩
  | idle | lock | readTip | insert | writeTip | writeVersion => exact .inl hy
  | commit | rollback | leave => cases hy

end

end Step

/-! ## Runs -/

section Runs
variable (host : ConfigHost) (key : JsString)

/-- Calls go as they should, and a call that has written its version to the disk neither stops nor
loses its transaction before it has committed. -/
def Orderly (c : WriteConfig ι) : Label ι ConfigCall ConfigReply WriteRequest ConfigMove → Prop
  | .perform pid ⟨e, r⟩ =>
    ∀ p, c.procs pid = some p → OrderlyCall c.shared (phaseOf host key p) e r
  | .stop pid => ∀ p, c.procs pid = some p → ∀ tx, phaseOf host key p ≠ .written tx
  | .environment (.abort tx) => ∀ pid p, c.procs pid = some p → phaseOf host key p ≠ .written tx
  | _ => True

structure TipInv (c : WriteConfig ι) : Prop where
  order : System.Follows (writeOrder host key) (· = .outside) (fun _ => .outside) c
  phases : ∀ pid p, c.procs pid = some p → PhaseInv host key c.shared (phaseOf host key p)
  fresh : ∀ pid p tx, c.procs pid = some p → (phaseOf host key p).tx = some tx →
    tx < c.shared.nextTx
  apart : ∀ pid pid' p p' tx, c.procs pid = some p → c.procs pid' = some p' →
    (phaseOf host key p).tx = some tx → (phaseOf host key p').tx = some tx → pid = pid'
  tip : (∀ pid p tx, c.procs pid = some p → phaseOf host key p ≠ .written tx) →
    TipOnDisk host c.shared

variable {host key} [DecidableEq ι] {serverId : JsString} {name : AllowedConfigFile}
  {c c' : WriteConfig ι}

theorem TipInv.setProc {pid : ι} {p : Option WriteProc} (hinv : TipInv host key c)
    (horder : System.Follows (writeOrder host key) (· = .outside) (fun _ => .outside)
      (c.setProc pid p)) (hnew : ∀ q, p = some q → phaseOf host key q = .outside)
    (hold : ∀ q tx, c.procs pid = some q → phaseOf host key q ≠ .written tx) :
    TipInv host key (c.setProc pid p) := by
  have hcases {pid' : ι} {q : WriteProc} (hq : (c.setProc pid p).procs pid' = some q) :
      phaseOf host key q = .outside ∨ c.procs pid' = some q := by
    rcases Config.setProc_procs_eq_some hq with ⟨-, hp⟩ | ⟨-, hbefore⟩
    · exact .inl (hnew q hp)
    · exact .inr hbefore
  have hopened {pid' : ι} {q : WriteProc} {tx : TxId} (hq : (c.setProc pid p).procs pid' = some q)
      (htx : (phaseOf host key q).tx = some tx) : c.procs pid' = some q := by
    rcases hcases hq with houtside | hbefore
    · rw [houtside] at htx
      cases htx
    · exact hbefore
  refine ⟨horder, fun pid' q hq => ?_,
    fun pid' q tx hq htx => hinv.fresh pid' q tx (hopened hq htx) htx,
    fun _ _ _ _ tx hq₁ hq₂ htx₁ htx₂ =>
      hinv.apart _ _ _ _ tx (hopened hq₁ htx₁) (hopened hq₂ htx₂) htx₁ htx₂,
    fun hunwritten => hinv.tip ?_⟩
  · rcases hcases hq with houtside | hbefore
    · rw [houtside]
      trivial
    · exact hinv.phases pid' q hbefore
  · intro pid' q tx hq
    by_cases hpid : pid' = pid
    · subst hpid
      exact hold q tx hq
    · exact hunwritten pid' q tx (by rwa [Config.setProc_procs_of_ne c p hpid])

theorem TipInv.answered {pid : ι} {arg : WriteRequest}
    {hist : List (Event ConfigCall ConfigReply)} {e : ConfigCall}
    {k : ConfigReply e → Prog ConfigCall ConfigReply Unit} {r : ConfigReply e} {db' : ConfigDb}
    (hinv : TipInv host key c) (hproc : c.procs pid = some ⟨arg, hist, .call e k⟩)
    (hstep : PhaseStep host key c.shared (phaseOf host key ⟨arg, hist, .call e k⟩) db'
      (phaseOf host key ⟨arg, hist ++ [⟨e, r⟩], k r⟩))
    (horder : System.Follows (writeOrder host key) (· = .outside) (fun _ => .outside)
      (System.answered c pid arg hist ⟨e, r⟩ (k r) db')) :
    TipInv host key (System.answered c pid arg hist ⟨e, r⟩ (k r) db') := by
  have hphase := hinv.phases pid _ hproc
  have hfresh {pid' : ι} {q : WriteProc} {tx : TxId} (hq : c.procs pid' = some q)
      (htx : (phaseOf host key q).tx = some tx) : tx < c.shared.nextTx :=
    hinv.fresh pid' q tx hq htx
  -- the process's transaction is nobody else's, the new one included
  have hmine {pid' : ι} {q : WriteProc} {tx : TxId} (hne : pid' ≠ pid)
      (hq : c.procs pid' = some q) (htx : (phaseOf host key q).tx = some tx)
      (hnew : (phaseOf host key ⟨arg, hist ++ [⟨e, r⟩], k r⟩).tx = some tx) : False := by
    rcases hstep.tx hnew with hbefore | ⟨rfl, -⟩
    · exact hne (hinv.apart pid' pid q _ tx hq hproc htx hbefore)
    · exact lt_irrefl _ (hfresh hq htx)
  refine ⟨horder, fun pid' q hq => ?_, fun pid' q tx hq htx => ?_,
    fun pid₁ pid₂ q₁ q₂ tx hq₁ hq₂ htx₁ htx₂ => ?_, fun hunwritten => ?_⟩
  · rcases Config.setProc_procs_eq_some hq with ⟨-, hnew⟩ | ⟨hne, hbefore⟩
    · cases hnew
      exact hstep.phaseInv hphase
    · refine hstep.others hphase (hinv.phases pid' q hbefore) (fun tx htx hother => ?_)
        fun tx htx => hfresh hbefore htx
      exact hne (hinv.apart pid' pid q _ tx hbefore hproc hother htx)
  · rcases Config.setProc_procs_eq_some hq with ⟨-, hnew⟩ | ⟨-, hbefore⟩
    · cases hnew
      rcases hstep.tx htx with htx' | ⟨-, hlt⟩
      · exact lt_of_lt_of_le (hfresh hproc htx') hstep.nextTx_le
      · exact hlt
    · exact lt_of_lt_of_le (hfresh hbefore htx) hstep.nextTx_le
  · rcases Config.setProc_procs_eq_some hq₁ with ⟨hpid₁, hnew₁⟩ | ⟨hne₁, hbefore₁⟩ <;>
      rcases Config.setProc_procs_eq_some hq₂ with ⟨hpid₂, hnew₂⟩ | ⟨hne₂, hbefore₂⟩
    · rw [hpid₁, hpid₂]
    · cases hnew₁
      exact (hmine hne₂ hbefore₂ htx₂ htx₁).elim
    · cases hnew₂
      exact (hmine hne₁ hbefore₁ htx₁ htx₂).elim
    · exact hinv.apart pid₁ pid₂ q₁ q₂ tx hbefore₁ hbefore₂ htx₁ htx₂
  · have hafter : ∀ tx, phaseOf host key ⟨arg, hist ++ [⟨e, r⟩], k r⟩ ≠ .written tx :=
      fun tx => hunwritten pid _ tx (Config.setProc_procs_self c pid _)
    refine hstep.tipOnDisk hphase (fun hbefore => hinv.tip fun pid' q tx hq => ?_) hafter
    by_cases hpid : pid' = pid
    · subst hpid
      rw [hproc] at hq
      cases hq
      exact hbefore tx
    · exact hunwritten pid' q tx ((Config.setProc_procs_of_ne c _ hpid).trans hq)

theorem TipInv.step {l : Label ι ConfigCall ConfigReply WriteRequest ConfigMove}
    (hinv : TipInv host (lockKey serverId name) c)
    (hguard : Orderly host (lockKey serverId name) c l)
    (hstep : (configSystem host serverId name).step c l = some c') :
    TipInv host (lockKey serverId name) c' := by
  have horder := System.follows_step writeOrder_body hinv.order hstep
  obtain ⟨pid, arg, -, hnone, rfl⟩ | ⟨pid, arg, hist, e, k, r, s, rfl, hproc, hperform, rfl⟩ |
    ⟨pid, rfl, rfl⟩ | ⟨m, s, rfl, hmove, rfl⟩ := System.step_cases hstep
  · refine hinv.setProc horder (fun q hq => ?_) fun q tx hq => ?_
    · cases hq
      rfl
    · rw [hnone] at hq
      cases hq
  · have hpre := (hinv.order.procs pid _ hproc).1
    refine hinv.answered hproc ?_ horder
    simp only [phaseOf, Protocol.ghost_append_singleton]
    exact phaseStep_of_perform hpre (hguard _ hproc) hperform
  · exact hinv.setProc horder nofun fun q tx hq => hguard q hq tx
  · cases m with
    | abort tx =>
      cases hmove
      exact ⟨horder, fun pid p hp => (hinv.phases pid p hp).endTx (hguard pid p hp),
        hinv.fresh, hinv.apart, hinv.tip⟩
    | setServerLive live =>
      cases hmove
      refine ⟨horder, fun pid p hp => ?_, hinv.fresh, hinv.apart, hinv.tip⟩
      have hphase := hinv.phases pid p hp
      exact hphase.frame (fun _ _ => rfl) fun tx opened htx hopen =>
        ⟨hphase.lock htx hopen, rfl, fun _ => rfl⟩

/-- No call is in progress. -/
def Quiet (c : WriteConfig ι) : Prop := ∀ pid p, c.procs pid = some p → p.completed = true

/-- After orderly writes, the latest version describes the disk whenever no call is in progress. -/
theorem tipOnDisk_of_quiet (host : ConfigHost) (serverId : JsString) (name : AllowedConfigFile)
    {db : ConfigDb} (hstart : TipOnDisk host db)
    (hreach : Machine.Reaches (configSystem host serverId name).step
      (Orderly host (lockKey serverId name)) (Config.start db) c)
    (hquiet : Quiet c) : TipOnDisk host c.shared := by
  have hinv : TipInv host (lockKey serverId name) c := by
    apply Machine.invariant_of_reaches _ _ hreach
    · exact ⟨System.follows_start db, nofun, nofun, nofun, fun _ => hstart⟩
    · intro c l c' _ hguard hinv hstep
      exact hinv.step hguard hstep
  refine hinv.tip fun pid p tx hproc => ?_
  have houtside : phaseOf host (lockKey serverId name) p = .outside :=
    hinv.order.of_completed hproc (hquiet pid p hproc)
  rw [houtside]
  exact nofun

end Runs

/-! ## Sample runs -/

section Decidable

instance (host : ConfigHost) (db : ConfigDb) : Decidable (TipOnDisk host db) :=
  decidable_of_iff (∀ row ∈ db.versions, (∀ row' ∈ db.versions, row'.createdAt ≤ row.createdAt) →
      db.disk.any (fun content => row.sha256 = host.sha256 content) = true) <| by
    simp [TipOnDisk, Latest, Option.any_eq_true]

instance (phase : WritePhase) : Decidable (∀ tx sha, phase ≠ .inserted tx sha) :=
  match phase with
  | .inserted tx sha => .isFalse fun h => h tx sha rfl
  | .outside | .opened _ | .locked _ _ | .written _ => .isTrue fun _ _ => WritePhase.noConfusion

instance (phase : WritePhase) : Decidable (∀ tx, phase ≠ .written tx) :=
  match phase with
  | .written tx => .isFalse fun h => h tx rfl
  | .outside | .opened _ | .locked _ _ | .inserted _ _ => .isTrue fun _ => WritePhase.noConfusion

instance (db : ConfigDb) (phase : WritePhase) (e : ConfigCall) (r : ConfigReply e) :
    Decidable (OrderlyCall db phase e r) := by
  unfold OrderlyCall
  split
  · exact inferInstanceAs (Decidable (∀ opened ∈ db.txs _, ∀ row ∈ db.versions, _))
  · exact inferInstanceAs (Decidable (∀ tx ∈ phase.tx, (db.txs tx).isSome = true))
  · exact inferInstanceAs (Decidable ((∀ tx ∈ phase.tx, (db.txs tx).isSome = true) ∧ _))
  · infer_instance
  · infer_instance

instance (host : ConfigHost) (key : JsString) [Fintype ι] (c : WriteConfig ι)
    (l : Label ι ConfigCall ConfigReply WriteRequest ConfigMove) :
    Decidable (Orderly host key c l) := by
  unfold Orderly
  split
  · exact inferInstanceAs (Decidable (∀ p ∈ c.procs _, _))
  · exact inferInstanceAs (Decidable (∀ p ∈ c.procs _, ∀ tx, phaseOf host key p ≠ .written tx))
  · exact inferInstanceAs (Decidable (∀ pid, ∀ p ∈ c.procs pid, phaseOf host key p ≠ .written _))
  · infer_instance

instance [Fintype ι] (c : WriteConfig ι) : Decidable (Quiet c) :=
  inferInstanceAs (Decidable (∀ pid, ∀ p ∈ c.procs pid, p.completed = true))

end Decidable

/-- The bytes of a text are their own hash. -/
def plainHost : ConfigHost where
  sha256 content := content.map UInt16.toUInt8
  maskConfigSecrets _ content := content

def emptyDb : ConfigDb where
  serverLive := true
  versions := []
  disk := none
  locks := fun _ => none
  txs := fun _ => none
  nextTx := 0

def sampleRequest (content : JsString) : WriteRequest := ⟨content, none, some (js "p"), none, false⟩

def sampleVersion (content : JsString) (parent : Option JsString) : NewVersion :=
  ⟨content, plainHost.sha256 content, parent, some (js "p"), none, none, none⟩

abbrev WriteLabel := Label (Fin 2) ConfigCall ConfigReply WriteRequest ConfigMove

/-- A call from its lock to its commit. -/
def sampleWrite (pid : Fin 2) (tx : TxId) (createdAt : Int) (content : JsString)
    (prev : Option (JsString × List UInt8)) (id : JsString) : List WriteLabel :=
  [.perform pid ⟨.advisoryXactLock tx (js "config-write:s:MOTD.cfg"), some ()⟩,
    .perform pid ⟨.selectServer tx, some true⟩, .perform pid ⟨.selectTip tx, some prev⟩,
    .perform pid ⟨.insertVersion tx (sampleVersion content (prev.map (·.1))), some (id, createdAt)⟩,
    .perform pid ⟨.fileAtomicWrite content, .done⟩, .perform pid ⟨.commit tx, .done⟩]

/-- Call 0 starts its transaction first and gets the lock last. -/
def overtakenWrites : List WriteLabel :=
  [.spawn 0 (sampleRequest (js "A")), .perform 0 ⟨.begin, some (0, 1)⟩,
    .spawn 1 (sampleRequest (js "B")), .perform 1 ⟨.begin, some (1, 2)⟩] ++
  sampleWrite 1 1 2 (js "B") none (js "b") ++
  sampleWrite 0 0 1 (js "A") (some (js "b", plainHost.sha256 (js "B"))) (js "a")

theorem not_tipOnDisk_overtakenWrites : ∃ c : WriteConfig (Fin 2), TipOnDisk plainHost emptyDb ∧
      Machine.Reaches (configSystem plainHost (js "s") .motd).step (fun _ _ => True)
        (Config.start emptyDb) c ∧
      Quiet c ∧ ¬ TipOnDisk plainHost c.shared := by
  have hrun : ((Machine.run (configSystem plainHost (js "s") .motd).step (fun _ _ => True)
      (Config.start emptyDb) overtakenWrites).map fun c =>
        decide (Quiet c ∧ ¬ TipOnDisk plainHost c.shared)) = some true := by
    decide +kernel
  obtain ⟨c, hc, hfails⟩ := Machine.reaches_of_map_run hrun
  exact ⟨c, by decide, hc, of_decide_eq_true hfails⟩

/-- Call 1 starts when call 0 is over. -/
def successiveWrites : List WriteLabel :=
  [.spawn 0 (sampleRequest (js "A")), .perform 0 ⟨.begin, some (0, 1)⟩] ++
  sampleWrite 0 0 1 (js "A") none (js "a") ++
  [.spawn 1 (sampleRequest (js "B")), .perform 1 ⟨.begin, some (1, 2)⟩] ++
  sampleWrite 1 1 2 (js "B") (some (js "a", plainHost.sha256 (js "A"))) (js "b")

theorem tipOnDisk_successiveWrites : ∃ c : WriteConfig (Fin 2),
      Machine.run (configSystem plainHost (js "s") .motd).step
        (Orderly plainHost (lockKey (js "s") .motd)) (Config.start emptyDb) successiveWrites =
          some c ∧
      c.shared.versions.length = 2 ∧ Quiet c ∧ TipOnDisk plainHost c.shared := by
  have hrun : ((Machine.run (configSystem plainHost (js "s") .motd).step
      (Orderly plainHost (lockKey (js "s") .motd)) (Config.start emptyDb) successiveWrites).map
        fun c => decide (c.shared.versions.length = 2 ∧ Quiet c)) = some true := by
    decide +kernel
  obtain ⟨c, hc, hends⟩ := map_eq_some_iff.1 hrun
  obtain ⟨hlength, hquiet⟩ := of_decide_eq_true hends
  exact ⟨c, hc, hlength, hquiet, tipOnDisk_of_quiet plainHost (js "s") .motd (by decide)
    (Machine.reaches_of_run .refl hc) hquiet⟩

end SquadPanel.Configs
