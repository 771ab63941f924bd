import SquadPanel.AdminsCfg.SyncEffects

/-!
# Admins.cfg follows the database

Any number of mutations, relay runs, deliveries, redeliveries and drift sweeps
run side by side, and any of them may stop at any point.  A row of the outbox
becomes applied only under the lock of its server, after the file got (or was
found with) the segment of readings made after the row had committed, or for a
removed server.  Hence a server whose rows are all applied has the segment of
the committed tables in its file.

The database does not end the transaction of a process that is still running,
and no two segments that a run compares have the same hash by accident.
-/

set_option linter.unusedSectionVars false

namespace SquadPanel.AdminsCfg

open Js Lib Option

section Runs
variable {ι V I : Type} [DecidableEq V] {H : Type} [DecidableEq H]

abbrev SyncConfig (ι V I : Type) :=
  Config ι (SyncCall V I) SyncReply (SyncTask V I) (SyncDb V I)

abbrev SyncLabel (ι V I : Type) :=
  Label ι (SyncCall V I) SyncReply (SyncTask V I) (SyncMove V I)

/-- The books of a process, from the calls it has made. -/
def books (hist : List (Event (SyncCall V I) SyncReply)) : Books V I :=
  hist.foldl (fun g ev => syncNext ev.call ev.answer g) .idle

variable (localeCompare : JsString → JsString → Int) (hash : JsString → H)

def readsFaithfully (g : Books V I) (text : JsString) : Bool :=
  match g with
  | .lease l =>
    (l.body localeCompare).all fun body =>
      !hashesMatch hash text body || segmentOf (some text) == some body
  | _ => true

open Classical in
/-- The database ends only the transactions of processes that are gone, and hashes do not
collide. -/
noncomputable def crashesOnly (c : SyncConfig ι V I) : SyncLabel ι V I → Bool
  | .environment (.abort x) =>
    decide (∀ pid p, c.procs pid = some p → (books p.hist).tx ≠ some x)
  | .perform pid ⟨.fileRead _, .content text⟩ =>
    (c.procs pid).all fun p => readsFaithfully localeCompare hash (books p.hist) text
  | _ => true

/-- The state before any process has started: rows name servers that exist, and mutations count
from here. -/
def AtRest (db : SyncDb V I) : Prop :=
  ∀ id row, db.outbox id = some row → row.version = db.version ∧ (db.server row.serverId).isSome

/-- A row that was not yet applied at the start of the run. -/
def OpenAtStart (db₀ : SyncDb V I) (id : I) : Prop :=
  ∀ row, db₀.outbox id = some row → row.appliedAt = none

/-- The state of the tables has reached the server: it was there from the start, or a row that
committed with it has been applied. -/
def Covered (db₀ db : SyncDb V I) (s : V) : Prop :=
  (InSync localeCompare db₀ s ∧ db.version = db₀.version) ∨
    ∃ id row, db.outbox id = some row ∧ row.serverId = s ∧ row.appliedAt ≠ none ∧
      row.version = db.version ∧ OpenAtStart db₀ id

structure SyncInv (db₀ : SyncDb V I) (c : SyncConfig ι V I) : Prop where
  grown : Grows db₀ c.shared
  rows : RowsKnown c.shared
  fits : ∀ pid p, c.procs pid = some p → Fits localeCompare hash db₀ c.shared (books p.hist)
  apart : ∀ pid p pid' p' x, c.procs pid = some p → c.procs pid' = some p' →
    (books p.hist).tx = some x → (books p'.hist).tx = some x → pid = pid'
  covered : ∀ s, ¬ Removed c.shared s → Covered localeCompare db₀ c.shared s →
    InSync localeCompare c.shared s ∧
      ∀ pid p l, c.procs pid = some p → books p.hist = .lease l → l.server = s →
        ∀ v ∈ l.versions, v = c.shared.version
  latest : ∀ s row, db₀.server s = some row → row.hosted = true → ¬ Removed c.shared s →
    db₀.version < c.shared.version →
    ∃ id row', c.shared.outbox id = some row' ∧ row'.serverId = s ∧
      row'.version = c.shared.version ∧ db₀.outbox id = none

variable {localeCompare hash} {db₀ : SyncDb V I} {c c' : SyncConfig ι V I} {own : Option Nat}
  {actor : Option ι} {g g' : Books V I}

theorem faithfulRead_of {text : JsString} (h : readsFaithfully localeCompare hash g text = true) :
    FaithfulRead localeCompare hash g text := by
  rintro l body rfl hbody hmatch
  simp only [readsFaithfully, hbody, all_some, hmatch, Bool.not_true, Bool.false_or,
    beq_iff_eq] at h
  exact h

/-- Readings that are all of the current snapshot give the segment of the tables. -/
theorem Holds.body_eq {db : SyncDb V I} {l : Lease V I} {body : JsString}
    (hholds : Holds localeCompare hash db₀ db l) (hcurrent : ∀ v ∈ l.versions, v = db.version)
    (hbody : l.body localeCompare = some body) : body = db.tables.body localeCompare := by
  unfold Lease.body at hbody
  split at hbody
  · next roles admins clanPriority hroles hadmins hclan =>
    cases hbody
    unfold Tables.body
    rw [hholds.roles roles hroles (hcurrent _ (by simp [Lease.versions, hroles])),
      hholds.admins admins hadmins (hcurrent _ (by simp [Lease.versions, hadmins])),
      hholds.clanPriority clanPriority hclan (hcurrent _ (by simp [Lease.versions, hclan]))]
  · cases hbody

theorem syncInv_start (hrest : AtRest db₀) :
    SyncInv localeCompare hash db₀ (Config.start db₀ : SyncConfig ι V I) where
  grown := Grows.refl db₀
  rows id row hrow := ⟨(hrest id row hrow).1.le, (hrest id row hrow).2⟩
  fits _ _ h := by cases h
  apart _ _ _ _ _ h := by cases h
  covered s _ hcovered := by
    refine ⟨?_, fun _ _ _ h => by cases h⟩
    rcases hcovered with ⟨hsync, -⟩ | ⟨id, row, hrow, -, happlied, -, hopen⟩
    · exact hsync
    · exact absurd (hopen row hrow) happlied
  latest _ _ _ _ _ hlt := absurd hlt (lt_irrefl _)

/-! ## One move -/

/-- A move of at most one process, with the books `g` before and `g'` after it. -/
structure Acts (own : Option Nat) (actor : Option ι) (g g' : Books V I)
    (c c' : SyncConfig ι V I) : Prop where
  before : ∀ l, g = .lease l → ∃ pid p, c.procs pid = some p ∧ books p.hist = .lease l
  after : ∀ pid p, c'.procs pid = some p →
    (actor = some pid ∧ books p.hist = g') ∨
    (actor ≠ some pid ∧ c.procs pid = some p ∧ ∀ y, (books p.hist).tx = some y → own ≠ some y)

section
variable (hinv : SyncInv localeCompare hash db₀ c)
    (heffect : Effect localeCompare hash own db₀ c.shared c'.shared g g')
include hinv heffect

theorem SyncInv.rows_of_effect : RowsKnown c'.shared := by
  intro id row' hrow'
  cases hrow : c.shared.outbox id with
  | none =>
    obtain ⟨hversion, -, hserver⟩ := heffect.inserts id row' hrow' hrow
    exact ⟨hversion.le, hserver⟩
  | some row =>
    obtain ⟨row₁, hrow₁, hserver, hversion, -⟩ := heffect.grows.rows id row hrow
    rw [hrow'] at hrow₁
    cases hrow₁
    obtain ⟨hle, hknown⟩ := hinv.rows id row hrow
    rw [hserver, hversion]
    exact ⟨hle.trans heffect.grows.version_le, heffect.grows.server_isSome hknown⟩

theorem SyncInv.fits_of_effect (hacts : Acts own actor g g' c c') (pid : ι) (p)
    (hp : c'.procs pid = some p) : Fits localeCompare hash db₀ c'.shared (books p.hist) := by
  rcases hacts.after pid p hp with ⟨-, hbooks⟩ | ⟨-, hold, hother⟩
  · rw [hbooks]
    exact heffect.fits
  · have hfits := hinv.fits pid p hold
    apply hfits.mono heffect.grows
    intro y hy
    exact heffect.spares y (hother y hy) (hfits.tx_lt hy)

theorem SyncInv.apart_of_effect (hacts : Acts own actor g g' c c') (pid : ι) (p) (pid' : ι) (p')
    (x : Nat) (hp : c'.procs pid = some p) (hp' : c'.procs pid' = some p')
    (hx : (books p.hist).tx = some x) (hx' : (books p'.hist).tx = some x) : pid = pid' := by
  -- a transaction of the actor is its old one or a fresh one, so nobody else's
  have hfresh {q pq} (hq : c.procs q = some pq) (hother : ∀ y, (books pq.hist).tx = some y →
      own ≠ some y) (hqx : (books pq.hist).tx = some x) : g'.tx ≠ some x := by
    intro hg
    have hlt := (hinv.fits q pq hq).tx_lt hqx
    rcases heffect.owns x hg with hown | hnew
    · exact hother x hqx hown
    · omega
  rcases hacts.after pid p hp with ⟨hactor, hbooks⟩ | ⟨-, hold, hother⟩ <;>
    rcases hacts.after pid' p' hp' with ⟨hactor', hbooks'⟩ | ⟨-, hold', hother'⟩
  · rw [hactor] at hactor'
    cases hactor'
    rfl
  · exact absurd (hbooks ▸ hx) (hfresh hold' hother' hx')
  · exact absurd (hbooks' ▸ hx') (hfresh hold hother hx)
  · exact hinv.apart pid p pid' p' x hold hold' hx hx'

theorem SyncInv.latest_of_effect {s : V}
    {row : ServerRow V} (hserver : db₀.server s = some row) (hhosted : row.hosted = true)
    (hlive : ¬ Removed c'.shared s) (hlt : db₀.version < c'.shared.version) :
    ∃ id row', c'.shared.outbox id = some row' ∧ row'.serverId = s ∧
      row'.version = c'.shared.version ∧ db₀.outbox id = none := by
  rcases heffect.grows.version with ⟨hversion, -⟩ | hgreater
  · have hlive' : ¬ Removed c.shared s := fun h => hlive (heffect.grows.removed h)
    obtain ⟨id, row', hrow', hid, hcurrent, hnew⟩ :=
      hinv.latest s row hserver hhosted hlive' (hversion ▸ hlt)
    obtain ⟨row₁, hrow₁, hid₁, hversion₁, -⟩ := heffect.grows.rows id row' hrow'
    exact ⟨id, row₁, hrow₁, hid₁.trans hid, by omega, hnew⟩
  · obtain ⟨id, row', hrow', hid, hcurrent, hnone⟩ :=
      heffect.latest hgreater s row hserver hhosted hlive
    refine ⟨id, row', hrow', hid, hcurrent, ?_⟩
    cases hstart : db₀.outbox id with
    | none => rfl
    | some row₀ =>
      obtain ⟨row₁, hrow₁, -⟩ := hinv.grown.rows id row₀ hstart
      rw [hnone] at hrow₁
      cases hrow₁

/-- A server that is covered after a move was covered before it, or the move applied its row under
its lock; in both cases the tables stay as they are. -/
theorem SyncInv.covered_cases {s : V}
    (hlive : ¬ Removed c'.shared s) (hcovered : Covered localeCompare db₀ c'.shared s) :
    (c'.shared.version = c.shared.version ∧ c'.shared.tables = c.shared.tables) ∧
    (Covered localeCompare db₀ c.shared s ∨
      ∃ l row, g = .lease l ∧ g' = .idle ∧ SyncedSince localeCompare c.shared l row ∧
        row.serverId = s ∧ row.version = c.shared.version ∧
        (∀ s, segmentOf (c'.shared.files s) = segmentOf (c.shared.files s)) ∧
        c'.shared.lock s = none) := by
  have hgrown := hinv.grown.version_le
  rcases hcovered with ⟨hsync, hversion⟩ | ⟨id, row', hrow', hid, hdone, hcurrent, hopen⟩
  · have hsame : c'.shared.version = c.shared.version ∧ c'.shared.tables = c.shared.tables :=
      heffect.grows.version.resolve_right (by omega)
    exact ⟨hsame, .inl (.inl ⟨hsync, by omega⟩)⟩
  · cases hrow : c.shared.outbox id with
    | none => exact absurd (heffect.inserts id row' hrow' hrow).2.1 hdone
    | some row =>
      obtain ⟨row₁, hrow₁, hserver, hversion, -⟩ := heffect.grows.rows id row hrow
      rw [hrow'] at hrow₁
      cases hrow₁
      have hknown := (hinv.rows id row hrow).1
      have hsame : c'.shared.version = c.shared.version ∧ c'.shared.tables = c.shared.tables :=
        heffect.grows.version.resolve_right (by omega)
      refine ⟨hsame, ?_⟩
      by_cases hbefore : row.appliedAt = none
      · rcases heffect.settles id row row' hrow hbefore hrow' hdone with
          hremoved | ⟨l, hg, hg', hsince, hfiles, hlock⟩
        · rw [← hserver, hid] at hremoved
          exact absurd hremoved hlive
        · have hs : row.serverId = s := hserver.symm.trans hid
          exact .inr ⟨l, row, hg, hg', hsince, hs, by omega, hfiles, hs ▸ hlock⟩
      · exact .inl (.inr ⟨id, row, hrow, hserver.symm.trans hid, hbefore, by omega, hopen⟩)

theorem SyncInv.covered_of_effect (hacts : Acts own actor g g' c c') {s : V}
    (hlive : ¬ Removed c'.shared s)
    (hcovered : Covered localeCompare db₀ c'.shared s) : InSync localeCompare c'.shared s ∧
      ∀ pid p l, c'.procs pid = some p → books p.hist = .lease l → l.server = s →
        ∀ v ∈ l.versions, v = c'.shared.version := by
  obtain ⟨⟨hversion, htables⟩, hcases⟩ := hinv.covered_cases heffect hlive hcovered
  have hholds {l : Lease V I} (hg : g = .lease l) :
      Holds localeCompare hash db₀ c.shared l := by
    obtain ⟨pid, p, hp, hbooks⟩ := hacts.before l hg
    have hfits := hinv.fits pid p hp
    rw [hbooks] at hfits
    exact hfits
  unfold InSync
  rw [htables, hversion]
  rcases hcases with hbefore | ⟨l, row, hg, hg', hsince, hs, hcurrent, hfiles, hlock⟩
  · have hlive' : ¬ Removed c.shared s := fun h => hlive (heffect.grows.removed h)
    obtain ⟨hsync, hleases⟩ := hinv.covered s hlive' hbefore
    have hactor {l : Lease V I} (hg : g = .lease l) (hl : l.server = s) :
        ∀ v ∈ l.versions, v = c.shared.version := by
      obtain ⟨pid, p, hp, hbooks⟩ := hacts.before l hg
      exact hleases pid p l hp hbooks hl
    constructor
    · rcases heffect.segment s with hsame | ⟨l, body, hg, hl, hbody, hwritten⟩
      · rw [hsame]
        exact hsync
      · rw [hwritten, (hholds hg).body_eq (hactor hg hl) hbody]
    · intro pid p l' hp hbooks hl' v hv
      rcases hacts.after pid p hp with ⟨-, hbooks'⟩ | ⟨-, hold, -⟩
      · rcases heffect.reads l' (hbooks'.symm.trans hbooks) v hv with hnow | ⟨l, hg, hl, hold⟩
        · rw [hnow, hversion]
        · exact hactor hg (hl.trans hl') v hold
      · exact hleases pid p l' hold hbooks hl' v hv
  · constructor
    · obtain ⟨body, hbody, hsegment⟩ := hsince.segment
      have hfresh : ∀ v ∈ l.versions, v = c.shared.version := by
        intro v hv
        have hlower := hsince.since v hv
        have hupper := ((hholds hg).versions v hv).2
        omega
      rw [hfiles, ← hs, hsegment, (hholds hg).body_eq hfresh hbody]
    · -- the lock is free after the commit, so no other process has a lease of the server
      intro pid p l' hp hbooks hl'
      have hfits := hinv.fits_of_effect heffect hacts pid p hp
      rw [hbooks] at hfits
      have hheld : c'.shared.lock l'.server = some l'.tx := hfits.lock
      rw [hl', hlock] at hheld
      cases hheld

theorem SyncInv.of_effect (hacts : Acts own actor g g' c c') :
    SyncInv localeCompare hash db₀ c' where
  grown := hinv.grown.trans heffect.grows
  rows := hinv.rows_of_effect heffect
  fits := hinv.fits_of_effect heffect hacts
  apart := hinv.apart_of_effect heffect hacts
  covered _ hlive hcovered := hinv.covered_of_effect heffect hacts hlive hcovered
  latest _ _ hserver hhosted hlive hlt := hinv.latest_of_effect heffect hserver hhosted hlive hlt

end

/-! ## Whole runs -/

section Steps
variable [DecidableEq ι] [DecidableEq I] {l : SyncLabel ι V I}

/-- A move of the system is an effect of one process or of what is around them. -/
theorem effect_of_step
    (hfollows : System.Follows (syncProtocol localeCompare hash) (fun g => g = .idle)
      (fun _ => .idle) c) (hguard : crashesOnly localeCompare hash c l = true)
    (hinv : SyncInv localeCompare hash db₀ c)
    (hstep : (syncSystem localeCompare hash).step c l = some c') :
    ∃ own actor g g', Effect localeCompare hash own db₀ c.shared c'.shared g g' ∧
      Acts own actor g g' c c' := by
  have hidle : Effect localeCompare hash none db₀ c.shared c.shared .idle .idle :=
    Effect.refl (g := .idle) trivial
  rcases System.step_cases hstep with ⟨pid, task, rfl, hnone, rfl⟩ |
    ⟨pid, task, hist, e, k, r, db', rfl, hp, hperform, rfl⟩ | ⟨pid, rfl, rfl⟩ |
    ⟨move, db', rfl, hmove, rfl⟩
  · refine ⟨none, some pid, .idle, .idle, hidle, ⟨fun _ h => (by cases h), fun q p hq => ?_⟩⟩
    rcases Config.setProc_procs_eq_some hq with ⟨rfl, hnew⟩ | ⟨hne, hold⟩
    · cases hnew
      exact .inl ⟨rfl, rfl⟩
    · exact .inr ⟨fun h => hne (some.inj h).symm, hold, nofun⟩
  · have hpre : syncPre localeCompare hash e (books hist) := (hfollows.procs pid _ hp).1
    have hfits := hinv.fits pid _ hp
    refine ⟨(books hist).tx, some pid, books hist, syncNext e r (books hist),
      effect_perform hpre hfits hinv.grown hinv.rows (fun s text hread => ?_) hperform,
      ⟨fun l hl => ⟨pid, _, hp, hl⟩, fun q p hq => ?_⟩⟩
    · rw [hread] at hguard
      simp only [crashesOnly, hp, all_some] at hguard
      exact faithfulRead_of hguard
    rcases Config.setProc_procs_eq_some hq with ⟨rfl, hnew⟩ | ⟨hne, hold⟩
    · cases hnew
      exact .inl ⟨rfl, by simp [books]⟩
    · refine .inr ⟨fun h => hne (some.inj h).symm, hold, fun y hy hown => ?_⟩
      exact hne (hinv.apart q p pid _ y hold hp hy hown)
  · refine ⟨none, none, .idle, .idle, hidle, ⟨fun _ h => (by cases h), fun q p hq => ?_⟩⟩
    rcases Config.setProc_procs_eq_some hq with ⟨-, hnew⟩ | ⟨-, hold⟩
    · cases hnew
    · exact .inr ⟨nofun, hold, nofun⟩
  · refine ⟨move.closes, none, .idle, .idle, effect_environment hinv.rows hmove,
      ⟨fun _ h => (by cases h), fun q p hq => .inr ⟨nofun, hq, fun y hy heq => ?_⟩⟩⟩
    cases move with
    | abort x =>
      simp only [crashesOnly, decide_eq_true_eq] at hguard
      cases heq
      exact hguard q p hq hy
    | createServer _ | setStatus _ _ | softDelete _ _ | enqueueForServer _ _ _ | editFile _ _ =>
      cases heq

theorem syncInv_of_reaches (hrest : AtRest db₀)
    (hreach : (syncSystem localeCompare hash).Reaches (crashesOnly localeCompare hash)
      (Config.start db₀) c) : SyncInv localeCompare hash db₀ c := by
  apply System.invariant_of_reaches (fun task => wp_syncBody task) (syncInv_start hrest) _ hreach
  intro c l c' hfollows hguard hinv hstep
  obtain ⟨own, actor, g, g', heffect, hacts⟩ := effect_of_step hfollows hguard hinv hstep
  exact hinv.of_effect heffect hacts

/-- A row is applied for a removed server or by the holder of the server's lock, whose readings
were all made since the row committed and are in the file. -/
def AppliedRightly (localeCompare : JsString → JsString → Int) (c c' : SyncConfig ι V I)
    (row : OutboxRow V) : Prop :=
  Removed c'.shared row.serverId ∨
    ∃ pid p l, c.procs pid = some p ∧ books p.hist = .lease l ∧
      SyncedSince localeCompare c.shared l row ∧
      segmentOf (c'.shared.files row.serverId) = segmentOf (c.shared.files row.serverId)

/-- The consequence: when all its rows are applied, the file of a server has the segment of the
committed tables. -/
def FilesFollow (localeCompare : JsString → JsString → Int) (db₀ db : SyncDb V I) : Prop :=
  ∀ s server, db₀.server s = some server → server.hosted = true → ¬ Removed db s →
    (∀ id row, db.outbox id = some row → row.serverId = s → row.appliedAt ≠ none) →
    (db₀.version < db.version ∨ InSync localeCompare db₀ s ∨
      ∃ id row, db₀.outbox id = some row ∧ row.serverId = s ∧ row.appliedAt = none) →
    InSync localeCompare db s

theorem SyncInv.filesFollow (hrest : AtRest db₀) (hinv : SyncInv localeCompare hash db₀ c) :
    FilesFollow localeCompare db₀ c.shared := by
  intro s server hserver hhosted hlive hall hstart
  apply (hinv.covered s hlive ?_).1
  have hgrown := hinv.grown.version_le
  by_cases hlt : db₀.version < c.shared.version
  · obtain ⟨id, row, hrow, hid, hversion, hnew⟩ := hinv.latest s server hserver hhosted hlive hlt
    refine .inr ⟨id, row, hrow, hid, hall id row hrow hid, hversion, fun row₀ hrow₀ => ?_⟩
    rw [hnew] at hrow₀
    cases hrow₀
  · rcases hstart with hmutated | hsync | ⟨id, row₀, hrow₀, hid, hopen⟩
    · exact absurd hmutated hlt
    · exact .inl ⟨hsync, by omega⟩
    · obtain ⟨row, hrow, hserver', hversion, -⟩ := hinv.grown.rows id row₀ hrow₀
      have hstarted := (hrest id row₀ hrow₀).1
      have hs : row.serverId = s := hserver'.trans hid
      refine .inr ⟨id, row, hrow, hs, hall id row hrow hs, by omega, fun row₁ hrow₁ => ?_⟩
      rw [hrow₀] at hrow₁
      cases hrow₁
      exact hopen

theorem applied_rows_and_files_follow (hrest : AtRest db₀)
    (hreach : (syncSystem localeCompare hash).Reaches (crashesOnly localeCompare hash)
      (Config.start db₀) c) : (∀ l c', crashesOnly localeCompare hash c l = true →
      (syncSystem localeCompare hash).step c l = some c' → ∀ id row row',
      c.shared.outbox id = some row → row.appliedAt = none →
      c'.shared.outbox id = some row' → row'.appliedAt ≠ none →
      AppliedRightly localeCompare c c' row) ∧
    FilesFollow localeCompare db₀ c.shared := by
  have hinv := syncInv_of_reaches hrest hreach
  refine ⟨fun l c' hguard hstep id row row' hrow hopen hrow' hdone => ?_, hinv.filesFollow hrest⟩
  have hfollows := System.follows_of_reaches (fun task => wp_syncBody task) hreach
  obtain ⟨own, actor, g, g', heffect, hacts⟩ := effect_of_step hfollows hguard hinv hstep
  rcases heffect.settles id row row' hrow hopen hrow' hdone with
    hremoved | ⟨l, hg, -, hsince, hfiles, -⟩
  · exact .inl hremoved
  · obtain ⟨pid, p, hp, hbooks⟩ := hacts.before l hg
    exact .inr ⟨pid, p, l, hp, hbooks, hsince, hfiles row.serverId⟩

end Steps

/-! ## A run -/

def sampleTables : Tables where
  roles := ⟨[⟨js "Admin", [js "kick", js "ban"]⟩], by decide +kernel⟩
  admins := ⟨[⟨js "0002a1", js "Admin", none⟩], by decide +kernel⟩
  clanPriority := ⟨[], by decide⟩

/-- One server that is not running, with a file that has no managed segment. -/
def sampleDb : SyncDb Nat Unit where
  tables := ⟨⟨[], by decide⟩, ⟨[], by decide⟩, ⟨[], by decide⟩⟩
  version := 0
  servers := [⟨1, .other, false, true⟩]
  outbox := fun _ => none
  files := fun _ => some (js "// operator notes\n")
  lock := fun _ => none
  pending := fun _ => none
  nextTx := 0

def sampleEvent : SyncEvent := ⟨some (js "role_changed"), false⟩

/-- A mutation, a relay run that dies after its publish, and the delivery of what it published. -/
def sampleDelivery : List (SyncLabel Nat Nat Unit) :=
  [.spawn 0 (.mutate sampleTables (some sampleEvent) fun _ => ()),
    .perform 0 ⟨.selectServers, Reply.value [1]⟩,
    .perform 0 ⟨.commitMutation [(1, ())] sampleTables (some sampleEvent), CommitReply.committed⟩,
    .spawn 1 (.relay 5 1),
    .perform 1 ⟨.claimRow [], Reply.value (0, some ⟨(), 1, some sampleEvent, false⟩)⟩,
    .perform 1 ⟨.xadd 1 (), Reply.value ()⟩,
    .stop 1,
    .spawn 2 (.deliver ⟨1, some (sampleEvent, .id ())⟩),
    .perform 2 ⟨.lockServer 1, Reply.value 1⟩,
    .perform 2 ⟨.getOutbox 1 (), Reply.value (some ⟨1, some sampleEvent, false, none, none, 1⟩)⟩,
    .perform 2 ⟨.aside .publishStatus, Reply.value ()⟩,
    .perform 2 ⟨.selectRoles 1, Reply.value ⟨1, sampleTables.roles⟩⟩,
    .perform 2 ⟨.selectAdmins 1, Reply.value ⟨1, sampleTables.admins⟩⟩,
    .perform 2 ⟨.selectClanPriority 1, Reply.value ⟨1, sampleTables.clanPriority⟩⟩,
    .perform 2 ⟨.fileRead 1, ReadReply.content (js "// operator notes\n")⟩,
    .perform 2 ⟨.fileAtomicWrite 1 (spliceManagedSegment (js "// operator notes\n")
      (sampleTables.body compareUnits)), WriteReply.written⟩,
    .perform 2 ⟨.aside .publishStatus, Reply.value ()⟩,
    .perform 2 ⟨.aside .audit, Reply.value ()⟩,
    .perform 2 ⟨.readServerState 1 1, Reply.value (some ⟨1, .other, false, true⟩)⟩,
    .perform 2 ⟨.readServerState 1 1, Reply.value (some ⟨1, .other, false, true⟩)⟩,
    .perform 2 ⟨.updateOutbox 1 () (.applied .fileReadyForRestart), Reply.value ()⟩,
    .perform 2 ⟨.commit 1, CommitReply.committed⟩]

theorem applied_rows_and_files_follow_sampleDelivery :
    AtRest sampleDb ∧ ∃ c : SyncConfig Nat Nat Unit,
      (syncSystem compareUnits id).Reaches (crashesOnly compareUnits id)
        (Config.start sampleDb) c ∧
      c.shared.outbox () =
        some ⟨1, some sampleEvent, false, some .fileReadyForRestart, none, 1⟩ ∧
      InSync compareUnits c.shared 1 := by
  have hrest : AtRest sampleDb := nofun
  have hrun : ((syncSystem compareUnits id).run (crashesOnly compareUnits id)
      (Config.start sampleDb) sampleDelivery).map
        (fun c => (c.shared.version, c.shared.server 1, c.shared.outbox ())) =
      some (1, some ⟨1, .other, false, true⟩,
        some ⟨1, some sampleEvent, false, some .fileReadyForRestart, none, 1⟩) := by
    decide +kernel
  obtain ⟨c, hreach, hstate⟩ := Machine.reaches_of_map_run hrun
  simp only [Prod.mk.injEq] at hstate
  obtain ⟨hversion, hserver, hrow⟩ := hstate
  refine ⟨hrest, c, hreach, hrow, ?_⟩
  apply (applied_rows_and_files_follow hrest hreach).2 1 ⟨1, .other, false, true⟩
  · decide
  · rfl
  · rintro ⟨row, hfound, hdeleted⟩
    rw [hserver] at hfound
    cases hfound
    cases hdeleted
  · intro id row hid _
    rw [hrow] at hid
    cases hid
    decide
  · left
    rw [hversion]
    decide

end Runs

end SquadPanel.AdminsCfg
