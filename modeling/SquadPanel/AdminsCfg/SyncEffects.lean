import SquadPanel.AdminsCfg.SyncState

/-!
# What one move does

`Effect` collects what the runs need to know of a move: the books of the acting
process fit again, transactions of others keep what they hold, a file changes
its segment only to what the acting lease has read, and a row is completed only
under a lease that has brought the file in step, or for a removed server.
-/

set_option linter.unusedSectionVars false

namespace SquadPanel.AdminsCfg

open Js Lib List Option

section Effects
variable {V I : Type} [DecidableEq V] {H : Type} [DecidableEq H]

/-- The lease of the row's server is held, and the file has the segment of readings that were all
made after the row had committed. -/
structure SyncedSince (localeCompare : JsString → JsString → Int) (db : SyncDb V I) (l : Lease V I)
    (row : OutboxRow V) : Prop where
  server : l.server = row.serverId
  lock : db.lock row.serverId = some l.tx
  since : ∀ v ∈ l.versions, row.version ≤ v
  segment : ∃ body, l.body localeCompare = some body ∧
    segmentOf (db.files row.serverId) = some body

variable (localeCompare : JsString → JsString → Int) (hash : JsString → H)

/-- What a move of the transaction `own` from books `g` to books `g'` does. -/
structure Effect (own : Option Nat) (db₀ db db' : SyncDb V I) (g g' : Books V I) : Prop where
  grows : Grows db db'
  fits : Fits localeCompare hash db₀ db' g'
  spares : ∀ y, own ≠ some y → y < db.nextTx → Spares db db' y
  owns : ∀ y, g'.tx = some y → own = some y ∨ y = db.nextTx
  segment : ∀ s, segmentOf (db'.files s) = segmentOf (db.files s) ∨
    ∃ l body, g = .lease l ∧ l.server = s ∧ l.body localeCompare = some body ∧
      segmentOf (db'.files s) = some body
  reads : ∀ l', g' = .lease l' → ∀ v ∈ l'.versions, v = db'.version ∨
    ∃ l, g = .lease l ∧ l.server = l'.server ∧ v ∈ l.versions
  settles : ∀ id row row', db.outbox id = some row → row.appliedAt = none →
    db'.outbox id = some row' → row'.appliedAt ≠ none →
    Removed db' row.serverId ∨
      ∃ l, g = .lease l ∧ g' = .idle ∧ SyncedSince localeCompare db l row ∧
        (∀ s, segmentOf (db'.files s) = segmentOf (db.files s)) ∧ db'.lock row.serverId = none
  inserts : ∀ id row', db'.outbox id = some row' → db.outbox id = none →
    row'.version = db'.version ∧ row'.appliedAt = none ∧ (db'.server row'.serverId).isSome
  latest : db.version < db'.version → ∀ s row, db₀.server s = some row → row.hosted = true →
    ¬ Removed db' s → ∃ id row', db'.outbox id = some row' ∧ row'.serverId = s ∧
      row'.version = db'.version ∧ db.outbox id = none

variable {localeCompare hash} {own : Option Nat} {db₀ db db' : SyncDb V I} {g g' : Books V I}
  {l : Lease V I} {y : Nat} {claimed : Option (ClaimedRow V I)} {x : Nat} {row : OutboxRow V}
  {id : I} {changes : List (I × OutboxChange)} {change : OutboxChange}

theorem not_settled_of_same {row' : OutboxRow V} (houtbox : db'.outbox = db.outbox)
    (hrow : db.outbox id = some row) (hopen : row.appliedAt = none)
    (hrow' : db'.outbox id = some row') : row'.appliedAt = none := by
  rw [houtbox, hrow] at hrow'
  cases hrow'
  exact hopen

/-- Rows and versions stay: nothing is completed, inserted or newly due. -/
theorem Effect.of_rows (hgrows : Grows db db') (houtbox : db'.outbox = db.outbox)
    (hversion : db'.version = db.version) (hfits : Fits localeCompare hash db₀ db' g')
    (hspares : ∀ y, own ≠ some y → y < db.nextTx → Spares db db' y)
    (howns : ∀ y, g'.tx = some y → own = some y ∨ y = db.nextTx)
    (hsegment : ∀ s, segmentOf (db'.files s) = segmentOf (db.files s) ∨
      ∃ l body, g = .lease l ∧ l.server = s ∧ l.body localeCompare = some body ∧
        segmentOf (db'.files s) = some body)
    (hreads : ∀ l', g' = .lease l' → ∀ v ∈ l'.versions, v = db'.version ∨
      ∃ l, g = .lease l ∧ l.server = l'.server ∧ v ∈ l.versions) :
    Effect localeCompare hash own db₀ db db' g g' where
  grows := hgrows
  fits := hfits
  spares := hspares
  owns := howns
  segment := hsegment
  reads := hreads
  settles id row row' hrow hopen hrow' hdone :=
    absurd (not_settled_of_same houtbox hrow hopen hrow') hdone
  inserts id row' hrow' hnone := by
    rw [houtbox, hnone] at hrow'
    cases hrow'
  latest hlt := absurd hlt (by omega)

/-- A call that only reads. -/
theorem Effect.of_read (hfits : Fits localeCompare hash db₀ db g') (htx : g'.tx = g.tx)
    (hreads : ∀ l', g' = .lease l' → ∀ v ∈ l'.versions, v = db.version ∨
      ∃ l, g = .lease l ∧ l.server = l'.server ∧ v ∈ l.versions) :
    Effect localeCompare hash g.tx db₀ db db g g' :=
  Effect.of_rows (Grows.refl db) rfl rfl hfits (fun y _ _ => Spares.refl y)
    (fun _ hy => .inl (htx ▸ hy)) (fun _ => .inl rfl) hreads

theorem Effect.refl (hfits : Fits localeCompare hash db₀ db g) :
    Effect localeCompare hash g.tx db₀ db db g g :=
  Effect.of_read hfits rfl fun l' hl' _ hv => .inr ⟨l', hl', rfl, hv⟩

/-- A lease that goes on with readings it had, or made now. -/
theorem Effect.of_lease {l' : Lease V I} (hholds : Holds localeCompare hash db₀ db l')
    (htx : l'.tx = l.tx) (hserver : l'.server = l.server)
    (hversions : ∀ v ∈ l'.versions, v = db.version ∨ v ∈ l.versions) :
    Effect localeCompare hash (Books.lease l).tx db₀ db db (.lease l) (.lease l') := by
  refine Effect.of_read hholds (congrArg some htx) fun l'' hl'' v hv => ?_
  cases hl''
  exact (hversions v hv).imp_right fun h => ⟨l, rfl, hserver.symm, h⟩

theorem justified_of_nil (hchanges : l.changes = []) :
    ∀ change ∈ l.changes, l.Justifies localeCompare hash change.1 change.2 := by
  rw [hchanges]
  exact nofun

/-! ## Opening and closing -/

theorem spares_openTx (hy : y < db.nextTx) : Spares db db.openTx y := by
  refine ⟨?_, fun s hs => ⟨hs, rfl⟩⟩
  simp only [SyncDb.openTx]
  rw [if_neg (by omega)]

theorem effect_lockServer {s : V} (hfree : db.lock s = none) :
    Effect localeCompare hash none db₀ db (db.lockServer s) .idle
      (.lease (Lease.start db.nextTx s)) := by
  have hgrows : Grows db (db.lockServer s) := grows_of_same rfl rfl rfl rfl (Nat.le_succ _)
  refine Effect.of_rows hgrows rfl rfl ?_ (fun y _ hy => ?_) (fun y hy => ?_)
    (fun _ => .inl rfl) ?_
  · exact
      { tx := Nat.lt_succ_self _
        lock := by simp [SyncDb.lockServer, Lease.start]
        pending := by simp [SyncDb.lockServer, SyncDb.openTx, Lease.start]
        versions := by simp [Lease.versions, Lease.start]
        roles := by simp [Lease.start]
        admins := by simp [Lease.start]
        clanPriority := by simp [Lease.start]
        row := by simp [Lease.start]
        seen := by simp [Lease.start]
        removed := by simp [Lease.start]
        faithful := by simp [Lease.start]
        justified := by simp [Lease.start] }
  · refine ⟨(spares_openTx hy).pending, fun s' hs' => ⟨?_, rfl⟩⟩
    have hne : s' ≠ s := by
      rintro rfl
      rw [hfree] at hs'
      cases hs'
    simp only [SyncDb.lockServer]
    rw [if_neg hne]
    exact hs'
  · exact .inr (some.inj hy).symm
  · rintro l' hl' v hv
    cases hl'
    simp [Lease.versions, Lease.start] at hv

theorem spares_endTx (hne : y ≠ x) : Spares db (db.endTx x) y := by
  refine ⟨by simp [SyncDb.endTx, hne], fun s hs => ⟨?_, rfl⟩⟩
  simp [SyncDb.endTx, hs, hne]

theorem effect_endTx : Effect localeCompare hash (some x) db₀ db (db.endTx x) g .idle := by
  refine Effect.of_rows (grows_endTx db x) rfl rfl trivial (fun y hy _ => spares_endTx ?_)
    nofun (fun _ => .inl rfl) fun _ h => by cases h
  rintro rfl
  exact hy rfl

/-! ## Reading -/

/-- A snapshot is kept, or read again. -/
def Reread {T : Type} (version : Nat) (rows : T) (old new : Option (Snapshot T)) : Prop :=
  new = old ∨ ∃ snap, new = some snap ∧ snap.version = version ∧ snap.rows = rows

theorem Reread.version {T : Type} {version v : Nat} {rows : T} {old new : Option (Snapshot T)}
    (hreread : Reread version rows old new) (hv : v ∈ (new.map Snapshot.version).toList) :
    v = version ∨ v ∈ (old.map Snapshot.version).toList := by
  rcases hreread with rfl | ⟨snap, rfl, rfl, -⟩
  · exact .inr hv
  · exact .inl (mem_singleton.1 hv)

theorem Reread.rows {T : Type} {version : Nat} {rows : T} {old new : Option (Snapshot T)}
    (hreread : Reread version rows old new)
    (hold : ∀ snap, old = some snap → snap.version = version → snap.rows = rows) :
    ∀ snap, new = some snap → snap.version = version → snap.rows = rows := by
  rcases hreread with rfl | ⟨snap, rfl, -, hrows⟩
  · exact hold
  · rintro snap' ⟨⟩ -
    exact hrows

theorem writeFile_files (db : SyncDb V I) (s s' : V) (content : Option JsString) :
    (db.writeFile s content).files s' = if s' = s then content else db.files s' := rfl

/-- The state with one more change in an open transaction. -/
def SyncDb.addChange (db : SyncDb V I) (x : Nat) (changes : List (I × OutboxChange)) :
    SyncDb V I :=
  { db with pending := fun y => if y = x then some changes else db.pending y }

theorem spares_addChange (hne : y ≠ x) : Spares db (db.addChange x changes) y :=
  ⟨by simp [SyncDb.addChange, hne], fun _ hs => ⟨hs, rfl⟩⟩

section
variable (hholds : Holds localeCompare hash db₀ db l)
include hholds

/-- A lease that has read again and not looked at the file since. -/
theorem effect_reread {roles : Option (Snapshot RolesTable)}
    {admins : Option (Snapshot AdminsTable)} {clanPriority : Option (Snapshot ClanPriorityTable)}
    (hle : db₀.version ≤ db.version)
    (hchanges : l.changes = []) (hroles : Reread db.version db.tables.roles l.roles roles)
    (hadmins : Reread db.version db.tables.admins l.admins admins)
    (hclan : Reread db.version db.tables.clanPriority l.clanPriority clanPriority) :
    Effect localeCompare hash (Books.lease l).tx db₀ db db (.lease l)
      (.lease { l with roles, admins, clanPriority, seen := none }) := by
  have hversions : ∀ v ∈ Lease.versions { l with roles, admins, clanPriority, seen := none },
      v = db.version ∨ v ∈ l.versions := by
    intro v hv
    simp only [Lease.versions, mem_append] at hv ⊢
    rcases hv with (hv | hv) | hv
    · exact (hroles.version hv).imp_right fun h => .inl (.inl h)
    · exact (hadmins.version hv).imp_right fun h => .inl (.inr h)
    · exact (hclan.version hv).imp_right .inr
  refine Effect.of_lease ?_ rfl rfl hversions
  exact
    { hholds with
      versions := by
        intro v hv
        rcases hversions v hv with rfl | hold
        · exact ⟨hle, le_refl _⟩
        · exact hholds.versions v hold
      roles := hroles.rows hholds.roles
      admins := hadmins.rows hholds.admins
      clanPriority := hclan.rows hholds.clanPriority
      row := by
        intro id row hrow
        obtain ⟨hstored, hbound, hsome, hafter⟩ := hholds.row id row hrow
        refine ⟨hstored, hbound, hsome, fun v hv => ?_⟩
        rcases hversions v hv with rfl | hold
        · exact hbound
        · exact hafter v hold
      seen := fun _ h => by cases h
      faithful := fun _ _ _ h => by cases h
      justified := justified_of_nil hchanges }

theorem effect_readServerState {state : Option (ServerRow V)} (hchanges : l.changes = [])
    (hstate : state = db.server l.server) :
    Effect localeCompare hash (Books.lease l).tx db₀ db db (.lease l)
      (.lease { l with removed := l.removed || isRemoved state }) := by
  refine Effect.of_lease ?_ rfl rfl fun v hv => .inr hv
  exact
    { hholds with
      removed := by
        intro h id row hrow hserver
        rcases Bool.or_eq_true_iff.mp h with hbefore | hnow
        · exact hholds.removed hbefore id row hrow hserver
        · -- the row's server exists, so removed means deleted
          obtain ⟨-, -, hsome, -⟩ := hholds.row id row hrow
          obtain ⟨server, hserver'⟩ := isSome_iff_exists.mp hsome
          rw [hserver] at hserver'
          rw [hstate, hserver'] at hnow
          exact ⟨server, hserver', hnow⟩
      justified := justified_of_nil hchanges }

/-! ## The file -/

theorem effect_look {file : Option JsString} (hchanges : l.changes = [])
    (hfile : ∀ text, file = some text → segmentOf (db.files l.server) = segmentOf (some text))
    (hfaithful : ∀ body text, l.body localeCompare = some body → file = some text →
      hashesMatch hash text body = true → segmentOf (some text) = some body) :
    Effect localeCompare hash (Books.lease l).tx db₀ db db (.lease l)
      (.lease { l with seen := file }) := by
  refine Effect.of_lease ?_ rfl rfl fun v hv => .inr hv
  exact { hholds with
    seen := hfile
    faithful := hfaithful
    justified := justified_of_nil hchanges }

theorem effect_fileAtomicWrite {content body : JsString} (hchanges : l.changes = [])
    (hbody : l.body localeCompare = some body) (hsegment : segmentOf (some content) = some body) :
    Effect localeCompare hash (Books.lease l).tx db₀ db (db.writeFile l.server (some content))
      (.lease l) (.lease { l with seen := some content }) := by
  have hgrows : Grows db (db.writeFile l.server (some content)) :=
    grows_of_same rfl rfl rfl rfl (le_refl _)
  refine Effect.of_rows hgrows rfl rfl ?_ (fun y hy _ => ?_) (fun y hy => .inl hy)
    (fun s => ?_) fun l' hl' v hv => ?_
  · exact
      { hholds with
        seen := by
          rintro file ⟨⟩
          rw [writeFile_files, if_pos rfl]
        removed := fun h id row hrow hserver =>
          hgrows.removed (hholds.removed h id row hrow hserver)
        faithful := by
          rintro body' file hbody' ⟨⟩ -
          have heq : l.body localeCompare = some body' := hbody'
          rw [hbody] at heq
          exact hsegment.trans heq
        justified := justified_of_nil hchanges }
  · -- another transaction holds the lock of another server
    refine ⟨rfl, fun s hs => ⟨hs, ?_⟩⟩
    have hne : s ≠ l.server := by
      rintro rfl
      exact hy (hholds.lock.symm.trans hs)
    rw [writeFile_files, if_neg hne]
  · by_cases hs : s = l.server
    · refine .inr ⟨l, body, rfl, hs.symm, hbody, ?_⟩
      rw [writeFile_files, if_pos hs, hsegment]
    · exact .inl (by rw [writeFile_files, if_neg hs])
  · cases hl'
    exact .inr ⟨l, rfl, rfl, hv⟩

/-! ## Changes to the outbox -/

theorem effect_updateOutbox_lease (hjustified : l.Justifies localeCompare hash id change) :
    Effect localeCompare hash (Books.lease l).tx db₀ db
      (db.addChange l.tx (l.changes ++ [(id, change)])) (.lease l)
      (.lease { l with changes := l.changes ++ [(id, change)] }) := by
  refine Effect.of_rows (grows_of_same rfl rfl rfl rfl (le_refl _)) rfl rfl ?_
    (fun y hy _ => spares_addChange ?_) (fun y hy => .inl hy) (fun _ => .inl rfl)
    fun l' hl' v hv => ?_
  · exact
      { hholds with
        pending := by simp [SyncDb.addChange]
        justified := by
          intro change' hchange'
          rcases mem_append.mp hchange' with hold | hnew
          · exact hholds.justified change' hold
          · rw [mem_singleton.mp hnew]
            exact hjustified }
  · rintro rfl
    exact hy rfl
  · cases hl'
    exact .inr ⟨l, rfl, rfl, hv⟩

/-! ## Commits -/

/-- Why a pending change may complete the row it is for. -/
theorem settled_of_completes (hrow : db.outbox id = some row)
    (hchange : (id, change) ∈ l.changes) (hcompletes : change.Completes) :
    Removed db row.serverId ∨ SyncedSince localeCompare db l row := by
  have hjustified := hholds.justified _ hchange
  have hstored (hconcerns : l.Concerns id) :
      l.server = row.serverId ∧ (∀ v ∈ l.versions, row.version ≤ v) ∧
        (l.removed = true → Removed db l.server) := by
    obtain ⟨read, hread, hserver⟩ := hconcerns
    obtain ⟨⟨row', hrow', hserver', hversion'⟩, -, -, hafter⟩ := hholds.row id read hread
    rw [hrow] at hrow'
    cases hrow'
    exact ⟨hserver.symm.trans hserver'.symm, fun v hv => hversion' ▸ hafter v hv,
      fun h => hholds.removed h id read hread hserver⟩
  have hsynced (hconcerns : l.Concerns id) (hsynced : l.Synced localeCompare hash) :
      SyncedSince localeCompare db l row := by
    obtain ⟨hserver, hsince, -⟩ := hstored hconcerns
    obtain ⟨body, file, hbody, hfile, hhash⟩ := hsynced
    refine ⟨hserver, hserver ▸ hholds.lock, hsince, body, hbody, ?_⟩
    rw [← hserver, hholds.seen file hfile]
    exact hholds.faithful body file hbody hfile hhash
  cases change with
  | applied outcome =>
    cases outcome with
    | confirmed | fileReadyForRestart => exact .inr (hsynced hjustified.1 hjustified.2)
    | serverRemoved =>
      obtain ⟨hserver, -, hremoved⟩ := hstored hjustified.1
      exact .inl (hserver ▸ hremoved hjustified.2)
  | failed code | relayed => exact hcompletes.elim
  | cancelled => exact hjustified.elim

end

theorem effect_updateOutbox_relay
    (hfits : Fits localeCompare hash db₀ db (.relay x claimed changes))
    (hjustified : ∃ row, claimed = some row ∧ row.Justifies id change) :
    Effect localeCompare hash (some x) db₀ db (db.addChange x (changes ++ [(id, change)]))
      (.relay x claimed changes) (.relay x claimed (changes ++ [(id, change)])) := by
  obtain ⟨hx, -, hbefore, hclaimed⟩ := hfits
  refine Effect.of_rows (grows_of_same rfl rfl rfl rfl (le_refl _)) rfl rfl ?_
    (fun y hy _ => spares_addChange ?_) (fun y hy => .inl hy) (fun _ => .inl rfl)
    fun _ h => by cases h
  · refine ⟨hx, by simp [SyncDb.addChange], fun change' hchange' => ?_, hclaimed⟩
    rcases mem_append.mp hchange' with hold | hnew
    · exact hbefore change' hold
    · rw [mem_singleton.mp hnew]
      exact hjustified
  · rintro rfl
    exact hy rfl

theorem removed_of_claimed (hfits : Fits localeCompare hash db₀ db (.relay x claimed changes))
    (hrow : db.outbox id = some row) (hchange : (id, change) ∈ changes)
    (hcompletes : change.Completes) : Removed db row.serverId := by
  obtain ⟨-, -, hjustified, hclaimed⟩ := hfits
  obtain ⟨found, hfound, hid, hkind⟩ := hjustified _ hchange
  obtain ⟨⟨row', hrow', hserver⟩, hremoved⟩ := hclaimed found hfound
  rcases hkind with hrelayed | ⟨-, hdeleted⟩
  · rw [show change = .relayed from hrelayed] at hcompletes
    exact hcompletes.elim
  · rw [show found.id = id from hid, hrow] at hrow'
    cases hrow'
    exact hserver ▸ hremoved hdeleted

variable [DecidableEq I]

theorem effect_commit (hfits : Fits localeCompare hash db₀ db g) (htx : g.tx = some x)
    (hcommit : db.commitTx x = some db') :
    Effect localeCompare hash (some x) db₀ db db' g .idle := by
  obtain ⟨changes, hpending, rfl⟩ := map_eq_some_iff.mp hcommit
  have hgrows : Grows db ((db.publish changes).endTx x) :=
    (grows_publish db changes).trans (grows_endTx _ x)
  refine
    { grows := hgrows
      fits := trivial
      spares := fun y hy _ => ?_
      owns := nofun
      segment := fun _ => .inl rfl
      reads := fun _ h => by cases h
      settles := fun id row row' hrow hopen hrow' hdone => ?_
      inserts := fun id row' hrow' hnone => ?_
      latest := fun hlt => absurd hlt (lt_irrefl _) }
  · have hne : y ≠ x := by
      rintro rfl
      exact hy rfl
    have hspares : Spares (db.publish changes) ((db.publish changes).endTx x) y :=
      spares_endTx hne
    exact ⟨hspares.pending, hspares.lock⟩
  · -- the row changed, so the transaction holds a change that completes it
    have happlied : row' = applyChanges id changes row := by
      have : (db.publish changes).outbox id = some row' := hrow'
      rw [publish_outbox, hrow] at this
      exact (some.inj this).symm
    obtain ⟨change, hmem, hcompletes⟩ := mem_of_applyChanges hopen (happlied ▸ hdone)
    cases g with
    | idle | mutating => cases htx
    | relay y claimed changes' =>
      cases htx
      have hsame : changes = changes' := some.inj (hpending.symm.trans hfits.2.1)
      rw [hsame] at hmem
      exact .inl (hgrows.removed (removed_of_claimed hfits hrow hmem hcompletes))
    | lease l =>
      cases htx
      have hsame : changes = l.changes := some.inj (hpending.symm.trans hfits.pending)
      rw [hsame] at hmem
      rcases settled_of_completes hfits hrow hmem hcompletes with hremoved | hsynced
      · exact .inl (hgrows.removed hremoved)
      · refine .inr ⟨l, rfl, rfl, hsynced, fun _ => rfl, ?_⟩
        show (if db.lock row.serverId = some l.tx then none else db.lock row.serverId) = none
        rw [if_pos hsynced.lock]
  · have : (db.publish changes).outbox id = some row' := hrow'
    rw [publish_outbox, hnone] at this
    cases this

theorem effect_commitMutation {ids : List V} {targets : List (V × I)} {tables : Tables}
    {payload : Option SyncEvent} (hfits : Fits localeCompare hash db₀ db (.mutating ids))
    (htargets : targets.map Prod.fst = ids)
    (hcommit : db.commitMutation targets tables payload = some db') :
    Effect localeCompare hash none db₀ db db' (.mutating ids) .idle := by
  unfold SyncDb.commitMutation at hcommit
  split at hcommit
  swap
  · cases hcommit
  next hinsertable =>
  obtain ⟨hnodup, hfresh⟩ := insertable_iff.mp hinsertable
  cases hcommit
  set moved : SyncDb V I := { db with tables := tables, version := db.version + 1 } with hmoved
  have hadvances : Grows db moved :=
    { version := .inr (Nat.lt_succ_self _)
      rows := fun id row hrow => ⟨row, hrow, rfl, rfl, fun h => h⟩
      servers := fun s row hrow => ⟨row, hrow, rfl, fun h => h⟩
      nextTx := le_refl _ }
  have hgrows : Grows db (moved.insertRows targets payload) :=
    hadvances.trans (grows_insertRows payload fun t ht => (hfresh t ht).1)
  refine
    { grows := hgrows
      fits := trivial
      spares := fun y _ _ => ⟨rfl, fun s hs => ⟨hs, rfl⟩⟩
      owns := nofun
      segment := fun _ => .inl rfl
      reads := fun _ h => by cases h
      settles := fun id row row' hrow hopen hrow' hdone => ?_
      inserts := fun id row' hrow' hnone => ?_
      latest := fun _ s row hrow hhosted hremoved => ?_ }
  · rcases insertRows_cases hrow' with ⟨t, ht, rfl, rfl⟩ | hold
    · exact absurd rfl hdone
    · rw [show moved.outbox id = some row from hrow] at hold
      cases hold
      exact absurd hopen hdone
  · rcases insertRows_cases hrow' with ⟨t, ht, rfl, rfl⟩ | hold
    · exact ⟨rfl, rfl, (hfresh t ht).2⟩
    · rw [show moved.outbox id = none from hnone] at hold
      cases hold
  · have hin : s ∈ ids := hfits s row hrow hhosted fun h => hremoved (hgrows.removed h)
    rw [← htargets] at hin
    obtain ⟨t, ht, rfl⟩ := mem_map.mp hin
    exact ⟨t.2, _, insertRows_of_mem hnodup ht, rfl, rfl, (hfresh t ht).1⟩

/-! ## Any call -/

/-- A file that was read does not deceive the comparison of hashes. -/
def FaithfulRead (localeCompare : JsString → JsString → Int) (hash : JsString → H)
    (g : Books V I) (text : JsString) : Prop :=
  ∀ l body, g = .lease l → l.body localeCompare = some body → hashesMatch hash text body = true →
    segmentOf (some text) = some body

/-- What is known of all rows. -/
def RowsKnown (db : SyncDb V I) : Prop :=
  ∀ id row, db.outbox id = some row → row.version ≤ db.version ∧ (db.server row.serverId).isSome

theorem reading_eq_some {answer : Prop} [Decidable answer]
    (hreading : db.reading x answer = some db') : answer ∧ db' = db := by
  unfold SyncDb.reading at hreading
  split at hreading
  · next h => exact ⟨h.2, (some.inj hreading).symm⟩
  · cases hreading

theorem effect_fileRead {reply : ReadReply} (hholds : Holds localeCompare hash db₀ db l)
    (hchanges : l.changes = [])
    (hfaithful : ∀ text, reply = .content text → FaithfulRead localeCompare hash (.lease l) text)
    (hperform : syncPerform (.fileRead l.server : SyncCall V I) db reply = some db') :
    Effect localeCompare hash (Books.lease l).tx db₀ db db' (.lease l)
      (syncNext (.fileRead l.server) reply (.lease l)) := by
  cases reply with
  | content text =>
    obtain ⟨hfile, rfl⟩ := of_guarded hperform
    refine effect_look hholds hchanges ?_ ?_
    · rintro _ ⟨⟩
      rw [hfile]
    · rintro body _ hbody ⟨⟩ hhash
      exact hfaithful text rfl l body rfl hbody hhash
  | notFound =>
    obtain ⟨hfile, rfl⟩ := of_guarded hperform
    refine effect_look hholds hchanges ?_ ?_
    · rintro _ ⟨⟩
      rw [hfile]
      rfl
    · rintro body _ - ⟨⟩ hhash
      cases hhash
  | error =>
    cases hperform
    exact effect_look hholds hchanges nofun nofun

/-- The calls made under a lease only. -/
def SyncCall.onLease : SyncCall V I → Bool
  | .getOutbox .. | .selectRoles .. | .selectAdmins .. | .selectClanPriority ..
  | .readServerState .. | .fileRead .. | .fileAtomicWrite .. => true
  | _ => false

theorem exists_lease {e : SyncCall V I} (hpre : syncPre localeCompare hash e g)
    (hon : e.onLease = true) : ∃ l, g = .lease l := by
  cases g with
  | lease l => exact ⟨l, rfl⟩
  | idle | relay x claimed changes | mutating ids => cases e <;> first | exact hpre.elim | cases hon

variable (localeCompare hash) in
/-- Whatever the reply to the call is, books that met its precondition see an effect. -/
def HasEffect (e : SyncCall V I) : Prop :=
  ∀ (db₀ db db' : SyncDb V I) (g : Books V I) (r : SyncReply e), syncPre localeCompare hash e g →
    Fits localeCompare hash db₀ db g → Grows db₀ db → RowsKnown db →
    (∀ s text, (⟨e, r⟩ : Event (SyncCall V I) SyncReply) =
      ⟨.fileRead s, ReadReply.content text⟩ → FaithfulRead localeCompare hash g text) →
    syncPerform e db r = some db' → Effect localeCompare hash g.tx db₀ db db' g (syncNext e r g)

theorem hasEffect_lockServer (s : V) :
    HasEffect localeCompare hash (.lockServer s : SyncCall V I) := by
  intro db₀ db db' g r hpre hfits _ _ _ hperform
  obtain rfl : g = .idle := hpre
  rcases r with x | _
  · obtain ⟨⟨hfree, rfl⟩, rfl⟩ := of_guarded hperform
    exact effect_lockServer hfree
  · cases hperform
    exact Effect.refl hfits

theorem hasEffect_getOutbox (x : Nat) (id : I) :
    HasEffect localeCompare hash (.getOutbox x id : SyncCall V I) := by
  intro db₀ db db' g r hpre hfits _ hrows _ hperform
  obtain ⟨l, rfl⟩ := exists_lease hpre rfl
  obtain ⟨-, hchanges, hversions, hremoved⟩ := hpre
  rcases r with (_ | row) | _
  · obtain ⟨-, rfl⟩ := reading_eq_some hperform
    exact Effect.refl hfits
  · obtain ⟨hrow, rfl⟩ := reading_eq_some hperform
    obtain ⟨hbound, hserver⟩ := hrows id row hrow.symm
    have hholds : Holds localeCompare hash db₀ _ l := hfits
    refine Effect.of_lease ?_ rfl rfl fun v hv => .inr hv
    exact
      { hholds with
        row := by
          rintro id' row' ⟨⟩
          refine ⟨⟨row, hrow.symm, rfl, rfl⟩, hbound, hserver, fun v hv => ?_⟩
          rw [show Lease.versions { l with row := some (id, row) } = l.versions from rfl,
            hversions] at hv
          cases hv
        removed := fun h => absurd h (by simp [hremoved])
        justified := justified_of_nil hchanges }
  · cases hperform
    exact Effect.refl hfits

theorem hasEffect_reread (x : Nat) {e : SyncCall V I}
    (he : e = .selectRoles x ∨ e = .selectAdmins x ∨ e = .selectClanPriority x) :
    HasEffect localeCompare hash e := by
  rcases he with rfl | rfl | rfl
  all_goals
    intro db₀ db db' g r hpre hfits hgrown _ _ hperform
    obtain ⟨l, rfl⟩ := exists_lease hpre rfl
    obtain ⟨-, hchanges⟩ := hpre
    rcases r with snap | _
    swap
    · cases hperform
      exact Effect.refl hfits
    obtain ⟨⟨hversion, hrows⟩, rfl⟩ := reading_eq_some hperform
  · exact effect_reread hfits hgrown.version_le hchanges (.inr ⟨snap, rfl, hversion, hrows⟩)
      (.inl rfl) (.inl rfl)
  · exact effect_reread hfits hgrown.version_le hchanges (.inl rfl)
      (.inr ⟨snap, rfl, hversion, hrows⟩) (.inl rfl)
  · exact effect_reread hfits hgrown.version_le hchanges (.inl rfl) (.inl rfl)
      (.inr ⟨snap, rfl, hversion, hrows⟩)

theorem hasEffect_readServerState (x : Nat) (s : V) :
    HasEffect localeCompare hash (.readServerState x s : SyncCall V I) := by
  intro db₀ db db' g r hpre hfits _ _ _ hperform
  obtain ⟨l, rfl⟩ := exists_lease hpre rfl
  obtain ⟨-, rfl, hchanges⟩ := hpre
  rcases r with state | _
  · obtain ⟨hstate, rfl⟩ := reading_eq_some hperform
    exact effect_readServerState hfits hchanges hstate
  · cases hperform
    exact Effect.refl hfits

theorem hasEffect_updateOutbox (x : Nat) (id : I) (change : OutboxChange) :
    HasEffect localeCompare hash (.updateOutbox x id change : SyncCall V I) := by
  intro db₀ db db' g r hpre hfits _ _ _ hperform
  rcases r with _ | _
  swap
  · cases hperform
    cases g <;> exact Effect.refl hfits
  cases g with
  | lease l =>
    obtain ⟨rfl, -, hjustified⟩ := hpre
    simp only [syncPerform, hfits.pending, map_some, some.injEq] at hperform
    subst hperform
    exact effect_updateOutbox_lease hfits hjustified
  | relay y claimed changes =>
    obtain ⟨rfl, -, hjustified⟩ := hpre
    simp only [syncPerform, hfits.2.1, map_some, some.injEq] at hperform
    subst hperform
    exact effect_updateOutbox_relay hfits hjustified
  | idle | mutating ids => exact hpre.elim

theorem hasEffect_fileRead (s : V) : HasEffect localeCompare hash (.fileRead s : SyncCall V I) := by
  intro db₀ db db' g r hpre hfits _ _ hfaithful hperform
  obtain ⟨l, rfl⟩ := exists_lease hpre rfl
  obtain ⟨rfl, hchanges⟩ := hpre
  refine effect_fileRead hfits hchanges (fun text htext => ?_) hperform
  exact hfaithful l.server text (by rw [htext])

theorem hasEffect_fileAtomicWrite (s : V) (content : JsString) :
    HasEffect localeCompare hash (.fileAtomicWrite s content : SyncCall V I) := by
  intro db₀ db db' g r hpre hfits _ _ _ hperform
  obtain ⟨l, rfl⟩ := exists_lease hpre rfl
  obtain ⟨rfl, hchanges, body, hbody, hsegment⟩ := hpre
  cases r with
  | written | lost =>
    cases hperform
    exact effect_fileAtomicWrite hfits hchanges hbody hsegment
  | failed =>
    cases hperform
    exact effect_look hfits hchanges nofun nofun

theorem hasEffect_claimRow (skipped : List I) :
    HasEffect localeCompare hash (.claimRow skipped : SyncCall V I) := by
  intro db₀ db db' g r hpre hfits _ _ _ hperform
  obtain rfl : g = .idle := hpre
  rcases r with ⟨x, claimed⟩ | _
  · obtain ⟨⟨rfl, hclaimed⟩, rfl⟩ := of_guarded hperform
    refine Effect.of_rows (grows_of_same rfl rfl rfl rfl (Nat.le_succ _)) rfl rfl ?_
      (fun y _ hy => spares_openTx hy) (fun y hy => .inr (some.inj hy).symm) (fun _ => .inl rfl)
      fun _ h => by cases h
    refine ⟨Nat.lt_succ_self _, by simp [SyncDb.openTx], nofun, fun row hrow => ?_⟩
    rw [hrow, all_some, SyncDb.claimable] at hclaimed
    split at hclaimed
    · next found server hfound hserver =>
      simp only [Bool.and_eq_true, decide_eq_true_eq] at hclaimed
      exact ⟨⟨found, hfound, hclaimed.1.1.2⟩, fun h => ⟨server, hserver, hclaimed.2.trans h⟩⟩
    · cases hclaimed
  · cases hperform
    exact Effect.refl hfits

theorem hasEffect_selectServers :
    HasEffect localeCompare hash (SyncCall.selectServers : SyncCall V I) := by
  intro db₀ db db' g r hpre hfits hgrown _ _ hperform
  obtain rfl : g = .idle := hpre
  rcases r with ids | _
  · obtain ⟨rfl, rfl⟩ := of_guarded hperform
    refine Effect.of_read (fun s row hrow hhosted hremoved => ?_) rfl fun _ h => by cases h
    obtain ⟨row', hrow', hhosted', -⟩ := hgrown.servers s row hrow
    have hid : row'.id = s := by simpa using find?_some hrow'
    refine mem_map.mpr ⟨row', mem_filter.mpr ⟨mem_of_find?_eq_some hrow', ?_⟩, hid⟩
    rw [hhosted'.trans hhosted, Bool.and_true, Bool.not_eq_true']
    by_contra hdeleted
    exact hremoved ⟨row', hrow', by simpa using hdeleted⟩
  · cases hperform
    exact Effect.refl hfits

theorem hasEffect_commitMutation (targets : List (V × I)) (tables : Tables)
    (payload : Option SyncEvent) :
    HasEffect localeCompare hash (.commitMutation targets tables payload : SyncCall V I) := by
  intro db₀ db db' g r hpre hfits _ _ _ hperform
  cases g with
  | mutating ids =>
    cases r with
    | committed | lost => exact effect_commitMutation hfits hpre hperform
    | failed =>
      cases hperform
      exact Effect.of_read trivial rfl fun _ h => by cases h
  | idle | lease l | relay y claimed changes => exact hpre.elim

/-- The effect of any call that the protocol allows. -/
theorem effect_perform {e : SyncCall V I} {r : SyncReply e}
    (hpre : syncPre localeCompare hash e g) (hfits : Fits localeCompare hash db₀ db g)
    (hgrown : Grows db₀ db) (hrows : RowsKnown db)
    (hfaithful : ∀ s text, (⟨e, r⟩ : Event (SyncCall V I) SyncReply) =
      ⟨.fileRead s, ReadReply.content text⟩ → FaithfulRead localeCompare hash g text)
    (hperform : syncPerform e db r = some db') :
    Effect localeCompare hash g.tx db₀ db db' g (syncNext e r g) := by
  have happly (heffect : HasEffect localeCompare hash e) :=
    heffect db₀ db db' g r hpre hfits hgrown hrows hfaithful hperform
  cases e with
  | lockServer s => exact happly (hasEffect_lockServer s)
  | getOutbox x id => exact happly (hasEffect_getOutbox x id)
  | selectRoles x | selectAdmins x | selectClanPriority x =>
    exact happly (hasEffect_reread x (by simp))
  | readServerState x s => exact happly (hasEffect_readServerState x s)
  | updateOutbox x id change => exact happly (hasEffect_updateOutbox x id change)
  | commit x =>
    have htx : g.tx = some x := hpre
    rw [htx]
    cases r with
    | committed | lost => exact effect_commit hfits htx hperform
    | failed =>
      cases hperform
      exact effect_endTx
  | rollback x =>
    have htx : g.tx = some x := hpre
    rw [htx]
    cases hperform
    exact effect_endTx
  | fileRead s => exact happly (hasEffect_fileRead s)
  | fileAtomicWrite s content => exact happly (hasEffect_fileAtomicWrite s content)
  | confirmReload s id | aside what | xadd s id =>
    cases hperform
    exact Effect.refl hfits
  | claimRow skipped => exact happly (hasEffect_claimRow skipped)
  | selectServers => exact happly hasEffect_selectServers
  | commitMutation targets tables payload =>
    exact happly (hasEffect_commitMutation targets tables payload)

/-! ## Moves around the processes -/

/-- The transaction that a move closes. -/
def SyncMove.closes : SyncMove V I → Option Nat
  | .abort x => some x
  | _ => none

/-- A move that leaves transactions, locks, tables and the segments of all files alone. -/
theorem Effect.around (hgrows : Grows db db') (hversion : db'.version = db.version)
    (hpending : db'.pending = db.pending) (hlock : db'.lock = db.lock)
    (hfiles : ∀ s, segmentOf (db'.files s) = segmentOf (db.files s))
    (hsettles : ∀ id row row', db.outbox id = some row → row.appliedAt = none →
      db'.outbox id = some row' → row'.appliedAt ≠ none → Removed db' row.serverId)
    (hinserts : ∀ id row', db'.outbox id = some row' → db.outbox id = none →
      row'.version = db'.version ∧ row'.appliedAt = none ∧ (db'.server row'.serverId).isSome) :
    Effect localeCompare hash own db₀ db db' .idle .idle where
  grows := hgrows
  fits := trivial
  spares y _ _ := ⟨by rw [hpending], fun s hs => ⟨by rw [hlock]; exact hs, hfiles s⟩⟩
  owns _ h := by cases h
  segment s := .inl (hfiles s)
  reads _ h := by cases h
  settles id row row' hrow hopen hrow' hdone :=
    .inl (hsettles id row row' hrow hopen hrow' hdone)
  inserts := hinserts
  latest hlt := absurd hlt (by omega)

theorem effect_softDelete {s : V} {ids : List I} (hrows : RowsKnown db)
    (hmove : syncEnvironment (.softDelete s ids) db = some db') :
    Effect localeCompare hash none db₀ db db' .idle .idle := by
  cases hmove
  set deleted := db.updateServer s fun row => { row with deletedAt := true } with hdeleted
  set changes := (ids.filter fun id => (db.outbox id).any fun row => row.serverId = s).map
    fun id => (id, OutboxChange.applied .serverRemoved) with hchanges
  have hdelete : Grows db deleted :=
    grows_updateServer db s (fun _ => rfl) (fun _ => rfl) fun _ _ => rfl
  have hgrows : Grows db (deleted.publish changes) := hdelete.trans (grows_publish deleted changes)
  refine Effect.around hgrows rfl rfl rfl (fun _ => rfl) ?_ ?_
  · -- only rows of the deleted server are completed
    intro id row row' hrow hopen hrow' hdone
    have happlied : row' = applyChanges id changes row := by
      rw [publish_outbox, show deleted.outbox id = some row from hrow] at hrow'
      exact (some.inj hrow').symm
    obtain ⟨change, hmem, -⟩ := mem_of_applyChanges hopen (happlied ▸ hdone)
    obtain ⟨id', hid', heq⟩ := mem_map.mp hmem
    cases heq
    have hserver : row.serverId = s := by
      have := (mem_filter.mp hid').2
      rw [hrow] at this
      simpa using this
    have hsome := (hrows id row hrow).2
    rw [hserver] at hsome ⊢
    exact (grows_publish deleted changes).removed (removed_softDelete hsome)
  · intro id row' hrow' hnone
    rw [publish_outbox, show deleted.outbox id = none from hnone] at hrow'
    cases hrow'

theorem effect_environment {move : SyncMove V I} (hrows : RowsKnown db)
    (hmove : syncEnvironment move db = some db') :
    Effect localeCompare hash move.closes db₀ db db' .idle .idle := by
  have hquiet (hgrows : Grows db db') (houtbox : db'.outbox = db.outbox)
      (hversion : db'.version = db.version) (hpending : db'.pending = db.pending)
      (hlock : db'.lock = db.lock)
      (hfiles : ∀ s, segmentOf (db'.files s) = segmentOf (db.files s)) :
      Effect localeCompare hash none db₀ db db' .idle .idle := by
    refine Effect.around hgrows hversion hpending hlock hfiles ?_ ?_
    · intro id row row' hrow hopen hrow' hdone
      exact absurd (not_settled_of_same houtbox hrow hopen hrow') hdone
    · intro id row' hrow' hnone
      rw [houtbox, hnone] at hrow'
      cases hrow'
  cases move with
  | createServer server =>
    obtain ⟨-, rfl⟩ := of_guarded hmove
    exact hquiet (grows_createServer db server) rfl rfl rfl rfl fun _ => rfl
  | setStatus s status =>
    cases hmove
    exact hquiet (grows_updateServer db s (fun _ => rfl) (fun _ => rfl) fun _ h => h) rfl rfl rfl
      rfl fun _ => rfl
  | softDelete s ids => exact effect_softDelete hrows hmove
  | enqueueForServer s id payload =>
    obtain ⟨hinsertable, rfl⟩ := of_guarded hmove
    obtain ⟨-, hfresh⟩ := insertable_iff.mp hinsertable
    refine Effect.around (grows_insertRows payload fun t ht => (hfresh t ht).1) rfl rfl rfl
      (fun _ => rfl) ?_ ?_
    · intro id' row row' hrow hopen hrow' hdone
      rcases insertRows_cases hrow' with ⟨t, ht, rfl, rfl⟩ | hold
      · exact absurd rfl hdone
      · rw [hrow] at hold
        cases hold
        exact absurd hopen hdone
    · intro id' row' hrow' hnone
      rcases insertRows_cases hrow' with ⟨t, ht, rfl, rfl⟩ | hold
      · exact ⟨rfl, rfl, (hfresh t ht).2⟩
      · rw [hnone] at hold
        cases hold
  | editFile s content =>
    obtain ⟨hsegment, rfl⟩ := of_guarded hmove
    refine hquiet (grows_of_same rfl rfl rfl rfl (le_refl _)) rfl rfl rfl rfl fun s' => ?_
    rw [writeFile_files]
    split
    · next hs => rw [hs, hsegment]
    · rfl
  | abort x =>
    cases hmove
    exact effect_endTx

end Effects

end SquadPanel.AdminsCfg
