import SquadPanel.AdminsCfg.SyncProtocol

/-!
# How the shared state moves

One call of one process, and one move around the processes: what can change in
the database and the files, what cannot, and that the books of every process go
on fitting the state.
-/

namespace SquadPanel.AdminsCfg

open Js Lib List Option

section State
variable {V I : Type} [DecidableEq V] {db db' : SyncDb V I} {s : V} {f : ServerRow V → ServerRow V}

/-- The server has been soft-deleted. -/
def Removed (db : SyncDb V I) (s : V) : Prop :=
  ∃ row, db.server s = some row ∧ row.deletedAt = true

/-! ## What never goes back -/

structure Grows (db db' : SyncDb V I) : Prop where
  version : (db'.version = db.version ∧ db'.tables = db.tables) ∨ db.version < db'.version
  rows : ∀ id row, db.outbox id = some row → ∃ row', db'.outbox id = some row' ∧
    row'.serverId = row.serverId ∧ row'.version = row.version ∧
    (row.appliedAt ≠ none → row'.appliedAt ≠ none)
  servers : ∀ s row, db.server s = some row → ∃ row', db'.server s = some row' ∧
    row'.hosted = row.hosted ∧ (row.deletedAt = true → row'.deletedAt = true)
  nextTx : db.nextTx ≤ db'.nextTx

theorem Grows.refl (db : SyncDb V I) : Grows db db where
  version := .inl ⟨rfl, rfl⟩
  rows _ row hrow := ⟨row, hrow, rfl, rfl, id⟩
  servers _ row hrow := ⟨row, hrow, rfl, id⟩
  nextTx := le_refl _

theorem Grows.trans {db'' : SyncDb V I} (h : Grows db db') (h' : Grows db' db'') :
    Grows db db'' where
  version := by
    rcases h.version with ⟨hversion, htables⟩ | hlt
    · rw [← hversion, ← htables]
      exact h'.version
    · rcases h'.version with ⟨hversion', -⟩ | hlt'
      · exact .inr (by omega)
      · exact .inr (by omega)
  rows id row hrow := by
    obtain ⟨row', hrow', hserver, hversion, happlied⟩ := h.rows id row hrow
    obtain ⟨row'', hrow'', hserver', hversion', happlied'⟩ := h'.rows id row' hrow'
    exact ⟨row'', hrow'', hserver'.trans hserver, hversion'.trans hversion, happlied' ∘ happlied⟩
  servers s row hrow := by
    obtain ⟨row', hrow', hhosted, hdeleted⟩ := h.servers s row hrow
    obtain ⟨row'', hrow'', hhosted', hdeleted'⟩ := h'.servers s row' hrow'
    exact ⟨row'', hrow'', hhosted'.trans hhosted, hdeleted' ∘ hdeleted⟩
  nextTx := le_trans h.nextTx h'.nextTx

theorem Grows.version_le (h : Grows db db') : db.version ≤ db'.version := by
  rcases h.version with ⟨hversion, -⟩ | hlt
  · exact hversion.ge
  · exact le_of_lt hlt

theorem Grows.removed (h : Grows db db') (hs : Removed db s) : Removed db' s := by
  obtain ⟨row, hrow, hdeleted⟩ := hs
  obtain ⟨row', hrow', -, hkept⟩ := h.servers s row hrow
  exact ⟨row', hrow', hkept hdeleted⟩

theorem Grows.server_isSome (h : Grows db db') (hs : (db.server s).isSome) :
    (db'.server s).isSome := by
  obtain ⟨row, hrow⟩ := isSome_iff_exists.mp hs
  obtain ⟨row', hrow', -⟩ := h.servers s row hrow
  rw [hrow']
  rfl

theorem grows_of_same (hversion : db'.version = db.version) (htables : db'.tables = db.tables)
    (houtbox : db'.outbox = db.outbox) (hservers : db'.servers = db.servers)
    (hnextTx : db.nextTx ≤ db'.nextTx) : Grows db db' where
  version := .inl ⟨hversion, htables⟩
  rows id row hrow := ⟨row, by rw [houtbox]; exact hrow, rfl, rfl, fun h => h⟩
  servers s row hrow := ⟨row, by rw [SyncDb.server, hservers]; exact hrow, rfl, fun h => h⟩
  nextTx := hnextTx

theorem grows_endTx (db : SyncDb V I) (x : Nat) : Grows db (db.endTx x) :=
  grows_of_same rfl rfl rfl rfl (le_refl _)

/-! ## Servers -/

theorem server_updateServer (db : SyncDb V I) (s s' : V) (hid : ∀ row, (f row).id = row.id) :
    (db.updateServer s f).server s' =
      (db.server s').map fun row => if row.id = s then f row else row := by
  unfold SyncDb.updateServer SyncDb.server
  simp only [find?_map]
  congr 2
  funext row
  simp only [Function.comp_apply]
  split
  · rw [hid]
  · rfl

theorem grows_updateServer (db : SyncDb V I) (s : V)
    (hid : ∀ row, (f row).id = row.id) (hhosted : ∀ row, (f row).hosted = row.hosted)
    (hdeleted : ∀ row, row.deletedAt = true → (f row).deletedAt = true) :
    Grows db (db.updateServer s f) where
  version := .inl ⟨rfl, rfl⟩
  rows id row hrow := ⟨row, hrow, rfl, rfl, fun h => h⟩
  servers s' row hrow := by
    refine ⟨if row.id = s then f row else row, ?_, ?_, ?_⟩
    · rw [server_updateServer db s s' hid, hrow]
      rfl
    · split
      · exact hhosted row
      · rfl
    · split
      · exact hdeleted row
      · exact fun h => h
  nextTx := le_refl _

theorem grows_createServer (db : SyncDb V I) (server : ServerRow V) :
    Grows db { db with servers := db.servers ++ [server] } where
  version := .inl ⟨rfl, rfl⟩
  rows id row hrow := ⟨row, hrow, rfl, rfl, fun h => h⟩
  servers s row hrow := by
    refine ⟨row, ?_, rfl, fun h => h⟩
    unfold SyncDb.server at hrow ⊢
    simp only [find?_append, hrow, some_or]
  nextTx := le_refl _

theorem removed_softDelete (hs : (db.server s).isSome) :
    Removed (db.updateServer s fun row => { row with deletedAt := true }) s := by
  obtain ⟨row, hrow⟩ := isSome_iff_exists.mp hs
  have hid : row.id = s := by simpa using find?_some hrow
  refine ⟨{ row with deletedAt := true }, ?_, rfl⟩
  rw [server_updateServer db s s (f := fun row => { row with deletedAt := true }) fun _ => rfl,
    hrow, map_some, if_pos hid]

end State

/-! ## Rows -/

section Rows
variable {V I : Type} {row : OutboxRow V}

/-- A change that completes a row. -/
def OutboxChange.Completes : OutboxChange → Prop
  | .applied _ => True
  | .cancelled => True
  | _ => False

theorem completes_of_change {change : OutboxChange}
    (hopen : row.appliedAt = none) (hdone : (row.change change).appliedAt ≠ none) :
    change.Completes := by
  cases change with
  | applied outcome => trivial
  | failed code => simp [OutboxRow.change, hopen] at hdone
  | relayed => exact absurd hopen hdone
  | cancelled => trivial

variable [DecidableEq I] {db : SyncDb V I} {targets : List (V × I)} {payload : Option SyncEvent}

section
variable (id : I) (changes : List (I × OutboxChange)) (row : OutboxRow V)

/-- A row after the changes of a transaction. -/
def applyChanges : OutboxRow V :=
  changes.foldl (fun row change => if change.1 = id then row.change change.2 else row) row

theorem applyChanges_cons (change : I × OutboxChange) : applyChanges id (change :: changes) row =
    applyChanges id changes (if change.1 = id then row.change change.2 else row) := rfl

theorem applyChanges_keeps : (applyChanges id changes row).serverId = row.serverId ∧
      (applyChanges id changes row).version = row.version ∧
      (row.appliedAt ≠ none → (applyChanges id changes row).appliedAt ≠ none) := by
  induction changes generalizing row with
  | nil => exact ⟨rfl, rfl, fun h => h⟩
  | cons change changes ih =>
    rw [applyChanges_cons]
    split
    · have hone : (row.change change.2).serverId = row.serverId ∧
          (row.change change.2).version = row.version ∧
          (row.appliedAt ≠ none → (row.change change.2).appliedAt ≠ none) := by
        cases change.2 with
        | applied outcome | failed code => simp only [OutboxRow.change]; split <;> simp_all
        | relayed | cancelled => simp [OutboxRow.change]
      obtain ⟨hserver, hversion, hdone⟩ := hone
      obtain ⟨hserver', hversion', hdone'⟩ := ih (row.change change.2)
      exact ⟨hserver'.trans hserver, hversion'.trans hversion, fun h => hdone' (hdone h)⟩
    · exact ih row

end

theorem mem_of_applyChanges {id : I} {changes : List (I × OutboxChange)}
    (hopen : row.appliedAt = none) (hdone : (applyChanges id changes row).appliedAt ≠ none) :
    ∃ change, (id, change) ∈ changes ∧ change.Completes := by
  induction changes generalizing row with
  | nil => exact absurd hopen hdone
  | cons change changes ih =>
    rw [applyChanges_cons] at hdone
    by_cases hnow : (if change.1 = id then row.change change.2 else row).appliedAt = none
    · obtain ⟨change', hmem, hcompletes⟩ := ih hnow hdone
      exact ⟨change', mem_cons_of_mem _ hmem, hcompletes⟩
    · split at hnow
      · next hid => exact ⟨change.2, by simp [← hid], completes_of_change hopen hnow⟩
      · exact absurd hopen hnow

section
variable (db : SyncDb V I) (changes : List (I × OutboxChange))

theorem publish_outbox (id : I) :
    (db.publish changes).outbox id = (db.outbox id).map (applyChanges id changes) := rfl

theorem grows_publish [DecidableEq V] : Grows db (db.publish changes) where
  version := .inl ⟨rfl, rfl⟩
  rows id row hrow := by
    refine ⟨applyChanges id changes row, ?_, applyChanges_keeps id changes row⟩
    rw [publish_outbox, hrow]
    rfl
  servers s row hrow := ⟨row, hrow, rfl, fun h => h⟩
  nextTx := le_refl _

end

/-! ## New rows -/

theorem insertRows_of_not_mem {id : I} (hid : ∀ t ∈ targets, t.2 ≠ id) :
    (db.insertRows targets payload).outbox id = db.outbox id := by
  have hnone : targets.find? (fun t => t.2 = id) = none := by
    rw [find?_eq_none]
    intro t ht
    simpa using hid t ht
  simp only [SyncDb.insertRows, hnone]

theorem insertRows_of_mem {t : V × I} (hnodup : (targets.map Prod.snd).Nodup) (ht : t ∈ targets) :
    (db.insertRows targets payload).outbox t.2 =
      some ⟨t.1, payload, false, none, none, db.version⟩ := by
  have hsome : (targets.find? fun t' => t'.2 = t.2).isSome := find?_isSome.2 ⟨t, ht, by simp⟩
  obtain ⟨t', hfind⟩ := Option.isSome_iff_exists.1 hsome
  have hsame : t'.2 = t.2 := by simpa using find?_some hfind
  obtain rfl := inj_on_of_nodup_map hnodup (mem_of_find?_eq_some hfind) ht hsame
  simp only [SyncDb.insertRows, hfind]

theorem insertRows_cases {id : I} (hrow : (db.insertRows targets payload).outbox id = some row) :
    (∃ t ∈ targets, t.2 = id ∧ row = ⟨t.1, payload, false, none, none, db.version⟩) ∨
      db.outbox id = some row := by
  unfold SyncDb.insertRows at hrow
  simp only at hrow
  split at hrow
  · next t hfind =>
    have hid := find?_some hfind
    cases hrow
    exact .inl ⟨t, mem_of_find?_eq_some hfind, by simpa using hid, rfl⟩
  · exact .inr hrow

variable [DecidableEq V]

theorem insertable_iff : db.insertable targets = true ↔
      (targets.map Prod.snd).Nodup ∧
        ∀ t ∈ targets, db.outbox t.2 = none ∧ (db.server t.1).isSome := by
  simp [SyncDb.insertable]

theorem grows_insertRows (payload : Option SyncEvent)
    (hfresh : ∀ t ∈ targets, db.outbox t.2 = none) : Grows db (db.insertRows targets payload) where
  version := .inl ⟨rfl, rfl⟩
  rows id row hrow := by
    refine ⟨row, ?_, rfl, rfl, fun h => h⟩
    rw [insertRows_of_not_mem, hrow]
    rintro t ht rfl
    rw [hfresh t ht] at hrow
    cases hrow
  servers s row hrow := ⟨row, hrow, rfl, fun h => h⟩
  nextTx := le_refl _

end Rows

/-! ## Books and state -/

section Fits
variable {V I : Type} [DecidableEq V] {H : Type} [DecidableEq H]
variable (localeCompare : JsString → JsString → Int) (hash : JsString → H)

/-- The segment that belongs to the committed tables. -/
def Tables.body (tables : Tables) : JsString :=
  managedSegmentBody localeCompare tables.roles tables.admins tables.clanPriority

/-- The managed segment of the server's file is the one of the committed tables. -/
def InSync (db : SyncDb V I) (s : V) : Prop :=
  segmentOf (db.files s) = some (db.tables.body localeCompare)

/-- What a lease says agrees with the state. -/
structure Holds (db₀ db : SyncDb V I) (l : Lease V I) : Prop where
  tx : l.tx < db.nextTx
  lock : db.lock l.server = some l.tx
  pending : db.pending l.tx = some l.changes
  versions : ∀ v ∈ l.versions, db₀.version ≤ v ∧ v ≤ db.version
  roles : ∀ snap, l.roles = some snap → snap.version = db.version → snap.rows = db.tables.roles
  admins : ∀ snap, l.admins = some snap → snap.version = db.version → snap.rows = db.tables.admins
  clanPriority : ∀ snap, l.clanPriority = some snap → snap.version = db.version →
    snap.rows = db.tables.clanPriority
  row : ∀ id row, l.row = some (id, row) →
    (∃ row', db.outbox id = some row' ∧ row'.serverId = row.serverId ∧ row'.version = row.version) ∧
    row.version ≤ db.version ∧ (db.server row.serverId).isSome ∧
    ∀ v ∈ l.versions, row.version ≤ v
  seen : ∀ file, l.seen = some file → segmentOf (db.files l.server) = segmentOf (some file)
  removed : l.removed = true → ∀ id row, l.row = some (id, row) → row.serverId = l.server →
    Removed db l.server
  -- two segments that were compared and had one hash were one segment
  faithful : ∀ body file, l.body localeCompare = some body → l.seen = some file →
    hashesMatch hash file body = true → segmentOf (some file) = some body
  justified : ∀ change ∈ l.changes, l.Justifies localeCompare hash change.1 change.2

/-- The books of a process agree with the state. -/
def Fits (db₀ db : SyncDb V I) : Books V I → Prop
  | .idle => True
  | .lease l => Holds localeCompare hash db₀ db l
  | .relay x claimed changes =>
    x < db.nextTx ∧ db.pending x = some changes ∧
      (∀ change ∈ changes, ∃ row, claimed = some row ∧ row.Justifies change.1 change.2) ∧
      ∀ row, claimed = some row →
        (∃ row', db.outbox row.id = some row' ∧ row'.serverId = row.serverId) ∧
        (row.serverDeleted = true → Removed db row.serverId)
  | .mutating ids => ∀ s row, db₀.server s = some row → row.hosted = true → ¬ Removed db s → s ∈ ids

/-- A step leaves what transaction `y` holds alone. -/
structure Spares (db db' : SyncDb V I) (y : Nat) : Prop where
  pending : db'.pending y = db.pending y
  lock : ∀ s, db.lock s = some y →
    db'.lock s = some y ∧ segmentOf (db'.files s) = segmentOf (db.files s)

variable {localeCompare hash} {db₀ db db' : SyncDb V I}

omit [DecidableEq V] in
theorem Spares.refl (y : Nat) : Spares db db y := ⟨rfl, fun _ h => ⟨h, rfl⟩⟩

theorem Holds.mono {l : Lease V I} (hholds : Holds localeCompare hash db₀ db l)
    (hgrows : Grows db db') (hspares : Spares db db' l.tx) :
    Holds localeCompare hash db₀ db' l := by
  obtain ⟨hlock, hsegment⟩ := hspares.lock l.server hholds.lock
  have hle := hgrows.version_le
  -- a reading of the new version can only be one of the old version
  have hcurrent {snap : Nat} (hsnap : snap ∈ l.versions) (heq : snap = db'.version) :
      snap = db.version ∧ db'.tables = db.tables := by
    have hbound := (hholds.versions snap hsnap).2
    rcases hgrows.version with ⟨hversion, htables⟩ | hlt
    · exact ⟨by omega, htables⟩
    · omega
  refine
    { tx := lt_of_lt_of_le hholds.tx hgrows.nextTx
      lock := hlock
      pending := hspares.pending.trans hholds.pending
      versions := fun v hv => ⟨(hholds.versions v hv).1, le_trans (hholds.versions v hv).2 hle⟩
      roles := fun snap hsnap heq => ?_
      admins := fun snap hsnap heq => ?_
      clanPriority := fun snap hsnap heq => ?_
      row := fun id row hrow => ?_
      seen := fun file hfile => hsegment.trans (hholds.seen file hfile)
      removed := fun hremoved id row hrow hserver =>
        hgrows.removed (hholds.removed hremoved id row hrow hserver)
      faithful := hholds.faithful
      justified := hholds.justified }
  · obtain ⟨hversion, htables⟩ := hcurrent (by simp [Lease.versions, hsnap]) heq
    rw [htables]
    exact hholds.roles snap hsnap hversion
  · obtain ⟨hversion, htables⟩ := hcurrent (by simp [Lease.versions, hsnap]) heq
    rw [htables]
    exact hholds.admins snap hsnap hversion
  · obtain ⟨hversion, htables⟩ := hcurrent (by simp [Lease.versions, hsnap]) heq
    rw [htables]
    exact hholds.clanPriority snap hsnap hversion
  · obtain ⟨⟨row', hrow', hserver, hversion⟩, hbound, hsome, hafter⟩ := hholds.row id row hrow
    obtain ⟨row'', hrow'', hserver', hversion', -⟩ := hgrows.rows id row' hrow'
    exact ⟨⟨row'', hrow'', hserver'.trans hserver, hversion'.trans hversion⟩,
      le_trans hbound hle, hgrows.server_isSome hsome, hafter⟩

theorem Fits.mono {g : Books V I} (hfits : Fits localeCompare hash db₀ db g)
    (hgrows : Grows db db') (hspares : ∀ y, g.tx = some y → Spares db db' y) :
    Fits localeCompare hash db₀ db' g := by
  cases g with
  | idle => trivial
  | lease l => exact Holds.mono hfits hgrows (hspares l.tx rfl)
  | relay x claimed changes =>
    obtain ⟨hx, hpending, hjustified, hclaimed⟩ := hfits
    refine ⟨lt_of_lt_of_le hx hgrows.nextTx, (hspares x rfl).pending.trans hpending,
      hjustified, fun row hrow => ?_⟩
    obtain ⟨⟨row', hrow', hserver⟩, hremoved⟩ := hclaimed row hrow
    obtain ⟨row'', hrow'', hserver', -⟩ := hgrows.rows row.id row' hrow'
    exact ⟨⟨row'', hrow'', hserver'.trans hserver⟩, fun h => hgrows.removed (hremoved h)⟩
  | mutating ids =>
    intro s row hrow hhosted hremoved
    exact hfits s row hrow hhosted fun h => hremoved (hgrows.removed h)

theorem Fits.tx_lt {g : Books V I} {x : Nat} (hfits : Fits localeCompare hash db₀ db g)
    (htx : g.tx = some x) : x < db.nextTx := by
  cases g with
  | idle => cases htx
  | lease l => cases htx; exact hfits.tx
  | relay y claimed changes => cases htx; exact hfits.1
  | mutating ids => cases htx

end Fits

end SquadPanel.AdminsCfg
