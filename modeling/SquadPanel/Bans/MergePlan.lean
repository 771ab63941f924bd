import SquadPanel.Bans.Merge

/-!
# What a plan does

The loop of `planMerge` in terms of the first record and the last row of every in-memory
key, and what the transaction makes of each row.
-/

namespace SquadPanel.Bans

open Js Lib List

/-! ## Contents -/

/-- What an update writes and `fieldsDiffer` compares. -/
structure BanContents where
  nickname : Option JsString
  reason : Option JsString
  adminName : Option JsString
  expiresAt : Option Int
  raw : JsString
  deriving DecidableEq

def ExistingBanRow.contents (row : ExistingBanRow) : BanContents :=
  ⟨row.nickname, row.reason, row.adminName, row.expiresAt.map JsDate.ms,
    canonicalJson (orEmpty row.raw)⟩

def ParsedBan.contents (record : ParsedBan) : BanContents :=
  ⟨record.nickname, record.reason, record.adminName, record.expiresAt.map JsDate.ms,
    canonicalJson (orEmpty record.raw)⟩

variable {record : ParsedBan}

theorem fieldsDiffer_eq_false {row : ExistingBanRow} :
    fieldsDiffer row record = false ↔ row.contents = record.contents ∧ row.revokedAt = none := by
  unfold fieldsDiffer ExistingBanRow.contents ParsedBan.contents
  split
  · next h => simp [h]
  · split
    · next h => simp [h]
    · split
      · next h => simp [h]
      · split
        · next h => simp [h]
        · split
          · next h => simp [h]
          · split
            · next h => simp [h]
            · simp_all

variable (column : JsonbColumn)

theorem contents_store (raw : Json) :
    canonicalJson (orEmpty (column.store (orEmpty raw))) = canonicalJson (orEmpty raw) := by
  have hraw : orEmpty raw ≠ .null := by cases raw <;> simp [orEmpty]
  have hstored : column.store (orEmpty raw) ≠ .null := fun hnull => hraw (column.eq_null hnull)
  have hkept : orEmpty (column.store (orEmpty raw)) = column.store (orEmpty raw) := by
    cases hvalue : column.store (orEmpty raw) with
    | null => exact absurd hvalue hstored
    | _ => rfl
  rw [hkept, column.canonicalJson_store]

@[simp] theorem contents_insertedRow (id : JsString) (record : ParsedBan) :
    (insertedRow column id record).contents = record.contents := by
  simp only [ExistingBanRow.contents, ParsedBan.contents, insertedRow, contents_store]

@[simp] theorem contents_updatedRow (row : ExistingBanRow) (record : ParsedBan) :
    (updatedRow column row (mergeUpdate row record)).contents = record.contents := by
  simp only [ExistingBanRow.contents, ParsedBan.contents, updatedRow, mergeUpdate, contents_store]

/-! ## What is planned -/

/-- The incoming records that the loop does not skip. -/
abbrev processed (incoming : List ParsedBan) : List ParsedBan :=
  firsts ParsedBan.dedupKey incoming

/-- The row that a record is taken for. -/
abbrev matching (existing : List ExistingBanRow) (record : ParsedBan) : Option ExistingBanRow :=
  lastWith ExistingBanRow.dedupKey existing record.dedupKey

theorem existingByKey_get (existing : List ExistingBanRow) (key : JsString) :
    (existing.foldl (fun byKey row => byKey.set row.dedupKey row) JsMap.empty).get key =
      lastWith ExistingBanRow.dedupKey existing key := by
  have hfold (byKey : JsMap JsString ExistingBanRow) :
      (existing.foldl (fun byKey row => byKey.set row.dedupKey row) byKey).get key =
        (lastWith ExistingBanRow.dedupKey existing key).or (byKey.get key) := by
    induction existing generalizing byKey with
    | nil => rfl
    | cons row rows ih =>
      rw [foldl_cons, ih, JsMap.get_set, ← singleton_append, lastWith_append, Option.or_assoc]
      by_cases hkey : row.dedupKey = key <;> simp [lastWith, withKey, hkey]
  rw [hfold, JsMap.get_empty, Option.or_none]

/-- The update planned for a record, if any. -/
def planUpdate (row : Option ExistingBanRow) (record : ParsedBan) : Option MergeUpdate :=
  match row with
  | none => none
  | some row => if fieldsDiffer row record then some (mergeUpdate row record) else none

theorem mergeStep_of_seen {byKey : JsMap JsString ExistingBanRow} {loop : MergeLoop}
    (hseen : record.dedupKey ∈ loop.seenKeys) : mergeStep byKey loop record =
      { loop with skippedDuplicateKeys := loop.skippedDuplicateKeys + 1 } :=
  if_pos (JsSet.has_eq_true.2 hseen)

variable (byKey : JsMap JsString ExistingBanRow)

theorem mergeStep_of_new {loop : MergeLoop}
    (hnew : record.dedupKey ∉ loop.seenKeys) : let next := mergeStep byKey loop record
    next.toInsert = loop.toInsert ++
        [record].filter (fun record => (byKey.get record.dedupKey).isNone) ∧
      next.toUpdate = loop.toUpdate ++
        (planUpdate (byKey.get record.dedupKey) record).toList ∧
      next.seenKeys = loop.seenKeys.add record.dedupKey := by
  have hhas : ¬ loop.seenKeys.has record.dedupKey = true := fun h => hnew (JsSet.has_eq_true.1 h)
  simp only [mergeStep, if_neg hhas]
  cases hrow : byKey.get record.dedupKey with
  | none => simp [planUpdate, hrow]
  | some row => by_cases hdiffer : fieldsDiffer row record <;> simp [planUpdate, hrow, hdiffer]

theorem foldl_mergeStep (incoming : List ParsedBan) (loop : MergeLoop) :
    let fresh := (processed incoming).filter fun record => ¬ record.dedupKey ∈ loop.seenKeys
    let final := incoming.foldl (mergeStep byKey) loop
    final.toInsert = loop.toInsert ++
        fresh.filter (fun record => (byKey.get record.dedupKey).isNone) ∧
      final.toUpdate = loop.toUpdate ++
        fresh.filterMap (fun record => planUpdate (byKey.get record.dedupKey) record) ∧
      ∀ key, key ∈ final.seenKeys ↔
        key ∈ loop.seenKeys ∨ ∃ record ∈ incoming, record.dedupKey = key := by
  induction incoming generalizing loop with
  | nil => simp [processed, firsts]
  | cons record incoming ih =>
    simp only [foldl_cons]
    by_cases hseen : record.dedupKey ∈ loop.seenKeys
    · rw [mergeStep_of_seen hseen, processed,
        filter_firsts_of_neg (p := fun key => ¬ key ∈ loop.seenKeys) (by simpa using hseen)]
      obtain ⟨hinsert, hupdate, hkeys⟩ :=
        ih { loop with skippedDuplicateKeys := loop.skippedDuplicateKeys + 1 }
      refine ⟨hinsert, hupdate, fun key => ?_⟩
      rw [hkeys, exists_mem_cons_iff]
      constructor
      · rintro (hkey | hkey)
        · exact .inl hkey
        · exact .inr (.inr hkey)
      · rintro (hkey | rfl | hkey)
        · exact Or.inl hkey
        · exact .inl hseen
        · exact .inr hkey
    · obtain ⟨hinsert, hupdate, hkeys⟩ := ih (mergeStep byKey loop record)
      obtain ⟨hinsert', hupdate', hseen'⟩ := mergeStep_of_new byKey hseen
      have hfresh : (processed incoming).filter (fun next =>
          ¬ next.dedupKey ∈ (mergeStep byKey loop record).seenKeys) =
          (processed incoming).filter fun next =>
            decide (¬ next.dedupKey ∈ loop.seenKeys) &&
              decide (next.dedupKey ≠ record.dedupKey) := by
        refine filter_congr fun next _ => ?_
        simp [hseen', not_or]
      rw [processed, filter_firsts_of_pos (p := fun key => ¬ key ∈ loop.seenKeys)
        (by simpa using hseen)]
      rw [hfresh] at hinsert hupdate
      refine ⟨?_, ?_, fun key => ?_⟩
      · rw [hinsert, hinsert', append_assoc, ← filter_append]
        rfl
      · rw [hupdate, hupdate', append_assoc, filterMap_cons]
        cases planUpdate (byKey.get record.dedupKey) record <;> rfl
      · rw [hkeys, hseen', JsSet.mem_add, exists_mem_cons_iff, or_assoc, eq_comm]

section Plan

variable (existing : List ExistingBanRow) (incoming : List ParsedBan)

/-- The records for which there is no row. -/
def newcomers : List ParsedBan :=
  (processed incoming).filter fun record => (matching existing record).isNone

theorem planMerge_spec : (planMerge existing incoming).toInsert = newcomers existing incoming ∧
      (planMerge existing incoming).toUpdate =
        (processed incoming).filterMap
          (fun record => planUpdate (matching existing record) record) ∧
      (planMerge existing incoming).toRevokeIds =
        (existing.filter fun row => decide (row.revokedAt = none ∧
          ∀ record ∈ incoming, record.dedupKey ≠ row.dedupKey)).map ExistingBanRow.id := by
  obtain ⟨hinsert, hupdate, hkeys⟩ := foldl_mergeStep
    (existing.foldl (fun byKey row => byKey.set row.dedupKey row) JsMap.empty) incoming
    ⟨[], [], JsSet.empty, 0⟩
  refine ⟨?_, ?_, ?_⟩
  · refine hinsert.trans ?_
    simp [newcomers, existingByKey_get]
  · refine hupdate.trans ?_
    simp [existingByKey_get]
  · refine congrArg (List.map ExistingBanRow.id) (filter_congr fun row _ => ?_)
    rw [Bool.eq_iff_iff]
    simp only [Bool.and_eq_true, Bool.not_eq_true', decide_eq_true_eq, ← Bool.not_eq_true,
      JsSet.has_eq_true, hkeys, Option.isNone_iff_eq_none]
    simp

variable {existing incoming}

theorem mem_newcomers : record ∈ newcomers existing incoming ↔
      record ∈ processed incoming ∧ ∀ row ∈ existing, row.dedupKey ≠ record.dedupKey := by
  rw [newcomers, mem_filter, Option.isNone_iff_eq_none, lastWith_eq_none]

theorem mem_toUpdate {update : MergeUpdate} : update ∈ (planMerge existing incoming).toUpdate ↔
      ∃ record ∈ processed incoming, ∃ row, matching existing record = some row ∧
        fieldsDiffer row record = true ∧ mergeUpdate row record = update := by
  rw [(planMerge_spec existing incoming).2.1, mem_filterMap]
  refine exists_congr fun record => and_congr_right fun _ => ?_
  cases hrow : matching existing record with
  | none => simp [planUpdate]
  | some row => by_cases hdiffer : fieldsDiffer row record <;> simp [planUpdate, hdiffer]

theorem mem_toRevokeIds {id : JsString} : id ∈ (planMerge existing incoming).toRevokeIds ↔
      ∃ row ∈ existing, row.id = id ∧ row.revokedAt = none ∧
        ∀ record ∈ incoming, record.dedupKey ≠ row.dedupKey := by
  rw [(planMerge_spec existing incoming).2.2]
  grind

/-- Nothing is left to do. -/
theorem planMerge_settled_iff :
    ((planMerge existing incoming).toInsert = [] ∧ (planMerge existing incoming).toUpdate = [] ∧
        (planMerge existing incoming).toRevokeIds = []) ↔
      (∀ record ∈ processed incoming, ∃ row ∈ existing, row.dedupKey = record.dedupKey) ∧
        (∀ record ∈ processed incoming, ∀ row, matching existing record = some row →
          fieldsDiffer row record = false) ∧
        ∀ row ∈ existing, row.revokedAt = none →
          ∃ record ∈ incoming, record.dedupKey = row.dedupKey := by
  refine and_congr ?_ (and_congr ?_ ?_)
  · rw [(planMerge_spec existing incoming).1, eq_nil_iff_forall_not_mem]
    simp only [mem_newcomers, not_and, not_forall, not_not, exists_prop]
  · rw [eq_nil_iff_forall_not_mem]
    simp only [mem_toUpdate]
    grind
  · rw [eq_nil_iff_forall_not_mem]
    simp only [mem_toRevokeIds]
    grind

end Plan

/-! ## What the transaction does -/

section Transaction

variable {column : JsonbColumn} {existing : List ExistingBanRow} {incoming : List ParsedBan}
  {now : JsDate}

/-- The inserts append rows of the values, and the index holds on. -/
theorem exists_foldl_insertRow (column : JsonbColumn) (values : List (ParsedBan × JsString))
    (rows : List ExistingBanRow) : ∃ added, values.foldl (insertRow column) rows = rows ++ added ∧
      (∀ row ∈ added, ∃ value ∈ values, row = insertedRow column value.2 value.1) ∧
      ((rows.map ExistingBanRow.indexKey).Nodup →
        ((rows ++ added).map ExistingBanRow.indexKey).Nodup) := by
  induction values generalizing rows with
  | nil => exact ⟨[], by simp, by simp, by simp⟩
  | cons value values ih =>
    rw [foldl_cons, insertRow]
    split
    · obtain ⟨added, heq, hadded, hindex⟩ := ih rows
      refine ⟨added, heq, fun row hrow => ?_, hindex⟩
      obtain ⟨value', hvalue', hrow'⟩ := hadded row hrow
      exact ⟨value', mem_cons_of_mem _ hvalue', hrow'⟩
    · next hfree =>
      obtain ⟨added, heq, hadded, hindex⟩ := ih (rows ++ [insertedRow column value.2 value.1])
      rw [append_assoc] at heq hindex
      refine ⟨insertedRow column value.2 value.1 :: added, heq, fun row hrow => ?_,
        fun hrows => hindex ?_⟩
      · rcases mem_cons.1 hrow with rfl | hrow
        · exact ⟨value, mem_cons_self, rfl⟩
        · obtain ⟨value', hvalue', hrow'⟩ := hadded row hrow
          exact ⟨value', mem_cons_of_mem _ hvalue', hrow'⟩
      · rw [map_append, nodup_append]
        refine ⟨hrows, nodup_singleton _, ?_⟩
        intro key hkey key' hkey'
        obtain ⟨row, hrow, rfl⟩ := mem_map.1 hkey
        rw [map_singleton, mem_singleton] at hkey'
        rintro rfl
        refine hfree (any_eq_true.2 ⟨row, hrow, decide_eq_true (.inl ?_)⟩)
        exact hkey'

theorem foldl_insertRow_eq {values : List (ParsedBan × JsString)} {rows : List ExistingBanRow}
    (hvalues : values.Pairwise fun a b => a.1.indexKey ≠ b.1.indexKey ∧ a.2 ≠ b.2)
    (hrows : ∀ value ∈ values, ∀ row ∈ rows, row.indexKey ≠ value.1.indexKey ∧ row.id ≠ value.2) :
    values.foldl (insertRow column) rows =
      rows ++ values.map fun value => insertedRow column value.2 value.1 := by
  induction values generalizing rows with
  | nil => simp
  | cons value values ih =>
    obtain ⟨hvalue, hvalues⟩ := pairwise_cons.1 hvalues
    have hfree : ¬ (rows.any fun row =>
        decide (row.indexKey = value.1.indexKey ∨ row.id = value.2)) = true := by
      rw [any_eq_true]
      rintro ⟨row, hrow, hconflict⟩
      have hne := hrows value mem_cons_self row hrow
      exact (of_decide_eq_true hconflict).elim hne.1 hne.2
    rw [foldl_cons, insertRow, if_neg hfree, ih hvalues ?_, append_assoc]
    · rfl
    · intro value' hvalue' row hrow
      rcases mem_append.1 hrow with hrow | hrow
      · exact hrows value' (mem_cons_of_mem _ hvalue') row hrow
      · rw [mem_singleton.1 hrow]
        exact hvalue value' hvalue'

section
variable (column : JsonbColumn) (now : JsDate) (plan : MergePlan) (row : ExistingBanRow)

/-- What becomes of one row. -/
def afterRow :
    ExistingBanRow :=
  revokeRow now plan.toRevokeIds (updateRow column plan.toUpdate row)

theorem afterRow_keys : (afterRow column now plan row).id = row.id ∧
      (afterRow column now plan row).dedupKey = row.dedupKey ∧
      (afterRow column now plan row).indexKey = row.indexKey := by
  have hupdate : (updateRow column plan.toUpdate row).id = row.id ∧
      (updateRow column plan.toUpdate row).dedupKey = row.dedupKey ∧
      (updateRow column plan.toUpdate row).indexKey = row.indexKey := by
    unfold updateRow
    split
    · exact ⟨rfl, rfl, rfl⟩
    · exact ⟨rfl, rfl, rfl⟩
  unfold afterRow revokeRow
  split
  · exact hupdate
  · exact hupdate

end

variable (hids : (existing.map ExistingBanRow.id).Nodup) {row : ExistingBanRow}
  {row' : ExistingBanRow}
include hids

theorem row_eq_of_id (hrow : row ∈ existing) (hrow' : row' ∈ existing)
    (hid : row.id = row'.id) : row = row' :=
  inj_on_of_nodup_map hids hrow hrow' hid

/-- A row is updated for the record that is taken for it. -/
theorem updateRow_cases (column : JsonbColumn) (hrow : row ∈ existing) :
    (∃ record ∈ processed incoming, matching existing record = some row ∧
        updateRow column (planMerge existing incoming).toUpdate row =
          updatedRow column row (mergeUpdate row record)) ∨
      (∀ record ∈ processed incoming, matching existing record = some row →
          fieldsDiffer row record = false) ∧
        updateRow column (planMerge existing incoming).toUpdate row = row := by
  unfold updateRow
  cases hfind : (planMerge existing incoming).toUpdate.find? fun update => update.id = row.id with
  | some update =>
    obtain ⟨record, hrecord, row', hmatch, -, rfl⟩ :=
      mem_toUpdate.1 (mem_of_find?_eq_some hfind)
    have hid : (mergeUpdate row' record).id = row.id := by simpa using find?_some hfind
    obtain rfl := row_eq_of_id hids (mem_of_lastWith hmatch).1 hrow hid
    exact .inl ⟨record, hrecord, hmatch, rfl⟩
  | none =>
    refine .inr ⟨fun record hrecord hmatch => ?_, rfl⟩
    cases hdiffer : fieldsDiffer row record with
    | false => rfl
    | true =>
      have hmem := mem_toUpdate.2 ⟨record, hrecord, row, hmatch, hdiffer, rfl⟩
      have hnone := find?_eq_none.1 hfind _ hmem
      exact absurd (decide_eq_true rfl) hnone

theorem revokeRow_of_seen (hrow : row ∈ existing)
    (hrecord : record ∈ incoming) (hkey : record.dedupKey = row.dedupKey) (hid : row'.id = row.id) :
    revokeRow now (planMerge existing incoming).toRevokeIds row' = row' := by
  refine if_neg fun hrevoke => ?_
  obtain ⟨other, hother, hid', -, hunseen⟩ := mem_toRevokeIds.1 hrevoke.1
  obtain rfl := row_eq_of_id hids hother hrow (hid'.trans hid)
  exact hunseen record hrecord hkey

/-- A row that is in the incoming list no longer is revoked. -/
theorem afterRow_of_unseen (hrow : row ∈ existing)
    (hunseen : ∀ record ∈ incoming, record.dedupKey ≠ row.dedupKey) :
    (afterRow column now (planMerge existing incoming) row).revokedAt ≠ none := by
  have hkept : updateRow column (planMerge existing incoming).toUpdate row = row := by
    rcases updateRow_cases hids column hrow with ⟨record, hrecord, hmatch, -⟩ | ⟨-, hkept⟩
    · exact absurd (mem_of_lastWith hmatch).2.symm (hunseen record (firsts_subset hrecord))
    · exact hkept
  rw [afterRow, hkept, revokeRow]
  split
  · exact Option.some_ne_none now
  · next hskip =>
    intro hactive
    exact hskip ⟨mem_toRevokeIds.2 ⟨row, hrow, rfl, hactive, hunseen⟩, hactive⟩

section

variable {row : ExistingBanRow} {record : ParsedBan} (hrow : row ∈ existing)
  (hrecord : record ∈ processed incoming)
include hrow hrecord

/-- The row that a record is taken for carries its contents. -/
theorem afterRow_of_matching (hmatch : matching existing record = some row) :
    (afterRow column now (planMerge existing incoming) row).contents = record.contents ∧
      (afterRow column now (planMerge existing incoming) row).revokedAt = none := by
  have hkey := (mem_of_lastWith hmatch).2
  have hseen := firsts_subset hrecord
  rcases updateRow_cases hids column hrow with
    ⟨record', hrecord', hmatch', hupdated⟩ | ⟨hsame, hkept⟩
  · have hkey' := (mem_of_lastWith hmatch').2
    obtain rfl := firsts_inj hrecord hrecord' (hkey.symm.trans hkey')
    have hid : (updatedRow column row (mergeUpdate row record)).id = row.id := rfl
    rw [afterRow, hupdated, revokeRow_of_seen hids hrow hseen hkey.symm hid]
    exact ⟨contents_updatedRow column row record, rfl⟩
  · rw [afterRow, hkept, revokeRow_of_seen hids hrow hseen hkey.symm rfl]
    exact fieldsDiffer_eq_false.1 (hsame record hrecord hmatch)

/-- The other rows with its key are left alone. -/
theorem afterRow_of_not_matching (hkey : row.dedupKey = record.dedupKey)
    (hmatch : matching existing record ≠ some row) :
    afterRow column now (planMerge existing incoming) row = row := by
  rcases updateRow_cases hids column hrow with
    ⟨record', hrecord', hmatch', -⟩ | ⟨-, hkept⟩
  · have hkey' := (mem_of_lastWith hmatch').2
    obtain rfl := firsts_inj hrecord hrecord' (hkey.symm.trans hkey')
    exact absurd hmatch' hmatch
  · rw [afterRow, hkept, revokeRow_of_seen hids hrow (firsts_subset hrecord) hkey.symm rfl]

end

omit hids in
theorem afterRow_of_new (hnew : row.id ∉ existing.map ExistingBanRow.id) :
    afterRow column now (planMerge existing incoming) row = row := by
  have hupdate : updateRow column (planMerge existing incoming).toUpdate row = row := by
    unfold updateRow
    cases hfind : (planMerge existing incoming).toUpdate.find? fun update => update.id = row.id with
    | none => rfl
    | some update =>
      obtain ⟨record, -, row', hmatch, -, rfl⟩ :=
        mem_toUpdate.1 (mem_of_find?_eq_some hfind)
      have hid : (mergeUpdate row' record).id = row.id := by simpa using find?_some hfind
      exact absurd (mem_map.2 ⟨row', (mem_of_lastWith hmatch).1, hid⟩) hnew
  rw [afterRow, hupdate]
  refine if_neg fun hrevoke => ?_
  obtain ⟨other, hother, hid, -⟩ := mem_toRevokeIds.1 hrevoke.1
  exact hnew (mem_map.2 ⟨other, hother, hid⟩)

end Transaction

/-! ## The state after a round -/

section Round

variable {column : JsonbColumn} {newId : Nat → JsString} {now : JsDate}
  {existing : List ExistingBanRow} {incoming : List ParsedBan}
variable (hnew : ∀ n, newId n ∉ existing.map ExistingBanRow.id)
include hnew

/-- The old rows, each with its fate, and rows for some of the newcomers. -/
theorem after_spec (column : JsonbColumn) (now : JsDate) (incoming : List ParsedBan)
    (hindex : (existing.map ExistingBanRow.indexKey).Nodup) :
    let after := applyMergePlan column newId now (planMerge existing incoming) existing
    (∀ row ∈ existing, afterRow column now (planMerge existing incoming) row ∈ after) ∧
      (∀ row ∈ after,
        (∃ old ∈ existing, afterRow column now (planMerge existing incoming) old = row) ∨
          ∃ record ∈ newcomers existing incoming, ∃ id, row = insertedRow column id record) ∧
      (after.map ExistingBanRow.indexKey).Nodup := by
  obtain ⟨added, heq, hadded, hnodup⟩ := exists_foldl_insertRow column
    ((planMerge existing incoming).toInsert.zipIdx.map fun value => (value.1, newId value.2))
    existing
  have hrecord (row : ExistingBanRow) (hrow : row ∈ added) :
      ∃ record ∈ newcomers existing incoming, ∃ n, row = insertedRow column (newId n) record := by
    obtain ⟨value, hvalue, hrow⟩ := hadded row hrow
    obtain ⟨⟨record, n⟩, hrecord, rfl⟩ := mem_map.1 hvalue
    have hmem := fst_mem_of_mem_zipIdx hrecord
    rw [(planMerge_spec existing incoming).1] at hmem
    exact ⟨record, hmem, n, hrow⟩
  have hkept : added.map (afterRow column now (planMerge existing incoming)) = added := by
    conv_rhs => rw [← map_id added]
    refine map_congr_left fun row hrow => ?_
    obtain ⟨record, -, n, rfl⟩ := hrecord row hrow
    exact afterRow_of_new (hnew n)
  have hafter : applyMergePlan column newId now (planMerge existing incoming) existing =
      existing.map (afterRow column now (planMerge existing incoming)) ++ added := by
    rw [← hkept, ← map_append, ← heq]
    exact map_map
  refine ⟨fun row hrow => ?_, fun row hrow => ?_, ?_⟩
  · rw [hafter]
    exact mem_append_left _ (mem_map_of_mem hrow)
  · rw [hafter] at hrow
    refine (mem_append.1 hrow).imp mem_map.1 fun hrow => ?_
    obtain ⟨record, hmem, n, hrow⟩ := hrecord row hrow
    exact ⟨record, hmem, newId n, hrow⟩
  · have hkeys : (applyMergePlan column newId now (planMerge existing incoming) existing).map
        ExistingBanRow.indexKey = (existing ++ added).map ExistingBanRow.indexKey := by
      rw [hafter, map_append, map_append, map_map]
      refine congrArg (· ++ _) (map_congr_left fun row _ => ?_)
      exact (afterRow_keys column now (planMerge existing incoming) row).2.2
    rw [hkeys]
    exact hnodup hindex

end Round

end SquadPanel.Bans
