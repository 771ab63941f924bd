import SquadPanel.Bans.MergePlan
import SquadPanel.Lib.LengthPrefixed

/-!
# One sync round

After a plan is applied, the active rows of a source should be the incoming bans, one row
for each key of the unique index, and a second round should change nothing.  This holds as
far as the joined in-memory key tells the same rows and records apart as the index does.
-/

namespace SquadPanel.Bans

open Js Lib List

/-- The rows of a source after a round. -/
structure Converged (incoming : List ParsedBan) (existing after : List ExistingBanRow) :
    Prop where
  /-- The unique index. -/
  index : (after.map ExistingBanRow.indexKey).Nodup
  /-- An active row carries the first incoming record of its index key. -/
  active : ∀ row ∈ after, row.revokedAt = none →
    ∃ record, firstWith ParsedBan.indexKey incoming row.indexKey = some record ∧
      row.contents = record.contents
  covered : ∀ record ∈ incoming, ∃ row ∈ after, row.revokedAt = none ∧
    row.indexKey = record.indexKey
  kept : ∀ row ∈ existing, ∃ row' ∈ after, row'.id = row.id ∧ row'.indexKey = row.indexKey
  /-- Planning again, with the rows read in any order. -/
  settled : ∀ rows : List ExistingBanRow, rows.Perm after →
    (planMerge rows incoming).toInsert = [] ∧ (planMerge rows incoming).toUpdate = [] ∧
      (planMerge rows incoming).toRevokeIds = []

/-- `row` has the in-memory key of `record`. -/
abbrev SameKey (row : ExistingBanRow) (record : ParsedBan) : Prop :=
  row.dedupKey = record.dedupKey

/-- The index key `key` is that of a row with the in-memory key of a record, or the record's
own if there is no such row. -/
def StandsFor (existing : List ExistingBanRow) (record : ParsedBan) (key : IndexKey) : Prop :=
  (∃ row ∈ existing, SameKey row record ∧ row.indexKey = key) ∨
    (∀ row ∈ existing, ¬ SameKey row record) ∧ record.indexKey = key

/-- The in-memory key confuses nothing that matters.  `processed` are the first records of
every in-memory key, `newcomers` those of them without a row. -/
structure KeysAgree (existing : List ExistingBanRow) (incoming : List ParsedBan) : Prop where
  /-- No newcomer meets a row or another newcomer in the index. -/
  rows : ∀ record ∈ newcomers existing incoming, ∀ row ∈ existing,
    row.indexKey ≠ record.indexKey
  newcomers : (newcomers existing incoming).Pairwise fun a b => a.indexKey ≠ b.indexKey
  /-- Of the rows with a record's key, those that are not updated already carry it. -/
  others : ∀ record ∈ processed incoming, ∀ row ∈ existing, SameKey row record →
    matching existing record ≠ some row → fieldsDiffer row record = false
  /-- The rows with a record's key belong to incoming records with its contents. -/
  same : ∀ record ∈ processed incoming, ∀ key, StandsFor existing record key →
    ∃ first, firstWith ParsedBan.indexKey incoming key = some first ∧
      first.contents = record.contents
  /-- Every incoming record has a row or is inserted. -/
  covered : ∀ record ∈ incoming, ∃ first ∈ processed incoming,
    StandsFor existing first record.indexKey

section

variable (column : JsonbColumn) (now : JsDate) {newId : Nat → JsString}
  {existing : List ExistingBanRow} {incoming : List ParsedBan}
variable (hids : (existing.map ExistingBanRow.id).Nodup) {row : ExistingBanRow} {record : ParsedBan}
include hids

/-- Every row with the key of a record is active and carries the record. -/
theorem afterRow_of_sameKey (hrow : row ∈ existing)
    (hrecord : record ∈ processed incoming) (hkey : SameKey row record)
    (hothers : matching existing record ≠ some row → fieldsDiffer row record = false) :
    (afterRow column now (planMerge existing incoming) row).contents = record.contents ∧
      (afterRow column now (planMerge existing incoming) row).revokedAt = none := by
  by_cases hmatch : matching existing record = some row
  · exact afterRow_of_matching hids hrow hrecord hmatch
  · rw [afterRow_of_not_matching hids hrow hrecord hkey hmatch]
    exact fieldsDiffer_eq_false.1 (hothers hmatch)

variable {column now}

/-- An active old row has the key of a processed record. -/
theorem exists_processed_of_active (hrow : row ∈ existing)
    (hactive : (afterRow column now (planMerge existing incoming) row).revokedAt = none) :
    ∃ record ∈ processed incoming, SameKey row record := by
  by_cases hseen : ∃ record ∈ incoming, record.dedupKey = row.dedupKey
  · obtain ⟨record, hrecord, hkey⟩ := hseen
    obtain ⟨first, hfirst, hsame⟩ : ∃ first ∈ processed incoming,
        first.dedupKey = record.dedupKey := exists_mem_firsts hrecord
    exact ⟨first, hfirst, (hsame.trans hkey).symm⟩
  · refine absurd hactive (afterRow_of_unseen hids hrow fun record hrecord hkey => ?_)
    exact hseen ⟨record, hrecord, hkey⟩

omit hids in
/-- Without conflicts every newcomer is inserted. -/
theorem insertedRow_mem_after (column : JsonbColumn) (now : JsDate)
    (hnew : ∀ n, newId n ∉ existing.map ExistingBanRow.id)
    (hinj : Function.Injective newId) (hagree : KeysAgree existing incoming)
    (hrecord : record ∈ newcomers existing incoming) : ∃ id, insertedRow column id record ∈
      applyMergePlan column newId now (planMerge existing incoming) existing := by
  generalize hvalues : (newcomers existing incoming).zipIdx.map
    (fun value => (value.1, newId value.2)) = values
  have hpairs : values.Pairwise fun a b => a.1.indexKey ≠ b.1.indexKey ∧ a.2 ≠ b.2 := by
    rw [← hvalues, pairwise_iff_getElem]
    intro i j hi hj hlt
    have hkeys := pairwise_iff_getElem.1 hagree.newcomers i j (by simpa using hi)
      (by simpa using hj) hlt
    simp only [getElem_map, getElem_zipIdx, Nat.zero_add]
    exact ⟨hkeys, fun heq => Nat.ne_of_lt hlt (hinj heq)⟩
  have hrows : ∀ value ∈ values, ∀ row ∈ existing,
      row.indexKey ≠ value.1.indexKey ∧ row.id ≠ value.2 := by
    intro value hvalue row hrow
    rw [← hvalues] at hvalue
    obtain ⟨⟨record, n⟩, hmem, rfl⟩ := mem_map.1 hvalue
    refine ⟨hagree.rows record (fst_mem_of_mem_zipIdx hmem) row hrow, ?_⟩
    exact fun hid => hnew n (mem_map.2 ⟨row, hrow, hid⟩)
  obtain ⟨n, hn, hget⟩ := getElem_of_mem hrecord
  have hmem : insertedRow column (newId n) record ∈
      existing ++ values.map fun value => insertedRow column value.2 value.1 := by
    refine mem_append_right _ (mem_map.2 ⟨(record, newId n), ?_, rfl⟩)
    rw [← hvalues]
    refine mem_map.2 ⟨(record, n), ?_, rfl⟩
    rw [mem_zipIdx_iff_getElem?, getElem?_eq_getElem hn, hget]
  refine ⟨newId n, ?_⟩
  have hfate := mem_map_of_mem (f := afterRow column now (planMerge existing incoming)) hmem
  rw [afterRow_of_new (hnew n), ← foldl_insertRow_eq hpairs hrows, ← hvalues,
    ← (planMerge_spec existing incoming).1] at hfate
  rw [applyMergePlan, map_map]
  exact hfate

section
variable (hindex : (existing.map ExistingBanRow.indexKey).Nodup)
  (hnew : ∀ n, newId n ∉ existing.map ExistingBanRow.id)
include hindex hnew

theorem converged_of_keysAgree (hinj : Function.Injective newId)
    (hagree : KeysAgree existing incoming) : Converged incoming existing
      (applyMergePlan column newId now (planMerge existing incoming) existing) := by
  obtain ⟨hold, hmem, hnodup⟩ := after_spec hnew column now incoming hindex
  have hinserted {record : ParsedBan} (hrecord : record ∈ newcomers existing incoming) :=
    insertedRow_mem_after column now hnew hinj hagree hrecord
  generalize hrows : applyMergePlan column newId now (planMerge existing incoming) existing = after
    at hold hmem hinserted hnodup
  have hcarries {row : ExistingBanRow} {record : ParsedBan} (hrow : row ∈ existing)
      (hrecord : record ∈ processed incoming) (hkey : SameKey row record) :=
    afterRow_of_sameKey column now hids hrow hrecord hkey
      (hagree.others record hrecord row hrow hkey)
  have hkeys := afterRow_keys column now (planMerge existing incoming)
  refine ⟨hnodup, fun row hrow hactive => ?_, fun record hrecord => ?_, fun row hrow => ?_,
    fun rows hperm => planMerge_settled_iff.2 ⟨fun record hrecord => ?_,
      fun record hrecord row hmatch => ?_, fun row hrow hactive => ?_⟩⟩
  · rcases hmem _ hrow with ⟨old, hold, rfl⟩ | ⟨record, hrecord, id, rfl⟩
    · obtain ⟨record, hrecord, hkey⟩ := exists_processed_of_active hids hold hactive
      obtain ⟨first, hfirst, hsame⟩ := hagree.same record hrecord old.indexKey
        (.inl ⟨old, hold, hkey, rfl⟩)
      rw [(hkeys old).2.2]
      exact ⟨first, hfirst, (hcarries hold hrecord hkey).1.trans hsame.symm⟩
    · obtain ⟨hprocessed, hnone⟩ := mem_newcomers.1 hrecord
      obtain ⟨first, hfirst, hsame⟩ := hagree.same record hprocessed record.indexKey
        (.inr ⟨hnone, rfl⟩)
      exact ⟨first, hfirst, (contents_insertedRow column id record).trans hsame.symm⟩
  · obtain ⟨first, hfirst, hstands⟩ := hagree.covered record hrecord
    rcases hstands with ⟨row, hrow, hkey, hindex⟩ | ⟨hnone, hindex⟩
    · exact ⟨_, hold _ hrow, (hcarries hrow hfirst hkey).2, (hkeys row).2.2.trans hindex⟩
    · obtain ⟨id, hin⟩ := hinserted (mem_newcomers.2 ⟨hfirst, hnone⟩)
      exact ⟨_, hin, rfl, hindex⟩
  · exact ⟨_, hold _ hrow, (hkeys row).1, (hkeys row).2.2⟩
  · by_cases hrow : ∃ row ∈ existing, SameKey row record
    · obtain ⟨row, hrow, hkey⟩ := hrow
      exact ⟨_, hperm.mem_iff.2 (hold _ hrow), (hkeys row).2.1.trans hkey⟩
    · obtain ⟨id, hin⟩ := hinserted (mem_newcomers.2 ⟨hrecord, fun row hmem hkey =>
        hrow ⟨row, hmem, hkey⟩⟩)
      exact ⟨_, hperm.mem_iff.2 hin, rfl⟩
  · obtain ⟨hrow, hkey⟩ := mem_of_lastWith hmatch
    rcases hmem _ (hperm.mem_iff.1 hrow) with ⟨old, hold, rfl⟩ | ⟨record', hrecord', id, rfl⟩
    · exact fieldsDiffer_eq_false.2 (hcarries hold hrecord ((hkeys old).2.1.symm.trans hkey))
    · obtain rfl := firsts_inj (mem_newcomers.1 hrecord').1 hrecord hkey
      exact fieldsDiffer_eq_false.2 ⟨contents_insertedRow column id _, rfl⟩
  · rcases hmem _ (hperm.mem_iff.1 hrow) with ⟨old, hold, rfl⟩ | ⟨record, hrecord, id, rfl⟩
    · obtain ⟨record, hrecord, hkey⟩ := exists_processed_of_active hids hold hactive
      exact ⟨record, firsts_subset hrecord, hkey.symm.trans (hkeys old).2.1.symm⟩
    · exact ⟨record, firsts_subset (mem_newcomers.1 hrecord).1, rfl⟩

theorem keysAgree_of_converged (hconverged : Converged incoming existing
      (applyMergePlan column newId now (planMerge existing incoming) existing)) :
    KeysAgree existing incoming := by
  obtain ⟨hold, hmem, -⟩ := after_spec hnew column now incoming hindex
  generalize hrows : applyMergePlan column newId now (planMerge existing incoming) existing = after
    at hold hmem hconverged
  have hkeys := afterRow_keys column now (planMerge existing incoming)
  have hunique {row row' : ExistingBanRow} (hrow : row ∈ after) (hrow' : row' ∈ after)
      (heq : row.indexKey = row'.indexKey) : row = row' :=
    inj_on_of_nodup_map hconverged.index hrow hrow' heq
  have hsettled (rows : List ExistingBanRow) (hperm : rows.Perm after) :=
    planMerge_settled_iff.1 (hconverged.settled rows hperm)
  -- a newcomer that was skipped would be planned again
  have hinserted {record : ParsedBan} (hrecord : record ∈ newcomers existing incoming) :
      ∃ id, insertedRow column id record ∈ after := by
    obtain ⟨hprocessed, hnone⟩ := mem_newcomers.1 hrecord
    obtain ⟨row, hrow, hkey⟩ := (hsettled after (List.Perm.refl _)).1 record hprocessed
    rcases hmem _ hrow with ⟨old, hold, rfl⟩ | ⟨record', hrecord', id, rfl⟩
    · exact absurd ((hkeys old).2.1.symm.trans hkey) (hnone old hold)
    · obtain rfl := firsts_inj (mem_newcomers.1 hrecord').1 hprocessed hkey
      exact ⟨id, hrow⟩
  have hothers : ∀ record ∈ processed incoming, ∀ row ∈ existing, SameKey row record →
      matching existing record ≠ some row → fieldsDiffer row record = false := by
    intro record hrecord row hrow hkey hmatch
    have hkept := hold _ hrow
    rw [afterRow_of_not_matching hids hrow hrecord hkey hmatch] at hkept
    obtain ⟨rows, hperm, hlast⟩ : ∃ rows : List ExistingBanRow, rows.Perm after ∧
        lastWith ExistingBanRow.dedupKey rows row.dedupKey = some row :=
      exists_perm_lastWith hkept
    rw [hkey] at hlast
    exact (hsettled rows hperm).2.1 record hrecord row hlast
  refine ⟨fun record hrecord row hrow heq => ?_, ?_, hothers, fun record hrecord key hstands => ?_,
    fun record hrecord => ?_⟩
  · obtain ⟨id, hin⟩ := hinserted hrecord
    have hsame := hunique (hold _ hrow) hin ((hkeys row).2.2.trans heq)
    refine (mem_newcomers.1 hrecord).2 row hrow ?_
    rw [← (hkeys row).2.1, hsame]
    rfl
  · refine List.Pairwise.imp_of_mem ?_ ((firsts_pairwise incoming).filter _)
    intro record record' hrecord hrecord' hne heq
    obtain ⟨id, hin⟩ := hinserted hrecord
    obtain ⟨id', hin'⟩ := hinserted hrecord'
    have hsame := hunique hin hin' heq
    exact hne (congrArg ExistingBanRow.dedupKey hsame)
  · rcases hstands with ⟨row, hrow, hkey, rfl⟩ | ⟨hnone, rfl⟩
    · obtain ⟨hcontents, hactive⟩ := afterRow_of_sameKey column now hids hrow hrecord hkey
        (hothers record hrecord row hrow hkey)
      obtain ⟨first, hfirst, hsame⟩ := hconverged.active _ (hold _ hrow) hactive
      rw [(hkeys row).2.2] at hfirst
      exact ⟨first, hfirst, hsame.symm.trans hcontents⟩
    · obtain ⟨id, hin⟩ := hinserted (mem_newcomers.2 ⟨hrecord, hnone⟩)
      obtain ⟨first, hfirst, hsame⟩ := hconverged.active _ hin rfl
      exact ⟨first, hfirst, hsame.symm.trans (contents_insertedRow column id record)⟩
  · obtain ⟨row, hrow, hactive, heq⟩ := hconverged.covered record hrecord
    rcases hmem _ hrow with ⟨old, hold, rfl⟩ | ⟨first, hfirst, id, rfl⟩
    · obtain ⟨first, hfirst, hkey⟩ := exists_processed_of_active hids hold hactive
      exact ⟨first, hfirst, .inl ⟨old, hold, hkey, (hkeys old).2.2.symm.trans heq⟩⟩
    · obtain ⟨hprocessed, hnone⟩ := mem_newcomers.1 hfirst
      exact ⟨first, hprocessed, .inr ⟨hnone, heq⟩⟩

end

end

/-- The in-memory key and the index tell a row and a record, or two records, apart alike. -/
structure SameKeys (existing : List ExistingBanRow) (incoming : List ParsedBan) : Prop where
  rows : ∀ row ∈ existing, ∀ record ∈ incoming,
    row.dedupKey = record.dedupKey ↔ row.indexKey = record.indexKey
  records : ∀ record ∈ incoming, ∀ record' ∈ incoming,
    record.dedupKey = record'.dedupKey ↔ record.indexKey = record'.indexKey

variable {existing : List ExistingBanRow} {incoming : List ParsedBan}

theorem SameKeys.keysAgree (hsame : SameKeys existing incoming)
    (hindex : (existing.map ExistingBanRow.indexKey).Nodup) : KeysAgree existing incoming := by
  refine ⟨fun record hrecord row hrow heq => ?_, ?_, fun record hrecord row hrow hkey hne => ?_,
    fun record hrecord key hstands => ?_, fun record hrecord => ?_⟩
  · obtain ⟨hprocessed, hnone⟩ := mem_newcomers.1 hrecord
    exact hnone row hrow ((hsame.rows row hrow record (firsts_subset hprocessed)).2 heq)
  · refine List.Pairwise.imp_of_mem ?_ ((firsts_pairwise incoming).filter _)
    intro record record' hrecord hrecord' hne heq
    exact hne ((hsame.records record (firsts_subset (mem_newcomers.1 hrecord).1) record'
      (firsts_subset (mem_newcomers.1 hrecord').1)).2 heq)
  · cases hmatch : matching existing record with
    | none => exact absurd hkey (lastWith_eq_none.1 hmatch row hrow)
    | some other =>
      obtain ⟨hother, hkey'⟩ := mem_of_lastWith hmatch
      have hin := firsts_subset hrecord
      have heq : other.indexKey = row.indexKey :=
        ((hsame.rows other hother record hin).1 hkey').trans
          ((hsame.rows row hrow record hin).1 hkey).symm
      exact absurd (hmatch.trans (congrArg some (inj_on_of_nodup_map hindex hother hrow heq))) hne
  · have hin := firsts_subset hrecord
    have hkey : record.indexKey = key := by
      rcases hstands with ⟨row, hrow, hkey, rfl⟩ | ⟨-, rfl⟩
      · exact ((hsame.rows row hrow record hin).1 hkey).symm
      · rfl
    subst hkey
    refine ⟨record, ?_, rfl⟩
    rw [← mem_firsts.1 hrecord]
    exact firstWith_congr fun other hother => (hsame.records other hother record hin).symm
  · obtain ⟨first, hfirst, hkey⟩ : ∃ first ∈ processed incoming,
        first.dedupKey = record.dedupKey := exists_mem_firsts hrecord
    have hin := firsts_subset hfirst
    have heq := (hsame.records first hin record hrecord).1 hkey
    refine ⟨first, hfirst, ?_⟩
    by_cases hrow : ∃ row ∈ existing, SameKey row first
    · obtain ⟨row, hrow, hkey⟩ := hrow
      exact .inl ⟨row, hrow, hkey, ((hsame.rows row hrow first hin).1 hkey).trans heq⟩
    · exact .inr ⟨fun row hmem hkey => hrow ⟨row, hmem, hkey⟩, heq⟩

/-- Ids without a bar, and not issued at the epoch. -/
def Plain (steamId64 eosId : Option JsString) (issuedAt : Option JsDate) : Prop :=
  0x7C ∉ steamId64.getD [] ∧ 0x7C ∉ eosId.getD [] ∧ ∀ date ∈ issuedAt, date.ms ≠ 0

variable {issuedAt issuedAt' : Option JsDate}

theorem issuedText_eq_iff (hplain : ∀ date ∈ issuedAt, date.ms ≠ 0)
    (hplain' : ∀ date ∈ issuedAt', date.ms ≠ 0) :
    (issuedAt.map toISOString).getD (js "epoch") = (issuedAt'.map toISOString).getD (js "epoch") ↔
      (issuedAt.map JsDate.ms).getD 0 = (issuedAt'.map JsDate.ms).getD 0 := by
  have hepoch (date : JsDate) : toISOString date ≠ js "epoch" := by
    intro heq
    have hmem := hyphen_mem_toISOString date
    rw [heq] at hmem
    revert hmem
    decide
  cases issuedAt with
  | none =>
    cases issuedAt' with
    | none => simp
    | some date => exact iff_of_false (hepoch date).symm (hplain' date rfl).symm
  | some date =>
    cases issuedAt' with
    | none => exact iff_of_false (hepoch date) (hplain date rfl)
    | some date' =>
      refine ⟨fun heq => congrArg JsDate.ms (toISOString_inj heq), fun heq => ?_⟩
      exact congrArg toISOString (JsDate.ext_ms heq)

/-- A bar that is the first on both sides splits both alike. -/
theorem append_bar_inj {a a' b b' : JsString} (ha : 0x7C ∉ a) (ha' : 0x7C ∉ a') :
    a ++ (js "|" ++ b) = a' ++ (js "|" ++ b') ↔ a = a' ∧ b = b' := by
  have hbar : js "|" = [0x7C] := by decide
  rw [hbar]
  constructor
  · exact LengthPrefixed.append_stop_inj ha ha'
  · rintro ⟨rfl, rfl⟩
    rfl

theorem dedupKey_eq_iff {steamId64 steamId64' eosId eosId' : Option JsString}
    (hplain : Plain steamId64 eosId issuedAt) (hplain' : Plain steamId64' eosId' issuedAt') :
    dedupKey steamId64 eosId issuedAt = dedupKey steamId64' eosId' issuedAt' ↔
      indexKey steamId64 eosId issuedAt = indexKey steamId64' eosId' issuedAt' := by
  obtain ⟨hsteam, heos, hissued⟩ := hplain
  obtain ⟨hsteam', heos', hissued'⟩ := hplain'
  unfold dedupKey indexKey
  rw [IndexKey.mk.injEq, ← issuedText_eq_iff hissued hissued']
  simp only [append_assoc]
  rw [append_bar_inj hsteam hsteam', append_bar_inj heos heos']

/-- A column that returns what was stored. -/
def JsonbColumn.verbatim : JsonbColumn where
  store value := value
  canonicalJson_store _ := rfl
  eq_null h := h

def bannedPlayer (issuedAt : Option JsDate) (reason : String) : ParsedBan where
  steamId64 := some (js "76561198000000001")
  eosId := none
  nickname := none
  reason := some (js reason)
  adminName := none
  issuedAt := issuedAt
  expiresAt := none
  raw := .null

/-- A row whose time of issue is unknown. -/
def undatedRow : ExistingBanRow :=
  insertedRow .verbatim (js "row") (bannedPlayer none "cheating")

theorem decimalText_ne_row (n : Nat) : decimalText n ∉ [undatedRow].map ExistingBanRow.id := by
  rw [map_singleton, mem_singleton]
  intro heq
  have hnot : 0x72 ∉ decimalText n := not_mem_decimalText (by decide) n
  rw [heq] at hnot
  revert hnot
  decide

end SquadPanel.Bans
