import SquadPanel.Bans.BansCfg
import SquadPanel.Js.IsoDate
import SquadPanel.Js.Set
import SquadPanel.Lib.Keyed

/-!
# Merging an external banlist

`apps/workers/ban-sync/src/merge.ts`: a freshly parsed list is compared with the rows that a
source already has in `external_bans`, under a key that stands for the table's unique index,
and the differences are written in one transaction.
-/

namespace SquadPanel.Bans

open Js Lib

/-! ## Rows and keys -/

structure ExistingBanRow where
  id : JsString
  steamId64 : Option JsString
  eosId : Option JsString
  nickname : Option JsString
  reason : Option JsString
  adminName : Option JsString
  issuedAt : Option JsDate
  expiresAt : Option JsDate
  raw : Json
  revokedAt : Option JsDate

variable (steamId64 eosId : Option JsString) (issuedAt : Option JsDate)

/-- The joined key of the three columns of the index. -/
def dedupKey : JsString :=
  steamId64.getD [] ++ js "|" ++ eosId.getD [] ++ js "|" ++
    (issuedAt.map toISOString).getD (js "epoch")

def ExistingBanRow.dedupKey (row : ExistingBanRow) : JsString :=
  Bans.dedupKey row.steamId64 row.eosId row.issuedAt

def ParsedBan.dedupKey (record : ParsedBan) : JsString :=
  Bans.dedupKey record.steamId64 record.eosId record.issuedAt

/-- The expressions of the unique index `external_bans_dedup_key`, within one source. -/
structure IndexKey where
  steamId64 : JsString
  eosId : JsString
  issuedAt : Int
  deriving DecidableEq

def indexKey : IndexKey :=
  ⟨steamId64.getD [], eosId.getD [], (issuedAt.map JsDate.ms).getD 0⟩

def ExistingBanRow.indexKey (row : ExistingBanRow) : IndexKey :=
  Bans.indexKey row.steamId64 row.eosId row.issuedAt

def ParsedBan.indexKey (record : ParsedBan) : IndexKey :=
  Bans.indexKey record.steamId64 record.eosId record.issuedAt

/-! ## Raw values -/

mutual

/-- The text of a value with the keys of its objects sorted at every depth. -/
def canonicalJson : Json → JsString
  | .null => js "null"
  | .bool b => js (if b then "true" else "false")
  | .number text => text
  | .string s => quote s
  | .array items => js "[" ++ (js ",").intercalate (canonicalItems items) ++ js "]"
  | .object entries =>
    js "\x7b" ++
      (js ",").intercalate
        (((canonicalEntries entries).insertionSort fun a b => ¬ b.1 < a.1).map
          fun entry => quote entry.1 ++ js ":" ++ entry.2) ++ js "\x7d"

def canonicalItems : List Json → List JsString
  | [] => []
  | item :: items => canonicalJson item :: canonicalItems items

def canonicalEntries : List (JsString × Json) → List (JsString × JsString)
  | [] => []
  | (key, value) :: entries => (key, canonicalJson value) :: canonicalEntries entries

end

/-- `raw ?? {}` -/
def orEmpty : Json → Json
  | .null => .object []
  | raw => raw

/-! ## The plan -/

def fieldsDiffer (existing : ExistingBanRow) (incoming : ParsedBan) : Bool :=
  if existing.nickname ≠ incoming.nickname then true
  else if existing.reason ≠ incoming.reason then true
  else if existing.adminName ≠ incoming.adminName then true
  else if existing.expiresAt.map JsDate.ms ≠ incoming.expiresAt.map JsDate.ms then true
  else if canonicalJson (orEmpty existing.raw) ≠ canonicalJson (orEmpty incoming.raw) then true
  else if existing.revokedAt ≠ none then true
  else false

structure MergeUpdate where
  id : JsString
  nickname : Option JsString
  reason : Option JsString
  adminName : Option JsString
  expiresAt : Option JsDate
  raw : Json

structure MergePlan where
  toInsert : List ParsedBan
  toUpdate : List MergeUpdate
  toRevokeIds : List JsString
  skippedDuplicateKeys : Nat

def mergeUpdate (row : ExistingBanRow) (record : ParsedBan) : MergeUpdate where
  id := row.id
  nickname := record.nickname
  reason := record.reason
  adminName := record.adminName
  expiresAt := record.expiresAt
  raw := record.raw

/-- The variables of the loop over the incoming records. -/
structure MergeLoop where
  toInsert : List ParsedBan
  toUpdate : List MergeUpdate
  seenKeys : JsSet JsString
  skippedDuplicateKeys : Nat

def mergeStep (existingByKey : JsMap JsString ExistingBanRow) (loop : MergeLoop)
    (record : ParsedBan) : MergeLoop :=
  let key := record.dedupKey
  if loop.seenKeys.has key then
    { loop with skippedDuplicateKeys := loop.skippedDuplicateKeys + 1 }
  else
    let loop := { loop with seenKeys := loop.seenKeys.add key }
    match existingByKey.get key with
    | none => { loop with toInsert := loop.toInsert ++ [record] }
    | some row =>
      if fieldsDiffer row record then
        { loop with toUpdate := loop.toUpdate ++ [mergeUpdate row record] }
      else loop

def planMerge (existing : List ExistingBanRow) (incoming : List ParsedBan) : MergePlan :=
  let existingByKey :=
    existing.foldl (fun byKey row => byKey.set row.dedupKey row) JsMap.empty
  let loop := incoming.foldl (mergeStep existingByKey) ⟨[], [], JsSet.empty, 0⟩
  { toInsert := loop.toInsert
    toUpdate := loop.toUpdate
    toRevokeIds := (existing.filter fun row =>
      row.revokedAt.isNone && !loop.seenKeys.has row.dedupKey).map ExistingBanRow.id
    skippedDuplicateKeys := loop.skippedDuplicateKeys }

/-! ## The transaction -/

/-- The `jsonb` column `raw`: what is read back is the stored value up to the order of keys. -/
structure JsonbColumn where
  store : Json → Json
  canonicalJson_store : ∀ value, canonicalJson (store value) = canonicalJson value
  eq_null : ∀ {value}, store value = .null → value = .null

section

variable (column : JsonbColumn)

def insertedRow (id : JsString) (record : ParsedBan) : ExistingBanRow where
  id := id
  steamId64 := record.steamId64
  eosId := record.eosId
  nickname := record.nickname
  reason := record.reason
  adminName := record.adminName
  issuedAt := record.issuedAt
  expiresAt := record.expiresAt
  raw := column.store (orEmpty record.raw)
  revokedAt := none

/-- `INSERT … ON CONFLICT DO NOTHING`, one value after the other. -/
def insertRow (rows : List ExistingBanRow) (value : ParsedBan × JsString) :
    List ExistingBanRow :=
  if rows.any fun row => row.indexKey = value.1.indexKey ∨ row.id = value.2 then rows
  else rows ++ [insertedRow column value.2 value.1]

def updatedRow (row : ExistingBanRow) (update : MergeUpdate) : ExistingBanRow :=
  { row with
    nickname := update.nickname
    reason := update.reason
    adminName := update.adminName
    expiresAt := update.expiresAt
    raw := column.store (orEmpty update.raw)
    revokedAt := none }

/-- `UPDATE … FROM (VALUES …) WHERE target.id = source.id` -/
def updateRow (updates : List MergeUpdate) (row : ExistingBanRow) : ExistingBanRow :=
  match updates.find? fun update => update.id = row.id with
  | some update => updatedRow column row update
  | none => row

/-- `UPDATE … SET revoked_at WHERE id IN (…) AND revoked_at IS NULL` -/
def revokeRow (revokedAt : JsDate) (ids : List JsString) (row : ExistingBanRow) :
    ExistingBanRow :=
  if row.id ∈ ids ∧ row.revokedAt = none then { row with revokedAt := some revokedAt } else row

/-- The rows of the source after the transaction.  `newId` are the generated ids; a list too
long for one statement is written in batches, one after the other. -/
def applyMergePlan (newId : Nat → JsString) (now : JsDate) (plan : MergePlan)
    (rows : List ExistingBanRow) : List ExistingBanRow :=
  let inserted := (plan.toInsert.zipIdx.map fun value => (value.1, newId value.2)).foldl
    (insertRow column) rows
  (inserted.map (updateRow column plan.toUpdate)).map (revokeRow now plan.toRevokeIds)

end

end SquadPanel.Bans
