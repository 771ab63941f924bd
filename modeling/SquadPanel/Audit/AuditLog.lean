import SquadPanel.Audit.Chain

/-!
# The table and its trigger

`audit_log_append` draws the `id`, links the new row to the latest one and hashes it.
The lock it takes makes the insertions a sequence.  Postgres text is a list of Unicode
characters; how a timestamp, a UUID, an address or a JSON value is written as text is
the same on both sides and stays open.
-/

namespace SquadPanel.Audit

open Js Lib List

abbrev PgText := List Char

/-- The output functions of the column types. -/
structure Rendering (Ts Uuid Inet Json : Type) where
  /-- `created_at::text` with the time zone pinned to UTC -/
  timestamptz : Ts → PgText
  /-- `to_char(created_at AT TIME ZONE 'UTC', ...)` -/
  utc : Ts → PgText
  uuid : Uuid → PgText
  inet : Inet → PgText
  jsonb : Json → PgText

/-- `n::text` of an integer. -/
def integerText (n : Int) : PgText := (toString n).toList

/-- What an `INSERT` supplies. -/
structure NewAuditRow (Ts Uuid Inet Json : Type) where
  createdAt : Ts
  actorKind : PgText
  actorPlayerId : Option Uuid
  actorTokenId : Option Uuid
  actorSystemLabel : Option PgText
  actorIp : Option Inet
  actionType : PgText
  targetType : Option PgText
  targetId : Option PgText
  beforeSnapshot : Option Json
  afterSnapshot : Option Json
  context : Json
  statusCode : Option Int
  durationMs : Option Int

structure StoredAuditRow (Ts Uuid Inet Json : Type) extends NewAuditRow Ts Uuid Inet Json where
  id : Nat
  hashVersion : Int
  prevHash : Option (List UInt8)
  rowHash : List UInt8

variable {Ts Uuid Inet Json : Type}

/-! ## `audit_log_append` -/

def octetLength (value : PgText) : Nat := (Utf8.encode value).length

def auditLogHashFieldV2 : Option PgText → PgText
  | none => "|-".toList
  | some value => "|".toList ++ decimal (octetLength value) ++ ":".toList ++ value

def canonicalText (R : Rendering Ts Uuid Inet Json) (id : Nat)
    (new : NewAuditRow Ts Uuid Inet Json) : PgText :=
  "v2".toList
    ++ auditLogHashFieldV2 (some (decimal id))
    ++ auditLogHashFieldV2 (some (R.utc new.createdAt))
    ++ auditLogHashFieldV2 (some new.actorKind)
    ++ auditLogHashFieldV2 (new.actorPlayerId.map R.uuid)
    ++ auditLogHashFieldV2 (new.actorTokenId.map R.uuid)
    ++ auditLogHashFieldV2 new.actorSystemLabel
    ++ auditLogHashFieldV2 (new.actorIp.map R.inet)
    ++ auditLogHashFieldV2 (some new.actionType)
    ++ auditLogHashFieldV2 new.targetType
    ++ auditLogHashFieldV2 new.targetId
    ++ auditLogHashFieldV2 (new.beforeSnapshot.map R.jsonb)
    ++ auditLogHashFieldV2 (new.afterSnapshot.map R.jsonb)
    ++ auditLogHashFieldV2 (some (R.jsonb new.context))
    ++ auditLogHashFieldV2 (new.statusCode.map integerText)
    ++ auditLogHashFieldV2 (new.durationMs.map integerText)

/-- The row the trigger returns, for the drawn `id` and the hash of the latest row. -/
def auditLogAppend (sha256 : Digest) (R : Rendering Ts Uuid Inet Json) (id : Nat)
    (prev : Option (List UInt8)) (new : NewAuditRow Ts Uuid Inet Json) :
    StoredAuditRow Ts Uuid Inet Json :=
  { new with
    id := id
    hashVersion := 2
    prevHash := prev
    rowHash := (sha256 (prev.getD [] ++ Utf8.encode (canonicalText R id new))).toList }

/-! ## The table -/

/-- The rows in `id` order, and the last value of the sequence. -/
structure AuditLog (Ts Uuid Inet Json : Type) where
  rows : List (StoredAuditRow Ts Uuid Inet Json)
  lastValue : Nat
  sorted : rows.Pairwise fun r r' => r.id < r'.id
  drawn : ∀ r ∈ rows, r.id ≤ lastValue

namespace AuditLog

def empty : AuditLog Ts Uuid Inet Json where
  rows := []
  lastValue := 0
  sorted := List.Pairwise.nil
  drawn := by
    intro r hr
    cases hr

/-- The hash of the row of the highest `id`. -/
def latestHash (log : AuditLog Ts Uuid Inet Json) : Option (List UInt8) :=
  log.rows.getLast?.map (·.rowHash)

section
variable (sha256 : Digest) (R : Rendering Ts Uuid Inet Json) (log : AuditLog Ts Uuid Inet Json)

/-- One `INSERT`; `skipped` values of the sequence went to insertions that were rolled back. -/
def insert (skipped : Nat) (new : NewAuditRow Ts Uuid Inet Json) : AuditLog Ts Uuid Inet Json where
  rows := log.rows ++ [auditLogAppend sha256 R (log.lastValue + skipped + 1) log.latestHash new]
  lastValue := log.lastValue + skipped + 1
  sorted := by
    refine pairwise_append.2 ⟨log.sorted, pairwise_singleton _ _, fun r hr r' hr' => ?_⟩
    rw [mem_singleton.1 hr']
    have hle := log.drawn r hr
    show r.id < log.lastValue + skipped + 1
    omega
  drawn := by
    intro r hr
    obtain hr | hr := mem_append.1 hr
    · have hle := log.drawn r hr
      omega
    · rw [mem_singleton.1 hr]
      exact le_refl _

def insertAll (news : List (Nat × NewAuditRow Ts Uuid Inet Json)) :
    AuditLog Ts Uuid Inet Json :=
  news.foldl (fun log new => log.insert sha256 R new.1 new.2) log

end

end AuditLog

variable (R : Rendering Ts Uuid Inet Json) (row : StoredAuditRow Ts Uuid Inet Json)

/-- The columns of a row as `AUDIT_CHAIN_COLUMNS_SQL` renders them. -/
def StoredAuditRow.columns : AuditRow PgText where
  id := decimal row.id
  hashVersion := row.hashVersion
  actionType := row.actionType
  targetType := row.targetType
  targetId := row.targetId
  contextText := R.jsonb row.context
  createdAt := R.timestamptz row.createdAt
  createdAtUtc := R.utc row.createdAt
  actorKind := row.actorKind
  actorPlayerId := row.actorPlayerId.map R.uuid
  actorTokenId := row.actorTokenId.map R.uuid
  actorSystemLabel := row.actorSystemLabel
  actorIp := row.actorIp.map R.inet
  beforeSnapshotText := row.beforeSnapshot.map R.jsonb
  afterSnapshotText := row.afterSnapshot.map R.jsonb
  statusCodeText := row.statusCode.map integerText
  durationMsText := row.durationMs.map integerText
  prevHashHex := row.prevHash.map hexText
  rowHashHex := hexText row.rowHash

/-- The driver turns every text into a string. -/
def fetched (row : AuditRow PgText) : AuditChainRow := row.map utf16Encode

def AuditLog.select (log : AuditLog Ts Uuid Inet Json) :
    List AuditChainRow :=
  log.rows.map fun row => fetched (row.columns R)

/-! ## The two encoders -/

theorem v2Field_utf16Encode (value : Option PgText) :
    v2Field (value.map utf16Encode) = utf16Encode (auditLogHashFieldV2 value) := by
  cases value with
  | none => rfl
  | some value =>
    show js "|" ++ utf16Encode (decimal (byteLength (utf16Encode value))) ++ js ":" ++
      utf16Encode value = _
    rw [byteLength, bufferFromUtf8_utf16Encode, auditLogHashFieldV2, utf16Encode_append,
      utf16Encode_append, utf16Encode_append]
    rfl

theorem flatMap_v2Field (fields : List (Option PgText)) :
    (fields.map (Option.map utf16Encode)).flatMap v2Field =
      utf16Encode (fields.flatMap auditLogHashFieldV2) := by
  rw [flatMap_map, utf16Encode, flatMap_assoc]
  exact flatMap_congr fun field _ => v2Field_utf16Encode field

/-- The bytes that are hashed for a fetched row are those of its v2 text. -/
theorem bufferFromUtf8_canonicalAuditStringV2 (row : AuditRow PgText) :
    bufferFromUtf8 (canonicalAuditStringV2 (fetched row)) =
      Utf8.encode ("v2".toList ++ row.hashedFields.flatMap auditLogHashFieldV2) := by
  have hstring : canonicalAuditStringV2 (fetched row) =
      utf16Encode ("v2".toList ++ row.hashedFields.flatMap auditLogHashFieldV2) := by
    rw [canonicalAuditStringV2_eq, fetched, AuditRow.hashedFields_map, flatMap_v2Field,
      utf16Encode_append, js]
  rw [hstring, bufferFromUtf8_utf16Encode]

/-- The trigger hashes that text. -/
theorem canonicalText_eq : canonicalText R row.id row.toNewAuditRow =
      "v2".toList ++ (row.columns R).hashedFields.flatMap auditLogHashFieldV2 := by
  unfold canonicalText AuditRow.hashedFields StoredAuditRow.columns
  generalize "v2".toList = version
  simp only [flatMap_cons, flatMap_nil, append_nil, append_assoc]

end SquadPanel.Audit
