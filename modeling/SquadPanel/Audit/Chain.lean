import SquadPanel.Js.Buffer

/-!
# The audit chain verifier

Every row of `audit_log` carries the hash of the row before it and a hash over its own
canonical string.  The verifier walks the rows in `id` order, in batches of any size,
and stops at the first row that does not fit.  SHA-256 is any function with 32-byte
values.
-/

namespace SquadPanel.Audit

open Js

/-- A hash function. -/
abbrev Digest := List UInt8 → Vector UInt8 32

/-- A row as the verifier selects it, over a type of strings. -/
structure AuditRow (S : Type) where
  id : S
  hashVersion : Int
  actionType : S
  targetType : Option S
  targetId : Option S
  contextText : S
  createdAt : S
  createdAtUtc : S
  actorKind : S
  actorPlayerId : Option S
  actorTokenId : Option S
  actorSystemLabel : Option S
  actorIp : Option S
  beforeSnapshotText : Option S
  afterSnapshotText : Option S
  statusCodeText : Option S
  durationMsText : Option S
  prevHashHex : Option S
  rowHashHex : S

abbrev AuditChainRow := AuditRow JsString

namespace AuditRow

variable {S S' : Type}

def map (f : S → S') (row : AuditRow S) : AuditRow S' where
  id := f row.id
  hashVersion := row.hashVersion
  actionType := f row.actionType
  targetType := row.targetType.map f
  targetId := row.targetId.map f
  contextText := f row.contextText
  createdAt := f row.createdAt
  createdAtUtc := f row.createdAtUtc
  actorKind := f row.actorKind
  actorPlayerId := row.actorPlayerId.map f
  actorTokenId := row.actorTokenId.map f
  actorSystemLabel := row.actorSystemLabel.map f
  actorIp := row.actorIp.map f
  beforeSnapshotText := row.beforeSnapshotText.map f
  afterSnapshotText := row.afterSnapshotText.map f
  statusCodeText := row.statusCodeText.map f
  durationMsText := row.durationMsText.map f
  prevHashHex := row.prevHashHex.map f
  rowHashHex := f row.rowHashHex

/-- The columns of the v2 form, in its order. -/
def hashedFields (row : AuditRow S) : List (Option S) :=
  [some row.id, some row.createdAtUtc, some row.actorKind, row.actorPlayerId, row.actorTokenId,
    row.actorSystemLabel, row.actorIp, some row.actionType, row.targetType, row.targetId,
    row.beforeSnapshotText, row.afterSnapshotText, some row.contextText, row.statusCodeText,
    row.durationMsText]

theorem hashedFields_map (f : S → S') (row : AuditRow S) :
    (row.map f).hashedFields = row.hashedFields.map (Option.map f) := rfl

end AuditRow

/-! ## Canonical strings -/

variable (row : AuditChainRow)

def canonicalAuditStringV1 : JsString :=
  (js "|").intercalate
    [row.actionType, row.targetType.getD (js ""), row.targetId.getD (js ""), row.contextText,
      row.createdAt]

/-- A natural number in a template literal. -/
def decimal (n : Nat) : List Char := Nat.toDigits 10 n

def v2Field : Option JsString → JsString
  | none => js "|-"
  | some value => js "|" ++ utf16Encode (decimal (byteLength value)) ++ js ":" ++ value

def canonicalAuditStringV2 : JsString :=
  List.flatten
    [js "v2", v2Field (some row.id), v2Field (some row.createdAtUtc), v2Field (some row.actorKind),
      v2Field row.actorPlayerId,
      v2Field row.actorTokenId,
      v2Field row.actorSystemLabel,
      v2Field row.actorIp,
      v2Field (some row.actionType),
      v2Field row.targetType,
      v2Field row.targetId,
      v2Field row.beforeSnapshotText,
      v2Field row.afterSnapshotText,
      v2Field (some row.contextText),
      v2Field row.statusCodeText,
      v2Field row.durationMsText]

theorem canonicalAuditStringV2_eq :
    canonicalAuditStringV2 row = js "v2" ++ row.hashedFields.flatMap v2Field := rfl

def canonicalAuditString : Except JsString JsString :=
  if row.hashVersion = 1 then .ok (canonicalAuditStringV1 row)
  else if row.hashVersion = 2 then .ok (canonicalAuditStringV2 row)
  else .error (js ("unknown audit hash_version " ++ toString row.hashVersion))

/-- The bytes of the previous hash; NULL and the empty string are the same empty link. -/
def prevBytes : Option JsString → List UInt8
  | none => []
  | some prevHashHex => if prevHashHex = [] then [] else bufferFromHex prevHashHex

def expectedRowHashHex (sha256 : Digest) (prevHashHex : Option JsString) (row : AuditChainRow) :
    Except JsString JsString := do
  let canonical ← canonicalAuditString row
  let material := prevBytes prevHashHex ++ bufferFromUtf8 canonical
  pure (utf16Encode (hexText (sha256 material).toList))

/-! ## The verifier -/

inductive AuditChainBreakReason where
  | prevHash
  | rowHash
  | hashVersion
  | anchor
deriving DecidableEq

/-- A row recorded outside the database. -/
structure AuditChainAnchor where
  id : JsString
  rowHashHex : JsString
deriving DecidableEq

structure AuditChainResult where
  ok : Bool
  checked : Nat
  brokenAt : Option JsString
  reason : Option AuditChainBreakReason
deriving DecidableEq

structure AuditChainVerifier where
  prevHashHex : Option JsString
  highestVersion : Int
  checked : Nat
  broken : Option (JsString × AuditChainBreakReason)
  lastVerified : Option AuditChainAnchor
  anchorSeen : Bool
  /-- the option of the constructor -/
  anchor : Option AuditChainAnchor

namespace AuditChainVerifier

def new (anchor : Option AuditChainAnchor) : AuditChainVerifier where
  prevHashHex := none
  highestVersion := 0
  checked := 0
  broken := none
  lastVerified := none
  anchorSeen := false
  anchor := anchor

section
variable (v : AuditChainVerifier) (row : AuditChainRow)

def breakAt (reason : AuditChainBreakReason) :
    AuditChainVerifier :=
  { v with broken := some (row.id, reason) }

/-- The end of the loop body, once a row has passed the checks. -/
def pass : AuditChainVerifier :=
  { v with
    prevHashHex := some row.rowHashHex
    lastVerified := some ⟨row.id, row.rowHashHex⟩
    checked := v.checked + 1 }

def checkAnchor : AuditChainVerifier :=
  match v.anchor with
  | some anchor =>
    if row.id = anchor.id then
      if row.rowHashHex ≠ anchor.rowHashHex then v.breakAt row .anchor
      else { v with anchorSeen := true }.pass row
    else v.pass row
  | none => v.pass row

end

/-- The loop body for a row that is not ignored. -/
def verifyRow (sha256 : Digest) (v : AuditChainVerifier) (row : AuditChainRow) :
    Except JsString AuditChainVerifier :=
  if (row.hashVersion ≠ 1 ∧ row.hashVersion ≠ 2) ∨ row.hashVersion < v.highestVersion then
    .ok (v.breakAt row .hashVersion)
  else
    let v := { v with highestVersion := row.hashVersion }
    if v.prevHashHex.getD (js "") ≠ row.prevHashHex.getD (js "") then
      .ok (v.breakAt row .prevHash)
    else do
      let expected ← expectedRowHashHex sha256 v.prevHashHex row
      if expected ≠ row.rowHashHex then pure (v.breakAt row .rowHash)
      else pure (v.checkAnchor row)

/-- The loop: the verifier afterwards, and what `feed` returns. -/
def feed (sha256 : Digest) :
    AuditChainVerifier → List AuditChainRow → Except JsString (AuditChainVerifier × Bool)
  | v, [] => .ok (v, v.broken.isNone)
  | v, row :: rows =>
    if v.broken.isSome then .ok (v, false)
    else do
      let v ← verifyRow sha256 v row
      if v.broken.isSome then pure (v, false) else feed sha256 v rows

/-- Batch after batch. -/
def feedAll (sha256 : Digest) :
    AuditChainVerifier → List (List AuditChainRow) → Except JsString AuditChainVerifier
  | v, [] => .ok v
  | v, batch :: batches => do
    let (v, _) ← feed sha256 v batch
    feedAll sha256 v batches

def result (v : AuditChainVerifier) : AuditChainResult :=
  match v.broken with
  | some (id, reason) => ⟨false, v.checked, some id, some reason⟩
  | none =>
    match v.anchor with
    | some anchor =>
      if v.anchorSeen = false then ⟨false, v.checked, some anchor.id, some .anchor⟩
      else ⟨true, v.checked, none, none⟩
    | none => ⟨true, v.checked, none, none⟩

end AuditChainVerifier

open AuditChainVerifier in
def verifyAuditChain (sha256 : Digest) (rows : List AuditChainRow)
    (anchor : Option AuditChainAnchor) : Except JsString AuditChainResult := do
  let (v, _) ← feed sha256 (new anchor) rows
  pure v.result

namespace AuditChainVerifier

variable {sha256 : Digest} {v : AuditChainVerifier} {row : AuditChainRow}
  {rows : List AuditChainRow}

/-! ## What a row must meet -/

/-- The row is the next row of the chain. -/
structure Fits (sha256 : Digest) (v : AuditChainVerifier) (row : AuditChainRow) : Prop where
  version : row.hashVersion = 1 ∨ row.hashVersion = 2
  noDowngrade : v.highestVersion ≤ row.hashVersion
  prev : v.prevHashHex.getD (js "") = row.prevHashHex.getD (js "")
  hash : expectedRowHashHex sha256 v.prevHashHex row = .ok row.rowHashHex
  anchor : ∀ anchor ∈ v.anchor, row.id = anchor.id → row.rowHashHex = anchor.rowHashHex

/-- The verifier after a row that fits. -/
def accept (v : AuditChainVerifier) (row : AuditChainRow) : AuditChainVerifier :=
  { v with
    prevHashHex := some row.rowHashHex
    highestVersion := row.hashVersion
    checked := v.checked + 1
    lastVerified := some ⟨row.id, row.rowHashHex⟩
    anchorSeen := v.anchorSeen || v.anchor.any fun anchor => row.id = anchor.id }

theorem verifyRow_of_fits (hfits : Fits sha256 v row) :
    verifyRow sha256 v row = .ok (v.accept row) := by
  have hversion : ¬ ((row.hashVersion ≠ 1 ∧ row.hashVersion ≠ 2) ∨
      row.hashVersion < v.highestVersion) := by
    have hcases := hfits.version
    have hle := hfits.noDowngrade
    omega
  unfold verifyRow
  rw [if_neg hversion]
  rw [if_neg (not_not_intro hfits.prev), hfits.hash]
  show (if row.rowHashHex ≠ row.rowHashHex then _ else _) = _
  have hanchor : { v with highestVersion := row.hashVersion }.checkAnchor row = v.accept row := by
    unfold checkAnchor accept pass
    cases hcase : v.anchor with
    | none => simp
    | some anchor =>
      by_cases hid : row.id = anchor.id
      · simp [hid, hfits.anchor anchor hcase hid]
      · simp [hid]
  rw [if_neg (not_not_intro rfl), hanchor]
  rfl

theorem canonicalAuditString_ok (hversion : row.hashVersion = 1 ∨ row.hashVersion = 2) :
    ∃ canonical, canonicalAuditString row = .ok canonical := by
  unfold canonicalAuditString
  obtain hone | htwo := hversion
  · exact ⟨_, if_pos hone⟩
  · rw [if_neg (by omega), if_pos htwo]
    exact ⟨_, rfl⟩

/-- A row that does not fit breaks the chain; nothing is ever thrown. -/
theorem verifyRow_of_not_fits (hnot : ¬ Fits sha256 v row) :
    ∃ w, verifyRow sha256 v row = .ok w ∧ w.broken.isSome := by
  unfold verifyRow
  split
  · exact ⟨_, rfl, rfl⟩
  next hversion =>
  dsimp only
  split
  · exact ⟨_, rfl, rfl⟩
  next hprev =>
  have hknown : row.hashVersion = 1 ∨ row.hashVersion = 2 := by omega
  obtain ⟨canonical, hcanonical⟩ := canonicalAuditString_ok hknown
  have hexpected : expectedRowHashHex sha256 v.prevHashHex row = .ok (utf16Encode (hexText
      (sha256 (prevBytes v.prevHashHex ++ bufferFromUtf8 canonical)).toList)) := by
    rw [expectedRowHashHex, hcanonical]
    rfl
  rw [hexpected]
  show ∃ w, (if _ ≠ row.rowHashHex then _ else _) = Except.ok w ∧ _
  split
  · exact ⟨_, rfl, rfl⟩
  next hhash =>
  refine ⟨_, rfl, ?_⟩
  -- only the anchor is left to object
  unfold checkAnchor
  cases hcase : v.anchor with
  | none =>
    refine absurd ⟨hknown, by omega, not_not.1 hprev, ?_, ?_⟩ hnot
    · rw [hexpected, not_not.1 hhash]
    · rw [hcase]
      exact nofun
  | some anchor =>
    by_cases hid : row.id = anchor.id ∧ row.rowHashHex ≠ anchor.rowHashHex
    · simp only [if_pos hid.1, if_pos hid.2]
      rfl
    · refine absurd ⟨hknown, by omega, not_not.1 hprev, ?_, ?_⟩ hnot
      · rw [hexpected, not_not.1 hhash]
      · rintro anchor' hanchor' hsame
        rw [hcase] at hanchor'
        cases hanchor'
        exact not_not.1 fun hne => hid ⟨hsame, hne⟩

/-! ## Whole lists of rows -/

def FitsAll (sha256 : Digest) : AuditChainVerifier → List AuditChainRow → Prop
  | _, [] => True
  | v, row :: rows => Fits sha256 v row ∧ FitsAll sha256 (v.accept row) rows

def acceptAll (v : AuditChainVerifier) (rows : List AuditChainRow) : AuditChainVerifier :=
  rows.foldl accept v

theorem fitsAll_append {rows' : List AuditChainRow} : FitsAll sha256 v (rows ++ rows') ↔
      FitsAll sha256 v rows ∧ FitsAll sha256 (v.acceptAll rows) rows' := by
  induction rows generalizing v with
  | nil => exact ⟨fun h => ⟨trivial, h⟩, fun h => h.2⟩
  | cons row rows ih =>
    show Fits sha256 v row ∧ FitsAll sha256 (v.accept row) (rows ++ rows') ↔
      (Fits sha256 v row ∧ FitsAll sha256 (v.accept row) rows) ∧ _
    rw [ih, and_assoc]
    rfl

theorem broken_acceptAll (rows : List AuditChainRow) : (v.acceptAll rows).broken = v.broken :=
  List.foldlRecOn (motive := fun w => broken w = v.broken) rows _ rfl fun _ hw _ _ => hw

theorem checked_acceptAll (rows : List AuditChainRow) :
    (v.acceptAll rows).checked = v.checked + rows.length := by
  induction rows generalizing v with
  | nil => rfl
  | cons row rows ih =>
    show ((v.accept row).acceptAll rows).checked = _
    rw [ih, List.length_cons]
    show v.checked + 1 + rows.length = _
    omega

theorem feed_of_fitsAll (hopen : v.broken = none)
    (hfits : FitsAll sha256 v rows) : feed sha256 v rows = .ok (v.acceptAll rows, true) := by
  induction rows generalizing v with
  | nil =>
    rw [feed, hopen]
    rfl
  | cons row rows ih =>
    have hstill : (v.accept row).broken = none := hopen
    rw [feed, hopen, verifyRow_of_fits hfits.1]
    show (if (v.accept row).broken.isSome then _ else feed sha256 (v.accept row) rows) = _
    rw [hstill, ih hstill hfits.2]
    rfl

theorem feed_of_broken (hbroken : v.broken.isSome) : feed sha256 v rows = .ok (v, false) := by
  cases rows with
  | nil =>
    rw [feed, Option.isNone_eq_false_iff.2 hbroken]
  | cons row rows => rw [feed, if_pos hbroken]

theorem feed_of_not_fitsAll (hopen : v.broken = none) (hnot : ¬ FitsAll sha256 v rows) :
    ∃ w, feed sha256 v rows = .ok (w, false) ∧ w.broken.isSome := by
  induction rows generalizing v with
  | nil => exact absurd trivial hnot
  | cons row rows ih =>
    rw [feed, hopen]
    by_cases hfits : Fits sha256 v row
    · have hstill : (v.accept row).broken = none := hopen
      have hrest : ¬ FitsAll sha256 (v.accept row) rows := fun h => hnot ⟨hfits, h⟩
      rw [verifyRow_of_fits hfits]
      show ∃ w, (if (v.accept row).broken.isSome then _ else
        feed sha256 (v.accept row) rows) = _ ∧ _
      rw [hstill]
      exact ih hstill hrest
    · obtain ⟨w, hverify, hbroken⟩ := verifyRow_of_not_fits hfits
      rw [hverify]
      show ∃ w', (if w.broken.isSome then _ else _) = _ ∧ _
      rw [if_pos hbroken]
      exact ⟨w, rfl, hbroken⟩

/-- `feed` accepts a list exactly when every row fits in turn. -/
theorem feed_eq_true_iff (hopen : v.broken = none) :
    (∃ w, feed sha256 v rows = .ok (w, true)) ↔ FitsAll sha256 v rows := by
  constructor
  · rintro ⟨w, hfeed⟩
    apply Classical.byContradiction
    intro hnot
    obtain ⟨w', hfeed', _⟩ := feed_of_not_fitsAll hopen hnot
    rw [hfeed] at hfeed'
    cases hfeed'
  · intro hfits
    exact ⟨_, feed_of_fitsAll hopen hfits⟩

/-! ## Batches -/

theorem feed_append (rows rows' : List AuditChainRow) : feed sha256 v (rows ++ rows') = (do
      let (w, _) ← feed sha256 v rows
      feed sha256 w rows') := by
  induction rows generalizing v with
  | nil => rfl
  | cons row rows ih =>
    rw [List.cons_append, feed, feed]
    split
    · next hbroken => exact (feed_of_broken hbroken).symm
    · cases hverify : verifyRow sha256 v row with
      | error message => rfl
      | ok w =>
        show (if w.broken.isSome then _ else feed sha256 w (rows ++ rows')) =
          (if w.broken.isSome then _ else feed sha256 w rows) >>= _
        split
        · next hbroken => exact (feed_of_broken hbroken).symm
        · exact ih

theorem feedAll_eq_feed (batches : List (List AuditChainRow)) :
    feedAll sha256 v batches = (feed sha256 v batches.flatten).map Prod.fst := by
  induction batches generalizing v with
  | nil => rfl
  | cons batch batches ih =>
    rw [feedAll, List.flatten_cons, feed_append]
    cases feed sha256 v batch with
    | error message => rfl
    | ok w => exact ih

end AuditChainVerifier

end SquadPanel.Audit
