import SquadPanel.Audit.AuditLog
import Mathlib.Data.List.Induction

/-!
# Appended rows verify

Whatever is inserted, the trigger extends an accepted chain to an accepted chain, and
the verifier reaches the same verdict however the rows are cut into batches.
-/

namespace SquadPanel.Audit

open Js Lib AuditChainVerifier List

variable {Ts Uuid Inet Json : Type} {sha256 : Digest} {anchor : Option AuditChainAnchor}
  {rows : List AuditChainRow}

/-! ## The state after an accepted chain -/

section AcceptAll

variable {v : AuditChainVerifier} {rows : List AuditChainRow}

theorem acceptAll_append (rows rows' : List AuditChainRow) :
    v.acceptAll (rows ++ rows') = (v.acceptAll rows).acceptAll rows' :=
  foldl_append

theorem prevHashHex_acceptAll (rows : List AuditChainRow) :
    (v.acceptAll rows).prevHashHex = (rows.getLast?.map (·.rowHashHex)).or v.prevHashHex := by
  induction rows using List.reverseRecOn with
  | nil => rfl
  | append_singleton rows row _ =>
    rw [acceptAll_append, getLast?_concat]
    rfl

theorem anchor_acceptAll (rows : List AuditChainRow) : (v.acceptAll rows).anchor = v.anchor :=
  foldlRecOn (motive := fun w => anchor w = v.anchor) rows _ rfl fun _ hw _ _ => hw

theorem highestVersion_acceptAll (hfits : FitsAll sha256 v rows) (hle : v.highestVersion ≤ 2) :
    (v.acceptAll rows).highestVersion ≤ 2 := by
  induction rows generalizing v with
  | nil => exact hle
  | cons row rows ih =>
    apply ih hfits.2
    show row.hashVersion ≤ 2
    have hversion := hfits.1.version
    omega

/-- The anchored row is among the accepted ones. -/
theorem exists_of_anchorSeen {anchor : AuditChainAnchor} (hanchor : v.anchor = some anchor)
    (hnew : v.anchorSeen = false) (hseen : (v.acceptAll rows).anchorSeen = true) :
    ∃ row ∈ rows, row.id = anchor.id := by
  induction rows using List.reverseRecOn with
  | nil =>
    rw [show (v.acceptAll []).anchorSeen = v.anchorSeen from rfl, hnew] at hseen
    cases hseen
  | append_singleton rows row ih =>
    rw [acceptAll_append] at hseen
    have hlast : ((v.acceptAll rows).anchorSeen ||
        (v.acceptAll rows).anchor.any fun anchor => row.id = anchor.id) = true := hseen
    rw [anchor_acceptAll, hanchor, Bool.or_eq_true] at hlast
    obtain hold | hrow := hlast
    · obtain ⟨row', hrow', hid⟩ := ih hold
      exact ⟨row', mem_append_left _ hrow', hid⟩
    · exact ⟨row, mem_append_right _ (mem_singleton_self _), by simpa using hrow⟩

end AcceptAll

/-! ## The verdict -/

/-- The verifier accepts the rows. -/
def Accepted (sha256 : Digest) (rows : List AuditChainRow) (anchor : Option AuditChainAnchor) :
    Prop :=
  ∃ result, verifyAuditChain sha256 rows anchor = .ok result ∧ result.ok = true

theorem verifyAuditChain_of_fitsAll (hfits : FitsAll sha256 (new anchor) rows)
    (hseen : anchor.isSome → ((new anchor).acceptAll rows).anchorSeen = true) :
    verifyAuditChain sha256 rows anchor = .ok ⟨true, rows.length, none, none⟩ := by
  have hbroken : ((new anchor).acceptAll rows).broken = none := broken_acceptAll rows
  have hchecked : ((new anchor).acceptAll rows).checked = 0 + rows.length := checked_acceptAll rows
  rw [verifyAuditChain, feed_of_fitsAll rfl hfits]
  show Except.ok ((new anchor).acceptAll rows).result = _
  rw [result, hbroken, anchor_acceptAll, hchecked, Nat.zero_add]
  cases anchor with
  | none => rfl
  | some anchor =>
    rw [hseen rfl]
    rfl

theorem fitsAll_of_accepted (haccepted : Accepted sha256 rows anchor) :
    FitsAll sha256 (new anchor) rows ∧
      (anchor.isSome → ((new anchor).acceptAll rows).anchorSeen = true) := by
  obtain ⟨r, hverify, hok⟩ := haccepted
  by_cases hfits : FitsAll sha256 (new anchor) rows
  · refine ⟨hfits, fun hsome => ?_⟩
    have hbroken : ((new anchor).acceptAll rows).broken = none := broken_acceptAll rows
    rw [verifyAuditChain, feed_of_fitsAll rfl hfits] at hverify
    have hresult : ((new anchor).acceptAll rows).result = r := Except.ok.inj hverify
    obtain ⟨anchor, rfl⟩ := Option.isSome_iff_exists.1 hsome
    rw [result, hbroken, anchor_acceptAll] at hresult
    apply Classical.byContradiction
    intro hseen
    rw [Bool.not_eq_true] at hseen
    have hunseen := (if_pos hseen).symm.trans hresult
    rw [← hunseen] at hok
    cases hok
  · obtain ⟨w, hfeed, hbroken⟩ := feed_of_not_fitsAll rfl hfits
    rw [verifyAuditChain, hfeed] at hverify
    have hresult : w.result = r := Except.ok.inj hverify
    obtain ⟨⟨id, reason⟩, hcase⟩ := Option.isSome_iff_exists.1 hbroken
    rw [result, hcase] at hresult
    rw [← hresult] at hok
    cases hok

/-! ## One insertion -/

theorem decimal_injective : Function.Injective decimal := by
  intro m n heq
  have hread : Nat.ofDigitChars 10 (decimal m) 0 = Nat.ofDigitChars 10 (decimal n) 0 := by
    rw [heq]
  rwa [decimal, decimal, Nat.ofDigitChars_toDigits (by omega) (by omega),
    Nat.ofDigitChars_toDigits (by omega) (by omega)] at hread

theorem prevBytes_hexText (bytes : List UInt8) :
    prevBytes (some (utf16Encode (hexText bytes))) = bytes := by
  unfold prevBytes
  dsimp only
  split
  · next hnil =>
    rw [← bufferFromHex_hexText bytes, hnil]
    rfl
  · exact bufferFromHex_hexText bytes

section Insert

variable (R : Rendering Ts Uuid Inet Json) (log : AuditLog Ts Uuid Inet Json) (skipped : Nat)
  (new : NewAuditRow Ts Uuid Inet Json)

theorem select_insert : (log.insert sha256 R skipped new).select R = log.select R ++
      [fetched ((auditLogAppend sha256 R (log.lastValue + skipped + 1) log.latestHash
        new).columns R)] :=
  map_append

/-- The verifier links the new row to the row that the trigger linked it to. -/
theorem prevHashHex_select (anchor : Option AuditChainAnchor) :
    ((AuditChainVerifier.new anchor).acceptAll (log.select R)).prevHashHex =
      log.latestHash.map fun bytes => utf16Encode (hexText bytes) := by
  rw [prevHashHex_acceptAll, AuditLog.select, getLast?_map, AuditLog.latestHash]
  cases log.rows.getLast? <;> rfl

theorem expectedRowHashHex_append {prevHashHex : Option JsString} {prev : Option (List UInt8)}
    (hprev : prevHashHex = prev.map fun bytes => utf16Encode (hexText bytes)) (id : Nat) :
    expectedRowHashHex sha256 prevHashHex
        (fetched ((auditLogAppend sha256 R id prev new).columns R)) =
      .ok (fetched ((auditLogAppend sha256 R id prev new).columns R)).rowHashHex := by
  have hbytes : prevBytes prevHashHex = prev.getD [] := by
    rw [hprev]
    cases prev with
    | none => rfl
    | some bytes => exact prevBytes_hexText bytes
  have hcanonical := canonicalText_eq R (auditLogAppend sha256 R id prev new)
  show Except.ok (utf16Encode (hexText (sha256 (prevBytes prevHashHex ++ bufferFromUtf8
    (canonicalAuditStringV2 _))).toList)) = _
  rw [hbytes, bufferFromUtf8_canonicalAuditStringV2, ← hcanonical]
  rfl

theorem fits_insert (hfits : FitsAll sha256 (AuditChainVerifier.new anchor) (log.select R))
    (hseen : anchor.isSome →
      ((AuditChainVerifier.new anchor).acceptAll (log.select R)).anchorSeen = true) :
    Fits sha256 ((AuditChainVerifier.new anchor).acceptAll (log.select R))
      (fetched ((auditLogAppend sha256 R (log.lastValue + skipped + 1) log.latestHash
        new).columns R)) where
  version := .inr rfl
  noDowngrade := highestVersion_acceptAll hfits (show (0 : Int) ≤ 2 by omega)
  prev := by
    rw [prevHashHex_select]
    show _ = ((log.latestHash.map hexText).map utf16Encode).getD (js "")
    rw [Option.map_map]
    rfl
  hash := expectedRowHashHex_append R new (prevHashHex_select R log anchor) _
  anchor := by
    intro a ha hid
    rw [anchor_acceptAll] at ha
    have hanchor : anchor = some a := ha
    -- the anchored row is in the table already, and its `id` is not drawn again
    obtain ⟨row, hrow, hrowId⟩ := exists_of_anchorSeen hanchor rfl (hseen (by rw [hanchor]; rfl))
    obtain ⟨stored, hstored, rfl⟩ := mem_map.1 hrow
    have htext : utf16Encode (decimal stored.id) =
        utf16Encode (decimal (log.lastValue + skipped + 1)) := hrowId.trans hid.symm
    have hsame : stored.id = log.lastValue + skipped + 1 :=
      decimal_injective (utf16Encode_inj.1 htext)
    have hle := log.drawn stored hstored
    omega

end Insert

/-! ## Any number of insertions -/

theorem fitsAll_insertAll (R : Rendering Ts Uuid Inet Json) (log : AuditLog Ts Uuid Inet Json)
    (news : List (Nat × NewAuditRow Ts Uuid Inet Json))
    (hfits : FitsAll sha256 (new anchor) (log.select R))
    (hseen : anchor.isSome → ((new anchor).acceptAll (log.select R)).anchorSeen = true) :
    FitsAll sha256 (new anchor) ((log.insertAll sha256 R news).select R) ∧
      (anchor.isSome →
        ((new anchor).acceptAll ((log.insertAll sha256 R news).select R)).anchorSeen = true) := by
  induction news generalizing log with
  | nil => exact ⟨hfits, hseen⟩
  | cons new news ih =>
    apply ih (log.insert sha256 R new.1 new.2)
    · rw [select_insert, fitsAll_append]
      exact ⟨hfits, fits_insert R log new.1 new.2 hfits hseen, trivial⟩
    · intro hsome
      rw [select_insert, acceptAll_append]
      show (_ || _) = true
      rw [hseen hsome, Bool.true_or]

/-- Insertions after an accepted prefix leave an accepted chain, checked to its end, and any
batching of it gets the verdict of one pass. -/
theorem verifyAuditChain_insertAll (sha256 : Digest) (R : Rendering Ts Uuid Inet Json)
    (log : AuditLog Ts Uuid Inet Json) (anchor : Option AuditChainAnchor)
    (haccepted : Accepted sha256 (log.select R) anchor)
    (news : List (Nat × NewAuditRow Ts Uuid Inet Json)) :
    verifyAuditChain sha256 ((log.insertAll sha256 R news).select R) anchor =
        .ok ⟨true, ((log.insertAll sha256 R news).select R).length, none, none⟩ ∧
      ∀ batches : List (List AuditChainRow),
        batches.flatten = (log.insertAll sha256 R news).select R →
          (feedAll sha256 (new anchor) batches).map result =
            verifyAuditChain sha256 ((log.insertAll sha256 R news).select R) anchor := by
  obtain ⟨hfits, hseen⟩ := fitsAll_of_accepted haccepted
  obtain ⟨hfits', hseen'⟩ := fitsAll_insertAll R log news hfits hseen
  refine ⟨verifyAuditChain_of_fitsAll hfits' hseen', ?_⟩
  -- however the rows are cut into batches, the verdict is that of one pass
  intro batches hbatches
  rw [feedAll_eq_feed, hbatches, verifyAuditChain]
  cases feed sha256 (new anchor) ((log.insertAll sha256 R news).select R) <;> rfl

/-! A v1 row, recorded as the anchor, and two insertions after it. -/

def sampleDigest : Digest := fun bytes =>
  Vector.replicate 32 (UInt8.ofNat (bytes.foldl (fun sum b => sum + b.toNat) 0))

def sampleRendering : Rendering Nat Nat Nat PgText := ⟨decimal, decimal, decimal, decimal, id⟩

def sampleNew (label : Option String) : NewAuditRow Nat Nat Nat PgText where
  createdAt := 1700000000
  actorKind := "system".toList
  actorPlayerId := none
  actorTokenId := none
  actorSystemLabel := label.map (·.toList)
  actorIp := some 127
  actionType := "role|5:expire".toList
  targetType := some "player".toList
  targetId := none
  beforeSnapshot := none
  afterSnapshot := some "[\"é\", \"😀\"]".toList
  context := "[]".toList
  statusCode := some 200
  durationMs := some (-1)

def sampleFirst (rowHash : List UInt8) : StoredAuditRow Nat Nat Nat PgText :=
  { sampleNew none with id := 3, hashVersion := 1, prevHash := none, rowHash := rowHash }

/-- The hash of the v1 form. -/
def sampleHash : List UInt8 :=
  (sampleDigest (bufferFromUtf8
    (canonicalAuditStringV1 (fetched ((sampleFirst []).columns sampleRendering))))).toList

def sampleLog : AuditLog Nat Nat Nat PgText where
  rows := [sampleFirst sampleHash]
  lastValue := 4
  sorted := pairwise_singleton _ _
  drawn := by simp [sampleFirst]

def sampleAnchor : AuditChainAnchor := ⟨js "3", utf16Encode (hexText sampleHash)⟩

theorem verifyAuditChain_sampleLog :
    Accepted sampleDigest (sampleLog.select sampleRendering) (some sampleAnchor) ∧
      verifyAuditChain sampleDigest
        ((sampleLog.insertAll sampleDigest sampleRendering
          [(0, sampleNew (some "роль")), (2, sampleNew none)]).select sampleRendering)
        (some sampleAnchor) = .ok ⟨true, 3, none, none⟩ := by
  have haccepted : Accepted sampleDigest (sampleLog.select sampleRendering)
      (some sampleAnchor) := by
    have hverify : verifyAuditChain sampleDigest (sampleLog.select sampleRendering)
        (some sampleAnchor) = .ok ⟨true, 1, none, none⟩ := by
      decide +kernel
    exact ⟨_, hverify, rfl⟩
  exact ⟨haccepted, (verifyAuditChain_insertAll sampleDigest sampleRendering sampleLog
    (some sampleAnchor) haccepted [(0, sampleNew (some "роль")), (2, sampleNew none)]).1⟩

end SquadPanel.Audit
