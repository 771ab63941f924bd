import SquadPanel.Audit.Appends
import SquadPanel.Lib.LengthPrefixed
import Mathlib.Data.Set.Function

/-!
# Tamper evidence

Two accepted chains of v2 rows that start from the same hash, have the same length and
end in the same hash hold the same columns.  The argument goes backwards from the head:
equal hashes have equal materials, the 32 bytes of the link come off, and the
length-prefixed fields that remain can be read in one way only.
-/

namespace SquadPanel.Audit

open Js Lib LengthPrefixed AuditChainVerifier List

/-! ## Reading the canonical bytes back -/

theorem encodeChar_digit {c : Char} (hdigit : c.isDigit = true) :
    ∃ k : Fin 10, String.utf8EncodeChar c = [UInt8.ofNat (48 + k)] := by
  have hrange : 48 ≤ c.toNat ∧ c.toNat ≤ 57 := by
    simpa [Char.isDigit, UInt32.le_iff_toNat_le] using hdigit
  have hall : ∀ k : Fin 10,
      String.utf8EncodeChar (Char.ofNat (48 + k)) = [UInt8.ofNat (48 + k)] := by
    decide
  refine ⟨⟨c.toNat - 48, by omega⟩, ?_⟩
  have hchar := hall ⟨c.toNat - 48, by omega⟩
  have hnat : 48 + (c.toNat - 48) = c.toNat := by omega
  rw [hnat, Char.ofNat_toNat] at hchar
  rw [hnat, hchar]

theorem not_mem_encode_decimal {b : UInt8} (hb : ∀ k : Fin 10, b ≠ UInt8.ofNat (48 + k)) (n : Nat) :
    b ∉ Utf8.encode (decimal n) := by
  intro hmem
  obtain ⟨c, hc, hbyte⟩ := mem_flatMap.1 hmem
  obtain ⟨k, hk⟩ := encodeChar_digit (Nat.isDigit_of_mem_toDigits (by omega) (by omega) hc)
  rw [hk] at hbyte
  exact hb k (mem_singleton.1 hbyte)

theorem decimal_ne_nil (n : Nat) : Utf8.encode (decimal n) ≠ [] := by
  intro hnil
  have hzero : Utf8.encode (decimal n) = Utf8.encode [] := hnil
  have hdigits : Nat.toDigits 10 n = [] := Utf8.encode_injective hzero
  exact Nat.toDigits_ne_nil hdigits

/-- The v2 fields, byte by byte. -/
def v2Format : Format UInt8 where
  mark := 0x7C
  absent := 0x2D
  stop := 0x3A
  number := fun n => Utf8.encode (decimal n)
  number_injective := Utf8.encode_injective.comp decimal_injective
  number_ne_nil := decimal_ne_nil
  absent_not_mem := not_mem_encode_decimal (by decide)
  stop_not_mem := not_mem_encode_decimal (by decide)

theorem encode_auditLogHashFieldV2 (value : Option PgText) :
    Utf8.encode (auditLogHashFieldV2 value) = field v2Format (value.map Utf8.encode) := by
  cases value with
  | none => decide
  | some value =>
    have hmark : Utf8.encode "|".toList = [0x7C] := by decide
    have hstop : Utf8.encode ":".toList = [0x3A] := by decide
    rw [auditLogHashFieldV2, Utf8.encode_append, Utf8.encode_append, Utf8.encode_append, hmark,
      hstop]
    show [0x7C] ++ Utf8.encode (decimal (octetLength value)) ++ [0x3A] ++ Utf8.encode value =
      0x7C :: (Utf8.encode (decimal (octetLength value)) ++ 0x3A :: Utf8.encode value)
    simp only [cons_append, nil_append, append_assoc]

theorem encode_flatMap_auditLogHashFieldV2 (fields : List (Option PgText)) :
    Utf8.encode (fields.flatMap auditLogHashFieldV2) =
      (fields.map (Option.map Utf8.encode)).flatMap (field v2Format) := by
  rw [flatMap_map, Utf8.encode, flatMap_assoc]
  exact flatMap_congr fun value _ => encode_auditLogHashFieldV2 value

/-- The hashed columns of a row are determined by its canonical bytes. -/
theorem hashedFields_inj {row row' : AuditRow PgText}
    (heq : bufferFromUtf8 (canonicalAuditStringV2 (fetched row)) =
      bufferFromUtf8 (canonicalAuditStringV2 (fetched row'))) :
    row.hashedFields = row'.hashedFields := by
  rw [bufferFromUtf8_canonicalAuditStringV2, bufferFromUtf8_canonicalAuditStringV2,
    Utf8.encode_append, Utf8.encode_append] at heq
  have hfields := append_cancel_left heq
  rw [encode_flatMap_auditLogHashFieldV2, encode_flatMap_auditLogHashFieldV2] at hfields
  have hencoded := fields_inj v2Format hfields
  exact map_injective_iff.2 (Option.map_injective Utf8.encode_injective) hencoded

/-! ## Hashes and materials -/

/-- What is hashed for a v2 row, by its own link. -/
def material (row : AuditChainRow) : List UInt8 :=
  prevBytes row.prevHashHex ++ bufferFromUtf8 (canonicalAuditStringV2 row)

theorem prevBytes_getD (prevHashHex : Option JsString) :
    prevBytes (some (prevHashHex.getD (js ""))) = prevBytes prevHashHex := by
  cases prevHashHex <;> rfl

section Fits

variable {sha256 : Digest} {v : AuditChainVerifier} {row : AuditRow PgText}

theorem prevBytes_of_fits (hfits : Fits sha256 v (fetched row)) :
    prevBytes (fetched row).prevHashHex = prevBytes v.prevHashHex := by
  rw [← prevBytes_getD, ← hfits.prev, prevBytes_getD]

theorem rowHashHex_of_fits (hfits : Fits sha256 v (fetched row)) (hversion : row.hashVersion = 2) :
    row.rowHashHex = hexText (sha256 (material (fetched row))).toList := by
  have hcanonical : canonicalAuditString (fetched row) =
      .ok (canonicalAuditStringV2 (fetched row)) := by
    have htwo : (fetched row).hashVersion = 2 := hversion
    rw [canonicalAuditString, if_neg (by omega), if_pos htwo]
  have hhash := hfits.hash
  rw [expectedRowHashHex, hcanonical] at hhash
  have hstring : utf16Encode (hexText (sha256 (prevBytes v.prevHashHex ++
      bufferFromUtf8 (canonicalAuditStringV2 (fetched row)))).toList) =
        utf16Encode row.rowHashHex := Except.ok.inj hhash
  rw [material, prevBytes_of_fits hfits]
  exact (utf16Encode_inj.1 hstring).symm

end Fits

/-! ## Backwards from the head -/

section Chains

variable {sha256 : Digest} {v v' : AuditChainVerifier}

/-- The link of the row after a row is its 32-byte hash. -/
theorem prevBytes_after {rows : List (AuditRow PgText)} {last row : AuditRow PgText}
    (hfits : FitsAll sha256 v ((rows ++ [last]).map fetched))
    (hnext : Fits sha256 (v.acceptAll ((rows ++ [last]).map fetched)) (fetched row))
    (hversion : last.hashVersion = 2) :
    prevBytes (fetched row).prevHashHex = (sha256 (material (fetched last))).toList := by
  rw [map_append, map_singleton] at hfits hnext
  have hlast := (fitsAll_append.1 hfits).2.1
  have hprev : (v.acceptAll (rows.map fetched ++ [fetched last])).prevHashHex =
      some (utf16Encode last.rowHashHex) := by
    rw [prevHashHex_acceptAll, getLast?_concat]
    rfl
  rw [prevBytes_of_fits hnext, hprev, rowHashHex_of_fits hlast hversion, prevBytes_hexText]

variable {rows rows' : List (AuditRow PgText)}

/-- Equal materials at the same position have equal canonical bytes and equal links. -/
theorem split_material {row row' : AuditRow PgText}
    (hstart : v.prevHashHex = v'.prevHashHex) (hlength : rows.length = rows'.length)
    (hversion : ∀ r ∈ rows, r.hashVersion = 2) (hversion' : ∀ r ∈ rows', r.hashVersion = 2)
    (hfits : FitsAll sha256 v (rows.map fetched)) (hfits' : FitsAll sha256 v' (rows'.map fetched))
    (hrow : Fits sha256 (v.acceptAll (rows.map fetched)) (fetched row))
    (hrow' : Fits sha256 (v'.acceptAll (rows'.map fetched)) (fetched row'))
    (hmaterial : material (fetched row) = material (fetched row')) :
    bufferFromUtf8 (canonicalAuditStringV2 (fetched row)) =
        bufferFromUtf8 (canonicalAuditStringV2 (fetched row')) ∧
      rows.getLast?.map (·.rowHashHex) = rows'.getLast?.map (·.rowHashHex) := by
  unfold material at hmaterial
  obtain rfl | ⟨init, last, rfl⟩ := eq_nil_or_concat rows
  · -- the first rows: both are linked to the starting hash
    obtain rfl : rows' = [] := length_eq_zero_iff.1 hlength.symm
    have hlink : prevBytes (fetched row).prevHashHex = prevBytes (fetched row').prevHashHex :=
      calc prevBytes (fetched row).prevHashHex
          = prevBytes v.prevHashHex := prevBytes_of_fits hrow
        _ = prevBytes v'.prevHashHex := by rw [hstart]
        _ = prevBytes (fetched row').prevHashHex := (prevBytes_of_fits hrow').symm
    rw [hlink] at hmaterial
    exact ⟨append_cancel_left hmaterial, rfl⟩
  · obtain rfl | ⟨init', last', rfl⟩ := eq_nil_or_concat rows'
    · simp at hlength
    simp only [concat_eq_append] at hfits hfits' hrow hrow' hversion hversion' ⊢
    have hlast : last.hashVersion = 2 := hversion last (by simp)
    have hlast' : last'.hashVersion = 2 := hversion' last' (by simp)
    rw [prevBytes_after hfits hrow hlast, prevBytes_after hfits' hrow' hlast'] at hmaterial
    have hwidth : (sha256 (material (fetched last))).toList.length =
        (sha256 (material (fetched last'))).toList.length := by
      rw [Vector.length_toList, Vector.length_toList]
    obtain ⟨hlink, hcanonical⟩ := append_inj hmaterial hwidth
    refine ⟨hcanonical, ?_⟩
    rw [map_append, map_singleton, fitsAll_append] at hfits hfits'
    rw [getLast?_concat, getLast?_concat, Option.map_some, Option.map_some,
      rowHashHex_of_fits hfits.2.1 hlast, rowHashHex_of_fits hfits'.2.1 hlast', hlink]

theorem hashedFields_eq_of_fitsAll (hstart : v.prevHashHex = v'.prevHashHex)
    (hinj : Set.InjOn sha256 {m | ∃ row ∈ rows ++ rows', m = material (fetched row)})
    (hversion : ∀ row ∈ rows ++ rows', row.hashVersion = 2)
    (hfits : FitsAll sha256 v (rows.map fetched)) (hfits' : FitsAll sha256 v' (rows'.map fetched))
    (hlength : rows.length = rows'.length)
    (hhead : rows.getLast?.map (·.rowHashHex) = rows'.getLast?.map (·.rowHashHex)) :
    rows.map AuditRow.hashedFields = rows'.map AuditRow.hashedFields := by
  induction rows using List.reverseRecOn generalizing rows' with
  | nil =>
    rw [length_eq_zero_iff.1 hlength.symm]
  | append_singleton rows row ih =>
    obtain rfl | ⟨rows', row', rfl⟩ := eq_nil_or_concat rows'
    · simp at hlength
    rw [concat_eq_append] at *
    have hmem : row ∈ (rows ++ [row]) ++ (rows' ++ [row']) := by simp
    have hmem' : row' ∈ (rows ++ [row]) ++ (rows' ++ [row']) := by simp
    have hsub : ∀ r ∈ rows ++ rows', r ∈ (rows ++ [row]) ++ (rows' ++ [row']) := by
      intro r hr
      simp only [mem_append] at hr ⊢
      exact hr.elim (fun h => .inl (.inl h)) (fun h => .inr (.inl h))
    rw [map_append, map_singleton, fitsAll_append] at hfits hfits'
    obtain ⟨hinit, hrow, _⟩ := hfits
    obtain ⟨hinit', hrow', _⟩ := hfits'
    have hhash : row.rowHashHex = row'.rowHashHex := by simpa using hhead
    rw [rowHashHex_of_fits hrow (hversion row hmem),
      rowHashHex_of_fits hrow' (hversion row' hmem')] at hhash
    have hmaterial : material (fetched row) = material (fetched row') :=
      hinj ⟨row, hmem, rfl⟩ ⟨row', hmem', rfl⟩ (Vector.toList_inj.1 (hexText_injective hhash))
    have hlength' : rows.length = rows'.length := by simpa using hlength
    obtain ⟨hcanonical, hlink⟩ := split_material hstart hlength'
      (fun r hr => hversion r (hsub r (mem_append_left _ hr)))
      (fun r hr => hversion r (hsub r (mem_append_right _ hr)))
      hinit hinit' hrow hrow' hmaterial
    have hinj' : Set.InjOn sha256 {m | ∃ row ∈ rows ++ rows', m = material (fetched row)} := by
      apply hinj.mono
      rintro m ⟨r, hr, hm⟩
      exact ⟨r, hsub r hr, hm⟩
    have hrest := ih hinj' (fun r hr => hversion r (hsub r hr)) hinit hinit' hlength' hlink
    rw [map_append, map_append, hrest, map_singleton, map_singleton, hashedFields_inj hcanonical]

theorem broken_of_feed_true {rows : List AuditChainRow}
    (hfeed : ∃ w, feed sha256 v rows = .ok (w, true)) : v.broken = none := by
  obtain ⟨w, hw⟩ := hfeed
  cases hbroken : v.broken with
  | none => rfl
  | some b =>
    rw [feed_of_broken (by rw [hbroken]; rfl)] at hw
    cases hw

/-- Two accepted lists of v2 rows from the same starting hash, of the same length and with the
same head, agree on every hashed column of every row. -/
theorem hashedFields_eq_of_accepted {rows rows' : List (AuditRow PgText)}
    (hstart : v.prevHashHex = v'.prevHashHex)
    (hinj : Set.InjOn sha256 {m | ∃ row ∈ rows ++ rows', m = material (fetched row)})
    (hversion : ∀ row ∈ rows ++ rows', row.hashVersion = 2)
    (haccepted : ∃ w, feed sha256 v (rows.map fetched) = .ok (w, true))
    (haccepted' : ∃ w, feed sha256 v' (rows'.map fetched) = .ok (w, true))
    (hlength : rows.length = rows'.length)
    (hhead : rows.getLast?.map (·.rowHashHex) = rows'.getLast?.map (·.rowHashHex)) :
    rows.map AuditRow.hashedFields = rows'.map AuditRow.hashedFields := by
  have hfits := (feed_eq_true_iff (broken_of_feed_true haccepted)).1 haccepted
  have hfits' := (feed_eq_true_iff (broken_of_feed_true haccepted')).1 haccepted'
  exact hashedFields_eq_of_fitsAll hstart hinj hversion hfits hfits' hlength hhead

end Chains

/-! Two rows, and the same rows with another rendering of a column that v2 does not hash. -/

def sampleChain : List (AuditRow PgText) :=
  (AuditLog.empty.insertAll sampleDigest sampleRendering
    [(0, sampleNew (some "роль")), (1, sampleNew none)]).rows.map (·.columns sampleRendering)

def sampleCopy : List (AuditRow PgText) :=
  sampleChain.map fun row => { row with createdAt := "now".toList }

theorem hashedFields_sampleChain : sampleChain.map (·.createdAt) ≠ sampleCopy.map (·.createdAt) ∧
      sampleChain.map AuditRow.hashedFields = sampleCopy.map AuditRow.hashedFields := by
  have haccepted (rows : List (AuditRow PgText))
      (hfeed : (feed sampleDigest (new none) (rows.map fetched)).map Prod.snd = .ok true) :
      ∃ w, feed sampleDigest (new none) (rows.map fetched) = .ok (w, true) := by
    cases hcase : feed sampleDigest (new none) (rows.map fetched) with
    | error message =>
      rw [hcase] at hfeed
      cases hfeed
    | ok pair =>
      rw [hcase] at hfeed
      obtain ⟨w, accepted⟩ := pair
      have htrue : accepted = true := Except.ok.inj hfeed
      exact ⟨w, by rw [htrue]⟩
  have hdigests : ∀ r ∈ sampleChain ++ sampleCopy, ∀ r' ∈ sampleChain ++ sampleCopy,
      sampleDigest (material (fetched r)) = sampleDigest (material (fetched r')) →
        material (fetched r) = material (fetched r') := by
    decide +kernel
  refine ⟨by decide +kernel, hashedFields_eq_of_accepted rfl ?_ (by decide +kernel)
    (haccepted sampleChain (by decide +kernel)) (haccepted sampleCopy (by decide +kernel))
    rfl (by decide +kernel)⟩
  rintro _ ⟨r, hr, rfl⟩ _ ⟨r', hr', rfl⟩ heq
  exact hdigests r hr r' hr' heq

end SquadPanel.Audit
