import SquadPanel.Bans.PublishOrder
import SquadPanel.Js.Trim

/-!
# The SQL prefilter of the public banlist

`loadPublishableBanRows` of `apps/api/src/routes/public-banlist.ts` drops expired bans in
the query, by the same grammar and unit table as `parseBanLengthToExpiry` but in the
database's exact arithmetic.  What it drops is never published; a duration beyond the range
of `numeric` fails the query instead.
-/

namespace SquadPanel.Bans

open Js Lib List

/-! ## The query -/

/-- `context.ban_length` of a row: absent or JSON null, a string, or another JSON value
with its text. -/
inductive ContextValue
  | absent
  | text (s : JsString)
  | other (s : JsString)
  deriving DecidableEq

/-- A row of the query: a moderation action with its player and its author.  The database
keeps microseconds. -/
structure ModerationActionRow where
  actionType : JsString
  playerId : JsString
  steamId64 : Option Nat
  eosId : Option JsString
  canonicalName : Option JsString
  reason : Option JsString
  banLength : ContextValue
  createdAtUs : Int
  createdAtUs_inRange : -8640000000000000000 ≤ createdAtUs ∧ createdAtUs ≤ 8640000000000000000
  revertedAt : Option JsDate
  authorName : Option JsString
  authorSystemLabel : Option JsString

/-- `context ->> 'ban_length'` -/
def ContextValue.asText : ContextValue → Option JsString
  | .absent => none
  | .text s => some s
  | .other s => some s

def isSpace (u : UInt16) : Bool := u == 0x20

/-- `btrim`: spaces only. -/
def btrim (text : JsString) : JsString :=
  ((text.dropWhile isSpace).reverse.dropWhile isSpace).reverse

/-- `numeric` holds up to 131072 digits before the decimal point. -/
def NUMERIC_DIGITS : Nat := 131072

def NUMERIC_LIMIT : Nat := 10 ^ NUMERIC_DIGITS

/-- A `numeric` value; `none` is the error that ends the query. -/
def numeric (n : Nat) : Option Nat := if n < NUMERIC_LIMIT then some n else none

/-- `CASE substring(… from '[smhdwMy]$') WHEN … ELSE …` -/
def sqlUnitMs (banLength : JsString) : Nat :=
  match banLength.getLast?.filter isBanLengthUnit with
  | some unit => (BAN_LENGTH_UNIT_MILLISECONDS.lookup unit).getD 86400000
  | none => 86400000

/-- `coalesce(expired, false)`: both sides of the comparison are times in microseconds.
`now` is the server's clock, whose ISO text the database reads. -/
def expired (now : JsDate) (row : ModerationActionRow) : Option Bool :=
  match row.banLength.asText with
  | none => some false
  | some text =>
    let banLength := btrim text
    if (execBanLengthPattern banLength).isSome then do
      let amount ← numeric (digitsValue (banLength.takeWhile isDigit))
      if amount > 0 then
        let length ← numeric (amount * sqlUnitMs banLength)
        return decide ((length : Int) * 1000 ≤ now.ms * 1000 - row.createdAtUs)
      else return false
    else some false

def isUnrevertedBan (row : ModerationActionRow) : Bool :=
  row.actionType = js "ban" && row.revertedAt.isNone

/-- The rows the query keeps. -/
def keepUnexpired (now : JsDate) : List ModerationActionRow → Option (List ModerationActionRow)
  | [] => some []
  | row :: rows => do
    let gone ← expired now row
    let kept ← keepUnexpired now rows
    return if gone then kept else row :: kept

/-- The row as `buildBanlistEntries` takes it; a `Date` has no microseconds. -/
def toModerationBanRow (row : ModerationActionRow) : ModerationBanRow where
  playerId := row.playerId
  steamId64 := row.steamId64.map decimalText
  eosId := row.eosId
  nickname := row.canonicalName
  reason := row.reason
  banLength := match row.banLength with
    | .text s => some s
    | _ => none
  issuedAt := ⟨row.createdAtUs / 1000, by have hrange := row.createdAtUs_inRange; omega⟩
  revertedAt := row.revertedAt
  admin := row.authorName.orElse fun _ => row.authorSystemLabel

def loadPublishableBanRows (table : List ModerationActionRow) (now : JsDate) :
    Option (List ModerationBanRow) :=
  (keepUnexpired now (table.filter isUnrevertedBan)).map (List.map toModerationBanRow)

/-! ## Texts that both sides read -/

variable {text : JsString} {digits : JsString} {unit : Option UInt16} {now : JsDate}
  {row : ModerationActionRow} {rows : List ModerationActionRow}

theorem not_isWhitespace_of_execBanLengthPattern
    (hmatch : (execBanLengthPattern text).isSome = true) : ∀ u ∈ text, isWhitespace u = false := by
  have hunit {u : UInt16} (hu : isBanLengthUnit u = true) : isWhitespace u = false := by
    simp only [isBanLengthUnit, Bool.or_eq_true, beq_iff_eq] at hu
    rcases hu with (((((rfl | rfl) | rfl) | rfl) | rfl) | rfl) | rfl <;> decide
  intro u hu
  rw [← takeWhile_append_dropWhile (p := isDigit) (l := text)] at hu
  rcases mem_append.1 hu with hu | hu
  · exact isWhitespace_of_isDigit (mem_takeWhile_imp hu)
  · unfold execBanLengthPattern at hmatch
    simp only at hmatch
    split at hmatch
    · cases hmatch
    · split at hmatch
      · next hrest =>
        rw [hrest] at hu
        cases hu
      · next unit hrest =>
        rw [hrest, mem_singleton] at hu
        subst hu
        split at hmatch
        · next hin => exact hunit hin
        · cases hmatch
      · cases hmatch

theorem exists_split_btrim (text : JsString) :
    ∃ a b, text = a ++ (btrim text ++ b) ∧ AllSpace a ∧ AllSpace b := by
  have hspace (u : UInt16) (hu : isSpace u = true) : isWhitespace u = true := by
    rw [beq_iff_eq.1 hu]
    decide
  refine ⟨text.takeWhile isSpace,
    ((text.dropWhile isSpace).reverse.takeWhile isSpace).reverse, ?_, ?_, ?_⟩
  · rw [btrim, ← reverse_append, takeWhile_append_dropWhile, reverse_reverse,
      takeWhile_append_dropWhile]
  · exact fun u hu => hspace u (mem_takeWhile_imp hu)
  · exact fun u hu => hspace u (mem_takeWhile_imp (mem_reverse.1 hu))

/-- What the query recognises, the panel reads as the same text. -/
theorem trim_eq_btrim (hmatch : (execBanLengthPattern (btrim text)).isSome = true) :
    trim text = btrim text := by
  obtain ⟨a, b, hsplit, ha, hb⟩ := exists_split_btrim text
  have hclean := not_isWhitespace_of_execBanLengthPattern hmatch
  have htrimmed : Trimmed (btrim text) :=
    ⟨fun u hu => hclean u (mem_of_mem_head? hu), fun u hu => hclean u (mem_of_getLast? hu)⟩
  conv_lhs => rw [hsplit]
  exact trim_of_split ha hb htrimmed

theorem sqlUnitMs_eq (hmatch : execBanLengthPattern text = some (digits, unit)) :
    text.takeWhile isDigit = digits ∧ sqlUnitMs text = banLengthUnitMs unit := by
  have hsplit := takeWhile_append_dropWhile (p := isDigit) (l := text)
  unfold execBanLengthPattern at hmatch
  simp only at hmatch
  split at hmatch
  · cases hmatch
  · next hne =>
    split at hmatch
    · next hrest =>
      cases hmatch
      rw [hrest, append_nil] at hsplit
      refine ⟨rfl, ?_⟩
      -- the last character is a digit, which is no unit
      have hlast : text.getLast?.filter isBanLengthUnit = none := by
        cases hget : text.getLast? with
        | none => rfl
        | some u =>
          have hdigit : isDigit u = true :=
            mem_takeWhile_imp (hsplit.symm ▸ mem_of_getLast? hget)
          have hunit : isBanLengthUnit u = false := by
            cases hin : isBanLengthUnit u with
            | false => rfl
            | true =>
              simp only [isBanLengthUnit, Bool.or_eq_true, beq_iff_eq] at hin
              rcases hin with (((((rfl | rfl) | rfl) | rfl) | rfl) | rfl) | rfl <;>
                cases hdigit
          simp [Option.filter, hunit]
      rw [sqlUnitMs, hlast]
      rfl
    · next u hrest =>
      rw [hrest] at hsplit
      split at hmatch
      · next hin =>
        cases hmatch
        refine ⟨rfl, ?_⟩
        have hlast : text.getLast?.filter isBanLengthUnit = some u := by
          rw [← hsplit, getLast?_concat]
          simp [Option.filter, hin]
        rw [sqlUnitMs, hlast]
        simp only [isBanLengthUnit, Bool.or_eq_true, beq_iff_eq] at hin
        rcases hin with (((((rfl | rfl) | rfl) | rfl) | rfl) | rfl) | rfl <;> rfl
      · cases hmatch
    · cases hmatch

/-! ## What the query drops -/

theorem banLengthUnitMs_spec (unit : Option UInt16) :
    1000 ∣ banLengthUnitMs unit ∧ 0 < banLengthUnitMs unit := by
  have htable : ∀ p ∈ BAN_LENGTH_UNIT_MILLISECONDS, 1000 ∣ p.2 ∧ 0 < p.2 := by
    simp [BAN_LENGTH_UNIT_MILLISECONDS]
  unfold banLengthUnitMs
  cases hunit : BAN_LENGTH_UNIT_MILLISECONDS.lookup (unit.getD 0x64) with
  | none => exact ⟨by decide, by decide⟩
  | some ms =>
    obtain ⟨before, after, heq, -⟩ := lookup_eq_some_iff.1 hunit
    exact htable (_, ms) (heq ▸ mem_append_right _ mem_cons_self)

/-- A duration that `numeric` cannot hold. -/
def Overflows (row : ModerationActionRow) : Prop :=
  ∃ text digits unit, row.banLength.asText = some text ∧
    execBanLengthPattern (btrim text) = some (digits, unit) ∧
      NUMERIC_LIMIT ≤ digitsValue digits * banLengthUnitMs unit

theorem NUMERIC_LIMIT_pos : 0 < NUMERIC_LIMIT := Nat.pow_pos (by decide)

theorem numeric_eq_none {n : Nat} : numeric n = none ↔ NUMERIC_LIMIT ≤ n := by
  unfold numeric
  split <;> simp <;> omega

theorem numeric_eq_some {n m : Nat} (h : numeric n = some m) : m = n := by
  unfold numeric at h
  split at h
  · exact (Option.some.inj h).symm
  · cases h

/-- The query's verdict on a text of the grammar. -/
theorem expired_of_match (htext : row.banLength.asText = some text)
    (hmatch : execBanLengthPattern (btrim text) = some (digits, unit)) :
    expired now row = (numeric (digitsValue digits)).bind fun amount =>
      if amount > 0 then
        (numeric (amount * banLengthUnitMs unit)).bind fun length =>
          some (decide ((length : Int) * 1000 ≤ now.ms * 1000 - row.createdAtUs))
      else some false := by
  obtain ⟨hdigits, hunit⟩ := sqlUnitMs_eq hmatch
  simp only [expired, htext, hmatch, hdigits, hunit]
  rfl

theorem match_or_kept (now : JsDate) (row : ModerationActionRow) :
    (∃ text digits unit, row.banLength.asText = some text ∧
        execBanLengthPattern (btrim text) = some (digits, unit)) ∨
      expired now row = some false ∧ ¬ Overflows row := by
  cases htext : row.banLength.asText with
  | none =>
    refine .inr ⟨by simp only [expired, htext], ?_⟩
    rintro ⟨text, digits, unit, hsome, -⟩
    rw [htext] at hsome
    cases hsome
  | some text =>
    cases hmatch : execBanLengthPattern (btrim text) with
    | some found => exact .inl ⟨text, found.1, found.2, rfl, hmatch⟩
    | none =>
      refine .inr ⟨?_, ?_⟩
      · simp only [expired, htext, hmatch]
        rfl
      · rintro ⟨text', digits, unit, hsome, hfound, -⟩
        rw [htext] at hsome
        cases hsome
        rw [hmatch] at hfound
        cases hfound

theorem overflows_iff (htext : row.banLength.asText = some text)
    (hmatch : execBanLengthPattern (btrim text) = some (digits, unit)) :
    Overflows row ↔ NUMERIC_LIMIT ≤ digitsValue digits * banLengthUnitMs unit := by
  simp [Overflows, htext, hmatch]

/-- The query fails on such a duration, and on no other. -/
theorem expired_eq_none : expired now row = none ↔ Overflows row := by
  rcases match_or_kept now row with ⟨text, digits, unit, htext, hmatch⟩ | ⟨hkept, hfits⟩
  · have hpos := (banLengthUnitMs_spec unit).2
    rw [expired_of_match htext hmatch, overflows_iff htext hmatch]
    cases hamount : numeric (digitsValue digits) with
    | none =>
      have hlimit := numeric_eq_none.1 hamount
      refine ⟨fun _ => ?_, fun _ => rfl⟩
      exact le_trans hlimit (Nat.le_mul_of_pos_right _ hpos)
    | some amount =>
      rw [numeric_eq_some hamount, Option.bind_some]
      by_cases hzero : digitsValue digits > 0
      · rw [if_pos hzero, ← numeric_eq_none]
        cases numeric (digitsValue digits * banLengthUnitMs unit) <;> simp
      · have hnil : digitsValue digits = 0 := by omega
        rw [if_neg hzero, hnil, Nat.zero_mul]
        exact ⟨fun h => absurd h (Option.some_ne_none false),
          fun h => absurd h (not_le.2 NUMERIC_LIMIT_pos)⟩
  · rw [hkept]
    exact ⟨fun h => absurd h (Option.some_ne_none false), fun h => absurd h hfits⟩

/-- Up to a valid date, the expiry is computed without rounding: the amount is a safe
integer, and the product is a multiple of eight below `2 ^ 56`. -/
theorem parseBanLengthToExpiry_exact {issuedAt latest : JsDate}
    (hmatch : execBanLengthPattern (trim text) = some (digits, unit))
    (hpos : 0 < digitsValue digits)
    (hle : issuedAt.ms + (digitsValue digits * banLengthUnitMs unit : Nat) ≤ latest.ms) :
    ∃ expiry, parseBanLengthToExpiry (some text) issuedAt = some expiry ∧
      expiry.ms = issuedAt.ms + (digitsValue digits * banLengthUnitMs unit : Nat) := by
  obtain ⟨hdvd, hunit⟩ := banLengthUnitMs_spec unit
  have hissued := issuedAt.inRange
  have hlatest := latest.inRange
  have hlong : digitsValue digits * 1000 ≤ digitsValue digits * banLengthUnitMs unit :=
    Nat.mul_le_mul_left _ (Nat.le_of_dvd hunit hdvd)
  have height : 2 ^ 3 ∣ digitsValue digits * banLengthUnitMs unit :=
    Nat.dvd_trans (Nat.dvd_trans (by decide) hdvd) (Nat.dvd_mul_left _ _)
  have hnil : trim text ≠ [] := by
    intro hnil
    rw [hnil] at hmatch
    cases hmatch
  have hamount : numberOfDigits digits = some (digitsValue digits) :=
    toDouble_of_lt (by omega)
  have hproduct : toDouble (digitsValue digits * banLengthUnitMs unit) =
      some (digitsValue digits * banLengthUnitMs unit) :=
    toDouble_of_dvd height (by omega) (by omega)
  refine ⟨⟨issuedAt.ms + (digitsValue digits * banLengthUnitMs unit : Nat), by omega⟩, ?_, rfl⟩
  unfold parseBanLengthToExpiry
  simp only [Option.getD_some, if_neg hnil, hmatch, hamount, if_neg (ne_of_gt hpos), hproduct,
    Option.bind_some]
  rw [intToDouble_of_lt (by omega) (by omega), Option.bind_some]
  exact dif_pos _

theorem not_isActive_of_expired (hstring : ∀ t, row.banLength ≠ .other t)
    (hexpired : expired now row = some true) :
    isActive now (toEntry (toModerationBanRow row)) = false := by
  rcases match_or_kept now row with ⟨text, digits, unit, htext, hmatch⟩ | ⟨hkept, -⟩
  · have hvalue : row.banLength = .text text := by
      cases hvalue : row.banLength with
      | absent =>
        rw [hvalue] at htext
        cases htext
      | text s =>
        rw [hvalue] at htext
        cases htext
        rfl
      | other t => exact absurd hvalue (hstring t)
    rw [expired_of_match htext hmatch] at hexpired
    obtain ⟨amount, hamount, hexpired⟩ := Option.bind_eq_some_iff.1 hexpired
    rw [numeric_eq_some hamount] at hexpired
    split at hexpired
    · next hpos =>
      obtain ⟨length, hlength, hexpired⟩ := Option.bind_eq_some_iff.1 hexpired
      rw [numeric_eq_some hlength] at hexpired
      have hended : ((digitsValue digits * banLengthUnitMs unit : Nat) : Int) * 1000 ≤
          now.ms * 1000 - row.createdAtUs := of_decide_eq_true (Option.some.inj hexpired)
      have hissued : (toModerationBanRow row).issuedAt.ms = row.createdAtUs / 1000 := rfl
      have hle : (toModerationBanRow row).issuedAt.ms +
          (digitsValue digits * banLengthUnitMs unit : Nat) ≤ now.ms := by
        omega
      rw [← trim_eq_btrim (by rw [hmatch]; rfl)] at hmatch
      obtain ⟨expiry, hexpiry, hms⟩ := parseBanLengthToExpiry_exact hmatch hpos hle
      have hlength : (toModerationBanRow row).banLength = some text := by
        simp only [toModerationBanRow, hvalue]
      simp only [isActive, BanlistEntry.expiresAtMs, toEntry, hlength, hexpiry, Option.map_some]
      exact decide_eq_false (by omega)
    · cases hexpired
  · rw [hkept] at hexpired
    cases hexpired

/-! ## The rows that are kept -/

theorem keepUnexpired_eq (hfits : ∀ row ∈ rows, ¬ Overflows row) :
    keepUnexpired now rows = some (rows.filter fun row => expired now row ≠ some true) := by
  induction rows with
  | nil => rfl
  | cons row rows ih =>
    have hrest := ih fun row' hrow' => hfits row' (mem_cons_of_mem _ hrow')
    cases hexpired : expired now row with
    | none => exact absurd (expired_eq_none.1 hexpired) (hfits row mem_cons_self)
    | some gone => cases gone <;> simp [keepUnexpired, hexpired, hrest]

theorem keepUnexpired_eq_none (hrow : row ∈ rows)
    (hoverflow : Overflows row) : keepUnexpired now rows = none := by
  induction rows with
  | nil => cases hrow
  | cons head rows ih =>
    rcases mem_cons.1 hrow with rfl | hrow
    · simp [keepUnexpired, expired_eq_none.2 hoverflow]
    · simp [keepUnexpired, ih hrow]

section

variable {scope : BanlistPublishScope} {now : JsDate}

/-- Filtering first, the sort is of the publishable rows only. -/
theorem candidateRows_eq (rows : List ModerationBanRow) (playerId : JsString) :
    candidateRows scope now rows playerId =
      (rows.filter fun row => publishable scope now row && isOf playerId row).insertionSort
        IssuedLe := by
  rw [candidateRows, filter_insertionSort, playerRows, filter_filter]

/-- Rows that cannot be published can be left out of the input. -/
theorem buildBanlistEntries_of_kept {all kept : List ModerationBanRow} (hsub : kept ⊆ all)
    (hkept : all.filter (publishable scope now) = kept.filter (publishable scope now)) :
    buildBanlistEntries kept scope now = buildBanlistEntries all scope now := by
  have hpublished (playerId : JsString) :
      published scope now kept playerId = published scope now all playerId := by
    have hrows (rows : List ModerationBanRow) :
        (rows.filter fun row => publishable scope now row && isOf playerId row) =
          (rows.filter (publishable scope now)).filter (isOf playerId) := by
      rw [filter_filter]
      exact filter_congr fun row _ => Bool.and_comm _ _
    rw [published_eq, published_eq, candidateRows_eq, candidateRows_eq, hrows, hrows, hkept]
  have hids : (playerIds all).filter (fun playerId => playerId ∈ playerIds kept) =
      playerIds kept := by
    refine playerIds_eq ((pairwise_playerIds all).filter _) ((nodup_playerIds all).filter _)
      fun playerId => ?_
    rw [mem_filter, decide_eq_true_iff, mem_playerIds, mem_playerIds]
    constructor
    · exact fun h => h.2
    · exact fun h => ⟨h.imp fun row hrow => ⟨hsub hrow.1, hrow.2⟩, h⟩
  rw [buildBanlistEntries_eq, buildBanlistEntries_eq, ← hids, filterMap_filter]
  refine filterMap_congr fun playerId _ => ?_
  split
  · exact hpublished playerId
  · next hout =>
    -- nobody without a kept row is listed
    rw [← hpublished, published_eq, eq_comm, chosen_eq_none, map_eq_nil_iff,
      eq_nil_iff_forall_not_mem]
    intro row hrow
    obtain ⟨⟨hmem, hof⟩, -⟩ := mem_candidateRows.1 hrow
    exact hout (decide_eq_true (mem_playerIds.2 ⟨row, hmem, isOf_iff.2 hof⟩))

end

/-- A page is built from the query exactly as it would be from all unreverted bans, unless
one of them has a duration beyond `numeric`: then there is no page. -/
theorem loadPublishableBanRows_exact_iff (table : List ModerationActionRow)
    (scope : BanlistPublishScope) (now : JsDate)
    (hstring : ∀ row ∈ table, ∀ t, row.banLength ≠ .other t) :
    (loadPublishableBanRows table now).map (fun rows => buildBanlistEntries rows scope now) =
        some (buildBanlistEntries ((table.filter isUnrevertedBan).map toModerationBanRow)
          scope now) ↔
      ∀ row ∈ table, isUnrevertedBan row = true → ¬ Overflows row := by
  constructor
  · intro heq row hrow hban hoverflow
    have hmem : row ∈ table.filter isUnrevertedBan := mem_filter.2 ⟨hrow, hban⟩
    rw [loadPublishableBanRows, keepUnexpired_eq_none hmem hoverflow] at heq
    cases heq
  · intro hfits
    have hbans : ∀ row ∈ table.filter isUnrevertedBan, ¬ Overflows row := by
      intro row hrow
      obtain ⟨hrow, hban⟩ := mem_filter.1 hrow
      exact hfits row hrow hban
    rw [loadPublishableBanRows, keepUnexpired_eq hbans, Option.map_some, Option.map_some]
    refine congrArg some (buildBanlistEntries_of_kept ?_ ?_)
    · exact map_subset _ (filter_subset_self _)
    · generalize hrows : table.filter isUnrevertedBan = rows at *
      rw [filter_map, filter_map, filter_filter]
      refine congrArg (List.map toModerationBanRow) (filter_congr fun row hrow => ?_)
      have hstring := hstring row (mem_of_mem_filter (hrows ▸ hrow))
      by_cases hexpired : expired now row = some true
      · have hactive := not_isActive_of_expired hstring hexpired
        simp [publishable, hactive]
      · simp [hexpired]

/-- A ban issued at the epoch. -/
def banOf (banLength : JsString) : ModerationActionRow where
  actionType := js "ban"
  playerId := banLength
  steamId64 := some 76561198000000001
  eosId := none
  canonicalName := none
  reason := none
  banLength := .text banLength
  createdAtUs := 0
  createdAtUs_inRange := by decide
  revertedAt := none
  authorName := none
  authorSystemLabel := none

/-- Two days after the epoch. -/
def twoDays : JsDate := ⟨172800000, by decide⟩

/-- An expired ban, an active one, a zero and a malformed duration. -/
def mixedBans : List ModerationActionRow :=
  [banOf (js "2d"), banOf (js " 1w"), banOf (js "0h"), banOf (js "7 days")]

theorem loadPublishableBanRows_exact_mixed : (∀ row ∈ mixedBans, ∀ t, row.banLength ≠ .other t) ∧
      (loadPublishableBanRows mixedBans twoDays).map
          (fun rows => buildBanlistEntries rows .allActive twoDays) =
        some (buildBanlistEntries ((mixedBans.filter isUnrevertedBan).map toModerationBanRow)
          .allActive twoDays) := by
  have hstring : ∀ row ∈ mixedBans, ∀ t, row.banLength ≠ .other t := by
    simp [mixedBans, banOf]
  have hfits : ∀ row ∈ mixedBans, expired twoDays row ≠ none := by decide +kernel
  exact ⟨hstring, (loadPublishableBanRows_exact_iff mixedBans .allActive twoDays hstring).2
    fun row hrow _ hoverflow => hfits row hrow (expired_eq_none.2 hoverflow)⟩

/-- A one and `n` zeros. -/
def powerOfTen (n : Nat) : JsString := 0x31 :: List.replicate n 0x30

theorem digitsValue_powerOfTen (n : Nat) : digitsValue (powerOfTen n) = 10 ^ n := by
  have hfold (start : Nat) :
      (List.replicate n (0x30 : UInt16)).foldl (fun n u => 10 * n + (u.toNat - 0x30)) start =
        10 ^ n * start := by
    induction n generalizing start with
    | zero => simp
    | succ n ih =>
      rw [replicate_succ, foldl_cons, ih, Nat.pow_succ]
      show 10 ^ n * (10 * start) = 10 ^ n * 10 * start
      rw [Nat.mul_assoc]
  exact (hfold 1).trans (Nat.mul_one _)

theorem powerOfTen_digits (n : Nat) : ∀ u ∈ powerOfTen n, isDigit u = true := by
  intro u hu
  rcases mem_cons.1 hu with rfl | hu
  · rfl
  · rw [eq_of_mem_replicate hu]
    rfl

theorem overflows_powerOfTen {n : Nat} (hn : NUMERIC_DIGITS ≤ n) : Overflows (banOf (powerOfTen n))
    := by
  have hdigits := powerOfTen_digits n
  have hspace (text : JsString) (htext : ∀ u ∈ text, isDigit u = true) :
      text.dropWhile isSpace = text := by
    cases text with
    | nil => rfl
    | cons u text =>
      have hu := isWhitespace_of_isDigit (htext u mem_cons_self)
      refine dropWhile_cons_of_neg fun hblank => ?_
      rw [beq_iff_eq.1 hblank] at hu
      cases hu
  have hbtrim : btrim (powerOfTen n) = powerOfTen n := by
    unfold btrim
    rw [hspace _ hdigits, hspace _ fun u hu => hdigits u (mem_reverse.1 hu), reverse_reverse]
  have hmatch : execBanLengthPattern (powerOfTen n) = some (powerOfTen n, none) := by
    unfold execBanLengthPattern
    rw [takeWhile_eq_self_iff.2 hdigits, dropWhile_eq_nil_iff.2 hdigits]
    rfl
  refine ⟨powerOfTen n, powerOfTen n, none, rfl, by rw [hbtrim, hmatch], ?_⟩
  rw [digitsValue_powerOfTen]
  calc NUMERIC_LIMIT ≤ 10 ^ n := Nat.pow_le_pow_right (by decide) hn
    _ ≤ 10 ^ n * banLengthUnitMs none := Nat.le_mul_of_pos_right _ (by decide)

theorem loadPublishableBanRows_overflow :
    isUnrevertedBan (banOf (powerOfTen NUMERIC_DIGITS)) = true ∧
      (loadPublishableBanRows [banOf (powerOfTen NUMERIC_DIGITS)] twoDays).map
          (fun rows => buildBanlistEntries rows .allActive twoDays) = none := by
  refine ⟨rfl, ?_⟩
  rw [loadPublishableBanRows, filter_cons_of_pos rfl,
    keepUnexpired_eq_none mem_cons_self (overflows_powerOfTen (le_refl _))]
  rfl

end SquadPanel.Bans
