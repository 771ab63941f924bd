import SquadPanel.Bans.BansCfg
import SquadPanel.Js.Trim

/-!
# Ban federation

A subscriber reads the `Bans.cfg` text a panel publishes.  Every ban arrives with its
SteamID, its expiry to the second and its reason on one line, unless the reason holds one
of the two line separators that `.` does not match and `singleLine` does not replace.
-/

namespace SquadPanel.Bans

open Js List

/-! ## The published text -/

variable {line : JsString} {expiresAt : Option JsDate} {entry : BanlistEntry} {groups : LineGroups}

theorem splitLines_append (hline : Unbroken line) {rest : JsString} {lines : List JsString}
    (hrest : splitLines rest = [] :: lines) : splitLines (line ++ rest) = line :: lines := by
  induction line with
  | nil => exact hrest
  | cons u line ih =>
    have hu := hline u mem_cons_self
    simp only [isLineBreak, Bool.or_eq_false_iff, beq_eq_false_iff_ne] at hu
    rw [cons_append, splitLines, if_neg hu.2, if_neg (fun h => hu.1 h.1),
      ih fun v hv => hline v (mem_cons_of_mem _ hv)]

theorem splitLines_lines {lines : List JsString} (hlines : ∀ line ∈ lines, Unbroken line) :
    splitLines (lines.flatMap (· ++ js "\n")) = lines ++ [[]] := by
  induction lines with
  | nil => rfl
  | cons line lines ih =>
    rw [flatMap_cons, append_assoc, show js "\n" = [0x0A] from rfl,
      singleton_append, splitLines_append (hlines line mem_cons_self) rfl]
    rw [show js "\n" = [0x0A] from rfl] at ih
    rw [ih fun l hl => hlines l (mem_cons_of_mem _ hl), cons_append]

theorem formatSquadBansCfg_eq (entries : List BanlistEntry) :
    formatSquadBansCfg entries = (entries.filterMap entryLine).flatMap (· ++ js "\n") := by
  have hended (line : JsString) (lines : List JsString) :
      (js "\n").intercalate (line :: lines) ++ js "\n" =
        (line :: lines).flatMap (· ++ js "\n") := by
    induction lines generalizing line with
    | nil => simp
    | cons next lines ih =>
      rw [intercalate_cons_cons, append_assoc, append_assoc, ih next]
      conv_rhs => rw [flatMap_cons, append_assoc]
  unfold formatSquadBansCfg
  cases entries.filterMap entryLine with
  | nil => rfl
  | cons line lines => exact hended line lines

/-! ## Reasons -/

variable (reason : Option JsString)

theorem singleLine_trimmed : Trimmed (singleLine reason) := by
  cases reason with
  | none => exact trimmed_nil
  | some value => exact trimmed_trim _

theorem isLineBreak_of_mem_singleLine {reason : Option JsString} {u : UInt16}
    (hu : u ∈ singleLine reason) : isLineBreak u = false := by
  cases reason with
  | none => cases hu
  | some value =>
    rcases mem_replaceRuns ((trim_isInfix _).subset hu) with rfl | ⟨-, hout⟩
    · decide
    · exact hout

/-- U+2028 or U+2029 between other characters of a reason. -/
def HoldsSeparator : Prop :=
  ∃ value, reason = some value ∧ ((0x2028 : UInt16) ∈ trim value ∨ (0x2029 : UInt16) ∈ trim value)

instance (reason : Option JsString) : Decidable (HoldsSeparator reason) :=
  match reason with
  | none => isFalse (by rintro ⟨value, h, -⟩; cases h)
  | some value =>
    decidable_of_iff ((0x2028 : UInt16) ∈ trim value ∨ (0x2029 : UInt16) ∈ trim value)
      ⟨fun h => ⟨value, rfl, h⟩, fun ⟨_, h, hin⟩ => by cases h; exact hin⟩

/-- `singleLine` keeps these separators, and no other line terminator. -/
theorem holdsSeparator_iff :
    HoldsSeparator reason ↔ (singleLine reason).any isLineTerminator = true := by
  cases reason with
  | none =>
    constructor
    · rintro ⟨_, h, -⟩
      cases h
    · exact Bool.noConfusion
  | some value =>
    have hkept (u : UInt16) (hout : isLineBreak u = false) (hne : u ≠ 0x20) :
        u ∈ singleLine (some value) ↔ u ∈ trim value := by
      rw [singleLine, trim_replaceRuns isWhitespace_of_isLineBreak (by decide)]
      exact mem_replaceRuns_iff hout hne
    rw [any_eq_true]
    constructor
    · rintro ⟨_, h, hin⟩
      cases h
      rcases hin with hin | hin
      · exact ⟨_, (hkept 0x2028 (by decide) (by decide)).2 hin, by decide⟩
      · exact ⟨_, (hkept 0x2029 (by decide) (by decide)).2 hin, by decide⟩
    · rintro ⟨u, hu, hterm⟩
      refine ⟨value, rfl, ?_⟩
      have hbreak := isLineBreak_of_mem_singleLine hu
      simp only [isLineBreak, Bool.or_eq_false_iff, beq_eq_false_iff_ne] at hbreak
      simp only [isLineTerminator, Bool.or_eq_true, beq_iff_eq] at hterm
      rcases hterm with ((rfl | rfl) | rfl) | rfl
      · exact absurd rfl hbreak.2
      · exact absurd rfl hbreak.1
      · exact .inl ((hkept _ (by decide) (by decide)).1 hu)
      · exact .inr ((hkept _ (by decide) (by decide)).1 hu)

/-! ## Expiries -/

/-- The second a date lies in. -/
def floorToSecond (date : JsDate) : JsDate where
  ms := date.ms / 1000 * 1000
  inRange := by
    have hrange := date.inRange
    omega

/-- Permanent, or at least one second after the epoch. -/
def PublishableExpiry (expiresAt : Option JsDate) : Prop :=
  ∀ date, expiresAt = some date → 1000 ≤ date.ms

theorem intText_unixExpiry (hexpiry : PublishableExpiry expiresAt) :
    intText (unixExpiry expiresAt) = decimalText (unixExpiry expiresAt).toNat := by
  have hnonneg : 0 ≤ unixExpiry expiresAt := by
    cases expiresAt with
    | none => exact le_refl 0
    | some date =>
      have hdate := hexpiry date rfl
      show 0 ≤ date.ms / 1000
      omega
  rw [intText, if_neg (by omega)]
  congr 1
  omega

theorem unixSecondsToDate_floor {date : JsDate} (hdate : 1000 ≤ date.ms) :
    unixSecondsToDate (date.ms / 1000).toNat = some (floorToSecond date) := by
  have hrange := date.inRange
  have hproduct : toDouble ((date.ms / 1000).toNat * 1000) =
      some ((date.ms / 1000).toNat * 1000) := by
    refine toDouble_of_lt ?_
    omega
  have htime : (((date.ms / 1000).toNat * 1000 : Nat) : Int) = (floorToSecond date).ms := by
    show _ = date.ms / 1000 * 1000
    omega
  rw [unixSecondsToDate, hproduct, Option.bind_some, htime, JsDate.ofTime_ms]

/-! ## One line -/

/-- An entry that the text can hold: a SteamID of 17 digits and such an expiry. -/
structure Federable (entry : BanlistEntry) : Prop where
  steamId : ∃ id, entry.steamId64 = some id ∧ id.length = 17 ∧ ∀ u ∈ id, isDigit u = true
  expiry : PublishableExpiry entry.expiresAt

/-- The reason behind its marker. -/
def trailer (reason : JsString) : JsString := if reason ≠ [] then js " // " ++ reason else []

theorem entryLine_eq {id : JsString} (hid : entry.steamId64 = some id)
    (hne : id ≠ []) (hexpiry : PublishableExpiry entry.expiresAt) :
    entryLine entry = some (js "Banned:" ++ (id ++ (js ":" ++
      (decimalText (unixExpiry entry.expiresAt).toNat ++ trailer (singleLine entry.reason))))) := by
  simp only [entryLine, hid, if_neg hne, intText_unixExpiry hexpiry, trailer]
  split <;> simp only [append_assoc, append_nil]

theorem afterLiteral_append (literal text : JsString) :
    afterLiteral literal (literal ++ text) = some text := by
  induction literal with
  | nil => rfl
  | cons u literal ih => simpa [afterLiteral] using ih

/-- The marker is found, and the reason is refused if it holds a line terminator. -/
theorem matchTrailer_trailer {reason : JsString} (hreason : Trimmed reason) :
    matchTrailer (trailer reason) =
      if reason.any isLineTerminator then none else some (orNull reason) := by
  cases reason with
  | nil => rfl
  | cons u reason =>
    have hu : isWhitespace u = false := hreason.head u rfl
    have hcomment : (0x20 :: u :: reason).dropWhile isWhitespace = u :: reason := by
      rw [dropWhile_cons_of_pos (by decide), dropWhile_cons_of_neg (by simp [hu])]
    have hfound : afterLiteral (js "//") (js "//" ++ 0x20 :: u :: reason) =
        some (0x20 :: u :: reason) := afterLiteral_append _ _
    show (match afterLiteral (js "//") (js "//" ++ 0x20 :: u :: reason) with
      | none => none
      | some rest =>
        let comment := rest.dropWhile isWhitespace
        if comment.any isLineTerminator then none else some (some comment)) = _
    rw [hfound]
    simp only [hcomment]
    rfl

/-- What stands behind the digits of the expiry is no digit. -/
theorem trailer_head (reason : JsString) : ∀ u ∈ (trailer reason).head?, isDigit u = false := by
  intro u hu
  unfold trailer at hu
  split at hu
  · have heq : u = 0x20 := by simpa [js, utf16Encode, utf16EncodeChar] using hu.symm
    subst heq
    decide
  · cases hu

theorem matchBan_line {id digits reason : JsString} (hlength : id.length = 17)
    (hid : ∀ u ∈ id, isDigit u = true) (hdigits : ∀ u ∈ digits, isDigit u = true)
    (hne : digits ≠ []) (hreason : Trimmed reason) :
    matchBan (js "Banned:" ++ (id ++ (js ":" ++ (digits ++ trailer reason)))) =
      if reason.any isLineTerminator then none else some (id, digits, orNull reason) := by
  obtain ⟨htake, hdrop⟩ : (digits ++ trailer reason).takeWhile isDigit = digits ∧
      (digits ++ trailer reason).dropWhile isDigit = trailer reason := by
    have hhead := trailer_head reason
    rw [takeWhile_append_of_pos hdigits, dropWhile_append_of_pos hdigits]
    cases htrailer : trailer reason with
    | nil => simp
    | cons u rest =>
      have hu : ¬ isDigit u = true := by simp [hhead u (by rw [htrailer]; rfl)]
      rw [takeWhile_cons_of_neg hu, dropWhile_cons_of_neg hu, append_nil]
      exact ⟨rfl, rfl⟩
  have hall : id.all isDigit = true := all_eq_true.2 hid
  simp only [matchBan, afterLiteral_append, take_left' hlength, drop_left' hlength,
    hlength, hall, htake, hdrop, hne, matchTrailer_trailer hreason, bind, Option.bind, pure,
    and_self, if_true, if_false]
  cases reason.any isLineTerminator <;> rfl

/-- The line of an entry: no line break in it and no whitespace around it. -/
theorem line_shape {id digits reason : JsString} (hid : ∀ u ∈ id, isDigit u = true)
    (hdigits : ∀ u ∈ digits, isDigit u = true) (hne : digits ≠ []) (hreason : Trimmed reason)
    (hbreaks : Unbroken reason) :
    Trimmed (js "Banned:" ++ (id ++ (js ":" ++ (digits ++ trailer reason)))) ∧
      Unbroken (js "Banned:" ++ (id ++ (js ":" ++ (digits ++ trailer reason)))) := by
  have hdigit {u : UInt16} (hu : isDigit u = true) : isLineBreak u = false := by
    cases hbreak : isLineBreak u with
    | false => rfl
    | true =>
      have hfalse := isWhitespace_of_isDigit hu
      rw [isWhitespace_of_isLineBreak u hbreak] at hfalse
      cases hfalse
  have htail : digits ++ trailer reason ≠ [] := by simp [hne]
  have hlast : ∀ u ∈ (digits ++ trailer reason).getLast?, isWhitespace u = false := by
    intro u hu
    unfold trailer at hu
    split at hu
    · next hreason' =>
      rw [getLast?_append_of_ne_nil _ (by simp [hreason']),
        getLast?_append_of_ne_nil _ hreason'] at hu
      exact hreason.last u hu
    · rw [append_nil] at hu
      exact isWhitespace_of_isDigit (hdigits u (mem_of_getLast? hu))
  have hliteral {literal : JsString} (h : literal.any isLineBreak = false) : Unbroken literal := by
    simpa using h
  refine ⟨Trimmed.append ?_ ?_ (by decide) (by simp [hne]), ?_⟩
  · intro u hu
    cases hu
    decide
  · intro u hu
    rw [← append_assoc, ← append_assoc, append_assoc _ digits,
      getLast?_append_of_ne_nil _ htail] at hu
    exact hlast u hu
  · intro u hu
    simp only [mem_append] at hu
    rcases hu with hu | hu | hu | hu | hu
    · exact hliteral (by decide) u hu
    · exact hdigit (hid u hu)
    · exact hliteral (by decide) u hu
    · exact hdigit (hdigits u hu)
    · unfold trailer at hu
      split at hu
      · rcases mem_append.1 hu with hu | hu
        · exact hliteral (by decide) u hu
        · exact hbreaks u hu
      · cases hu

/-- Whom a ban concerns, until when, and why. -/
structure BanFacts where
  steamId64 : Option JsString
  expiresAt : Option JsDate
  reason : Option JsString
  deriving DecidableEq

def ParsedBan.facts (record : ParsedBan) : BanFacts :=
  ⟨record.steamId64, record.expiresAt, record.reason⟩

/-- What a subscriber should learn from an entry. -/
def publishedFacts (entry : BanlistEntry) : BanFacts :=
  ⟨entry.steamId64, entry.expiresAt.map floorToSecond, orNull (singleLine entry.reason)⟩

def LineResult.record? : LineResult → Option ParsedBan
  | .parsed record => some record
  | _ => none

def LineResult.isSkipped : LineResult → Bool
  | .skipped => true
  | _ => false

/-- A comment that was matched has no line terminator. -/
theorem comment_of_matchLine {front text : JsString} {comment : JsString}
    (hmatch : matchLine front text = some groups) (hcomment : groups.comment = some comment) :
    comment.any isLineTerminator = false := by
  have htrailer {text : JsString} {comment : JsString}
      (h : matchTrailer text = some (some comment)) : comment.any isLineTerminator = false := by
    unfold matchTrailer at h
    grind
  have hban {text : JsString} {id digits comment : JsString}
      (h : matchBan text = some (id, digits, some comment)) :
      comment.any isLineTerminator = false := by
    simp only [matchBan, bind, Option.bind_eq_some_iff, pure] at h
    obtain ⟨text', -, h⟩ := h
    split at h
    · obtain ⟨text'', -, h⟩ := Option.bind_eq_some_iff.1 h
      split at h
      · cases h
      · obtain ⟨comment', htail, h⟩ := Option.bind_eq_some_iff.1 h
        cases h
        exact htrailer htail
    · cases h
  induction text generalizing front with
  | nil => cases hmatch
  | cons u text ih =>
    unfold matchLine at hmatch
    split at hmatch
    · next hfound =>
      cases hmatch
      cases hcomment
      exact hban hfound
    · split at hmatch
      · cases hmatch
      · exact ih hmatch

/-- A line that starts with `Banned:` is neither empty nor a comment. -/
theorem parseLine_of_banned {rest : JsString} (htrimmed : Trimmed (js "Banned:" ++ rest)) :
    parseLine (js "Banned:" ++ rest) = match matchLine [] (js "Banned:" ++ rest) with
      | none => .skipped
      | some groups => parseGroups (js "Banned:" ++ rest) groups := by
  rw [parseLine, trim_eq_self htrimmed]
  rfl

theorem matchLine_of_banned {rest id digits : JsString} {comment : Option JsString}
    (hban : matchBan (js "Banned:" ++ rest) = some (id, digits, comment)) :
    matchLine [] (js "Banned:" ++ rest) = some ⟨[], id, digits, comment⟩ := by
  change matchBan (_ :: _) = _ at hban
  change matchLine [] (_ :: _) = _
  rw [matchLine, hban]

/-- The expiry is read back to the second. -/
theorem parseGroups_expiry (hid : groups.steamId ≠ []) (hexpiry : PublishableExpiry expiresAt)
    (hdigits : groups.expiry = decimalText (unixExpiry expiresAt).toNat) (line : JsString) :
    parseGroups line groups = .parsed (banRecord line groups (expiresAt.map floorToSecond)) := by
  have hne : groups.expiry ≠ [] := hdigits ▸ decimalText_ne_nil _
  have hnumber : numberOfDigits groups.expiry = toDouble (unixExpiry expiresAt).toNat := by
    rw [numberOfDigits, hdigits, digitsValue_decimalText]
  rw [parseGroups, if_neg (by simp [hid, hne]), hnumber]
  cases expiresAt with
  | none => rfl
  | some date =>
    have hdate := hexpiry date rfl
    have hrange := date.inRange
    have hseconds : (unixExpiry (some date)).toNat = (date.ms / 1000).toNat := rfl
    obtain ⟨n, hn⟩ : ∃ n, (date.ms / 1000).toNat = n + 1 :=
      ⟨(date.ms / 1000).toNat - 1, by omega⟩
    have hdate' := unixSecondsToDate_floor hdate
    rw [hn] at hdate'
    rw [hseconds, hn, toDouble_of_lt (by omega)]
    simp only [hdate', Option.map_some]

theorem record_of_parseGroups {record : ParsedBan}
    (hrecord : (parseGroups line groups).record? = some record) :
    ∃ expiresAt, record = banRecord line groups expiresAt := by
  unfold parseGroups at hrecord
  split at hrecord
  · cases hrecord
  · split at hrecord
    · cases hrecord
    · cases hrecord
      exact ⟨none, rfl⟩
    · split at hrecord
      · cases hrecord
      · next expiresAt _ =>
        cases hrecord
        exact ⟨some expiresAt, rfl⟩

/-- The line of an entry gives the entry's facts unless its reason holds a separator. -/
theorem parseLine_entryLine (hentry : Federable entry) (hline : entryLine entry = some line) :
    Unbroken line ∧
      ((parseLine line).record?.map ParsedBan.facts = some (publishedFacts entry) ↔
        ¬ HoldsSeparator entry.reason) ∧
      (¬ HoldsSeparator entry.reason → (parseLine line).isSkipped = false) := by
  obtain ⟨id, hid, hlength, hdigit⟩ := hentry.steamId
  have hne : id ≠ [] := by
    rintro rfl
    cases hlength
  rw [entryLine_eq hid hne hentry.expiry] at hline
  cases hline
  have hdigits : ∀ u ∈ decimalText (unixExpiry entry.expiresAt).toNat, isDigit u = true :=
    fun u hu => isDigit_of_mem_decimalText hu
  have hsome := decimalText_ne_nil (unixExpiry entry.expiresAt).toNat
  have hreason := singleLine_trimmed entry.reason
  obtain ⟨htrimmed, hbreaks⟩ := line_shape hdigit hdigits hsome hreason
    fun u hu => isLineBreak_of_mem_singleLine hu
  have hban := matchBan_line hlength hdigit hdigits hsome hreason
  rw [parseLine_of_banned htrimmed]
  refine ⟨hbreaks, ?_⟩
  rw [holdsSeparator_iff]
  cases hterm : (singleLine entry.reason).any isLineTerminator with
  | false =>
    rw [hterm, if_neg Bool.false_ne_true] at hban
    rw [matchLine_of_banned hban]
    simp only
    rw [parseGroups_expiry hne hentry.expiry rfl]
    refine ⟨⟨fun _ => Bool.false_ne_true, fun _ => ?_⟩, fun _ => rfl⟩
    have hcomment : ((orNull (singleLine entry.reason)).bind fun comment =>
        orNull (trim comment)) = orNull (singleLine entry.reason) := by
      unfold orNull
      split
      · rfl
      · next hreason' => simp [trim_eq_self hreason, hreason']
    simp only [LineResult.record?, Option.map_some, ParsedBan.facts, banRecord, hcomment,
      publishedFacts, hid]
  | true =>
    refine ⟨⟨fun hfacts => ?_, fun h => absurd rfl h⟩, fun h => absurd rfl h⟩
    -- a matched comment has no line terminator, the reason has one
    have hfull : singleLine entry.reason ≠ [] := by
      intro hnil
      rw [hnil] at hterm
      cases hterm
    obtain ⟨record, hrecord, hfacts⟩ := Option.map_eq_some_iff.1 hfacts
    have hread : record.reason = some (singleLine entry.reason) := by
      have heq := congrArg BanFacts.reason hfacts
      rw [publishedFacts, orNull, if_neg hfull] at heq
      exact heq
    split at hrecord
    · cases hrecord
    · next groups hmatch =>
      obtain ⟨expiresAt, rfl⟩ := record_of_parseGroups hrecord
      obtain ⟨comment, hcomment, htrim⟩ := Option.bind_eq_some_iff.1 hread
      have hclean := comment_of_matchLine hmatch hcomment
      have heq : trim comment = singleLine entry.reason := by
        unfold orNull at htrim
        grind
      have hsub := (trim_isInfix comment).subset
      rw [heq] at hsub
      rw [any_eq_true] at hterm
      obtain ⟨u, hu, hbad⟩ := hterm
      rw [any_eq_false] at hclean
      exact absurd hbad (hclean u (hsub hu))

/-! ## The whole text -/

theorem foldl_add (lines : List JsString) (result : ParseResult) :
    lines.foldl (fun result line => result.add (parseLine line)) result =
      ⟨result.records ++ lines.filterMap fun line => (parseLine line).record?,
        result.skipped + lines.countP fun line => (parseLine line).isSkipped⟩ := by
  induction lines generalizing result with
  | nil => simp
  | cons line lines ih =>
    rw [foldl_cons, ih]
    cases hline : parseLine line with
    | ignored => simp [ParseResult.add, hline, LineResult.record?, LineResult.isSkipped]
    | skipped =>
      simp only [ParseResult.add, hline, LineResult.record?, LineResult.isSkipped,
        filterMap_cons, countP_cons, if_true, ParseResult.mk.injEq, true_and]
      omega
    | parsed record => simp [ParseResult.add, hline, LineResult.record?, LineResult.isSkipped]

/-- Nothing may be missing from a list that has an element for each of another. -/
theorem forall_of_filterMap_map {α β γ : Type} {f : α → Option β} {g : β → γ} {h : α → γ}
    {l : List α} (heq : (l.filterMap f).map g = l.map h) : ∀ x ∈ l, (f x).map g = some (h x) := by
  induction l with
  | nil => simp
  | cons x l ih =>
    cases hx : f x with
    | none =>
      rw [filterMap_cons_none hx] at heq
      have hlength := congrArg List.length heq
      simp only [length_map, length_cons] at hlength
      have hshort := length_filterMap_le f l
      omega
    | some y =>
      rw [filterMap_cons_some hx, map_cons, map_cons] at heq
      obtain ⟨hy, hrest⟩ := List.cons.inj heq
      refine forall_mem_cons.2 ⟨?_, ih hrest⟩
      rw [hx, Option.map_some, hy]

theorem exists_entryLine (hentry : Federable entry) : ∃ line, entryLine entry = some line := by
  obtain ⟨id, hid, hlength, -⟩ := hentry.steamId
  have hne : id ≠ [] := by
    rintro rfl
    cases hlength
  exact ⟨_, entryLine_eq hid hne hentry.expiry⟩

/-- What the parser finds in the published text: the lines of the entries, one by one. -/
theorem parse_format {entries : List BanlistEntry} (hentries : ∀ e ∈ entries, Federable e) :
    parseSquadBansCfg (formatSquadBansCfg entries) =
      ⟨entries.filterMap fun e => (parseLine ((entryLine e).getD [])).record?,
        entries.countP fun e => (parseLine ((entryLine e).getD [])).isSkipped⟩ := by
  have hlines : entries.filterMap entryLine = entries.map fun e => (entryLine e).getD [] := by
    rw [← filterMap_eq_map']
    apply filterMap_congr
    intro e he
    obtain ⟨line, hline⟩ := exists_entryLine (hentries e he)
    rw [hline]
    rfl
  have hbreaks : ∀ line ∈ entries.filterMap entryLine, Unbroken line := by
    intro line hin
    obtain ⟨e, he, hline⟩ := mem_filterMap.1 hin
    exact (parseLine_entryLine (hentries e he) hline).1
  rw [formatSquadBansCfg_eq, parseSquadBansCfg, foldl_add, splitLines_lines hbreaks, hlines,
    filterMap_append, countP_append, filterMap_map, countP_map]
  have hended : parseLine [] = .ignored := rfl
  simp [hended, LineResult.record?, LineResult.isSkipped, Function.comp_def]

/-- A subscriber learns every ban, with its SteamID, its expiry to the second and its
reason, exactly if no reason holds a line separator. -/
theorem parse_format_iff (entries : List BanlistEntry) (hentries : ∀ e ∈ entries, Federable e) :
    ((parseSquadBansCfg (formatSquadBansCfg entries)).skipped = 0 ∧
        (parseSquadBansCfg (formatSquadBansCfg entries)).records.map ParsedBan.facts =
          entries.map publishedFacts) ↔
      ∀ e ∈ entries, ¬ HoldsSeparator e.reason := by
  rw [parse_format hentries]
  have hone (e : BanlistEntry) (he : e ∈ entries) :
      ((parseLine ((entryLine e).getD [])).record?.map ParsedBan.facts = some (publishedFacts e) ↔
        ¬ HoldsSeparator e.reason) ∧
      (¬ HoldsSeparator e.reason → (parseLine ((entryLine e).getD [])).isSkipped = false) := by
    obtain ⟨line, hline⟩ := exists_entryLine (hentries e he)
    rw [hline]
    exact (parseLine_entryLine (hentries e he) hline).2
  constructor
  · rintro ⟨-, hfacts⟩ e he
    exact (hone e he).1.1 (forall_of_filterMap_map hfacts e he)
  · intro hclean
    constructor
    · rw [countP_eq_zero]
      intro e he
      rw [(hone e he).2 (hclean e he)]
      exact Bool.false_ne_true
    · rw [map_filterMap, filterMap_congr fun e he => (hone e he).1.2 (hclean e he),
        filterMap_eq_map']

theorem issuedAt_inRange :
    -8640000000000000 ≤ (1600000000000 : Int) ∧ (1600000000000 : Int) ≤ 8640000000000000 := by
  decide

/-- A temporary ban with a reason. -/
def bannedFor (reason : String) : BanlistEntry where
  steamId64 := some (js "76561198000000001")
  eosId := none
  nickname := none
  reason := some (js reason)
  issuedAt := ⟨1600000000000, issuedAt_inRange⟩
  expiresAt := some ⟨1700000000123, by decide⟩
  admin := none

theorem bannedFor_federable (reason : String) : Federable (bannedFor reason) where
  steamId := ⟨_, rfl, rfl, all_eq_true.1 (by decide)⟩
  expiry date hdate := by
    cases hdate
    decide

/-- A comment marker, another ban and line breaks in a reason do no harm. -/
theorem parse_format_iff_marked : (parseSquadBansCfg (formatSquadBansCfg
        [bannedFor "// Banned:76561198000000002:0\r\nagain ", bannedFor ""])).skipped = 0 ∧
      (parseSquadBansCfg (formatSquadBansCfg
        [bannedFor "// Banned:76561198000000002:0\r\nagain ", bannedFor ""])).records.map
          ParsedBan.facts =
        [bannedFor "// Banned:76561198000000002:0\r\nagain ", bannedFor ""].map publishedFacts :=
  (parse_format_iff _ (by
    simp only [forall_mem_cons, bannedFor_federable, not_mem_nil, false_implies,
      implies_true, and_self])).2 (by decide)

/-- A separator in the reason drops the ban, or turns it into a permanent ban of a player
that the reason names. -/
theorem not_federated_separator : Federable (bannedFor "cheats\u2028again") ∧
      (parseSquadBansCfg (formatSquadBansCfg [bannedFor "cheats\u2028again"])).skipped = 1 ∧
      (parseSquadBansCfg (formatSquadBansCfg [bannedFor "cheats\u2028again"])).records.length = 0 ∧
      Federable (bannedFor "Banned:76561198000000002:0\u2028// x") ∧
      (parseSquadBansCfg (formatSquadBansCfg
        [bannedFor "Banned:76561198000000002:0\u2028// x"])).records.map ParsedBan.facts =
          [⟨some (js "76561198000000002"), none, some (js "x")⟩] :=
  ⟨bannedFor_federable _, by decide +kernel, by decide +kernel, bannedFor_federable _,
    by decide +kernel⟩

end SquadPanel.Bans
