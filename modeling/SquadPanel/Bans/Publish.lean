import Mathlib.Data.List.Sort
import SquadPanel.Js.Lines
import SquadPanel.Js.Map
import SquadPanel.Js.Number

/-!
# Publishing the banlist

`apps/api/src/lib/banlist-publish.ts`: ban rows become the entries of the public banlist,
one for each player, and the entries become a `Bans.cfg` text.
-/

namespace SquadPanel.Bans

open Js

inductive BanlistPublishScope
  | allActive
  | permanentOnly
  deriving DecidableEq

/-! ## Durations -/

def BAN_LENGTH_UNIT_MILLISECONDS : List (UInt16 × Nat) :=
  [(0x73, 1000), (0x6D, 60000), (0x68, 3600000), (0x64, 86400000), (0x77, 604800000),
    (0x4D, 2592000000), (0x79, 31536000000)]

/-- `[smhdwMy]` -/
def isBanLengthUnit (u : UInt16) : Bool :=
  u == 0x73 || u == 0x6D || u == 0x68 || u == 0x64 || u == 0x77 || u == 0x4D || u == 0x79

/-- `BAN_LENGTH_PATTERN.exec`: the digits and the unit of `/^(\d+)([smhdwMy])?$/`. -/
def execBanLengthPattern (text : JsString) : Option (JsString × Option UInt16) :=
  let digits := text.takeWhile isDigit
  if digits = [] then none
  else match text.dropWhile isDigit with
    | [] => some (digits, none)
    | [unit] => if isBanLengthUnit unit then some (digits, some unit) else none
    | _ => none

/-- The milliseconds of a unit; a number alone counts days. -/
def banLengthUnitMs (unit : Option UInt16) : Nat :=
  ((BAN_LENGTH_UNIT_MILLISECONDS.lookup (unit.getD 0x64)).orElse
    fun _ => BAN_LENGTH_UNIT_MILLISECONDS.lookup 0x64).getD 86400000

/-- When a ban ends; `none` is a permanent ban. -/
def parseBanLengthToExpiry (banLength : Option JsString) (issuedAt : JsDate) : Option JsDate :=
  let trimmed := trim (banLength.getD [])
  if trimmed = [] then none
  else match execBanLengthPattern trimmed with
    | none => none
    | some (digits, unit) =>
      match numberOfDigits digits with
      | none => none
      | some amount =>
        if amount = 0 then none
        else
          -- an infinite or out of range time gives an Invalid Date
          (toDouble (amount * banLengthUnitMs unit)).bind fun length =>
            (intToDouble (issuedAt.ms + length)).bind JsDate.ofTime

/-! ## Entries -/

/-- A `moderation_actions` ban row as read from the database. -/
structure ModerationBanRow where
  playerId : JsString
  steamId64 : Option JsString
  eosId : Option JsString
  nickname : Option JsString
  reason : Option JsString
  banLength : Option JsString
  issuedAt : JsDate
  revertedAt : Option JsDate
  admin : Option JsString
  deriving DecidableEq

/-- One player's entry in the published banlist; no expiry means permanent. -/
structure BanlistEntry where
  steamId64 : Option JsString
  eosId : Option JsString
  nickname : Option JsString
  reason : Option JsString
  issuedAt : JsDate
  expiresAt : Option JsDate
  admin : Option JsString
  deriving DecidableEq

def BanlistEntry.expiresAtMs (entry : BanlistEntry) : Option Int :=
  entry.expiresAt.map JsDate.ms

def toEntry (row : ModerationBanRow) : BanlistEntry where
  steamId64 := row.steamId64
  eosId := row.eosId
  nickname := row.nickname
  reason := row.reason
  issuedAt := row.issuedAt
  expiresAt := parseBanLengthToExpiry row.banLength row.issuedAt
  admin := row.admin

/-- The loop that groups the unreverted rows by player. -/
def groupByPlayer (rows : List ModerationBanRow) : JsMap JsString (List ModerationBanRow) :=
  rows.foldl
    (fun byPlayer row =>
      if row.revertedAt.isSome then byPlayer
      else match byPlayer.get row.playerId with
        | some existing => byPlayer.set row.playerId (existing ++ [row])
        | none => byPlayer.set row.playerId [row])
    JsMap.empty

/-- A ban that has not expired. -/
def isActive (now : JsDate) (entry : BanlistEntry) : Bool :=
  match entry.expiresAtMs with
  | none => true
  | some expiresAtMs => now.ms < expiresAtMs

def inScope (scope : BanlistPublishScope) (entry : BanlistEntry) : Bool :=
  scope ≠ .permanentOnly || entry.expiresAtMs.isNone

/-- A player's entries that can be published, the most recently issued first. -/
def candidates (scope : BanlistPublishScope) (now : JsDate) (playerRows : List ModerationBanRow) :
    List BanlistEntry :=
  (((playerRows.insertionSort fun a b => b.issuedAt.ms - a.issuedAt.ms ≤ 0).map toEntry).filter
    (isActive now)).filter (inScope scope)

/-- `candidates.reduce(…)`: the later entry only if it ends later. -/
def latestOf (first : BanlistEntry) (rest : List BanlistEntry) : BanlistEntry :=
  rest.foldl
    (fun latest entry =>
      if entry.expiresAtMs.getD 0 > latest.expiresAtMs.getD 0 then entry else latest)
    first

/-- The entry published for a player, if any. -/
def chosen : List BanlistEntry → Option BanlistEntry
  | [] => none
  | first :: rest =>
    some (((first :: rest).find? fun entry => entry.expiresAtMs.isNone).getD (latestOf first rest))

def buildBanlistEntries (rows : List ModerationBanRow) (scope : BanlistPublishScope)
    (now : JsDate) : List BanlistEntry :=
  let byPlayer := groupByPlayer rows
  let playerIds := byPlayer.keys.insertionSort fun a b => ¬ b < a
  playerIds.filterMap fun playerId =>
    chosen (candidates scope now ((byPlayer.get playerId).getD []))

/-! ## The `Bans.cfg` text -/

def singleLine : Option JsString → JsString
  | none => []
  | some value => trim (replaceRuns isLineBreak 0x20 value)

/-- `Math.floor(t / 1000)`; the quotient of a time value never rounds up to the next
whole number. -/
def unixExpiry (expiresAt : Option JsDate) : Int :=
  match expiresAt with
  | none => 0
  | some date => date.ms / 1000

/-- One line; an entry without a SteamID has none. -/
def entryLine (entry : BanlistEntry) : Option JsString :=
  match entry.steamId64 with
  | none => none
  | some steamId64 =>
    if steamId64 = [] then none
    else
      let ban := js "Banned:" ++ steamId64 ++ js ":" ++ intText (unixExpiry entry.expiresAt)
      let reason := singleLine entry.reason
      some (if reason ≠ [] then ban ++ js " // " ++ reason else ban)

def formatSquadBansCfg (entries : List BanlistEntry) : JsString :=
  let lines := entries.filterMap entryLine
  if lines.length > 0 then (js "\n").intercalate lines ++ js "\n" else []

end SquadPanel.Bans
