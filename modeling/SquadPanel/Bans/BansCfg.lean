import SquadPanel.Bans.Publish
import SquadPanel.Js.Json

/-!
# Reading a `Bans.cfg` text

`apps/workers/ban-sync/src/adapters/squad-bans-cfg.ts`, the subscriber's side of the ban
federation, and the round trip through the text that `formatSquadBansCfg` publishes.
-/

namespace SquadPanel.Bans

open Js

structure ParsedBan where
  steamId64 : Option JsString
  eosId : Option JsString
  nickname : Option JsString
  reason : Option JsString
  adminName : Option JsString
  issuedAt : Option JsDate
  expiresAt : Option JsDate
  raw : Json

structure ParseResult where
  records : List ParsedBan
  skipped : Nat

/-! ## The parser -/

/-- `text.split(/\r?\n/)` -/
def splitLines : JsString → List JsString
  | [] => [[]]
  | u :: text =>
    if u = 0x0A then [] :: splitLines text
    else if u = 0x0D ∧ text.head? = some 0x0A then splitLines text
    else match splitLines text with
      | line :: lines => (u :: line) :: lines
      | [] => [[u]]

structure LineGroups where
  front : JsString
  steamId : JsString
  expiry : JsString
  comment : Option JsString
  deriving DecidableEq

/-- The text after a literal. -/
def afterLiteral : JsString → JsString → Option JsString
  | [], text => some text
  | _ :: _, [] => none
  | u :: literal, v :: text => if u = v then afterLiteral literal text else none

variable (text : JsString)

/-- `\s*(?:\/\/\s*(?<comment>.*))?$`.  The blanks end at a character that is none, so only
the longest run of them can be followed by the comment or the end. -/
def matchTrailer : Option (Option JsString) :=
  match text.dropWhile isWhitespace with
  | [] => some none
  | rest =>
    match afterLiteral (js "//") rest with
    | none => none
    | some rest =>
      let comment := rest.dropWhile isWhitespace
      if comment.any isLineTerminator then none else some (some comment)

/-- `LINE_PATTERN` from `Banned:` on.  A shorter run of expiry digits would be followed by
a digit, which nothing after it matches. -/
def matchBan : Option (JsString × JsString × Option JsString) := do
  let text ← afterLiteral (js "Banned:") text
  let steamId := text.take 17
  if steamId.length = 17 ∧ steamId.all isDigit then
    let text ← afterLiteral (js ":") (text.drop 17)
    let expiry := text.takeWhile isDigit
    if expiry = [] then none
    else
      let comment ← matchTrailer (text.dropWhile isDigit)
      return (steamId, expiry, comment)
  else none

/-- `line.match(LINE_PATTERN)`: the shortest front after which the rest matches. -/
def matchLine (front : JsString) : JsString → Option LineGroups
  | [] => none
  | u :: text =>
    match matchBan (u :: text) with
    | some (steamId, expiry, comment) => some ⟨front, steamId, expiry, comment⟩
    | none => if isLineTerminator u then none else matchLine (front ++ [u]) text

/-- `trimmed.match(/^[[(](.+)[\])]$/)`, its group. -/
def bracketed : Option JsString :=
  match text with
  | [] => none
  | first :: rest =>
    match rest.getLast? with
    | none => none
    | some last =>
      let inner := rest.dropLast
      if (first = 0x5B ∨ first = 0x28) ∧ (last = 0x5D ∨ last = 0x29) ∧ inner ≠ [] ∧
          ¬ inner.any isLineTerminator then some inner
      else none

/-- `text || null` -/
def orNull : Option JsString := if text = [] then none else some text

def extractAdminName (front : JsString) : Option JsString :=
  let trimmed := trim front
  if trimmed = [] then none else orNull (trim ((bracketed trimmed).getD trimmed))

def unixSecondsToDate (seconds : Nat) : Option JsDate :=
  (toDouble (seconds * 1000)).bind fun t => JsDate.ofTime t

inductive LineResult
  | ignored
  | skipped
  | parsed (record : ParsedBan)

/-- The record of a matched line. -/
def banRecord (line : JsString) (groups : LineGroups) (expiresAt : Option JsDate) : ParsedBan where
  steamId64 := some groups.steamId
  eosId := none
  nickname := none
  reason := groups.comment.bind fun comment => orNull (trim comment)
  adminName := extractAdminName groups.front
  issuedAt := none
  expiresAt := expiresAt
  raw := .object [(js "line", .string line)]

/-- An iteration from the match on; an expiry of `0` is a permanent ban. -/
def parseGroups (line : JsString) (groups : LineGroups) : LineResult :=
  if groups.steamId = [] ∨ groups.expiry = [] then .skipped
  else match numberOfDigits groups.expiry with
    | none => .skipped
    | some 0 => .parsed (banRecord line groups none)
    | some expiryNum =>
      match unixSecondsToDate expiryNum with
      | none => .skipped
      | some expiresAt => .parsed (banRecord line groups (some expiresAt))

/-- One iteration of the loop in `parseSquadBansCfg`. -/
def parseLine (rawLine : JsString) : LineResult :=
  let line := trim rawLine
  if line = [] then .ignored
  else if (js "//").isPrefixOf line || (js "#").isPrefixOf line then .ignored
  else match matchLine [] line with
    | none => .skipped
    | some groups => parseGroups line groups

def ParseResult.add (result : ParseResult) : LineResult → ParseResult
  | .ignored => result
  | .skipped => { result with skipped := result.skipped + 1 }
  | .parsed record => { result with records := result.records ++ [record] }

def parseSquadBansCfg : ParseResult :=
  (splitLines text).foldl (fun result line => result.add (parseLine line)) ⟨[], 0⟩

end SquadPanel.Bans
