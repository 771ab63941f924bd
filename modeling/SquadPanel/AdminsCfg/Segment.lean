import Mathlib.Data.List.Sort
import SquadPanel.Js.Text
import SquadPanel.Lib.Occurs

/-!
# The managed segment of Admins.cfg

`admins-config.ts`: the text between `//SQUAD-PANEL BEGIN` and
`//SQUAD-PANEL END` that the panel owns, built from a snapshot of the database,
and the functions that find it in a file and replace it there.

`localeCompare` is the platform's collation and a parameter.  A sort is stable
and, whatever the comparison says, a rearrangement of its input.
-/

namespace SquadPanel.AdminsCfg

open Js Lib

def BEGIN_MARKER : JsString := js "//SQUAD-PANEL BEGIN"

def END_MARKER : JsString := js "//SQUAD-PANEL END"

def BEGIN_LINE : JsString := BEGIN_MARKER ++ js " — не редактировать вручную"

def SEGMENT_NEWLINE : JsString := js "\r\n"

structure RoleEntry where
  name : JsString
  squadPermissions : List JsString
deriving Repr, DecidableEq

/-- `comment` is `none` when it is absent or null. -/
structure AdminEntry where
  eosId : JsString
  roleName : JsString
  comment : Option JsString
deriving Repr, DecidableEq

/-- A clan member with `has_priority` on an active, unexpired clan. -/
structure ClanPriorityEntry where
  eosId : JsString
  clanName : JsString
deriving Repr, DecidableEq

/-- `clanPriority` is `none` when it is left out. -/
structure SegmentInputs where
  roles : List RoleEntry
  admins : List AdminEntry
  clanPriority : Option (List ClanPriorityEntry)
deriving Repr, DecidableEq

def CLAN_PRIORITY_GROUP_NAME : JsString := js "ClanPriority"

def CLAN_PRIORITY_PERMISSION : JsString := js "reserve"

/-- `SQUAD_PERMISSION_KEYS`, the in-game permissions a role can carry. -/
def SQUAD_PERMISSION_KEYS : List JsString :=
  [js "startvote", js "changemap", js "pause", js "cheat", js "private", js "balance",
    js "chat", js "kick", js "ban", js "config", js "cameraman", js "immune",
    js "manageserver", js "featuretest", js "reserve", js "demos", js "clientdemos",
    js "debug", js "teamchange", js "forceteamchange", js "canseeadminchat"]

/-! ## Sanitizers -/

/-- `[\p{Cc}\u2028\u2029]`: the controls of C0 and C1 with DEL, and the two separators. -/
def isLineBreaking (u : UInt16) : Bool :=
  u ≤ 0x1F || (0x7F ≤ u && u ≤ 0x9F) || u == 0x2028 || u == 0x2029

/-- `[:,/]`. -/
def isRoleNameSyntax (u : UInt16) : Bool := u == 0x3A || u == 0x2C || u == 0x2F

def isSlash (u : UInt16) : Bool := u == 0x2F

def isAdminsCfgSafeRoleName (name : JsString) : Bool :=
  0 < (trim name).length && !name.any isLineBreaking && !name.any isRoleNameSyntax

/-- A run of two or more slashes becomes one, and a single slash stays: every run becomes one. -/
def toAdminsCfgCommentText (text : JsString) : JsString :=
  trim (replaceRuns isSlash 0x2F (replaceRuns isLineBreaking 0x20 text))

/-! ## Building the body -/

/-- `Array.prototype.sort` with a comparison. -/
def sortBy {α : Type*} (compare : α → α → Int) (items : List α) : List α :=
  items.insertionSort fun a b => compare a b ≤ 0

/-- `Array.prototype.sort` without one: by code units. -/
def sortUnits (items : List JsString) : List JsString :=
  items.insertionSort fun a b => ¬ b < a

section Build
variable (localeCompare : JsString → JsString → Int)

section
variable (inputs : SegmentInputs)

def rolesWithPerms : List RoleEntry :=
  sortBy (fun a b => localeCompare a.name b.name)
    ((inputs.roles.filter fun r =>
        0 < r.squadPermissions.length && isAdminsCfgSafeRoleName r.name).map fun r =>
      { r with squadPermissions := sortUnits r.squadPermissions })

def validRoleNames : List JsString :=
  (rolesWithPerms localeCompare inputs).map RoleEntry.name

def sortedAdmins : List AdminEntry :=
  sortBy
    (fun a b =>
      let r := localeCompare a.roleName b.roleName
      if r ≠ 0 then r else localeCompare a.eosId b.eosId)
    (inputs.admins.filter fun a => a.roleName ∈ validRoleNames localeCompare inputs)

def clanPriorityOf : List ClanPriorityEntry :=
  inputs.clanPriority.getD []

def emitClanPriorityGroup : Bool :=
  0 < (clanPriorityOf inputs).length &&
    !decide (CLAN_PRIORITY_GROUP_NAME ∈ validRoleNames localeCompare inputs)

def clanAdmins : List ClanPriorityEntry :=
  sortBy (fun a b => localeCompare a.eosId b.eosId) (clanPriorityOf inputs)

end

def groupLine (role : RoleEntry) : JsString :=
  js "Group=" ++ role.name ++ js ":" ++ (js ",").intercalate role.squadPermissions

def clanGroupLine : JsString :=
  js "Group=" ++ CLAN_PRIORITY_GROUP_NAME ++ js ":" ++ CLAN_PRIORITY_PERMISSION

def adminLine (admin : AdminEntry) : JsString :=
  let base := js "Admin=" ++ admin.eosId ++ js ":" ++ admin.roleName
  let comment := (admin.comment.map toAdminsCfgCommentText).getD []
  if comment ≠ [] then base ++ js " // " ++ comment else base

def clanAdminLine (entry : ClanPriorityEntry) : JsString :=
  js "Admin=" ++ entry.eosId ++ js ":" ++ CLAN_PRIORITY_GROUP_NAME ++ js " // clan:" ++
    toAdminsCfgCommentText entry.clanName

section
variable (inputs : SegmentInputs)

def totalGroups : Nat :=
  (rolesWithPerms localeCompare inputs).length +
    if emitClanPriorityGroup localeCompare inputs then 1 else 0

def totalAdmins : Nat :=
  (sortedAdmins localeCompare inputs).length + (clanAdmins localeCompare inputs).length

/-- The lines between the first and the last. -/
def innerLines : List JsString :=
  (rolesWithPerms localeCompare inputs).map groupLine ++
    (if emitClanPriorityGroup localeCompare inputs then [clanGroupLine] else []) ++
    (if 0 < totalGroups localeCompare inputs ∧ 0 < totalAdmins localeCompare inputs then [[]]
      else []) ++
    (sortedAdmins localeCompare inputs).map adminLine ++
    (clanAdmins localeCompare inputs).map clanAdminLine

def segmentLines : List JsString :=
  BEGIN_LINE :: (innerLines localeCompare inputs ++ [END_MARKER])

end

structure ManagedSegmentBody where
  body : JsString
  groupsCount : Nat
  adminsCount : Nat
deriving Repr, DecidableEq

def buildManagedSegmentBody (inputs : SegmentInputs) : ManagedSegmentBody :=
  { body := SEGMENT_NEWLINE.intercalate (segmentLines localeCompare inputs)
    groupsCount := totalGroups localeCompare inputs
    adminsCount := totalAdmins localeCompare inputs }

end Build

/-! ## Finding and replacing -/

structure LocatedSegment where
  segment : JsString
  start : Nat
  «end» : Nat
deriving Repr, DecidableEq

/-- `s.slice(a, b)` for `a ≤ b`. -/
def slice (s : JsString) (a b : Nat) : JsString := (s.take b).drop a

/-- `s.indexOf(pat, from)`. -/
def indexOfFrom (pat s : JsString) (start : Nat) : Option Nat :=
  (indexOf pat (s.drop start)).map (start + ·)

def findManagedSegment (content : JsString) : Option LocatedSegment :=
  match indexOf BEGIN_MARKER content with
  | none => none
  | some beginIdx =>
    let tail :=
      match indexOfFrom END_MARKER content beginIdx with
      -- an orphaned begin marker: the segment runs to the end of the file
      | none => content.length
      | some endIdx => endIdx + END_MARKER.length
    some { segment := slice content beginIdx tail, start := beginIdx, «end» := tail }

def spliceManagedSegment (originalContent newSegmentBody : JsString) : JsString :=
  match findManagedSegment originalContent with
  | some located =>
    slice originalContent 0 located.start ++ newSegmentBody ++
      originalContent.drop located.end
  | none =>
    if originalContent.length = 0 then newSegmentBody ++ SEGMENT_NEWLINE
    else newSegmentBody ++ SEGMENT_NEWLINE ++ SEGMENT_NEWLINE ++ originalContent

end SquadPanel.AdminsCfg
