import SquadPanel.Go.Filepath

/-!
# Path validators of the bridge

`apps/bridge/internal/validate` and the split into a trust root and a relative path of
`apps/bridge/internal/fsx`.  An error keeps the values its message names.
-/

namespace SquadPanel.Bridge

open Go Go.Filepath

/-- The errors that wrap `ErrForbidden`. -/
inductive Forbidden
  | emptyPath
  | nonAbsolutePath (p : GoString)
  | nullByte
  | outsideAllowedRoots (cleaned : GoString) (allowedRoots : List GoString)
  | noRelativePath
  | missingUuidSegment
  | configPathShape
  | filenameSyntax (name : GoString)
  | filenameNotAllowed (name : GoString)
  | serverDirectory (cleaned : GoString)
  | writableRoot (cleaned : GoString)
  deriving DecidableEq

/-! ## Package validate -/

namespace Validate

def PanelDataRoot : GoString := go "/var/lib/squad-panel"
def PanelConfigsRoot : GoString := go "/var/lib/squad-panel/configs"
def PanelSavedRoot : GoString := go "/var/lib/squad-panel/saved"

/-- `Path` -/
def path (p : GoString) (allowedRoots : List GoString) : Except Forbidden GoString :=
  if p = [] then .error .emptyPath
  else if !isAbs p then .error (.nonAbsolutePath p)
  else
    let cleaned := clean p
    if 0 ∈ cleaned then .error .nullByte
    else if allowedRoots.any fun root =>
        cleaned == clean root || hasPrefix cleaned (clean root ++ [Separator]) then .ok cleaned
    else .error (.outsideAllowedRoots cleaned allowedRoots)

/-- A regular expression of one byte class after the other. -/
def matchesClasses : List (UInt8 → Bool) → GoString → Bool
  | [], [] => true
  | c :: cs, b :: bs => c b && matchesClasses cs bs
  | _, _ => false

/-- `[a-f0-9]` -/
def isHex (b : UInt8) : Bool := (0x61 ≤ b && b ≤ 0x66) || (0x30 ≤ b && b ≤ 0x39)

def uuidRegexp : List (UInt8 → Bool) :=
  let hex (n : Nat) : List (UInt8 → Bool) := List.replicate n isHex
  let dash : List (UInt8 → Bool) := [(· == 0x2D)]
  hex 8 ++ dash ++ hex 4 ++ dash ++ hex 4 ++ dash ++ hex 4 ++ dash ++ hex 12

def uuidLike (s : GoString) : Bool := matchesClasses uuidRegexp s

/-- `[A-Za-z]` -/
def isLetter (b : UInt8) : Bool := (0x41 ≤ b && b ≤ 0x5A) || (0x61 ≤ b && b ≤ 0x7A)

/-- `[A-Za-z0-9_-]` -/
def isNameByte (b : UInt8) : Bool :=
  isLetter b || (0x30 ≤ b && b ≤ 0x39) || b == 0x5F || b == 0x2D

/-- `^[A-Za-z][A-Za-z0-9_-]{0,63}\.cfg$` -/
def cfgFileRegex (name : GoString) : Bool :=
  match name.take (name.length - 4) with
  | [] => false
  | first :: rest =>
    isLetter first && rest.length ≤ 63 && rest.all isNameByte &&
      name.drop (name.length - 4) == go ".cfg"

def allowedCfgFiles : List GoString :=
  [go "Admins.cfg", go "Bans.cfg", go "CustomOptions.cfg", go "ExcludedFactions.cfg",
    go "ExcludedLayers.cfg", go "ExcludedLevels.cfg", go "LayerRotation.cfg",
    go "LayerVoting.cfg", go "LayerVotingLowPlayers.cfg", go "LayerVotingNight.cfg",
    go "LevelRotation.cfg", go "License.cfg", go "MOTD.cfg", go "Rcon.cfg",
    go "RemoteAdminListHosts.cfg", go "RemoteBanListHosts.cfg", go "Server.cfg",
    go "ServerMessages.cfg", go "VoteConfig.cfg"]

def panelConfigsPath (p : GoString) : Except Forbidden GoString := do
  let cleaned ← path p [PanelConfigsRoot]
  match rel PanelConfigsRoot cleaned with
  | none => throw .noRelativePath
  | some rel =>
    match split rel with
    | [] => throw .missingUuidSegment
    | first :: _ => if uuidLike first then return cleaned else throw .missingUuidSegment

def panelConfigFilename (name : GoString) : Except Forbidden Unit :=
  if !cfgFileRegex name then .error (.filenameSyntax name)
  else if name ∉ allowedCfgFiles then .error (.filenameNotAllowed name)
  else .ok ()

def panelConfigFilePath (p : GoString) : Except Forbidden GoString := do
  let cleaned ← panelConfigsPath p
  let rel := (rel PanelConfigsRoot cleaned).getD []
  match split rel with
  | [_, dir, file] =>
    if dir = go "ServerConfig" then
      panelConfigFilename file
      return cleaned
    else throw .configPathShape
  | _ => throw .configPathShape

end Validate

/-! ## Package fsx -/

namespace Fsx

open Validate

def writableRoots : List GoString := [PanelDataRoot]

def serverScopedBases : List GoString := [PanelConfigsRoot, PanelSavedRoot]

/-- `cleaned` relative to `dir` when it lies strictly below. -/
def relBelow (dir cleaned : GoString) : Option GoString :=
  match rel (clean dir) cleaned with
  | none => none
  | some rel =>
    if rel = dot ∨ rel = dotdot ∨ hasPrefix rel (dotdot ++ [Separator]) then none else some rel

/-- The loop over the server-scoped bases. -/
def scopedTrustRoot (cleaned : GoString) :
    List GoString → Option (Except Forbidden (GoString × GoString))
  | [] => none
  | base :: bases =>
    match relBelow base cleaned with
    | none => scopedTrustRoot cleaned bases
    | some relToBase =>
      let (serverID, rest) := cut relToBase
      some (if rest = [] then .error (.serverDirectory cleaned)
        else .ok (join base serverID, rest))

/-- The loop over the writable roots. -/
def plainTrustRoot (cleaned : GoString) : List GoString → Option (GoString × GoString)
  | [] => none
  | wr :: wrs =>
    match relBelow (clean wr) cleaned with
    | none => plainTrustRoot cleaned wrs
    | some relToRoot => some (clean wr, relToRoot)

def writeTrustRoot (p : GoString) : Except Forbidden (GoString × GoString) := do
  let cleaned ← path p writableRoots
  match scopedTrustRoot cleaned serverScopedBases with
  | some result => result
  | none =>
    match plainTrustRoot cleaned writableRoots with
    | some result => return result
    | none => throw (.writableRoot cleaned)

end Fsx

end SquadPanel.Bridge
