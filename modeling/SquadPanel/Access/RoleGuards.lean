import SquadPanel.Access.Permissions

/-!
# Guards of role management

The privilege ceiling (`role-guards.ts`) and the role hierarchy
(`role-hierarchy.ts`), over the queries they make.  The queries are a parameter:
a request may have the database for itself, or share it with other requests
between any two queries.
-/

namespace SquadPanel.Access

open Js
open AdminsCfg (SQUAD_PERMISSION_KEYS isAdminsCfgSafeRoleName)

/-! ## Requests and rows -/

structure RoleRow (R : Type) extends RoleColumns where
  id : R
deriving Repr, DecidableEq

/-- `roleNameSchema`. -/
abbrev RoleName :=
  { name : JsString // 1 ≤ name.length ∧ name.length ≤ 64 ∧ isAdminsCfgSafeRoleName name = true }

/-- `squadPermissionsArraySchema`. -/
abbrev SquadKeys :=
  { keys : List JsString // keys.Nodup ∧ ∀ key ∈ keys, key ∈ SQUAD_PERMISSION_KEYS }

structure CreateBody where
  name : RoleName
  squadPermissions : SquadKeys
  panelAccess : Bool
  canViewIps : Bool
  canAssignRoles : Bool
  canEditRoles : Bool
  canManageIssues : Bool
  canManageBanSources : Bool
  canManageIntegrations : Bool
  canManageClans : Bool
  canManageEconomy : Bool
  canHandleReports : Bool
  canManageInfrastructure : Bool
deriving Repr, DecidableEq

/-- `none` for a field that the body leaves out. -/
structure UpdateBody where
  name : Option RoleName
  squadPermissions : Option SquadKeys
  panelAccess : Option Bool
  canViewIps : Option Bool
  canAssignRoles : Option Bool
  canEditRoles : Option Bool
  canManageIssues : Option Bool
  canManageBanSources : Option Bool
  canManageIntegrations : Option Bool
  canManageClans : Option Bool
  canManageEconomy : Option Bool
  canHandleReports : Option Bool
  canManageInfrastructure : Option Bool
deriving Repr, DecidableEq

/-- The columns of a new role, those that the body cannot name at their defaults. -/
def CreateBody.columns (body : CreateBody) : RoleColumns where
  name := body.name.1
  isSystemRole := false
  panelAccess := body.panelAccess
  canViewIps := body.canViewIps
  canAssignRoles := body.canAssignRoles
  canEditRoles := body.canEditRoles
  canManageIssues := body.canManageIssues
  canManageBanSources := body.canManageBanSources
  canManageIntegrations := body.canManageIntegrations
  canManageClans := body.canManageClans
  canManageEconomy := body.canManageEconomy
  canManageMedia := false
  canHandleReports := body.canHandleReports
  canManageInfrastructure := body.canManageInfrastructure
  combatView := true

/-- The body over a row: a field that is left out keeps the value of the row. -/
def UpdateBody.columns (body : UpdateBody) (row : RoleColumns) : RoleColumns where
  name := (body.name.map Subtype.val).getD row.name
  isSystemRole := row.isSystemRole
  panelAccess := body.panelAccess.getD row.panelAccess
  canViewIps := body.canViewIps.getD row.canViewIps
  canAssignRoles := body.canAssignRoles.getD row.canAssignRoles
  canEditRoles := body.canEditRoles.getD row.canEditRoles
  canManageIssues := body.canManageIssues.getD row.canManageIssues
  canManageBanSources := body.canManageBanSources.getD row.canManageBanSources
  canManageIntegrations := body.canManageIntegrations.getD row.canManageIntegrations
  canManageClans := body.canManageClans.getD row.canManageClans
  canManageEconomy := body.canManageEconomy.getD row.canManageEconomy
  canManageMedia := row.canManageMedia
  canHandleReports := body.canHandleReports.getD row.canHandleReports
  canManageInfrastructure := body.canManageInfrastructure.getD row.canManageInfrastructure
  combatView := row.combatView

def UpdateBody.squad (body : UpdateBody) (current : List JsString) : List JsString :=
  (body.squadPermissions.map Subtype.val).getD current

/-! ## Refusals -/

/-- The error answers of the routes; `internal` is a database error. -/
inductive RouteError where
  | unauthenticated
  | forbidden (required : PermissionKey)
  | roleNotFound
  | targetRoleNotFound
  | playerNotFound
  | ownerRoleImmutable
  | ownerAssignmentForbidden
  | cannotEditOwnRole
  | cannotChangeOwnRole
  | roleExceedsActorPermissions (missing : List JsString)
  | targetOutranksActor (missing : List JsString)
  | panelAccessRequiredForRoleManagement
  | panelAccessRequiredForViewIps
  | roleNameTaken
  | roleReferencedByVipTier
  | roleExpiryMustBeFuture
  | targetRoleSameAsSource
  | cannotRemoveLastOwner
  | internal
deriving Repr, DecidableEq

def RouteError.status : RouteError → Nat
  | .unauthenticated => 401
  | .forbidden _ | .ownerAssignmentForbidden | .cannotEditOwnRole | .cannotChangeOwnRole
  | .roleExceedsActorPermissions _ | .targetOutranksActor _ => 403
  | .roleNotFound | .targetRoleNotFound | .playerNotFound => 404
  | .ownerRoleImmutable | .panelAccessRequiredForRoleManagement | .panelAccessRequiredForViewIps
  | .roleExpiryMustBeFuture | .targetRoleSameAsSource => 400
  | .roleNameTaken | .roleReferencedByVipTier | .cannotRemoveLastOwner => 409
  | .internal => 500

def RouteError.error : RouteError → JsString
  | .unauthenticated => js "unauthenticated"
  | .forbidden _ => js "forbidden"
  | .roleNotFound => js "role_not_found"
  | .targetRoleNotFound => js "target_role_not_found"
  | .playerNotFound => js "player_not_found"
  | .ownerRoleImmutable => js "owner_role_immutable"
  | .ownerAssignmentForbidden => js "owner_assignment_forbidden"
  | .cannotEditOwnRole => js "cannot_edit_own_role"
  | .cannotChangeOwnRole => js "cannot_change_own_role"
  | .roleExceedsActorPermissions _ => js "role_exceeds_actor_permissions"
  | .targetOutranksActor _ => js "target_outranks_actor"
  | .panelAccessRequiredForRoleManagement => js "panel_access_required_for_role_management"
  | .panelAccessRequiredForViewIps => js "panel_access_required_for_view_ips"
  | .roleNameTaken => js "role_name_taken"
  | .roleReferencedByVipTier => js "role_referenced_by_vip_tier"
  | .roleExpiryMustBeFuture => js "role_expiry_must_be_future"
  | .targetRoleSameAsSource => js "target_role_same_as_source"
  | .cannotRemoveLastOwner => js "cannot_remove_last_owner"
  | .internal => js "internal_error"

/-! ## Queries -/

/-- The function that makes a query. -/
inductive Reader where
  | route
  | loadRolePermissions
  | loadRoleGrant
deriving Repr, DecidableEq

/-- What the routes ask of the database, each a statement or a transaction of its own. -/
structure RoleStore (m : Type → Type) (R P : Type) where
  selectRole : Reader → R → m (Option (RoleRow R))
  selectSquadPermissions : Reader → R → m (List JsString)
  selectPermissionKeys : Reader → R → m (List JsString)
  /-- The role that is named Owner and is a system role. -/
  selectOwnerId : m (Option R)
  /-- `role_id` of a player, `none` when there is no such player. -/
  selectPlayerRole : P → m (Option (Option R))
  /-- The distinct roles that some of the players have. -/
  selectDistinctRoles : List P → m (List R)
  /-- Those of the players that have the role. -/
  selectMembers : R → List P → m (List P)
  countHolders : R → m Nat
  isReferencedByTier : R → m Bool
  insertRole : RoleRow R → List JsString → m Unit
  updateRole : R → UpdateBody → m Unit
  /-- Takes the role from its holders and deletes it. -/
  deleteRole : R → m Unit
  /-- Sets the role of the players, or of those among them that have the role `only`; `expiresAt` is
  in milliseconds. -/
  updatePlayers : (only : Option R) → List P → Option R → (expiresAt : Option Int) → m Unit

structure RoleActor (P R : Type) where
  playerId : P
  permissions : PermissionContext R

/-! ## The role hierarchy -/

section Guards
variable {m : Type → Type} [Monad m] {R P : Type} [DecidableEq R] [DecidableEq P]

def loadRolePermissions (store : RoleStore m R P) (roleId : R) :
    m (Option (PermissionContext R)) := do
  match ← store.selectRole .loadRolePermissions roleId with
  | none => return none
  | some role =>
    let squad ← store.selectSquadPermissions .loadRolePermissions roleId
    let explicit ← store.selectPermissionKeys .loadRolePermissions roleId
    return some (buildRolePermissionContext roleId ⟨role.toRoleColumns, squad⟩ explicit)

def checkGrantsWithinActor (actor : Option (RoleActor P R)) (role : PermissionContext R) :
    Option RouteError :=
  match actor with
  | none => some (.roleExceedsActorPermissions [])
  | some actor =>
    if actor.permissions.isOwner then none
    else
      let missing := grantsBeyond actor.permissions role
      if missing.length > 0 then some (.roleExceedsActorPermissions missing) else none

/-- A missing role passes. -/
def checkRoleWithinActor (store : RoleStore m R P) (actor : Option (RoleActor P R)) (roleId : R) :
    m (Option RouteError) :=
  match actor with
  | none => return some (.roleExceedsActorPermissions [])
  | some actor =>
    if actor.permissions.isOwner then return none
    else do
      match ← loadRolePermissions store roleId with
      | none => return none
      | some role => return checkGrantsWithinActor (some actor) role

/-- `null` removes the role of the players and has nothing to check. -/
def checkNewRoleWithinActor (store : RoleStore m R P) (actor : RoleActor P R) :
    Option R → m (Option RouteError)
  | none => return none
  | some roleId => checkRoleWithinActor store (some actor) roleId

/-- The loop of `checkRoleAssignment` over the current roles of the players. -/
def checkCurrentRoles (store : RoleStore m R P) (actor : RoleActor P R) (newRoleId : Option R) :
    List R → m (Option RouteError)
  | [] => return none
  | roleId :: rest =>
    if some roleId = newRoleId then checkCurrentRoles store actor newRoleId rest
    else do
      match ← loadRolePermissions store roleId with
      | none => checkCurrentRoles store actor newRoleId rest
      | some role =>
        let missing := grantsBeyond actor.permissions role
        if missing.length > 0 then return some (.targetOutranksActor missing)
        else checkCurrentRoles store actor newRoleId rest

def checkRoleAssignment (store : RoleStore m R P) (actor : Option (RoleActor P R))
    (playerIds : List P) (newRoleId : Option R) : m (Option RouteError) :=
  match actor with
  | none => return some (.roleExceedsActorPermissions [])
  | some actor =>
    if actor.permissions.isOwner then return none
    else if actor.playerId ∈ playerIds then return some .cannotChangeOwnRole
    else do
      match ← checkNewRoleWithinActor store actor newRoleId with
      | some refusal => return some refusal
      | none =>
        if playerIds.length = 0 then return none
        else
          let current ← store.selectDistinctRoles playerIds
          checkCurrentRoles store actor newRoleId current

/-! ## The privilege ceiling -/

/-- `can_view_ips`, `squad:ban` or `perm:audit:view`; the names of the flags are those of the
hierarchy. -/
inductive RoleCapability where
  | flag (name : RoleFlagName)
  | squad (key : JsString)
  | perm (key : JsString)
deriving Repr, DecidableEq

def RoleCapability.text : RoleCapability → JsString
  | .flag name => ((HIERARCHY_FLAGS.find? fun entry => entry.1 = name).map Prod.snd).getD []
  | .squad key => js "squad:" ++ key
  | .perm key => js "perm:" ++ key

/-- Everything a role grants its members; of the columns only the flags below are read. -/
structure RoleGrant where
  columns : RoleColumns
  squadPermissions : List JsString
  permissionKeys : List JsString

/-- Flags that need `panel_access` to have an effect count only with it. -/
def FLAG_CAPABILITIES : List (RoleFlagName × (RoleColumns → Bool)) :=
  [(.panelAccess, fun r => r.panelAccess), (.canViewIps, fun r => r.canViewIps),
    (.canAssignRoles, fun r => r.canAssignRoles), (.canEditRoles, fun r => r.canEditRoles),
    (.canManageIssues, fun r => r.canManageIssues),
    (.canManageBanSources, fun r => r.panelAccess && r.canManageBanSources),
    (.canManageIntegrations, fun r => r.canManageIntegrations),
    (.canManageClans, fun r => r.canManageClans),
    (.canManageEconomy, fun r => r.panelAccess && r.canManageEconomy),
    (.canManageMedia, fun r => r.panelAccess && r.canManageMedia),
    (.canHandleReports, fun r => r.canHandleReports),
    (.combatView, fun r => r.panelAccess && r.combatView)]

def roleCapabilities (grant : RoleGrant) : JsSet RoleCapability :=
  .ofList
    (((FLAG_CAPABILITIES.filter fun entry => entry.2 grant.columns).map fun entry =>
        RoleCapability.flag entry.1) ++
      grant.squadPermissions.map .squad ++ grant.permissionKeys.map .perm)

def actorHolds (actor : Option (PermissionContext R)) (capability : RoleCapability) : Bool :=
  match actor with
  | none => false
  | some actor =>
    match capability with
    | .squad key => actor.squadPermissions.has key
    | .perm key => (permissionKey key).any actor.permissions.has
    | .flag name => actor.flag name

/-- Sorted by code units. -/
def capabilitiesBeyondActor (capabilities : List RoleCapability)
    (actor : Option (PermissionContext R)) : List JsString :=
  if actor.any PermissionContext.isOwner then []
  else ((capabilities.filter fun capability => !actorHolds actor capability).map
    RoleCapability.text).mergeSort fun a b => !(b < a)

def loadRoleGrant (store : RoleStore m R P) (roleId : R) : m (Option RoleGrant) := do
  match ← store.selectRole .loadRoleGrant roleId with
  | none => return none
  | some row =>
    let squad ← store.selectSquadPermissions .loadRoleGrant roleId
    let explicit ← store.selectPermissionKeys .loadRoleGrant roleId
    return some ⟨row.toRoleColumns, squad, explicit⟩

def roleGrantBeyondActor (store : RoleStore m R P) (roleId : R)
    (actor : Option (PermissionContext R)) : m (List JsString) := do
  if actor.any PermissionContext.isOwner then return []
  else
    match ← loadRoleGrant store roleId with
    | none => return []
    | some grant => return capabilitiesBeyondActor (roleCapabilities grant).elems actor

end Guards

end SquadPanel.Access
