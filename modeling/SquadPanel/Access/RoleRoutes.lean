import SquadPanel.Access.RoleGuards

/-!
# Routes of role management

The routes that create, edit and delete a role (`routes/roles.ts`) and those
that give a player a role or take it away (`routes/players.ts` and
`routes/role-members`), up to the commit of their transaction.  What follows the
commit (caches, sessions, events, the audit row) and what only goes into the
answer is left out.
-/

namespace SquadPanel.Access

open Js

section Routes
variable {m : Type → Type} [Monad m] [MonadExcept RouteError m]
variable {R P : Type} [DecidableEq R] [DecidableEq P]

def ensure (condition : Bool) (error : RouteError) : m Unit :=
  if condition then pure () else throw error

def orThrow {α : Type} (value : Option α) (error : RouteError) : m α :=
  match value with
  | some a => pure a
  | none => throw error

def refuse (refusal : Option RouteError) : m Unit :=
  match refusal with
  | none => pure ()
  | some error => throw error

/-- `config.permissions`, checked by the auth plugin. -/
def authorize (user : Option (RoleActor P R)) (required : PermissionKey) : m (RoleActor P R) := do
  let actor ← orThrow user .unauthenticated
  ensure (actor.permissions.permissions.has required) (.forbidden required)
  return actor

/-! ## Roles -/

def ensureFlagDependency (columns : RoleColumns) : Option RouteError :=
  if !columns.panelAccess && (columns.canAssignRoles || columns.canEditRoles) then
    some .panelAccessRequiredForRoleManagement
  else if !columns.panelAccess && columns.canViewIps then some .panelAccessRequiredForViewIps
  else none

section
variable (store : RoleStore m R P) (user : Option (RoleActor P R)) (id : R)

/-- `POST /api/v1/roles`; `id` is the new uuid. -/
def postRole (body : CreateBody) : m Unit := do
  let actor ← authorize user .roleCreate
  refuse (ensureFlagDependency body.columns)
  let requested : RoleGrant := ⟨body.columns, body.squadPermissions.1, []⟩
  let beyond :=
    capabilitiesBeyondActor (roleCapabilities requested).elems (some actor.permissions)
  ensure beyond.isEmpty (.roleExceedsActorPermissions beyond)
  let proposed := buildRolePermissionContext id ⟨body.columns, body.squadPermissions.1⟩ []
  refuse (checkGrantsWithinActor (some actor) proposed)
  store.insertRole ⟨body.columns, id⟩ body.squadPermissions.1

/-- `PUT /api/v1/roles/:id`. -/
def putRole (body : UpdateBody) : m Unit := do
  let actor ← authorize user .roleEdit
  let roleRow ← orThrow (← store.selectRole .route id) .roleNotFound
  ensure (!roleRow.isOwner) .ownerRoleImmutable
  ensure (actor.permissions.isOwner || actor.permissions.roleId ≠ some roleRow.id)
    .cannotEditOwnRole
  refuse (← checkRoleWithinActor store (some actor) roleRow.id)
  let currentSquad ← store.selectSquadPermissions .route roleRow.id
  let explicit ← store.selectPermissionKeys .route roleRow.id
  let merged := body.columns roleRow.toRoleColumns
  let proposed := buildRolePermissionContext roleRow.id ⟨merged, body.squad currentSquad⟩ explicit
  refuse (ensureFlagDependency merged)
  let beforeGrant ← orThrow (← loadRoleGrant store id) .roleNotFound
  let afterGrant : RoleGrant :=
    ⟨merged, body.squad beforeGrant.squadPermissions, beforeGrant.permissionKeys⟩
  let newlyGranted := (roleCapabilities afterGrant).elems.filter fun capability =>
    !(roleCapabilities beforeGrant).has capability
  let beyond := capabilitiesBeyondActor newlyGranted (some actor.permissions)
  ensure beyond.isEmpty (.roleExceedsActorPermissions beyond)
  refuse (checkGrantsWithinActor (some actor) proposed)
  store.updateRole id body

/-- `DELETE /api/v1/roles/:id`. -/
def deleteRole : m Unit := do
  let actor ← authorize user .roleDelete
  let deleteTarget ← orThrow (← store.selectRole .route id) .roleNotFound
  ensure (!deleteTarget.isOwner) .ownerRoleImmutable
  refuse (← checkRoleWithinActor store (some actor) deleteTarget.id)
  ensure (!(← store.isReferencedByTier id)) .roleReferencedByVipTier
  store.deleteRole id

end

/-! ## Holders -/

section
variable (store : RoleStore m R P)

/-- Refuses to leave no Owner behind: `losing` of the holders of `ownerId` lose it. -/
def ensureOwnerRemains (ownerId : R) (losing : Nat) : m Unit := do
  ensure (losing < (← store.countHolders ownerId)) .cannotRemoveLastOwner

/-- `wasOwner && !willBeOwner`. -/
def ensureNotLastOwner (ownerId current newRoleId : Option R) : m Unit :=
  match ownerId with
  | none => pure ()
  | some owner =>
    if current = some owner ∧ newRoleId ≠ some owner then ensureOwnerRemains store owner 1
    else pure ()

/-- The role to assign has to exist, and the Owner role is never assigned. -/
def assignableRole (roleId : R) (missing : RouteError) :
    m (RoleRow R) := do
  let role ← orThrow (← store.selectRole .route roleId) missing
  ensure (!role.isOwner) .ownerAssignmentForbidden
  return role

def checkNewRole : Option R → m Unit
  | none => pure ()
  | some roleId => do
    let _ ← assignableRole store roleId .roleNotFound

section
variable (user : Option (RoleActor P R))

/-- `PUT /api/v1/players/:playerId/role` at time `now`. -/
def putPlayerRole (now : Int)
    (playerId : P) (newRoleId : Option R) (roleExpiresAt : Option Int) : m Unit := do
  let actor ← authorize user .userManageRoles
  ensure (roleExpiresAt.all fun expiresAt => now < expiresAt) .roleExpiryMustBeFuture
  checkNewRole store newRoleId
  let ownerId ← store.selectOwnerId
  let current ← orThrow (← store.selectPlayerRole playerId) .playerNotFound
  refuse (← checkRoleAssignment store (some actor) [playerId] newRoleId)
  ensureNotLastOwner store ownerId current newRoleId
  store.updatePlayers none [playerId] newRoleId (newRoleId.bind fun _ => roleExpiresAt)

/-- `DELETE /api/v1/players/:playerId/role`. -/
def deletePlayerRole (playerId : P) :
    m Unit := do
  let actor ← authorize user .userManageRoles
  let ownerId ← store.selectOwnerId
  let current ← orThrow (← store.selectPlayerRole playerId) .playerNotFound
  refuse (← checkRoleAssignment store (some actor) [playerId] none)
  ensureNotLastOwner store ownerId current none
  store.updatePlayers none [playerId] none none

/-- `POST /api/v1/roles/:id/members`. -/
def postRoleMember (id : R)
    (playerId : P) : m Unit := do
  let actor ← authorize user .userManageRoles
  let role ← assignableRole store id .roleNotFound
  let _ ← orThrow (← store.selectPlayerRole playerId) .playerNotFound
  refuse (← checkRoleAssignment store (some actor) [playerId] (some role.id))
  store.updatePlayers none [playerId] (some id) none

/-- `DELETE /api/v1/roles/:id/members/:playerId`; for a player who is no member nothing is left to
remove. -/
def deleteRoleMember (id : R)
    (playerId : P) : m Unit := do
  let actor ← authorize user .userManageRoles
  let role ← orThrow (← store.selectRole .route id) .roleNotFound
  refuse (← checkRoleAssignment store (some actor) [playerId] none)
  if role.isOwner then
    let membership ← store.selectMembers role.id [playerId]
    if membership.isEmpty then pure ()
    else
      ensureOwnerRemains store role.id 1
      store.updatePlayers (some role.id) [playerId] none none
  else store.updatePlayers (some role.id) [playerId] none none

end

def ensureOwnersRemain (role : RoleRow R) (playerIds : List P) :
    m Unit := do
  if role.isOwner then
    let affected ← store.selectMembers role.id playerIds
    ensureOwnerRemains store role.id affected.length
  else pure ()

section
variable (user : Option (RoleActor P R)) (id : R) (playerIds : List P)

/-- `POST /api/v1/roles/:id/members/bulk-delete`. -/
def bulkDeleteMembers : m Unit := do
  let actor ← authorize user .userManageRoles
  let role ← orThrow (← store.selectRole .route id) .roleNotFound
  let members ← store.selectMembers role.id playerIds
  refuse (← checkRoleAssignment store (some actor) members none)
  ensureOwnersRemain store role playerIds
  store.updatePlayers (some role.id) playerIds none none

/-- `POST /api/v1/roles/:id/members/move`. -/
def moveMembers (targetRoleId : R) : m Unit := do
  let actor ← authorize user .userManageRoles
  let source ← orThrow (← store.selectRole .route id) .roleNotFound
  ensure (targetRoleId ≠ id) .targetRoleSameAsSource
  let targetRole ← assignableRole store targetRoleId .targetRoleNotFound
  let beyond ← roleGrantBeyondActor store targetRole.id (some actor.permissions)
  ensure beyond.isEmpty (.roleExceedsActorPermissions beyond)
  let members ← store.selectMembers source.id playerIds
  refuse (← checkRoleAssignment store (some actor) members (some targetRole.id))
  ensureOwnersRemain store source playerIds
  store.updatePlayers (some source.id) playerIds (some targetRole.id) none

end

end

end Routes

end SquadPanel.Access
