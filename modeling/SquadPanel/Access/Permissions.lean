import SquadPanel.Js.Set
import SquadPanel.AdminsCfg.Segment

/-!
# What a role grants

The permission catalogue, the context that the holders of a role get
(`buildRolePermissionContext`), the narrowing of a context to the scopes of an
API token, and the comparison of two contexts (`grantsBeyond`).
-/

namespace SquadPanel.Access

open Js List
open AdminsCfg (SQUAD_PERMISSION_KEYS)

/-! ## The catalogue -/

inductive PermissionKey where
  | serverView
  | serverInstall
  | serverStart
  | serverStop
  | serverForceStop
  | serverRestart
  | serverDelete
  | serverEditSettings
  | serverUpdate
  | serverDownloadLogs
  | configView
  | configEdit
  | configRollback
  | playerView
  | playerViewIps
  | playerManageAltDetection
  | playerViewNotes
  | playerEditNotes
  | playerSetFlags
  | modKick
  | modWarn
  | modBanTemp
  | modBanPerm
  | modUnban
  | banSourceView
  | messageTemplateManage
  | banlistRead
  | adminGroupView
  | adminGroupEdit
  | whitelistView
  | whitelistEdit
  | hostView
  | hostMetrics
  | hostManage
  | auditView
  | auditExport
  | eventsView
  | userView
  | userManageRoles
  | roleView
  | roleCreate
  | roleEdit
  | roleDelete
  | backupView
  | backupTrigger
  | backupRestore
  | apiTokenCreate
  | apiTokenRevoke
  | discordLink
  | integrationManage
  | triggerView
  | triggerEdit
  | schedulerView
  | schedulerEdit
  | balancerView
  | balancerEdit
  | issueView
deriving Repr, DecidableEq

def PermissionKey.text : PermissionKey → JsString
  | .serverView => js "server:view"
  | .serverInstall => js "server:install"
  | .serverStart => js "server:start"
  | .serverStop => js "server:stop"
  | .serverForceStop => js "server:force_stop"
  | .serverRestart => js "server:restart"
  | .serverDelete => js "server:delete"
  | .serverEditSettings => js "server:edit_settings"
  | .serverUpdate => js "server:update"
  | .serverDownloadLogs => js "server:download_logs"
  | .configView => js "config:view"
  | .configEdit => js "config:edit"
  | .configRollback => js "config:rollback"
  | .playerView => js "player:view"
  | .playerViewIps => js "player:view_ips"
  | .playerManageAltDetection => js "player:manage_alt_detection"
  | .playerViewNotes => js "player:view_notes"
  | .playerEditNotes => js "player:edit_notes"
  | .playerSetFlags => js "player:set_flags"
  | .modKick => js "mod:kick"
  | .modWarn => js "mod:warn"
  | .modBanTemp => js "mod:ban_temp"
  | .modBanPerm => js "mod:ban_perm"
  | .modUnban => js "mod:unban"
  | .banSourceView => js "ban_source:view"
  | .messageTemplateManage => js "message_template:manage"
  | .banlistRead => js "banlist:read"
  | .adminGroupView => js "admin_group:view"
  | .adminGroupEdit => js "admin_group:edit"
  | .whitelistView => js "whitelist:view"
  | .whitelistEdit => js "whitelist:edit"
  | .hostView => js "host:view"
  | .hostMetrics => js "host:metrics"
  | .hostManage => js "host:manage"
  | .auditView => js "audit:view"
  | .auditExport => js "audit:export"
  | .eventsView => js "events:view"
  | .userView => js "user:view"
  | .userManageRoles => js "user:manage_roles"
  | .roleView => js "role:view"
  | .roleCreate => js "role:create"
  | .roleEdit => js "role:edit"
  | .roleDelete => js "role:delete"
  | .backupView => js "backup:view"
  | .backupTrigger => js "backup:trigger"
  | .backupRestore => js "backup:restore"
  | .apiTokenCreate => js "api_token:create"
  | .apiTokenRevoke => js "api_token:revoke"
  | .discordLink => js "discord:link"
  | .integrationManage => js "integration:manage"
  | .triggerView => js "trigger:view"
  | .triggerEdit => js "trigger:edit"
  | .schedulerView => js "scheduler:view"
  | .schedulerEdit => js "scheduler:edit"
  | .balancerView => js "balancer:view"
  | .balancerEdit => js "balancer:edit"
  | .issueView => js "issue:view"

def PERMISSION_KEYS : List PermissionKey :=
  [.serverView, .serverInstall, .serverStart, .serverStop, .serverForceStop, .serverRestart,
    .serverDelete, .serverEditSettings, .serverUpdate, .serverDownloadLogs, .configView,
    .configEdit, .configRollback, .playerView, .playerViewIps, .playerManageAltDetection,
    .playerViewNotes, .playerEditNotes, .playerSetFlags, .modKick, .modWarn, .modBanTemp,
    .modBanPerm, .modUnban, .banSourceView, .messageTemplateManage, .banlistRead,
    .adminGroupView, .adminGroupEdit, .whitelistView, .whitelistEdit, .hostView, .hostMetrics,
    .hostManage, .auditView, .auditExport, .eventsView, .userView, .userManageRoles, .roleView,
    .roleCreate, .roleEdit, .roleDelete, .backupView, .backupTrigger, .backupRestore,
    .apiTokenCreate, .apiTokenRevoke, .discordLink, .integrationManage, .triggerView,
    .triggerEdit, .schedulerView, .schedulerEdit, .balancerView, .balancerEdit, .issueView]

/-- `isPermissionKey`, with the key it narrows to. -/
def permissionKey (x : JsString) : Option PermissionKey :=
  PERMISSION_KEYS.find? fun key => key.text = x

/-! ## Roles and contexts -/

/-- The grant-bearing columns of a `roles` row. -/
structure RoleColumns where
  name : JsString
  isSystemRole : Bool
  panelAccess : Bool
  canViewIps : Bool
  canAssignRoles : Bool
  canEditRoles : Bool
  canManageIssues : Bool
  canManageBanSources : Bool
  canManageIntegrations : Bool
  canManageClans : Bool
  canManageEconomy : Bool
  canManageMedia : Bool
  canHandleReports : Bool
  canManageInfrastructure : Bool
  combatView : Bool
deriving Repr, DecidableEq

/-- The columns with the live-Squad permissions of the role. -/
structure RoleGrantDefinition extends RoleColumns where
  squadPermissions : List JsString
deriving Repr, DecidableEq

structure PermissionContext (R : Type) where
  permissions : JsSet PermissionKey
  squadPermissions : JsSet JsString
  roleId : Option R
  roleName : Option JsString
  panelAccess : Bool
  canViewIps : Bool
  canAssignRoles : Bool
  canEditRoles : Bool
  canManageIssues : Bool
  canManageBanSources : Bool
  canManageIntegrations : Bool
  canManageClans : Bool
  canManageEconomy : Bool
  canManageMedia : Bool
  canHandleReports : Bool
  combatView : Bool
  isOwner : Bool

/-- The boolean fields of a context. -/
inductive RoleFlagName where
  | panelAccess
  | canViewIps
  | canAssignRoles
  | canEditRoles
  | canManageIssues
  | canManageBanSources
  | canManageIntegrations
  | canManageClans
  | canManageEconomy
  | canManageMedia
  | canHandleReports
  | combatView
  | isOwner
deriving Repr, DecidableEq

namespace PermissionContext

variable {R : Type}

/-- `ctx[flag]`. -/
def flag (ctx : PermissionContext R) : RoleFlagName → Bool
  | .panelAccess => ctx.panelAccess
  | .canViewIps => ctx.canViewIps
  | .canAssignRoles => ctx.canAssignRoles
  | .canEditRoles => ctx.canEditRoles
  | .canManageIssues => ctx.canManageIssues
  | .canManageBanSources => ctx.canManageBanSources
  | .canManageIntegrations => ctx.canManageIntegrations
  | .canManageClans => ctx.canManageClans
  | .canManageEconomy => ctx.canManageEconomy
  | .canManageMedia => ctx.canManageMedia
  | .canHandleReports => ctx.canHandleReports
  | .combatView => ctx.combatView
  | .isOwner => ctx.isOwner

/-- The context of a player without a role. -/
def empty : PermissionContext R where
  permissions := .empty
  squadPermissions := .empty
  roleId := none
  roleName := none
  panelAccess := false
  canViewIps := false
  canAssignRoles := false
  canEditRoles := false
  canManageIssues := false
  canManageBanSources := false
  canManageIntegrations := false
  canManageClans := false
  canManageEconomy := false
  canManageMedia := false
  canHandleReports := false
  combatView := false
  isOwner := false

end PermissionContext

/-! ## The context of a role -/

def PANEL_PERMS_GATED_BY_ASSIGN : List PermissionKey := [.userManageRoles]

def PANEL_PERMS_GATED_BY_EDIT : List PermissionKey := [.roleCreate, .roleEdit, .roleDelete]

def PANEL_PERMS_GATED_BY_TRIGGER_EDIT : List PermissionKey := [.triggerEdit]

def PANEL_PERMS_GATED_BY_EDIT_OR_GRANT : List PermissionKey := [.messageTemplateManage]

def PANEL_PERMS_GATED_BY_INTEGRATIONS : List PermissionKey := [.integrationManage]

def PANEL_PERMS_GATED_BY_VIEW_IPS : List PermissionKey := [.playerViewIps]

def PANEL_PERMS_GATED_BY_VIEW_IPS_AND_EDIT : List PermissionKey := [.playerManageAltDetection]

def PANEL_PERMS_GATED_BY_SQUAD_KICK : List PermissionKey := [.modKick, .modWarn]

def PANEL_PERMS_GATED_BY_SQUAD_BAN : List PermissionKey := [.modBanTemp, .modBanPerm, .modUnban]

def PANEL_PERMS_GATED_BY_INFRASTRUCTURE : List PermissionKey :=
  [.hostManage, .serverInstall, .serverDelete, .serverForceStop, .serverUpdate, .configEdit,
    .configRollback, .adminGroupEdit, .apiTokenCreate, .backupRestore]

/-- Gated keys that an explicit `role_permissions` row grants without the flag. -/
def EXPLICITLY_GRANTABLE_GATED_KEYS : List PermissionKey :=
  PANEL_PERMS_GATED_BY_TRIGGER_EDIT ++ PANEL_PERMS_GATED_BY_EDIT_OR_GRANT

structure RoleFlagGates where
  canAssignRoles : Bool
  canEditRoles : Bool
  canManageIntegrations : Bool
  canViewIps : Bool
  canManageInfrastructure : Bool
  squadPermissions : JsSet JsString

def keyPassesFlagGates (key : PermissionKey) (flags : RoleFlagGates) : Bool :=
  if key ∈ PANEL_PERMS_GATED_BY_ASSIGN && !flags.canAssignRoles then false
  else if key ∈ PANEL_PERMS_GATED_BY_EDIT && !flags.canEditRoles then false
  else if key ∈ PANEL_PERMS_GATED_BY_TRIGGER_EDIT && !flags.canEditRoles then false
  else if key ∈ PANEL_PERMS_GATED_BY_EDIT_OR_GRANT && !flags.canEditRoles then false
  else if key ∈ PANEL_PERMS_GATED_BY_INTEGRATIONS && !flags.canManageIntegrations then false
  else if key ∈ PANEL_PERMS_GATED_BY_VIEW_IPS && !flags.canViewIps then false
  else if key ∈ PANEL_PERMS_GATED_BY_VIEW_IPS_AND_EDIT &&
      !(flags.canViewIps && flags.canEditRoles) then false
  else if key ∈ PANEL_PERMS_GATED_BY_SQUAD_KICK && !flags.squadPermissions.has (js "kick") then
    false
  else if key ∈ PANEL_PERMS_GATED_BY_SQUAD_BAN && !flags.squadPermissions.has (js "ban") then false
  else if key ∈ PANEL_PERMS_GATED_BY_INFRASTRUCTURE && !flags.canManageInfrastructure then false
  else true

def derivePanelPermissions (panelAccess isOwner : Bool) (flags : RoleFlagGates) :
    JsSet PermissionKey :=
  if isOwner then .ofList PERMISSION_KEYS
  else if !panelAccess then .empty
  else .ofList (PERMISSION_KEYS.filter fun key => keyPassesFlagGates key flags)

/-- An explicit row passes the gates of the derived set, unless its key is one that is meant to be
granted explicitly. -/
def addExplicitKey (flags : RoleFlagGates) (permissions : JsSet PermissionKey) (row : JsString) :
    JsSet PermissionKey :=
  match permissionKey row with
  | none => permissions
  | some key =>
    if key ∈ EXPLICITLY_GRANTABLE_GATED_KEYS || keyPassesFlagGates key flags then
      permissions.add key
    else permissions

section Contexts
variable {R : Type}

/-- The system Owner role. -/
def RoleColumns.isOwner (role : RoleColumns) : Bool := role.name == js "Owner" && role.isSystemRole

def buildRolePermissionContext (roleId : R) (role : RoleGrantDefinition)
    (explicitKeys : List JsString) : PermissionContext R :=
  let isOwner := role.isOwner
  let panelAccess := isOwner || role.panelAccess
  let canViewIps := isOwner || role.canViewIps
  let canAssignRoles := isOwner || role.canAssignRoles
  let canEditRoles := isOwner || role.canEditRoles
  let canManageIntegrations := isOwner || role.canManageIntegrations
  let squadPermissions : JsSet JsString :=
    if isOwner then .ofList SQUAD_PERMISSION_KEYS
    else .ofList (role.squadPermissions.filter fun key => !key.isEmpty)
  let flags : RoleFlagGates :=
    { canAssignRoles := canAssignRoles
      canEditRoles := canEditRoles
      canManageIntegrations := canManageIntegrations
      canViewIps := canViewIps
      canManageInfrastructure := isOwner || role.canManageInfrastructure
      squadPermissions := squadPermissions }
  { permissions :=
      explicitKeys.foldl (addExplicitKey flags) (derivePanelPermissions panelAccess isOwner flags)
    squadPermissions := squadPermissions
    roleId := some roleId
    roleName := some role.name
    panelAccess := panelAccess
    canViewIps := canViewIps
    canAssignRoles := canAssignRoles
    canEditRoles := canEditRoles
    canManageIssues := isOwner || role.canManageIssues
    canManageBanSources := isOwner || (panelAccess && role.canManageBanSources)
    canManageIntegrations := canManageIntegrations
    canManageClans := isOwner || role.canManageClans
    canManageEconomy := isOwner || (panelAccess && role.canManageEconomy)
    canManageMedia := isOwner || (panelAccess && role.canManageMedia)
    canHandleReports := isOwner || role.canHandleReports
    combatView := isOwner || (panelAccess && role.combatView)
    isOwner := isOwner }

/-! ## Comparing contexts -/

def HIERARCHY_FLAGS : List (RoleFlagName × JsString) :=
  [(.isOwner, js "owner"), (.panelAccess, js "panel_access"), (.canViewIps, js "can_view_ips"),
    (.canAssignRoles, js "can_assign_roles"), (.canEditRoles, js "can_edit_roles"),
    (.canManageIssues, js "can_manage_issues"),
    (.canManageBanSources, js "can_manage_ban_sources"),
    (.canManageIntegrations, js "can_manage_integrations"),
    (.canManageClans, js "can_manage_clans"), (.canManageEconomy, js "can_manage_economy"),
    (.canManageMedia, js "can_manage_media"), (.canHandleReports, js "can_handle_reports"),
    (.combatView, js "combat_view")]

/-- The labels of what `target` carries and `actor` lacks. -/
def grantsBeyond (actor target : PermissionContext R) : List JsString :=
  (HIERARCHY_FLAGS.filter fun entry => target.flag entry.1 && !actor.flag entry.1).map Prod.snd ++
  (target.permissions.elems.filter fun key => !actor.permissions.has key).map
    (fun key => js "permission:" ++ key.text) ++
  (target.squadPermissions.elems.filter fun key => !actor.squadPermissions.has key).map
    (fun key => js "squad:" ++ key)

/-- One thing that a context can carry. -/
inductive Grant where
  | flag (name : RoleFlagName)
  | permission (key : PermissionKey)
  | squad (key : JsString)
deriving Repr, DecidableEq

def PermissionContext.Holds (ctx : PermissionContext R) : Grant → Prop
  | .flag name => ctx.flag name = true
  | .permission key => key ∈ ctx.permissions
  | .squad key => key ∈ ctx.squadPermissions

/-- `target` ⊆ `actor`. -/
def PermissionContext.Within (target actor : PermissionContext R) : Prop :=
  ∀ grant, target.Holds grant → actor.Holds grant

theorem PermissionContext.not_holds_empty (grant : Grant) :
    ¬ (PermissionContext.empty : PermissionContext R).Holds grant := by
  cases grant with
  | flag name => cases name <;> exact Bool.false_ne_true
  | permission key | squad key => exact JsSet.not_mem_empty key

theorem mem_hierarchyFlags (name : RoleFlagName) : ∃ label, (name, label) ∈ HIERARCHY_FLAGS := by
  cases name <;> simp [HIERARCHY_FLAGS]

theorem grantsBeyond_eq_nil_iff {actor target : PermissionContext R} :
    grantsBeyond actor target = [] ↔ target.Within actor := by
  simp only [grantsBeyond, append_eq_nil_iff, map_eq_nil_iff, filter_eq_nil_iff,
    Bool.and_eq_true, Bool.not_eq_true', not_and, Bool.not_eq_false, JsSet.has_eq_true]
  constructor
  · rintro ⟨⟨hflags, hpermissions⟩, hsquad⟩ grant hheld
    cases grant with
    | flag name =>
      obtain ⟨label, hmem⟩ := mem_hierarchyFlags name
      exact hflags (name, label) hmem hheld
    | permission key => exact hpermissions key hheld
    | squad key => exact hsquad key hheld
  · intro hwithin
    exact ⟨⟨fun entry _ hheld => hwithin (.flag entry.1) hheld,
      fun key hheld => hwithin (.permission key) hheld⟩,
      fun key hheld => hwithin (.squad key) hheld⟩

/-! ## API tokens -/

def intersectScopes (scopes : List JsString) (granted : JsSet PermissionKey) :
    JsSet PermissionKey :=
  .ofList ((scopes.filterMap permissionKey).filter granted.has)

section
variable (role : PermissionContext R) (scopes : List JsString)

/-- The context of a token's owner narrowed to what the token delegates. -/
def narrowToTokenScopes :
    PermissionContext R :=
  let permissions := intersectScopes scopes role.permissions
  let delegates (keys : List PermissionKey) : Bool := keys.all permissions.has
  let kick := role.squadPermissions.has (js "kick") && delegates PANEL_PERMS_GATED_BY_SQUAD_KICK
  let ban := role.squadPermissions.has (js "ban") && delegates PANEL_PERMS_GATED_BY_SQUAD_BAN
  { permissions := permissions
    squadPermissions :=
      .ofList ((if kick then [js "kick"] else []) ++ (if ban then [js "ban"] else []))
    roleId := role.roleId
    roleName := role.roleName
    panelAccess := role.panelAccess && !permissions.elems.isEmpty
    canViewIps := role.canViewIps && delegates PANEL_PERMS_GATED_BY_VIEW_IPS
    canAssignRoles := role.canAssignRoles && delegates PANEL_PERMS_GATED_BY_ASSIGN
    canEditRoles := role.canEditRoles && delegates PANEL_PERMS_GATED_BY_EDIT
    canManageIssues := false
    canManageBanSources := false
    canManageIntegrations :=
      role.canManageIntegrations && delegates PANEL_PERMS_GATED_BY_INTEGRATIONS
    canManageClans := false
    canManageEconomy := false
    canManageMedia := false
    canHandleReports := false
    combatView := false
    isOwner := false }

end

/-- The keys that a token needs for a grant of its owner; `none` is never delegated. -/
def gatedKeys : Grant → Option (List PermissionKey)
  | .flag .canViewIps => some PANEL_PERMS_GATED_BY_VIEW_IPS
  | .flag .canAssignRoles => some PANEL_PERMS_GATED_BY_ASSIGN
  | .flag .canEditRoles => some PANEL_PERMS_GATED_BY_EDIT
  | .flag .canManageIntegrations => some PANEL_PERMS_GATED_BY_INTEGRATIONS
  | .flag _ => none
  | .permission key => some [key]
  | .squad key =>
    if key = js "kick" then some PANEL_PERMS_GATED_BY_SQUAD_KICK
    else if key = js "ban" then some PANEL_PERMS_GATED_BY_SQUAD_BAN
    else none

/-- Access to the panel comes with any key. -/
def Delegated (keep : PermissionKey → Prop) (grant : Grant) : Prop :=
  grant = .flag .panelAccess ∧ (∃ key, keep key) ∨
    ∃ keys, gatedKeys grant = some keys ∧ ∀ key ∈ keys, keep key

theorem Delegated.mono {keep keep' : PermissionKey → Prop} {grant : Grant}
    (hle : ∀ key, keep key → keep' key) (h : Delegated keep grant) : Delegated keep' grant := by
  rcases h with ⟨hpanel, key, hkey⟩ | ⟨keys, hgated, hkeys⟩
  · exact .inl ⟨hpanel, key, hle key hkey⟩
  · exact .inr ⟨keys, hgated, fun key hkey => hle key (hkeys key hkey)⟩

theorem permissionKey_eq_some_iff {x : JsString} {key : PermissionKey} :
    permissionKey x = some key ↔ x = key.text := by
  constructor
  · intro hfound
    have htext := find?_some hfound
    simpa [eq_comm] using htext
  · rintro rfl
    cases key <;> rfl

variable {role role' : PermissionContext R} {scopes scopes' : List JsString} {grant : Grant}

theorem mem_intersectScopes {granted : JsSet PermissionKey} {key : PermissionKey} :
    key ∈ intersectScopes scopes granted ↔ key.text ∈ scopes ∧ key ∈ granted := by
  simp only [intersectScopes, JsSet.mem_ofList, mem_filter, mem_filterMap, JsSet.has_eq_true,
    permissionKey_eq_some_iff, exists_eq_right]

theorem holds_narrowToTokenScopes : (narrowToTokenScopes role scopes).Holds grant ↔
    role.Holds grant ∧ Delegated (fun key => key.text ∈ scopes ∧ key ∈ role.permissions) grant := by
  cases grant with
  | flag name =>
    cases name with
    | panelAccess =>
      have hsome : (intersectScopes scopes role.permissions).elems ≠ [] ↔
          ∃ key : PermissionKey, key.text ∈ scopes ∧ key ∈ role.permissions := by
        simp only [← mem_intersectScopes]
        exact ⟨exists_mem_of_ne_nil _, fun ⟨_, hkey⟩ => ne_nil_of_mem hkey⟩
      simpa [PermissionContext.Holds, PermissionContext.flag, narrowToTokenScopes, Delegated,
        gatedKeys] using fun _ => hsome
    | _ =>
      simp [PermissionContext.Holds, PermissionContext.flag, narrowToTokenScopes, Delegated,
        gatedKeys, mem_intersectScopes]
  | permission key =>
    simp [PermissionContext.Holds, narrowToTokenScopes, Delegated, gatedKeys, mem_intersectScopes]
  | squad key =>
    simp only [PermissionContext.Holds, narrowToTokenScopes, Delegated, gatedKeys, JsSet.mem_ofList,
      mem_append, mem_ite_nil_right, mem_singleton, Bool.and_eq_true, JsSet.has_eq_true,
      all_eq_true, mem_intersectScopes]
    have hne : js "ban" ≠ js "kick" := by decide
    by_cases hkick : key = js "kick"
    · simp [hkick, hne.symm]
    · by_cases hban : key = js "ban" <;> simp [hkick, hban, hne]

theorem narrowToTokenScopes_within (role : PermissionContext R) (scopes : List JsString) :
    (narrowToTokenScopes role scopes).Within role :=
  fun _ hheld => (holds_narrowToTokenScopes.1 hheld).1

/-- Two contexts with the same fields, sets compared by their elements. -/
def PermissionContext.Same (a b : PermissionContext R) : Prop :=
  a.roleId = b.roleId ∧ a.roleName = b.roleName ∧ ∀ grant, a.Holds grant ↔ b.Holds grant

theorem narrowToTokenScopes_narrow {both : List JsString}
    (hboth : ∀ x, x ∈ both ↔ x ∈ scopes ∧ x ∈ scopes') :
    (narrowToTokenScopes (narrowToTokenScopes role scopes) scopes').Same
      (narrowToTokenScopes role both) := by
  have hkeys (key : PermissionKey) : key ∈ (narrowToTokenScopes role scopes).permissions ↔
      key.text ∈ scopes ∧ key ∈ role.permissions := mem_intersectScopes
  refine ⟨rfl, rfl, fun grant => ?_⟩
  simp only [holds_narrowToTokenScopes, hboth, hkeys]
  constructor
  · rintro ⟨⟨hheld, -⟩, hdelegated⟩
    exact ⟨hheld, hdelegated.mono fun key h => ⟨⟨h.2.1, h.1⟩, h.2.2⟩⟩
  · rintro ⟨hheld, hdelegated⟩
    exact ⟨⟨hheld, hdelegated.mono fun key h => ⟨h.1.1, h.2⟩⟩,
      hdelegated.mono fun key h => ⟨h.1.2, h.1.1, h.2⟩⟩

/-- Narrowing twice is narrowing to the common scopes; a token never exceeds its owner, is never
Owner, and has no less under a larger role or more scopes. -/
theorem narrowToTokenScopes_spec (role : PermissionContext R) (scopes scopes' : List JsString) :
    (∀ both : List JsString, (∀ x, x ∈ both ↔ x ∈ scopes ∧ x ∈ scopes') →
      (narrowToTokenScopes (narrowToTokenScopes role scopes) scopes').Same
        (narrowToTokenScopes role both)) ∧
    grantsBeyond role (narrowToTokenScopes role scopes) = [] ∧
    (narrowToTokenScopes role scopes).isOwner = false ∧
    ∀ role' : PermissionContext R, role.Within role' → scopes ⊆ scopes' →
      (narrowToTokenScopes role scopes).Within (narrowToTokenScopes role' scopes') := by
  refine ⟨fun _ hboth => narrowToTokenScopes_narrow hboth,
    grantsBeyond_eq_nil_iff.2 (narrowToTokenScopes_within role scopes), rfl, ?_⟩
  intro role' hrole hscopes grant hheld
  obtain ⟨hold, hdelegated⟩ := holds_narrowToTokenScopes.1 hheld
  refine holds_narrowToTokenScopes.2 ⟨hrole grant hold, hdelegated.mono fun key hkey => ?_⟩
  exact ⟨hscopes hkey.1, hrole (.permission key) hkey.2⟩

def ipViewer : PermissionContext Nat :=
  { PermissionContext.empty with permissions := .ofList [.playerViewIps], canViewIps := true }

theorem narrowToTokenScopes_spec_ipViewer :
    (narrowToTokenScopes (narrowToTokenScopes ipViewer [js "player:view_ips"])
      [js "audit:view", js "player:view_ips"]).Same
      (narrowToTokenScopes ipViewer [js "player:view_ips"]) ∧
    (narrowToTokenScopes ipViewer []).Within (narrowToTokenScopes ipViewer [js "audit:view"]) :=
  ⟨(narrowToTokenScopes_spec _ _ _).1 _ (by simp +contextual),
    (narrowToTokenScopes_spec _ _ _).2.2.2 _ (fun _ h => h) (nil_subset _)⟩

end Contexts

end SquadPanel.Access
