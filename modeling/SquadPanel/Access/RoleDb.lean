import Mathlib.Data.List.Dedup
import Mathlib.Tactic.Simps.Basic
import SquadPanel.Access.RoleRoutes

/-!
# The role tables

`roles` with the rows of `role_squad_permissions` and `role_permissions` that
belong to each role, and the role columns of `players`.  `atomicStore` is the
database that a request has for itself: an error leaves it as it was.
-/

set_option linter.unusedSectionVars false

namespace SquadPanel.Access

open Js List

structure StoredRole (R : Type) extends RoleRow R where
  squadPermissions : List JsString
  permissionKeys : List JsString
deriving Repr, DecidableEq

structure PlayerRow (P R : Type) where
  id : P
  roleId : Option R
  roleExpiresAt : Option Int
deriving Repr, DecidableEq

structure RolesDb (R P : Type) where
  roles : List (StoredRole R)
  players : List (PlayerRow P R)
  /-- `role_id` of the VIP tiers. -/
  tierRoles : List R
deriving Repr, DecidableEq

section Db
variable {R P : Type} [DecidableEq R] [DecidableEq P]

def StoredRole.context (role : StoredRole R) : PermissionContext R :=
  buildRolePermissionContext role.id ⟨role.toRoleColumns, role.squadPermissions⟩
    role.permissionKeys

def StoredRole.update (role : StoredRole R) (body : UpdateBody) : StoredRole R :=
  { role with
    toRoleColumns := body.columns role.toRoleColumns
    squadPermissions := body.squad role.squadPermissions }

namespace RolesDb

section
variable (db : RolesDb R P) (id : R)

def role : Option (StoredRole R) :=
  db.roles.find? fun role => role.id = id

def player (id : P) : Option (PlayerRow P R) :=
  db.players.find? fun player => player.id = id

/-- The context that the role grants, `none` when there is no such role. -/
def roleContext : Option (PermissionContext R) :=
  (db.role id).map StoredRole.context

/-- The role, if it is there, grants nothing beyond the bound. -/
abbrev RoleWithin (bound : PermissionContext R) : Prop :=
  ∀ context, db.roleContext id = some context → context.Within bound

/-- `roles_name_key`: the name belongs to another role. -/
def nameTaken (name : JsString) : Bool :=
  db.roles.any fun role => role.id ≠ id && role.name = name

def insertRole (row : RoleRow R) (squad : List JsString) : RolesDb R P :=
  { db with roles := db.roles ++ [⟨row, squad, []⟩] }

def updateRole (body : UpdateBody) : RolesDb R P :=
  { db with roles := db.roles.map fun role => if role.id = id then role.update body else role }

def deleteRole : RolesDb R P :=
  { db with
    roles := db.roles.filter fun role => role.id ≠ id
    players := db.players.map fun player =>
      if player.roleId = some id then { player with roleId := none, roleExpiresAt := none }
      else player }

def updatePlayers (only : Option R) (ids : List P) (roleId : Option R)
    (expiresAt : Option Int) : RolesDb R P :=
  { db with
    players := db.players.map fun player =>
      if player.id ∈ ids ∧ (only = none ∨ player.roleId = only) then
        { player with roleId := roleId, roleExpiresAt := expiresAt }
      else player }

/-- The role of a player with its expiry. -/
def held (p : P) : Option (PermissionContext R × Option Int) :=
  (db.player p).bind fun player => player.roleId.bind fun roleId =>
    (db.roleContext roleId).map fun context => (context, player.roleExpiresAt)

/-- `loadUserPermissions` at time `now`; an expired role grants nothing. -/
def loadUserPermissions (now : Int) (p : P) : PermissionContext R :=
  match db.held p with
  | some (context, expiresAt) =>
    if expiresAt.all fun expiresAt => now < expiresAt then context else .empty
  | none => .empty

end

end RolesDb

/-! ## Writes -/

section Writes
variable {db : RolesDb R P}

theorem role_insertRole (row : RoleRow R) (squad : List JsString) (r : R) :
    (db.insertRole row squad).role r =
      (db.role r).or (if row.id = r then some ⟨row, squad, []⟩ else none) := by
  simp only [RolesDb.role, RolesDb.insertRole, find?_append, find?_singleton, decide_eq_true_eq]

theorem role_updateRole (id : R) (body : UpdateBody) (r : R) : (db.updateRole id body).role r =
      (db.role r).map fun role => if role.id = id then role.update body else role := by
  have hid (role : StoredRole R) :
      (if role.id = id then role.update body else role).id = role.id := by
    split <;> rfl
  simp only [RolesDb.role, RolesDb.updateRole, find?_map, Function.comp_def, hid]

theorem role_deleteRole (id r : R) :
    (db.deleteRole id).role r = if r = id then none else db.role r := by
  simp only [RolesDb.role, RolesDb.deleteRole, find?_filter]
  split
  · next heq =>
    rw [find?_eq_none]
    rintro role - hrole
    simp_all
  · next hne =>
    congr 1
    funext role
    by_cases hr : role.id = r
    · simp [hr, hne]
    · simp [hr]

theorem player_deleteRole (id : R) (p : P) :
    (db.deleteRole id).player p = (db.player p).map fun player =>
      if player.roleId = some id then { player with roleId := none, roleExpiresAt := none }
      else player := by
  have hid (player : PlayerRow P R) :
      (if player.roleId = some id then { player with roleId := none, roleExpiresAt := none }
        else player).id = player.id := by
    split <;> rfl
  simp only [RolesDb.player, RolesDb.deleteRole, find?_map, Function.comp_def, hid]

theorem player_updatePlayers (only : Option R) (ids : List P) (roleId : Option R)
    (expiresAt : Option Int) (p : P) :
    (db.updatePlayers only ids roleId expiresAt).player p = (db.player p).map fun player =>
      if player.id ∈ ids ∧ (only = none ∨ player.roleId = only) then
        { player with roleId := roleId, roleExpiresAt := expiresAt }
      else player := by
  have hid (player : PlayerRow P R) :
      (if player.id ∈ ids ∧ (only = none ∨ player.roleId = only) then
        { player with roleId := roleId, roleExpiresAt := expiresAt } else player).id =
        player.id := by
    split <;> rfl
  simp only [RolesDb.player, RolesDb.updatePlayers, find?_map, Function.comp_def, hid]

end Writes

/-! ## A request on its own -/

abbrev RoleM (R P : Type) := StateT (RolesDb R P) (Except RouteError)

def ask {α : Type} (f : RolesDb R P → α) : RoleM R P α := fun db => .ok (f db, db)

def write (taken : RolesDb R P → Option RouteError) (f : RolesDb R P → RolesDb R P) :
    RoleM R P Unit := fun db =>
  match taken db with
  | some error => .error error
  | none => .ok ((), f db)

@[simps]
def atomicStore : RoleStore (RoleM R P) R P where
  selectRole _ id := ask fun db => (db.role id).map StoredRole.toRoleRow
  selectSquadPermissions _ id :=
    ask fun db => ((db.role id).map StoredRole.squadPermissions).getD []
  selectPermissionKeys _ id := ask fun db => ((db.role id).map StoredRole.permissionKeys).getD []
  selectOwnerId := ask fun db => (db.roles.find? fun role => role.isOwner).map (·.id)
  selectPlayerRole p := ask fun db => (db.player p).map PlayerRow.roleId
  selectDistinctRoles ids := ask fun db =>
    ((db.players.filter fun player => player.id ∈ ids).filterMap PlayerRow.roleId).dedup
  selectMembers id ids := ask fun db =>
    (db.players.filter fun player => player.id ∈ ids ∧ player.roleId = some id).map PlayerRow.id
  countHolders id := ask fun db => (db.players.filter fun player => player.roleId = some id).length
  isReferencedByTier id := ask fun db => decide (id ∈ db.tierRoles)
  insertRole row squad := write
    (fun db =>
      if (db.role row.id).isSome then some .internal
      else if db.nameTaken row.id row.name then some .roleNameTaken
      else none)
    fun db => db.insertRole row squad
  updateRole id body := write
    (fun db => body.name.bind fun name =>
      if db.nameTaken id name.1 then some .roleNameTaken else none)
    fun db => db.updateRole id body
  deleteRole id := write (fun _ => none) fun db => db.deleteRole id
  updatePlayers only ids roleId expiresAt :=
    write (fun _ => none) fun db => db.updatePlayers only ids roleId expiresAt

/-! ## What a request that succeeds has seen -/

section Answers
variable {α β : Type} {db db' : RolesDb R P} {f : α → RoleM R P β} {b : β} {p : RoleM R P α}
  {error : RouteError} {id : R} {actor : RoleActor P R} {newRoleId : Option R}

theorem bind_eq_ok :
    (p >>= f) db = .ok (b, db') ↔ ∃ a db₁, p db = .ok (a, db₁) ∧ f a db₁ = .ok (b, db') := by
  simp only [bind, StateT.bind, Except.bind]
  cases hp : p db with
  | error error => simp
  | ok answer =>
    obtain ⟨a, db₁⟩ := answer
    simp

theorem pure_eq_ok {a b : α} : (pure a : RoleM R P α) db = .ok (b, db') ↔ b = a ∧ db' = db := by
  show Except.ok (a, db) = .ok (b, db') ↔ _
  simp [eq_comm]

theorem throw_ne_ok {b : α} : (throw error : RoleM R P α) db ≠ .ok (b, db') := by
  intro h
  cases h

theorem ask_eq_ok {f : RolesDb R P → α} {b : α} :
    ask f db = .ok (b, db') ↔ b = f db ∧ db' = db := by
  unfold ask
  simp [eq_comm]

theorem write_eq_ok {taken : RolesDb R P → Option RouteError} {f : RolesDb R P → RolesDb R P}
    {u : Unit} : write taken f db = .ok (u, db') ↔ taken db = none ∧ db' = f db := by
  unfold write
  cases taken db <;> simp [eq_comm]

theorem bind_ask_eq_ok {g : RolesDb R P → α} :
    (ask g >>= f) db = .ok (b, db') ↔ f (g db) db = .ok (b, db') := by
  simp [bind_eq_ok, ask_eq_ok]

theorem bind_ensure_eq_ok {condition : Bool} {f : Unit → RoleM R P β} :
    (ensure condition error >>= f) db = .ok (b, db') ↔
      condition = true ∧ f () db = .ok (b, db') := by
  cases condition with
  | false => simp [ensure, bind_eq_ok, throw_ne_ok]
  | true => simp [ensure]

theorem bind_orThrow_eq_ok {value : Option α} : (orThrow value error >>= f) db = .ok (b, db') ↔
      ∃ a, value = some a ∧ f a db = .ok (b, db') := by
  cases value with
  | none => simp [orThrow, bind_eq_ok, throw_ne_ok]
  | some a => simp [orThrow]

theorem bind_refuse_eq_ok {refusal : Option RouteError} {f : Unit → RoleM R P β} :
    (refuse refusal >>= f) db = .ok (b, db') ↔ refusal = none ∧ f () db = .ok (b, db') := by
  cases refusal with
  | none => simp [refuse]
  | some error => simp [refuse, bind_eq_ok, throw_ne_ok]

theorem bind_authorize_eq_ok {actor : RoleActor P R} {required : PermissionKey}
    {f : RoleActor P R → RoleM R P β} : (authorize (some actor) required >>= f) db = .ok (b, db') ↔
      actor.permissions.permissions.has required = true ∧ f actor db = .ok (b, db') := by
  simp only [authorize, bind_assoc, bind_orThrow_eq_ok, bind_ensure_eq_ok, pure_bind,
    Option.some_inj, exists_eq_left']

theorem RolesDb.role_id {role : StoredRole R} (hrole : db.role id = some role) : role.id = id := by
  have hfound := find?_some hrole
  simpa using hfound

theorem loadRolePermissions_eq_ok {context : Option (PermissionContext R)} :
    loadRolePermissions atomicStore id db = .ok (context, db') ↔
      context = db.roleContext id ∧ db' = db := by
  simp only [loadRolePermissions, atomicStore, bind_ask_eq_ok, RolesDb.roleContext]
  cases hrole : db.role id with
  | none => simp [pure_eq_ok]
  | some role =>
    simp only [hrole, Option.map_some, bind_ask_eq_ok, pure_eq_ok, Option.getD_some,
      StoredRole.context, RolesDb.role_id hrole]

omit [DecidableEq R] [DecidableEq P] in
theorem checkGrantsWithinActor_eq_none {role : PermissionContext R}
    (howner : actor.permissions.isOwner = false) :
    checkGrantsWithinActor (some actor) role = none ↔ role.Within actor.permissions := by
  rw [← grantsBeyond_eq_nil_iff]
  simp [checkGrantsWithinActor, howner, length_pos_iff]

theorem checkRoleWithinActor_spec (howner : actor.permissions.isOwner = false)
    (h : checkRoleWithinActor atomicStore (some actor) id db = .ok (none, db')) :
    db' = db ∧ db.RoleWithin id actor.permissions := by
  unfold RolesDb.RoleWithin
  simp only [checkRoleWithinActor, howner, Bool.false_eq_true, if_false, bind_eq_ok,
    loadRolePermissions_eq_ok] at h
  obtain ⟨context, db₁, ⟨rfl, rfl⟩, h⟩ := h
  cases hrole : db₁.roleContext id with
  | none =>
    rw [hrole] at h
    exact ⟨(pure_eq_ok.1 h).2, fun _ hcontext => by cases hcontext⟩
  | some role =>
    rw [hrole] at h
    obtain ⟨hpasses, hdb⟩ := pure_eq_ok.1 h
    refine ⟨hdb, fun context hcontext => ?_⟩
    cases hcontext
    exact (checkGrantsWithinActor_eq_none howner).1 hpasses.symm

theorem checkCurrentRoles_spec {current : List R}
    (h : checkCurrentRoles atomicStore actor newRoleId current db = .ok (none, db')) :
    db' = db ∧ ∀ id ∈ current, some id ≠ newRoleId → db.RoleWithin id actor.permissions := by
  induction current with
  | nil =>
    rw [checkCurrentRoles, pure_eq_ok] at h
    exact ⟨h.2, fun _ hid => absurd hid not_mem_nil⟩
  | cons roleId rest ih =>
    rw [checkCurrentRoles] at h
    split at h
    · next hsame =>
      obtain ⟨hdb, hrest⟩ := ih h
      refine ⟨hdb, fun id hid hne => ?_⟩
      rcases mem_cons.1 hid with rfl | hid
      · exact absurd hsame hne
      · exact hrest id hid hne
    · simp only [bind_eq_ok, loadRolePermissions_eq_ok] at h
      obtain ⟨context, db₁, ⟨rfl, rfl⟩, h⟩ := h
      have hkeep (hhead : db₁.RoleWithin roleId actor.permissions)
          (htail : checkCurrentRoles atomicStore actor newRoleId rest db₁ = .ok (none, db')) :
          db' = db₁ ∧ ∀ id ∈ roleId :: rest, some id ≠ newRoleId →
            db₁.RoleWithin id actor.permissions := by
        obtain ⟨hdb, hrest⟩ := ih htail
        refine ⟨hdb, fun id hid hne => ?_⟩
        rcases mem_cons.1 hid with rfl | hid
        · exact hhead
        · exact hrest id hid hne
      cases hrole : db₁.roleContext roleId with
      | none =>
        rw [hrole] at h
        exact hkeep (fun _ hcontext => by rw [hrole] at hcontext; cases hcontext) h
      | some role =>
        rw [hrole] at h
        simp only [gt_iff_lt] at h
        split at h
        · cases (pure_eq_ok.1 h).1
        · next hlength =>
          refine hkeep (fun context hcontext => ?_) h
          rw [hrole] at hcontext
          cases hcontext
          exact grantsBeyond_eq_nil_iff.1 (eq_nil_of_length_eq_zero (by omega))

theorem RolesDb.player_id {p : P} {player : PlayerRow P R} (hplayer : db.player p = some player) :
    player.id = p := by
  have hfound := find?_some hplayer
  simpa using hfound

/-- An assignment that passes: the new role and the roles that the players have fit inside the
actor's permissions. -/
theorem checkRoleAssignment_spec {ids : List P} (howner : actor.permissions.isOwner = false)
    (h : checkRoleAssignment atomicStore (some actor) ids newRoleId db = .ok (none, db')) :
    db' = db ∧ (∀ id, newRoleId = some id → db.RoleWithin id actor.permissions) ∧
    ∀ p ∈ ids, ∀ context expiresAt, db.held p = some (context, expiresAt) →
      context.Within actor.permissions := by
  simp only [checkRoleAssignment, howner, Bool.false_eq_true, if_false] at h
  split at h
  · cases (pure_eq_ok.1 h).1
  · obtain ⟨refusal, db₁, hnew, hrest⟩ := bind_eq_ok.1 h
    cases refusal with
    | some refusal => cases (pure_eq_ok.1 hrest).1
    | none =>
      have hnew' : db₁ = db ∧ ∀ id, newRoleId = some id → db.RoleWithin id actor.permissions := by
        cases newRoleId with
        | none => exact ⟨(pure_eq_ok.1 hnew).2, fun _ hid => by cases hid⟩
        | some id =>
          obtain ⟨hdb, hwithin⟩ := checkRoleWithinActor_spec howner hnew
          refine ⟨hdb, fun id' hid => ?_⟩
          cases hid
          exact hwithin
      obtain ⟨rfl, hwithin⟩ := hnew'
      simp only at hrest
      split at hrest
      · next hempty =>
        refine ⟨(pure_eq_ok.1 hrest).2, hwithin, fun p hp => ?_⟩
        rw [eq_nil_of_length_eq_zero hempty] at hp
        cases hp
      · obtain ⟨current, db₂, hcurrent, hloop⟩ := bind_eq_ok.1 hrest
        obtain ⟨rfl, rfl⟩ := hcurrent
        obtain ⟨hdb, hroles⟩ := checkCurrentRoles_spec hloop
        refine ⟨hdb, hwithin, fun p hp context expiresAt hheld => ?_⟩
        simp only [RolesDb.held, Option.bind_eq_some_iff, Option.map_eq_some_iff,
          Prod.mk.injEq] at hheld
        obtain ⟨player, hplayer, roleId, hroleId, _, hcontext, rfl, -⟩ := hheld
        by_cases hsame : some roleId = newRoleId
        · exact hwithin roleId hsame.symm _ hcontext
        · refine hroles roleId ?_ hsame _ hcontext
          rw [mem_dedup, mem_filterMap]
          refine ⟨player, ?_, hroleId⟩
          rw [mem_filter, RolesDb.player_id hplayer, decide_eq_true_iff]
          exact ⟨mem_of_find?_eq_some hplayer, hp⟩

/-! ## Checks that only read -/

def Reads (p : RoleM R P α) : Prop := ∀ db a db', p db = .ok (a, db') → db' = db

theorem Reads.bind_eq_ok (hp : Reads p)
    (h : (p >>= f) db = .ok (b, db')) : ∃ a, p db = .ok (a, db) ∧ f a db = .ok (b, db') := by
  obtain ⟨a, db₁, ha, hrest⟩ := Access.bind_eq_ok.1 h
  cases hp db a db₁ ha
  exact ⟨a, ha, hrest⟩

theorem Reads.bind (hp : Reads p) (hf : ∀ a, Reads (f a)) : Reads (p >>= f) := by
  intro db b db' h
  obtain ⟨a, -, hrest⟩ := hp.bind_eq_ok h
  exact hf a db b db' hrest

theorem reads_pure (a : α) : Reads (pure a : RoleM R P α) := fun _ _ _ h => (pure_eq_ok.1 h).2

theorem reads_ask (g : RolesDb R P → α) : Reads (ask g) := fun _ _ _ h => (ask_eq_ok.1 h).2

theorem reads_ensure (condition : Bool) (error : RouteError) :
    Reads (ensure condition error : RoleM R P Unit) := by
  cases condition with
  | false => exact fun _ _ _ h => absurd h throw_ne_ok
  | true => exact reads_pure ()

theorem reads_orThrow (value : Option α) (error : RouteError) :
    Reads (orThrow value error : RoleM R P α) := by
  cases value with
  | none => exact fun _ _ _ h => absurd h throw_ne_ok
  | some a => exact reads_pure a

theorem reads_ensureOwnerRemains (owner : R) (losing : Nat) :
    Reads (ensureOwnerRemains (atomicStore : RoleStore (RoleM R P) R P) owner losing) :=
  (reads_ask _).bind fun _ => reads_ensure _ _

theorem reads_ensureNotLastOwner (ownerId current newRoleId : Option R) :
    Reads (ensureNotLastOwner (atomicStore : RoleStore (RoleM R P) R P) ownerId current
      newRoleId) := by
  unfold ensureNotLastOwner
  cases ownerId with
  | none => exact reads_pure ()
  | some owner =>
    simp only
    split
    · exact reads_ensureOwnerRemains owner 1
    · exact reads_pure ()

theorem reads_ensureOwnersRemain (role : RoleRow R) (ids : List P) :
    Reads (ensureOwnersRemain (atomicStore : RoleStore (RoleM R P) R P) role ids) := by
  unfold ensureOwnersRemain
  split
  · exact (reads_ask _).bind fun _ => reads_ensureOwnerRemains _ _
  · exact reads_pure ()

theorem reads_assignableRole (id : R) (missing : RouteError) :
    Reads (assignableRole (atomicStore : RoleStore (RoleM R P) R P) id missing) :=
  (reads_ask _).bind fun _ => (reads_orThrow _ _).bind fun _ => (reads_ensure _ _).bind fun _ =>
    reads_pure _

theorem reads_checkNewRole (newRoleId : Option R) :
    Reads (checkNewRole (atomicStore : RoleStore (RoleM R P) R P) newRoleId) := by
  cases newRoleId with
  | none => exact reads_pure ()
  | some id => exact (reads_assignableRole id _).bind fun _ => reads_pure ()

theorem reads_roleGrantBeyondActor (id : R) (actor : Option (PermissionContext R)) :
    Reads (roleGrantBeyondActor (atomicStore : RoleStore (RoleM R P) R P) id actor) := by
  unfold roleGrantBeyondActor loadRoleGrant
  split
  · exact reads_pure []
  · refine Reads.bind ((reads_ask _).bind fun row => ?_) fun grant => ?_
    · cases row with
      | none => exact reads_pure none
      | some row => exact (reads_ask _).bind fun _ => (reads_ask _).bind fun _ => reads_pure _
    · cases grant with
      | none => exact reads_pure []
      | some grant => exact reads_pure _

theorem assignableRole_id {missing : RouteError} {role : RoleRow R}
    (h : assignableRole atomicStore id missing db = .ok (role, db')) : role.id = id := by
  simp only [assignableRole, atomicStore_selectRole, bind_ask_eq_ok, bind_orThrow_eq_ok,
    bind_ensure_eq_ok, pure_eq_ok] at h
  obtain ⟨found, hfound, -, rfl, -⟩ := h
  obtain ⟨stored, hstored, rfl⟩ := Option.map_eq_some_iff.1 hfound
  exact RolesDb.role_id hstored

/-! ## Guards in front of the rest of a request -/

section Rest
variable {f : Unit → RoleM R P β} {b : β}

theorem bind_loadRoleGrant_eq_ok {k : Option RoleGrant → RoleM R P β} :
    (loadRoleGrant atomicStore id >>= k) db = .ok (b, db') ↔
      k ((db.role id).map fun role =>
        ⟨role.toRoleColumns, role.squadPermissions, role.permissionKeys⟩) db = .ok (b, db') := by
  simp only [loadRoleGrant, atomicStore, bind_assoc, bind_ask_eq_ok]
  cases hrole : db.role id with
  | none => simp
  | some role =>
    simp only [hrole, Option.map_some, bind_assoc, bind_ask_eq_ok, pure_bind, Option.getD_some]

variable {actor : RoleActor P R}

theorem bind_checkRoleWithinActor (howner : actor.permissions.isOwner = false)
    (h : (checkRoleWithinActor atomicStore (some actor) id >>= fun refusal =>
      refuse refusal >>= f) db = .ok (b, db')) :
    db.RoleWithin id actor.permissions ∧ f () db = .ok (b, db') := by
  obtain ⟨refusal, db₁, hcheck, hrest⟩ := bind_eq_ok.1 h
  obtain ⟨rfl, hrest⟩ := bind_refuse_eq_ok.1 hrest
  obtain ⟨rfl, hwithin⟩ := checkRoleWithinActor_spec howner hcheck
  exact ⟨hwithin, hrest⟩

theorem bind_checkRoleAssignment {ids : List P} (howner : actor.permissions.isOwner = false)
    (h : (checkRoleAssignment atomicStore (some actor) ids newRoleId >>= fun refusal =>
      refuse refusal >>= f) db = .ok (b, db')) :
    (∀ id, newRoleId = some id → db.RoleWithin id actor.permissions) ∧
    (∀ p ∈ ids, ∀ context expiresAt, db.held p = some (context, expiresAt) →
      context.Within actor.permissions) ∧
    f () db = .ok (b, db') := by
  obtain ⟨refusal, db₁, hcheck, hrest⟩ := bind_eq_ok.1 h
  obtain ⟨rfl, hrest⟩ := bind_refuse_eq_ok.1 hrest
  obtain ⟨rfl, hnew, hold⟩ := checkRoleAssignment_spec howner hcheck
  exact ⟨hnew, hold, hrest⟩

end Rest

end Answers

end Db

end SquadPanel.Access
