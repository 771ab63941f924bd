import SquadPanel.Access.RoleDb
import SquadPanel.Lib.Machine

/-!
# No chain of role changes widens anyone's permissions

Every request of a non-Owner that is allowed moves only holders of roles that
fit inside the permissions of its actor, and leaves them with such roles.  So
what non-Owners hold after any number of requests was held by a non-Owner at the
start, and nobody becomes or stops being an Owner.
-/

namespace SquadPanel.Access

open Js Lib Option
open RolesDb (held roleContext role_id player_id loadUserPermissions)

section Bounds
variable {R P : Type} [DecidableEq R] [DecidableEq P] {bound : PermissionContext R}
  {db db' : RolesDb R P} {player : PlayerRow P R} {ids : List P} {expiresAt : Option Int}
  {roleId : Option R}

/-- Whoever holds another role than before held one within `bound` and holds one within it. -/
def Bounded (bound : PermissionContext R) (db db' : RolesDb R P) : Prop :=
  ∀ p, db'.held p = db.held p ∨
    ((∀ context expiresAt, db.held p = some (context, expiresAt) → context.Within bound) ∧
      ∀ context expiresAt, db'.held p = some (context, expiresAt) → context.Within bound)

/-! ## Writes -/

theorem held_of_player {p : P} (hplayer : db.player p = some player) :
    db.held p = player.roleId.bind fun roleId =>
      (db.roleContext roleId).map fun context => (context, player.roleExpiresAt) := by
  simp [held, hplayer]

theorem held_of_player_none {p : P} (hplayer : db.player p = none) : db.held p = none := by
  simp [held, hplayer]

/-- One role changes, within the bound. -/
theorem bounded_of_role (id : R) (hplayers : ∀ p, db'.player p = db.player p)
    (hothers : ∀ r, r ≠ id → db'.roleContext r = db.roleContext r)
    (hold : db.RoleWithin id bound) (hnew : db'.RoleWithin id bound) : Bounded bound db db' := by
  intro p
  cases hplayer : db.player p with
  | none =>
    left
    rw [held_of_player_none hplayer, held_of_player_none ((hplayers p).trans hplayer)]
  | some player =>
    have hplayer' : db'.player p = some player := (hplayers p).trans hplayer
    by_cases hid : player.roleId = some id
    · right
      simp only [held_of_player hplayer, held_of_player hplayer', hid, bind_some,
        map_eq_some_iff, Prod.mk.injEq]
      constructor
      · rintro context expiresAt ⟨context', hcontext, rfl, -⟩
        exact hold context' hcontext
      · rintro context expiresAt ⟨context', hcontext, rfl, -⟩
        exact hnew context' hcontext
    · left
      rw [held_of_player hplayer, held_of_player hplayer']
      cases hroleId : player.roleId with
      | none => rfl
      | some r =>
        have hne : r ≠ id := fun heq => hid (by rw [hroleId, heq])
        simp only [bind_some, hothers r hne]

theorem bounded_insertRole {row : RoleRow R} {squad : List JsString}
    (hfresh : db.role row.id = none)
    (hwithin : (buildRolePermissionContext row.id ⟨row.toRoleColumns, squad⟩ []).Within bound) :
    Bounded bound db (db.insertRole row squad) := by
  refine bounded_of_role row.id (fun _ => rfl) ?_ ?_ ?_
  · intro r hne
    simp [roleContext, role_insertRole, hne.symm]
  · intro context hcontext
    simp [roleContext, hfresh] at hcontext
  · intro context hcontext
    simp only [roleContext, role_insertRole, hfresh, none_or, if_true,
      map_some, some_inj] at hcontext
    exact hcontext ▸ hwithin

theorem bounded_updateRole {id : R} {body : UpdateBody} (hold : db.RoleWithin id bound)
    (hnew : ∀ role, db.role id = some role → (role.update body).context.Within bound) :
    Bounded bound db (db.updateRole id body) := by
  refine bounded_of_role id (fun _ => rfl) ?_ hold ?_
  · intro r hne
    simp only [roleContext, role_updateRole]
    cases hrole : db.role r with
    | none => rfl
    | some role => simp [role_id hrole, hne]
  · intro context hcontext
    simp only [roleContext, role_updateRole, map_eq_some_iff] at hcontext
    obtain ⟨updated, ⟨role, hrole, rfl⟩, rfl⟩ := hcontext
    rw [if_pos (role_id hrole)]
    exact hnew role hrole

theorem bounded_deleteRole {id : R} (hold : db.RoleWithin id bound) :
    Bounded bound db (db.deleteRole id) := by
  intro p
  cases hplayer : db.player p with
  | none =>
    left
    rw [held_of_player_none hplayer, held_of_player_none (by simp [player_deleteRole, hplayer])]
  | some player =>
    have hplayer' : (db.deleteRole id).player p = _ := player_deleteRole id p
    rw [hplayer, map_some] at hplayer'
    rw [held_of_player hplayer, held_of_player hplayer']
    by_cases hid : player.roleId = some id
    · right
      simp only [hid, bind_some, map_eq_some_iff, Prod.mk.injEq, if_true,
        bind_none, reduceCtorEq, false_implies, implies_true, and_true]
      rintro context expiresAt ⟨context', hcontext, rfl, -⟩
      exact hold context' hcontext
    · left
      rw [if_neg hid]
      cases hroleId : player.roleId with
      | none => rfl
      | some r =>
        have hne : r ≠ id := fun heq => hid (by rw [hroleId, heq])
        simp [roleContext, role_deleteRole, hne]

/-- The last statement of a request that moves players. -/
theorem bounded_of_updatePlayers {only : Option R} {u : Unit}
    (hwrite : atomicStore.updatePlayers only ids roleId expiresAt db = .ok (u, db'))
    (hnew : ∀ id, roleId = some id → db.RoleWithin id bound)
    (hold : ∀ p player, db.player p = some player → p ∈ ids → (only = none ∨ player.roleId = only) →
      ∀ context expiresAt, db.held p = some (context, expiresAt) → context.Within bound) :
    Bounded bound db db' := by
  obtain ⟨-, rfl⟩ := hwrite
  intro p
  cases hplayer : db.player p with
  | none =>
    left
    rw [held_of_player_none hplayer,
      held_of_player_none (by simp [player_updatePlayers, hplayer])]
  | some player =>
    have hplayer' : (db.updatePlayers only ids roleId expiresAt).player p = _ :=
      player_updatePlayers only ids roleId expiresAt p
    rw [hplayer, map_some] at hplayer'
    have hid := player_id hplayer
    by_cases haffected : player.id ∈ ids ∧ (only = none ∨ player.roleId = only)
    · right
      refine ⟨hold p player hplayer (hid ▸ haffected.1) haffected.2, ?_⟩
      intro context expiresAt' hheld
      rw [if_pos haffected] at hplayer'
      rw [held_of_player hplayer'] at hheld
      simp only [bind_eq_some_iff, map_eq_some_iff, Prod.mk.injEq] at hheld
      obtain ⟨id, hroleId, context', hcontext, rfl, -⟩ := hheld
      exact hnew id hroleId context' hcontext
    · left
      rw [if_neg haffected] at hplayer'
      rw [held_of_player hplayer, held_of_player hplayer']
      rfl

theorem mem_members {id : R} {p : P}
    (hplayer : db.player p = some player) (hp : p ∈ ids) (hid : player.roleId = some id) :
    p ∈ (db.players.filter fun player => player.id ∈ ids ∧ player.roleId = some id).map
      PlayerRow.id := by
  rw [List.mem_map]
  refine ⟨player, ?_, player_id hplayer⟩
  rw [List.mem_filter, decide_eq_true_iff, player_id hplayer]
  exact ⟨List.mem_of_find?_eq_some hplayer, hp, hid⟩

/-! ## Requests -/

section Requests
variable {actor : RoleActor P R} {u : Unit} (howner : actor.permissions.isOwner = false) {id : R}
  {playerId : P}
include howner

theorem bounded_postRole {body : CreateBody}
    (h : postRole atomicStore (some actor) id body db = .ok (u, db')) :
    Bounded actor.permissions db db' := by
  simp only [postRole, bind_authorize_eq_ok, bind_refuse_eq_ok, bind_ensure_eq_ok,
    atomicStore_insertRole, write_eq_ok] at h
  obtain ⟨-, -, -, hwithin, hfree, rfl⟩ := h
  split at hfree
  · cases hfree
  · next hfresh =>
    apply bounded_insertRole
    · simpa using hfresh
    · exact (checkGrantsWithinActor_eq_none howner).1 hwithin

theorem bounded_putRole {body : UpdateBody}
    (h : putRole atomicStore (some actor) id body db = .ok (u, db')) :
    Bounded actor.permissions db db' := by
  simp only [putRole, bind_authorize_eq_ok, atomicStore_selectRole, bind_ask_eq_ok,
    bind_orThrow_eq_ok, bind_ensure_eq_ok] at h
  obtain ⟨-, row, hrow, -, -, h⟩ := h
  obtain ⟨role, hrole, rfl⟩ := map_eq_some_iff.1 hrow
  have hid : role.id = id := role_id hrole
  rw [hid] at h
  obtain ⟨hold, hrest⟩ := bind_checkRoleWithinActor howner h
  simp only [atomicStore_selectSquadPermissions, atomicStore_selectPermissionKeys, bind_ask_eq_ok,
    bind_refuse_eq_ok, bind_loadRoleGrant_eq_ok, hrole, map_some, getD_some,
    bind_orThrow_eq_ok, bind_ensure_eq_ok, atomicStore_updateRole, write_eq_ok] at hrest
  obtain ⟨-, beforeGrant, -, -, hwithin, -, rfl⟩ := hrest
  apply bounded_updateRole hold
  intro role' hrole'
  rw [hrole] at hrole'
  cases hrole'
  have hproposed := (checkGrantsWithinActor_eq_none howner).1 hwithin
  exact hproposed

theorem bounded_deleteRoleRequest (h : deleteRole atomicStore (some actor) id db = .ok (u, db')) :
    Bounded actor.permissions db db' := by
  simp only [deleteRole, bind_authorize_eq_ok, atomicStore_selectRole, bind_ask_eq_ok,
    bind_orThrow_eq_ok, bind_ensure_eq_ok] at h
  obtain ⟨-, row, hrow, -, h⟩ := h
  obtain ⟨role, hrole, rfl⟩ := map_eq_some_iff.1 hrow
  rw [role_id hrole] at h
  obtain ⟨hold, hrest⟩ := bind_checkRoleWithinActor howner h
  simp only [atomicStore_isReferencedByTier, bind_ask_eq_ok, bind_ensure_eq_ok,
    atomicStore_deleteRole, write_eq_ok] at hrest
  obtain ⟨-, -, rfl⟩ := hrest
  exact bounded_deleteRole hold

theorem bounded_putPlayerRole {now : Int} {newRoleId : Option R}
    (h : putPlayerRole atomicStore (some actor) now playerId newRoleId expiresAt db =
      .ok (u, db')) : Bounded actor.permissions db db' := by
  simp only [putPlayerRole, bind_authorize_eq_ok, bind_ensure_eq_ok] at h
  obtain ⟨-, -, h⟩ := h
  obtain ⟨-, -, hrest⟩ := (reads_checkNewRole newRoleId).bind_eq_ok h
  simp only [atomicStore_selectOwnerId, atomicStore_selectPlayerRole, bind_ask_eq_ok,
    bind_orThrow_eq_ok] at hrest
  obtain ⟨current, -, hchecks⟩ := hrest
  obtain ⟨hnew, hold, hlast⟩ := bind_checkRoleAssignment howner hchecks
  obtain ⟨-, -, hwrite⟩ := (reads_ensureNotLastOwner _ _ _).bind_eq_ok hlast
  exact bounded_of_updatePlayers hwrite hnew fun p _ _ hp _ => hold p hp

theorem bounded_deletePlayerRole
    (h : deletePlayerRole atomicStore (some actor) playerId db = .ok (u, db')) :
    Bounded actor.permissions db db' := by
  simp only [deletePlayerRole, bind_authorize_eq_ok, atomicStore_selectOwnerId,
    atomicStore_selectPlayerRole, bind_ask_eq_ok, bind_orThrow_eq_ok] at h
  obtain ⟨-, current, -, h⟩ := h
  obtain ⟨hnew, hold, hlast⟩ := bind_checkRoleAssignment howner h
  obtain ⟨-, -, hwrite⟩ := (reads_ensureNotLastOwner _ _ _).bind_eq_ok hlast
  exact bounded_of_updatePlayers hwrite hnew fun p _ _ hp _ => hold p hp

theorem bounded_postRoleMember
    (h : postRoleMember atomicStore (some actor) id playerId db = .ok (u, db')) :
    Bounded actor.permissions db db' := by
  simp only [postRoleMember, bind_authorize_eq_ok] at h
  obtain ⟨-, h⟩ := h
  obtain ⟨role, hrole, hrest⟩ := (reads_assignableRole id _).bind_eq_ok h
  rw [assignableRole_id hrole] at hrest
  simp only [atomicStore_selectPlayerRole, bind_ask_eq_ok, bind_orThrow_eq_ok] at hrest
  obtain ⟨-, -, hchecks⟩ := hrest
  obtain ⟨hnew, hold, hwrite⟩ := bind_checkRoleAssignment howner hchecks
  exact bounded_of_updatePlayers hwrite hnew fun p _ _ hp _ => hold p hp

theorem bounded_deleteRoleMember
    (h : deleteRoleMember atomicStore (some actor) id playerId db = .ok (u, db')) :
    Bounded actor.permissions db db' := by
  simp only [deleteRoleMember, bind_authorize_eq_ok, atomicStore_selectRole, bind_ask_eq_ok,
    bind_orThrow_eq_ok] at h
  obtain ⟨-, role, -, h⟩ := h
  obtain ⟨hnew, hold, hrest⟩ := bind_checkRoleAssignment howner h
  have hupdate (hwrite : atomicStore.updatePlayers (some role.id) [playerId] none none db =
      .ok (u, db')) : Bounded actor.permissions db db' :=
    bounded_of_updatePlayers hwrite hnew fun p _ _ hp _ => hold p hp
  split at hrest
  · simp only [atomicStore_selectMembers, bind_ask_eq_ok] at hrest
    split at hrest
    · obtain ⟨-, rfl⟩ := pure_eq_ok.1 hrest
      exact fun _ => .inl rfl
    · obtain ⟨-, -, hwrite⟩ := (reads_ensureOwnerRemains _ _).bind_eq_ok hrest
      exact hupdate hwrite
  · exact hupdate hrest

theorem bounded_bulkDeleteMembers
    (h : bulkDeleteMembers atomicStore (some actor) id ids db = .ok (u, db')) :
    Bounded actor.permissions db db' := by
  simp only [bulkDeleteMembers, bind_authorize_eq_ok, atomicStore_selectRole,
    atomicStore_selectMembers, bind_ask_eq_ok, bind_orThrow_eq_ok] at h
  obtain ⟨-, role, -, h⟩ := h
  obtain ⟨hnew, hold, hlast⟩ := bind_checkRoleAssignment howner h
  obtain ⟨-, -, hwrite⟩ := (reads_ensureOwnersRemain _ _).bind_eq_ok hlast
  exact bounded_of_updatePlayers hwrite hnew fun p _ hplayer hp honly =>
    hold p (mem_members hplayer hp (honly.resolve_left (by rintro ⟨⟩)))

theorem bounded_moveMembers {targetRoleId : R}
    (h : moveMembers atomicStore (some actor) id ids targetRoleId db = .ok (u, db')) :
    Bounded actor.permissions db db' := by
  simp only [moveMembers, bind_authorize_eq_ok, atomicStore_selectRole, bind_ask_eq_ok,
    bind_orThrow_eq_ok, bind_ensure_eq_ok] at h
  obtain ⟨-, source, -, -, h⟩ := h
  obtain ⟨target, -, hrest⟩ := (reads_assignableRole targetRoleId _).bind_eq_ok h
  obtain ⟨beyond, -, hchecks⟩ := (reads_roleGrantBeyondActor _ _).bind_eq_ok hrest
  simp only [bind_ensure_eq_ok, atomicStore_selectMembers, bind_ask_eq_ok] at hchecks
  obtain ⟨-, hassign⟩ := hchecks
  obtain ⟨hnew, hold, hlast⟩ := bind_checkRoleAssignment howner hassign
  obtain ⟨-, -, hwrite⟩ := (reads_ensureOwnersRemain _ _).bind_eq_ok hlast
  exact bounded_of_updatePlayers hwrite hnew fun p _ hplayer hp honly =>
    hold p (mem_members hplayer hp (honly.resolve_left (by rintro ⟨⟩)))

end Requests

end Bounds

/-! ## Chains of requests -/

inductive RoleAction (R P : Type) where
  | postRole (id : R) (body : CreateBody)
  | putRole (id : R) (body : UpdateBody)
  | deleteRole (id : R)
  | putPlayerRole (playerId : P) (roleId : Option R) (expiresAt : Option Int)
  | deletePlayerRole (playerId : P)
  | postRoleMember (id : R) (playerId : P)
  | deleteRoleMember (id : R) (playerId : P)
  | bulkDeleteMembers (id : R) (playerIds : List P)
  | moveMembers (id : R) (playerIds : List P) (targetRoleId : R)

/-- `scopes` are those of the API token, `none` for a session. -/
structure RoleRequest (R P : Type) where
  now : Int
  player : P
  scopes : Option (List JsString)
  action : RoleAction R P

section Chains
variable {R P : Type} [DecidableEq R] [DecidableEq P]

/-- The auth plugin: without live panel access a request is anonymous. -/
def RoleRequest.user (request : RoleRequest R P) (db : RolesDb R P) : Option (RoleActor P R) :=
  let context := db.loadUserPermissions request.now request.player
  if context.panelAccess then
    match request.scopes with
    | none => some ⟨request.player, context⟩
    | some scopes => some ⟨request.player, narrowToTokenScopes context scopes⟩
  else none

def RoleAction.perform (user : Option (RoleActor P R)) (now : Int) :
    RoleAction R P → RoleM R P Unit
  | .postRole id body => Access.postRole atomicStore user id body
  | .putRole id body => Access.putRole atomicStore user id body
  | .deleteRole id => Access.deleteRole atomicStore user id
  | .putPlayerRole p roleId expiresAt =>
    Access.putPlayerRole atomicStore user now p roleId expiresAt
  | .deletePlayerRole p => Access.deletePlayerRole atomicStore user p
  | .postRoleMember id p => Access.postRoleMember atomicStore user id p
  | .deleteRoleMember id p => Access.deleteRoleMember atomicStore user id p
  | .bulkDeleteMembers id ids => Access.bulkDeleteMembers atomicStore user id ids
  | .moveMembers id ids target => Access.moveMembers atomicStore user id ids target

/-- The tables and the time. -/
structure RolesState (R P : Type) where
  db : RolesDb R P
  now : Int

def RolesState.context (state : RolesState R P) (p : P) : PermissionContext R :=
  state.db.loadUserPermissions state.now p

section
variable (state : RolesState R P) (request : RoleRequest R P)

/-- A request that is refused changes nothing. -/
def roleStep : Option (RolesState R P) :=
  if state.now ≤ request.now then
    match request.action.perform (request.user state.db) request.now state.db with
    | .ok (_, db) => some ⟨db, request.now⟩
    | .error _ => some ⟨state.db, request.now⟩
  else none

/-- The player who makes the request is no Owner. -/
def ByNonOwner : Prop :=
  (state.db.loadUserPermissions request.now request.player).isOwner = false

end

instance (state : RolesState R P) (request : RoleRequest R P) :
    Decidable (ByNonOwner state request) := inferInstanceAs (Decidable (_ = _))

def HoldsOwner (db : RolesDb R P) (p : P) : Prop :=
  ∃ context expiresAt, db.held p = some (context, expiresAt) ∧ context.isOwner = true

/-- Some non-Owner has the grant. -/
def Spread (state : RolesState R P) (grant : Grant) : Prop :=
  ∃ p, (state.context p).isOwner = false ∧ (state.context p).Holds grant

variable {db db' : RolesDb R P} {state state' start : RolesState R P} {now : Int} {grant : Grant}
  {request : RoleRequest R P} {actor : RoleActor P R} {action : RoleAction R P}
  {bound : PermissionContext R}

omit [DecidableEq R] in
theorem PermissionContext.Within.isOwner {a b : PermissionContext R} (hwithin : a.Within b)
    (hb : b.isOwner = false) : a.isOwner = false := by
  cases ha : a.isOwner with
  | false => rfl
  | true =>
    have hheld : b.isOwner = true := hwithin (.flag .isOwner) ha
    rw [hb] at hheld
    cases hheld

theorem loadUserPermissions_holds {p : P} (h : (db.loadUserPermissions now p).Holds grant) :
    ∃ context expiresAt, db.held p = some (context, expiresAt) ∧
      (expiresAt.all fun expiresAt => now < expiresAt) = true ∧
      db.loadUserPermissions now p = context := by
  cases hheld : db.held p with
  | none =>
    simp only [loadUserPermissions, hheld] at h
    exact absurd h (PermissionContext.not_holds_empty grant)
  | some entry =>
    obtain ⟨context, expiresAt⟩ := entry
    simp only [loadUserPermissions, hheld] at h ⊢
    split at h
    · next hlive =>
      exact ⟨context, expiresAt, rfl, hlive, if_pos hlive⟩
    · exact absurd h (PermissionContext.not_holds_empty grant)

theorem loadUserPermissions_of_held {p : P} {context : PermissionContext R}
    {expiresAt : Option Int} (hheld : db.held p = some (context, expiresAt))
    (hlive : (expiresAt.all fun expiresAt => now < expiresAt) = true) :
    db.loadUserPermissions now p = context := by
  simp [loadUserPermissions, hheld, hlive]

/-- The permissions of an actor are among those of the player. -/
theorem RoleRequest.user_within (h : request.user db = some actor) :
    actor.permissions.Within (db.loadUserPermissions request.now request.player) := by
  unfold RoleRequest.user at h
  simp only at h
  split at h
  · split at h
    · cases h
      exact fun _ hheld => hheld
    · cases h
      exact narrowToTokenScopes_within _ _
  · cases h

theorem bounded_perform {u : Unit} (howner : actor.permissions.isOwner = false)
    (h : action.perform (some actor) now db = .ok (u, db')) : Bounded actor.permissions db db' := by
  cases action with
  | postRole id body => exact bounded_postRole howner h
  | putRole id body => exact bounded_putRole howner h
  | deleteRole id => exact bounded_deleteRoleRequest howner h
  | putPlayerRole p roleId expiresAt => exact bounded_putPlayerRole howner h
  | deletePlayerRole p => exact bounded_deletePlayerRole howner h
  | postRoleMember id p => exact bounded_postRoleMember howner h
  | deleteRoleMember id p => exact bounded_deleteRoleMember howner h
  | bulkDeleteMembers id ids => exact bounded_bulkDeleteMembers howner h
  | moveMembers id ids target => exact bounded_moveMembers howner h

theorem perform_anonymous {u : Unit} : action.perform none now db ≠ .ok (u, db') := by
  have hauth {β : Type} {required : PermissionKey} {f : RoleActor P R → RoleM R P β} {b : β} :
      (authorize none required >>= f) db ≠ .ok (b, db') := by
    rw [Ne, authorize, LawfulMonad.bind_assoc, bind_orThrow_eq_ok]
    rintro ⟨actor, hactor, -⟩
    cases hactor
  cases action <;> exact hauth

theorem spread_of_later {now' : Int} (hle : now ≤ now')
    (h : Spread ⟨db, now'⟩ grant) : Spread ⟨db, now⟩ grant := by
  obtain ⟨p, howner, hholds⟩ := h
  obtain ⟨context, expiresAt, hheld, hlive, hcontext⟩ := loadUserPermissions_holds hholds
  have hlive' : (expiresAt.all fun expiresAt => now < expiresAt) = true := by
    cases expiresAt with
    | none => rfl
    | some expiresAt =>
      simp only [all_some, decide_eq_true_eq] at hlive ⊢
      omega
  have hsame : db.loadUserPermissions now p = db.loadUserPermissions now' p := by
    rw [loadUserPermissions_of_held hheld hlive', hcontext]
  refine ⟨p, ?_, ?_⟩
  · exact (congrArg PermissionContext.isOwner hsame).trans howner
  · show (db.loadUserPermissions now p).Holds grant
    rw [hsame]
    exact hholds

theorem spread_of_bounded {player : P} (hbounded : Bounded bound db db')
    (hwithin : bound.Within (db.loadUserPermissions now player))
    (howner : (db.loadUserPermissions now player).isOwner = false)
    (h : Spread ⟨db', now⟩ grant) : Spread ⟨db, now⟩ grant := by
  obtain ⟨p, hp, hholds⟩ := h
  obtain ⟨context, expiresAt, hheld, hlive, hcontext⟩ := loadUserPermissions_holds hholds
  rcases hbounded p with hsame | ⟨-, hnew⟩
  · rw [hheld] at hsame
    have hbefore := loadUserPermissions_of_held hsame.symm hlive
    refine ⟨p, ?_, ?_⟩
    · exact (congrArg PermissionContext.isOwner (hbefore.trans hcontext.symm)).trans hp
    · show (db.loadUserPermissions now p).Holds grant
      rw [hbefore, ← hcontext]
      exact hholds
  · refine ⟨player, howner, ?_⟩
    apply hwithin grant
    apply hnew context expiresAt hheld grant
    rw [← hcontext]
    exact hholds

theorem holdsOwner_iff_of_bounded (hbounded : Bounded bound db db')
    (howner : bound.isOwner = false) (p : P) : HoldsOwner db' p ↔ HoldsOwner db p := by
  unfold HoldsOwner
  rcases hbounded p with hsame | ⟨hold, hnew⟩
  · rw [hsame]
  · constructor
    · rintro ⟨context, expiresAt, hheld, hisOwner⟩
      rw [(hnew context expiresAt hheld).isOwner howner] at hisOwner
      cases hisOwner
    · rintro ⟨context, expiresAt, hheld, hisOwner⟩
      rw [(hold context expiresAt hheld).isOwner howner] at hisOwner
      cases hisOwner

/-- No grant has spread and nobody has become or stopped being an Owner. -/
def Kept (state state' : RolesState R P) : Prop :=
  (∀ grant, Spread state' grant → Spread state grant) ∧
    ∀ p, HoldsOwner state'.db p ↔ HoldsOwner state.db p

theorem kept_roleStep (hguard : ByNonOwner state request)
    (hstep : roleStep state request = some state') : Kept state state' := by
  unfold roleStep at hstep
  split at hstep
  · next hle =>
    cases hresult : request.action.perform (request.user state.db) request.now state.db with
    | error error =>
      rw [hresult] at hstep
      cases hstep
      exact ⟨fun grant h => spread_of_later hle h, fun _ => Iff.rfl⟩
    | ok answer =>
      obtain ⟨u, db'⟩ := answer
      rw [hresult] at hstep
      cases hstep
      cases huser : request.user state.db with
      | none =>
        rw [huser] at hresult
        exact absurd hresult perform_anonymous
      | some actor =>
        rw [huser] at hresult
        have hwithin := RoleRequest.user_within huser
        have howner := hwithin.isOwner hguard
        have hbounded := bounded_perform howner hresult
        refine ⟨fun grant h => spread_of_later hle ?_, holdsOwner_iff_of_bounded hbounded howner⟩
        exact spread_of_bounded hbounded hwithin hguard h
  · cases hstep

theorem kept_of_reaches (hreach : Machine.Reaches roleStep ByNonOwner start state) :
    Kept start state := by
  apply Machine.invariant_of_reaches _ _ hreach
  · exact ⟨fun _ h => h, fun _ => Iff.rfl⟩
  · rintro s request s' - hguard ⟨hgrants, howners⟩ hstep
    obtain ⟨hkept, hsame⟩ := kept_roleStep hguard hstep
    exact ⟨fun grant h => hgrants grant (hkept grant h), fun p => (hsame p).trans (howners p)⟩

theorem no_escalation (hreach : Machine.Reaches roleStep ByNonOwner start state) :
    (∀ p grant, (state.context p).isOwner = false → (state.context p).Holds grant →
      ∃ q, (start.context q).isOwner = false ∧ (start.context q).Holds grant) ∧
    ∀ p, HoldsOwner state.db p ↔ HoldsOwner start.db p := by
  obtain ⟨hgrants, howners⟩ := kept_of_reaches hreach
  exact ⟨fun p grant howner hholds => hgrants grant ⟨p, howner, hholds⟩, howners⟩

/-! ## A chain -/

def sampleColumns (name : JsString) (isSystemRole manages : Bool) : RoleColumns where
  name := name
  isSystemRole := isSystemRole
  panelAccess := true
  canViewIps := false
  canAssignRoles := manages
  canEditRoles := manages
  canManageIssues := false
  canManageBanSources := false
  canManageIntegrations := false
  canManageClans := false
  canManageEconomy := false
  canManageMedia := false
  canHandleReports := false
  canManageInfrastructure := false
  combatView := true

/-- Player 0 is an Owner, player 1 manages roles, player 2 has none. -/
def sampleRoles : RolesState Nat Nat where
  db :=
    { roles := [⟨⟨sampleColumns (js "Owner") true true, 0⟩, [], []⟩,
        ⟨⟨sampleColumns (js "Manager") false true, 1⟩, [js "kick"], []⟩]
      players := [⟨0, some 0, none⟩, ⟨1, some 1, none⟩, ⟨2, none, none⟩]
      tierRoles := [] }
  now := 0

def sampleBody : CreateBody where
  name := ⟨js "Helper", by decide⟩
  squadPermissions := ⟨[js "kick"], by decide⟩
  panelAccess := true
  canViewIps := false
  canAssignRoles := false
  canEditRoles := false
  canManageIssues := false
  canManageBanSources := false
  canManageIntegrations := false
  canManageClans := false
  canManageEconomy := false
  canHandleReports := false
  canManageInfrastructure := false

/-- The manager makes a role and hands it out, and tries to demote the Owner. -/
def sampleChain : List (RoleRequest Nat Nat) :=
  [⟨10, 1, none, .postRole 2 sampleBody⟩, ⟨20, 1, none, .putPlayerRole 2 (some 2) none⟩,
    ⟨30, 1, none, .deletePlayerRole 0⟩]

theorem no_escalation_sampleChain : ∃ state, Machine.Reaches roleStep ByNonOwner sampleRoles state ∧
      (state.context 2).Holds (.squad (js "kick")) ∧
      (∃ q, (sampleRoles.context q).isOwner = false ∧
        (sampleRoles.context q).Holds (.squad (js "kick"))) ∧
      ∀ p, HoldsOwner state.db p ↔ HoldsOwner sampleRoles.db p := by
  have hrun : (Machine.run roleStep ByNonOwner sampleRoles sampleChain).map
      (fun state => (state.context 2).isOwner || !(state.context 2).squadPermissions.has
        (js "kick")) = some false := by
    decide +kernel
  obtain ⟨state, hreach, hcontext⟩ := Machine.reaches_of_map_run hrun
  simp only [Bool.or_eq_false_iff, Bool.not_eq_false', JsSet.has_eq_true] at hcontext
  obtain ⟨hgrants, howners⟩ := no_escalation hreach
  exact ⟨state, hreach, hcontext.2, hgrants 2 _ hcontext.1 hcontext.2, howners⟩

end Chains

end SquadPanel.Access
