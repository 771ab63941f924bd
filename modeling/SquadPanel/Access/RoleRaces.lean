import SquadPanel.Access.Escalation
import SquadPanel.Lib.Interleave

/-!
# Two edits of one role

The queries of a request are calls now, so that other requests may commit
between any two of them.  `PUT /api/v1/roles/:id` checks the role that its
queries gave, and writes only the fields of its body: what it writes over may be
another role than the one it has checked.
-/

set_option linter.unusedSectionVars false

namespace SquadPanel.Access

open Js Lib Option Prog
open Prog (await)

/-! ## Queries as calls -/

inductive RoleCall (R P : Type) where
  | selectRole (reader : Reader) (id : R)
  | selectSquadPermissions (reader : Reader) (id : R)
  | selectPermissionKeys (reader : Reader) (id : R)
  | selectOwnerId
  | selectPlayerRole (p : P)
  | selectDistinctRoles (ids : List P)
  | selectMembers (id : R) (ids : List P)
  | countHolders (id : R)
  | isReferencedByTier (id : R)
  | insertRole (row : RoleRow R) (squad : List JsString)
  | updateRole (id : R) (body : UpdateBody)
  | deleteRole (id : R)
  | updatePlayers (only : Option R) (ids : List P) (roleId : Option R) (expiresAt : Option Int)
deriving DecidableEq

section Calls
variable {R P : Type}

def RoleAnswer : RoleCall R P → Type
  | .selectRole _ _ => Option (RoleRow R)
  | .selectSquadPermissions _ _ | .selectPermissionKeys _ _ => List JsString
  | .selectOwnerId => Option R
  | .selectPlayerRole _ => Option (Option R)
  | .selectDistinctRoles _ => List R
  | .selectMembers _ _ => List P
  | .countHolders _ => Nat
  | .isReferencedByTier _ => Bool
  | .insertRole _ _ | .updateRole _ _ | .deleteRole _ | .updatePlayers _ _ _ _ => Unit

/-- A query may fail at any time, which leaves the database as it is. -/
abbrev RoleReply (e : RoleCall R P) := Except RouteError (RoleAnswer e)

abbrev SharedM (R P : Type) := ExceptT RouteError (Prog (RoleCall R P) RoleReply)

def sharedStore : RoleStore (SharedM R P) R P where
  selectRole reader id := await (.selectRole reader id) fun r => r
  selectSquadPermissions reader id := await (.selectSquadPermissions reader id) fun r => r
  selectPermissionKeys reader id := await (.selectPermissionKeys reader id) fun r => r
  selectOwnerId := await .selectOwnerId fun r => r
  selectPlayerRole p := await (.selectPlayerRole p) fun r => r
  selectDistinctRoles ids := await (.selectDistinctRoles ids) fun r => r
  selectMembers id ids := await (.selectMembers id ids) fun r => r
  countHolders id := await (.countHolders id) fun r => r
  isReferencedByTier id := await (.isReferencedByTier id) fun r => r
  insertRole row squad := await (.insertRole row squad) fun r => r
  updateRole id body := await (.updateRole id body) fun r => r
  deleteRole id := await (.deleteRole id) fun r => r
  updatePlayers only ids roleId expiresAt :=
    await (.updatePlayers only ids roleId expiresAt) fun r => r

variable [DecidableEq R] [DecidableEq P]

instance : (e : RoleCall R P) → DecidableEq (RoleAnswer e)
  | .selectRole _ _ => inferInstanceAs (DecidableEq (Option (RoleRow R)))
  | .selectSquadPermissions _ _ | .selectPermissionKeys _ _ =>
    inferInstanceAs (DecidableEq (List JsString))
  | .selectOwnerId => inferInstanceAs (DecidableEq (Option R))
  | .selectPlayerRole _ => inferInstanceAs (DecidableEq (Option (Option R)))
  | .selectDistinctRoles _ => inferInstanceAs (DecidableEq (List R))
  | .selectMembers _ _ => inferInstanceAs (DecidableEq (List P))
  | .countHolders _ => inferInstanceAs (DecidableEq Nat)
  | .isReferencedByTier _ => inferInstanceAs (DecidableEq Bool)
  | .insertRole _ _ | .updateRole _ _ | .deleteRole _ | .updatePlayers _ _ _ _ =>
    inferInstanceAs (DecidableEq Unit)

/-- What the database answers when the query has it for itself. -/
def RoleCall.alone : (e : RoleCall R P) → RoleM R P (RoleAnswer e)
  | .selectRole reader id => atomicStore.selectRole reader id
  | .selectSquadPermissions reader id => atomicStore.selectSquadPermissions reader id
  | .selectPermissionKeys reader id => atomicStore.selectPermissionKeys reader id
  | .selectOwnerId => atomicStore.selectOwnerId
  | .selectPlayerRole p => atomicStore.selectPlayerRole p
  | .selectDistinctRoles ids => atomicStore.selectDistinctRoles ids
  | .selectMembers id ids => atomicStore.selectMembers id ids
  | .countHolders id => atomicStore.countHolders id
  | .isReferencedByTier id => atomicStore.isReferencedByTier id
  | .insertRole row squad => atomicStore.insertRole row squad
  | .updateRole id body => atomicStore.updateRole id body
  | .deleteRole id => atomicStore.deleteRole id
  | .updatePlayers only ids roleId expiresAt =>
    atomicStore.updatePlayers only ids roleId expiresAt

def rolePerform (e : RoleCall R P) (db : RolesDb R P) : RoleReply e → Option (RolesDb R P)
  | .error _ => some db
  | .ok answer =>
    match e.alone db with
    | .ok (a, db') => if answer = a then some db' else none
    | .error _ => none

/-- Edits of the role `id` by one actor; each process is one request with its body. -/
def editSystem (actor : RoleActor P R) (id : R) :
    System (RoleCall R P) RoleReply UpdateBody (RolesDb R P) Empty where
  body body := do
    let _ ← (putRole (sharedStore : RoleStore (SharedM R P) R P) (some actor) id body).run
  perform := rolePerform
  environment := Empty.elim

end Calls

/-! ## What a request has read -/

/-- The queries that the check of the edited role is made on. -/
structure Readings (R : Type) where
  row : Option (RoleRow R)
  squad : Option (List JsString)
  explicit : Option (List JsString)

section Protocol
variable {R P : Type}

def Readings.next (e : RoleCall R P) (r : RoleReply e) (readings : Readings R) : Readings R :=
  match e, r with
  | .selectRole .route _, .ok row => { readings with row := row }
  | .selectSquadPermissions .route _, .ok squad => { readings with squad := some squad }
  | .selectPermissionKeys .route _, .ok explicit => { readings with explicit := some explicit }
  | _, _ => readings

/-- The role that the edit gives over what was read. -/
def Readings.proposed (readings : Readings R) (body : UpdateBody) : Option (PermissionContext R) :=
  match readings with
  | ⟨some row, some squad, some explicit⟩ =>
    some (buildRolePermissionContext row.id
      ⟨body.columns row.toRoleColumns, body.squad squad⟩ explicit)
  | _ => none

/-- The edited role, by the id of the request or by the id of its row. -/
def Readings.About (readings : Readings R) (id id' : R) : Prop :=
  id' = id ∨ ∃ row, readings.row = some row ∧ id' = row.id

/-- Only the edited role is queried and written, and it is written when the proposed role fits
inside the actor's permissions. -/
def editPre (actor : RoleActor P R) (id : R) (e : RoleCall R P) (readings : Readings R) : Prop :=
  match e with
  | .selectRole _ id' | .selectSquadPermissions _ id' | .selectPermissionKeys _ id' =>
    readings.About id id'
  | .updateRole id' body =>
    id' = id ∧ ∃ context, readings.proposed body = some context ∧
      context.Within actor.permissions
  | _ => False

def editProtocol (actor : RoleActor P R) (id : R) :
    Protocol (RoleCall R P) RoleReply (Readings R) where
  pre := editPre actor id
  next := Readings.next

/-- Queries of the guards leave the readings as they are. -/
def ofGuard (e : RoleCall R P) : Prop :=
  match e with
  | .selectRole reader _ | .selectSquadPermissions reader _ | .selectPermissionKeys reader _ =>
    reader ≠ .route
  | _ => False

theorem Readings.next_ofGuard {e : RoleCall R P} (he : ofGuard e) (r : RoleReply e)
    (readings : Readings R) : Readings.next e r readings = readings := by
  unfold Readings.next
  split
  · exact absurd rfl he
  · exact absurd rfl he
  · exact absurd rfl he
  · rfl

/-! ### Rules -/

section Rules
variable {actor : RoleActor P R} {id : R} {α β : Type} {g : Readings R} {f : Unit → SharedM R P β}
  {error : RouteError}

/-- The program keeps to the protocol. -/
def Edits (actor : RoleActor P R) (id : R) (p : SharedM R P α) (g : Readings R) : Prop :=
  p.run.Wp (editProtocol actor id) (fun _ _ => True) g

theorem edits_ensure {condition : Bool} (hf : condition = true → Edits actor id (f ()) g) :
    Edits actor id (ensure condition error >>= f) g := by
  cases condition with
  | false => trivial
  | true => exact hf rfl

theorem edits_orThrow {value : Option α} {f : α → SharedM R P β}
    (hf : ∀ a, value = some a → Edits actor id (f a) g) :
    Edits actor id (orThrow value error >>= f) g := by
  cases value with
  | none => trivial
  | some a => exact hf a rfl

theorem edits_refuse {refusal : Option RouteError} (hf : refusal = none → Edits actor id (f ()) g) :
    Edits actor id (refuse refusal >>= f) g := by
  cases refusal with
  | none => exact hf rfl
  | some error => trivial

theorem edits_authorize {user : Option (RoleActor P R)} {required : PermissionKey}
    {f : RoleActor P R → SharedM R P β}
    (hf : ∀ actor', user = some actor' → Edits actor id (f actor') g) :
    Edits actor id (authorize user required >>= f) g := by
  unfold Edits at *
  cases user with
  | none => trivial
  | some actor' =>
    simp only [authorize, orThrow, wp_run_bind, wp_run_pure]
    generalize actor'.permissions.permissions.has required = allowed
    cases allowed with
    | false => trivial
    | true => exact hf actor' rfl

theorem edits_await {e : RoleCall R P} {f : RoleAnswer e → SharedM R P β}
    (hpre : editPre actor id e g) (hf : ∀ a, Edits actor id (f a) (Readings.next e (.ok a) g)) :
    Edits actor id (await e (fun r => r) >>= f) g := by
  refine ⟨hpre, fun r => ?_⟩
  cases r with
  | error error => trivial
  | ok a => exact hf a

theorem edits_guard {p : SharedM R P α} {f : α → SharedM R P β}
    (hp : Prog.Calls (fun e => ofGuard e ∧ editPre actor id e g) p.run)
    (hf : ∀ a, Edits actor id (f a) g) : Edits actor id (p >>= f) g := by
  unfold Edits at *
  rw [wp_run_bind]
  refine wp_of_calls (fun e he => he.2) (fun e he r => Readings.next_ofGuard he.1 r g) hp ?_
  rintro (error | a)
  · trivial
  · exact hf a

end Rules

section Request
variable {actor : RoleActor P R} {id id' : R} {g : Readings R}

/-- The role with its squad permissions and its keys, whatever is made of them. -/
theorem calls_loadRole (habout : g.About id id') :
    (Prog.Calls (fun e => ofGuard e ∧ editPre actor id e g)
      (loadRolePermissions (sharedStore : RoleStore (SharedM R P) R P) id').run) ∧
    Prog.Calls (fun e => ofGuard e ∧ editPre actor id e g)
      (loadRoleGrant (sharedStore : RoleStore (SharedM R P) R P) id').run := by
  constructor <;> refine calls_run_bind ⟨⟨nofun, habout⟩, fun _ => trivial⟩ fun role => ?_
  all_goals
    cases role with
    | none => trivial
    | some role =>
      refine calls_run_bind ⟨⟨nofun, habout⟩, fun _ => trivial⟩ fun squad => ?_
      exact calls_run_bind ⟨⟨nofun, habout⟩, fun _ => trivial⟩ fun explicit => trivial

theorem calls_checkRoleWithinActor (user : RoleActor P R) (habout : g.About id id') :
    Prog.Calls (fun e => ofGuard e ∧ editPre actor id e g)
      (checkRoleWithinActor (sharedStore : RoleStore (SharedM R P) R P) (some user) id').run := by
  unfold checkRoleWithinActor
  simp only
  split
  · trivial
  · refine calls_run_bind (calls_loadRole habout).1 fun role => ?_
    cases role <;> trivial

/-- An edit writes only after the proposed role was found to fit inside the actor's permissions. -/
theorem edits_putRole [DecidableEq R] (howner : actor.permissions.isOwner = false)
    (body : UpdateBody) (g : Readings R) :
    Edits actor id (putRole (sharedStore : RoleStore (SharedM R P) R P) (some actor) id body)
      g := by
  refine edits_authorize fun actor' hactor => ?_
  cases hactor
  refine edits_await (.inl rfl) fun found => edits_orThrow fun row hrow => ?_
  cases hrow
  have habout : (Readings.next (.selectRole .route id : RoleCall R P) (.ok (some row)) g).About id
      row.id := .inr ⟨row, rfl, rfl⟩
  refine edits_ensure fun _ => edits_ensure fun _ => ?_
  refine edits_guard (calls_checkRoleWithinActor actor habout) fun refusal => ?_
  refine edits_refuse fun _ => ?_
  refine edits_await (.inr ⟨row, rfl, rfl⟩) fun squad => ?_
  refine edits_await (.inr ⟨row, rfl, rfl⟩) fun explicit => ?_
  refine edits_refuse fun _ => ?_
  refine edits_guard (calls_loadRole (.inl rfl)).2 fun grant =>
    edits_orThrow fun grant' _ => ?_
  refine edits_ensure fun _ => edits_refuse fun hwithin => ?_
  exact ⟨⟨rfl, _, rfl, (checkGrantsWithinActor_eq_none howner).1 hwithin⟩, fun _ => trivial⟩

end Request

end Protocol

/-! ## Runs -/

section Runs
variable {ι R P : Type} [DecidableEq R] [DecidableEq P] {actor : RoleActor P R} {id : R}
  {db db' : RolesDb R P} {g : Readings R}

abbrev EditConfig (ι R P : Type) := Config ι (RoleCall R P) RoleReply UpdateBody (RolesDb R P)

abbrev EditLabel (ι R P : Type) := Label ι (RoleCall R P) RoleReply UpdateBody Empty

def readings (hist : List (Event (RoleCall R P) RoleReply)) : Readings R :=
  hist.foldl (fun g ev => Readings.next ev.call ev.answer g) ⟨none, none, none⟩

/-- Where the body leaves a field out, the role still has what the request has read. -/
def Readings.upToDate (readings : Readings R) (body : UpdateBody) (role : StoredRole R) : Bool :=
  (readings.row.any fun row => body.columns role.toRoleColumns = body.columns row.toRoleColumns) &&
    readings.squad.any fun squad => body.squad role.squadPermissions = body.squad squad

/-- A request commits only over the role that it has checked. -/
def checkedRole (c : EditConfig ι R P) : EditLabel ι R P → Bool
  | .perform pid ⟨.updateRole id body, .ok _⟩ =>
    (c.procs pid).all fun p => (c.shared.role id).all fun role =>
      (readings p.hist).upToDate body role
  | _ => true

/-- The request whose commit of role `id` a record is. -/
def committer (id : R) (rec : Record ι (RoleCall R P) RoleReply UpdateBody) : Option ι :=
  match rec.event with
  | ⟨.updateRole id' _, .ok _⟩ => if id' = id then some rec.pid else none
  | _ => none

/-- The requests that have committed, in order. -/
def commits (id : R) (c : EditConfig ι R P) : List ι := c.log.filterMap (committer id)

/-- What is known of readings: they are of the edited role, whose explicit keys nobody changes. -/
structure Readings.Of (g : Readings R) (id : R) (keys : List JsString) : Prop where
  row : ∀ row, g.row = some row → row.id = id
  explicit : ∀ explicit, g.explicit = some explicit → explicit = keys

/-- `permission_key` of the rows of the role. -/
def RolesDb.permissionKeys (db : RolesDb R P) (id : R) : List JsString :=
  ((db.role id).map StoredRole.permissionKeys).getD []

theorem rolePerform_eq_some {e : RoleCall R P} {r : RoleReply e}
    (h : rolePerform e db r = some db') :
    (∃ error, r = .error error ∧ db' = db) ∨ ∃ a, r = .ok a ∧ e.alone db = .ok (a, db') := by
  cases r with
  | error error => exact .inl ⟨error, rfl, (Option.some.inj h).symm⟩
  | ok answer =>
    right
    refine ⟨answer, rfl, ?_⟩
    simp only [rolePerform] at h
    split at h
    · next a db₁ halone =>
      split at h
      · next heq =>
        cases h
        rw [halone, heq]
      · cases h
    · cases h

theorem Readings.Of.about {keys : List JsString} {id' : R} (hof : g.Of id keys)
    (habout : g.About id id') : id' = id := by
  rcases habout with heq | ⟨row, hrow, rfl⟩
  · exact heq
  · exact hof.row row hrow

/-- A call that the protocol allows reads the edited role, or writes it. -/
theorem readings_perform {e : RoleCall R P} {r : RoleReply e}
    (hpre : editPre actor id e g) (hof : g.Of id (db.permissionKeys id))
    (h : rolePerform e db r = some db') : (Readings.next e r g).Of id (db.permissionKeys id) ∧
      ((db' = db ∧ ∀ body, (⟨e, r⟩ : Event (RoleCall R P) RoleReply) ≠
          ⟨.updateRole id body, .ok ()⟩) ∨
        ∃ body, (⟨e, r⟩ : Event (RoleCall R P) RoleReply) = ⟨.updateRole id body, .ok ()⟩ ∧
          db' = db.updateRole id body) := by
  rcases rolePerform_eq_some h with ⟨error, rfl, hdb⟩ | ⟨a, rfl, halone⟩
  · refine ⟨?_, .inl ⟨hdb, fun _ heq => by cases heq⟩⟩
    have hsame : Readings.next e (.error error) g = g := by
      unfold Readings.next
      split <;> first | rfl | contradiction
    rw [hsame]
    exact hof
  · cases e with
    | selectRole reader id' =>
      change ask (fun db => (db.role id').map StoredRole.toRoleRow) db = _ at halone
      obtain ⟨hrow, hdb⟩ := ask_eq_ok.1 halone
      refine ⟨?_, .inl ⟨hdb, fun _ heq => by cases heq⟩⟩
      cases reader with
      | route =>
        refine ⟨fun row heq => ?_, hof.explicit⟩
        have hfound : (db.role id').map StoredRole.toRoleRow = some row := hrow.symm.trans heq
        obtain ⟨role, hrole, rfl⟩ := map_eq_some_iff.1 hfound
        exact (RolesDb.role_id hrole).trans (hof.about hpre)
      | loadRolePermissions | loadRoleGrant => exact hof
    | selectSquadPermissions reader id' =>
      change ask (fun db => ((db.role id').map StoredRole.squadPermissions).getD []) db = _
        at halone
      refine ⟨?_, .inl ⟨(ask_eq_ok.1 halone).2, fun _ heq => by cases heq⟩⟩
      cases reader with
      | route => exact ⟨hof.row, hof.explicit⟩
      | loadRolePermissions | loadRoleGrant => exact hof
    | selectPermissionKeys reader id' =>
      change ask (fun db => db.permissionKeys id') db = _ at halone
      obtain ⟨hkeys, hdb⟩ := ask_eq_ok.1 halone
      refine ⟨?_, Or.inl ⟨hdb, fun _ heq => by cases heq⟩⟩
      cases reader with
      | route =>
        refine ⟨hof.row, fun explicit heq => ?_⟩
        cases heq
        exact hkeys.trans (congrArg db.permissionKeys (hof.about hpre))
      | loadRolePermissions | loadRoleGrant => exact hof
    | updateRole id' body =>
      obtain ⟨rfl, -⟩ := hpre
      change atomicStore.updateRole id' body db = _ at halone
      rw [atomicStore_updateRole] at halone
      exact ⟨hof, .inr ⟨body, rfl, (write_eq_ok.1 halone).2⟩⟩
    | selectOwnerId | selectPlayerRole _ | selectDistinctRoles _ | selectMembers _ _
    | countHolders _ | isReferencedByTier _ | insertRole _ _ | deleteRole _
    | updatePlayers _ _ _ _ => exact hpre.elim

/-! ### The invariant -/

structure EditInv (actor : RoleActor P R) (id : R) (db₀ : RolesDb R P) (c : EditConfig ι R P) :
    Prop where
  keys : c.shared.permissionKeys id = db₀.permissionKeys id
  readings : ∀ pid p, c.procs pid = some p → (readings p.hist).Of id (db₀.permissionKeys id)
  within : commits id c ≠ [] → ∀ context, c.shared.roleContext id = some context →
    context.Within actor.permissions

variable {db₀ : RolesDb R P} {c c' : EditConfig ι R P}

theorem editInv_start : EditInv actor id db₀ (Config.start db₀ : EditConfig ι R P) where
  keys := rfl
  readings _ _ h := by cases h
  within hcommits := absurd rfl hcommits

theorem permissionKeys_updateRole (body : UpdateBody) :
    (db.updateRole id body).permissionKeys id = db.permissionKeys id := by
  simp only [RolesDb.permissionKeys, role_updateRole, map_map]
  congr 2
  funext role
  simp only [Function.comp_apply]
  split <;> rfl

/-- A commit over the role that was checked gives the proposed role. -/
theorem context_updateRole {body : UpdateBody} {role : StoredRole R} {context : PermissionContext R}
    (hrole : db.role id = some role) (hof : g.Of id (db.permissionKeys id))
    (hfresh : g.upToDate body role = true) (hproposed : g.proposed body = some context) :
    (role.update body).context = context := by
  obtain ⟨row, squad, explicit⟩ := g
  unfold Readings.proposed at hproposed
  split at hproposed
  · next row' squad' explicit' heq =>
    cases heq
    cases hproposed
    simp only [Readings.upToDate, any_some, Bool.and_eq_true, decide_eq_true_eq] at hfresh
    have hid : row'.id = role.id := (hof.row row' rfl).trans (RolesDb.role_id hrole).symm
    have hkeys : explicit' = role.permissionKeys := by
      rw [hof.explicit explicit' rfl, RolesDb.permissionKeys, hrole]
      rfl
    rw [hid, hkeys, ← hfresh.1, ← hfresh.2]
    rfl
  · cases hproposed

section Steps
variable [DecidableEq ι]

theorem committer_eq_none {rec : Record ι (RoleCall R P) RoleReply UpdateBody}
    (hnever : ∀ body, rec.event ≠ ⟨.updateRole id body, .ok ()⟩) : committer id rec = none := by
  unfold committer
  split
  · next id' body u hevent =>
    split
    · next heq =>
      cases heq
      exact absurd hevent (hnever body)
    · rfl
  · rfl

theorem editInv_perform {pid : ι} {body : UpdateBody}
    {hist : List (Event (RoleCall R P) RoleReply)} {e : RoleCall R P}
    {k : RoleReply e → Prog (RoleCall R P) RoleReply Unit} {r : RoleReply e}
    (hpre : editPre actor id e (readings hist))
    (hguard : checkedRole c (.perform pid ⟨e, r⟩) = true)
    (hinv : EditInv actor id db₀ c) (hp : c.procs pid = some ⟨body, hist, .call e k⟩)
    (hperform : rolePerform e c.shared r = some db') :
    EditInv actor id db₀ (System.answered c pid body hist ⟨e, r⟩ (k r) db') := by
  have hof := hinv.readings pid _ hp
  rw [← hinv.keys] at hof
  obtain ⟨hnext, heffect⟩ := readings_perform hpre hof hperform
  have hreadings : ∀ q p, (System.answered c pid body hist ⟨e, r⟩ (k r) db').procs q = some p →
      (readings p.hist).Of id (db₀.permissionKeys id) := by
    refine Config.forall_setProc ?_ hinv.readings
    rintro _ ⟨⟩
    rw [readings, List.foldl_concat, ← hinv.keys]
    exact hnext
  rcases heffect with ⟨rfl, hnever⟩ | ⟨written, hevent, rfl⟩
  · refine ⟨hinv.keys, hreadings, fun hcommits => hinv.within fun hnil => hcommits ?_⟩
    unfold commits at hnil
    simp only [commits, System.answered, List.filterMap_append, hnil]
    rw [List.filterMap_cons_none (committer_eq_none hnever)]
    rfl
  · refine ⟨(permissionKeys_updateRole written).trans hinv.keys, hreadings, ?_⟩
    intro _ context hcontext
    cases hevent
    obtain ⟨-, proposed, hproposed, hwithin⟩ := hpre
    change (c.shared.updateRole id written).roleContext id = some context at hcontext
    simp only [RolesDb.roleContext, role_updateRole, map_eq_some_iff] at hcontext
    obtain ⟨updated, ⟨role, hrole, rfl⟩, rfl⟩ := hcontext
    simp only [checkedRole, hp, hrole, all_some] at hguard
    rw [if_pos (RolesDb.role_id hrole), context_updateRole hrole hof hguard hproposed]
    exact hwithin

theorem editInv_step {l : EditLabel ι R P}
    (hfollows : System.Follows (editProtocol actor id) (fun _ => True)
      (fun _ => ⟨none, none, none⟩) c)
    (hguard : checkedRole c l = true) (hinv : EditInv actor id db₀ c)
    (hstep : (editSystem actor id).step c l = some c') : EditInv actor id db₀ c' := by
  rcases System.step_cases hstep with ⟨pid, body, rfl, -, rfl⟩ |
    ⟨pid, body, hist, e, k, r, db', rfl, hp, hperform, rfl⟩ | ⟨pid, rfl, rfl⟩ | ⟨move, -⟩
  · refine ⟨hinv.keys, Config.forall_setProc ?_ hinv.readings, hinv.within⟩
    rintro _ ⟨⟩
    exact ⟨fun _ h => (by cases h), fun _ h => (by cases h)⟩
  · exact editInv_perform (hfollows.procs pid _ hp).1 hguard hinv hp hperform
  · refine ⟨hinv.keys, Config.forall_setProc ?_ hinv.readings, hinv.within⟩
    rintro _ ⟨⟩
  · exact move.elim

theorem wp_editBody (howner : actor.permissions.isOwner = false) (body : UpdateBody) :
    ((editSystem actor id).body body).Wp (editProtocol actor id) (fun _ _ => True)
      ⟨none, none, none⟩ := by
  unfold editSystem
  rw [wp_bind]
  exact wp_mono (fun _ _ _ => trivial) (edits_putRole howner body _)

theorem grantsBeyond_of_checkedRole (howner : actor.permissions.isOwner = false)
    (hreach : (editSystem actor id).Reaches checkedRole (Config.start db₀) c)
    (hcommits : commits id c ≠ []) (context : PermissionContext R)
    (hcontext : c.shared.roleContext id = some context) :
    grantsBeyond actor.permissions context = [] := by
  have hinv : EditInv actor id db₀ c := by
    apply System.invariant_of_reaches (fun body => wp_editBody howner body) editInv_start _ hreach
    intro c l c' hfollows hguard hinv hstep
    exact editInv_step hfollows hguard hinv hstep
  exact grantsBeyond_eq_nil_iff.2 (hinv.within hcommits context hcontext)

end Steps

end Runs

/-! ## Two overlapping requests -/

def keepAll : UpdateBody where
  name := none
  squadPermissions := none
  panelAccess := none
  canViewIps := none
  canAssignRoles := none
  canEditRoles := none
  canManageIssues := none
  canManageBanSources := none
  canManageIntegrations := none
  canManageClans := none
  canManageEconomy := none
  canHandleReports := none
  canManageInfrastructure := none

/-- The manager of the sample, who does not manage the economy. -/
def sampleActor : RoleActor Nat Nat := ⟨1, sampleRoles.context 1⟩

/-- A role without panel access. -/
def clerkRow (panelAccess : Bool) : RoleRow Nat :=
  ⟨{ sampleColumns (js "Clerk") false false with panelAccess := panelAccess }, 5⟩

def clerkDb : RolesDb Nat Nat :=
  { sampleRoles.db with roles := sampleRoles.db.roles ++ [⟨clerkRow false, [], []⟩] }

/-- The queries of an edit of role 5 before its commit, when the row stays the same meanwhile. -/
def clerkQueries (pid : Nat) (row : RoleRow Nat) : List (EditLabel Nat Nat Nat) :=
  let queries (reader : Reader) : List (EditLabel Nat Nat Nat) :=
    [.perform pid ⟨.selectSquadPermissions reader 5, .ok []⟩,
      .perform pid ⟨.selectPermissionKeys reader 5, .ok []⟩]
  [.perform pid ⟨.selectRole .route 5, .ok (some row)⟩,
    .perform pid ⟨.selectRole .loadRolePermissions 5, .ok (some row)⟩] ++
  queries .loadRolePermissions ++ queries .route ++
  [.perform pid ⟨.selectRole .loadRoleGrant 5, .ok (some row)⟩] ++ queries .loadRoleGrant

def grantAccess : UpdateBody := { keepAll with panelAccess := some true }

def grantEconomy : UpdateBody := { keepAll with canManageEconomy := some true }

def grantAssign : UpdateBody := { keepAll with canAssignRoles := some true }

/-- Without panel access the economy flag has no effect, and panel access alone brings nothing that
the manager lacks; both requests check the role before either commits. -/
def overlappingEdits : List (EditLabel Nat Nat Nat) :=
  [.spawn 0 grantAccess, .spawn 1 grantEconomy] ++ clerkQueries 0 (clerkRow false) ++
    clerkQueries 1 (clerkRow false) ++
    [.perform 0 ⟨.updateRole 5 grantAccess, .ok ()⟩,
      .perform 1 ⟨.updateRole 5 grantEconomy, .ok ()⟩]

/-- The second request reads what the first has committed. -/
def successiveEdits : List (EditLabel Nat Nat Nat) :=
  [.spawn 0 grantAccess] ++ clerkQueries 0 (clerkRow false) ++
    [.perform 0 ⟨.updateRole 5 grantAccess, .ok ()⟩, .spawn 1 grantAssign] ++
    clerkQueries 1 (clerkRow true) ++ [.perform 1 ⟨.updateRole 5 grantAssign, .ok ()⟩]

theorem grantsBeyond_overlappingEdits :
    sampleActor.permissions.isOwner = false ∧ ∃ c : EditConfig Nat Nat Nat,
      (editSystem sampleActor 5).Reaches System.anyMove (Config.start clerkDb) c ∧
      commits 5 c = [0, 1] ∧
      (c.shared.roleContext 5).map (grantsBeyond sampleActor.permissions) =
        some [js "can_manage_economy"] := by
  refine ⟨by decide +kernel, ?_⟩
  have hrun : ((editSystem sampleActor 5).run System.anyMove (Config.start clerkDb)
      overlappingEdits).map (fun c => (commits 5 c,
        (c.shared.roleContext 5).map (grantsBeyond sampleActor.permissions))) =
      some ([0, 1], some [js "can_manage_economy"]) := by
    decide +kernel
  obtain ⟨c, hc, hstate⟩ := Machine.reaches_of_map_run hrun
  simp only [Prod.mk.injEq] at hstate
  exact ⟨c, hc, hstate⟩

theorem grantsBeyond_successiveEdits :
    ∃ (c : EditConfig Nat Nat Nat) (context : PermissionContext Nat),
      (editSystem sampleActor 5).Reaches checkedRole (Config.start clerkDb) c ∧
      commits 5 c = [0, 1] ∧ c.shared.roleContext 5 = some context ∧
      context.canAssignRoles = true ∧ grantsBeyond sampleActor.permissions context = [] := by
  have howner : sampleActor.permissions.isOwner = false := by decide +kernel
  have hrun : ((editSystem sampleActor 5).run checkedRole (Config.start clerkDb)
      successiveEdits).map (fun c => (commits 5 c,
        (c.shared.roleContext 5).map PermissionContext.canAssignRoles)) =
      some ([0, 1], some true) := by
    decide +kernel
  obtain ⟨c, hreach, hstate⟩ := Machine.reaches_of_map_run hrun
  simp only [Prod.mk.injEq, map_eq_some_iff] at hstate
  obtain ⟨hcommits, context, hcontext, hassign⟩ := hstate
  exact ⟨c, context, hreach, hcommits, hcontext, hassign,
    grantsBeyond_of_checkedRole howner hreach (by simp [hcommits]) context hcontext⟩

end SquadPanel.Access
