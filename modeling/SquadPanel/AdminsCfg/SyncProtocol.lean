import SquadPanel.AdminsCfg.Delivery

/-!
# What a process may do under the lock

The books of a process say what its own calls show: the lock it holds, what it
has read and seen under that lock, and the changes it has made.  The protocol
allows a file to be written only with the segment of what was read, and a row to
be marked applied only after the file was seen with that segment or the server
was seen removed.  All programs of `Delivery` keep to it.
-/

namespace SquadPanel.AdminsCfg

open Js Lib Prog

/-- What a process has done since it took the lock of a server. -/
structure Lease (V I : Type) where
  tx : Nat
  server : V
  row : Option (I × OutboxRow V)
  roles : Option (Snapshot RolesTable)
  admins : Option (Snapshot AdminsTable)
  clanPriority : Option (Snapshot ClanPriorityTable)
  /-- the file as it was last read or written -/
  seen : Option JsString
  removed : Bool
  changes : List (I × OutboxChange)

inductive Books (V I : Type) where
  | idle
  | lease (l : Lease V I)
  | relay (x : Nat) (claimed : Option (ClaimedRow V I)) (changes : List (I × OutboxChange))
  | mutating (targets : List V)

section Protocol
variable {V I : Type} {H : Type} [DecidableEq H]
variable (localeCompare : JsString → JsString → Int) (hash : JsString → H)

def Lease.start (x : Nat) (s : V) : Lease V I :=
  ⟨x, s, none, none, none, none, none, false, []⟩

section
variable (l : Lease V I)

/-- The snapshots that were read. -/
def Lease.versions : List Nat :=
  (l.roles.map Snapshot.version).toList ++ (l.admins.map Snapshot.version).toList ++
    (l.clanPriority.map Snapshot.version).toList

/-- The segment of what was read. -/
def Lease.body : Option JsString :=
  match l.roles, l.admins, l.clanPriority with
  | some roles, some admins, some clanPriority =>
    some (managedSegmentBody localeCompare roles.rows admins.rows clanPriority.rows)
  | _, _, _ => none

/-- The file was last seen with the segment of what was read, as far as the hashes tell. -/
def Lease.Synced : Prop :=
  ∃ body file, l.body localeCompare = some body ∧ l.seen = some file ∧
    hashesMatch hash file body = true

/-- The row is one of the leased server. -/
def Lease.Concerns (id : I) : Prop :=
  ∃ row, l.row = some (id, row) ∧ row.serverId = l.server

def Lease.Justifies (id : I) : OutboxChange → Prop
  | .applied .serverRemoved => l.Concerns id ∧ l.removed = true
  | .applied _ => l.Concerns id ∧ l.Synced localeCompare hash
  | .failed _ => True
  | .relayed => False
  | .cancelled => False

end

/-- What the relay may write to the row it has claimed. -/
def ClaimedRow.Justifies (claimed : ClaimedRow V I) (id : I) (change : OutboxChange) : Prop :=
  claimed.id = id ∧
    (change = .relayed ∨ (change = .cancelled ∧ claimed.serverDeleted = true))

/-- The open transaction of a process. -/
def Books.tx : Books V I → Option Nat
  | .lease l => some l.tx
  | .relay x _ _ => some x
  | _ => none

def syncPre : SyncCall V I → Books V I → Prop
  | .lockServer _, g => g = .idle
  | .getOutbox x _, .lease l => l.tx = x ∧ l.changes = [] ∧ l.versions = [] ∧ l.removed = false
  | .selectRoles x, .lease l => l.tx = x ∧ l.changes = []
  | .selectAdmins x, .lease l => l.tx = x ∧ l.changes = []
  | .selectClanPriority x, .lease l => l.tx = x ∧ l.changes = []
  | .readServerState x s, .lease l => l.tx = x ∧ l.server = s ∧ l.changes = []
  | .updateOutbox x id change, .lease l =>
    l.tx = x ∧ l.changes = [] ∧ l.Justifies localeCompare hash id change
  | .updateOutbox x id change, .relay y claimed changes =>
    y = x ∧ changes = [] ∧ ∃ row, claimed = some row ∧ row.Justifies id change
  | .commit x, g => g.tx = some x
  | .rollback x, g => g.tx = some x
  | .fileRead s, .lease l => l.server = s ∧ l.changes = []
  | .fileAtomicWrite s content, .lease l =>
    l.server = s ∧ l.changes = [] ∧
      ∃ body, l.body localeCompare = some body ∧ segmentOf (some content) = some body
  | .claimRow _, g => g = .idle
  | .selectServers, g => g = .idle
  | .commitMutation targets _ _, .mutating ids => targets.map Prod.fst = ids
  | .confirmReload _ _, _ => True
  | .aside _, _ => True
  | .xadd _ _, _ => True
  | _, _ => False

/-- The books after an answer.  A new reading makes an earlier look at the file worthless. -/
def syncNext : (e : SyncCall V I) → SyncReply e → Books V I → Books V I
  | .lockServer s, .value x, _ => .lease (Lease.start x s)
  | .getOutbox _ id, .value (some row), .lease l => .lease { l with row := some (id, row) }
  | .selectRoles _, .value snap, .lease l =>
    .lease { l with roles := some snap, seen := none }
  | .selectAdmins _, .value snap, .lease l =>
    .lease { l with admins := some snap, seen := none }
  | .selectClanPriority _, .value snap, .lease l =>
    .lease { l with clanPriority := some snap, seen := none }
  | .readServerState _ _, .value state, .lease l =>
    .lease { l with removed := l.removed || isRemoved state }
  | .updateOutbox _ id change, .value (), .lease l =>
    .lease { l with changes := l.changes ++ [(id, change)] }
  | .updateOutbox _ id change, .value (), .relay x claimed changes =>
    .relay x claimed (changes ++ [(id, change)])
  | .commit _, _, _ => .idle
  | .rollback _, _, _ => .idle
  | .fileRead _, .content text, .lease l => .lease { l with seen := some text }
  | .fileRead _, .notFound, .lease l => .lease { l with seen := some [] }
  | .fileRead _, .error, .lease l => .lease { l with seen := none }
  | .fileAtomicWrite _ content, .written, .lease l => .lease { l with seen := some content }
  | .fileAtomicWrite _ content, .lost, .lease l => .lease { l with seen := some content }
  | .fileAtomicWrite _ _, .failed, .lease l => .lease { l with seen := none }
  | .claimRow _, .value (x, claimed), _ => .relay x claimed []
  | .selectServers, .value ids, _ => .mutating ids
  | .commitMutation _ _ _, _, _ => .idle
  | _, _, g => g

def syncProtocol : Protocol (SyncCall V I) SyncReply (Books V I) where
  pre := syncPre localeCompare hash
  next := syncNext

/-! ## Programs under a lease -/

/-- `p` keeps to the protocol from `l`, ends under the lease of `x`, and when it returns, meets
`post`. -/
def Keeps {α : Type} (x : Nat) (l : Lease V I) (p : SyncM V I α)
    (post : α → Lease V I → Prop) : Prop :=
  Wp (syncProtocol localeCompare hash) p.run
    (fun r g => ∃ l', g = .lease l' ∧ l'.tx = x ∧ ∀ a, r = .ok a → post a l') (.lease l)

variable {localeCompare hash} {α β : Type} {x : Nat} {l : Lease V I} {post : α → Lease V I → Prop}
  {p : SyncM V I α} {m : α → Lease V I → Prop} {f : α → SyncM V I β} {body : JsString}
  {opts : SyncOptions} {l₀ : Lease V I} {s : V} {id : I}

theorem answered {a : α} (htx : l.tx = x) (hpost : post a l) :
    ∃ l', Books.lease l = .lease l' ∧ l'.tx = x ∧
      ∀ b, (.ok a : Except Unit α) = .ok b → post b l' :=
  ⟨l, rfl, htx, fun _ h => by cases h; exact hpost⟩

theorem keeps_pure {a : α} (htx : l.tx = x) (hpost : post a l) :
    Keeps localeCompare hash x l (pure a) post :=
  answered htx hpost

theorem keeps_bind {post : β → Lease V I → Prop} (hp : Keeps localeCompare hash x l p m)
    (hf : ∀ a l', l'.tx = x → m a l' → Keeps localeCompare hash x l' (f a) post) :
    Keeps localeCompare hash x l (p >>= f) post := by
  unfold Keeps
  rw [wp_run_bind]
  refine wp_mono ?_ hp
  rintro (e | a) g ⟨l', rfl, htx, hmid⟩
  · exact ⟨l', rfl, htx, nofun⟩
  · exact hf a l' htx (hmid a rfl)

theorem keeps_mono (hp : Keeps localeCompare hash x l p m) (himp : ∀ a l', m a l' → post a l') :
    Keeps localeCompare hash x l p post := by
  refine wp_mono ?_ hp
  rintro r g ⟨l', hg, htx, hmid⟩
  exact ⟨l', hg, htx, fun a hr => himp a l' (hmid a hr)⟩

/-- One call that keeps the lease. -/
theorem keeps_await {e : SyncCall V I} {outcome : SyncReply e → Except Unit α}
    (hpre : syncPre localeCompare hash e (.lease l))
    (hnext : ∀ r, ∃ l', syncNext e r (.lease l) = .lease l' ∧ l'.tx = x ∧
      ∀ a, outcome r = .ok a → post a l') : Keeps localeCompare hash x l (await e outcome) post :=
  ⟨hpre, hnext⟩

section
variable (htx : l.tx = x)
include htx

/-- A call that leaves the books alone. -/
theorem keeps_quiet {e : SyncCall V I} {outcome : SyncReply e → Except Unit α}
    (hpre : syncPre localeCompare hash e (.lease l))
    (hnext : ∀ r, syncNext e r (.lease l) = .lease l) :
    Keeps localeCompare hash x l (await e outcome) fun _ l' => l = l' :=
  keeps_await hpre fun r => ⟨l, hnext r, htx, fun _ _ => rfl⟩

theorem keeps_publishStatus : Keeps localeCompare hash x l publishStatus fun _ l' => l = l' :=
  keeps_quiet htx trivial fun _ => rfl

theorem keeps_safeAppendAudit : Keeps localeCompare hash x l safeAppendAudit fun _ l' => l = l' :=
  keeps_quiet htx trivial fun _ => rfl

theorem keeps_requestAdminsCfgReload :
    Keeps localeCompare hash x l requestAdminsCfgReload fun _ l' => l = l' :=
  keeps_quiet htx trivial fun _ => rfl

theorem keeps_confirmReload (s : V) (id : I) :
    Keeps localeCompare hash x l (confirmReload s id) fun _ l' => l = l' :=
  keeps_quiet htx trivial fun _ => rfl

end

/-! ## A sync -/

/-- What a sync leaves as it was. -/
structure Stays (l l' : Lease V I) : Prop where
  server : l'.server = l.server
  row : l'.row = l.row
  removed : l'.removed = l.removed
  changes : l'.changes = []

theorem Stays.trans {l₁ l₂ : Lease V I} (h : Stays l l₁) (h' : Stays l₁ l₂) : Stays l l₂ :=
  ⟨h'.server.trans h.server, h'.row.trans h.row, h'.removed.trans h.removed, h'.changes⟩

theorem keeps_snapshotRolesAndAdmins (htx : l.tx = x) (hchanges : l.changes = []) :
    Keeps localeCompare hash x l (snapshotRolesAndAdmins x) fun tables l' =>
      Stays l l' ∧
        l'.body localeCompare =
          some (managedSegmentBody localeCompare tables.1 tables.2.1 tables.2.2) := by
  refine keeps_bind (m := fun roles l₁ => Stays l l₁ ∧ l₁.roles = some roles)
    (keeps_await ⟨htx, hchanges⟩ ?_) ?_
  · rintro (snap | _)
    · exact answered htx ⟨⟨rfl, rfl, rfl, hchanges⟩, rfl⟩
    · exact ⟨l, rfl, htx, nofun⟩
  rintro roles l₁ htx₁ ⟨hstays₁, hroles⟩
  refine keeps_bind
    (m := fun admins l₂ => Stays l l₂ ∧ l₂.roles = some roles ∧ l₂.admins = some admins)
    (keeps_await ⟨htx₁, hstays₁.changes⟩ ?_) ?_
  · rintro (snap | _)
    · exact answered htx₁ ⟨hstays₁.trans ⟨rfl, rfl, rfl, hstays₁.changes⟩, hroles, rfl⟩
    · exact ⟨l₁, rfl, htx₁, nofun⟩
  rintro admins l₂ htx₂ ⟨hstays₂, hroles₂, hadmins⟩
  refine keeps_bind
    (m := fun clan l₃ => Stays l l₃ ∧ l₃.roles = some roles ∧ l₃.admins = some admins ∧
      l₃.clanPriority = some clan)
    (keeps_await ⟨htx₂, hstays₂.changes⟩ ?_) ?_
  · rintro (snap | _)
    · exact answered htx₂ ⟨hstays₂.trans ⟨rfl, rfl, rfl, hstays₂.changes⟩, hroles₂, hadmins, rfl⟩
    · exact ⟨l₂, rfl, htx₂, nofun⟩
  rintro clan l₃ htx₃ ⟨hstays₃, hroles₃, hadmins₃, hclan⟩
  refine keeps_pure htx₃ ⟨hstays₃, ?_⟩
  simp only [Lease.body, hroles₃, hadmins₃, hclan]

theorem marked_of_body (hbody : l.body localeCompare = some body) : Marked body := by
  unfold Lease.body at hbody
  split at hbody
  · next roles admins clanPriority _ _ _ =>
    cases hbody
    exact marked_body localeCompare ⟨admins.rows.2, clanPriority.rows.2, roles.rows.2⟩
  · cases hbody

theorem segmentOf_splice (hmarked : Marked body) (content : JsString) :
    segmentOf (some (spliceManagedSegment content body)) = some body := by
  simp only [segmentOf, Option.getD_some, findManagedSegment_splice hmarked, Option.map_some]

theorem hashesMatch_splice (hmarked : Marked body) (content : JsString) :
    hashesMatch hash (spliceManagedSegment content body) body = true := by
  simp only [hashesMatch, findManagedSegment_splice hmarked, Option.map_some, BEq.rfl]

/-- What a sync of a leased server ends with. -/
structure SyncedBy (localeCompare : JsString → JsString → Int) (hash : JsString → H)
    (opts : SyncOptions) (l : Lease V I) (state : SyncState) (l' : Lease V I) : Prop where
  stays : Stays l l'
  synced : state = .wrote ∨ state = .inSync → l'.Synced localeCompare hash
  active : opts.mode = some .active → state ≠ .drift

theorem keeps_reportUnreachable (htx : l.tx = x) (hstays : Stays l₀ l) :
    Keeps localeCompare hash x l reportUnreachable (SyncedBy localeCompare hash opts l₀) := by
  refine keeps_bind (keeps_publishStatus htx) ?_
  rintro _ _ htx₁ rfl
  refine keeps_bind (keeps_safeAppendAudit htx₁) ?_
  rintro _ _ htx₂ rfl
  refine keeps_pure htx₂ ⟨hstays, ?_, fun _ => by simp⟩
  rintro (h | h) <;> cases h

theorem isPassiveCheck_of_active (hactive : opts.mode = some .active) :
    opts.isPassiveCheck = false := by
  simp [SyncOptions.isPassiveCheck, hactive]

theorem keeps_reconcileFile {original : JsString}
    (htx : l.tx = x) (hserver : l.server = s) (hstays : Stays l₀ l)
    (hbody : l.body localeCompare = some body) (hseen : l.seen = some original) :
    Keeps localeCompare hash x l (reconcileFile hash s opts original body)
      (SyncedBy localeCompare hash opts l₀) := by
  have hmarked := marked_of_body hbody
  unfold reconcileFile
  simp only
  split
  · -- the file is written with the fresh segment in it
    refine keeps_bind
      (m := fun reply l₁ => Stays l₀ l₁ ∧ l₁.body localeCompare = some body ∧
        (reply = .written → l₁.seen = some (spliceManagedSegment original body)))
      (keeps_await ⟨hserver, hstays.changes, body, hbody, segmentOf_splice hmarked original⟩ ?_) ?_
    · have hstays₁ (file : Option JsString) : Stays l₀ { l with seen := file } :=
        hstays.trans ⟨rfl, rfl, rfl, hstays.changes⟩
      rintro (_ | _ | _)
      · exact answered htx ⟨hstays₁ _, hbody, fun _ => rfl⟩
      · exact answered htx ⟨hstays₁ _, hbody, nofun⟩
      · exact answered htx ⟨hstays₁ _, hbody, nofun⟩
    rintro (_ | _ | _) l₁ htx₁ ⟨hstays₁, hbody₁, hwritten⟩
    · have hsynced : l₁.Synced localeCompare hash :=
        ⟨body, _, hbody₁, hwritten rfl, hashesMatch_splice hmarked original⟩
      refine keeps_bind (keeps_publishStatus htx₁) ?_
      rintro _ _ htx₂ rfl
      have htail : Keeps localeCompare hash x l₁ (do safeAppendAudit; return .wrote)
          (SyncedBy localeCompare hash opts l₀) := by
        refine keeps_bind (keeps_safeAppendAudit htx₂) ?_
        rintro _ _ htx₃ rfl
        exact keeps_pure htx₃ ⟨hstays₁, fun _ => hsynced, fun _ => by simp⟩
      split
      · refine keeps_bind (keeps_requestAdminsCfgReload htx₂) ?_
        rintro _ _ htx₃ rfl
        exact htail
      · exact htail
    · exact keeps_reportUnreachable htx₁ hstays₁
    · exact keeps_reportUnreachable htx₁ hstays₁
  · next hquiet =>
    refine keeps_bind (keeps_publishStatus htx) ?_
    rintro _ _ htx₁ rfl
    simp only [Bool.or_eq_true, Bool.and_eq_true, Bool.not_eq_true', not_or, not_and,
      Bool.not_eq_true, Bool.not_eq_false] at hquiet
    refine keeps_pure htx₁ ⟨hstays, fun hstate => ?_, fun hactive => ?_⟩
    · refine ⟨body, original, hbody, hseen, ?_⟩
      cases hmatch : hashesMatch hash original body with
      | true => rfl
      | false => simp [hmatch] at hstate
    · simp [hquiet.2 (isPassiveCheck_of_active hactive)]

theorem keeps_syncServerAdminsCfgLocked (opts : SyncOptions) (htx : l.tx = x)
    (hserver : l.server = s) (hchanges : l.changes = []) :
    Keeps localeCompare hash x l (syncServerAdminsCfgLocked localeCompare hash x s opts)
      (SyncedBy localeCompare hash opts l) := by
  refine keeps_bind (keeps_publishStatus htx) ?_
  rintro _ _ htx₁ rfl
  refine keeps_bind (keeps_snapshotRolesAndAdmins htx₁ hchanges) ?_
  rintro ⟨roles, admins, clanPriority⟩ l₁ htx₁ ⟨hstays, hbody⟩
  have hserver₁ : l₁.server = s := hstays.server.trans hserver
  refine keeps_bind
    (m := fun reply l₂ => Stays l l₂ ∧ l₂.body localeCompare = l₁.body localeCompare ∧
      (∀ text, reply = .content text → l₂.seen = some text) ∧
      (reply = .notFound → l₂.seen = some []))
    (keeps_await ⟨hserver₁, hstays.changes⟩ ?_) ?_
  · have hstays₁ (file : Option JsString) : Stays l { l₁ with seen := file } :=
      hstays.trans ⟨rfl, rfl, rfl, hstays.changes⟩
    rintro (text | _ | _)
    · exact answered htx₁ ⟨hstays₁ _, rfl, fun _ h => by cases h; rfl, nofun⟩
    · exact answered htx₁ ⟨hstays₁ _, rfl, nofun, fun _ => rfl⟩
    · exact answered htx₁ ⟨hstays₁ _, rfl, nofun, nofun⟩
  rintro (text | _ | _) l₂ htx₂ ⟨hstays₂, hbody₂, hcontent, hnone⟩
  · exact keeps_reconcileFile htx₂ (hstays₂.server.trans hserver) hstays₂ (hbody₂.trans hbody)
      (hcontent text rfl)
  · exact keeps_reconcileFile htx₂ (hstays₂.server.trans hserver) hstays₂ (hbody₂.trans hbody)
      (hnone rfl)
  · exact keeps_reportUnreachable htx₂ hstays₂

/-! ## A delivery -/

theorem keeps_update {change : OutboxChange} (htx : l.tx = x) (hchanges : l.changes = [])
    (hjustified : l.Justifies localeCompare hash id change) :
    Keeps localeCompare hash x l (update x id change) fun _ _ => True := by
  refine keeps_await ⟨htx, hchanges, hjustified⟩ ?_
  rintro (_ | _)
  · exact ⟨_, rfl, htx, fun _ _ => trivial⟩
  · exact ⟨l, rfl, htx, fun _ _ => trivial⟩

theorem keeps_complete {outcome : AppliedOutcome} (htx : l.tx = x) (hchanges : l.changes = [])
    (hjustified : l.Justifies localeCompare hash id (.applied outcome)) :
    Keeps localeCompare hash x l (complete x id outcome) fun _ _ => True :=
  keeps_bind (keeps_update htx hchanges hjustified) fun _ _ htx' _ => keeps_pure htx' trivial

theorem keeps_markFailed (code : FailureCode) (htx : l.tx = x) (hchanges : l.changes = []) :
    Keeps localeCompare hash x l (markFailed x id code) fun _ _ => True :=
  keeps_bind (keeps_update htx hchanges trivial) fun _ _ htx' _ => keeps_pure htx' trivial

/-- The leased row may be completed: the file was seen with the right segment. -/
structure Ready (localeCompare : JsString → JsString → Int) (hash : JsString → H) (x : Nat) (s : V)
    (id : I) (l : Lease V I) : Prop where
  tx : l.tx = x
  server : l.server = s
  changes : l.changes = []
  concerns : l.Concerns id
  synced : l.Synced localeCompare hash

section
variable (hready : Ready localeCompare hash x s id l)
include hready

theorem keeps_readServerState : Keeps localeCompare hash x l (readServerState x s) fun state l' =>
      Ready localeCompare hash x s id l' ∧ (isRemoved state = true → l'.removed = true) := by
  refine keeps_await ⟨hready.tx, hready.server, hready.changes⟩ ?_
  rintro (state | _)
  · refine ⟨_, rfl, hready.tx, fun _ h => ?_⟩
    cases h
    exact ⟨⟨hready.tx, hready.server, hready.changes, hready.concerns, hready.synced⟩,
      fun hremoved => by simp [hremoved]⟩
  · exact ⟨l, rfl, hready.tx, nofun⟩

theorem keeps_finish (finalState : Option (ServerRow V)) :
    Keeps localeCompare hash x l (finish x id finalState) fun _ _ => True := by
  unfold finish
  split <;>
    exact keeps_complete hready.tx hready.changes ⟨hready.concerns, hready.synced⟩

theorem keeps_removed (hremoved : l.removed = true) :
    Keeps localeCompare hash x l (complete x id .serverRemoved) fun _ _ => True :=
  keeps_complete hready.tx hready.changes ⟨hready.concerns, hremoved⟩

theorem keeps_confirmDelivery (reloadConfirmed : Bool) :
    Keeps localeCompare hash x l (confirmDelivery x s id reloadConfirmed) fun _ _ => True := by
  refine keeps_bind (keeps_readServerState hready) ?_
  rintro finalState l₁ htx₁ ⟨hready₁, hremoved₁⟩
  split
  · next hgone => exact keeps_removed hready₁ (hremoved₁ hgone)
  split
  · refine keeps_bind (keeps_confirmReload htx₁ s id) ?_
    rintro (_ | code) _ htx₂ rfl
    · refine keeps_bind (keeps_readServerState hready₁) ?_
      rintro finalState l₃ htx₃ ⟨hready₃, hremoved₃⟩
      split
      · next hgone => exact keeps_removed hready₃ (hremoved₃ hgone)
      · exact keeps_finish hready₃ finalState
    · exact keeps_markFailed code htx₂ hready₁.changes
  · exact keeps_finish hready₁ finalState

end

theorem keeps_applyOutboxRow (payload : Option SyncEvent) (htx : l.tx = x) (hserver : l.server = s)
    (hchanges : l.changes = []) (hconcerns : l.Concerns id) :
    Keeps localeCompare hash x l (applyOutboxRow localeCompare hash x s id payload)
      fun _ _ => True := by
  refine keeps_bind (keeps_syncServerAdminsCfgLocked _ htx hserver hchanges) ?_
  intro state l₁ htx₁ hsynced
  split
  · exact keeps_markFailed _ htx₁ hsynced.stays.changes
  next hreachable =>
  have hready : Ready localeCompare hash x s id l₁ := by
    refine ⟨htx₁, hsynced.stays.server.trans hserver, hsynced.stays.changes, ?_, ?_⟩
    · obtain ⟨row, hrow, hrowServer⟩ := hconcerns
      exact ⟨row, hsynced.stays.row.trans hrow, hrowServer.trans hsynced.stays.server.symm⟩
    · -- an active sync that reached the file never ends with drift
      have hdrift := hsynced.active rfl
      apply hsynced.synced
      cases state <;> simp_all
  refine keeps_bind (keeps_readServerState hready) ?_
  rintro firstState l₂ htx₂ ⟨hready₂, hremoved₂⟩
  split
  · next hgone => exact keeps_removed hready₂ (hremoved₂ hgone)
  split
  · refine keeps_bind (keeps_confirmReload htx₂ s id) ?_
    rintro (_ | code) _ htx₃ rfl
    · exact keeps_confirmDelivery hready₂ true
    · exact keeps_markFailed code htx₃ hready₂.changes
  · exact keeps_confirmDelivery hready₂ false

theorem keeps_handleOutboxEntry [DecidableEq V] (x : Nat) (s : V) (id : I) :
    Keeps localeCompare hash x (Lease.start x s) (handleOutboxEntry localeCompare hash x s id)
      fun _ _ => True := by
  refine keeps_bind
    (m := fun row l₁ => l₁.server = s ∧ l₁.changes = [] ∧
      ∀ outbox, row = some outbox → l₁.row = some (id, outbox))
    (keeps_await ⟨rfl, rfl, rfl, rfl⟩ ?_) ?_
  · rintro ((_ | row) | _)
    · exact answered rfl ⟨rfl, rfl, nofun⟩
    · exact answered rfl ⟨rfl, rfl, fun _ h => by cases h; rfl⟩
    · exact ⟨_, rfl, rfl, nofun⟩
  rintro (_ | outbox) l₁ htx₁ ⟨hserver, hchanges, hrow⟩
  · exact keeps_pure htx₁ trivial
  simp only
  split
  · exact keeps_pure htx₁ trivial
  next hserver' =>
  split
  · exact keeps_pure htx₁ trivial
  · refine keeps_applyOutboxRow _ htx₁ hserver hchanges ⟨outbox, hrow outbox rfl, ?_⟩
    rw [hserver]
    exact not_not.mp hserver'

/-! ## Whole processes -/

/-- From idle books back to idle books. -/
def Closes (localeCompare : JsString → JsString → Int) (hash : JsString → H)
    (p : SyncM V I α) : Prop :=
  Wp (syncProtocol localeCompare hash) p.run (fun _ g => g = .idle) .idle

theorem closes_pure (a : α) : Closes localeCompare hash (pure a : SyncM V I α) := rfl

theorem closes_bind (hp : Closes localeCompare hash p)
    (hf : ∀ a, Closes localeCompare hash (f a)) : Closes localeCompare hash (p >>= f) := by
  unfold Closes
  rw [wp_run_bind]
  refine wp_mono ?_ hp
  rintro (e | a) g rfl
  · rfl
  · exact hf a

theorem closes_acknowledge :
    Closes localeCompare hash (acknowledgeAndDeleteAdminsCfgEntry : SyncM V I Unit) :=
  ⟨trivial, fun _ => rfl⟩

/-- A transaction whose work stays in it closes again, however it ends. -/
theorem closes_transaction {start : SyncM V I β} {number : β → Nat} {work : β → SyncM V I α}
    (hstart : Wp (syncProtocol localeCompare hash) start.run
      (fun r g => match r with
        | .ok opened => Wp (syncProtocol localeCompare hash) (work opened).run
            (fun _ g' => g'.tx = some (number opened)) g
        | .error _ => g = .idle) .idle) :
    Closes localeCompare hash (transaction start number work) := by
  unfold Closes transaction
  rw [wp_run_bind]
  refine wp_mono ?_ hstart
  rintro (e | opened) g hopened
  · exact hopened
  simp only [wp_run_bind, wp_run_tryCatch, wp_run_await, wp_run_throw, wp_run_pure]
  refine wp_mono ?_ hopened
  rintro (e | a) g' htx
  · exact ⟨htx, fun _ => rfl⟩
  · refine ⟨htx, fun r => ?_⟩
    cases r <;> rfl

theorem closes_withAdminsCfgServerLock {work : Nat → SyncM V I α}
    (hwork : ∀ x, Keeps localeCompare hash x (Lease.start x s) (work x) fun _ _ => True) :
    Closes localeCompare hash (withAdminsCfgServerLock s work) := by
  apply closes_transaction
  refine ⟨rfl, fun r => ?_⟩
  rcases r with x | _
  · show Wp (syncProtocol localeCompare hash) (work x).run _ (.lease (Lease.start x s))
    refine wp_mono ?_ (hwork x)
    rintro _ g ⟨l, rfl, htx, -⟩
    exact congrArg some htx
  · rfl

theorem closes_syncServerAdminsCfg (s : V) (opts : SyncOptions) :
    Closes localeCompare hash (withAdminsCfgServerLock s fun x =>
      (syncServerAdminsCfgLocked localeCompare hash x s opts : SyncM V I SyncState)) := by
  apply closes_withAdminsCfgServerLock
  intro x
  exact keeps_mono (keeps_syncServerAdminsCfgLocked opts rfl rfl rfl) fun _ _ _ => trivial

theorem closes_handleAdminsCfgSyncEntry [DecidableEq V] (entry : AdminsCfgStreamEntry V I) :
    Closes localeCompare hash (handleAdminsCfgSyncEntry localeCompare hash entry) := by
  unfold handleAdminsCfgSyncEntry
  split
  · exact closes_bind closes_acknowledge fun _ => closes_pure _
  · exact closes_bind closes_acknowledge fun _ => closes_pure _
  · refine closes_bind (closes_syncServerAdminsCfg entry.serverId _) fun state => ?_
    split
    · exact closes_pure _
    · exact closes_bind closes_acknowledge fun _ => closes_pure _
  · next id _ =>
    refine closes_bind (closes_withAdminsCfgServerLock fun x =>
      keeps_handleOutboxEntry x entry.serverId id) fun outcome => ?_
    split
    · exact closes_bind closes_acknowledge fun _ => closes_pure _
    · exact closes_pure _

theorem closes_relayRow (failedIds : List I) :
    Closes localeCompare hash (relayRow failedIds : SyncM V I (RelayStep I)) := by
  apply closes_transaction
  refine ⟨rfl, fun r => ?_⟩
  rcases r with ⟨x, _ | row⟩ | _
  · rfl
  · -- the claimed row is cancelled, published or left for the next run
    have hupdate (change : OutboxChange) (step : RelayStep I)
        (hjustified : row.Justifies row.id change) :
        Wp (syncProtocol localeCompare hash) (update x row.id change >>= fun _ => pure step :
            SyncM V I (RelayStep I)).run
          (fun _ g' => g'.tx = some x) (.relay x (some row) []) := by
      refine ⟨⟨rfl, rfl, row, rfl, hjustified⟩, fun r => ?_⟩
      rcases r with _ | _ <;> rfl
    simp only [Reply.toExcept, wp_ret]
    split
    · next hdeleted => exact hupdate .cancelled .cancelled ⟨rfl, .inr ⟨rfl, hdeleted⟩⟩
    · rw [wp_run_bind]
      unfold publishRow
      split
      · rfl
      · refine ⟨trivial, fun r => ?_⟩
        rcases r with _ | _
        · exact hupdate .relayed .relayed ⟨rfl, .inl rfl⟩
        · rfl
  · rfl

theorem closes_relayAdminsCfgSyncOutbox (maxConsecutiveFailures fuel : Nat) (failedIds : List I)
    (consecutiveFailures : Nat) :
    Closes localeCompare hash (relayAdminsCfgSyncOutbox maxConsecutiveFailures fuel failedIds
      consecutiveFailures : SyncM V I Unit) := by
  induction fuel generalizing failedIds consecutiveFailures with
  | zero => exact closes_pure ()
  | succ fuel ih =>
    unfold relayAdminsCfgSyncOutbox
    split
    · refine closes_bind (closes_relayRow failedIds) fun step => ?_
      cases step with
      | drained => exact closes_pure ()
      | failed | cancelled | relayed => exact ih _ _
    · exact closes_pure ()

theorem closes_mutate (tables : Tables) (payload : Option SyncEvent) (rowId : V → I) :
    Closes localeCompare hash (mutate tables payload rowId) := by
  refine ⟨rfl, fun r => ?_⟩
  rcases r with ids | _
  · refine ⟨?_, fun r => ?_⟩
    · simp [syncProtocol, syncPre, syncNext, List.map_map, Function.comp_def]
    · cases r <;> rfl
  · rfl

/-- Every process keeps to the protocol and closes what it opens. -/
theorem wp_syncBody [DecidableEq V] (task : SyncTask V I) :
    Wp (syncProtocol localeCompare hash) (syncBody localeCompare hash task)
      (fun _ g => g = .idle) .idle := by
  have hrun {γ : Type} {p : SyncM V I γ} (hp : Closes localeCompare hash p) :
      Wp (syncProtocol localeCompare hash) (p.run >>= fun _ => pure ())
        (fun _ g => g = .idle) .idle := by
    rw [wp_bind]
    exact wp_mono (fun _ _ h => h) hp
  cases task with
  | deliver entry => exact hrun (closes_handleAdminsCfgSyncEntry entry)
  | resync s opts => exact hrun (closes_syncServerAdminsCfg s opts)
  | relay maxConsecutiveFailures fuel => exact hrun (closes_relayAdminsCfgSyncOutbox _ fuel [] 0)
  | mutate tables payload rowId => exact hrun (closes_mutate tables payload rowId)

end Protocol

end SquadPanel.AdminsCfg
