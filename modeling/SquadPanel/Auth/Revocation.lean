import Mathlib.Data.Fintype.Basic
import SquadPanel.Auth.SessionProtocol

/-!
# A revoked session and the cache

`resolveSession` puts into the cache what it has read from the table some time
before.  A revocation deletes the row and then the cache entry; a request that
has read the row puts the entry back when its `SET` comes after that `DEL`, and
`revokeAllForPlayers` leaves the entry alone when its `DELETE` finds no row.

Where neither happens, a completed revocation has left no row, no cache entry
and nobody to write one, and that stays so.
-/

set_option linter.unusedSectionVars false

namespace SquadPanel.Auth

open Js Lib List
open Machine (run reaches_of_run)

variable {ι Payload Raw : Type}

/-! ## What is left of a session -/

abbrev SessionConfig (ι Raw : Type) :=
  Config ι (StoreCall Raw) StoreReply SessionRequest (SessionStore Raw)

abbrev SessionProc (Raw : Type) := Proc (StoreCall Raw) StoreReply SessionRequest

def heldRow (p : SessionProc Raw) : Option SessionRow :=
  cacheWrites.ghost (fun _ => none) p.arg p.hist

/-- No request is about to put the session into the cache. -/
def NoWriteAhead (id : JsString) (c : SessionConfig ι Raw) : Prop :=
  ∀ pid p, c.procs pid = some p → ∀ row, heldRow p = some row → row.id ≠ id

def NoRow (id : JsString) (store : SessionStore Raw) : Prop := ∀ row ∈ store.rows, row.id ≠ id

/-- Nothing is left of the session, and nobody brings it back. -/
structure Clean (id : JsString) (c : SessionConfig ι Raw) : Prop where
  row : NoRow id c.shared
  redis : c.shared.redis (cacheKey id) = none
  writer : NoWriteAhead id c

section Store
variable [DecidableEq Raw] {store store' : SessionStore Raw} {e : StoreCall Raw}
  {r : StoreReply e} {id : JsString}

/-- Every row was there before, with its player. -/
def RowsFrom (store store' : SessionStore Raw) : Prop :=
  ∀ row ∈ store'.rows, ∃ row₀ ∈ store.rows, row.id = row₀.id ∧ row.playerId = row₀.playerId

theorem RowsFrom.noRow (hrows : RowsFrom store store') (hno : NoRow id store) :
    NoRow id store' := by
  intro row hrow
  obtain ⟨row₀, hrow₀, hid, -⟩ := hrows row hrow
  rw [hid]
  exact hno row₀ hrow₀

theorem RowsFrom.owned {player : JsString} (hrows : RowsFrom store store')
    (howned : ∀ row ∈ store.rows, row.id = id → row.playerId = player) :
    ∀ row ∈ store'.rows, row.id = id → row.playerId = player := by
  intro row hrow hid
  obtain ⟨row₀, hrow₀, hid₀, hplayer⟩ := hrows row hrow
  rw [hplayer]
  exact howned row₀ hrow₀ (hid₀ ▸ hid)

theorem rowsFrom_of_subset (h : store'.rows ⊆ store.rows) : RowsFrom store store' :=
  fun row hrow => ⟨row, h hrow, rfl, rfl⟩

theorem rowsFrom_perform (h : SessionStore.perform e store r = some store') :
    RowsFrom store store' := by
  apply rowsFrom_of_subset
  cases e <;> simp only [SessionStore.perform, Option.ite_none_right_eq_some,
    Option.some.injEq] at h
  case deleteSession | redisSet | redisDel | now | publishRevoked | respond =>
    subst h
    simp [SessionStore.set, SessionStore.del]
  case redisGet | selectSession | deleteSessionsOf =>
    obtain ⟨-, rfl⟩ := h
    simp

theorem rowsFrom_move {m : SessionMove} (h : SessionStore.move m store = some store') :
    RowsFrom store store' := by
  cases m with
  | touch id expiresAt lastActivityAt =>
    cases h
    intro row hrow
    obtain ⟨row₀, hrow₀, rfl⟩ := mem_map.1 hrow
    refine ⟨row₀, hrow₀, ?_⟩
    split <;> exact ⟨rfl, rfl⟩
  | invalidate id =>
    cases h
    exact rowsFrom_of_subset fun _ => fun hrow => hrow
  | prune now =>
    cases h
    exact rowsFrom_of_subset filter_sublist.subset

theorem redis_perform_none (hother : ∀ key value, e = .redisSet key value → key ≠ cacheKey id)
    (hnone : store.redis (cacheKey id) = none)
    (h : SessionStore.perform e store r = some store') : store'.redis (cacheKey id) = none := by
  cases e with
  | redisSet key value =>
    cases h
    simp [SessionStore.set, (hother key value rfl).symm, hnone]
  | redisDel keys =>
    cases h
    simp [SessionStore.del, hnone]
  | deleteSession | now | publishRevoked | respond =>
    cases h
    exact hnone
  | redisGet | selectSession | deleteSessionsOf =>
    obtain ⟨-, rfl⟩ := of_guarded h
    exact hnone

end Store

section Clean
variable [DecidableEq ι] [DecidableEq Raw] {format : CacheFormat Payload Raw} {id : JsString}
  {c c' : SessionConfig ι Raw}

theorem NoWriteAhead.setProc {pid : ι} {p : Option (SessionProc Raw)} (hwriter : NoWriteAhead id c)
    (hnew : ∀ q, p = some q → ∀ row, heldRow q = some row → row.id ≠ id) :
    NoWriteAhead id (c.setProc pid p) :=
  Config.forall_setProc hnew hwriter

/-- A call brings nothing back where there was no row and its cache entry is gone. -/
theorem clean_answered {pid : ι} {arg : SessionRequest}
    {hist : List (Event (StoreCall Raw) StoreReply)} {e : StoreCall Raw}
    {k : StoreReply e → SessionM Raw Unit} {r : StoreReply e} {s : SessionStore Raw}
    (hno : NoRow id c.shared) (hwriter : NoWriteAhead id c)
    (hredis : s.redis (cacheKey id) = none) (hproc : c.procs pid = some ⟨arg, hist, .call e k⟩)
    (hperform : SessionStore.perform e c.shared r = some s) :
    Clean id (System.answered c pid arg hist ⟨e, r⟩ (k r) s) := by
  refine ⟨(rowsFrom_perform hperform).noRow hno, hredis, hwriter.setProc ?_⟩
  rintro _ ⟨⟩ row hrow
  rw [heldRow, Protocol.ghost_append_singleton] at hrow
  cases e with
  | selectSession tokenId =>
    obtain ⟨rfl, -⟩ := Option.ite_none_right_eq_some.1 hperform
    exact hno row (mem_of_mem_filter (mem_of_mem_take (mem_of_head? hrow)))
  | now => exact hwriter pid _ hproc row (Option.filter_eq_some_iff.1 hrow).1
  | redisSet => cases hrow
  | redisGet | redisDel | deleteSession | deleteSessionsOf | publishRevoked | respond =>
    exact hwriter pid _ hproc row hrow

theorem Clean.step {l : Label ι (StoreCall Raw) StoreReply SessionRequest SessionMove}
    (hclean : Clean id c) (hwrites : System.Follows cacheWrites (fun _ => True) (fun _ => none) c)
    (hstep : (sessionSystem format).step c l = some c') : Clean id c' := by
  obtain ⟨pid, arg, -, -, rfl⟩ | ⟨pid, arg, hist, e, k, r, s, -, hproc, hperform, rfl⟩ |
    ⟨pid, -, rfl⟩ | ⟨m, s, -, hmove, rfl⟩ := System.step_cases hstep
  · exact ⟨hclean.row, hclean.redis, hclean.writer.setProc (by rintro _ ⟨⟩ row ⟨⟩)⟩
  · refine clean_answered hclean.row hclean.writer
      (redis_perform_none ?_ hclean.redis hperform) hproc hperform
    rintro key value rfl hkey
    obtain ⟨⟨row, hheld, hrow⟩, -⟩ := hwrites.procs pid _ hproc
    exact hclean.writer pid _ hproc row hheld (cacheKey_inj.1 (hrow.symm.trans hkey))
  · exact ⟨hclean.row, hclean.redis, hclean.writer.setProc nofun⟩
  · refine ⟨(rowsFrom_move hmove).noRow hclean.row, ?_, hclean.writer⟩
    cases m <;> cases hmove <;> simp [SessionStore.del, hclean.redis]

end Clean

/-! ## Undisturbed revocations -/

/-- A revocation deletes the cache entry when nobody is about to write it, and a bulk revocation
that finds the row gone finds the cache entry gone, too. -/
def Undisturbed (id player : JsString) (c : SessionConfig ι Raw) :
    Label ι (StoreCall Raw) StoreReply SessionRequest SessionMove → Prop
  | .perform pid ⟨.redisDel keys, _⟩ =>
    cacheKey id ∈ keys → (c.procs pid).any (·.arg.revokes id player) = true → NoWriteAhead id c
  | .perform _ ⟨.deleteSessionsOf playerIds, _⟩ =>
    player ∈ playerIds → NoRow id c.shared →
      c.shared.redis (cacheKey id) = none ∧ NoWriteAhead id c
  | _ => True

def progressOf (id player : JsString) (p : SessionProc Raw) : Progress :=
  (progress id player).ghost (Progress.start id player) p.arg p.hist

structure RevocationInv (id player : JsString) (c : SessionConfig ι Raw) : Prop where
  writes : System.Follows cacheWrites (fun _ => True) (fun _ => none) c
  steps : System.Follows (progress id player) (fun g => g.revokes = true → g.cleaned = true)
    (Progress.start id player) c
  owned : ∀ row ∈ c.shared.rows, row.id = id → row.playerId = player
  deleted : ∀ pid p, c.procs pid = some p → (progressOf id player p).deleted = true →
    NoRow id c.shared
  cleaned : ∀ pid p, c.procs pid = some p → p.arg.revokes id player = true →
    (progressOf id player p).cleaned = true → Clean id c

section Runs
variable [DecidableEq ι] [DecidableEq Raw] {format : CacheFormat Payload Raw} {id player : JsString}
  {c c' : SessionConfig ι Raw} {s : SessionStore Raw} {e : StoreCall Raw} {r : StoreReply e}
  {pid : ι} {p : Option (SessionProc Raw)}
  {l : Label ι (StoreCall Raw) StoreReply SessionRequest SessionMove} {c₁ : SessionConfig ι Raw}

theorem noRow_of_deleted {g : Progress}
    (howned : ∀ row ∈ c.shared.rows, row.id = id → row.playerId = player)
    (hperform : SessionStore.perform e c.shared r = some s)
    (hdeleted : (Progress.next id player e r g).deleted = true) :
    g.deleted = true ∨ NoRow id s := by
  cases e with
  | deleteSession tokenId =>
    simp only [Progress.next, Bool.or_eq_true, decide_eq_true_eq] at hdeleted
    refine hdeleted.imp_right fun hid => ?_
    simp only [SessionStore.perform, Option.some.injEq] at hperform
    subst hperform hid
    intro row hrow
    exact of_decide_eq_true (mem_filter.1 hrow).2
  | deleteSessionsOf playerIds =>
    simp only [Progress.next, Bool.or_eq_true, decide_eq_true_eq] at hdeleted
    refine hdeleted.imp_right fun hplayer => ?_
    obtain ⟨-, rfl⟩ := of_guarded hperform
    intro row hrow hid
    obtain ⟨hmem, hkept⟩ := mem_filter.1 hrow
    exact of_decide_eq_true hkept (howned row hmem hid ▸ hplayer)
  | redisGet | redisSet | redisDel | selectSession | now | publishRevoked | respond =>
    exact .inl hdeleted

section
variable (hinv : RevocationInv id player c)
include hinv

/-- A call with which a revocation has nothing left to delete. -/
theorem RevocationInv.clean_of_cleaned {arg : SessionRequest}
    {hist : List (Event (StoreCall Raw) StoreReply)} {k : StoreReply e → SessionM Raw Unit}
    (hguard : Undisturbed id player c (.perform pid ⟨e, r⟩))
    (hproc : c.procs pid = some ⟨arg, hist, .call e k⟩) (hrevokes : arg.revokes id player = true)
    (hperform : SessionStore.perform e c.shared r = some s) (hcleaned : (Progress.next id player e r
      (progressOf id player ⟨arg, hist, .call e k⟩)).cleaned = true) :
    Clean id c ∨ (NoRow id c.shared ∧ NoWriteAhead id c ∧ s.redis (cacheKey id) = none) := by
  have hbefore := hinv.cleaned pid _ hproc hrevokes
  cases e with
  | redisDel keys =>
    simp only [Progress.next, Bool.or_eq_true, Bool.and_eq_true, decide_eq_true_eq] at hcleaned
    refine hcleaned.imp hbefore fun hnow => ?_
    obtain ⟨hdeleted, hkey⟩ := hnow
    refine ⟨hinv.deleted pid _ hproc hdeleted, hguard hkey ?_, ?_⟩
    · rw [hproc]
      exact hrevokes
    · cases hperform
      simp [SessionStore.del, hkey]
  | deleteSessionsOf playerIds =>
    simp only [Progress.next, Bool.or_eq_true, Bool.and_eq_true, decide_eq_true_eq,
      all_eq_true] at hcleaned
    refine hcleaned.imp hbefore fun hnow => ?_
    obtain ⟨hplayer, hall⟩ := hnow
    obtain ⟨rfl, rfl⟩ := of_guarded hperform
    have hno : NoRow id c.shared := by
      intro row hrow hid
      have hdeleted : row ∈ c.shared.rows.filter (·.playerId ∈ playerIds) :=
        mem_filter.2 ⟨hrow, decide_eq_true (hinv.owned row hrow hid ▸ hplayer)⟩
      exact hall _ (mem_map_of_mem hdeleted) hid
    obtain ⟨hredis, hwriter⟩ := hguard hplayer hno
    exact ⟨hno, hwriter, hredis⟩
  | redisGet | redisSet | deleteSession | selectSession | now | publishRevoked | respond =>
    exact .inl (hbefore hcleaned)

theorem RevocationInv.setProc (hnew : ∀ q, p = some q → q.hist = [])
    (hwrites : System.Follows cacheWrites (fun _ => True) (fun _ => none) (c.setProc pid p))
    (hsteps : System.Follows (progress id player) (fun g => g.revokes = true → g.cleaned = true)
      (Progress.start id player) (c.setProc pid p))
    (hstay : Clean id c → Clean id (c.setProc pid p)) :
    RevocationInv id player (c.setProc pid p) := by
  have hstart (q : SessionProc Raw) (hq : p = some q) :
      progressOf id player q = Progress.start id player q.arg := by
    rw [progressOf, hnew q hq]
    rfl
  refine ⟨hwrites, hsteps, hinv.owned, Config.forall_setProc (fun q hq hdeleted => ?_) hinv.deleted,
    Config.forall_setProc (fun q hq _ hcleaned => ?_)
      fun pid' q hq hrevokes hcleaned => hstay (hinv.cleaned pid' q hq hrevokes hcleaned)⟩
  · rw [hstart q hq] at hdeleted
    cases hdeleted
  · rw [hstart q hq] at hcleaned
    cases hcleaned

theorem RevocationInv.step (hguard : Undisturbed id player c l)
    (hstep : (sessionSystem format).step c l = some c') : RevocationInv id player c' := by
  have hstay (hclean : Clean id c) : Clean id c' := hclean.step hinv.writes hstep
  have hwrites := System.follows_step (cacheWrites_body format) hinv.writes hstep
  have hsteps := System.follows_step (progress_body format) hinv.steps hstep
  obtain ⟨pid, arg, -, -, rfl⟩ | ⟨pid, arg, hist, e, k, r, s, rfl, hproc, hperform, rfl⟩ |
    ⟨pid, -, rfl⟩ | ⟨m, s, -, hmove, rfl⟩ := System.step_cases hstep
  · exact hinv.setProc (by rintro _ ⟨⟩; rfl) hwrites hsteps hstay
  · have hrows : RowsFrom c.shared s := rowsFrom_perform hperform
    refine ⟨hwrites, hsteps, hrows.owned hinv.owned, fun pid' p hp hdeleted => ?_,
      fun pid' p hp hrevokes hcleaned => ?_⟩ <;>
      rcases Config.setProc_procs_eq_some hp with ⟨-, hnew⟩ | ⟨-, hold⟩
    · cases hnew
      rw [progressOf, Protocol.ghost_append_singleton] at hdeleted
      rcases noRow_of_deleted hinv.owned hperform hdeleted with hbefore | hno
      · exact hrows.noRow (hinv.deleted pid _ hproc hbefore)
      · exact hno
    · exact hrows.noRow (hinv.deleted pid' p hold hdeleted)
    · cases hnew
      rw [progressOf, Protocol.ghost_append_singleton] at hcleaned
      rcases hinv.clean_of_cleaned hguard hproc hrevokes hperform hcleaned with
        hclean | ⟨hno, hwriter, hredis⟩
      · exact hstay hclean
      · exact clean_answered hno hwriter hredis hproc hperform
    · exact hstay (hinv.cleaned pid' p hold hrevokes hcleaned)
  · exact hinv.setProc nofun hwrites hsteps hstay
  · have hrows : RowsFrom c.shared s := rowsFrom_move hmove
    exact ⟨hwrites, hsteps, hrows.owned hinv.owned,
      fun pid' p hp hdeleted => hrows.noRow (hinv.deleted pid' p hp hdeleted),
      fun pid' p hp hrevokes hcleaned => hstay (hinv.cleaned pid' p hp hrevokes hcleaned)⟩

end

theorem revocationInv_of_reaches {store : SessionStore Raw}
    (howned : ∀ row ∈ store.rows, row.id = id → row.playerId = player)
    (hreach : Machine.Reaches (sessionSystem format).step (Undisturbed id player)
      (Config.start store) c) : RevocationInv id player c := by
  apply Machine.invariant_of_reaches _ _ hreach
  · exact ⟨System.follows_start store, System.follows_start store, howned, nofun, nofun⟩
  · intro c l c' _ hguard hinv hstep
    exact hinv.step hguard hstep

theorem progressOf_revokes (p : SessionProc Raw) :
    (progressOf id player p).revokes = p.arg.revokes id player := by
  refine foldlRecOn (motive := fun g : Progress => g.revokes = p.arg.revokes id player) p.hist _
    rfl ?_
  rintro g hg ⟨e, r⟩ -
  cases e <;> exact hg

/-- The sessions that a request has given its caller. -/
def returned (p : SessionProc Raw) : List SessionRecord :=
  p.hist.filterMap fun
    | ⟨.respond session, _⟩ => session
    | _ => none

/-- A revocation that has come to its end has nothing left to delete. -/
theorem RevocationInv.clean_of_completed {p : SessionProc Raw}
    (hinv : RevocationInv id player c) (hproc : c.procs pid = some p)
    (hrevokes : p.arg.revokes id player = true) (hover : p.completed = true) : Clean id c := by
  have hend := hinv.steps.of_completed hproc hover
  exact hinv.cleaned pid p hproc hrevokes (hend ((progressOf_revokes p).trans hrevokes))

/-! ## Requests that start afterwards -/

/-- The requests that were not there in `c₁` have not been shown the session, and none of them
has returned it. -/
structure Unseen (id player : JsString) (c₁ c : SessionConfig ι Raw) : Prop where
  seen : ∀ pid p, c₁.procs pid = none → c.procs pid = some p →
    (progressOf id player p).seen = false
  notReturned : ∀ pid p, c₁.procs pid = none → c.procs pid = some p →
    ∀ session ∈ returned p, session.id ≠ id

/-- Of a session of which nothing is left, nothing is shown. -/
theorem seen_next {g : Progress}
    (hclean : Clean id c) (hperform : SessionStore.perform e c.shared r = some s)
    (hseen : g.seen = false) : (Progress.next id player e r g).seen = false := by
  cases e with
  | redisGet key =>
    obtain ⟨rfl, -⟩ := Option.ite_none_right_eq_some.1 hperform
    by_cases hkey : key = cacheKey id
    · simp [Progress.next, hseen, hkey, hclean.redis]
    · simp [Progress.next, hseen, hkey]
  | selectSession tokenId =>
    obtain ⟨rfl, -⟩ := Option.ite_none_right_eq_some.1 hperform
    simp only [Progress.next, hseen, Bool.false_or, any_eq_false, decide_eq_true_eq]
    intro row hrow
    exact hclean.row row (mem_of_mem_filter (mem_of_mem_take hrow))
  | redisSet | redisDel | deleteSession | deleteSessionsOf | now | publishRevoked | respond =>
    exact hseen

theorem Unseen.setProc (hunseen : Unseen id player c₁ c)
    (hnew : ∀ q, p = some q → q.hist = []) : Unseen id player c₁ (c.setProc pid p) := by
  refine ⟨fun pid' q hlate hq => ?_, fun pid' q hlate hq session hsession => ?_⟩ <;>
    rcases Config.setProc_procs_eq_some hq with ⟨-, hp⟩ | ⟨-, hold⟩
  · rw [progressOf, hnew q hp]
    rfl
  · exact hunseen.seen pid' q hlate hold
  · rw [returned, hnew q hp] at hsession
    cases hsession
  · exact hunseen.notReturned pid' q hlate hold session hsession

theorem Unseen.step (hunseen : Unseen id player c₁ c) (hclean : Clean id c)
    (hsteps : System.Follows (progress id player) (fun g => g.revokes = true → g.cleaned = true)
      (Progress.start id player) c) (hstep : (sessionSystem format).step c l = some c') :
    Unseen id player c₁ c' := by
  obtain ⟨pid, arg, -, -, rfl⟩ | ⟨pid, arg, hist, e, k, r, s, -, hproc, hperform, rfl⟩ |
    ⟨pid, -, rfl⟩ | ⟨m, s, -, -, rfl⟩ := System.step_cases hstep
  · exact hunseen.setProc (by rintro _ ⟨⟩; rfl)
  · refine ⟨fun pid' p hlate hp => ?_, fun pid' p hlate hp session hsession => ?_⟩ <;>
      rcases Config.setProc_procs_eq_some hp with ⟨rfl, hnew⟩ | ⟨-, hold⟩
    · cases hnew
      rw [progressOf, Protocol.ghost_append_singleton]
      exact seen_next hclean hperform (hunseen.seen pid' _ hlate hproc)
    · exact hunseen.seen pid' p hlate hold
    · cases hnew
      rw [returned, filterMap_append, mem_append] at hsession
      rcases hsession with hbefore | hnow
      · exact hunseen.notReturned pid' _ hlate hproc session hbefore
      · obtain ⟨_, hmem, hresponse⟩ := mem_filterMap.1 hnow
        rw [mem_singleton] at hmem
        subst hmem
        -- what is returned must have been shown
        obtain ⟨hshown, -⟩ := hsteps.procs pid' _ hproc
        cases e <;> try cases hresponse
        intro hid
        have hseen := hunseen.seen pid' _ hlate hproc
        rw [progressOf, hshown session rfl hid] at hseen
        cases hseen
    · exact hunseen.notReturned pid' p hlate hold session hsession
  · exact hunseen.setProc nofun
  · exact ⟨hunseen.seen, hunseen.notReturned⟩

/-- What holds from the end of a revocation in `c₁` on. -/
structure Revoked (id player : JsString) (c₁ c : SessionConfig ι Raw) : Prop where
  clean : Clean id c
  writes : System.Follows cacheWrites (fun _ => True) (fun _ => none) c
  steps : System.Follows (progress id player) (fun g => g.revokes = true → g.cleaned = true)
    (Progress.start id player) c
  unseen : Unseen id player c₁ c

theorem Revoked.of_reaches (hinv : RevocationInv id player c₁) (hclean : Clean id c₁)
    (hlater : Machine.Reaches (sessionSystem format).step (fun _ _ => True) c₁ c) :
    Revoked id player c₁ c := by
  apply Machine.invariant_of_reaches _ _ hlater
  · refine ⟨hclean, hinv.writes, hinv.steps, ?_, ?_⟩ <;> intro pid p hnone hsome <;>
      rw [hnone] at hsome <;> cases hsome
  · intro c l c' _ _ hrevoked hstep
    exact ⟨hrevoked.clean.step hrevoked.writes hstep,
      System.follows_step (cacheWrites_body format) hrevoked.writes hstep,
      System.follows_step (progress_body format) hrevoked.steps hstep,
      hrevoked.unseen.step hrevoked.clean hrevoked.steps hstep⟩

/-- A revocation is over in `c₁`, and a request that was not there then has returned the session
in `c₂`. -/
def ReturnsRevoked (id player : JsString) (c₁ c₂ : SessionConfig ι Raw) : Prop :=
  (∃ pid, (c₁.procs pid).any (fun p => p.arg.revokes id player && p.completed) = true) ∧
    ∃ pid, (c₁.procs pid).isNone = true ∧
      (c₂.procs pid).any (fun q => (returned q).any (·.id = id)) = true

/-- No request that starts when an undisturbed revocation is over returns the session. -/
theorem not_returnsRevoked (format : CacheFormat Payload Raw) {store : SessionStore Raw}
    {c₂ : SessionConfig ι Raw} (howned : ∀ row ∈ store.rows, row.id = id → row.playerId = player)
    (hreach : Machine.Reaches (sessionSystem format).step (Undisturbed id player)
      (Config.start store) c₁)
    (hlater : Machine.Reaches (sessionSystem format).step (fun _ _ => True) c₁ c₂) :
    ¬ ReturnsRevoked id player c₁ c₂ := by
  rintro ⟨⟨pid, hrevocation⟩, pid', hnone, hreturned⟩
  obtain ⟨p, hp, hover⟩ := (Option.any_eq_true _ _).1 hrevocation
  obtain ⟨q, hq, hsession⟩ := (Option.any_eq_true _ _).1 hreturned
  obtain ⟨session, hmem, hid⟩ := any_eq_true.1 hsession
  rw [Bool.and_eq_true] at hover
  have hinv := revocationInv_of_reaches howned hreach
  have hclean := hinv.clean_of_completed hp hover.1 hover.2
  have hunseen := (Revoked.of_reaches hinv hclean hlater).unseen
  exact hunseen.notReturned pid' q (Option.isNone_iff_eq_none.1 hnone) hq session hmem
    (of_decide_eq_true hid)

end Runs

/-! ## Sample runs -/

section Decidable
variable [Fintype ι]

instance (id : JsString) (c : SessionConfig ι Raw) : Decidable (NoWriteAhead id c) :=
  decidable_of_iff (∀ pid, ∀ p ∈ c.procs pid, ∀ row ∈ heldRow p, row.id ≠ id) Iff.rfl

instance (id : JsString) (store : SessionStore Raw) : Decidable (NoRow id store) :=
  inferInstanceAs (Decidable (∀ row ∈ store.rows, row.id ≠ id))

instance (id player : JsString) (c : SessionConfig ι Raw)
    (l : Label ι (StoreCall Raw) StoreReply SessionRequest SessionMove) :
    Decidable (Undisturbed id player c l) := by
  unfold Undisturbed
  split <;> infer_instance

instance (id player : JsString) (c₁ c₂ : SessionConfig ι Raw) :
    Decidable (ReturnsRevoked id player c₁ c₂) := by
  unfold ReturnsRevoked
  infer_instance

end Decidable

/-- Tokens are their own ids, and an entry is its payload with the id as its code. -/
def plainFormat : CacheFormat CachedSession (CachedSession × JsString) where
  tokenIdFromToken token := token
  cacheMac tokenId _ := tokenId.map UInt16.toUInt8
  toBase64url bytes := bytes.map UInt8.toUInt16
  fromBase64url text := text.map UInt16.toUInt8
  stringify session := session
  parse payload := some payload
  stringifyEnvelope payload mac := (payload, mac)
  parseEnvelope raw := some raw

abbrev SampleLabel :=
  Label (Fin 3) (StoreCall (CachedSession × JsString)) StoreReply SessionRequest SessionMove

def sampleRow (id : JsString) : SessionRow :=
  ⟨id, js "p", 100, 0, none, none, js "panel"⟩

def sampleEntry (id : JsString) : CachedSession × JsString :=
  (⟨js "p", 100, 0, none, none, some (js "panel")⟩, id)

/-- Two sessions of one player, none of them cached. -/
def sampleStore : SessionStore (CachedSession × JsString) where
  rows := [sampleRow (js "s"), sampleRow (js "t")]
  redis := fun _ => none

/-- Request 0 has read the row when request 1 revokes the session. -/
def revokedWhileRead : List SampleLabel :=
  [.spawn 0 (.resolve (js "s")), .perform 0 ⟨.redisGet (cacheKey (js "s")), none⟩,
    .perform 0 ⟨.selectSession (js "s"), [sampleRow (js "s")]⟩, .perform 0 ⟨.now, (1 : Int)⟩,
    .spawn 1 (.revoke (js "s")), .perform 1 ⟨.deleteSession (js "s"), ()⟩,
    .perform 1 ⟨.redisDel [cacheKey (js "s")], ()⟩]

/-- Request 0 writes the cache, and request 2 starts. -/
def resolvedAfterwards : List SampleLabel :=
  [.perform 0 ⟨.redisSet (cacheKey (js "s")) (sampleEntry (js "s")), ()⟩,
    .spawn 2 (.resolve (js "s")),
    .perform 2 ⟨.redisGet (cacheKey (js "s")), some (sampleEntry (js "s"))⟩,
    .perform 2 ⟨.now, (2 : Int)⟩,
    .perform 2 ⟨.respond (some (sampleRow (js "s")).record), ()⟩]

theorem returnsRevoked_revokedWhileRead :
    ∃ c₁ c₂, Machine.Reaches (sessionSystem plainFormat).step (fun _ _ => True)
        (Config.start sampleStore) c₁ ∧
      Machine.Reaches (sessionSystem plainFormat).step (fun _ _ => True) c₁ c₂ ∧
      ReturnsRevoked (ι := Fin 3) (js "s") (js "p") c₁ c₂ := by
  have hrun : ((run (sessionSystem plainFormat).step (fun _ _ => True)
      (Config.start sampleStore) revokedWhileRead).bind fun c₁ =>
        (run (sessionSystem plainFormat).step (fun _ _ => True) c₁ resolvedAfterwards).map
          fun c₂ => decide (ReturnsRevoked (js "s") (js "p") c₁ c₂)) = some true := by
    decide +kernel
  obtain ⟨c₁, hc₁, hrest⟩ := Option.bind_eq_some_iff.1 hrun
  obtain ⟨c₂, hc₂, hreturns⟩ := Machine.reaches_of_map_run hrest
  exact ⟨c₁, c₂, reaches_of_run .refl hc₁, hc₂, of_decide_eq_true hreturns⟩

/-- Request 0 has cached the session when request 1 revokes all of the player's sessions. -/
def revokedWhenCached : List SampleLabel :=
  [.spawn 0 (.resolve (js "s")), .perform 0 ⟨.redisGet (cacheKey (js "s")), none⟩,
    .perform 0 ⟨.selectSession (js "s"), [sampleRow (js "s")]⟩, .perform 0 ⟨.now, (1 : Int)⟩,
    .perform 0 ⟨.redisSet (cacheKey (js "s")) (sampleEntry (js "s")), ()⟩,
    .spawn 1 (.revokeAll [js "p"] false),
    .perform 1 ⟨.deleteSessionsOf [js "p"], [(js "s", js "p"), (js "t", js "p")]⟩,
    .perform 1 ⟨.redisDel [cacheKey (js "s"), cacheKey (js "t")], ()⟩]

def resolvedInVain : List SampleLabel :=
  [.spawn 2 (.resolve (js "s")), .perform 2 ⟨.redisGet (cacheKey (js "s")), none⟩,
    .perform 2 ⟨.selectSession (js "s"), []⟩, .perform 2 ⟨.respond none, ()⟩]

theorem not_returnsRevoked_revokedWhenCached :
    ∃ c₁ c₂, run (sessionSystem plainFormat).step (Undisturbed (js "s") (js "p"))
        (Config.start sampleStore) revokedWhenCached = some c₁ ∧
      (c₁.procs 1).any Proc.completed = true ∧
      run (sessionSystem plainFormat).step (fun _ _ => True) c₁ resolvedInVain = some c₂ ∧
      ¬ ReturnsRevoked (js "s") (js "p") c₁ c₂ := by
  have hrun : ((run (sessionSystem plainFormat).step (Undisturbed (js "s") (js "p"))
      (Config.start sampleStore) revokedWhenCached).bind fun c₁ =>
        (run (sessionSystem plainFormat).step (fun _ _ => True) c₁ resolvedInVain).map
          fun _ => (c₁.procs 1).any Proc.completed) = some true := by
    decide +kernel
  obtain ⟨c₁, hc₁, hrest⟩ := Option.bind_eq_some_iff.1 hrun
  obtain ⟨c₂, hc₂, hover⟩ := Option.map_eq_some_iff.1 hrest
  have howned : ∀ row ∈ sampleStore.rows, row.id = js "s" → row.playerId = js "p" := by decide
  exact ⟨c₁, c₂, hc₁, hover, hc₂, not_returnsRevoked plainFormat howned
    (reaches_of_run .refl hc₁) (reaches_of_run .refl hc₂)⟩

end SquadPanel.Auth
