import SquadPanel.Auth.Sessions

/-!
# What a session request does

Two facts about every request, call by call: what it puts into the cache is a
row it has read, and what it returns was shown to it, while a revocation does
not end before it has deleted the row and the cache entry.
-/

namespace SquadPanel.Auth

open Js Lib List Prog

variable {Payload Raw : Type} {e : StoreCall Raw}

/-! ## The row a request has read -/

/-- The row that a request has read and will put into the cache. -/
def rowAhead (e : StoreCall Raw) (r : StoreReply e) (held : Option SessionRow) :
    Option SessionRow :=
  match e, r with
  | .selectSession _, rows => rows.head?
  | .now, now => held.filter fun row => now < row.expiresAt
  | .redisSet _ _, _ => none
  | _, _ => held

/-- The cache is written with a row that was read. -/
def cacheWrites : Protocol (StoreCall Raw) StoreReply (Option SessionRow) where
  pre
    | .redisSet key _, held => ∃ row, held = some row ∧ key = cacheKey row.id
    | _, _ => True
  next := rowAhead

theorem wp_ask_bind {G α : Type} {P : Protocol (StoreCall Raw) StoreReply G}
    {f : StoreReply e → SessionM Raw α} {Q : α → G → Prop} {g : G} :
    Prog.Wp P (ask e >>= f) Q g ↔ P.pre e g ∧ ∀ r, Prog.Wp P (f r) Q (P.next e r g) :=
  Iff.rfl

theorem wp_ask {G : Type} {P : Protocol (StoreCall Raw) StoreReply G}
    {Q : StoreReply e → G → Prop} {g : G} :
    Prog.Wp P (ask e) Q g ↔ P.pre e g ∧ ∀ r, Q r (P.next e r g) :=
  Iff.rfl

variable (format : CacheFormat Payload Raw)

theorem cacheWrites_resolveRow (tokenId : JsString) (held : Option SessionRow) :
    Prog.Wp cacheWrites (resolveRow format tokenId) (fun _ _ => True) held := by
  refine wp_ask_bind.2 ⟨trivial, fun rows => ?_⟩
  change Prog.Wp cacheWrites _ _ rows.head?
  cases rows.head? with
  | none => trivial
  | some row =>
    refine wp_ask_bind.2 ⟨trivial, fun now => ?_⟩
    split
    · exact ⟨trivial, fun _ => ⟨trivial, fun _ => trivial⟩⟩
    · next hlive =>
      refine wp_ask_bind.2 ⟨⟨row, ?_, rfl⟩, fun _ => trivial⟩
      simp only [cacheWrites, rowAhead]
      exact Option.filter_some_pos (decide_eq_true (Int.not_le.1 hlive))

theorem cacheWrites_resolveSession (token : JsString) (held : Option SessionRow) :
    Prog.Wp cacheWrites (resolveSession format token) (fun _ _ => True) held := by
  unfold resolveSession
  split
  · trivial
  · refine wp_ask_bind.2 ⟨trivial, fun raw => ?_⟩
    cases raw.bind (decodeEntry format (format.tokenIdFromToken token)) with
    | none => exact cacheWrites_resolveRow format _ held
    | some cached =>
      refine wp_ask_bind.2 ⟨trivial, fun now => ?_⟩
      split
      · trivial
      · exact wp_ask_bind.2 ⟨trivial, fun _ => cacheWrites_resolveRow format _ _⟩

/-- The calls of a revocation: it writes nothing to the cache and returns no session. -/
def RevocationCall : StoreCall Raw → Prop
  | .redisSet _ _ | .respond _ => False
  | _ => True

theorem delBatches_calls (rows : List (JsString × JsString)) (starts : List Nat) :
    Prog.Calls RevocationCall (delBatches rows starts : SessionM Raw Unit) := by
  induction starts with
  | nil => trivial
  | cons i starts ih => exact ⟨trivial, fun _ => ih⟩

def Publishes (e : StoreCall Raw) : Prop :=
  ∃ ts player session, e = .publishRevoked ts player session

theorem publishAll_calls (ts : Int) (rows : List (JsString × JsString)) :
    Prog.Calls Publishes (publishAll ts rows : SessionM Raw Unit) := by
  induction rows with
  | nil => trivial
  | cons row rows ih => exact ⟨⟨_, _, _, rfl⟩, fun _ => ih⟩

theorem revokeAllForPlayers_calls (playerIds : List JsString) (publisher : Bool) :
    Prog.Calls RevocationCall (revokeAllForPlayers playerIds publisher : SessionM Raw Unit) := by
  unfold revokeAllForPlayers
  split
  · trivial
  · refine ⟨trivial, fun rows => ?_⟩
    change Prog.Calls RevocationCall (if rows.length = 0 then _ else _)
    split
    · trivial
    · refine calls_bind (delBatches_calls rows _) fun _ => ?_
      split
      · refine ⟨trivial, fun ts => calls_mono ?_ (publishAll_calls ts rows)⟩
        rintro e ⟨_, _, _, rfl⟩
        trivial
      · trivial

theorem cacheWrites_body [DecidableEq Raw] (request : SessionRequest) :
    ((sessionSystem format).body request).Wp cacheWrites (fun _ _ => True) none := by
  have hpre (e : StoreCall Raw) (he : RevocationCall e) (held : Option SessionRow) :
      cacheWrites.pre e held := by
    cases e <;> trivial
  cases request with
  | resolve token =>
    refine (wp_bind _ _ _ _).2
      (wp_mono ?_ (cacheWrites_resolveSession format token none))
    exact fun session held _ => ⟨trivial, fun _ => trivial⟩
  | revoke tokenId => exact ⟨trivial, fun _ => ⟨trivial, fun _ => trivial⟩⟩
  | revokeAll playerIds publisher =>
    exact wp_true_of_calls hpre (revokeAllForPlayers_calls playerIds publisher)

/-! ## How far a revocation is -/

variable (id player : JsString)

/-- The request revokes the session `id` of `player`. -/
def SessionRequest.revokes : SessionRequest → Bool
  | .resolve _ => false
  | .revoke tokenId => tokenId = id
  | .revokeAll playerIds _ => player ∈ playerIds

/-- Whether a request is a revocation of the session, has been shown the session, has deleted its
row, and has nothing left to delete. -/
structure Progress where
  revokes : Bool
  seen : Bool
  deleted : Bool
  cleaned : Bool

def Progress.start (request : SessionRequest) : Progress where
  revokes := request.revokes id player
  seen := false
  deleted := false
  cleaned := false

def Progress.next (e : StoreCall Raw) (r : StoreReply e) (g : Progress) :
    Progress :=
  match e, r with
  | .redisGet key, raw => { g with seen := g.seen || (key = cacheKey id && raw.isSome) }
  | .selectSession _, rows => { g with seen := g.seen || rows.any (·.id = id) }
  | .deleteSession tokenId, _ => { g with deleted := g.deleted || tokenId = id }
  | .deleteSessionsOf playerIds, rows =>
    { g with
      deleted := g.deleted || player ∈ playerIds
      cleaned := g.cleaned || (player ∈ playerIds && rows.all (·.1 ≠ id)) }
  | .redisDel keys, _ => { g with cleaned := g.cleaned || (g.deleted && cacheKey id ∈ keys) }
  | _, _ => g

/-- A session that is returned was shown to the request. -/
def progress : Protocol (StoreCall Raw) StoreReply Progress where
  pre
    | .respond session, g => ∀ s, session = some s → s.id = id → g.seen = true
    | _, _ => True
  next := Progress.next id player

section Progress
variable {id player : JsString} {g : Progress} {rows : List (JsString × JsString)}
  {playerIds : List JsString}

/-- What is returned has been seen. -/
def Shown (id : JsString) (session : Option SessionRecord) (g : Progress) : Prop :=
  g.revokes = false ∧ ∀ s, session = some s → s.id = id → g.seen = true

section
variable (format : CacheFormat Payload Raw) (tokenId : JsString)

theorem progress_resolveRow (hrevokes : g.revokes = false) :
    Prog.Wp (progress id player) (resolveRow format tokenId) (Shown id) g := by
  refine wp_ask_bind.2 ⟨trivial, fun rows => ?_⟩
  cases hrow : rows.head? with
  | none => exact ⟨hrevokes, nofun⟩
  | some row =>
    refine wp_ask_bind.2 ⟨trivial, fun now => ?_⟩
    split
    · exact ⟨trivial, fun _ => ⟨trivial, fun _ => ⟨hrevokes, nofun⟩⟩⟩
    · refine wp_ask_bind.2 ⟨trivial, fun _ => ⟨hrevokes, ?_⟩⟩
      rintro s ⟨⟩ hid
      have hmem : row ∈ rows := mem_of_head? hrow
      have hany : rows.any (·.id = id) = true :=
        any_eq_true.2 ⟨row, hmem, decide_eq_true hid⟩
      simp [progress, Progress.next, hany]

theorem progress_resolveCached {cached : Option SessionRecord} (hshown : Shown id cached g) :
    Prog.Wp (progress id player) (resolveCached format tokenId cached) (Shown id) g := by
  cases cached with
  | none => exact progress_resolveRow format tokenId hshown.1
  | some cached =>
    refine wp_ask_bind.2 ⟨trivial, fun now => ?_⟩
    split
    · exact hshown
    · exact wp_ask_bind.2 ⟨trivial, fun _ => progress_resolveRow format tokenId hshown.1⟩

end

theorem decodeEntry_id {format : CacheFormat Payload Raw} {tokenId : JsString} {raw : Raw}
    {session : SessionRecord} (h : decodeEntry format tokenId raw = some session) :
    session.id = tokenId := by
  unfold decodeEntry at h
  split at h
  · cases h
  · simp only at h
    split at h
    · cases h
    · obtain ⟨obj, -, rfl⟩ := Option.map_eq_some_iff.1 h
      rfl

variable (format : CacheFormat Payload Raw)

theorem progress_resolveSession (token : JsString) (hrevokes : g.revokes = false) :
    Prog.Wp (progress id player) (resolveSession format token) (Shown id) g := by
  unfold resolveSession
  split
  · exact ⟨hrevokes, nofun⟩
  · refine wp_ask_bind.2 ⟨trivial, fun raw => progress_resolveCached format _ ⟨hrevokes, ?_⟩⟩
    intro session hsession hid
    obtain ⟨entry, rfl, hentry⟩ := Option.bind_eq_some_iff.1 hsession
    have hkey : format.tokenIdFromToken token = id := by rw [← decodeEntry_id hentry, hid]
    simp [progress, Progress.next, hkey]

theorem exists_batch_of_mem {row : JsString × JsString}
    (hrow : row ∈ rows) : ∃ i ∈ batchStarts rows.length, row ∈ batch rows i := by
  obtain ⟨j, hj, rfl⟩ := mem_iff_getElem.1 hrow
  refine ⟨j / 1000 * 1000, ?_, ?_⟩
  · refine mem_map.2 ⟨j / 1000, mem_range.2 ?_, rfl⟩
    simp only [REVOKE_REDIS_DEL_BATCH]
    omega
  · refine mem_take_iff_getElem.2 ⟨j % 1000, ?_, ?_⟩
    · simp only [REVOKE_REDIS_DEL_BATCH, length_drop]
      omega
    · have hindex : j / 1000 * 1000 + j % 1000 = j := by omega
      simp only [getElem_drop, hindex]

/-- Batches are deleted until the one with the session is. -/
theorem progress_delBatches {starts : List Nat}
    {Q : Unit → Progress → Prop} (hdeleted : g.deleted = true)
    (hcleaned : g.cleaned = true ∨ ∃ i ∈ starts, ∃ row ∈ batch rows i, row.1 = id)
    (hQ : ∀ g', g'.cleaned = true → Q () g') :
    Prog.Wp (progress id player) (delBatches rows starts : SessionM Raw Unit) Q g := by
  induction starts generalizing g with
  | nil =>
    rcases hcleaned with hcleaned | ⟨i, hi, -⟩
    · exact hQ g hcleaned
    · cases hi
  | cons i starts ih =>
    refine wp_ask_bind.2 ⟨trivial, fun _ => ih hdeleted ?_⟩
    simp only [progress, Progress.next, hdeleted, Bool.true_and, Bool.or_eq_true, decide_eq_true_eq]
    rcases hcleaned with hcleaned | ⟨j, hj, row, hrow, hid⟩
    · exact .inl (.inl hcleaned)
    · rcases mem_cons.1 hj with rfl | hj
      · exact .inl (.inr (mem_map.2 ⟨row, hrow, by rw [hid]⟩))
      · exact .inr ⟨j, hj, row, hrow, hid⟩

theorem progress_revokeAllForPlayers {publisher : Bool} (hplayer : player ∈ playerIds) :
    Prog.Wp (progress id player) (revokeAllForPlayers playerIds publisher : SessionM Raw Unit)
      (fun _ g => g.cleaned = true) g := by
  have hne : playerIds.length ≠ 0 := Nat.ne_of_gt (length_pos_of_mem hplayer)
  unfold revokeAllForPlayers
  rw [if_neg hne]
  refine wp_ask_bind.2 ⟨trivial, fun rows => ?_⟩
  split
  · next hempty =>
    obtain rfl := length_eq_zero_iff.1 hempty
    simp [progress, Progress.next, hplayer]
  · refine (wp_bind _ _ _ _).2 (progress_delBatches ?_ ?_ fun g' hcleaned => ?_)
    · simp [progress, Progress.next, hplayer]
    · by_cases hall : rows.all (·.1 ≠ id) = true
      · left
        simp only [progress, Progress.next, hall, hplayer, decide_true, Bool.and_true, Bool.or_true]
      · right
        simp only [all_eq_true, decide_eq_true_eq, not_forall, not_not] at hall
        obtain ⟨row, hrow, hid⟩ := hall
        obtain ⟨i, hi, hbatch⟩ := exists_batch_of_mem hrow
        exact ⟨i, hi, row, hbatch, hid⟩
    · split
      · refine wp_ask_bind.2 ⟨trivial, fun ts => ?_⟩
        refine wp_of_calls ?_ ?_ (publishAll_calls ts rows) fun _ => hcleaned
        · rintro e ⟨_, _, _, rfl⟩
          trivial
        · rintro e ⟨_, _, _, rfl⟩ _
          rfl
      · exact hcleaned

theorem progress_revokeAll_others {publisher : Bool} (hrevokes : g.revokes = false) :
    Prog.Wp (progress id player) (revokeAllForPlayers playerIds publisher : SessionM Raw Unit)
      (fun _ g => g.revokes = false) g := by
  refine wp_invariant_of_calls ?_ ?_ (revokeAllForPlayers_calls playerIds publisher) hrevokes
  · intro e he g _
    cases e <;> trivial
  · intro e _ r g hg
    cases e <;> exact hg

theorem progress_body [DecidableEq Raw]
    (request : SessionRequest) : ((sessionSystem format).body request).Wp (progress id player)
      (fun _ g => g.revokes = true → g.cleaned = true) (Progress.start id player request) := by
  cases request with
  | resolve token =>
    refine (wp_bind _ _ _ _).2
      (wp_mono ?_ (progress_resolveSession format token rfl))
    rintro session g ⟨hrevokes, hshown⟩
    refine wp_ask.2 ⟨hshown, fun _ hrevokes' => ?_⟩
    exact absurd hrevokes' (by simp [progress, Progress.next, hrevokes])
  | revoke tokenId =>
    refine wp_ask_bind.2 ⟨trivial, fun _ => wp_ask.2 ⟨trivial, fun _ hrevokes => ?_⟩⟩
    have hid : tokenId = id := by
      simpa [progress, Progress.next, Progress.start, SessionRequest.revokes] using hrevokes
    simp [progress, Progress.next, hid]
  | revokeAll playerIds publisher =>
    by_cases hplayer : player ∈ playerIds
    · exact wp_mono (fun _ _ hcleaned _ => hcleaned) (progress_revokeAllForPlayers hplayer)
    · refine wp_mono (fun _ g hrevokes hrevokes' => ?_)
        (progress_revokeAll_others (decide_eq_false hplayer))
      rw [hrevokes] at hrevokes'
      cases hrevokes'

end Progress

end SquadPanel.Auth
