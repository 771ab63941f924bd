import SquadPanel.Lib.Machine

/-!
# The permission cache of an API process

A load that misses the cache reads the player's role, then the role's keys, and stores what it
built from them.  Loads run side by side with committed changes and with invalidations.
-/

namespace SquadPanel.Access

open Lib List

variable {P Row Keys C : Type} [DecidableEq P]

/-- A context and the number of changes that had committed at each of its readings. -/
structure LoadedContext (C : Type) where
  value : C
  readAt : List Nat

structure CacheEntry (C : Type) where
  loaded : LoadedContext C
  expiresAt : Int

def PERMISSION_CACHE_MAX_ENTRIES : Nat := 5000

def TTL_MS : Int := 30000

/-- The loop of `cachePermissions` over the entries, the oldest first. -/
def sweep (now : Int) : List (P × CacheEntry C) → List (P × CacheEntry C)
  | [] => []
  | entry :: rest =>
    if now < entry.2.expiresAt ∧ rest.length + 1 < PERMISSION_CACHE_MAX_ENTRIES then entry :: rest
    else sweep now rest

def cachePermissions (cache : List (P × CacheEntry C)) (now : Int) (player : P)
    (loaded : LoadedContext C) : List (P × CacheEntry C) :=
  sweep now (cache.filter (·.1 ≠ player)) ++ [(player, ⟨loaded, now + TTL_MS⟩)]

/-- Where a load is: it has asked for the row, for the keys, or has both. -/
inductive LoadStage (Row Keys : Type) where
  | started
  | hasRow (row : Option Row) (rowAt : Nat)
  | hasKeys (row : Row) (rowAt : Nat) (keys : Keys) (keysAt : Nat)

/-- The versions that the load has read. -/
def LoadStage.readAt : LoadStage Row Keys → List Nat
  | .started => []
  | .hasRow _ rowAt => [rowAt]
  | .hasKeys _ rowAt _ keysAt => [rowAt, keysAt]

/-- `since` counts the changes that the last invalidation before the start of the load followed. -/
structure PermissionLoad (P Row Keys : Type) where
  player : P
  since : Nat
  stage : LoadStage Row Keys

/-- The tables, the cache and the loads in flight.  `invalidated` is the version at the last
invalidation of a player, and `returned` what each load that has ended gave its caller. -/
structure PermissionState (P Row Keys C : Type) where
  row : P → Option Row
  keys : Row → Keys
  version : Nat
  cache : List (P × CacheEntry C)
  loads : Nat → Option (PermissionLoad P Row Keys)
  invalidated : P → Nat
  returned : List (Nat × LoadedContext C)

inductive PermissionEvent (P Row Keys : Type) where
  | load (id : Nat) (player : P) (now : Int)
  | readRow (id : Nat)
  | readKeys (id : Nat)
  | finish (id : Nat) (now : Int)
  | change (row : P → Option Row) (keys : Row → Keys)
  | invalidate (player : P)

/-- What a load builds: `none` while it waits for a reading. -/
def LoadStage.result (build : Row → Keys → C) (empty : C) :
    LoadStage Row Keys → Option (LoadedContext C)
  | stage@(.hasRow none _) => some ⟨empty, stage.readAt⟩
  | stage@(.hasKeys row _ keys _) => some ⟨build row keys, stage.readAt⟩
  | _ => none

variable (s : PermissionState P Row Keys C)

def PermissionState.setLoad (id : Nat)
    (load : Option (PermissionLoad P Row Keys)) : PermissionState P Row Keys C :=
  { s with loads := fun id' => if id' = id then load else s.loads id' }

/-- `loadUserPermissions` in its steps, changes and `invalidatePermissionCache`. -/
def permissionStep (build : Row → Keys → C) (empty : C) (s : PermissionState P Row Keys C) :
    PermissionEvent P Row Keys → Option (PermissionState P Row Keys C)
  | .load id player now =>
    let since := s.invalidated player
    match s.loads id, s.cache.find? (·.1 = player) with
    | some _, _ => none
    | none, some (_, entry) =>
      if now < entry.expiresAt then some { s with returned := (since, entry.loaded) :: s.returned }
      else some ({ s with cache := s.cache.filter (·.1 ≠ player) }.setLoad id
        (some ⟨player, since, .started⟩))
    | none, none => some (s.setLoad id (some ⟨player, since, .started⟩))
  | .readRow id =>
    match s.loads id with
    | some ⟨player, since, .started⟩ =>
      some (s.setLoad id (some ⟨player, since, .hasRow (s.row player) s.version⟩))
    | _ => none
  | .readKeys id =>
    match s.loads id with
    | some ⟨player, since, .hasRow (some row) rowAt⟩ =>
      some (s.setLoad id (some ⟨player, since, .hasKeys row rowAt (s.keys row) s.version⟩))
    | _ => none
  | .finish id now =>
    match s.loads id with
    | some load => (load.stage.result build empty).map fun loaded =>
        { s with
          cache := cachePermissions s.cache now load.player loaded
          returned := (load.since, loaded) :: s.returned }.setLoad id none
    | none => none
  | .change row keys => some { s with row, keys, version := s.version + 1 }
  | .invalidate player =>
    some { s with
      cache := s.cache.filter (·.1 ≠ player)
      invalidated := fun p => if p = player then s.version else s.invalidated p }

/-- What was returned contains every change that the last invalidation before the call followed. -/
def Reflects : Prop :=
  ∀ call ∈ s.returned, ∀ readAt ∈ call.2.readAt, call.1 ≤ readAt

/-- A player is invalidated while none of their loads has read anything yet. -/
def NothingRead : PermissionEvent P Row Keys → Prop
  | .invalidate player => ∀ id load, s.loads id = some load → load.player = player →
      load.stage.readAt = []
  | _ => True

structure CacheInv (s : PermissionState P Row Keys C) : Prop where
  reflects : Reflects s
  cached : ∀ entry ∈ s.cache, ∀ readAt ∈ entry.2.loaded.readAt, s.invalidated entry.1 ≤ readAt
  loading : ∀ id load, s.loads id = some load → load.since ≤ s.invalidated load.player ∧
    ∀ readAt ∈ load.stage.readAt, s.invalidated load.player ≤ readAt
  past : ∀ player, s.invalidated player ≤ s.version

variable {build : Row → Keys → C} {empty : C} {s s' : PermissionState P Row Keys C}

omit [DecidableEq P] in
theorem mem_of_mem_sweep {now : Int} {entry : P × CacheEntry C} {cache : List (P × CacheEntry C)}
    (hmem : entry ∈ sweep now cache) : entry ∈ cache := by
  induction cache with
  | nil => exact hmem
  | cons first rest ih =>
    unfold sweep at hmem
    split at hmem
    · exact hmem
    · exact mem_cons_of_mem _ (ih hmem)

theorem result_readAt {stage : LoadStage Row Keys} {loaded : LoadedContext C}
    (hresult : stage.result build empty = some loaded) : loaded.readAt = stage.readAt := by
  unfold LoadStage.result at hresult
  grind

omit [DecidableEq P] in
theorem CacheInv.setLoad (hinv : CacheInv s) (id : Nat) {load : PermissionLoad P Row Keys}
    (hsince : load.since ≤ s.invalidated load.player)
    (hread : ∀ readAt ∈ load.stage.readAt, s.invalidated load.player ≤ readAt) :
    CacheInv (s.setLoad id load) := by
  refine ⟨hinv.reflects, hinv.cached, fun id' load' hload => ?_, hinv.past⟩
  by_cases hid : id' = id
  · cases (if_pos hid).symm.trans hload
    exact ⟨hsince, hread⟩
  · exact hinv.loading id' load' ((if_neg hid).symm.trans hload)

theorem CacheInv.uncache (hinv : CacheInv s) (player : P) :
    CacheInv { s with cache := s.cache.filter (·.1 ≠ player) } :=
  ⟨hinv.reflects, fun entry hmem => hinv.cached entry ((mem_filter.1 hmem).1),
    hinv.loading, hinv.past⟩

theorem cacheInv_step {event : PermissionEvent P Row Keys} (hinv : CacheInv s)
    (hnothing : NothingRead s event) (hstep : permissionStep build empty s event = some s') :
    CacheInv s' := by
  have ⟨hreflects, hcached, hloading, hpast⟩ := hinv
  cases event with simp only [permissionStep] at hstep
  | load id player now =>
    split at hstep
    · cases hstep
    · next found entry _ hfind =>
      have hplayer := find?_some hfind
      obtain rfl : found = player := of_decide_eq_true hplayer
      have hentry := hcached _ (mem_of_find?_eq_some hfind)
      split at hstep <;> cases hstep
      · exact ⟨forall_mem_cons.2 ⟨hentry, hreflects⟩, hcached, hloading, hpast⟩
      · exact (hinv.uncache found).setLoad id (Nat.le_refl _) nofun
    · cases hstep
      exact hinv.setLoad id (Nat.le_refl _) nofun
  | readRow id =>
    split at hstep <;> cases hstep
    next hload =>
      exact hinv.setLoad id (hloading _ _ hload).1 (by simp [LoadStage.readAt, hpast])
  | readKeys id =>
    split at hstep <;> cases hstep
    next hload =>
      obtain ⟨hsince, hread⟩ := hloading _ _ hload
      exact hinv.setLoad id hsince (by simpa [LoadStage.readAt, hpast] using hread)
  | finish id now =>
    split at hstep
    · next load hload =>
      obtain ⟨loaded, hresult, rfl⟩ := Option.map_eq_some_iff.1 hstep
      obtain ⟨hsince, hread⟩ := hloading id load hload
      rw [← result_readAt hresult] at hread
      refine ⟨forall_mem_cons.2 ⟨fun readAt hmem => ?_, hreflects⟩, ?_, ?_, hpast⟩
      · exact Nat.le_trans hsince (hread readAt hmem)
      · refine forall_mem_append.2 ⟨fun entry hmem => ?_, forall_mem_singleton.2 hread⟩
        exact hcached entry (mem_filter.1 (mem_of_mem_sweep hmem)).1
      · simp only [PermissionState.setLoad, Option.ite_none_left_eq_some]
        exact fun id' load' hload => hloading id' load' hload.2
    · cases hstep
  | change row keys =>
    cases hstep
    exact ⟨hreflects, hcached, hloading, fun player => Nat.le_succ_of_le (hpast player)⟩
  | invalidate player =>
    cases hstep
    refine ⟨hreflects, fun entry hmem => ?_, fun id load hload => ?_, by grind⟩
    · obtain ⟨hcache, hother⟩ := mem_filter.1 hmem
      simpa [of_decide_eq_true hother] using hcached entry hcache
    · grind [hloading id load hload, hnothing id load hload]

def PermissionState.start (row : P → Option Row) (keys : Row → Keys) :
    PermissionState P Row Keys C :=
  ⟨row, keys, 0, [], fun _ => none, fun _ => 0, []⟩

/-- Where no load of a player is between its first reading and its end when they are invalidated,
every call that starts afterwards reflects the change. -/
theorem reflects_of_nothingRead (build : Row → Keys → C) (empty : C) (row : P → Option Row)
    (keys : Row → Keys)
    (hreach : Machine.Reaches (permissionStep build empty) NothingRead (.start row keys) s) :
    Reflects s :=
  (Machine.invariant_of_reaches ⟨nofun, nofun, nofun, fun _ => Nat.le_refl 0⟩
    (fun _ _ _ _ hnothing hinv hstep => cacheInv_step hinv hnothing hstep) hreach).reflects

/-- A change and its invalidation fall after the readings of a load and before its end: the load
stores what it read, and the next call is given it. -/
theorem not_reflects_sample : ∃ s : PermissionState Nat Nat Nat Nat,
      Machine.Reaches (permissionStep Nat.add 0) (fun _ _ => True) (.start some id) s ∧
        ¬Reflects s :=
  ⟨_, .step (e := .load 1 0 2) (.step (e := .finish 0 1) (.step (e := .invalidate 0)
    (.step (e := .change (fun _ => none) id) (.step (e := .readKeys 0) (.step (e := .readRow 0)
      (.step (e := .load 0 0 0) .refl trivial rfl) trivial rfl) trivial rfl) trivial rfl)
      trivial rfl) trivial rfl) trivial rfl,
    fun h => absurd (h _ (mem_cons_self ..) _ (mem_cons_self ..)) (by decide)⟩

theorem reflects_of_nothingRead_sample : ∃ s : PermissionState Nat Nat Nat Nat,
      Machine.Reaches (permissionStep Nat.add 0) NothingRead (.start some id) s ∧
        s.returned = [(1, ⟨0, [1]⟩)] ∧ Reflects s :=
  have hreach := .step (e := .finish 0 1) (.step (e := .readRow 0) (.step (e := .load 0 0 0)
    (.step (e := .invalidate 0) (.step (e := .change (fun _ => none) id) .refl trivial rfl)
      nofun rfl) trivial rfl) trivial rfl) trivial rfl
  ⟨_, hreach, rfl, reflects_of_nothingRead Nat.add 0 some id hreach⟩

end SquadPanel.Access
