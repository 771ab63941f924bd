import SquadPanel.AdminsCfg.Body

/-!
# The body does not depend on the order of the snapshot

The queries behind a snapshot return their rows in no particular order.  As every list is sorted
by keys that occur once, two snapshots with the same rows give the same body.
-/

namespace SquadPanel.AdminsCfg

open Js List

section
variable {α κ : Type*}

/-- A comparison that orders the keys and tells any two of them apart. -/
structure Collates (compare : κ → κ → Int) : Prop where
  separates : ∀ {a b}, compare a b = 0 ↔ a = b
  reverses : ∀ {a b}, compare a b < 0 ↔ 0 < compare b a
  trans : ∀ {a b c}, compare a b < 0 → compare b c < 0 → compare a c < 0

/-- Members that a sort cannot tell apart are the same, so that their order is no choice. -/
theorem insertionSort_eq_of_perm {r : α → α → Prop} [DecidableRel r] [Std.Total r] [IsTrans α r]
    {items items' : List α} (hperm : items.Perm items')
    (hsame : ∀ a ∈ items, ∀ b ∈ items, r a b → r b a → a = b) :
    items.insertionSort r = items'.insertionSort r := by
  have hsorted := (perm_insertionSort r items).trans
    (hperm.trans (perm_insertionSort r items').symm)
  refine List.Perm.eq_of_pairwise (fun a b ha hb => hsame a ?_ b ?_)
    (pairwise_insertionSort r _) (pairwise_insertionSort r _) hsorted
  · exact (mem_insertionSort r).1 ha
  · exact hperm.mem_iff.2 ((mem_insertionSort r).1 hb)

theorem sortUnits_eq_of_perm {items items' : List JsString} (hperm : items.Perm items') :
    sortUnits items = sortUnits items' := by
  have : Std.Total fun a b : JsString => ¬ b < a := ⟨List.le_total⟩
  exact insertionSort_eq_of_perm hperm fun _ _ _ _ => List.le_antisymm

variable {compare : κ → κ → Int}

theorem Collates.le_trans (hcollates : Collates compare) {a b c : κ} (hab : compare a b ≤ 0)
    (hbc : compare b c ≤ 0) : compare a c ≤ 0 := by
  rcases Int.lt_or_eq_of_le hab with hlt | heq
  · rcases Int.lt_or_eq_of_le hbc with hlt' | heq
    · exact (hcollates.trans hlt hlt').le
    · exact hcollates.separates.1 heq ▸ hab
  · exact hcollates.separates.1 heq ▸ hbc

theorem sortBy_eq_of_perm (hcollates : Collates compare) (key : α → κ) {items items' : List α}
    (hperm : items.Perm items') (hkeys : (items.map key).Nodup) :
    sortBy (fun a b => compare (key a) (key b)) items =
      sortBy (fun a b => compare (key a) (key b)) items' := by
  have : Std.Total fun a b => compare (key a) (key b) ≤ 0 := by
    refine ⟨fun a b => ?_⟩
    have hreverses := hcollates.reverses (a := key a) (b := key b)
    omega
  have : IsTrans α fun a b => compare (key a) (key b) ≤ 0 := ⟨fun _ _ _ => hcollates.le_trans⟩
  refine insertionSort_eq_of_perm hperm fun a ha b hb hab hba => ?_
  refine inj_on_of_nodup_map hkeys ha hb (hcollates.separates.1 ?_)
  exact le_antisymm hab (not_lt.1 fun hlt => absurd (hcollates.reverses.1 hlt) hba.not_gt)

/-- The comparison of admins: by role, and among those of one role by id. -/
theorem Collates.pair (hcollates : Collates compare) :
    Collates fun a b : κ × κ =>
      let r := compare a.1 b.1
      if r ≠ 0 then r else compare a.2 b.2 where
  separates := by
    intro a b
    rw [Prod.ext_iff, ← hcollates.separates, ← hcollates.separates]
    dsimp only
    split <;> simp_all
  reverses := by
    intro a b
    have hfirst := hcollates.reverses (a := a.1) (b := b.1)
    have hfirst' := hcollates.reverses (a := b.1) (b := a.1)
    have hsecond := hcollates.reverses (a := a.2) (b := b.2)
    dsimp only
    split <;> split <;> omega
  trans := by
    intro a b c hab hbc
    dsimp only at hab hbc ⊢
    have hle : compare a.1 c.1 ≤ 0 :=
      hcollates.le_trans (b := b.1) (by split at hab <;> omega) (by split at hbc <;> omega)
    split
    · omega
    · next heq =>
      have heq' := hcollates.separates.1 (not_not.1 heq)
      have hreverses := hcollates.reverses (a := a.1) (b := b.1)
      have hreverses' := hcollates.reverses (a := b.1) (b := a.1)
      rw [← heq'] at hbc
      have hzero : compare a.1 b.1 = 0 := by split at hab <;> split at hbc <;> omega
      have hzero' : compare b.1 a.1 = 0 := by omega
      rw [hzero] at hab
      rw [hzero'] at hbc
      exact hcollates.trans hab hbc

end

/-! ## The same rows in another order -/

/-- Two snapshots of the same rows: the lists are permuted, and so are the permissions of each
role. -/
structure Reordered (inputs inputs' : SegmentInputs) : Prop where
  roles : ∃ roles, inputs.roles.Perm roles ∧ Forall₂ (fun r r' =>
    r.name = r'.name ∧ r.squadPermissions.Perm r'.squadPermissions) roles inputs'.roles
  admins : inputs.admins.Perm inputs'.admins
  clanPriority : (clanPriorityOf inputs).Perm (clanPriorityOf inputs')

section Body
variable {localeCompare : JsString → JsString → Int} {inputs inputs' : SegmentInputs}
  (hcollates : Collates localeCompare) (hsame : Reordered inputs inputs')
  (hroles : (inputs.roles.map RoleEntry.name).Nodup)
include hcollates hsame hroles

theorem rolesWithPerms_reordered :
    rolesWithPerms localeCompare inputs = rolesWithPerms localeCompare inputs' := by
  obtain ⟨roles, hperm, hpairs⟩ := hsame.roles
  refine (sortBy_eq_of_perm hcollates RoleEntry.name ((hperm.filter _).map _) ?_).trans
    (congrArg _ ?_)
  · rw [map_map]
    exact hroles.sublist (filter_sublist.map _)
  · clear hperm hsame
    generalize inputs'.roles = roles' at hpairs
    induction hpairs with
    | nil => rfl
    | @cons r r' roles roles' hpair _ ih =>
      obtain ⟨name, permissions⟩ := r
      obtain ⟨rfl, hpermissions⟩ := hpair
      rw [filter_cons, filter_cons, hpermissions.length_eq, apply_ite (map _),
        apply_ite (map _), map_cons, map_cons, ih, sortUnits_eq_of_perm hpermissions]

/-- Snapshots of the same rows have the same body, if each key occurs once. -/
theorem buildManagedSegmentBody_reordered
    (hadmins : (inputs.admins.map fun a => (a.roleName, a.eosId)).Nodup)
    (hclan : ((clanPriorityOf inputs).map ClanPriorityEntry.eosId).Nodup) :
    buildManagedSegmentBody localeCompare inputs =
      buildManagedSegmentBody localeCompare inputs' := by
  have hroles' := rolesWithPerms_reordered hcollates hsame hroles
  have hnames : validRoleNames localeCompare inputs = validRoleNames localeCompare inputs' :=
    congrArg (map RoleEntry.name) hroles'
  have hadmins' : sortedAdmins localeCompare inputs = sortedAdmins localeCompare inputs' := by
    unfold sortedAdmins
    rw [← hnames]
    exact sortBy_eq_of_perm hcollates.pair (fun a : AdminEntry => (a.roleName, a.eosId))
      (hsame.admins.filter _) (hadmins.sublist (filter_sublist.map _))
  have hclan' : clanAdmins localeCompare inputs = clanAdmins localeCompare inputs' :=
    sortBy_eq_of_perm hcollates ClanPriorityEntry.eosId hsame.clanPriority hclan
  unfold buildManagedSegmentBody segmentLines innerLines totalGroups totalAdmins
    emitClanPriorityGroup
  rw [hroles', hnames, hadmins', hclan', hsame.clanPriority.length_eq]

end Body

/-! ## A snapshot in two orders -/

theorem collates_compareUnits : Collates compareUnits where
  separates := by
    intro a b
    unfold compareUnits
    constructor
    · intro h
      exact List.le_antisymm (fun hlt => by simp_all [List.lt_asymm hlt]) fun hlt => by simp_all
    · rintro rfl
      simp [List.lt_irrefl]
  reverses := by
    intro a b
    unfold compareUnits
    have hasymm : a < b → ¬ b < a := List.lt_asymm
    split <;> split <;> simp_all
  trans := by
    intro a b c hab hbc
    have hlt {x y : JsString} (h : compareUnits x y < 0) : x < y := by
      unfold compareUnits at h
      split at h
      · assumption
      · split at h <;> omega
    unfold compareUnits
    rw [if_pos (List.lt_trans (hlt hab) (hlt hbc))]
    decide

def moderators (permissions ids : List JsString) : SegmentInputs :=
  { roles := [⟨js "Moderator", permissions⟩]
    admins := ids.map (⟨·, js "Moderator", none⟩)
    clanPriority := none }

theorem buildManagedSegmentBody_reordered_moderators :
    buildManagedSegmentBody compareUnits
        (moderators [js "kick", js "chat"] [js "0002a2", js "0002a1"]) =
      buildManagedSegmentBody compareUnits
        (moderators [js "chat", js "kick"] [js "0002a1", js "0002a2"]) :=
  buildManagedSegmentBody_reordered collates_compareUnits
    ⟨⟨_, .rfl, .cons ⟨rfl, .swap ..⟩ .nil⟩, .swap .., .nil⟩ (by decide +kernel) (by decide +kernel)
    (by decide +kernel)

end SquadPanel.AdminsCfg
