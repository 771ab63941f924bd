import SquadPanel.AdminsCfg.Body

/-!
# What the managed segment grants

The game server gives a player the permissions of every group that an `Admin=`
line puts the player in.  Read that way, a body gives each player the
permissions of their own role, and clan members those of the group
`ClanPriority`.

That name is shared with the roles: when an emitted role has it, the role's own
`Group=` line is the one clan members are put in.
-/

namespace SquadPanel.AdminsCfg

open Js List

/-- An `Admin=` line grants every permission of its group, and grants add up. -/
def Grants (entries : List CfgEntry) (eosId permission : JsString) : Prop :=
  ∃ name permissions, .admin eosId name ∈ entries ∧ .group name permissions ∈ entries ∧
    permission ∈ permissions

section
variable (inputs : SegmentInputs)

/-- The permission belongs to the player's own role, and the role's name is safe. -/
def OwnPermission (eosId permission : JsString) : Prop :=
  ∃ a ∈ inputs.admins, a.eosId = eosId ∧
    ∃ r ∈ inputs.roles, r.name = a.roleName ∧ isAdminsCfgSafeRoleName r.name = true ∧
      permission ∈ r.squadPermissions

def InClanPriority (eosId : JsString) : Prop :=
  ∃ e ∈ clanPriorityOf inputs, e.eosId = eosId

/-- An emitted role that has taken the name of the clan group. -/
def ClanPriorityRole (role : RoleEntry) : Prop :=
  role ∈ inputs.roles ∧ role.emitted = true ∧ role.name = CLAN_PRIORITY_GROUP_NAME

/-- What the clan group grants: `reserve`, or what a role of that name has. -/
def ClanPermission (permission : JsString) : Prop :=
  (permission = CLAN_PRIORITY_PERMISSION ∧ ¬ ∃ r, ClanPriorityRole inputs r) ∨
    ∃ r, ClanPriorityRole inputs r ∧ permission ∈ r.squadPermissions

end

variable {inputs : SegmentInputs} {eosId : JsString} {permission : JsString}

theorem RoleEntry.emitted_iff {role : RoleEntry} : role.emitted = true ↔
      role.squadPermissions ≠ [] ∧ isAdminsCfgSafeRoleName role.name = true := by
  simp [RoleEntry.emitted]

/-! ## The intended entries, one kind at a time -/

theorem group_mem_intendedEntries {name : JsString} {permissions : List JsString} :
    .group name permissions ∈ intendedEntries inputs ↔
      (∃ r ∈ inputs.roles, r.emitted = true ∧ r.name = name ∧
        sortUnits r.squadPermissions = permissions) ∨
      (name = CLAN_PRIORITY_GROUP_NAME ∧ permissions = [CLAN_PRIORITY_PERMISSION] ∧
        clanPriorityOf inputs ≠ [] ∧ ¬ ∃ r, ClanPriorityRole inputs r) := by
  have hnoRole : (∀ r ∈ inputs.roles, r.emitted = true → r.name ≠ CLAN_PRIORITY_GROUP_NAME) ↔
      ¬ ∃ r, ClanPriorityRole inputs r := by
    simp only [ClanPriorityRole, not_exists, not_and, ne_eq]
  simp only [intendedEntries, roleGroups, clanGroups, roleAdmins, clanPriorityAdmins,
    mem_append, mem_map, mem_filter, mem_ite_nil_right, mem_singleton,
    CfgEntry.group.injEq, reduceCtorEq, and_false, exists_false, or_false, hnoRole]
  constructor
  · rintro (⟨r, ⟨hr, hemitted⟩, hname, hperms⟩ | ⟨⟨hclan, hfree⟩, hname, hperms⟩)
    · exact .inl ⟨r, hr, hemitted, hname, hperms⟩
    · exact .inr ⟨hname, hperms, hclan, hfree⟩
  · rintro (⟨r, hr, hemitted, hname, hperms⟩ | ⟨hname, hperms, hclan, hfree⟩)
    · exact .inl ⟨r, ⟨hr, hemitted⟩, hname, hperms⟩
    · exact .inr ⟨⟨hclan, hfree⟩, hname, hperms⟩

theorem admin_mem_intendedEntries {name : JsString} : .admin eosId name ∈ intendedEntries inputs ↔
      (∃ a ∈ inputs.admins, a.eosId = eosId ∧ a.roleName = name ∧
        ∃ r ∈ inputs.roles, r.emitted = true ∧ r.name = name) ∨
      (name = CLAN_PRIORITY_GROUP_NAME ∧ InClanPriority inputs eosId) := by
  simp only [intendedEntries, roleGroups, clanGroups, roleAdmins, clanPriorityAdmins,
    mem_append, mem_map, mem_filter, mem_ite_nil_right, mem_singleton,
    any_eq_true, Bool.and_eq_true, beq_iff_eq, CfgEntry.admin.injEq, reduceCtorEq,
    and_false, exists_false, false_or, InClanPriority]
  constructor
  · rintro (⟨a, ⟨ha, r, hr, hemitted, hrole⟩, hid, rfl⟩ | ⟨e, he, hid, rfl⟩)
    · exact .inl ⟨a, ha, hid, rfl, r, hr, hemitted, hrole⟩
    · exact .inr ⟨rfl, e, he, hid⟩
  · rintro (⟨a, ha, hid, rfl, r, hr, hemitted, hrole⟩ | ⟨rfl, e, he, hid⟩)
    · exact .inl ⟨a, ⟨ha, r, hr, hemitted, hrole⟩, hid, rfl⟩
    · exact .inr ⟨e, he, hid, rfl⟩

theorem Grants.of_perm {entries entries' : List CfgEntry} (hperm : entries.Perm entries')
    (hgrants : Grants entries eosId permission) : Grants entries' eosId permission := by
  obtain ⟨name, permissions, hadmin, hgroup, hin⟩ := hgrants
  exact ⟨name, permissions, hperm.mem_iff.mp hadmin, hperm.mem_iff.mp hgroup, hin⟩

/-! ## Grants -/

theorem grants_of_own (hown : OwnPermission inputs eosId permission) :
    Grants (intendedEntries inputs) eosId permission := by
  obtain ⟨a, ha, hid, r, hr, hname, hsafe, hin⟩ := hown
  have hemitted : r.emitted = true := RoleEntry.emitted_iff.mpr ⟨ne_nil_of_mem hin, hsafe⟩
  refine ⟨a.roleName, sortUnits r.squadPermissions, ?_, ?_, mem_sortUnits.mpr hin⟩
  · exact admin_mem_intendedEntries.mpr (.inl ⟨a, ha, hid, rfl, r, hr, hemitted, hname⟩)
  · exact group_mem_intendedEntries.mpr (.inl ⟨r, hr, hemitted, hname, rfl⟩)

theorem grants_of_clan (hclan : InClanPriority inputs eosId)
    (hpermission : ClanPermission inputs permission) :
    Grants (intendedEntries inputs) eosId permission := by
  have hadmin : .admin eosId CLAN_PRIORITY_GROUP_NAME ∈ intendedEntries inputs :=
    admin_mem_intendedEntries.mpr (.inr ⟨rfl, hclan⟩)
  rcases hpermission with ⟨rfl, hfree⟩ | ⟨r, ⟨hr, hemitted, hname⟩, hin⟩
  · obtain ⟨e, he, -⟩ := hclan
    exact ⟨_, _, hadmin, group_mem_intendedEntries.mpr
      (.inr ⟨rfl, rfl, ne_nil_of_mem he, hfree⟩), mem_singleton_self _⟩
  · exact ⟨_, _, hadmin, group_mem_intendedEntries.mpr (.inl ⟨r, hr, hemitted, hname, rfl⟩),
      mem_sortUnits.mpr hin⟩

theorem own_or_clan_of_grants (hgrants : Grants (intendedEntries inputs) eosId permission) :
    OwnPermission inputs eosId permission ∨
      (InClanPriority inputs eosId ∧ ClanPermission inputs permission) := by
  obtain ⟨name, permissions, hadmin, hgroup, hin⟩ := hgrants
  rcases admin_mem_intendedEntries.mp hadmin with
    ⟨a, ha, hid, rfl, r, hr, hemitted, hname⟩ | ⟨rfl, hclan⟩
  · rcases group_mem_intendedEntries.mp hgroup with
      ⟨r', hr', hemitted', hname', rfl⟩ | ⟨hgroupName, -, -, hfree⟩
    · exact .inl ⟨a, ha, hid, r', hr', hname', (RoleEntry.emitted_iff.mp hemitted').2,
        mem_sortUnits.mp hin⟩
    · -- the clan group is not emitted beside a role of its name
      exact absurd ⟨r, hr, hemitted, hname.trans hgroupName⟩ hfree
  · rcases group_mem_intendedEntries.mp hgroup with
      ⟨r', hr', hemitted', hname', rfl⟩ | ⟨-, rfl, -, hfree⟩
    · exact .inr ⟨hclan, .inr ⟨r', ⟨hr', hemitted', hname'⟩, mem_sortUnits.mp hin⟩⟩
    · exact .inr ⟨hclan, .inl ⟨mem_singleton.mp hin, hfree⟩⟩

/-- A player is granted the permissions of their own role when its name is safe, and a clan member
those of the clan group, and nothing else. -/
theorem grants_body_iff (localeCompare : JsString → JsString → Int) {endsLine : UInt16 → Bool}
    (hends : EndsLines endsLine) (htyped : inputs.Typed) (eosId permission : JsString) :
    Grants (readEntries endsLine (buildManagedSegmentBody localeCompare inputs).body)
        eosId permission ↔
      OwnPermission inputs eosId permission ∨
        (InClanPriority inputs eosId ∧ ClanPermission inputs permission) := by
  have hperm := perm_intendedEntries localeCompare hends htyped
  constructor
  · intro hgrants
    exact own_or_clan_of_grants (hgrants.of_perm hperm)
  · rintro (hown | ⟨hclan, hpermission⟩)
    · exact (grants_of_own hown).of_perm hperm.symm
    · exact (grants_of_clan hclan hpermission).of_perm hperm.symm

theorem grants_body_iff_hostileInputs : EndsLines isLineBreaking ∧ hostileInputs.Typed ∧
      ¬ Grants
        (readEntries isLineBreaking (buildManagedSegmentBody compareUnits hostileInputs).body)
        (js "0002a2") (js "ban") := by
  refine ⟨endsLines_isLineBreaking, hostileInputs_typed, fun hgrants => ?_⟩
  rcases (grants_body_iff compareUnits endsLines_isLineBreaking hostileInputs_typed _ _).mp
    hgrants with ⟨a, ha, hid, r, hr, hname, hsafe, -⟩ | ⟨⟨e, he, hid⟩, -⟩
  · have hrejected : ∀ a ∈ hostileInputs.admins, a.eosId = js "0002a2" →
        ∀ r ∈ hostileInputs.roles, r.name = a.roleName →
          isAdminsCfgSafeRoleName r.name = false := by
      decide +kernel
    rw [hrejected a ha hid r hr hname] at hsafe
    cases hsafe
  · have hother : ∀ e ∈ clanPriorityOf hostileInputs, e.eosId ≠ js "0002a2" := by decide +kernel
    exact hother e he hid

/-! ## A role named like the clan group -/

/-- A role of moderators is called `ClanPriority`; a clan member holds no role. -/
def clanNamedRole : SegmentInputs :=
  { roles := [{ name := js "ClanPriority", squadPermissions := [js "ban", js "kick"] }]
    admins := []
    clanPriority := some [{ eosId := js "0002a3", clanName := js "Alpha" }] }

/-- The clan member may ban, which no role of theirs grants, and has no reserved slot. -/
theorem clanNamedRole_grants :
    clanNamedRole.Typed ∧ (clanNamedRole.roles.map RoleEntry.name).Nodup ∧
      (clanNamedRole.admins.map AdminEntry.eosId).Nodup ∧
      InClanPriority clanNamedRole (js "0002a3") ∧
      ¬ OwnPermission clanNamedRole (js "0002a3") (js "ban") ∧
      Grants
        (readEntries isLineBreaking (buildManagedSegmentBody compareUnits clanNamedRole).body)
        (js "0002a3") (js "ban") ∧
      ¬ Grants
        (readEntries isLineBreaking (buildManagedSegmentBody compareUnits clanNamedRole).body)
        (js "0002a3") (js "reserve") := by
  have hentries :
      readEntries isLineBreaking (buildManagedSegmentBody compareUnits clanNamedRole).body =
        [.group (js "ClanPriority") [js "ban", js "kick"],
          .admin (js "0002a3") (js "ClanPriority")] := by
    decide +kernel
  rw [hentries]
  refine ⟨⟨by decide, by decide +kernel, by decide +kernel⟩, by decide, by decide,
    ⟨_, mem_singleton_self _, rfl⟩, ?_, ?_, ?_⟩
  · rintro ⟨a, ha, -⟩
    cases ha
  · exact ⟨js "ClanPriority", [js "ban", js "kick"], by decide +kernel, by decide +kernel,
      by decide +kernel⟩
  · rintro ⟨name, permissions, -, hgroup, hin⟩
    have hboth : name = js "ClanPriority" ∧ permissions = [js "ban", js "kick"] := by
      simpa using hgroup
    rw [hboth.2] at hin
    exact absurd hin (by decide +kernel)

end SquadPanel.AdminsCfg
