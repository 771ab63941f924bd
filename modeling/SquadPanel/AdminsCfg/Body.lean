import SquadPanel.AdminsCfg.Lines

/-!
# What a built body holds

The body of the managed segment, read as a whole: its markers stand at its two
ends and nowhere else, and its lines give the groups and admins that the
snapshot asks for, whatever the text of names and comments.
-/

namespace SquadPanel.AdminsCfg

open Js Lib List

/-! ## The intended entries -/

/-- A role that the segment may name: it has a permission and a safe name. -/
def RoleEntry.emitted (role : RoleEntry) : Bool :=
  role.squadPermissions ≠ [] && isAdminsCfgSafeRoleName role.name

section
variable (inputs : SegmentInputs)

def roleGroups : List CfgEntry :=
  (inputs.roles.filter RoleEntry.emitted).map fun r => .group r.name (sortUnits r.squadPermissions)

/-- Clan members get a group of their own, unless an emitted role has taken its name. -/
def clanGroups : List CfgEntry :=
  if clanPriorityOf inputs ≠ [] ∧
      ∀ r ∈ inputs.roles, r.emitted = true → r.name ≠ CLAN_PRIORITY_GROUP_NAME then
    [.group CLAN_PRIORITY_GROUP_NAME [CLAN_PRIORITY_PERMISSION]]
  else []

def roleAdmins : List CfgEntry :=
  (inputs.admins.filter fun a =>
    inputs.roles.any fun r => r.emitted && r.name == a.roleName).map fun a =>
      .admin a.eosId a.roleName

def clanPriorityAdmins : List CfgEntry :=
  (clanPriorityOf inputs).map fun e => .admin e.eosId CLAN_PRIORITY_GROUP_NAME

/-- The groups and admins of a snapshot. -/
def intendedEntries : List CfgEntry :=
  roleGroups inputs ++ clanGroups inputs ++ roleAdmins inputs ++ clanPriorityAdmins inputs

end

/-! ## Each line holds its entry -/

theorem renders_groupLine (role : RoleEntry) :
    Renders (groupLine role) (.group role.name role.squadPermissions) := .inl rfl

theorem renders_clanGroupLine :
    Renders clanGroupLine (.group CLAN_PRIORITY_GROUP_NAME [CLAN_PRIORITY_PERMISSION]) := by
  left
  simp only [clanGroupLine, CfgEntry.text, intercalate_singleton]

theorem renders_adminLine (admin : AdminEntry) :
    Renders (adminLine admin) (.admin admin.eosId admin.roleName) := by
  cases hcomment : admin.comment with
  | none => exact .inl (by simp [adminLine, hcomment, CfgEntry.text])
  | some comment =>
    by_cases hempty : toAdminsCfgCommentText comment = []
    · exact .inl (by simp [adminLine, hcomment, hempty, CfgEntry.text])
    · exact .inr ⟨_, oneLine_toAdminsCfgCommentText comment, absent_toAdminsCfgCommentText comment,
        by simp [adminLine, hcomment, hempty, CfgEntry.text]⟩

theorem renders_clanAdminLine (entry : ClanPriorityEntry) :
    Renders (clanAdminLine entry) (.admin entry.eosId CLAN_PRIORITY_GROUP_NAME) := by
  right
  refine ⟨js "clan:" ++ toAdminsCfgCommentText entry.clanName, ?_, ?_, ?_⟩
  · exact (oneLine_of_all (by decide)).append (oneLine_toAdminsCfgCommentText _)
  · -- the colon parts the label from the clan's name
    exact Absent.append_cons (a := js "clan") (x := 0x3A) (by decide)
      (absent_of_not_mem (x := 0x2F) (by decide) (by decide)) (absent_toAdminsCfgCommentText _)
  · simp only [clanAdminLine, CfgEntry.text, append_assoc]
    rfl

theorem plain_clanPriority : Plain CLAN_PRIORITY_GROUP_NAME ∧ Plain CLAN_PRIORITY_PERMISSION :=
  ⟨plain_of_all (by decide), plain_of_all (by decide)⟩

section Body
variable {localeCompare : JsString → JsString → Int} {inputs : SegmentInputs} {line : JsString}
  {endsLine : UInt16 → Bool}

theorem plainFields_role (htyped : inputs.Typed) {role : RoleEntry}
    (hrole : role ∈ rolesWithPerms localeCompare inputs) :
    CfgEntry.PlainFields (.group role.name role.squadPermissions) := by
  obtain ⟨r, hr, hne, hsafe, rfl⟩ := mem_rolesWithPerms hrole
  refine ⟨plain_of_safeRoleName hsafe, ?_, fun p hp => ?_⟩
  · obtain ⟨p, hp⟩ := exists_mem_of_ne_nil _ hne
    exact ne_nil_of_mem (mem_sortUnits.mpr hp)
  · exact plain_of_squadPermissionKey (htyped.keys r hr p (mem_sortUnits.mp hp))

theorem plainFields_clanGroup :
    CfgEntry.PlainFields (.group CLAN_PRIORITY_GROUP_NAME [CLAN_PRIORITY_PERMISSION]) := by
  refine ⟨plain_clanPriority.1, cons_ne_nil _ _, fun p hp => ?_⟩
  rw [mem_singleton.mp hp]
  exact plain_clanPriority.2

section
variable (htyped : inputs.Typed)
include htyped

theorem plainFields_admin {admin : AdminEntry}
    (hadmin : admin ∈ sortedAdmins localeCompare inputs) :
    CfgEntry.PlainFields (.admin admin.eosId admin.roleName) := by
  obtain ⟨hmem, hvalid⟩ := mem_filter.mp (mem_sortBy.mp hadmin)
  exact ⟨plain_of_hexDigits (htyped.adminIds _ hmem),
    plain_of_mem_validRoleNames (of_decide_eq_true hvalid)⟩

theorem plainFields_clanAdmin {entry : ClanPriorityEntry}
    (hentry : entry ∈ clanAdmins localeCompare inputs) :
    CfgEntry.PlainFields (.admin entry.eosId CLAN_PRIORITY_GROUP_NAME) :=
  ⟨plain_of_hexDigits (htyped.clanIds _ (mem_sortBy.mp hentry)), plain_clanPriority.1⟩

/-- Every inner line is blank or holds an entry of plain fields. -/
theorem mem_innerLines (hline : line ∈ innerLines localeCompare inputs) :
    line = [] ∨ ∃ entry : CfgEntry, entry.PlainFields ∧ Renders line entry := by
  simp only [innerLines, mem_append, mem_map, mem_ite_nil_right, mem_singleton] at hline
  rcases hline with (((⟨role, hrole, rfl⟩ | ⟨-, rfl⟩) | ⟨-, rfl⟩) | ⟨admin, hadmin, rfl⟩) |
    ⟨entry, hentry, rfl⟩
  · exact .inr ⟨_, plainFields_role htyped hrole, renders_groupLine role⟩
  · exact .inr ⟨_, plainFields_clanGroup, renders_clanGroupLine⟩
  · exact .inl rfl
  · exact .inr ⟨_, plainFields_admin htyped hadmin, renders_adminLine admin⟩
  · exact .inr ⟨_, plainFields_clanAdmin htyped hentry, renders_clanAdminLine entry⟩

theorem cleanLine_of_mem_innerLines (hline : line ∈ innerLines localeCompare inputs) :
    CleanLine line := by
  rcases mem_innerLines htyped hline with rfl | ⟨entry, hplain, hrenders⟩
  · exact cleanLine_of_no_slash nofun nofun
  · exact hrenders.cleanLine hplain

end

/-! ## The markers -/

/-- The markers of a segment body stand at its two ends and nowhere else. -/
structure Marked (body : JsString) : Prop where
  begins : ∀ i, OccursAt BEGIN_MARKER body i ↔ i = 0
  ends : ∀ i, OccursAt END_MARKER body i ↔ i + END_MARKER.length = body.length

section
variable {lines : List JsString}

variable (hlines : ∀ line ∈ lines, Absent MARKER_HEAD line)
include hlines

theorem absent_BEGIN_MARKER_rest :
    Absent BEGIN_MARKER (SEGMENT_NEWLINE.intercalate (lines ++ [END_MARKER])) := by
  refine absent_intercalate 0x0D [0x0A] (by decide)
    (by rw [forall_mem_singleton]; decide) (by decide) fun line hline => ?_
  rcases mem_append.mp hline with hin | hin
  · exact (hlines line hin).mono (by decide)
  · rw [mem_singleton.mp hin]
    exact absent_of_length_lt (by decide)

theorem absent_END_MARKER_front :
    Absent END_MARKER (SEGMENT_NEWLINE.intercalate (BEGIN_LINE :: lines)) := by
  refine absent_intercalate 0x0D [0x0A] (by decide)
    (by rw [forall_mem_singleton]; decide) (by decide) fun line hline => ?_
  rcases mem_cons.mp hline with rfl | hin
  · exact indexOf_eq_none.mp (by decide +kernel)
  · exact (hlines line hin).mono (by decide)

theorem begins_segment (i : Nat) : OccursAt BEGIN_MARKER
      (SEGMENT_NEWLINE.intercalate (BEGIN_LINE :: (lines ++ [END_MARKER]))) i ↔ i = 0 := by
  have hsegment : SEGMENT_NEWLINE.intercalate (BEGIN_LINE :: (lines ++ [END_MARKER])) =
      BEGIN_LINE ++
        0x0D :: ([] ++ 0x0A :: SEGMENT_NEWLINE.intercalate (lines ++ [END_MARKER])) := by
    cases hlines : lines ++ [END_MARKER] with
    | nil => simp at hlines
    | cons line lines => rfl
  rw [hsegment]
  constructor
  · intro hoccurs
    rcases hoccurs.append_cons (by decide) with ⟨hfits, hfirst⟩ | ⟨j, -, hrest⟩
    · -- inside the first line, which is a fixed text
      have honly : ∀ j < BEGIN_LINE.length, OccursAt BEGIN_MARKER BEGIN_LINE j → j = 0 := by
        decide +kernel
      have hpos : 0 < BEGIN_MARKER.length := by decide
      exact honly i (by omega) hfirst
    · have hafter := Absent.append_cons (a := []) (x := 0x0A) (by decide)
        (absent_of_length_lt (by decide)) (absent_BEGIN_MARKER_rest hlines)
      exact absurd hrest (hafter j)
  · rintro rfl
    exact OccursAt.append (by decide) (by decide +kernel) _

/-- Lines without the head of a marker, between the two markers. -/
theorem marked_segment :
    Marked (SEGMENT_NEWLINE.intercalate (BEGIN_LINE :: (lines ++ [END_MARKER]))) := by
  refine ⟨begins_segment hlines, fun i => ?_⟩
  have habsent := absent_END_MARKER_front hlines
  have hnewline : SEGMENT_NEWLINE ++ END_MARKER = 0x0D :: ([0x0A] ++ END_MARKER) := rfl
  rw [intercalate_concat, hnewline]
  generalize SEGMENT_NEWLINE.intercalate (BEGIN_LINE :: lines) = front at habsent ⊢
  have hlength : (front ++ 0x0D :: ([0x0A] ++ END_MARKER)).length =
      front.length + 2 + END_MARKER.length := by
    simp only [length_append, length_cons, length_nil]
    omega
  constructor
  · intro hoccurs
    rcases hoccurs.append_cons (by decide) with ⟨-, hfront⟩ | ⟨j, hj, hrest⟩
    · exact absurd hfront (habsent i)
    · -- the last line has room for one marker only, after the line feed
      have hlen := hrest.length_le (by decide)
      rw [length_append, length_singleton] at hlen
      have hpos : 0 < END_MARKER.length := by decide
      rcases OccursAt.append_cons (a := []) (x := 0x0A) (by decide) hrest with
        ⟨hfits, -⟩ | ⟨k, hk, hlast⟩
      · rw [length_nil] at hfits
        omega
      · rw [length_nil] at hk
        omega
  · intro hi
    have heq : i = (front ++ [0x0D, 0x0A]).length + 0 := by
      rw [length_append, length_cons, length_singleton]
      omega
    rw [heq, show front ++ 0x0D :: ([0x0A] ++ END_MARKER) =
      front ++ [0x0D, 0x0A] ++ END_MARKER by simp, occursAt_append_length]
    exact prefix_refl _

end

theorem marked_body (localeCompare : JsString → JsString → Int) (htyped : inputs.Typed) :
    Marked (buildManagedSegmentBody localeCompare inputs).body :=
  marked_segment fun _ hline => (cleanLine_of_mem_innerLines htyped hline).unmarked

/-! ## Reading the body back -/

theorem EndsLines.keeps (hends : EndsLines endsLine) (hline : OneLine line) :
    ∀ u ∈ line, endsLine u = false := by
  intro u hu
  cases hu' : endsLine u with
  | false => rfl
  | true => exact absurd (hends.breaking u hu') (by simp [hline u hu])

/-- The carriage return and the line feed between two lines leave an empty one. -/
theorem splitOnP_lines (hends : EndsLines endsLine) {lines : List JsString}
    (hline : OneLine line) (hlines : ∀ l ∈ lines, OneLine l) :
    (SEGMENT_NEWLINE.intercalate (line :: lines)).splitOnP endsLine =
      line :: lines.flatMap fun l => [[], l] := by
  induction lines generalizing line with
  | nil =>
    rw [intercalate_singleton]
    exact splitOnP_eq_singleton (hends.keeps hline)
  | cons line' lines ih =>
    have hrest := ih (hlines line' (mem_cons_self ..))
      fun l hl => hlines l (mem_cons_of_mem _ hl)
    have hsplit : SEGMENT_NEWLINE.intercalate (line :: line' :: lines) =
        line ++ 0x0D :: ([] ++ 0x0A :: SEGMENT_NEWLINE.intercalate (line' :: lines)) := by
      rfl
    rw [hsplit, splitOnP_append_cons_of_forall_mem (hends.keeps hline) _ hends.cr,
      splitOnP_append_cons_of_forall_mem (by simp) _ hends.lf, hrest]
    rfl

theorem filterMap_readLine_flatMap (lines : List JsString) :
    (lines.flatMap fun l => [[], l]).filterMap readLine = lines.filterMap readLine := by
  induction lines with
  | nil => rfl
  | cons line lines ih =>
    have hblank : readLine [] = none := by decide
    rw [flatMap_cons, filterMap_append, ih, filterMap_cons_none hblank]
    cases hread : readLine line <;> simp [hread]

theorem filterMap_readLine_map {α : Type*} {items : List α} {render : α → JsString}
    {entry : α → CfgEntry} (hread : ∀ x ∈ items, readLine (render x) = some (entry x)) :
    (items.map render).filterMap readLine = items.map entry := by
  rw [filterMap_map, ← filterMap_eq_map]
  exact filterMap_congr hread

theorem splitOnP_body (hends : EndsLines endsLine) (htyped : inputs.Typed) :
    (buildManagedSegmentBody localeCompare inputs).body.splitOnP endsLine =
      BEGIN_LINE ::
        (innerLines localeCompare inputs ++ [END_MARKER]).flatMap fun l => [[], l] := by
  refine splitOnP_lines hends (oneLine_of_all (by decide +kernel)) fun line hline => ?_
  rcases mem_append.mp hline with hin | hin
  · exact (cleanLine_of_mem_innerLines htyped hin).oneLine
  · rw [mem_singleton.mp hin]
    exact oneLine_of_all (by decide +kernel)

theorem filterMap_readLine_innerLines (htyped : inputs.Typed) :
    (innerLines localeCompare inputs).filterMap readLine =
      (rolesWithPerms localeCompare inputs).map (fun r => .group r.name r.squadPermissions) ++
        (if emitClanPriorityGroup localeCompare inputs then
          [.group CLAN_PRIORITY_GROUP_NAME [CLAN_PRIORITY_PERMISSION]] else []) ++
        (sortedAdmins localeCompare inputs).map (fun a => .admin a.eosId a.roleName) ++
        (clanAdmins localeCompare inputs).map
          (fun e => .admin e.eosId CLAN_PRIORITY_GROUP_NAME) := by
  have hgroups : ((rolesWithPerms localeCompare inputs).map groupLine).filterMap readLine = _ :=
    filterMap_readLine_map fun role hrole =>
      (renders_groupLine role).readLine (plainFields_role htyped hrole)
  have hclanGroup := renders_clanGroupLine.readLine plainFields_clanGroup
  have hblank : readLine [] = none := by decide
  have hadmins : ((sortedAdmins localeCompare inputs).map adminLine).filterMap readLine = _ :=
    filterMap_readLine_map fun admin hadmin =>
      (renders_adminLine admin).readLine (plainFields_admin htyped hadmin)
  have hclan : ((clanAdmins localeCompare inputs).map clanAdminLine).filterMap readLine = _ :=
    filterMap_readLine_map fun entry hentry =>
      (renders_clanAdminLine entry).readLine (plainFields_clanAdmin htyped hentry)
  unfold innerLines
  simp only [filterMap_append, hgroups, hadmins, hclan]
  split <;> split <;> simp [hclanGroup, hblank]

/-! ## The intended entries and no others -/

theorem emitted_eq (role : RoleEntry) : role.emitted =
      (decide (0 < role.squadPermissions.length) && isAdminsCfgSafeRoleName role.name) := by
  cases hperms : role.squadPermissions <;> simp [RoleEntry.emitted, hperms]

theorem mem_validRoleNames {name : JsString} : name ∈ validRoleNames localeCompare inputs ↔
      ∃ r ∈ inputs.roles, r.emitted = true ∧ r.name = name := by
  simp only [validRoleNames, rolesWithPerms, mem_map, mem_sortBy, mem_filter, ← emitted_eq]
  constructor
  · rintro ⟨_, ⟨r, ⟨hr, hemitted⟩, rfl⟩, rfl⟩
    exact ⟨r, hr, hemitted, rfl⟩
  · rintro ⟨r, hr, hemitted, rfl⟩
    exact ⟨_, ⟨r, ⟨hr, hemitted⟩, rfl⟩, rfl⟩

theorem sortBy_perm {α : Type*} (compare : α → α → Int) (items : List α) :
    (sortBy compare items).Perm items := perm_insertionSort _ _

theorem perm_roleGroups : ((rolesWithPerms localeCompare inputs).map fun r =>
      CfgEntry.group r.name r.squadPermissions).Perm (roleGroups inputs) := by
  refine ((sortBy_perm _ _).map _).trans (List.Perm.of_eq ?_)
  rw [map_map]
  simp only [← emitted_eq]
  rfl

theorem perm_roleAdmins : ((sortedAdmins localeCompare inputs).map fun a =>
      CfgEntry.admin a.eosId a.roleName).Perm (roleAdmins inputs) := by
  refine ((sortBy_perm _ _).map _).trans (List.Perm.of_eq ?_)
  congr 1
  apply filter_congr
  intro a _
  rw [Bool.eq_iff_iff]
  simp only [decide_eq_true_eq, mem_validRoleNames, any_eq_true, Bool.and_eq_true, beq_iff_eq]

theorem perm_intendedEntries (localeCompare : JsString → JsString → Int)
    (hends : EndsLines endsLine) (htyped : inputs.Typed) :
    (readEntries endsLine (buildManagedSegmentBody localeCompare inputs).body).Perm
      (intendedEntries inputs) := by
  have hbegin : readLine BEGIN_LINE = none := by decide +kernel
  have hend : readLine END_MARKER = none := by decide +kernel
  rw [readEntries, splitOnP_body hends htyped, filterMap_cons_none hbegin,
    filterMap_readLine_flatMap, filterMap_append, filterMap_cons_none hend,
    filterMap_nil, append_nil, filterMap_readLine_innerLines htyped]
  have hclanGroups : (if emitClanPriorityGroup localeCompare inputs then
      [CfgEntry.group CLAN_PRIORITY_GROUP_NAME [CLAN_PRIORITY_PERMISSION]] else []) =
      clanGroups inputs := by
    refine if_congr ?_ rfl rfl
    unfold emitClanPriorityGroup
    simp only [Bool.and_eq_true, decide_eq_true_eq, Bool.not_eq_true', decide_eq_false_iff_not,
      mem_validRoleNames, length_pos_iff, not_exists, not_and, ne_eq]
  rw [hclanGroups]
  exact ((perm_roleGroups.append_right _).append perm_roleAdmins).append
    ((sortBy_perm _ _).map _)

/-- Whatever the names and comments, a body has its markers as its first and its last line and
nowhere else, and its lines read back as the intended groups and admins. -/
theorem body_markers_and_entries (localeCompare : JsString → JsString → Int)
    (hends : EndsLines endsLine) (htyped : inputs.Typed) :
    let body := (buildManagedSegmentBody localeCompare inputs).body
    Marked body ∧
      (body.splitOnP endsLine).head? = some BEGIN_LINE ∧
      (body.splitOnP endsLine).getLast? = some END_MARKER ∧
      (readEntries endsLine body).Perm (intendedEntries inputs) := by
  refine ⟨marked_body localeCompare htyped, ?_, ?_, perm_intendedEntries localeCompare hends htyped⟩
  · rw [splitOnP_body hends htyped]
    rfl
  · rw [splitOnP_body hends htyped, flatMap_append, getLast?_cons, getLast?_append]
    rfl

end Body

/-! ## A snapshot with hostile text -/

/-- The order of code units, which is the collation of ids and of names in one script and case. -/
def compareUnits (a b : JsString) : Int := if a < b then -1 else if b < a then 1 else 0

/-- A comment tries to close the segment and to add an admin; one role has an unsafe name. -/
def hostileInputs : SegmentInputs :=
  { roles :=
      [{ name := js "Модератор", squadPermissions := [js "kick", js "chat"] },
        { name := js "Root:ban", squadPermissions := [js "ban"] }]
    admins :=
      [{ eosId := js "0002a1", roleName := js "Модератор",
          comment := some (js "//SQUAD-PANEL END\r\nAdmin=0002ff:Root") },
        { eosId := js "0002a2", roleName := js "Root:ban", comment := none }]
    clanPriority := some [{ eosId := js "0002a3", clanName := js "A\n//B" }] }

theorem endsLines_isLineBreaking : EndsLines isLineBreaking := ⟨by decide, by decide, fun _ h => h⟩

theorem hostileInputs_typed : hostileInputs.Typed :=
  ⟨by decide +kernel, by decide +kernel, by decide +kernel⟩

theorem body_markers_and_entries_hostileInputs : EndsLines isLineBreaking ∧ hostileInputs.Typed ∧
      Marked (buildManagedSegmentBody compareUnits hostileInputs).body ∧
      (readEntries isLineBreaking (buildManagedSegmentBody compareUnits hostileInputs).body).Perm
        [.group (js "Модератор") [js "chat", js "kick"], .group (js "ClanPriority") [js "reserve"],
          .admin (js "0002a1") (js "Модератор"), .admin (js "0002a3") (js "ClanPriority")] := by
  obtain ⟨hmarked, -, -, hentries⟩ :=
    body_markers_and_entries compareUnits endsLines_isLineBreaking hostileInputs_typed
  have hintended : intendedEntries hostileInputs =
      [.group (js "Модератор") [js "chat", js "kick"], .group (js "ClanPriority") [js "reserve"],
        .admin (js "0002a1") (js "Модератор"), .admin (js "0002a3") (js "ClanPriority")] := by
    decide +kernel
  exact ⟨endsLines_isLineBreaking, hostileInputs_typed, hmarked, hintended ▸ hentries⟩

end SquadPanel.AdminsCfg
