import SquadPanel.AdminsCfg.Segment

/-!
# The lines of the managed segment

What the sanitizers let through, and from it what every line of a built body
looks like: no unit of it ends a line, and none of the inner lines holds the
beginning of a marker.  The lines are then read back the way the game server
reads `Group=<name>:<perm>,<perm>` and `Admin=<id>:<name>`, with `//` starting a
comment, and give the intended entries and nothing else.
-/

namespace SquadPanel.AdminsCfg

open Js Lib List

/-! ## Plain text -/

/-- No unit ends a line. -/
def OneLine (s : JsString) : Prop := ∀ u ∈ s, isLineBreaking u = false

/-- No unit ends a line, and none belongs to the syntax of an entry. -/
def Plain (s : JsString) : Prop :=
  ∀ u ∈ s, isLineBreaking u = false ∧ isRoleNameSyntax u = false

/-- The digits of an EOS id. -/
def isHexDigit (u : UInt16) : Bool :=
  isDigit u || (0x41 ≤ u && u ≤ 0x46) || (0x61 ≤ u && u ≤ 0x66)

/-- Player ids are hexadecimal, and permission keys are those of the catalogue. -/
structure SegmentInputs.Typed (inputs : SegmentInputs) : Prop where
  adminIds : ∀ a ∈ inputs.admins, a.eosId.all isHexDigit
  clanIds : ∀ e ∈ clanPriorityOf inputs, e.eosId.all isHexDigit
  keys : ∀ r ∈ inputs.roles, ∀ p ∈ r.squadPermissions, p ∈ SQUAD_PERMISSION_KEYS

variable {s : JsString} {u : UInt16} {line : JsString} {entry : CfgEntry}

theorem Plain.oneLine (hplain : Plain s) : OneLine s :=
  fun u hu => (hplain u hu).1

theorem Plain.not_mem (hplain : Plain s) (hu : isRoleNameSyntax u = true) : u ∉ s := by
  intro hmem
  have := (hplain u hmem).2
  rw [hu] at this
  cases this

theorem OneLine.append {t : JsString} (hs : OneLine s) (ht : OneLine t) : OneLine (s ++ t) := by
  intro u hu
  rcases mem_append.mp hu with hu | hu
  · exact hs u hu
  · exact ht u hu

theorem oneLine_of_all (hall : s.all (fun u => !isLineBreaking u) = true) : OneLine s := by
  intro u hu
  simpa using all_eq_true.mp hall u hu

theorem plain_of_all (hall : s.all (fun u => !isLineBreaking u && !isRoleNameSyntax u) = true) :
    Plain s := by
  intro u hu
  simpa using all_eq_true.mp hall u hu

theorem plain_of_safeRoleName {name : JsString} (hsafe : isAdminsCfgSafeRoleName name = true) :
    Plain name := by
  unfold isAdminsCfgSafeRoleName at hsafe
  simp only [Bool.and_eq_true, Bool.not_eq_true', any_eq_false] at hsafe
  intro u hu
  exact ⟨by simpa using hsafe.1.2 u hu, by simpa using hsafe.2 u hu⟩

theorem plain_of_hexDigits {id : JsString} (hhex : id.all isHexDigit = true) : Plain id := by
  intro u hu
  have hdigit := all_eq_true.mp hhex u hu
  unfold isHexDigit isDigit at hdigit
  unfold isLineBreaking isRoleNameSyntax
  simp only [Bool.or_eq_true, Bool.and_eq_true, decide_eq_true_eq, UInt16.le_iff_toNat_le] at hdigit
  simp only [Bool.or_eq_false_iff, Bool.and_eq_false_iff, decide_eq_false_iff_not,
    beq_eq_false_iff_ne, ne_eq, UInt16.le_iff_toNat_le, ← UInt16.toNat_inj]
  simp only [UInt16.reduceToNat] at hdigit ⊢
  omega

theorem plain_of_squadPermissionKey {p : JsString} (hkey : p ∈ SQUAD_PERMISSION_KEYS) :
    Plain p := by
  have hall : SQUAD_PERMISSION_KEYS.all
      (fun p => p.all fun u => !isLineBreaking u && !isRoleNameSyntax u) = true := by
    decide +kernel
  exact plain_of_all (all_eq_true.mp hall p hkey)

/-! ## Comments -/

theorem oneLine_toAdminsCfgCommentText (text : JsString) :
    OneLine (toAdminsCfgCommentText text) := by
  intro u hu
  rcases mem_replaceRuns ((trim_isInfix _).subset hu) with rfl | ⟨hin, -⟩
  · rfl
  · rcases mem_replaceRuns hin with rfl | ⟨-, hclass⟩
    · rfl
    · exact hclass

theorem head_replaceRuns_isSlash (hhead : (replaceRuns isSlash 0x2F s).head? = some 0x2F) :
    s.head?.any isSlash = true := by
  cases s with
  | nil => simp [replaceRuns] at hhead
  | cons u s =>
    by_cases hu : isSlash u = true
    · simp [hu]
    · rw [replaceRuns, if_neg hu, head?_cons, Option.some.injEq] at hhead
      rw [hhead] at hu
      exact absurd rfl hu

/-- No two slashes are left side by side. -/
theorem absent_replaceRuns_isSlash (s : JsString) :
    Absent [0x2F, 0x2F] (replaceRuns isSlash 0x2F s) := by
  induction s with
  | nil => exact absent_of_length_lt (by simp [replaceRuns])
  | cons u s ih =>
    have hcons (v : UInt16)
        (hnot : ¬ (v = 0x2F ∧ (replaceRuns isSlash 0x2F s).head? = some 0x2F)) :
        Absent [0x2F, 0x2F] (v :: replaceRuns isSlash 0x2F s) := by
      intro i hoccurs
      cases i with
      | succ i => exact ih i hoccurs
      | zero =>
        obtain ⟨hv, hrest⟩ := cons_prefix_cons.mp hoccurs
        obtain ⟨rest, hrest⟩ := hrest
        exact hnot ⟨hv.symm, by rw [← hrest]; rfl⟩
    unfold replaceRuns
    split
    · split
      · exact ih
      · next hend => exact hcons _ fun h => hend (head_replaceRuns_isSlash h.2)
    · next hu => exact hcons _ fun h => hu (by rw [h.1]; rfl)

theorem absent_toAdminsCfgCommentText (text : JsString) :
    Absent [0x2F, 0x2F] (toAdminsCfgCommentText text) :=
  (absent_replaceRuns_isSlash _).of_isInfix (trim_isInfix _)

/-! ## The lines of a body -/

/-- The beginning that both markers share. -/
def MARKER_HEAD : JsString := js "//S"

/-- A line that stays one line and holds no marker. -/
structure CleanLine (line : JsString) : Prop where
  oneLine : OneLine line
  unmarked : Absent MARKER_HEAD line

/-- Text without a slash cannot hold a marker. -/
theorem cleanLine_of_no_slash (honeLine : OneLine line) (hslash : 0x2F ∉ line) : CleanLine line :=
  ⟨honeLine, absent_of_not_mem (x := 0x2F) (by decide) hslash⟩

/-- Text without a slash and a comment after it. -/
theorem cleanLine_comment {base comment : JsString} (hbase : OneLine base)
    (hslash : 0x2F ∉ base) (hcomment : OneLine comment)
    (hflat : Absent [0x2F, 0x2F] comment) : CleanLine (base ++ js " // " ++ comment) := by
  constructor
  · exact (hbase.append (oneLine_of_all (by decide))).append hcomment
  · -- a marker cannot straddle the blanks around the two slashes
    have hsplit : base ++ js " // " ++ comment =
        base ++ 0x20 :: ([0x2F, 0x2F] ++ 0x20 :: comment) := by
      rw [append_assoc]
      rfl
    rw [hsplit]
    apply Absent.append_cons (by decide)
      (absent_of_not_mem (x := 0x2F) (by decide) hslash)
    apply Absent.append_cons (by decide) (absent_of_length_lt (by decide))
    exact hflat.mono (by decide)

theorem mem_sortBy {α : Type*} {compare : α → α → Int} {items : List α} {x : α} :
    x ∈ sortBy compare items ↔ x ∈ items :=
  (perm_insertionSort _ _).mem_iff

theorem mem_sortUnits {items : List JsString} {x : JsString} : x ∈ sortUnits items ↔ x ∈ items :=
  (perm_insertionSort _ _).mem_iff

section Body
variable {localeCompare : JsString → JsString → Int} {inputs : SegmentInputs}

theorem mem_rolesWithPerms {role : RoleEntry} (hrole : role ∈ rolesWithPerms localeCompare inputs) :
    ∃ r ∈ inputs.roles, r.squadPermissions ≠ [] ∧ isAdminsCfgSafeRoleName r.name = true ∧
      role = { r with squadPermissions := sortUnits r.squadPermissions } := by
  obtain ⟨r, hr, rfl⟩ := mem_map.mp (mem_sortBy.mp hrole)
  obtain ⟨hmem, hpass⟩ := mem_filter.mp hr
  simp only [Bool.and_eq_true, decide_eq_true_eq] at hpass
  exact ⟨r, hmem, ne_nil_of_length_pos hpass.1, hpass.2, rfl⟩

theorem plain_of_mem_validRoleNames {name : JsString}
    (hname : name ∈ validRoleNames localeCompare inputs) : Plain name := by
  obtain ⟨role, hrole, rfl⟩ := mem_map.mp hname
  obtain ⟨r, -, -, hsafe, rfl⟩ := mem_rolesWithPerms hrole
  exact plain_of_safeRoleName hsafe

end Body

/-! ## Reading a file -/

/-- An entry of Admins.cfg. -/
inductive CfgEntry where
  | group (name : JsString) (permissions : List JsString)
  | admin (eosId : JsString) (groupName : JsString)
deriving Repr, DecidableEq

/-- A line without its comment and the blank before that. -/
def uncomment (line : JsString) : JsString :=
  match indexOf (js "//") line with
  | none => line
  | some i =>
    let text := line.take i
    if text.getLast? = some 0x20 then text.dropLast else text

/-- What stands before and after the first unit `u`. -/
def cutAt (u : UInt16) (s : JsString) : Option (JsString × JsString) :=
  if u ∈ s then some (s.takeWhile (· != u), (s.dropWhile (· != u)).tail) else none

def readLine (line : JsString) : Option CfgEntry :=
  let text := uncomment line
  if js "Group=" <+: text then
    (cutAt 0x3A (text.drop 6)).map fun (name, permissions) =>
      .group name (permissions.splitOn 0x2C)
  else if js "Admin=" <+: text then
    (cutAt 0x3A (text.drop 6)).map fun (eosId, groupName) => .admin eosId groupName
  else none

/-- The entries of a file whose lines end at the units that satisfy `endsLine`. -/
def readEntries (endsLine : UInt16 → Bool) (content : JsString) : List CfgEntry :=
  (content.splitOnP endsLine).filterMap readLine

/-- The units at which a reader or an editor may end a line: certainly CR and LF, perhaps others. -/
structure EndsLines (endsLine : UInt16 → Bool) : Prop where
  cr : endsLine 0x0D = true
  lf : endsLine 0x0A = true
  breaking : ∀ u, endsLine u = true → isLineBreaking u = true

theorem cutAt_append_cons {a : JsString} (ha : u ∉ a) (b : JsString) :
    cutAt u (a ++ u :: b) = some (a, b) := by
  have hkeep : ∀ v ∈ a, (v != u) = true := by
    intro v hv
    simp only [bne_iff_ne, ne_eq]
    rintro rfl
    exact ha hv
  unfold cutAt
  rw [if_pos (by simp), takeWhile_append_of_pos hkeep, dropWhile_append_of_pos hkeep]
  simp

theorem uncomment_of_no_slash (hslash : 0x2F ∉ line) : uncomment line = line := by
  have hnone : indexOf (js "//") line = none :=
    indexOf_eq_none.mpr (absent_of_not_mem (x := 0x2F) (by decide) hslash)
  simp only [uncomment, hnone]

theorem uncomment_comment {base : JsString} (hslash : 0x2F ∉ base) (comment : JsString) :
    uncomment (base ++ js " // " ++ comment) = base := by
  have hsplit : base ++ js " // " ++ comment = (base ++ [0x20]) ++ (js "// " ++ comment) := by
    simp only [append_assoc]
    rfl
  have hfirst : indexOf (js "//") (base ++ js " // " ++ comment) = some (base.length + 1) := by
    rw [indexOf_eq_some, hsplit]
    constructor
    · have hlen : (base ++ [(0x20 : UInt16)]).length + 0 = base.length + 1 := by simp
      rw [← hlen, occursAt_append_length]
      exact ⟨0x20 :: comment, rfl⟩
    · -- an earlier occurrence would begin with a slash of `base` or with the blank
      intro j hj hoccurs
      have hget := hoccurs.getElem (k := 0) (by decide)
      rw [getElem?_append_left (by simp; omega)] at hget
      have hmem : (0x2F : UInt16) ∈ base ++ [0x20] := mem_of_getElem? hget
      rcases mem_append.mp hmem with hin | hin
      · exact hslash hin
      · exact absurd hin (by decide)
  have htake : (base ++ js " // " ++ comment).take (base.length + 1) = base ++ [0x20] := by
    rw [hsplit, take_append_of_le_length (by simp), take_of_length_le (by simp)]
  simp only [uncomment, hfirst, htake]
  simp

/-! ## Lines and the entries they hold -/

/-- An entry as it is written. -/
def CfgEntry.text : CfgEntry → JsString
  | .group name permissions =>
    js "Group=" ++ name ++ js ":" ++ (js ",").intercalate permissions
  | .admin eosId groupName => js "Admin=" ++ eosId ++ js ":" ++ groupName

/-- Every field of an entry is plain text; a group has a permission. -/
def CfgEntry.PlainFields : CfgEntry → Prop
  | .group name permissions => Plain name ∧ permissions ≠ [] ∧ ∀ p ∈ permissions, Plain p
  | .admin eosId groupName => Plain eosId ∧ Plain groupName

/-- A line is an entry, with or without a comment of one line and no two slashes. -/
def Renders (line : JsString) (entry : CfgEntry) : Prop :=
  line = entry.text ∨
    ∃ comment, OneLine comment ∧ Absent [0x2F, 0x2F] comment ∧
      line = entry.text ++ js " // " ++ comment

theorem mem_intercalate_comma {permissions : List JsString}
    (hu : u ∈ (js ",").intercalate permissions) : u = 0x2C ∨ ∃ p ∈ permissions, u ∈ p := by
  cases permissions with
  | nil => simp at hu
  | cons p permissions =>
    simp only [intercalate_cons_eq, mem_append, mem_flatMap] at hu
    rcases hu with hp | ⟨q, hq, hsep | hin⟩
    · exact .inr ⟨p, mem_cons_self, hp⟩
    · exact .inl (mem_singleton.mp hsep)
    · exact .inr ⟨q, mem_cons_of_mem _ hq, hin⟩

section
variable (hplain : entry.PlainFields)
include hplain

theorem CfgEntry.PlainFields.text_units (hu : u ∈ entry.text) :
    isLineBreaking u = false ∧ u ≠ 0x2F := by
  have hkeyword {s : JsString} (hall : s.all (fun u => !isLineBreaking u && u != 0x2F) = true)
      (hin : u ∈ s) : isLineBreaking u = false ∧ u ≠ 0x2F := by
    simpa using all_eq_true.mp hall u hin
  have hfield {s : JsString} (hs : Plain s) (hin : u ∈ s) :
      isLineBreaking u = false ∧ u ≠ 0x2F := by
    refine ⟨hs.oneLine u hin, ?_⟩
    rintro rfl
    exact hs.not_mem rfl hin
  cases entry with
  | group name permissions =>
    simp only [CfgEntry.text, mem_append] at hu
    rcases hu with ((hin | hin) | hin) | hin
    · exact hkeyword (by decide) hin
    · exact hfield hplain.1 hin
    · exact hkeyword (by decide) hin
    · rcases mem_intercalate_comma hin with rfl | ⟨p, hp, hin⟩
      · decide
      · exact hfield (hplain.2.2 p hp) hin
  | admin eosId groupName =>
    simp only [CfgEntry.text, mem_append] at hu
    rcases hu with ((hin | hin) | hin) | hin
    · exact hkeyword (by decide) hin
    · exact hfield hplain.1 hin
    · exact hkeyword (by decide) hin
    · exact hfield hplain.2 hin

theorem CfgEntry.PlainFields.oneLine : OneLine entry.text := fun _ hu => (hplain.text_units hu).1

theorem CfgEntry.PlainFields.no_slash : 0x2F ∉ entry.text := fun hu => (hplain.text_units hu).2 rfl

theorem Renders.cleanLine (hrenders : Renders line entry) : CleanLine line := by
  rcases hrenders with rfl | ⟨comment, honeLine, hflat, rfl⟩
  · exact cleanLine_of_no_slash hplain.oneLine hplain.no_slash
  · exact cleanLine_comment hplain.oneLine hplain.no_slash honeLine hflat

theorem Renders.uncomment (hrenders : Renders line entry) : uncomment line = entry.text := by
  rcases hrenders with rfl | ⟨comment, -, -, rfl⟩
  · exact uncomment_of_no_slash hplain.no_slash
  · exact uncomment_comment hplain.no_slash comment

/-- A written entry is read back as itself. -/
theorem Renders.readLine (hrenders : Renders line entry) : readLine line = some entry := by
  have hcolon : isRoleNameSyntax 0x3A = true := rfl
  unfold AdminsCfg.readLine
  rw [hrenders.uncomment hplain]
  cases entry with
  | group name permissions =>
    obtain ⟨hname, hne, hperms⟩ := hplain
    have hhead : js "Group=" <+: CfgEntry.text (.group name permissions) := by
      exact prefix_append _ _
    have hrest : (CfgEntry.text (.group name permissions)).drop 6 =
        name ++ 0x3A :: [0x2C].intercalate permissions := by
      simp only [CfgEntry.text, append_assoc]
      rfl
    have hsplit : ([(0x2C : UInt16)].intercalate permissions).splitOn 0x2C = permissions :=
      splitOn_intercalate _ (fun p hp => (hperms p hp).not_mem rfl) hne
    simp only [if_pos hhead, hrest, cutAt_append_cons (hname.not_mem hcolon), Option.map_some,
      hsplit]
  | admin eosId groupName =>
    have hhead : js "Admin=" <+: CfgEntry.text (.admin eosId groupName) := by
      exact prefix_append _ _
    have hother : ¬ js "Group=" <+: CfgEntry.text (.admin eosId groupName) := by
      intro hpre
      exact absurd (prefix_of_prefix_length_le hpre hhead (by decide)) (by decide)
    have hrest : (CfgEntry.text (.admin eosId groupName)).drop 6 =
        eosId ++ 0x3A :: groupName := by
      simp only [CfgEntry.text, append_assoc]
      rfl
    simp only [if_neg hother, if_pos hhead, hrest,
      cutAt_append_cons (hplain.1.not_mem hcolon), Option.map_some]

end

end SquadPanel.AdminsCfg
