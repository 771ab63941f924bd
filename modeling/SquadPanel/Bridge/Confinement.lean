import Mathlib.Data.List.TakeWhile
import SquadPanel.Bridge.Validate

/-!
# Confinement of bridge paths

An accepted path lies under an allowed root by its names, and the trust root of a write is the
per-server directory.  Both are read off the elements of the cleaned path.
-/

namespace SquadPanel.Bridge

open Go Go.Filepath Validate Fsx List

/-! ## Below a directory -/

variable {p root : GoString} {base : GoString} {rest : List GoString} {name : GoString}
  {cleaned : GoString} {dir : GoString} {relative : GoString} {allowedRoots : List GoString}
  {cs : List (UInt8 → Bool)} {uuid : GoString} {bases : List GoString} {serverID : GoString}

theorem proper_of_append {names : List GoString} (habs : isAbs p = true)
    (helements : elements p = names ++ rest) :
    (∀ name ∈ names, Proper name) ∧ ∀ name ∈ rest, Proper name :=
  forall_mem_append.1 (helements ▸ proper_elements habs)

/-- An absolute path is written below another one exactly when its elements go on. -/
theorem clean_eq_append_iff (hp : isAbs p = true) (hroot : isAbs root = true)
    (hne : elements root ≠ []) : (∃ tail, clean p = clean root ++ Separator :: tail) ↔
      ∃ rest, rest ≠ [] ∧ elements p = elements root ++ rest := by
  constructor
  · rintro ⟨tail, htail⟩
    have hsplit : split (clean p) = ([] :: elements root) ++ split tail := by
      rw [htail, split_append, split_clean hroot hne]
    have helements : elements p ≠ [] := by
      intro hnil
      have hname := (proper_elements hroot _ (head_mem hne)).ne_nil
      have hshort : split (clean p) = [[], []] := by
        rw [clean_of_isAbs hp, hnil]
        decide
      obtain ⟨name, names, heq⟩ := exists_cons_of_ne_nil hne
      rw [hshort, heq, cons_append, List.cons.injEq, cons_append, List.cons.injEq]
        at hsplit
      simp only [heq, head_cons] at hname
      exact hname hsplit.2.1.symm
    rw [split_clean hp helements, cons_append, List.cons.injEq] at hsplit
    exact ⟨split tail, splitOn_ne_nil _ _, hsplit.2⟩
  · rintro ⟨rest, hrest, helements⟩
    refine ⟨joinStrings rest, ?_⟩
    rw [clean_of_isAbs hp, clean_of_isAbs hroot, helements, joinStrings_append hne hrest,
      cons_append]

theorem hasPrefix_iff {s start : GoString} :
    hasPrefix s (start ++ [Separator]) = true ↔ ∃ tail, s = start ++ Separator :: tail := by
  rw [hasPrefix, isPrefixOf_iff_prefix]
  constructor
  · rintro ⟨tail, htail⟩
    exact ⟨tail, by rw [← htail]; simp⟩
  · rintro ⟨tail, htail⟩
    exact ⟨tail, by rw [htail]; simp⟩

theorem rel_of_elements {targ : GoString} (hbase : isAbs base = true) (htarg : isAbs targ = true)
    (helements : elements targ = elements base ++ rest) :
    rel base targ = some (if rest = [] then dot else joinStrings rest) := by
  rw [rel, if_neg (by rw [hbase, htarg]; simp), helements, dropCommon_append]
  simp only [head?_nil, reduceCtorEq, if_false, length_nil, replicate_zero, nil_append]
  split <;> rfl

theorem joinStrings_ne_nil {names : List GoString} (hname : name ≠ []) :
    joinStrings (name :: names) ≠ [] := by
  cases names with
  | nil => simpa [joinStrings] using hname
  | cons next names => simp [joinStrings, intercalate_cons_cons]

/-- A relative path of proper names does not look like `.` or one that goes up. -/
theorem below_of_proper (hne : rest ≠ []) (hrest : ∀ name ∈ rest, Proper name) :
    ¬ (joinStrings rest = dot ∨ joinStrings rest = dotdot ∨
      hasPrefix (joinStrings rest) (dotdot ++ [Separator]) = true) := by
  have hsplit := split_joinStrings hne fun name hname => (hrest name hname).no_separator
  rw [hasPrefix_iff]
  rintro (heq | heq | ⟨tail, heq⟩)
  · have hmem : dot ∈ rest := by
      rw [← hsplit, heq]
      decide
    exact (hrest _ hmem).ne_dot rfl
  · have hmem : dotdot ∈ rest := by
      rw [← hsplit, heq]
      decide
    exact (hrest _ hmem).ne_dotdot rfl
  · have hmem : dotdot ∈ rest := by
      rw [← hsplit, heq, split_append]
      exact mem_append_left _ (by decide)
    exact (hrest _ hmem).ne_dotdot rfl

section
variable (hdir : isAbs dir = true) (hcleaned : isAbs cleaned = true)
include hdir hcleaned

theorem relBelow_of_elements (hne : rest ≠ [])
    (helements : elements cleaned = elements dir ++ rest) :
    relBelow dir cleaned = some (joinStrings rest) := by
  have hdir' := (isAbs_clean dir).trans hdir
  have hproper := (proper_of_append hcleaned helements).2
  rw [relBelow, rel_of_elements hdir' hcleaned (by rw [elements_clean hdir, helements])]
  simp only [if_neg hne, if_neg (below_of_proper hne hproper)]

theorem relBelow_eq_none (hnot : ¬ ∃ rest, rest ≠ [] ∧ elements cleaned = elements dir ++ rest) :
    relBelow dir cleaned = none := by
  have hdir' := (isAbs_clean dir).trans hdir
  have hsame : isAbs (clean dir) = isAbs cleaned := by rw [hdir', hcleaned]
  cases hbase : (dropCommon (elements dir) (elements cleaned)).1 with
  | nil =>
    have helements := dropCommon_fst_eq_nil hbase
    have hnil : (dropCommon (elements dir) (elements cleaned)).2 = [] := by
      by_contra hne
      exact hnot ⟨_, hne, helements⟩
    rw [hnil] at helements
    rw [relBelow, rel_of_elements hdir' hcleaned (by rw [elements_clean hdir, helements])]
    rfl
  | cons up ups =>
    have hproper : up ≠ dotdot := by
      have hmem : up ∈ elements dir := dropCommon_fst_subset (by
        rw [hbase]
        exact mem_cons_self)
      exact (proper_elements hdir up hmem).ne_dotdot
    rw [relBelow, rel, if_neg (not_not_intro hsame), elements_clean hdir]
    dsimp only
    rw [hbase, head?_cons, if_neg (by simpa using hproper), length_cons,
      if_neg (by simp [replicate_succ])]
    dsimp only
    refine if_pos (.inr ?_)
    rw [hasPrefix_iff, replicate_succ, cons_append]
    cases hrest : List.replicate ups.length dotdot ++ _ with
    | nil => exact .inl (by simp [joinStrings])
    | cons next rest =>
      exact .inr ⟨joinStrings (next :: rest), by simp [joinStrings, intercalate_cons_cons]⟩

theorem relBelow_iff : relBelow dir cleaned = some relative ↔
      ∃ rest, rest ≠ [] ∧ elements cleaned = elements dir ++ rest ∧
        relative = joinStrings rest := by
  constructor
  · intro hrel
    by_cases hbelow : ∃ rest, rest ≠ [] ∧ elements cleaned = elements dir ++ rest
    · obtain ⟨rest, hne, helements⟩ := hbelow
      rw [relBelow_of_elements hdir hcleaned hne helements, Option.some.injEq] at hrel
      exact ⟨rest, hne, helements, hrel.symm⟩
    · rw [relBelow_eq_none hdir hcleaned hbelow] at hrel
      cases hrel
  · rintro ⟨rest, hne, helements, rfl⟩
    exact relBelow_of_elements hdir hcleaned hne helements

end

/-! ## Accepted paths -/

/-- The path is the root or lies under it segment by segment. -/
def SegmentsUnder (root cleaned : GoString) : Prop :=
  cleaned = root ∨ ∃ rest, rest ≠ [] ∧ split cleaned = split root ++ rest

theorem bind_eq_ok {α β : Type} {x : Except Forbidden α} {f : α → Except Forbidden β} {b : β} :
    x >>= f = .ok b ↔ ∃ a, x = .ok a ∧ f a = .ok b := by
  cases x <;> simp [bind, Except.bind]

theorem path_eq_ok_iff : path p allowedRoots = .ok cleaned ↔
      isAbs p = true ∧ cleaned = clean p ∧ 0 ∉ cleaned ∧
        ∃ root ∈ allowedRoots, cleaned = clean root ∨
          ∃ tail, cleaned = clean root ++ Separator :: tail := by
  unfold path
  by_cases hnil : p = []
  · rw [if_pos hnil, hnil]
    simp [isAbs]
  · rw [if_neg hnil]
    by_cases habs : isAbs p = true
    · rw [habs]
      simp only [Bool.not_true, Bool.false_eq_true, if_false, true_and]
      by_cases hnul : 0 ∈ clean p
      · rw [if_pos hnul]
        refine iff_of_false (by rintro ⟨⟩) ?_
        rintro ⟨rfl, hnot, -⟩
        exact hnot hnul
      · have hany : (allowedRoots.any fun root =>
            clean p == clean root || hasPrefix (clean p) (clean root ++ [Separator])) = true ↔
            ∃ root ∈ allowedRoots, clean p = clean root ∨
              ∃ tail, clean p = clean root ++ Separator :: tail := by
          simp only [any_eq_true, Bool.or_eq_true, beq_iff_eq, hasPrefix_iff]
        rw [if_neg hnul]
        split
        · next hroot =>
          rw [Except.ok.injEq]
          exact ⟨fun heq => heq ▸ ⟨rfl, hnul, hany.mp hroot⟩, fun h => h.1.symm⟩
        · next hroot =>
          refine iff_of_false (by rintro ⟨⟩) ?_
          rintro ⟨rfl, -, hroot'⟩
          exact hroot (hany.mpr hroot')
    · rw [Bool.not_eq_true] at habs
      simp [habs]

theorem path_root_iff (hroot : isAbs root = true) (hne : elements root ≠ []) :
    path p [root] = .ok cleaned ↔
      isAbs p = true ∧ cleaned = clean p ∧ 0 ∉ cleaned ∧
        ∃ rest, elements p = elements root ++ rest := by
  rw [path_eq_ok_iff]
  simp only [mem_singleton, exists_eq_left]
  refine and_congr_right fun habs => and_congr_right ?_
  rintro rfl
  refine and_congr_right fun _ => ?_
  rw [clean_eq_append_iff habs hroot hne]
  constructor
  · rintro (heq | ⟨rest, -, helements⟩)
    · refine ⟨[], ?_⟩
      rw [← elements_clean habs, heq, elements_clean hroot, append_nil]
    · exact ⟨rest, helements⟩
  · rintro ⟨rest, helements⟩
    by_cases hrest : rest = []
    · rw [hrest, append_nil] at helements
      exact .inl (by rw [clean_of_isAbs habs, clean_of_isAbs hroot, helements])
    · exact .inr ⟨rest, hrest, helements⟩

/-! ## Config files -/

theorem isAbs_configsRoot : isAbs PanelConfigsRoot = true := by decide

theorem elements_configsRoot_ne_nil : elements PanelConfigsRoot ≠ [] := by
  exact cons_ne_nil _ _

theorem rel_configsRoot (habs : isAbs p = true) (hne : rest ≠ [])
    (helements : elements p = elements PanelConfigsRoot ++ rest) :
    rel PanelConfigsRoot (clean p) = some (joinStrings rest) ∧ split (joinStrings rest) = rest := by
  have hrel := rel_of_elements isAbs_configsRoot ((isAbs_clean p).trans habs)
    (by rw [elements_clean habs, helements])
  rw [if_neg hne] at hrel
  refine ⟨hrel, split_joinStrings hne fun name hname => ?_⟩
  exact ((proper_of_append habs helements).2 name hname).no_separator

theorem matchesClasses_length {s : GoString}
    (hmatch : matchesClasses cs s = true) : s.length = cs.length := by
  fun_induction matchesClasses cs s with
  | case1 => rfl
  | case2 c cs b bs ih =>
    rw [Bool.and_eq_true] at hmatch
    rw [length_cons, length_cons, ih hmatch.2]
  | case3 => cases hmatch

theorem matchesClasses_mem {s : GoString}
    (hmatch : matchesClasses cs s = true) {b : UInt8} (hb : b ∈ s) : ∃ c ∈ cs, c b = true := by
  fun_induction matchesClasses cs s with
  | case1 => cases hb
  | case2 c cs b' bs ih =>
    rw [Bool.and_eq_true] at hmatch
    rcases mem_cons.mp hb with rfl | hb
    · exact ⟨c, mem_cons_self, hmatch.1⟩
    · obtain ⟨c', hc', hclass⟩ := ih hmatch.2 hb
      exact ⟨c', mem_cons_of_mem _ hc', hclass⟩
  | case3 => cases hmatch

/-- The bytes of a uuid are hexadecimal digits and dashes. -/
theorem mem_of_uuidLike (huuid : uuidLike uuid = true) {b : UInt8} (hb : b ∈ uuid) :
    isHex b = true ∨ b = 0x2D := by
  obtain ⟨c, hc, hclass⟩ := matchesClasses_mem huuid hb
  simp only [uuidRegexp, mem_append, mem_replicate, mem_singleton] at hc
  have hcases : c = isHex ∨ c = (· == 0x2D) := by tauto
  rcases hcases with rfl | rfl
  · exact .inl hclass
  · exact .inr (by simpa using hclass)

theorem proper_of_uuidLike (huuid : uuidLike uuid = true) : Proper uuid := by
  have hlength : uuid.length = 36 := matchesClasses_length huuid
  refine ⟨?_, ?_, ?_, fun hmem => absurd (mem_of_uuidLike huuid hmem) (by decide)⟩
  all_goals
    rintro rfl
    cases hlength

theorem nul_not_mem_uuid (huuid : uuidLike uuid = true) : 0 ∉ uuid :=
  fun hmem => absurd (mem_of_uuidLike huuid hmem) (by decide)

/-- Every name on the list passes the syntax check and is a proper name. -/
theorem allowedCfgFiles_proper (hname : name ∈ allowedCfgFiles) :
    Proper name ∧ 0 ∉ name ∧ panelConfigFilename name = .ok () := by
  have hall : ∀ name ∈ allowedCfgFiles, (name ≠ [] ∧ name ≠ dot ∧ name ≠ dotdot ∧
      Separator ∉ name) ∧ 0 ∉ name ∧ cfgFileRegex name = true := by
    decide +kernel
  obtain ⟨⟨hnil, hdot, hdotdot, hsep⟩, hnul, hsyntax⟩ := hall name hname
  refine ⟨⟨hnil, hdot, hdotdot, hsep⟩, hnul, ?_⟩
  rw [panelConfigFilename, hsyntax, Bool.not_true, if_neg (by decide), if_neg (not_not_intro hname)]

theorem mem_of_panelConfigFilename (hok : panelConfigFilename name = .ok ()) :
    name ∈ allowedCfgFiles := by
  unfold panelConfigFilename at hok
  split at hok
  · cases hok
  · split at hok
    · cases hok
    · next hmem => exact not_not.mp hmem

theorem panelConfigsPath_iff : panelConfigsPath p = .ok cleaned ↔
      path p [PanelConfigsRoot] = .ok cleaned ∧
        ∃ uuid rest, uuidLike uuid = true ∧
          elements p = elements PanelConfigsRoot ++ uuid :: rest := by
  unfold panelConfigsPath
  cases hpath : path p [PanelConfigsRoot] with
  | error e =>
    refine iff_of_false nofun nofun
  | ok c =>
    obtain ⟨habs, rfl, -, rest, helements⟩ :=
      (path_root_iff isAbs_configsRoot elements_configsRoot_ne_nil).mp hpath
    simp only [bind, Except.bind, helements, append_cancel_left_eq]
    cases rest with
    | nil =>
      have hrel := rel_of_elements isAbs_configsRoot ((isAbs_clean p).trans habs)
        (by rw [elements_clean habs, helements])
      have hsplit : split dot = [dot] := by decide
      have hdot : ¬ uuidLike dot = true := by decide
      rw [hrel, if_pos rfl]
      simp only [hsplit]
      refine iff_of_false nofun ?_
      rintro ⟨-, uuid, rest, -, ⟨⟩⟩
    | cons uuid rest =>
      obtain ⟨hrel, hsplit⟩ := rel_configsRoot habs (cons_ne_nil _ _) helements
      simp only [hrel, hsplit, List.cons.injEq]
      split
      · next huuid => exact ⟨fun h => ⟨h, uuid, rest, huuid, rfl, rfl⟩, fun h => h.1⟩
      · next huuid =>
        refine iff_of_false nofun ?_
        rintro ⟨-, uuid', rest', huuid', rfl, -⟩
        exact huuid huuid'

/-- The path of a config file: `root/{uuid}/ServerConfig/{name}`. -/
def configFilePath (uuid name : GoString) : GoString :=
  joinStrings [PanelConfigsRoot, uuid, go "ServerConfig", name]

theorem configFilePath_eq (uuid name : GoString) : configFilePath uuid name =
      PanelConfigsRoot ++ Separator :: joinStrings [uuid, go "ServerConfig", name] := by
  simp [configFilePath, joinStrings, intercalate_cons_cons]

theorem clean_eq_configFilePath_iff (habs : isAbs p = true) (huuid : uuidLike uuid = true)
    (hname : name ∈ allowedCfgFiles) : clean p = configFilePath uuid name ↔
      elements p = elements PanelConfigsRoot ++ [uuid, go "ServerConfig", name] := by
  have hdir : Proper (go "ServerConfig") := by constructor <;> decide
  have hproper : ∀ element ∈ [uuid, go "ServerConfig", name], Proper element := by
    simp only [forall_mem_cons, not_mem_nil, false_implies, implies_true, and_true]
    exact ⟨proper_of_uuidLike huuid, hdir, (allowedCfgFiles_proper hname).1⟩
  have helements : elements (configFilePath uuid name) =
      elements PanelConfigsRoot ++ [uuid, go "ServerConfig", name] := by
    rw [configFilePath_eq, elements_append isAbs_configsRoot (cons_ne_nil _ _) hproper]
  constructor
  · intro hclean
    rw [← elements_clean habs, hclean, helements]
  · intro heq
    have hroot : clean PanelConfigsRoot = PanelConfigsRoot := by decide +kernel
    rw [clean_of_isAbs habs, heq, joinStrings_append elements_configsRoot_ne_nil
      (cons_ne_nil _ _), ← cons_append, ← clean_of_isAbs isAbs_configsRoot, hroot,
      configFilePath_eq]

theorem nul_not_mem_configFilePath (huuid : uuidLike uuid = true) (hname : name ∈ allowedCfgFiles) :
    0 ∉ configFilePath uuid name := by
  have hroot : 0 ∉ PanelConfigsRoot := by decide
  have hdir : 0 ∉ go "ServerConfig" := by decide
  have hsep : (0 : UInt8) ≠ Separator := by decide
  simp only [configFilePath, joinStrings, intercalate_cons_cons, intercalate_singleton,
    mem_append, mem_singleton, not_or]
  exact ⟨⟨hroot, hsep⟩, ⟨nul_not_mem_uuid huuid, hsep⟩, ⟨hdir, hsep⟩,
    (allowedCfgFiles_proper hname).2.1⟩

theorem panelConfigFilePath_iff : panelConfigFilePath p = .ok cleaned ↔
      cleaned = clean p ∧ ∃ uuid name, uuidLike uuid = true ∧ name ∈ allowedCfgFiles ∧
        clean p = configFilePath uuid name := by
  constructor
  · intro hok
    obtain ⟨c, hconfigs, hok⟩ := bind_eq_ok.mp hok
    obtain ⟨hpath, uuid, rest, huuid, helements⟩ := panelConfigsPath_iff.mp hconfigs
    obtain ⟨habs, rfl, -⟩ := path_eq_ok_iff.mp hpath
    obtain ⟨hrel, hsplit⟩ := rel_configsRoot habs (cons_ne_nil _ _) helements
    simp only [hrel, Option.getD_some, hsplit] at hok
    match rest, hok with
    | [dir, file], hok =>
      simp only at hok
      split at hok
      · next hdir =>
        subst hdir
        obtain ⟨_, hfile, hok⟩ := bind_eq_ok.mp hok
        cases hok
        have hname := mem_of_panelConfigFilename hfile
        exact ⟨rfl, uuid, file, huuid, hname,
          (clean_eq_configFilePath_iff habs huuid hname).mpr helements⟩
      · cases hok
  · rintro ⟨rfl, uuid, name, huuid, hname, hclean⟩
    have habs : isAbs p = true := by
      rw [← isAbs_clean, hclean, configFilePath_eq]
      exact isAbs_append isAbs_configsRoot _
    have helements := (clean_eq_configFilePath_iff habs huuid hname).mp hclean
    have hpath : path p [PanelConfigsRoot] = .ok (clean p) := by
      rw [path_root_iff isAbs_configsRoot elements_configsRoot_ne_nil]
      refine ⟨habs, rfl, ?_, _, helements⟩
      rw [hclean]
      exact nul_not_mem_configFilePath huuid hname
    have hconfigs : panelConfigsPath p = .ok (clean p) :=
      panelConfigsPath_iff.mpr ⟨hpath, uuid, _, huuid, helements⟩
    obtain ⟨hrel, hsplit⟩ := rel_configsRoot habs (cons_ne_nil _ _) helements
    unfold panelConfigFilePath
    simp only [hconfigs, bind, Except.bind, hrel, Option.getD_some, hsplit, if_true,
      (allowedCfgFiles_proper hname).2.2]
    rfl

/-! ## Trust roots -/

theorem cut_joinStrings (hname : Separator ∉ name) :
    cut (joinStrings (name :: rest)) = (name, joinStrings rest) := by
  have hall : ∀ b ∈ name, (b != Separator) = true := fun b hb => by
    simpa using fun heq : b = Separator => hname (heq ▸ hb)
  have hstop : (Separator != Separator) = false := by decide
  cases rest with
  | nil =>
    have hjoin : joinStrings [name] = name := by simp [joinStrings]
    rw [hjoin, cut, takeWhile_eq_self_iff.mpr hall, dropWhile_eq_nil_iff.mpr hall]
    rfl
  | cons next rest =>
    have hjoin : joinStrings (name :: next :: rest) =
        name ++ Separator :: joinStrings (next :: rest) := by
      simp [joinStrings, intercalate_cons_cons]
    rw [hjoin, cut, takeWhile_append_of_pos hall, dropWhile_append_of_pos hall,
      takeWhile_cons, dropWhile_cons]
    simp only [hstop, Bool.false_eq_true, if_false, append_nil, drop_succ_cons, drop_zero]

/-- The trust root of a path under a server-scoped base is its server directory. -/
theorem scopedTrustRoot_ok (hbases : ∀ base ∈ bases, isAbs base = true)
    (hcleaned : isAbs cleaned = true)
    (hok : scopedTrustRoot cleaned bases = some (.ok (root, relative))) :
    ∃ base ∈ bases, ∃ serverID rest, rest ≠ [] ∧
      elements cleaned = elements base ++ serverID :: rest ∧
      root = join base serverID ∧ relative = joinStrings rest := by
  induction bases with
  | nil => cases hok
  | cons base bases ih =>
    rw [forall_mem_cons] at hbases
    rw [scopedTrustRoot] at hok
    cases hrel : relBelow base cleaned with
    | none =>
      rw [hrel] at hok
      obtain ⟨base', hbase', hfound⟩ := ih hbases.2 hok
      exact ⟨base', mem_cons_of_mem _ hbase', hfound⟩
    | some relToBase =>
      obtain ⟨names, hne, helements, rfl⟩ := (relBelow_iff hbases.1 hcleaned).mp hrel
      obtain ⟨serverID, rest, rfl⟩ := exists_cons_of_ne_nil hne
      have hproper := (proper_of_append hcleaned helements).2 serverID mem_cons_self
      simp only [hrel, cut_joinStrings hproper.no_separator, Option.some.injEq] at hok
      split at hok
      · cases hok
      · next hrest =>
        cases hok
        refine ⟨base, mem_cons_self, serverID, rest, ?_, helements, rfl, rfl⟩
        rintro rfl
        exact hrest rfl

theorem relBelow_of_scopedTrustRoot_none (hnone : scopedTrustRoot cleaned bases = none)
    (hbase : base ∈ bases) : relBelow base cleaned = none := by
  induction bases with
  | nil => cases hbase
  | cons base' bases ih =>
    rw [scopedTrustRoot] at hnone
    cases hrel : relBelow base' cleaned with
    | some relToBase =>
      rw [hrel] at hnone
      cases hnone
    | none =>
      rw [hrel] at hnone
      rcases mem_cons.mp hbase with rfl | hbase
      · exact hrel
      · exact ih hnone hbase

theorem plainTrustRoot_some {wrs : List GoString} (hwrs : ∀ wr ∈ wrs, isAbs wr = true)
    (hcleaned : isAbs cleaned = true) (hsome : plainTrustRoot cleaned wrs = some (root, relative)) :
    ∃ wr ∈ wrs, ∃ rest, rest ≠ [] ∧ elements cleaned = elements wr ++ rest ∧
      root = clean wr ∧ relative = joinStrings rest := by
  induction wrs with
  | nil => cases hsome
  | cons wr wrs ih =>
    rw [forall_mem_cons] at hwrs
    rw [plainTrustRoot] at hsome
    cases hrel : relBelow (clean wr) cleaned with
    | none =>
      rw [hrel] at hsome
      obtain ⟨wr', hwr', hfound⟩ := ih hwrs.2 hsome
      exact ⟨wr', mem_cons_of_mem _ hwr', hfound⟩
    | some relToRoot =>
      have hwr := (isAbs_clean wr).trans hwrs.1
      obtain ⟨rest, hne, helements, rfl⟩ := (relBelow_iff hwr hcleaned).mp hrel
      rw [elements_clean hwrs.1] at helements
      rw [hrel] at hsome
      cases hsome
      exact ⟨wr, mem_cons_self, rest, hne, helements, rfl, rfl⟩

theorem isAbs_serverScopedBases : ∀ base ∈ serverScopedBases, isAbs base = true := by decide

theorem isAbs_writableRoots : ∀ wr ∈ writableRoots, isAbs wr = true := by decide

/-- What a trust root is: the server directory under a server-scoped base, or the writable root
of a path that is under none. -/
inductive TrustRoot (p root relative : GoString) : Prop
  | server (base serverID : GoString) (rest : List GoString) (hbase : base ∈ serverScopedBases)
      (hrest : rest ≠ []) (helements : elements p = elements base ++ serverID :: rest)
      (hroot : root = join base serverID) (hrelative : relative = joinStrings rest)
  | plain (wr : GoString) (rest : List GoString) (hwr : wr ∈ writableRoots) (hrest : rest ≠ [])
      (helements : elements p = elements wr ++ rest)
      (hunscoped : ∀ base ∈ serverScopedBases, ∀ names, names ≠ [] →
        elements p ≠ elements base ++ names)
      (hroot : root = clean wr) (hrelative : relative = joinStrings rest)

theorem trustRoot_of_writeTrustRoot (hok : writeTrustRoot p = .ok (root, relative)) :
    isAbs p = true ∧ TrustRoot p root relative := by
  obtain ⟨cleaned, hpath, hok⟩ := bind_eq_ok.mp hok
  obtain ⟨habs, rfl, -⟩ := path_eq_ok_iff.mp hpath
  have habs' := (isAbs_clean p).trans habs
  refine ⟨habs, ?_⟩
  cases hscoped : scopedTrustRoot (clean p) serverScopedBases with
  | some result =>
    rw [hscoped] at hok
    subst hok
    obtain ⟨base, hbase, serverID, rest, hrest, helements, hroot, hrelative⟩ :=
      scopedTrustRoot_ok isAbs_serverScopedBases habs' hscoped
    rw [elements_clean habs] at helements
    exact .server base serverID rest hbase hrest helements hroot hrelative
  | none =>
    rw [hscoped] at hok
    cases hplain : plainTrustRoot (clean p) writableRoots with
    | none =>
      rw [hplain] at hok
      cases hok
    | some result =>
      rw [hplain] at hok
      cases hok
      obtain ⟨wr, hwr, rest, hrest, helements, hroot, hrelative⟩ :=
        plainTrustRoot_some isAbs_writableRoots habs' hplain
      rw [elements_clean habs] at helements
      refine .plain wr rest hwr hrest helements ?_ hroot hrelative
      intro base hbase names hnames heq
      have hnone := relBelow_of_scopedTrustRoot_none hscoped hbase
      rw [relBelow_of_elements (isAbs_serverScopedBases base hbase) habs' hnames
        (by rw [elements_clean habs, heq])] at hnone
      cases hnone

theorem join_server (habs : isAbs p = true) (hbase : isAbs base = true)
    (helements : elements p = (elements base ++ [serverID]) ++ rest) :
    isAbs (join base serverID) = true ∧
      elements (join base serverID) = elements base ++ [serverID] := by
  have hproper := (proper_of_append habs helements).1
  have hjoin := join_names hbase (cons_ne_nil serverID []) (forall_mem_append.1 hproper).2
  rw [show joinStrings [serverID] = serverID by simp [joinStrings]] at hjoin
  rw [hjoin, elements_rooted hproper]
  exact ⟨isAbs_cons _, rfl⟩

/-- A trust root and the relative path join to the cleaned path. -/
theorem join_of_trustRoot (habs : isAbs p = true) (htrust : TrustRoot p root relative) :
    join root relative = clean p ∧ relative ≠ [] ∧ dotdot ∉ split relative := by
  have hbelow {names rest : List GoString} (hrest : rest ≠ [])
      (helements : elements p = names ++ rest) :
      (∀ name ∈ rest, Proper name) ∧ joinStrings rest ≠ [] ∧ dotdot ∉ split (joinStrings rest) := by
    have hproper := (proper_of_append habs helements).2
    refine ⟨hproper, ?_, ?_⟩
    · obtain ⟨name, rest, rfl⟩ := exists_cons_of_ne_nil hrest
      exact joinStrings_ne_nil (hproper name mem_cons_self).ne_nil
    · rw [split_joinStrings hrest fun name hname => (hproper name hname).no_separator]
      exact fun hmem => (hproper _ hmem).ne_dotdot rfl
  cases htrust with
  | server base serverID rest hbase hrest helements hroot hrelative =>
    rw [append_cons] at helements
    obtain ⟨hproper, hne, hup⟩ := hbelow hrest helements
    obtain ⟨hjoin, hserver⟩ := join_server habs (isAbs_serverScopedBases base hbase) helements
    rw [hroot, hrelative, join_names hjoin hrest hproper, hserver, ← helements,
      ← clean_of_isAbs habs]
    exact ⟨rfl, hne, hup⟩
  | plain wr rest hwr hrest helements hunscoped hroot hrelative =>
    have hwr' := isAbs_writableRoots wr hwr
    have hclean := (isAbs_clean wr).trans hwr'
    obtain ⟨hproper, hne, hup⟩ := hbelow hrest helements
    rw [hroot, hrelative, join_names hclean hrest hproper, elements_clean hwr', ← helements,
      ← clean_of_isAbs habs]
    exact ⟨rfl, hne, hup⟩

/-- The server directory of a path under a server-scoped base. -/
theorem trustRoot_of_scoped (htrust : TrustRoot p root relative)
    (hbase : base ∈ serverScopedBases)
    (helements : elements p = elements base ++ serverID :: rest) : root = join base serverID := by
  cases htrust with
  | plain wr rest' hwr hrest helements' hunscoped hroot hrelative =>
    exact absurd helements (hunscoped base hbase _ (cons_ne_nil _ _))
  | server base' serverID' rest' hbase' hrest helements' hroot hrelative =>
    -- the bases have equally many elements
    have hlength : ∀ base ∈ serverScopedBases, (elements base).length = 4 := by
      decide +kernel
    have hinj : ∀ base ∈ serverScopedBases, ∀ base' ∈ serverScopedBases,
        elements base = elements base' → base = base' := by
      decide +kernel
    rw [helements'] at helements
    obtain ⟨heq, htail⟩ := append_inj helements
      (by rw [hlength base' hbase', hlength base hbase])
    rw [hroot, hinj base' hbase' base hbase heq, (List.cons.inj htail).1]

theorem elements_of_split (habs : isAbs p = true)
    (hbase : base ∈ serverScopedBases) (hsplit : split (clean p) = split base ++ serverID :: rest) :
    elements p = elements base ++ serverID :: rest := by
  have hbases : ∀ base ∈ serverScopedBases, split base = [] :: elements base ∧
      elements base ≠ [] := by
    decide +kernel
  obtain ⟨hsplitBase, hne⟩ := hbases base hbase
  have helements : elements p ≠ [] := by
    intro hnil
    rw [clean_of_isAbs habs, hnil, hsplitBase] at hsplit
    have hlength := congrArg List.length hsplit
    have hshort : (split (Separator :: joinStrings [])).length = 2 := by decide
    have hpos := length_pos_of_ne_nil hne
    simp only [cons_append, length_cons, length_append] at hlength
    omega
  rw [split_clean habs helements, hsplitBase, cons_append, List.cons.injEq] at hsplit
  exact hsplit.2

/-- Two paths under one base have the same trust root exactly when they name the same server
directory. -/
theorem trustRoot_eq_iff {q idp idq rootp relp rootq relq : GoString} {restp restq : List GoString}
    (hbase : base ∈ serverScopedBases) (hp : writeTrustRoot p = .ok (rootp, relp))
    (hq : writeTrustRoot q = .ok (rootq, relq))
    (hsplitp : split (clean p) = split base ++ idp :: restp)
    (hsplitq : split (clean q) = split base ++ idq :: restq) : rootp = rootq ↔ idp = idq := by
  obtain ⟨habsp, htrustp⟩ := trustRoot_of_writeTrustRoot hp
  obtain ⟨habsq, htrustq⟩ := trustRoot_of_writeTrustRoot hq
  have helementsp := elements_of_split habsp hbase hsplitp
  have helementsq := elements_of_split habsq hbase hsplitq
  rw [trustRoot_of_scoped htrustp hbase helementsp, trustRoot_of_scoped htrustq hbase helementsq]
  refine ⟨fun heq => ?_, fun heq => heq ▸ rfl⟩
  have hbase' := isAbs_serverScopedBases base hbase
  rw [append_cons] at helementsp helementsq
  have hids := (join_server habsp hbase' helementsp).2
  rw [heq, (join_server habsq hbase' helementsq).2, append_cancel_left_eq] at hids
  exact (List.cons.inj hids).1.symm

/-- The validators and the trust roots confine every path: an accepted path is clean and lies
under an allowed root by its segments, the config file validator accepts exactly the config
file paths, and a trust root is split off the cleaned path by its segments. -/
theorem bridge_paths_confined : (∀ p allowedRoots cleaned, path p allowedRoots = .ok cleaned →
      cleaned = clean p ∧ isAbs cleaned = true ∧ dotdot ∉ split cleaned ∧
        ∃ root ∈ allowedRoots, SegmentsUnder (clean root) cleaned) ∧
    (∀ p cleaned, panelConfigFilePath p = .ok cleaned ↔
      cleaned = clean p ∧ ∃ uuid name, uuidLike uuid = true ∧ name ∈ allowedCfgFiles ∧
        clean p = configFilePath uuid name) ∧
    (∀ p root relative, writeTrustRoot p = .ok (root, relative) →
      join root relative = clean p ∧ relative ≠ [] ∧ dotdot ∉ split relative) ∧
    (∀ p q base idp idq rootp relp rootq relq restp restq, base ∈ serverScopedBases →
      writeTrustRoot p = .ok (rootp, relp) → writeTrustRoot q = .ok (rootq, relq) →
      split (clean p) = split base ++ idp :: restp →
      split (clean q) = split base ++ idq :: restq → (rootp = rootq ↔ idp = idq)) := by
  refine ⟨fun p allowedRoots cleaned hpath => ?_,
    fun p cleaned => panelConfigFilePath_iff, fun p root relative hok => ?_,
    fun p q base idp idq rootp relp rootq relq restp restq => trustRoot_eq_iff⟩
  · obtain ⟨habs, rfl, -, root, hroot, hunder⟩ := path_eq_ok_iff.mp hpath
    refine ⟨rfl, (isAbs_clean p).trans habs, dotdot_not_mem_split_clean habs, root, hroot, ?_⟩
    rcases hunder with heq | ⟨tail, htail⟩
    · exact .inl heq
    · exact .inr ⟨split tail, splitOn_ne_nil _ _, by rw [htail, split_append]⟩
  · obtain ⟨habs, htrust⟩ := trustRoot_of_writeTrustRoot hok
    exact join_of_trustRoot habs htrust

/-- A config file of a server, written with a detour. -/
def detour (server : String) : GoString :=
  go ("/var/lib/squad-panel/saved/../configs//" ++ server ++ "/ServerConfig/Rcon.cfg")

theorem bridge_paths_confined_detour :
    dotdot ∉ split (clean (detour "01234567-89ab-cdef-0123-456789abcdef")) ∧
      (∃ uuid name, uuidLike uuid = true ∧ name ∈ allowedCfgFiles ∧
        clean (detour "01234567-89ab-cdef-0123-456789abcdef") = configFilePath uuid name) ∧
      join (go "/var/lib/squad-panel/configs/a") (go "ServerConfig/Rcon.cfg") =
        clean (detour "a") ∧
      (go "/var/lib/squad-panel/configs/a" = go "/var/lib/squad-panel/configs/b" ↔
        go "a" = go "b") := by
  obtain ⟨hpath, hconfig, hjoin, hsame⟩ := bridge_paths_confined
  have haccepted : path (detour "01234567-89ab-cdef-0123-456789abcdef") [PanelDataRoot] =
      .ok (clean (detour "01234567-89ab-cdef-0123-456789abcdef")) := by
    decide +kernel
  have hfile : panelConfigFilePath (detour "01234567-89ab-cdef-0123-456789abcdef") =
      .ok (clean (detour "01234567-89ab-cdef-0123-456789abcdef")) := by
    decide +kernel
  have ha : writeTrustRoot (detour "a") =
      .ok (go "/var/lib/squad-panel/configs/a", go "ServerConfig/Rcon.cfg") := by
    decide +kernel
  have hb : writeTrustRoot (detour "b") =
      .ok (go "/var/lib/squad-panel/configs/b", go "ServerConfig/Rcon.cfg") := by
    decide +kernel
  refine ⟨(hpath _ _ _ haccepted).2.2.1, ((hconfig _ _).mp hfile).2, (hjoin _ _ _ ha).1, ?_⟩
  exact hsame (detour "a") (detour "b") PanelConfigsRoot _ _ _ _ _ _
    [go "ServerConfig", go "Rcon.cfg"] [go "ServerConfig", go "Rcon.cfg"] (by decide) ha hb
    (by decide +kernel) (by decide +kernel)

end SquadPanel.Bridge
