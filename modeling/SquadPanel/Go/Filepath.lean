import SquadPanel.Lib.LineSplit
import SquadPanel.Lib.Occurs
import SquadPanel.Lib.Utf8

/-!
# Paths of the Go standard library

`path/filepath` on Unix as documented: `Clean` is lexical, `Rel` goes up from the base and down
to the target, `Join` cleans what it joins.  A path is handled by its elements, the names that
are left when `.`, `..` and repeated separators are resolved.
-/

namespace SquadPanel.Go

open List

/-- A Go string: its bytes. -/
abbrev GoString := List UInt8

/-- The string of a literal. -/
def go (literal : String) : GoString := Lib.Utf8.encode literal.toList

/-- `filepath.Separator` -/
def Separator : UInt8 := 0x2F

def dot : GoString := [0x2E]

def dotdot : GoString := [0x2E, 0x2E]

/-- `strings.Split(s, "/")` -/
def split (s : GoString) : List GoString := s.splitOn Separator

/-- `strings.Join(elems, "/")` -/
def joinStrings (elems : List GoString) : GoString := [Separator].intercalate elems

/-- `strings.HasPrefix` -/
def hasPrefix (s start : GoString) : Bool := start.isPrefixOf s

/-- `strings.Cut(s, "/")` -/
def cut (s : GoString) : GoString × GoString :=
  (s.takeWhile (· != Separator), (s.dropWhile (· != Separator)).drop 1)

namespace Filepath

def isAbs (p : GoString) : Bool := p.head? == some Separator

/-- The names kept after one more name.  They are in reverse order. -/
def pushName (rooted : Bool) (kept : List GoString) (name : GoString) : List GoString :=
  if name = [] ∨ name = dot then kept
  else if name = dotdot then
    match kept with
    | [] => if rooted then [] else [dotdot]
    | last :: before => if last = dotdot then dotdot :: kept else before
  else name :: kept

/-- The names of a cleaned path. -/
def elements (p : GoString) : List GoString :=
  ((split p).foldl (pushName (isAbs p)) []).reverse

def clean (p : GoString) : GoString :=
  if isAbs p then Separator :: joinStrings (elements p)
  else if elements p = [] then dot
  else joinStrings (elements p)

def join (a b : GoString) : GoString :=
  if a ≠ [] then clean (joinStrings [a, b]) else if b ≠ [] then clean b else []

/-- The rests of two lists after their longest common start. -/
def dropCommon : List GoString → List GoString → List GoString × List GoString
  | b :: base, t :: targ => if b = t then dropCommon base targ else (b :: base, t :: targ)
  | base, targ => (base, targ)

def rel (basepath targpath : GoString) : Option GoString :=
  if isAbs basepath ≠ isAbs targpath then none
  else
    let (base, targ) := dropCommon (elements basepath) (elements targpath)
    if base.head? = some dotdot then none
    else
      let out := List.replicate base.length dotdot ++ targ
      if out = [] then some dot else some (joinStrings out)

/-! ## Names -/

/-- A name that stays when a path is cleaned. -/
structure Proper (name : GoString) : Prop where
  ne_nil : name ≠ []
  ne_dot : name ≠ dot
  ne_dotdot : name ≠ dotdot
  no_separator : Separator ∉ name

variable {name : GoString} {names : List GoString} {kept : List GoString} {p : GoString}

theorem pushName_proper (hname : Proper name) (rooted : Bool) (kept : List GoString) :
    pushName rooted kept name = name :: kept := by
  have hskip : ¬ (name = [] ∨ name = dot) := by
    rintro (hnil | hdot)
    · exact hname.ne_nil hnil
    · exact hname.ne_dot hdot
  unfold pushName
  rw [if_neg hskip, if_neg hname.ne_dotdot]

theorem foldl_pushName_proper (hnames : ∀ name ∈ names, Proper name) (rooted : Bool)
    (kept : List GoString) : names.foldl (pushName rooted) kept = names.reverse ++ kept := by
  induction names generalizing kept with
  | nil => rfl
  | cons name names ih =>
    rw [forall_mem_cons] at hnames
    rw [foldl_cons, pushName_proper hnames.1, ih hnames.2, reverse_cons,
      append_assoc, singleton_append]

/-- From the root only proper names are kept. -/
theorem proper_pushName (hkept : ∀ k ∈ kept, Proper k)
    (hname : Separator ∉ name) : ∀ k ∈ pushName true kept name, Proper k := by
  unfold pushName
  split
  · exact hkept
  · next hskip =>
    rw [not_or] at hskip
    split
    · cases kept with
      | nil => exact hkept
      | cons last before =>
        rw [forall_mem_cons] at hkept
        dsimp only
        rw [if_neg hkept.1.ne_dotdot]
        exact hkept.2
    · next hdotdot =>
      rw [forall_mem_cons]
      exact ⟨⟨hskip.1, hskip.2, hdotdot, hname⟩, hkept⟩

theorem proper_foldl_pushName (hkept : ∀ k ∈ kept, Proper k)
    (hnames : ∀ name ∈ names, Separator ∉ name) :
    ∀ k ∈ names.foldl (pushName true) kept, Proper k :=
  foldlRecOn (motive := fun kept => ∀ k ∈ kept, Proper k) names _ hkept fun _ hkept name hname =>
    proper_pushName hkept (hnames name hname)

theorem separator_not_mem_split {s : GoString} (hname : name ∈ split s) : Separator ∉ name := by
  induction s using Lib.LineSplit.line_induction Separator with
  | hlast s hs =>
    rw [split, splitOn_eq_singleton hs, mem_singleton] at hname
    rwa [hname]
  | hline first rest hfirst ih =>
    rw [split, splitOn_append_cons_self_of_not_mem hfirst] at hname
    rcases mem_cons.mp hname with rfl | hrest
    · exact hfirst
    · exact ih hrest

theorem proper_elements (habs : isAbs p = true) : ∀ name ∈ elements p, Proper name := by
  intro name hname
  rw [elements, habs, mem_reverse] at hname
  exact proper_foldl_pushName (by simp) (fun _ => separator_not_mem_split) name hname

/-! ## Cleaned paths -/

theorem split_joinStrings (hne : names ≠ []) (hnames : ∀ name ∈ names, Separator ∉ name) :
    split (joinStrings names) = names :=
  splitOn_intercalate Separator hnames hne

theorem split_append (a b : GoString) : split (a ++ Separator :: b) = split a ++ split b :=
  splitOn_append_cons_self a b

theorem split_rooted (hne : names ≠ []) (hnames : ∀ name ∈ names, Proper name) :
    split (Separator :: joinStrings names) = [] :: names := by
  have hsplit := split_append [] (joinStrings names)
  rw [nil_append] at hsplit
  rw [hsplit, split_joinStrings hne fun name hname => (hnames name hname).no_separator]
  rfl

theorem isAbs_cons (p : GoString) : isAbs (Separator :: p) = true := rfl

theorem isAbs_append (habs : isAbs p = true) (q : GoString) : isAbs (p ++ q) = true := by
  cases p with
  | nil => cases habs
  | cons u p => exact habs

theorem clean_of_isAbs (habs : isAbs p = true) :
    clean p = Separator :: joinStrings (elements p) := if_pos habs

/-- Also from a relative path only names are kept. -/
theorem pushName_ne_nil {rooted : Bool}
    (hkept : ∀ k ∈ kept, k ≠ [] ∧ Separator ∉ k) (hname : Separator ∉ name) :
    ∀ k ∈ pushName rooted kept name, k ≠ [] ∧ Separator ∉ k := by
  have hdotdot : dotdot ≠ [] ∧ Separator ∉ dotdot := by decide
  unfold pushName
  split
  · exact hkept
  · next hskip =>
    rw [not_or] at hskip
    split
    · cases kept with
      | nil =>
        dsimp only
        split
        · exact hkept
        · simpa using hdotdot
      | cons last before =>
        dsimp only
        split
        · rw [forall_mem_cons]
          exact ⟨hdotdot, hkept⟩
        · exact (forall_mem_cons.mp hkept).2
    · rw [forall_mem_cons]
      exact ⟨⟨hskip.1, hname⟩, hkept⟩

theorem elements_ne_nil (p : GoString) : ∀ k ∈ elements p, k ≠ [] ∧ Separator ∉ k := by
  intro k hk
  rw [elements, mem_reverse] at hk
  refine foldlRecOn (motive := fun kept => ∀ k ∈ kept, k ≠ [] ∧ Separator ∉ k) (split p) _
    (by simp) (fun _ hkept _ hname => ?_) k hk
  exact pushName_ne_nil hkept (separator_not_mem_split hname)

theorem isAbs_joinStrings (hne : names ≠ []) (hnames : ∀ k ∈ names, k ≠ [] ∧ Separator ∉ k) :
    isAbs (joinStrings names) = false := by
  obtain ⟨name, rest, rfl⟩ := exists_cons_of_ne_nil hne
  obtain ⟨hname, hsep⟩ := hnames name mem_cons_self
  obtain ⟨u, name, rfl⟩ := exists_cons_of_ne_nil hname
  have hhead : (joinStrings ((u :: name) :: rest)).head? = some u := by
    cases rest with
    | nil => simp [joinStrings]
    | cons next rest => simp [joinStrings, intercalate_cons_cons]
  rw [isAbs, hhead]
  simp only [mem_cons, not_or] at hsep
  simpa using Ne.symm hsep.1

theorem isAbs_clean (p : GoString) : isAbs (clean p) = isAbs p := by
  unfold clean
  split
  · next habs => rw [isAbs_cons, habs]
  · next habs =>
    rw [Bool.not_eq_true] at habs
    split
    · rw [habs]
      decide
    · next hne => rw [isAbs_joinStrings hne (elements_ne_nil p), habs]

theorem elements_rooted (hnames : ∀ name ∈ names, Proper name) :
    elements (Separator :: joinStrings names) = names := by
  cases names with
  | nil => rfl
  | cons name names =>
    rw [elements, isAbs_cons, split_rooted (cons_ne_nil _ _) hnames, foldl_cons]
    show ((name :: names).foldl (pushName true) []).reverse = _
    rw [foldl_pushName_proper hnames, append_nil, reverse_reverse]

theorem elements_clean (habs : isAbs p = true) : elements (clean p) = elements p := by
  rw [clean_of_isAbs habs, elements_rooted (proper_elements habs)]

/-- A cleaned absolute path splits into the root and proper names. -/
theorem split_clean (habs : isAbs p = true) (hne : elements p ≠ []) :
    split (clean p) = [] :: elements p := by
  rw [clean_of_isAbs habs, split_rooted hne (proper_elements habs)]

theorem dotdot_not_mem_split_clean (habs : isAbs p = true) : dotdot ∉ split (clean p) := by
  by_cases hnil : elements p = []
  · rw [clean_of_isAbs habs, hnil]
    decide
  · rw [split_clean habs hnil, mem_cons, not_or]
    exact ⟨by decide, fun hmem => (proper_elements habs _ hmem).ne_dotdot rfl⟩

/-! ## Joining and going below -/

theorem joinStrings_append {later : List GoString} (hnames : names ≠ []) (hlater : later ≠ []) :
    joinStrings (names ++ later) = joinStrings names ++ Separator :: joinStrings later := by
  obtain ⟨name, names, rfl⟩ := exists_cons_of_ne_nil hnames
  obtain ⟨next, later, rfl⟩ := exists_cons_of_ne_nil hlater
  simp [joinStrings, Lib.intercalate_cons_eq]

section
variable (habs : isAbs p = true) (hne : names ≠ []) (hnames : ∀ name ∈ names, Proper name)
include habs hne hnames

theorem elements_append : elements (p ++ Separator :: joinStrings names) = elements p ++ names := by
  rw [elements, isAbs_append habs, split_append, split_joinStrings hne fun name hname =>
    (hnames name hname).no_separator, foldl_append, foldl_pushName_proper hnames,
    reverse_append, reverse_reverse, elements, habs]

theorem join_names :
    join p (joinStrings names) = Separator :: joinStrings (elements p ++ names) := by
  have hp : p ≠ [] := by
    rintro rfl
    cases habs
  have hjoin : joinStrings [p, joinStrings names] = p ++ Separator :: joinStrings names := by
    simp [joinStrings, intercalate_cons_cons]
  rw [join, if_pos hp, hjoin, clean_of_isAbs (isAbs_append habs _),
    elements_append habs hne hnames]

end

theorem dropCommon_append (base rest : List GoString) :
    dropCommon base (base ++ rest) = ([], rest) := by
  induction base with
  | nil => cases rest <;> rfl
  | cons b base ih => rw [cons_append, dropCommon, if_pos rfl, ih]

theorem dropCommon_fst_eq_nil {base targ : List GoString} (hnil : (dropCommon base targ).1 = []) :
    targ = base ++ (dropCommon base targ).2 := by
  induction base generalizing targ with
  | nil => cases targ <;> rfl
  | cons b base ih =>
    cases targ with
    | nil => cases hnil
    | cons t targ =>
      rw [dropCommon] at hnil ⊢
      split at hnil
      · next heq =>
        subst heq
        rw [if_pos rfl, cons_append, ← ih hnil]
      · cases hnil

theorem dropCommon_fst_subset {base targ : List GoString}
    (hname : name ∈ (dropCommon base targ).1) : name ∈ base := by
  induction base generalizing targ with
  | nil => cases targ <;> exact hname
  | cons b base ih =>
    cases targ with
    | nil => exact hname
    | cons t targ =>
      rw [dropCommon] at hname
      split at hname
      · exact mem_cons_of_mem _ (ih hname)
      · exact hname

end Filepath

end SquadPanel.Go
