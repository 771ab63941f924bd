import Mathlib.Data.List.TakeWhile
import SquadPanel.Js.Text

/-!
# What `trim` and `replace` leave

A string is whitespace, a core without whitespace at its ends, and whitespace; `trim`
gives the core.
-/

namespace SquadPanel.Js

open List

theorem isWhitespace_of_isDigit {u : UInt16} (hu : isDigit u = true) : isWhitespace u = false := by
  simp only [isDigit, Bool.and_eq_true, decide_eq_true_eq, UInt16.le_iff_toNat_le] at hu
  have hmin : 0x30 ≤ u.toNat := hu.1
  have hmax : u.toNat ≤ 0x39 := hu.2
  simp only [isWhitespace, Bool.or_eq_false_iff, Bool.and_eq_false_iff, decide_eq_false_iff_not,
    beq_eq_false_iff_ne, UInt16.le_iff_toNat_le, ne_eq, ← UInt16.toNat_inj]
  simp only [UInt16.reduceToNat]
  omega

/-- No whitespace at either end. -/
structure Trimmed (s : JsString) : Prop where
  head : ∀ u ∈ s.head?, isWhitespace u = false
  last : ∀ u ∈ s.getLast?, isWhitespace u = false

theorem trimmed_nil : Trimmed [] := ⟨by simp, by simp⟩

variable {s : JsString}

theorem Trimmed.reverse (hs : Trimmed s) : Trimmed s.reverse where
  head u hu := hs.last u (by rwa [head?_reverse] at hu)
  last u hu := hs.head u (by rwa [getLast?_reverse] at hu)

/-- Dropping the whitespace in front of a core. -/
theorem dropWhile_append_core {a t b : JsString} (ha : AllSpace a)
    (ht : ∀ u ∈ t.head?, isWhitespace u = false) (hne : t ≠ []) :
    (a ++ (t ++ b)).dropWhile isWhitespace = t ++ b := by
  rw [dropWhile_append_of_pos ha]
  cases t with
  | nil => exact absurd rfl hne
  | cons u t =>
    have hu : isWhitespace u = false := ht u rfl
    rw [cons_append, dropWhile_cons_of_neg (by simp [hu])]

theorem trim_of_split {a t b : JsString} (ha : AllSpace a) (hb : AllSpace b) (ht : Trimmed t) :
    trim (a ++ (t ++ b)) = t := by
  unfold trim
  by_cases hne : t = []
  · subst hne
    have hall : (a ++ ([] ++ b)).dropWhile isWhitespace = [] := by
      rw [dropWhile_eq_nil_iff]
      intro u hu
      rcases mem_append.1 hu with hu | hu
      · exact ha u hu
      · exact hb u hu
    rw [hall]
    rfl
  · rw [dropWhile_append_core ha ht.head hne, reverse_append,
      ← append_nil t.reverse, dropWhile_append_core (fun u hu => hb u (mem_reverse.1 hu))
        ht.reverse.head (by simpa using hne), append_nil, reverse_reverse]

theorem trim_eq_self (hs : Trimmed s) : trim s = s := by
  have hsplit := trim_of_split (forall_mem_nil _) (forall_mem_nil _) hs
  simpa using hsplit

/-- The core of a string and the whitespace around it. -/
theorem exists_split_trim (s : JsString) :
    ∃ a b, s = a ++ (trim s ++ b) ∧ AllSpace a ∧ AllSpace b ∧ Trimmed (trim s) := by
  have hstop (s : JsString) : ∀ u ∈ (s.dropWhile isWhitespace).head?, isWhitespace u = false := by
    intro u hu
    have hhead := head?_dropWhile_not isWhitespace s
    rwa [Option.mem_def.1 hu] at hhead
  have hsplit : s = s.takeWhile isWhitespace ++ s.dropWhile isWhitespace :=
    takeWhile_append_dropWhile.symm
  have htail : s.dropWhile isWhitespace =
      trim s ++ ((s.dropWhile isWhitespace).reverse.takeWhile isWhitespace).reverse := by
    rw [trim, ← reverse_append, takeWhile_append_dropWhile, reverse_reverse]
  refine ⟨s.takeWhile isWhitespace,
    ((s.dropWhile isWhitespace).reverse.takeWhile isWhitespace).reverse, ?_, ?_, ?_, ?_, ?_⟩
  · rw [← htail]
    exact hsplit
  · exact fun u hu => mem_takeWhile_imp hu
  · exact fun u hu => mem_takeWhile_imp (mem_reverse.1 hu)
  · -- the core starts where the string does, once its front is dropped
    intro u hu
    apply hstop s u
    rw [htail]
    cases htrim : trim s with
    | nil =>
      rw [htrim] at hu
      cases hu
    | cons v t =>
      rw [htrim] at hu
      exact hu
  · intro u hu
    rw [trim, getLast?_reverse] at hu
    exact hstop _ u hu

theorem trimmed_trim (s : JsString) : Trimmed (trim s) := by
  obtain ⟨a, b, -, -, -, htrimmed⟩ := exists_split_trim s
  exact htrimmed

theorem trim_eq_nil : trim s = [] ↔ AllSpace s := by
  constructor
  · intro hnil u hu
    obtain ⟨a, b, hsplit, ha, hb, -⟩ := exists_split_trim s
    rw [hnil] at hsplit
    rw [hsplit] at hu
    rcases mem_append.1 hu with hu | hu
    · exact ha u hu
    · exact hb u hu
  · intro hall
    have hsplit := trim_of_split hall (forall_mem_nil _) trimmed_nil
    simpa using hsplit

theorem Trimmed.append {t : JsString} (hs : ∀ u ∈ s.head?, isWhitespace u = false)
    (ht : ∀ u ∈ t.getLast?, isWhitespace u = false) (hsne : s ≠ []) (htne : t ≠ []) :
    Trimmed (s ++ t) where
  head u hu := hs u (by
    rw [head?_append_of_ne_nil _ hsne] at hu
    exact hu)
  last u hu := ht u (by
    rw [getLast?_append_of_ne_nil _ htne] at hu
    exact hu)

/-! ## Runs of a class -/

section Runs

variable {inClass : UInt16 → Bool} {r : UInt16}

theorem replaceRuns_of_not {u : UInt16} (hu : inClass u = false) (s : JsString) :
    replaceRuns inClass r (u :: s) = u :: replaceRuns inClass r s := by
  simp [replaceRuns, hu]

/-- No run crosses a border with a unit outside the class. -/
theorem replaceRuns_append {a b : JsString}
    (hborder : (∀ u ∈ a.getLast?, inClass u = false) ∨ ∀ u ∈ b.head?, inClass u = false) :
    replaceRuns inClass r (a ++ b) = replaceRuns inClass r a ++ replaceRuns inClass r b := by
  induction a with
  | nil => rfl
  | cons u a ih =>
    cases hu : inClass u with
    | false =>
      rw [cons_append, replaceRuns_of_not hu, replaceRuns_of_not hu, cons_append, ih]
      cases a with
      | nil => exact .inl (by simp)
      | cons v a => simpa using hborder
    | true =>
      cases a with
      | nil =>
        have hb : ∀ v ∈ b.head?, inClass v = false := by
          rcases hborder with hlast | hb
          · have hfalse := hlast u rfl
            rw [hu] at hfalse
            cases hfalse
          · exact hb
        have hhead : b.head?.any inClass = false := by
          cases hb' : b.head? with
          | none => rfl
          | some v => exact hb v hb'
        simp [replaceRuns, hu, hhead]
      | cons v a =>
        have htail := ih (by simpa using hborder)
        simp only [cons_append, replaceRuns, hu, head?_cons, Option.any_some, if_true] at htail ⊢
        rw [htail]
        split <;> rfl

/-- Units outside the class stay. -/
theorem mem_replaceRuns_iff {u : UInt16} (hu : inClass u = false) (hne : u ≠ r) :
    u ∈ replaceRuns inClass r s ↔ u ∈ s := by
  refine ⟨fun hin => ?_, fun hin => ?_⟩
  · exact ((mem_replaceRuns hin).resolve_left hne).1
  · induction s with
    | nil => exact hin
    | cons v s ih =>
      rcases mem_cons.1 hin with rfl | hin
      · rw [replaceRuns_of_not hu]
        exact mem_cons_self
      · unfold replaceRuns
        split
        · split
          · exact ih hin
          · exact mem_cons_of_mem _ (ih hin)
        · exact mem_cons_of_mem _ (ih hin)

theorem isWhitespace_of_mem_replaceRuns (hr : isWhitespace r = true) (hs : AllSpace s) :
    AllSpace (replaceRuns inClass r s) := by
  intro u hu
  rcases mem_replaceRuns hu with rfl | ⟨hin, -⟩
  · exact hr
  · exact hs u hin

/-- Whitespace for whitespace: trimming before or after makes no difference. -/
theorem trim_replaceRuns (hclass : ∀ u, inClass u = true → isWhitespace u = true)
    (hr : isWhitespace r = true) (s : JsString) :
    trim (replaceRuns inClass r s) = replaceRuns inClass r (trim s) := by
  have hout {u : UInt16} (hu : isWhitespace u = false) : inClass u = false := by
    cases hin : inClass u with
    | false => rfl
    | true =>
      rw [hclass u hin] at hu
      cases hu
  obtain ⟨a, b, hsplit, ha, hb, ht⟩ := exists_split_trim s
  generalize trim s = t at hsplit ht ⊢
  subst hsplit
  by_cases hne : t = []
  · subst hne
    rw [trim_eq_nil.2]
    · rfl
    · apply isWhitespace_of_mem_replaceRuns hr
      intro u hu
      rcases mem_append.1 hu with hu | hu
      · exact ha u hu
      · exact hb u hu
  · have hhead : ∀ u ∈ (t ++ b).head?, inClass u = false := by
      intro u hu
      rw [head?_append_of_ne_nil _ hne] at hu
      exact hout (ht.head u hu)
    rw [replaceRuns_append (.inr hhead), replaceRuns_append (.inl fun u hu => hout (ht.last u hu))]
    refine trim_of_split (isWhitespace_of_mem_replaceRuns hr ha)
      (isWhitespace_of_mem_replaceRuns hr hb) ⟨fun u hu => ?_, fun u hu => ?_⟩
    · cases t with
      | nil => exact absurd rfl hne
      | cons v t =>
        rw [replaceRuns_of_not (hout (ht.head v rfl))] at hu
        exact ht.head u hu
    · rw [← dropLast_append_getLast hne] at hu
      have hlast : isWhitespace (t.getLast hne) = false :=
        ht.last _ (getLast?_eq_some_getLast hne)
      rw [replaceRuns_append (.inr (by simpa using hout hlast)),
        replaceRuns_of_not (hout hlast)] at hu
      have heq : t.getLast hne = u := by simpa [replaceRuns] using hu
      exact heq ▸ hlast

end Runs

end SquadPanel.Js
