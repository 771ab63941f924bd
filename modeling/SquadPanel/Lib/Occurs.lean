import Mathlib.Data.List.Infix

/-!
# Occurrences of a pattern in a text

Texts and patterns are lists over any alphabet.  `OccursAt pat s i` says that
`pat` stands at position `i` of `s`; `indexOf` finds the first such position.
The lemmas say where an occurrence in a concatenation can lie: an item that the
pattern does not contain cannot be straddled.
-/

namespace SquadPanel.Lib

open List

variable {α : Type*} {pat s : List α} {i : Nat}

/-- `pat` stands at position `i` of `s`. -/
def OccursAt (pat s : List α) (i : Nat) : Prop := pat <+: s.drop i

/-- `pat` stands nowhere in `s`. -/
def Absent (pat s : List α) : Prop := ∀ i, ¬ OccursAt pat s i

instance [DecidableEq α] (pat s : List α) (i : Nat) : Decidable (OccursAt pat s i) :=
  inferInstanceAs (Decidable (pat <+: s.drop i))

/-! ## Where occurrences lie -/

theorem OccursAt.length_le (hne : pat ≠ []) (hoccurs : OccursAt pat s i) :
    i + pat.length ≤ s.length := by
  have hlen := List.IsPrefix.length_le hoccurs
  have hpos := length_pos_of_ne_nil hne
  rw [length_drop] at hlen
  omega

theorem OccursAt.append (hne : pat ≠ []) (hoccurs : OccursAt pat s i) (t : List α) :
    OccursAt pat (s ++ t) i := by
  have hlen := hoccurs.length_le hne
  unfold OccursAt at hoccurs ⊢
  rw [drop_append_of_le_length (by omega)]
  exact hoccurs.trans (prefix_append _ _)

theorem OccursAt.of_append {t : List α} (hoccurs : OccursAt pat (s ++ t) i)
    (hfits : i + pat.length ≤ s.length) : OccursAt pat s i := by
  unfold OccursAt at hoccurs ⊢
  rw [drop_append_of_le_length (by omega)] at hoccurs
  apply prefix_of_prefix_length_le hoccurs (prefix_append _ _)
  rw [length_drop]
  omega

theorem occursAt_append_length (pat s t : List α) (i : Nat) :
    OccursAt pat (s ++ t) (s.length + i) ↔ OccursAt pat t i := by
  unfold OccursAt
  rw [drop_append, drop_eq_nil_of_le (by omega), nil_append,
    Nat.add_sub_cancel_left]

theorem occursAt_drop (pat s : List α) (n i : Nat) :
    OccursAt pat (s.drop n) i ↔ OccursAt pat s (n + i) := by
  unfold OccursAt
  rw [drop_drop]

theorem OccursAt.getElem {k : Nat} (hoccurs : OccursAt pat s i) (hk : k < pat.length) :
    s[i + k]? = pat[k]? := by
  obtain ⟨rest, hrest⟩ := hoccurs
  rw [← getElem?_drop, ← hrest, getElem?_append_left hk]

/-- An occurrence cannot straddle an item that the pattern does not contain. -/
theorem OccursAt.append_cons {a b : List α} {x : α} (hx : x ∉ pat)
    (hoccurs : OccursAt pat (a ++ x :: b) i) : (i + pat.length ≤ a.length ∧ OccursAt pat a i) ∨
      ∃ j, i = a.length + 1 + j ∧ OccursAt pat b j := by
  by_cases hleft : i + pat.length ≤ a.length
  · exact .inl ⟨hleft, hoccurs.of_append hleft⟩
  by_cases hright : a.length + 1 ≤ i
  · have heq : i = (a ++ [x]).length + (i - (a.length + 1)) := by
      rw [length_append, length_singleton]
      omega
    rw [heq, List.append_cons, occursAt_append_length] at hoccurs
    exact .inr ⟨i - (a.length + 1), by omega, hoccurs⟩
  · -- the item would be one of the pattern's
    exfalso
    have hk : a.length - i < pat.length := by omega
    have hget := hoccurs.getElem hk
    rw [show i + (a.length - i) = a.length by omega, getElem?_append_right (le_refl _),
      Nat.sub_self, getElem?_cons_zero] at hget
    exact hx (mem_of_getElem? hget.symm)

theorem Absent.append_cons {a b : List α} {x : α} (hx : x ∉ pat) (ha : Absent pat a)
    (hb : Absent pat b) : Absent pat (a ++ x :: b) := by
  intro i hoccurs
  rcases hoccurs.append_cons hx with ⟨-, hleft⟩ | ⟨j, -, hright⟩
  · exact ha i hleft
  · exact hb j hright

theorem absent_of_not_mem {x : α} (hx : x ∈ pat) (hs : x ∉ s) : Absent pat s := by
  intro i hoccurs
  exact hs (mem_of_mem_drop (hoccurs.subset hx))

theorem absent_of_length_lt (hlt : s.length < pat.length) : Absent pat s := by
  intro i hoccurs
  have hlen := hoccurs.length_le (by rintro rfl; simp at hlt)
  omega

/-- A text that avoids part of a pattern avoids the pattern. -/
theorem Absent.mono {pat' : List α} (hpart : pat <+: pat') (habsent : Absent pat s) :
    Absent pat' s := by
  intro i hoccurs
  exact habsent i (hpart.trans hoccurs)

theorem Absent.of_isInfix {t : List α} (hpart : t <:+: s) (habsent : Absent pat s) :
    Absent pat t := by
  intro i hoccurs
  by_cases hnil : pat = []
  · exact habsent 0 (by rw [hnil]; exact nil_prefix)
  obtain ⟨a, b, rfl⟩ := hpart
  have hmiddle : OccursAt pat (a ++ t) (a.length + i) := (occursAt_append_length ..).mpr hoccurs
  exact habsent _ (hmiddle.append hnil b)

/-- Joining texts that avoid a pattern makes none, when the separator has nothing of it. -/
theorem absent_intercalate (x : α) (sep : List α) (hx : x ∉ pat) (hsep : ∀ y ∈ sep, y ∉ pat)
    (hne : pat ≠ []) {texts : List (List α)} (htexts : ∀ t ∈ texts, Absent pat t) :
    Absent pat ((x :: sep).intercalate texts) := by
  have hnil : Absent pat [] := absent_of_length_lt (length_pos_of_ne_nil hne)
  have hprepend (t : List α) (ht : Absent pat t) : Absent pat (sep ++ t) := by
    induction sep with
    | nil => exact ht
    | cons y sep ih =>
      have hy := hsep y (mem_cons_self ..)
      exact Absent.append_cons (a := []) hy hnil
        (ih fun z hz => hsep z (mem_cons_of_mem _ hz))
  induction texts with
  | nil => exact hnil
  | cons t texts ih =>
    have ht := htexts t (mem_cons_self ..)
    have hrest := ih fun t' ht' => htexts t' (mem_cons_of_mem _ ht')
    cases texts with
    | nil => simpa using ht
    | cons t' texts =>
      exact Absent.append_cons hx ht (hprepend _ hrest)

theorem intercalate_cons_eq (sep t : List α) (texts : List (List α)) :
    sep.intercalate (t :: texts) = t ++ texts.flatMap (sep ++ ·) := by
  induction texts generalizing t with
  | nil => simp
  | cons t' texts ih => simp [intercalate_cons_cons, ih]

theorem intercalate_concat (sep t last : List α) (texts : List (List α)) :
    sep.intercalate (t :: (texts ++ [last])) = sep.intercalate (t :: texts) ++ (sep ++ last) := by
  simp only [intercalate_cons_eq, flatMap_append, flatMap_singleton, append_assoc]

/-! ## The first occurrence -/

section Search
variable [DecidableEq α]

/-- The first position at which `pat` stands in a text. -/
def indexOf (pat : List α) : List α → Option Nat
  | [] => if pat = [] then some 0 else none
  | x :: s => if pat <+: x :: s then some 0 else (indexOf pat s).map (· + 1)

theorem indexOf_spec (pat s : List α) : (indexOf pat s = none ∧ Absent pat s) ∨
      ∃ i, indexOf pat s = some i ∧ OccursAt pat s i ∧ ∀ j < i, ¬ OccursAt pat s j := by
  induction s with
  | nil =>
    by_cases hnil : pat = []
    · right
      exact ⟨0, by simp [indexOf, hnil], by simp [OccursAt, hnil], by omega⟩
    · left
      refine ⟨by simp [indexOf, hnil], fun i hoccurs => hnil ?_⟩
      simpa [OccursAt] using hoccurs
  | cons x s ih =>
    by_cases hhere : pat <+: x :: s
    · right
      exact ⟨0, by simp [indexOf, hhere], hhere, by omega⟩
    · rcases ih with ⟨hnone, habsent⟩ | ⟨i, hsome, hoccurs, hfirst⟩
      · left
        refine ⟨by simp [indexOf, hhere, hnone], fun i hoccurs => ?_⟩
        cases i with
        | zero => exact hhere hoccurs
        | succ i => exact habsent i hoccurs
      · right
        refine ⟨i + 1, by simp [indexOf, hhere, hsome], hoccurs, fun j hj hoccurs' => ?_⟩
        cases j with
        | zero => exact hhere hoccurs'
        | succ j => exact hfirst j (by omega) hoccurs'

theorem indexOf_eq_some :
    indexOf pat s = some i ↔ OccursAt pat s i ∧ ∀ j < i, ¬ OccursAt pat s j := by
  rcases indexOf_spec pat s with ⟨hnone, habsent⟩ | ⟨k, hsome, hoccurs, hfirst⟩
  · rw [hnone]
    exact ⟨nofun, fun h => absurd h.1 (habsent i)⟩
  · rw [hsome]
    constructor
    · rintro ⟨⟩
      exact ⟨hoccurs, hfirst⟩
    · rintro ⟨hoccurs', hfirst'⟩
      rcases Nat.lt_trichotomy k i with hlt | heq | hgt
      · exact absurd hoccurs (hfirst' k hlt)
      · rw [heq]
      · exact absurd hoccurs' (hfirst i hgt)

theorem indexOf_eq_none : indexOf pat s = none ↔ Absent pat s := by
  rcases indexOf_spec pat s with ⟨hnone, habsent⟩ | ⟨k, hsome, hoccurs, hfirst⟩
  · exact ⟨fun _ => habsent, fun _ => hnone⟩
  · rw [hsome]
    exact ⟨nofun, fun h => absurd hoccurs (h k)⟩

end Search

end SquadPanel.Lib
