import Mathlib.Data.List.Basic

/-!
# Lines of a growing text

A text is its finished lines, each with the separator after it, and an unfinished one.  When
the text grows, the finished lines stay and the unfinished one goes on.
-/

namespace SquadPanel.Lib.LineSplit

open List

variable {α β : Type} [BEq α] [LawfulBEq α] {sep : α} {a : List α} {b : List α}

/-- The lines that have their separator. -/
def finished (sep : α) (s : List α) : List (List α) := (s.splitOn sep).dropLast

/-- What follows the last separator. -/
def unfinished (sep : α) (s : List α) : List α := (s.splitOn sep).getLastD []

theorem finished_of_not_mem {s : List α} (hs : sep ∉ s) : finished sep s = [] := by
  rw [finished, splitOn_eq_singleton hs]
  rfl

theorem unfinished_of_not_mem {s : List α} (hs : sep ∉ s) : unfinished sep s = s := by
  rw [unfinished, splitOn_eq_singleton hs]
  rfl

@[simp] theorem finished_nil : finished sep [] = [] := finished_of_not_mem not_mem_nil

theorem finished_line (ha : sep ∉ a) (b : List α) :
    finished sep (a ++ sep :: b) = a :: finished sep b := by
  rw [finished, splitOn_append_cons_self_of_not_mem ha,
    dropLast_cons_of_ne_nil (splitOn_ne_nil sep b), finished]

theorem unfinished_line (ha : sep ∉ a) (b : List α) :
    unfinished sep (a ++ sep :: b) = unfinished sep b := by
  rw [unfinished, splitOn_append_cons_self_of_not_mem ha, unfinished]
  obtain ⟨line, lines, hlines⟩ := exists_cons_of_ne_nil (splitOn_ne_nil sep b)
  rw [hlines]
  rfl

/-- Induction over the finished lines. -/
theorem line_induction (sep : α) {motive : List α → Prop} (hlast : ∀ s, sep ∉ s → motive s)
    (hline : ∀ a b, sep ∉ a → motive b → motive (a ++ sep :: b)) (s : List α) : motive s := by
  induction hlength : s.length using Nat.strongRecOn generalizing s with
  | ind n ih =>
    by_cases hs : sep ∈ s
    · obtain ⟨a, b, rfl, ha⟩ := eq_append_cons_of_mem hs
      refine hline a b ha (ih b.length ?_ b rfl)
      rw [← hlength, length_append, length_cons]
      omega
    · exact hlast s hs

theorem not_mem_unfinished (sep : α) (s : List α) : sep ∉ unfinished sep s := by
  induction s using line_induction sep with
  | hlast s hs => rwa [unfinished_of_not_mem hs]
  | hline a b ha ih => rwa [unfinished_line ha]

theorem finished_append (a b : List α) :
    finished sep (a ++ b) = finished sep a ++ finished sep (unfinished sep a ++ b) := by
  induction a using line_induction sep with
  | hlast a ha => rw [finished_of_not_mem ha, unfinished_of_not_mem ha, nil_append]
  | hline line a hline ih =>
    rw [append_assoc, cons_append, finished_line hline, finished_line hline,
      unfinished_line hline, ih, cons_append]

theorem unfinished_append (a b : List α) :
    unfinished sep (a ++ b) = unfinished sep (unfinished sep a ++ b) := by
  induction a using line_induction sep with
  | hlast a ha => rw [unfinished_of_not_mem ha]
  | hline line a hline ih =>
    rw [append_assoc, cons_append, unfinished_line hline, unfinished_line hline, ih]

theorem finished_append_of_not_mem (a : List α) (hb : sep ∉ b) :
    finished sep (a ++ b) = finished sep a := by
  have hrest : sep ∉ unfinished sep a ++ b := by
    rw [mem_append, not_or]
    exact ⟨not_mem_unfinished sep a, hb⟩
  rw [finished_append, finished_of_not_mem hrest, append_nil]

/-- A text that ends with a separator is its finished lines. -/
theorem flatMap_finished (s : List α) :
    (finished sep (s ++ [sep])).flatMap (· ++ [sep]) = s ++ [sep] := by
  induction s using line_induction sep with
  | hlast s hs =>
    rw [finished_line hs, finished_nil]
    simp
  | hline a b ha ih =>
    rw [append_assoc, cons_append, finished_line ha, flatMap_cons, ih]
    simp

/-- Lines under an encoding that keeps the separator apart. -/
theorem finished_flatMap [BEq β] [LawfulBEq β] {f : α → List β} {sep' : β}
    (hsep : f sep = [sep']) (hother : ∀ x, x ≠ sep → sep' ∉ f x) (s : List α) :
    finished sep' (s.flatMap f) = (finished sep s).map (·.flatMap f) := by
  have hkeep {line : List α} (hline : sep ∉ line) : sep' ∉ line.flatMap f := by
    rw [mem_flatMap]
    rintro ⟨x, hx, hmem⟩
    exact hother x (by rintro rfl; exact hline hx) hmem
  induction s using line_induction sep with
  | hlast s hs => rw [finished_of_not_mem hs, finished_of_not_mem (hkeep hs), map_nil]
  | hline a b ha ih =>
    rw [flatMap_append, flatMap_cons, hsep, singleton_append,
      finished_line (hkeep ha), ih, finished_line ha, map_cons]

/-- What is unfinished before a separator is the start of a finished line. -/
theorem unfinished_prefix_finished (a : List α) (hb : sep ∈ b) :
    ∃ line ∈ finished sep (a ++ b), unfinished sep a <+: line := by
  obtain ⟨rest, later, rfl, hrest⟩ := eq_append_cons_of_mem hb
  have hline : sep ∉ unfinished sep a ++ rest := by
    rw [mem_append, not_or]
    exact ⟨not_mem_unfinished sep a, hrest⟩
  refine ⟨unfinished sep a ++ rest, ?_, prefix_append _ _⟩
  rw [finished_append, ← append_assoc, finished_line hline]
  exact mem_append_right _ mem_cons_self

/-- The last separator of a text that comes in pieces. -/
theorem exists_last_piece {pieces : List (List α)} (hmem : sep ∈ pieces.flatten) :
    ∃ front a b back, pieces = front ++ (a ++ sep :: b) :: back ∧ sep ∉ b ∧
      sep ∉ back.flatten := by
  induction pieces with
  | nil => cases hmem
  | cons piece pieces ih =>
    by_cases hlater : sep ∈ pieces.flatten
    · obtain ⟨front, a, b, back, rfl, hb, hback⟩ := ih hlater
      exact ⟨piece :: front, a, b, back, rfl, hb, hback⟩
    · have hpiece : sep ∈ piece.reverse := by
        rw [flatten_cons, mem_append] at hmem
        exact mem_reverse.mpr (hmem.resolve_right hlater)
      obtain ⟨b, a, hreverse, hb⟩ := eq_append_cons_of_mem hpiece
      refine ⟨[], a.reverse, b.reverse, pieces, ?_, by rwa [mem_reverse], hlater⟩
      rw [nil_append, ← reverse_reverse piece, hreverse]
      simp

/-! ## Joined fields -/

theorem splitOn_intercalate_fields (first : List α) (rest : List (List α)) :
    ([sep].intercalate (first :: rest)).splitOn sep =
      (first :: rest).flatMap fun field => field.splitOn sep := by
  induction rest generalizing first with
  | nil => simp only [intercalate_singleton, flatMap_singleton]
  | cons second rest ih =>
    rw [intercalate_cons_cons, append_assoc, singleton_append, splitOn_append_cons_self, ih]
    rfl

/-- Joining fields keeps the sequence of pieces between separators, and nothing else. -/
theorem intercalate_eq_iff {first first' : List α} {rest rest' : List (List α)} :
    [sep].intercalate (first :: rest) = [sep].intercalate (first' :: rest') ↔
      ((first :: rest).flatMap fun field => field.splitOn sep) =
        (first' :: rest').flatMap fun field => field.splitOn sep := by
  rw [← splitOn_intercalate_fields, ← splitOn_intercalate_fields]
  constructor
  · intro heq
    rw [heq]
  · intro heq
    have hjoined := congrArg [sep].intercalate heq
    rwa [intercalate_splitOn, intercalate_splitOn] at hjoined

end SquadPanel.Lib.LineSplit
