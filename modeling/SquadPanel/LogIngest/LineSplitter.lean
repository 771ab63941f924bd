import Mathlib.Data.List.Flatten
import SquadPanel.Js.Text
import SquadPanel.Lib.LineSplit

/-!
# The line splitter of the log tails

`createLineSplitter` turns chunks of text into lines.  A line that stays unterminated beyond
`MAX_PENDING_LINE_CHARS` is dropped up to its newline; the check is made between chunks only.
-/

namespace SquadPanel.LogIngest

open Js Lib.LineSplit List

def MAX_PENDING_LINE_CHARS : Nat := 64 * 1024

/-- `\n` -/
def LF : UInt16 := 0x0A

/-- `\r` -/
def CR : UInt16 := 0x0D

/-- The variables of the closure. -/
structure Splitter where
  pending : JsString
  discardingUntilNewline : Bool

/-- What is handed to `onLine` for the text of a line. -/
def lineOf (text : JsString) : List JsString :=
  let line := if text.getLast? = some CR then text.dropLast else text
  if line = [] then [] else [line]

namespace Splitter

def start : Splitter := ⟨[], false⟩

/-- The loop over the terminated parts.  Only the first one continues what is pending. -/
def deliverParts : Splitter → List JsString → List JsString × Splitter
  | s, [] => ([], s)
  | s, part :: parts =>
    let (lines, s') := deliverParts start parts
    ((if s.discardingUntilNewline then [] else lineOf (s.pending ++ part)) ++ lines, s')

/-- The returned function: the lines handed to `onLine`, and the variables afterwards. -/
def push (s : Splitter) (chunk : JsString) : List JsString × Splitter :=
  let parts := (chunk.splitOn LF).dropLast
  let unterminated := (chunk.splitOn LF).getLastD []
  let (lines, s') := s.deliverParts parts
  let carried := if parts = [] then s'.pending ++ unterminated else unterminated
  if s'.discardingUntilNewline ∨ MAX_PENDING_LINE_CHARS < carried.length then (lines, ⟨[], true⟩)
  else (lines, ⟨carried, false⟩)

/-- The lines of chunk after chunk. -/
def pushAll : Splitter → List JsString → List JsString
  | _, [] => []
  | s, chunk :: chunks => (s.push chunk).1 ++ pushAll (s.push chunk).2 chunks

end Splitter

/-! ## The lines of a text -/

/-- The lines that a text finishes, as they are to be handed on. -/
def linesOf (text : JsString) : List JsString := (finished LF text).flatMap lineOf

theorem linesOf_append (a b : JsString) :
    linesOf (a ++ b) = linesOf a ++ linesOf (unfinished LF a ++ b) := by
  rw [linesOf, finished_append, flatMap_append]
  rfl

theorem linesOf_of_not_mem {text : JsString} (htext : LF ∉ text) : linesOf text = [] := by
  rw [linesOf, finished_of_not_mem htext]
  rfl

theorem deliverParts_start (parts : List JsString) :
    Splitter.start.deliverParts parts = (parts.flatMap lineOf, .start) := by
  induction parts with
  | nil => rfl
  | cons part parts ih =>
    rw [Splitter.deliverParts, ih]
    rfl

/-- A chunk with a newline ends the line that was pending, whether or not it is discarded. -/
theorem push_line (s : Splitter) {first : JsString} (hfirst : LF ∉ first) (rest : JsString) :
    s.push (first ++ LF :: rest) =
      ((if s.discardingUntilNewline then [] else lineOf (s.pending ++ first)) ++ linesOf rest,
        if MAX_PENDING_LINE_CHARS < (unfinished LF rest).length then ⟨[], true⟩
        else ⟨unfinished LF rest, false⟩) := by
  have hparts : ((first ++ LF :: rest).splitOn LF).dropLast = first :: finished LF rest :=
    finished_line hfirst rest
  have hlast : ((first ++ LF :: rest).splitOn LF).getLastD [] = unfinished LF rest :=
    unfinished_line hfirst rest
  unfold Splitter.push
  dsimp only
  rw [hparts, hlast, Splitter.deliverParts, deliverParts_start]
  simp only [Splitter.start, Bool.false_eq_true, if_false, reduceCtorEq, false_or]
  split <;> rfl

theorem push_of_not_mem (s : Splitter) {chunk : JsString} (hchunk : LF ∉ chunk) :
    s.push chunk = ([],
      if s.discardingUntilNewline ∨ MAX_PENDING_LINE_CHARS < (s.pending ++ chunk).length then
        ⟨[], true⟩
      else ⟨s.pending ++ chunk, false⟩) := by
  have hparts : (chunk.splitOn LF).dropLast = [] := finished_of_not_mem hchunk
  have hlast : (chunk.splitOn LF).getLastD [] = chunk := unfinished_of_not_mem hchunk
  unfold Splitter.push
  dsimp only
  rw [hparts, hlast, Splitter.deliverParts, if_pos rfl]
  split <;> rfl

/-- What is kept after a call is within the limit. -/
theorem length_pending_push (s : Splitter) (chunk : JsString) :
    (s.push chunk).2.pending.length ≤ MAX_PENDING_LINE_CHARS := by
  by_cases hchunk : LF ∈ chunk
  · obtain ⟨first, rest, rfl, hfirst⟩ := eq_append_cons_of_mem hchunk
    rw [push_line s hfirst]
    dsimp only
    split
    · exact Nat.zero_le _
    · next hfits => exact Nat.le_of_not_lt hfits
  · rw [push_of_not_mem s hchunk]
    dsimp only
    split
    · exact Nat.zero_le _
    · next hfits => exact Nat.le_of_not_lt fun hlong => hfits (.inr hlong)

variable {pending : JsString} {chunks : List JsString}

/-- The lines of a chunk are those of the text it completes, if nothing is being discarded. -/
theorem push_of_pending (hpending : LF ∉ pending) (chunk : JsString) :
    (Splitter.push ⟨pending, false⟩ chunk) =
      (linesOf (pending ++ chunk),
        if MAX_PENDING_LINE_CHARS < (unfinished LF (pending ++ chunk)).length then ⟨[], true⟩
        else ⟨unfinished LF (pending ++ chunk), false⟩) := by
  by_cases hchunk : LF ∈ chunk
  · obtain ⟨first, rest, rfl, hfirst⟩ := eq_append_cons_of_mem hchunk
    have hline : LF ∉ pending ++ first := by
      rw [mem_append, not_or]
      exact ⟨hpending, hfirst⟩
    rw [push_line _ hfirst, ← append_assoc, unfinished_line hline]
    simp only [linesOf, finished_line hline]
    rfl
  · have hwhole : LF ∉ pending ++ chunk := by
      rw [mem_append, not_or]
      exact ⟨hpending, hchunk⟩
    rw [push_of_not_mem _ hchunk, linesOf_of_not_mem hwhole, unfinished_of_not_mem hwhole]
    simp only [Bool.false_eq_true, false_or]

/-! ## Chunk after chunk -/

/-- Chunks without a newline deliver nothing. -/
theorem pushAll_of_not_mem (hchunks : LF ∉ chunks.flatten)
    (s : Splitter) : s.pushAll chunks = [] := by
  induction chunks generalizing s with
  | nil => rfl
  | cons chunk chunks ih =>
    rw [flatten_cons, mem_append, not_or] at hchunks
    rw [Splitter.pushAll, ih hchunks.2, append_nil, push_of_not_mem s hchunks.1]

/-- If what is pending stays short up to the last newline, the lines are those of the whole
text. -/
theorem pushAll_of_short (hpending : LF ∉ pending)
    (hshort : ∀ front back, chunks = front ++ back → LF ∈ back.flatten →
      (unfinished LF (pending ++ front.flatten)).length ≤ MAX_PENDING_LINE_CHARS) :
    Splitter.pushAll ⟨pending, false⟩ chunks = linesOf (pending ++ chunks.flatten) := by
  induction chunks generalizing pending with
  | nil =>
    rw [flatten_nil, append_nil, linesOf_of_not_mem hpending]
    rfl
  | cons chunk chunks ih =>
    rw [Splitter.pushAll, push_of_pending hpending, flatten_cons, ← append_assoc,
      linesOf_append (pending ++ chunk)]
    congr 1
    by_cases hlast : LF ∈ chunks.flatten
    · have hfirst := hshort [chunk] chunks rfl hlast
      rw [flatten_singleton] at hfirst
      rw [if_neg (by omega)]
      refine ih (not_mem_unfinished LF _) fun front back hchunks hback => ?_
      have hlater := hshort (chunk :: front) back (by rw [hchunks, cons_append]) hback
      rw [flatten_cons, ← append_assoc, unfinished_append] at hlater
      exact hlater
    · have hrest : LF ∉ unfinished LF (pending ++ chunk) ++ chunks.flatten := by
        rw [mem_append, not_or]
        exact ⟨not_mem_unfinished LF _, hlast⟩
      rw [pushAll_of_not_mem hlast, linesOf_of_not_mem hrest]

/-- A line that is not discarded wherever the chunks are cut. -/
def short (line : JsString) : Bool := line.length ≤ MAX_PENDING_LINE_CHARS

/-- What is delivered are whole lines of the text in their order, and all that are short.  `text` is
what was received since the last newline. -/
theorem exists_kept {s : Splitter} {text : JsString} (htext : LF ∉ text)
    (hs : s.discardingUntilNewline = true ∧ short text = false ∨ s = ⟨text, false⟩) :
    ∃ kept : List JsString, s.pushAll chunks = kept.flatMap lineOf ∧
      kept.Sublist (finished LF (text ++ chunks.flatten)) ∧
      kept.filter short = (finished LF (text ++ chunks.flatten)).filter short := by
  induction chunks generalizing s text with
  | nil =>
    rw [flatten_nil, append_nil, finished_of_not_mem htext]
    exact ⟨[], rfl, .slnil, rfl⟩
  | cons chunk chunks ih =>
    rw [Splitter.pushAll, flatten_cons, ← append_assoc, finished_append (text ++ chunk)]
    by_cases hchunk : LF ∈ chunk
    · obtain ⟨first, rest, rfl, hfirst⟩ := eq_append_cons_of_mem hchunk
      have hline : LF ∉ text ++ first := by
        rw [mem_append, not_or]
        exact ⟨htext, hfirst⟩
      rw [push_line s hfirst, ← append_assoc, finished_line hline, unfinished_line hline]
      obtain ⟨kept, hkept, hsub, hshort⟩ := ih (not_mem_unfinished LF rest)
        (s := if MAX_PENDING_LINE_CHARS < (unfinished LF rest).length then ⟨[], true⟩
          else ⟨unfinished LF rest, false⟩) (by unfold short; split <;> simp [*])
      rcases hs with ⟨hdiscarding, hlong⟩ | rfl
      · refine ⟨finished LF rest ++ kept, ?_, ?_, ?_⟩
        · simp only [hdiscarding, if_true, nil_append, hkept, flatMap_append]
          rfl
        · exact ((List.Sublist.refl _).append hsub).cons _
        · have hdropped : short (text ++ first) = false := by
            simp only [short, decide_eq_false_iff_not, length_append] at hlong ⊢
            omega
          rw [cons_append, filter_cons, hdropped, filter_append, hshort, ← filter_append]
          rfl
      · refine ⟨(text ++ first) :: finished LF rest ++ kept, ?_, ?_, ?_⟩
        · simp [hkept, linesOf]
        · exact (List.Sublist.refl _).append hsub
        · rw [filter_append, hshort, ← filter_append]
    · have hwhole : LF ∉ text ++ chunk := by
        rw [mem_append, not_or]
        exact ⟨htext, hchunk⟩
      rw [push_of_not_mem s hchunk, finished_of_not_mem hwhole, unfinished_of_not_mem hwhole]
      refine ih hwhole ?_
      rcases hs with ⟨hdiscarding, hlong⟩ | rfl
      · refine .inl ⟨by simp [hdiscarding], ?_⟩
        simp only [short, decide_eq_false_iff_not, length_append] at hlong ⊢
        omega
      · unfold short
        split <;> simp_all

theorem pushAll_sublist (chunks : List JsString) :
    (Splitter.start.pushAll chunks).Sublist (linesOf chunks.flatten) := by
  obtain ⟨kept, hkept, hsub, -⟩ := exists_kept (s := .start) not_mem_nil (.inr rfl)
  rw [hkept]
  exact hsub.flatMap _

/-- However a text is cut, whole lines of it are delivered, each at most once and in order, among
them every line that is short; and what is kept between calls is within the limit. -/
theorem splitter_delivers_lines (chunks : List JsString) :
    (∃ kept : List JsString, Splitter.start.pushAll chunks = kept.flatMap lineOf ∧
      kept.Sublist (finished LF chunks.flatten) ∧
      kept.filter short = (finished LF chunks.flatten).filter short) ∧
    ∀ (s : Splitter) (chunk : JsString),
      (s.push chunk).2.pending.length ≤ MAX_PENDING_LINE_CHARS :=
  ⟨exists_kept not_mem_nil (.inr rfl), length_pending_push⟩

end SquadPanel.LogIngest
