import Mathlib.Data.List.Infix
import Mathlib.Data.List.Nodup

/-!
# Correlation queues

Items wait in a queue for a later event of the same subject.  The queue is bounded and drops its
oldest items; an event takes the oldest item that is within a window of time and discards those
in front of it.  `Tracks` holds the queue against everything that ever arrived: whoever is not
done, within the window and not pushed out is still there, in the order of arrival.
-/

namespace SquadPanel.Lib.Correlate

open List

variable {α β : Type} (ts : α → Int) (window : Int) (cap : Nat)

/-- The item is within the window at `now`. -/
def Fresh (now : Int) (x : α) : Prop := 0 ≤ now - ts x ∧ now - ts x < window

instance (now : Int) (x : α) : Decidable (Fresh ts window now x) :=
  inferInstanceAs (Decidable (_ ∧ _))

/-- Drop the oldest items past the bound. -/
def trim : List α → List α
  | [] => []
  | x :: queue => if cap < (x :: queue).length then trim queue else x :: queue

def push (queue : List α) (x : α) : List α := trim cap (queue ++ [x])

/-- The oldest item within the window, and what is behind it. -/
def consume (now : Int) : List α → Option α × List α
  | [] => (none, [])
  | x :: queue => if Fresh ts window now x then (some x, queue) else consume now queue

variable {ts window cap} {x : α}

theorem trim_isSuffix (queue : List α) : trim cap queue <:+ queue := by
  induction queue with
  | nil => exact suffix_refl _
  | cons x queue ih =>
    unfold trim
    split
    · exact ih.trans (suffix_cons x queue)
    · exact suffix_refl _

theorem mem_trim {front back : List α} (hback : back.length < cap) :
    x ∈ trim cap (front ++ x :: back) := by
  induction front with
  | nil =>
    have hlength : ¬ cap < (x :: back).length := by
      rw [length_cons]
      omega
    rw [nil_append, trim, if_neg hlength]
    exact mem_cons_self
  | cons y front ih =>
    rw [cons_append, trim]
    split
    · exact ih
    · exact mem_cons_of_mem y (mem_append_right front mem_cons_self)

theorem trim_map (f : β → α) (queue : List β) :
    trim cap (queue.map f) = (trim cap queue).map f := by
  induction queue with
  | nil => rfl
  | cons x queue ih =>
    simp only [map_cons, trim, length_cons, length_map]
    split
    · exact ih
    · rfl

theorem push_map (f : β → α) (queue : List β) (x : β) :
    push cap (queue.map f) (f x) = (push cap queue x).map f := by
  unfold push
  rw [← trim_map, map_append, map_singleton]

theorem consume_map (f : β → α) (now : Int) (queue : List β) : consume ts window now (queue.map f) =
      ((consume (ts ∘ f) window now queue).1.map f,
        (consume (ts ∘ f) window now queue).2.map f) := by
  induction queue with
  | nil => rfl
  | cons x queue ih =>
    have hfresh : Fresh ts window now (f x) ↔ Fresh (ts ∘ f) window now x := Iff.rfl
    simp only [map_cons, consume]
    by_cases hx : Fresh (ts ∘ f) window now x
    · rw [if_pos hx, if_pos (hfresh.mpr hx)]
      rfl
    · rw [if_neg hx, if_neg (hfresh.not.mpr hx)]
      exact ih

theorem consume_append {now : Int} {front back : List α}
    (hfront : ∀ y ∈ front, ¬ Fresh ts window now y) (hx : Fresh ts window now x) :
    consume ts window now (front ++ x :: back) = (some x, back) := by
  induction front with
  | nil => rw [nil_append, consume, if_pos hx]
  | cons y front ih =>
    rw [cons_append, consume, if_neg (hfront y mem_cons_self)]
    exact ih fun z hz => hfront z (mem_cons_of_mem y hz)

/-- The items around one of them in a sublist. -/
theorem sublist_around {queue front back : List α}
    (hsub : queue.Sublist (front ++ x :: back)) (hnodup : (front ++ x :: back).Nodup)
    (hx : x ∈ queue) :
    ∃ ahead behind, queue = ahead ++ x :: behind ∧ ahead.Sublist front ∧ behind.Sublist back := by
  obtain ⟨ahead, rest, rfl, hahead, hrest⟩ := sublist_append_iff.mp hsub
  obtain ⟨-, hcons, hdisjoint⟩ := nodup_append.mp hnodup
  have hfront : x ∉ front := fun hmem => hdisjoint x hmem x mem_cons_self rfl
  have hmem : x ∈ rest := by
    rcases mem_append.mp hx with h | h
    · exact absurd (hahead.subset h) hfront
    · exact h
  cases hrest with
  | cons _ hsub => exact absurd (hsub.subset hmem) (nodup_cons.mp hcons).1
  | cons_cons _ hsub => exact ⟨ahead, _, rfl, hahead, hsub⟩

variable (ts window cap)

structure Tracks (arrivals queue : List α) (done : α → Prop) (now : Int) : Prop where
  past : ∀ x ∈ arrivals, ts x ≤ now
  sublist : queue.Sublist arrivals
  waiting : ∀ x ∈ queue, ¬ done x
  complete : ∀ front x back, arrivals = front ++ x :: back → ¬ done x → back.length < cap →
    Fresh ts window now x → x ∈ queue

variable {ts window cap}

namespace Tracks

variable {arrivals queue : List α} {done : α → Prop} {now later : Int}

theorem nil (done : α → Prop) (now : Int) : Tracks ts window cap [] [] done now where
  past _ hx := absurd hx not_mem_nil
  sublist := List.Sublist.refl _
  waiting _ hx := absurd hx not_mem_nil
  complete front x back harr := absurd harr.symm (by simp)

section
variable (htracks : Tracks ts window cap arrivals queue done now)
include htracks

theorem mono (hle : now ≤ later) : Tracks ts window cap arrivals queue done later where
  past x hx := Int.le_trans (htracks.past x hx) hle
  __ := htracks
  complete front x back harr hdone hback hfresh := by
    have hmem : x ∈ arrivals := by
      rw [harr]
      exact mem_append_right front mem_cons_self
    have hpast := htracks.past x hmem
    refine htracks.complete front x back harr hdone hback ?_
    unfold Fresh at hfresh ⊢
    omega

theorem congr {done' : α → Prop}
    (hdone : ∀ x ∈ arrivals, done' x ↔ done x) : Tracks ts window cap arrivals queue done' now where
  __ := htracks
  waiting x hx := by
    rw [hdone x (htracks.sublist.subset hx)]
    exact htracks.waiting x hx
  complete front x back harr hnot := by
    have hmem : x ∈ arrivals := by
      rw [harr]
      exact mem_append_right front mem_cons_self
    rw [hdone x hmem] at hnot
    exact htracks.complete front x back harr hnot

theorem push (hnodup : arrivals.Nodup) (hnow : now ≤ ts x) (hx : ¬ done x) :
    Tracks ts window cap (arrivals ++ [x]) (push cap queue x) done (ts x) where
  past y hy := by
    rcases mem_append.mp hy with hy | hy
    · exact Int.le_trans (htracks.past y hy) hnow
    · exact Int.le_of_eq (congrArg ts (mem_singleton.mp hy))
  sublist := (trim_isSuffix _).sublist.trans (htracks.sublist.append (List.Sublist.refl _))
  waiting y hy := by
    rcases mem_append.mp ((trim_isSuffix _).subset hy) with hy | hy
    · exact htracks.waiting y hy
    · rw [mem_singleton.mp hy]
      exact hx
  complete front y back harr hnot hback hfresh := by
    -- the new item, or one that was there and has at most one more behind it
    rcases eq_nil_or_concat back with rfl | ⟨back, z, rfl⟩
    · obtain ⟨-, hy⟩ := append_inj' harr rfl
      cases hy
      exact mem_trim hback
    · rw [concat_eq_append, ← cons_append, ← append_assoc] at harr
      obtain ⟨rfl, hz⟩ := append_inj' harr rfl
      cases hz
      rw [concat_eq_append, length_append, length_singleton] at hback
      have hmem := (htracks.mono hnow).complete front y back rfl hnot (by omega) hfresh
      obtain ⟨ahead, behind, rfl, -, hbehind⟩ := sublist_around htracks.sublist hnodup hmem
      unfold Correlate.push
      rw [append_assoc, cons_append]
      apply mem_trim
      rw [length_append, length_singleton]
      have hlength := hbehind.length_le
      omega

end

/-- An event finds its own item when those that arrived earlier are done or out of the window,
and not too many have arrived since. -/
theorem consume {front back : List α}
    (htracks : Tracks ts window cap (front ++ x :: back) queue done now)
    (hnodup : (front ++ x :: back).Nodup) (hle : now ≤ later) (hx : ¬ done x)
    (hfresh : Fresh ts window later x) (hback : back.length < cap)
    (hfront : ∀ y ∈ front, done y ∨ ¬ Fresh ts window later y) :
    ∃ rest, consume ts window later queue = (some x, rest) ∧
      Tracks ts window cap (front ++ x :: back) rest (fun y => done y ∨ y = x) later := by
  have hlater := htracks.mono hle
  have hmem := hlater.complete front x back rfl hx hback hfresh
  obtain ⟨ahead, behind, rfl, hahead, hbehind⟩ := sublist_around htracks.sublist hnodup hmem
  have hstale (y : α) (hy : y ∈ ahead) : ¬ Fresh ts window later y := by
    have hwaiting := htracks.waiting y (mem_append_left _ hy)
    exact (hfront y (hahead.subset hy)).resolve_left hwaiting
  have hqueue : (ahead ++ x :: behind).Nodup := hnodup.sublist htracks.sublist
  refine ⟨behind, consume_append hstale hfresh, hlater.past, ?_, ?_, ?_⟩
  · exact (List.Sublist.trans (sublist_cons_self x behind)
      (sublist_append_right ahead _)).trans htracks.sublist
  · rintro y hy (hdone | rfl)
    · exact htracks.waiting y
        (mem_append_right ahead (mem_cons_of_mem x hy)) hdone
    · exact (nodup_cons.mp (nodup_append.mp hqueue).2.1).1 hy
  · intro front' y back' harr hnot hback' hy
    rw [not_or] at hnot
    have hmem' := hlater.complete front' y back' harr hnot.1 hback' hy
    rcases mem_append.mp hmem' with h | h
    · exact absurd hy (hstale y h)
    · exact (mem_cons.mp h).resolve_left hnot.2

end Tracks

end SquadPanel.Lib.Correlate
