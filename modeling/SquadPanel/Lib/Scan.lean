import Mathlib.Data.List.Basic

/-!
# Scanning a text with a matcher

A matcher tries a pattern at one place of a text, given the letter before it, as a regular
expression with `^` does.  `firstMatch` is the first place where it matches; `pieces` cuts a
text into the matches found from left to right and the letters between them.  A list of
pieces is the cut of its text exactly if it is `Scanned`: the matcher finds each match where
it stands and nothing at a letter.
-/

namespace SquadPanel.Lib

open List

variable {α β : Type*}

/-- The letter before a place that follows `s`. -/
def lastOf : Option α → List α → Option α
  | prev, [] => prev
  | _, x :: s => lastOf (some x) s

variable (prev : Option α)

@[simp] theorem lastOf_nil : lastOf prev [] = prev := rfl

@[simp] theorem lastOf_cons (x : α) (s : List α) : lastOf prev (x :: s) = lastOf (some x) s := rfl

theorem lastOf_append (s t : List α) : lastOf prev (s ++ t) = lastOf (lastOf prev s) t := by
  induction s generalizing prev with
  | nil => rfl
  | cons x s ih => rw [cons_append, lastOf_cons, lastOf_cons, ih]

/-- The first match, trying every place from left to right. -/
def firstMatch (matchAt : Option α → List α → Option β) : Option α → List α → Option β
  | prev, [] => matchAt prev []
  | prev, x :: rest =>
    match matchAt prev (x :: rest) with
    | some m => some m
    | none => firstMatch matchAt (some x) rest

/-- A matcher whose matches are nonempty and stand where they are found. -/
structure Scanner (α β : Type*) where
  matchAt : Option α → List α → Option β
  text : β → List α
  sound : ∀ {prev s m}, matchAt prev s = some m → text m <+: s ∧ text m ≠ []

/-- A letter between matches, or a match. -/
inductive Piece (α β : Type*)
  | letter (x : α)
  | hit (m : β)

namespace Scanner

variable (sc : Scanner α β)

/-- The pieces of a text whose first `skip` letters belong to an earlier match. -/
def piecesFrom : Nat → Option α → List α → List (Piece α β)
  | _, _, [] => []
  | skip + 1, _, x :: rest => piecesFrom skip (some x) rest
  | 0, prev, x :: rest =>
    match sc.matchAt prev (x :: rest) with
    | some m => .hit m :: piecesFrom ((sc.text m).length - 1) (some x) rest
    | none => .letter x :: piecesFrom 0 (some x) rest

def pieces (s : List α) : List (Piece α β) := sc.piecesFrom 0 none s

/-- The matches of a text, from left to right. -/
def hits (s : List α) : List β :=
  (sc.pieces s).filterMap fun
    | .letter _ => none
    | .hit m => some m

/-- The text of the pieces with `f m` in the place of a match `m`. -/
def render (f : β → List α) (ps : List (Piece α β)) : List α :=
  ps.flatMap fun
    | .letter x => [x]
    | .hit m => f m

def replaceAll (f : β → List α) (s : List α) : List α := render f (sc.pieces s)

end Scanner

namespace Scanner

variable (f : β → List α)

@[simp] theorem render_nil : render f [] = [] := rfl

@[simp] theorem render_letter (x : α) (ps : List (Piece α β)) :
    render f (.letter x :: ps) = x :: render f ps := rfl

@[simp] theorem render_hit (m : β) (ps : List (Piece α β)) :
    render f (.hit m :: ps) = f m ++ render f ps := rfl

variable (sc : Scanner α β)

/-- The matcher finds each match where it stands, and nothing at a letter. -/
def Scanned : Option α → List (Piece α β) → Prop
  | _, [] => True
  | prev, .letter x :: ps =>
    sc.matchAt prev (x :: render sc.text ps) = none ∧ Scanned (some x) ps
  | prev, .hit m :: ps =>
    sc.matchAt prev (sc.text m ++ render sc.text ps) = some m ∧
      Scanned (lastOf prev (sc.text m)) ps

variable {sc} {s : List α} {prev : Option α} {ps : List (Piece α β)}

theorem exists_text_eq_cons {m : β} (hmatch : sc.matchAt prev s = some m) :
    ∃ x t rest, sc.text m = x :: t ∧ s = x :: t ++ rest := by
  obtain ⟨⟨rest, rfl⟩, hne⟩ := sc.sound hmatch
  cases htext : sc.text m with
  | nil => exact absurd htext hne
  | cons x t => exact ⟨x, t, rest, rfl, rfl⟩

theorem piecesFrom_skip (sc : Scanner α β) (prev : Option α) (s t : List α) :
    sc.piecesFrom s.length prev (s ++ t) = sc.piecesFrom 0 (lastOf prev s) t := by
  induction s generalizing prev with
  | nil => rfl
  | cons x s ih => rw [length_cons, cons_append, piecesFrom, ih, lastOf_cons]

/-- The pieces are a cut of the text. -/
theorem piecesFrom_spec (sc : Scanner α β) (s : List α) (skip : Nat) (hskip : skip ≤ s.length)
    (prev : Option α) : render sc.text (sc.piecesFrom skip prev s) = s.drop skip ∧
      sc.Scanned (lastOf prev (s.take skip)) (sc.piecesFrom skip prev s) := by
  induction s generalizing skip prev with
  | nil => simp [piecesFrom, Scanned]
  | cons x rest ih =>
    cases skip with
    | succ skip =>
      exact ih skip (Nat.le_of_succ_le_succ hskip) (some x)
    | zero =>
      rw [piecesFrom]
      cases hmatch : sc.matchAt prev (x :: rest) with
      | none =>
        obtain ⟨htext, hscanned⟩ := ih 0 (Nat.zero_le _) (some x)
        exact ⟨by simp [htext], by rw [htext]; exact hmatch, hscanned⟩
      | some m =>
        obtain ⟨x', t, tail, htext, hcons⟩ := exists_text_eq_cons hmatch
        rw [cons_append, List.cons.injEq] at hcons
        obtain ⟨rfl, rfl⟩ := hcons
        have hlen : (sc.text m).length - 1 = t.length := by simp [htext]
        obtain ⟨hrest, hscanned⟩ := ih t.length (by simp) (some x)
        rw [drop_left] at hrest
        rw [take_left] at hscanned
        simp only [hlen]
        refine ⟨by simp [htext, hrest], ?_, ?_⟩
        · rw [hrest, htext]
          exact hmatch
        · rw [htext, lastOf_cons]
          exact hscanned

theorem render_congr {f g : β → List α}
    (heq : ∀ m, .hit m ∈ ps → f m = g m) : render f ps = render g ps := by
  refine flatMap_congr fun p hp => ?_
  cases p with
  | letter x => rfl
  | hit m => exact heq m hp

theorem mem_hits {m : β} : m ∈ sc.hits s ↔ .hit m ∈ sc.pieces s := by
  rw [hits, mem_filterMap]
  constructor
  · rintro ⟨p, hp, hm⟩
    cases p with
    | letter x => cases hm
    | hit m' =>
      cases hm
      exact hp
  · exact fun hm => ⟨_, hm, rfl⟩

theorem render_pieces (sc : Scanner α β) (s : List α) : render sc.text (sc.pieces s) = s :=
  (piecesFrom_spec sc s 0 (Nat.zero_le _) none).1

theorem replaceAll_congr {f g : β → List α}
    (heq : ∀ m ∈ sc.hits s, f m = g m) : sc.replaceAll f s = sc.replaceAll g s :=
  render_congr fun m hm => heq m (mem_hits.2 hm)

theorem replaceAll_eq_self {f : β → List α}
    (heq : ∀ m ∈ sc.hits s, f m = sc.text m) : sc.replaceAll f s = s :=
  (replaceAll_congr heq).trans (render_pieces sc s)

theorem scanned_pieces (sc : Scanner α β) (s : List α) : sc.Scanned none (sc.pieces s) :=
  (piecesFrom_spec sc s 0 (Nat.zero_le _) none).2

/-- Only one cut is scanned. -/
theorem piecesFrom_render (hscanned : sc.Scanned prev ps) :
    sc.piecesFrom 0 prev (render sc.text ps) = ps := by
  induction ps generalizing prev with
  | nil => rfl
  | cons p ps ih =>
    cases p with
    | letter x =>
      obtain ⟨hnone, hrest⟩ := hscanned
      rw [render_letter, piecesFrom, hnone]
      simp only [ih hrest]
    | hit m =>
      obtain ⟨hmatch, hrest⟩ := hscanned
      obtain ⟨x, t, -, htext, -⟩ := exists_text_eq_cons hmatch
      rw [htext, lastOf_cons] at hrest
      rw [htext, cons_append] at hmatch
      rw [render_hit, htext, cons_append, piecesFrom, hmatch]
      simp only [htext, length_cons, Nat.add_sub_cancel]
      rw [piecesFrom_skip, ih hrest]

theorem pieces_render (hscanned : sc.Scanned none ps) :
    sc.pieces (render sc.text ps) = ps := piecesFrom_render hscanned

end Scanner

end SquadPanel.Lib
