import Mathlib.Data.List.Forall2
import SquadPanel.Bans.BansCfg

/-!
# Who wrote a line

`computeBlame` walks the versions of a file from the oldest to the newest one.  The lines that the
edit script of a version keeps stay with the version that introduced them, the added lines go to
the version itself.
-/

namespace SquadPanel.Configs.Blame

open Js List
open Bans (splitLines)

structure BlameVersion where
  id : JsString
  content : JsString
  authorPlayerId : Option JsString
  createdAt : JsString

structure BlameLine where
  text : JsString
  versionId : JsString
  authorPlayerId : Option JsString
  createdAt : JsString

def BlameVersion.line (v : BlameVersion) (text : JsString) : BlameLine :=
  ⟨text, v.id, v.authorPlayerId, v.createdAt⟩

/-- A part of an edit script. -/
inductive Part where
  | added (value : List JsString)
  | removed (value : List JsString)
  | unchanged (value : List JsString)

/-- The inner loop.  A script of `current` stays within its bounds. -/
def blameParts (v : BlameVersion) (current : List BlameLine) : Nat → List Part → List BlameLine
  | _, [] => []
  | prevCursor, .added value :: parts => value.map v.line ++ blameParts v current prevCursor parts
  | prevCursor, .removed value :: parts => blameParts v current (prevCursor + value.length) parts
  | prevCursor, .unchanged value :: parts =>
    (current.drop prevCursor).take value.length ++
      blameParts v current (prevCursor + value.length) parts

variable (now : Nat → Int) (diffArrays : Nat → List JsString → List JsString → Int →
  Option (List Part))

/-- The loop with its clock reading and its question to `diffArrays` for each later version. -/
def blameFrom (deadline : Int) : Nat → List BlameLine → List BlameVersion → Option (List BlameLine)
  | _, current, [] => some current
  | i, current, v :: versions =>
    let prev := current.map BlameLine.text
    let next := splitLines v.content
    let remainingMs := deadline - now (i + 1)
    if remainingMs ≤ 0 then none
    else (diffArrays i prev next remainingMs).bind fun parts =>
      blameFrom deadline (i + 1) (blameParts v current 0 parts) versions

def computeBlame (versions : List BlameVersion) (timeoutMs : Int) : Option (List BlameLine) :=
  match versions with
  | [] => some []
  | first :: rest =>
    blameFrom now diffArrays (now 0 + timeoutMs) 0 ((splitLines first.content).map first.line) rest

/-! ## Edit scripts -/

def oldSide : Part → List JsString
  | .added _ => []
  | .removed value | .unchanged value => value

def newSide : Part → List JsString
  | .removed _ => []
  | .added value | .unchanged value => value

structure Valid (prev next : List JsString) (parts : List Part) : Prop where
  old : parts.flatMap oldSide = prev
  new : parts.flatMap newSide = next

/-- For every line of the new text its place in the old one, unless it is added. -/
def sources : Nat → List Part → List (Option Nat)
  | _, [] => []
  | k, .added value :: parts => value.map (fun _ => none) ++ sources k parts
  | k, .removed value :: parts => sources (k + value.length) parts
  | k, .unchanged value :: parts =>
    (range' k value.length).map some ++ sources (k + value.length) parts

/-- The scripts that lead from the first version to the last one, the latest script first. -/
inductive Chain (first : BlameVersion) : List (BlameVersion × List Part) → BlameVersion → Prop
  | first : Chain first [] first
  | step {earlier tip v parts} {i : Nat} {ms : Int} (hchain : Chain first earlier tip)
      (hdiff : diffArrays i (splitLines tip.content) (splitLines v.content) ms = some parts) :
      Chain first ((v, parts) :: earlier) v

/-- Line `n` of the last version has been there, with its text, since version `w` added it. -/
inductive Traces (first : BlameVersion) (text : JsString) :
    List (BlameVersion × List Part) → Nat → BlameVersion → Prop
  | first {n : Nat} (hline : (splitLines first.content)[n]? = some text) :
      Traces first text [] n first
  | added {earlier v parts} {n : Nat} (hline : (splitLines v.content)[n]? = some text)
      (hadded : (sources 0 parts)[n]? = some none) :
      Traces first text ((v, parts) :: earlier) n v
  | kept {earlier v parts w} {n k : Nat} (hline : (splitLines v.content)[n]? = some text)
      (hkept : (sources 0 parts)[n]? = some (some k)) (htraces : Traces first text earlier k w) :
      Traces first text ((v, parts) :: earlier) n w

/-! ## One version -/

section Step
variable {v : BlameVersion} {current : List BlameLine}

/-- Where a line comes from. -/
def From (v : BlameVersion) (current : List BlameLine) (line : BlameLine) : Option Nat → Prop
  | none => line = v.line line.text
  | some k => current[k]? = some line

theorem from_range' {k n : Nat} (hn : n ≤ current.length - k) :
    Forall₂ (From v current) ((current.drop k).take n) ((range' k n).map some) := by
  induction n generalizing k with
  | zero => exact .nil
  | succ n ih =>
    have hk : k < current.length := by omega
    rw [drop_eq_getElem_cons hk, take_succ_cons, range'_succ, map_cons]
    exact .cons (getElem?_eq_getElem hk) (ih (by omega))

theorem blameParts_spec {k : Nat} {parts : List Part}
    (hold : parts.flatMap oldSide = (current.drop k).map BlameLine.text) :
    (blameParts v current k parts).map BlameLine.text = parts.flatMap newSide ∧
      Forall₂ (From v current) (blameParts v current k parts) (sources k parts) := by
  induction parts generalizing k with
  | nil => exact ⟨rfl, .nil⟩
  | cons part parts ih =>
    rw [flatMap_cons] at hold ⊢
    -- the old lines of the part, which the cursor passes over
    have hpart : ((current.drop k).take (oldSide part).length).map BlameLine.text =
        oldSide part := by
      rw [map_take, ← hold, take_left]
    have hlength := congrArg length hold
    have hrest : parts.flatMap oldSide =
        (current.drop (k + (oldSide part).length)).map BlameLine.text := by
      rw [← drop_drop, map_drop, ← hold, drop_left]
    obtain ⟨htext, hfrom⟩ := ih hrest
    cases part with
    | added value =>
      refine ⟨?_, rel_append ?_ hfrom⟩
      · rw [blameParts, map_append, map_map]
        exact congrArg₂ _ (map_id value) htext
      · rw [forall₂_map_left_iff, forall₂_map_right_iff, forall₂_same]
        exact fun _ _ => rfl
    | removed value => exact ⟨htext, hfrom⟩
    | unchanged value =>
      simp only [oldSide, length_append, length_map, length_drop] at hlength
      refine ⟨?_, rel_append (from_range' (by omega)) hfrom⟩
      rw [blameParts, map_append]
      exact congrArg₂ _ hpart htext

end Step

/-! ## The whole chain -/

variable {diffArrays} {first : BlameVersion}

/-- What the walk has found out when it has come to `tip`. -/
structure Blamed (first tip : BlameVersion) (earlier : List (BlameVersion × List Part))
    (current : List BlameLine) : Prop where
  text : current.map BlameLine.text = splitLines tip.content
  traces : ∀ n line, current[n]? = some line →
    ∃ w : BlameVersion, line = w.line line.text ∧ Traces first line.text earlier n w

theorem Blamed.step {tip v : BlameVersion} {earlier current parts}
    (hblamed : Blamed first tip earlier current)
    (hvalid : Valid (splitLines tip.content) (splitLines v.content) parts) :
    Blamed first v ((v, parts) :: earlier) (blameParts v current 0 parts) := by
  have hold : parts.flatMap oldSide = (current.drop 0).map BlameLine.text :=
    hvalid.old.trans hblamed.text.symm
  obtain ⟨htext, hfrom⟩ := @blameParts_spec v current 0 parts hold
  rw [hvalid.new] at htext
  refine ⟨htext, fun n line hline => ?_⟩
  have htip : (splitLines v.content)[n]? = some line.text := by
    rw [← htext, getElem?_map, hline]
    rfl
  obtain ⟨hlength, hget⟩ := forall₂_iff_get.1 hfrom
  obtain ⟨hn, rfl⟩ := List.getElem?_eq_some_iff.1 hline
  rw [hlength] at hn
  have hsource := hget n (hlength ▸ hn) hn
  have hplace : (sources 0 parts)[n]? = some ((sources 0 parts).get ⟨n, hn⟩) :=
    getElem?_eq_getElem hn
  cases hk : (sources 0 parts).get ⟨n, hn⟩ with
  | none =>
    rw [hk] at hsource hplace
    exact ⟨v, hsource, .added htip hplace⟩
  | some k =>
    rw [hk] at hsource hplace
    obtain ⟨w, hw, htraces⟩ := hblamed.traces k _ hsource
    exact ⟨w, hw, .kept htip hplace htraces⟩

variable {now} {deadline : Int}

section
variable (hnow : ∀ i, now (i + 1) < deadline) (hdiff : ∀ i prev next ms,
  ∃ parts, diffArrays i prev next ms = some parts ∧ Valid prev next parts)
include hnow hdiff

theorem blameFrom_spec {tip : BlameVersion} {earlier : List (BlameVersion × List Part)}
    {current : List BlameLine} (i : Nat) (versions : List BlameVersion)
    (hchain : Chain diffArrays first earlier tip) (hblamed : Blamed first tip earlier current) :
    ∃ lines history last, blameFrom now diffArrays deadline i current versions = some lines ∧
      history.map Prod.fst = versions.reverse ++ earlier.map Prod.fst ∧
      Chain diffArrays first history last ∧ Blamed first last history lines := by
  induction versions generalizing i tip earlier current with
  | nil => exact ⟨current, earlier, tip, rfl, rfl, hchain, hblamed⟩
  | cons v versions ih =>
    obtain ⟨parts, hparts, hvalid⟩ := hdiff i (current.map BlameLine.text) (splitLines v.content)
      (deadline - now (i + 1))
    have hstep := hparts
    rw [hblamed.text] at hvalid hstep
    obtain ⟨lines, history, last, hlines, hversions, hresult⟩ :=
      ih (i + 1) (.step hchain hstep) (hblamed.step hvalid)
    refine ⟨lines, history, last, ?_, by simpa using hversions, hresult⟩
    have hleft := hnow i
    rw [blameFrom]
    simp only [hparts, if_neg (show ¬ deadline - now (i + 1) ≤ 0 by omega), Option.bind_some,
      hlines]

end

end SquadPanel.Configs.Blame
