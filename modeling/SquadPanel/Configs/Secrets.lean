import Mathlib.Data.List.TakeWhile
import SquadPanel.Js.Lines
import SquadPanel.Js.Number
import SquadPanel.Lib.Scan

/-!
# Secrets of config files

`apps/api/src/lib/config-secrets.ts`: the RCON password and the license key leave the panel
masked, and a masked `Rcon.cfg` gets its password back before it is written.  The panel
reads the password itself with `readRconPassword` of `sidecar-config.ts`.
-/

namespace SquadPanel.Configs

open Js Lib List

/-! ## Lines of a key -/

/-- The form `^gap*key gap*=gap*(value)$` of both expressions.  No gap is a letter of the
key or the equals sign, so the longest runs of gaps are the only ones that match; the value
runs up to the first unit that ends it, where `$` holds. -/
structure KeyPattern where
  key : JsString
  /-- Units that fold alike are the same for the expression. -/
  fold : UInt16 → UInt16
  isGap : UInt16 → Bool
  endsValue : UInt16 → Bool
  key_ne_nil : key ≠ []
  gap_not_key : ∀ u, isGap u = true → fold u ∉ key.map fold
  gap_not_equals : isGap 0x3D = false

/-- A match: `match[1]` of the masker's expression and the value. -/
structure KeyLine where
  lead : JsString
  value : JsString
  deriving DecidableEq

def KeyLine.text (line : KeyLine) : JsString := line.lead ++ line.value

def KeyLine.withValue (line : KeyLine) (value : JsString) : KeyLine := { line with value }

def afterEquals : JsString → Option JsString
  | [] => none
  | u :: text => if u = 0x3D then some text else none

namespace KeyPattern

variable (pat : KeyPattern)

def afterKey (text : JsString) : Option JsString :=
  if (text.take pat.key.length).map pat.fold = pat.key.map pat.fold then
    some (text.drop pat.key.length)
  else none

/-- What follows the lead, if the text begins with one. -/
def afterLead (text : JsString) : Option JsString :=
  (pat.afterKey (text.dropWhile pat.isGap)).bind fun text =>
    (afterEquals (text.dropWhile pat.isGap)).map fun text => text.dropWhile pat.isGap

def matchAt (prev : Option UInt16) (text : JsString) : Option KeyLine :=
  if atLineStart prev then
    (pat.afterLead text).map fun rest =>
      { lead := text.take (text.length - rest.length)
        value := rest.takeWhile fun u => !pat.endsValue u }
  else none

/-- A text of the form `gap*key gap*=gap*`. -/
def IsLead (lead : JsString) : Prop :=
  ∃ before key after blanks, lead = before ++ (key ++ (after ++ 0x3D :: blanks)) ∧
    (∀ u ∈ before, pat.isGap u = true) ∧ key.map pat.fold = pat.key.map pat.fold ∧
      (∀ u ∈ after, pat.isGap u = true) ∧ ∀ u ∈ blanks, pat.isGap u = true

/-- Where a match ends in a text that goes on with `rest`. -/
structure Cut (line : KeyLine) (rest : JsString) : Prop where
  lead : pat.IsLead line.lead
  start : ∀ u ∈ (line.value ++ rest).head?, pat.isGap u = false
  value : ∀ u ∈ line.value, pat.endsValue u = false
  stop : ∀ u ∈ rest.head?, pat.endsValue u = true

variable {pat}

theorem dropWhile_gaps {gaps text : JsString} (hgaps : ∀ u ∈ gaps, pat.isGap u = true)
    (htext : ∀ u ∈ text.head?, pat.isGap u = false) :
    (gaps ++ text).dropWhile pat.isGap = text := by
  rw [dropWhile_append_of_pos hgaps]
  cases text with
  | nil => rfl
  | cons u text => exact dropWhile_cons_of_neg (by simp [htext u rfl])

theorem exists_gaps (pat : KeyPattern) (text : JsString) :
    ∃ gaps, text = gaps ++ text.dropWhile pat.isGap ∧ (∀ u ∈ gaps, pat.isGap u = true) ∧
      ∀ u ∈ (text.dropWhile pat.isGap).head?, pat.isGap u = false := by
  refine ⟨text.takeWhile pat.isGap, takeWhile_append_dropWhile.symm,
    fun u hu => mem_takeWhile_imp hu, fun u hu => ?_⟩
  have hnot := head?_dropWhile_not pat.isGap text
  rw [Option.mem_def.1 hu] at hnot
  exact hnot

theorem key_head {key : JsString} (hkey : key.map pat.fold = pat.key.map pat.fold)
    (text : JsString) : ∀ u ∈ (key ++ text).head?, pat.isGap u = false := by
  intro u hu
  cases hgap : pat.isGap u with
  | false => rfl
  | true =>
    cases key with
    | nil => exact absurd (map_eq_nil_iff.1 hkey.symm) pat.key_ne_nil
    | cons v key =>
      cases hu
      refine absurd ?_ (pat.gap_not_key u hgap)
      rw [← hkey]
      exact mem_cons_self

theorem afterLead_append {lead : JsString} (hlead : pat.IsLead lead) (text : JsString) :
    pat.afterLead (lead ++ text) = some (text.dropWhile pat.isGap) := by
  obtain ⟨before, key, after, blanks, rfl, hbefore, hkey, hafter, hblanks⟩ := hlead
  have hlen : key.length = pat.key.length := by simpa using congrArg List.length hkey
  have hequals : ∀ u ∈ (0x3D :: (blanks ++ text)).head?, pat.isGap u = false := by
    intro u hu
    cases hu
    exact pat.gap_not_equals
  unfold afterLead
  simp only [append_assoc, cons_append]
  rw [dropWhile_gaps hbefore (key_head hkey _), afterKey, ← hlen, take_left, drop_left,
    if_pos hkey, Option.bind_some, dropWhile_gaps hafter hequals, afterEquals, if_pos rfl,
    Option.map_some, dropWhile_append_of_pos hblanks]

theorem exists_lead {text rest : JsString} (hrest : pat.afterLead text = some rest) :
    ∃ lead, text = lead ++ rest ∧ pat.IsLead lead ∧ ∀ u ∈ rest.head?, pat.isGap u = false := by
  obtain ⟨before, htext, hbefore, -⟩ := exists_gaps pat text
  obtain ⟨keyed, hkeyed, hrest⟩ := Option.bind_eq_some_iff.1 hrest
  obtain ⟨valued, hvalued, hrest⟩ := Option.map_eq_some_iff.1 hrest
  obtain ⟨after, hafterEq, hafter, -⟩ := exists_gaps pat keyed
  obtain ⟨blanks, hblanksEq, hblanks, hhead⟩ := exists_gaps pat valued
  subst hrest
  unfold afterKey at hkeyed
  split at hkeyed
  · next hkey =>
    have hsplit := take_append_drop pat.key.length (text.dropWhile pat.isGap)
    rw [Option.some.inj hkeyed] at hsplit
    cases hequals : keyed.dropWhile pat.isGap with
    | nil =>
      rw [hequals] at hvalued
      cases hvalued
    | cons u tail =>
      rw [hequals, afterEquals] at hvalued
      split at hvalued
      · next hu =>
        cases hvalued
        rw [hu] at hequals
        refine ⟨before ++ (_ ++ (after ++ 0x3D :: blanks)), ?_,
          ⟨before, _, after, blanks, rfl, hbefore, hkey, hafter, hblanks⟩, hhead⟩
        conv_lhs => rw [htext, ← hsplit, hafterEq, hequals, hblanksEq]
        simp
      · cases hvalued
  · cases hkeyed

theorem matchAt_eq_some {prev : Option UInt16} {text : JsString} {line : KeyLine} :
    pat.matchAt prev text = some line ↔
      atLineStart prev = true ∧
        ∃ rest, text = line.lead ++ (line.value ++ rest) ∧ pat.Cut line rest := by
  unfold matchAt
  constructor
  · intro hmatch
    split at hmatch
    · next hstart =>
      refine ⟨hstart, ?_⟩
      obtain ⟨rest, hrest, rfl⟩ := Option.map_eq_some_iff.1 hmatch
      obtain ⟨lead, rfl, hlead, hhead⟩ := exists_lead hrest
      have htake : (lead ++ rest).take ((lead ++ rest).length - rest.length) = lead := by simp
      simp only [htake]
      refine ⟨rest.dropWhile fun u => !pat.endsValue u, by simp, hlead, ?_, ?_, ?_⟩
      · rwa [takeWhile_append_dropWhile]
      · intro u hu
        simpa using mem_takeWhile_imp hu
      · intro u hu
        have hnot := head?_dropWhile_not (fun u => !pat.endsValue u) rest
        rw [Option.mem_def.1 hu] at hnot
        simpa using hnot
    · cases hmatch
  · rintro ⟨hstart, rest, rfl, hcut⟩
    have hgaps : (line.value ++ rest).dropWhile pat.isGap = line.value ++ rest :=
      dropWhile_gaps (forall_mem_nil _) hcut.start
    have hvalue : (line.value ++ rest).takeWhile (fun u => !pat.endsValue u) = line.value := by
      rw [takeWhile_append_of_pos fun u hu => by simp [hcut.value u hu]]
      cases rest with
      | nil => simp
      | cons u rest => simp [hcut.stop u rfl]
    rw [if_pos hstart, afterLead_append hcut.lead, hgaps, Option.map_some, hvalue]
    simp

theorem IsLead.ne_nil {lead : JsString} (hlead : pat.IsLead lead) : lead ≠ [] := by
  obtain ⟨before, key, after, blanks, rfl, -⟩ := hlead
  simp

/-- The expression with the `g` flag. -/
def scanner (pat : KeyPattern) : Scanner UInt16 KeyLine where
  matchAt := pat.matchAt
  text := KeyLine.text
  sound := by
    intro prev text line hmatch
    obtain ⟨-, rest, rfl, hcut⟩ := matchAt_eq_some.1 hmatch
    rw [← append_assoc]
    exact ⟨prefix_append _ _, by simp [KeyLine.text, hcut.lead.ne_nil]⟩

end KeyPattern

/-- The `i` flag: only the ASCII letters of a key have another case. -/
def foldCase (u : UInt16) : UInt16 := if 0x41 ≤ u && u ≤ 0x5A then u + 0x20 else u

/-- `[ \t]` -/
def isBlank (u : UInt16) : Bool := u == 0x20 || u == 0x09

/-! ## Masking -/

/-- Keys whose lines the panel looks for. -/
inductive ConfigKey
  | password
  | licenseKey
  | port
  deriving DecidableEq

def ConfigKey.text : ConfigKey → JsString
  | .password => js "Password"
  | .licenseKey => js "LicenseKey"
  | .port => js "Port"

/-- `^([ \t]*key[ \t]*=[ \t]*)([^\r\n]*)$` with the flags `gim`. -/
def secretLineRe (key : ConfigKey) : KeyPattern where
  key := key.text
  fold := foldCase
  isGap := isBlank
  endsValue := isLineBreak
  key_ne_nil := by cases key <;> decide
  gap_not_key := by
    intro u hu
    simp only [isBlank, Bool.or_eq_true, beq_iff_eq] at hu
    rcases hu with rfl | rfl <;> cases key <;> decide
  gap_not_equals := rfl

def SECRET_KEY_BY_FILE : List (JsString × ConfigKey) :=
  [(js "Rcon.cfg", .password), (js "License.cfg", .licenseKey)]

def CONFIG_SECRET_MASK : JsString := js "********"

/-- A line with its value masked; an empty value has nothing to hide. -/
def maskLine (line : KeyLine) : KeyLine :=
  if trim line.value = [] then line else line.withValue CONFIG_SECRET_MASK

def maskConfigSecrets (filename content : JsString) : JsString :=
  match SECRET_KEY_BY_FILE.lookup filename with
  | none => content
  | some key => (secretLineRe key).scanner.replaceAll (fun line => (maskLine line).text) content

/-! ## The password of `Rcon.cfg` -/

/-- `^\s*Password\s*=\s*(.*)$` with the flag `m`. -/
def PASSWORD_RE : KeyPattern where
  key := js "Password"
  fold := id
  isGap := isWhitespace
  endsValue := isLineTerminator
  key_ne_nil := by decide
  gap_not_key := by
    have hletters : (js "Password").all (fun u => !isWhitespace u) = true := by decide
    intro u hu hmem
    rw [map_id, id] at hmem
    have hout := all_eq_true.1 hletters u hmem
    rw [hu] at hout
    cases hout
  gap_not_equals := rfl

/-- The password in a file's content; without a match the caller throws. -/
def readRconPassword (content : JsString) : Option JsString :=
  (firstMatch PASSWORD_RE.matchAt none content).map fun line => trim line.value

def hasMaskedRconPassword (content : JsString) : Bool :=
  ((secretLineRe .password).scanner.hits content).any fun line =>
    trim line.value = CONFIG_SECRET_MASK

/-- The password on disk; `onDisk` is the file's content if it could be read. -/
def diskRconPassword (onDisk : Option JsString) : Option JsString :=
  match onDisk.bind readRconPassword with
  | none => none
  | some password => if password = CONFIG_SECRET_MASK then none else some password

inductive UnmaskError
  | rconPasswordUnavailable
  deriving DecidableEq

variable (panelPassword onDisk : Option JsString)

/-- The password that replaces the mask: the panel's own, or the one on disk. -/
def storedPassword : Option JsString :=
  panelPassword.or (diskRconPassword onDisk)

/-- A masked line with the password in its place. -/
def unmaskLine (password : JsString) (line : KeyLine) : KeyLine :=
  if trim line.value = CONFIG_SECRET_MASK then line.withValue password else line

def unmaskRconPassword (content : JsString) :
    Except UnmaskError JsString :=
  if ¬ hasMaskedRconPassword content then .ok content
  else match storedPassword panelPassword onDisk with
    | none => .error .rconPasswordUnavailable
    | some password =>
      .ok ((secretLineRe .password).scanner.replaceAll
        (fun line => (unmaskLine password line).text) content)

end SquadPanel.Configs
