import SquadPanel.Configs.Secrets
import SquadPanel.Js.Trim

/-!
# Editing a masked file

Substituting the values of a file's secret lines leaves the lines where they are: the
masker's expression finds the same leads again.  So a masked `Rcon.cfg` gets its password
back unchanged, and unmasking touches nothing but masked lines.
-/

namespace SquadPanel.Configs

open Js Lib Scanner List KeyPattern

variable {key : ConfigKey} {u : UInt16} {line : KeyLine} {rest : JsString} {prev : Option UInt16}
  {ps : List (Piece UInt16 KeyLine)} {password : JsString}

/-! ## Leads and line ends -/

theorem isLineTerminator_of_isBlank (hu : isBlank u = true) : isLineTerminator u = false := by
  simp only [isBlank, Bool.or_eq_true, beq_iff_eq] at hu
  rcases hu with rfl | rfl <;> rfl

/-- A lead lies within one line. -/
theorem isLineTerminator_of_mem_lead {lead : JsString} (hlead : (secretLineRe key).IsLead lead)
    (hu : u ∈ lead) : isLineTerminator u = false := by
  obtain ⟨before, word, after, blanks, rfl, hbefore, hword, hafter, hblanks⟩ := hlead
  simp only [mem_append, mem_cons] at hu
  rcases hu with hu | hu | hu | rfl | hu
  · exact isLineTerminator_of_isBlank (hbefore u hu)
  · have hmem : foldCase u ∈ key.text.map foldCase := by
      show (secretLineRe key).fold u ∈ (secretLineRe key).key.map (secretLineRe key).fold
      rw [← hword]
      exact mem_map_of_mem hu
    cases hterm : isLineTerminator u with
    | false => rfl
    | true =>
      simp only [isLineTerminator, Bool.or_eq_true, beq_iff_eq] at hterm
      revert hmem
      rcases hterm with ((rfl | rfl) | rfl) | rfl <;> cases key <;> decide
  · exact isLineTerminator_of_isBlank (hafter u hu)
  · rfl
  · exact isLineTerminator_of_isBlank (hblanks u hu)

theorem isBlank_of_isLineBreak (hu : isLineBreak u = true) : isBlank u = false := by
  simp only [isLineBreak, Bool.or_eq_true, beq_iff_eq] at hu
  rcases hu with rfl | rfl <;> rfl

/-- A value that can stand on a line of its own. -/
structure OneLine (value : JsString) : Prop where
  head : ∀ u ∈ value.head?, isBlank u = false
  units : ∀ u ∈ value, isLineBreak u = false

theorem Cut.withValue {value : JsString} (hcut : (secretLineRe key).Cut line rest)
    (hvalue : OneLine value) : (secretLineRe key).Cut (line.withValue value) rest where
  __ := hcut
  start := by
    intro u hu
    cases value with
    | nil => exact isBlank_of_isLineBreak (hcut.stop u hu)
    | cons v value => exact hvalue.head u hu
  value := hvalue.units

theorem Cut.of_head {rest' : JsString} (hcut : (secretLineRe key).Cut line rest)
    (hhead : rest'.head? = rest.head?) : (secretLineRe key).Cut line rest' where
  __ := hcut
  start := by
    intro u hu
    apply hcut.start
    cases hvalue : line.value with
    | nil =>
      rw [hvalue, nil_append, hhead] at hu
      exact hu
    | cons v value =>
      rw [hvalue] at hu
      exact hu
  stop := by
    rw [hhead]
    exact hcut.stop

/-! ## Substitution -/

/-- A change of values that leaves the leads and the line ends. -/
structure Substitution (key : ConfigKey) where
  subst : KeyLine → KeyLine
  cut : ∀ {line rest}, (secretLineRe key).Cut line rest → (secretLineRe key).Cut (subst line) rest

def mapHit (f : KeyLine → KeyLine) : Piece UInt16 KeyLine → Piece UInt16 KeyLine
  | .letter u => .letter u
  | .hit line => .hit (f line)

theorem render_mapHit (f : KeyLine → KeyLine) (g : KeyLine → JsString)
    (ps : List (Piece UInt16 KeyLine)) :
    render g (ps.map (mapHit f)) = render (fun line => g (f line)) ps := by
  induction ps with
  | nil => rfl
  | cons p ps ih => cases p <;> simp [mapHit, ih]

/-- Letters up to a place on the same line are no part of a match. -/
theorem exists_letters {f : KeyLine → JsString} {units : JsString}
    (hscanned : (secretLineRe key).scanner.Scanned prev ps) (hprev : atLineStart prev = false)
    (hunits : ∀ u ∈ units, isLineTerminator u = false) (heq : render f ps = units ++ rest) :
    ∃ ps', ps = units.map .letter ++ ps' := by
  induction units generalizing prev ps with
  | nil => exact ⟨ps, rfl⟩
  | cons u units ih =>
    cases ps with
    | nil => cases heq
    | cons p ps =>
      cases p with
      | letter v =>
        obtain ⟨rfl, htail⟩ := List.cons.inj heq
        obtain ⟨ps', rfl⟩ := ih hscanned.2 (hunits v mem_cons_self)
          (fun w hw => hunits w (mem_cons_of_mem _ hw)) htail
        exact ⟨ps', rfl⟩
      | hit line =>
        obtain ⟨hstart, -⟩ := matchAt_eq_some.1 hscanned.1
        rw [hprev] at hstart
        cases hstart

theorem render_letters (f : KeyLine → JsString) (units : JsString)
    (ps : List (Piece UInt16 KeyLine)) :
    render f (units.map .letter ++ ps) = units ++ render f ps := by
  induction units with
  | nil => rfl
  | cons u units ih => simp [ih]

/-- Changing the values makes no new match. -/
theorem matchAt_letter (hscanned : (secretLineRe key).scanner.Scanned prev (.letter u :: ps))
    (f : KeyLine → JsString) : (secretLineRe key).matchAt prev (u :: render f ps) = none := by
  cases hmatch : (secretLineRe key).matchAt prev (u :: render f ps) with
  | none => rfl
  | some line =>
    obtain ⟨hstart, rest, htext, hcut⟩ := matchAt_eq_some.1 hmatch
    obtain ⟨hnone, hscanned⟩ := hscanned
    cases hlead : line.lead with
    | nil => exact absurd hlead hcut.lead.ne_nil
    | cons v lead =>
      have hline {w : UInt16} (hw : w ∈ line.lead) : isLineTerminator w = false :=
        isLineTerminator_of_mem_lead hcut.lead hw
      rw [hlead] at htext hline
      obtain ⟨rfl, htail⟩ := List.cons.inj htext
      obtain ⟨ps', rfl⟩ := exists_letters hscanned (hline mem_cons_self)
        (fun w hw => hline (mem_cons_of_mem _ hw)) htail
      -- the lead is in the unchanged text too
      rw [render_letters, ← cons_append, ← hlead] at hnone
      have hfound := afterLead_append hcut.lead (render KeyLine.text ps')
      have hsome : (secretLineRe key).matchAt prev
          (line.lead ++ render KeyLine.text ps') ≠ none := by
        rw [KeyPattern.matchAt, if_pos hstart, hfound]
        exact Option.some_ne_none _
      exact absurd hnone hsome

theorem matchAt_lineBreak (hu : isLineBreak u = true) (prev : Option UInt16) (text : JsString) :
    (secretLineRe key).matchAt prev (u :: text) = none := by
  cases hmatch : (secretLineRe key).matchAt prev (u :: text) with
  | none => rfl
  | some line =>
    obtain ⟨-, rest, htext, hcut⟩ := matchAt_eq_some.1 hmatch
    cases hlead : line.lead with
    | nil => exact absurd hlead hcut.lead.ne_nil
    | cons v lead =>
      rw [hlead] at htext
      obtain ⟨rfl, -⟩ := List.cons.inj htext
      have hterm := isLineTerminator_of_mem_lead hcut.lead (hlead ▸ mem_cons_self)
      rw [isLineTerminator_of_isLineBreak hu] at hterm
      cases hterm

/-- The pieces go on with a new line, or not at all. -/
def NextLine (ps : List (Piece UInt16 KeyLine)) : Prop :=
  ps = [] ∨ ∃ u ps', ps = .letter u :: ps' ∧ isLineBreak u = true

/-- A match runs to the end of its line. -/
theorem cut_of_scanned (hscanned : (secretLineRe key).scanner.Scanned prev (.hit line :: ps)) :
    atLineStart prev = true ∧ (secretLineRe key).Cut line (render KeyLine.text ps) ∧
      NextLine ps := by
  obtain ⟨hmatch, hscanned⟩ := hscanned
  obtain ⟨hstart, rest, htext, hcut⟩ := matchAt_eq_some.1 hmatch
  have hrest : render KeyLine.text ps = rest := by
    rw [← append_assoc] at htext
    exact append_cancel_left htext
  subst hrest
  refine ⟨hstart, hcut, ?_⟩
  cases ps with
  | nil => exact .inl rfl
  | cons p ps =>
    cases p with
    | letter u => exact .inr ⟨u, ps, rfl, hcut.stop u rfl⟩
    | hit line' =>
      obtain ⟨-, rest, htext, hcut'⟩ := matchAt_eq_some.1 hscanned.1
      cases hlead : line'.lead with
      | nil => exact absurd hlead hcut'.lead.ne_nil
      | cons v lead =>
        have hbreak : isLineBreak v = true :=
          hcut.stop v (by rw [render_hit, KeyLine.text, hlead]; rfl)
        have hterm := isLineTerminator_of_mem_lead hcut'.lead (hlead ▸ mem_cons_self)
        rw [isLineTerminator_of_isLineBreak hbreak] at hterm
        cases hterm

theorem NextLine.head (hnext : NextLine ps) (f g : KeyLine → JsString) :
    (render f ps).head? = (render g ps).head? := by
  rcases hnext with rfl | ⟨u, ps, rfl, -⟩ <;> rfl

variable (σ : Substitution key)

/-- The expression finds the substituted lines where the old ones stood. -/
theorem Substitution.scanned {prev' : Option UInt16}
    (hscanned : (secretLineRe key).scanner.Scanned prev ps) (hprev : prev' = prev ∨ NextLine ps) :
    (secretLineRe key).scanner.Scanned prev' (ps.map (mapHit σ.subst)) := by
  induction ps generalizing prev prev' with
  | nil => trivial
  | cons p ps ih =>
    cases p with
    | letter u =>
      refine ⟨?_, ih hscanned.2 (.inl rfl)⟩
      rcases hprev with rfl | hnext
      · rw [render_mapHit]
        exact matchAt_letter hscanned _
      · rcases hnext with hnil | ⟨v, ps', heq, hbreak⟩
        · cases hnil
        · cases heq
          exact matchAt_lineBreak hbreak _ _
    | hit line =>
      obtain ⟨hstart, hcut, hnext⟩ := cut_of_scanned hscanned
      have hsame : prev' = prev := by
        rcases hprev with rfl | hnil | ⟨u, ps', heq, -⟩
        · rfl
        · cases hnil
        · cases heq
      subst hsame
      refine ⟨?_, ih hscanned.2 (.inr hnext)⟩
      have hhead : (render KeyLine.text (ps.map (mapHit σ.subst))).head? =
          (render KeyLine.text ps).head? := by
        rw [render_mapHit]
        exact hnext.head _ _
      refine matchAt_eq_some.2 ⟨hstart, _, append_assoc _ _ _, ?_⟩
      exact Cut.of_head (σ.cut hcut) hhead

/-- Substituting in a file substitutes in its pieces. -/
theorem Substitution.pieces (content : JsString) : (secretLineRe key).scanner.pieces
        ((secretLineRe key).scanner.replaceAll (fun line => (σ.subst line).text) content) =
      ((secretLineRe key).scanner.pieces content).map (mapHit σ.subst) := by
  rw [replaceAll, ← render_mapHit σ.subst KeyLine.text]
  exact pieces_render (σ.scanned (scanned_pieces _ content) (.inl rfl))

theorem CONFIG_SECRET_MASK_oneLine : OneLine CONFIG_SECRET_MASK where
  head := by
    intro u hu
    cases hu
    rfl
  units := by
    have hunits : CONFIG_SECRET_MASK.any isLineBreak = false := by decide
    simpa using hunits

theorem trim_CONFIG_SECRET_MASK : trim CONFIG_SECRET_MASK = CONFIG_SECRET_MASK := by decide

theorem CONFIG_SECRET_MASK_ne_nil : CONFIG_SECRET_MASK ≠ [] := by decide

def maskSubstitution (key : ConfigKey) : Substitution key where
  subst := maskLine
  cut := by
    intro line rest hcut
    unfold maskLine
    split
    · exact hcut
    · exact Cut.withValue hcut CONFIG_SECRET_MASK_oneLine

theorem maskConfigSecrets_rcon (content : JsString) : maskConfigSecrets (js "Rcon.cfg") content =
      (secretLineRe .password).scanner.replaceAll (fun line => (maskLine line).text) content := rfl

theorem replaceAll_maskConfigSecrets (f : KeyLine → JsString) (content : JsString) :
    (secretLineRe .password).scanner.replaceAll f (maskConfigSecrets (js "Rcon.cfg") content) =
      (secretLineRe .password).scanner.replaceAll (fun line => f (maskLine line)) content := by
  have hpieces := congrArg (render f) ((maskSubstitution .password).pieces content)
  rw [render_mapHit] at hpieces
  exact hpieces

theorem maskLine_maskLine (line : KeyLine) : maskLine (maskLine line) = maskLine line := by
  by_cases hblank : trim line.value = []
  · simp only [maskLine, if_pos hblank]
  · have hmask : trim (line.withValue CONFIG_SECRET_MASK).value ≠ [] := by
      exact CONFIG_SECRET_MASK_ne_nil
    simp only [maskLine, if_neg hblank, if_neg hmask]
    rfl

theorem unmaskLine_maskLine (hvalue : trim line.value ≠ [] → line.value = password) :
    unmaskLine password (maskLine line) = line := by
  by_cases hblank : trim line.value = []
  · have hmask : trim line.value ≠ CONFIG_SECRET_MASK := by
      rw [hblank]
      exact CONFIG_SECRET_MASK_ne_nil.symm
    simp only [maskLine, if_pos hblank, unmaskLine, if_neg hmask]
  · have hmask : trim (line.withValue CONFIG_SECRET_MASK).value = CONFIG_SECRET_MASK :=
      trim_CONFIG_SECRET_MASK
    rw [maskLine, if_neg hblank, unmaskLine, if_pos hmask, ← hvalue hblank]
    rfl

/-- With a password at hand the content is always rewritten in the same way. -/
theorem unmaskRconPassword_eq {panelPassword onDisk : Option JsString}
    (hstored : storedPassword panelPassword onDisk = some password) (content : JsString) :
    unmaskRconPassword panelPassword onDisk content =
      .ok ((secretLineRe .password).scanner.replaceAll
        (fun line => (unmaskLine password line).text) content) := by
  unfold unmaskRconPassword
  rw [hstored]
  split
  · next hnone =>
    have hplain : (secretLineRe .password).scanner.replaceAll
        (fun line => (unmaskLine password line).text) content = content := by
      refine replaceAll_eq_self fun line hline => ?_
      have hmask : trim line.value ≠ CONFIG_SECRET_MASK := by
        intro hmask
        exact hnone (any_eq_true.2 ⟨line, hline, decide_eq_true hmask⟩)
      rw [unmaskLine, if_neg hmask]
      rfl
    rw [hplain]
  · rfl

/-! ## Lines -/

/-- What unmasking does to one line of a file: nothing, or the password in the place of the
mask.  A line of the expression may also begin after a Unicode separator. -/
def UnmaskedLine (password before after : JsString) : Prop :=
  after = before ∨
    ∃ front line, (secretLineRe .password).matchAt (lastOf none front) line.text = some line ∧
      trim line.value = CONFIG_SECRET_MASK ∧ before = front ++ line.text ∧
        after = front ++ (line.withValue password).text

theorem isLineBreak_of_isLineTerminator (hu : isLineTerminator u = false) :
    isLineBreak u = false := by
  cases hbreak : isLineBreak u with
  | false => rfl
  | true => rw [← hu, isLineTerminator_of_isLineBreak hbreak]

theorem unbroken_text (hcut : (secretLineRe key).Cut line rest) : Unbroken line.text := by
  intro u hu
  rcases mem_append.1 hu with hu | hu
  · exact isLineBreak_of_isLineTerminator (isLineTerminator_of_mem_lead hcut.lead hu)
  · exact hcut.value u hu

theorem unbroken_unmaskLine (hpassword : Unbroken password)
    (hcut : (secretLineRe key).Cut line rest) : Unbroken (unmaskLine password line).text := by
  have htext := unbroken_text hcut
  unfold unmaskLine
  split
  · exact forall_mem_append.2 ⟨(forall_mem_append.1 htext).1, hpassword⟩
  · exact htext

theorem unmaskedLine_of_scanned {front : JsString}
    (hscanned : (secretLineRe .password).scanner.Scanned prev (.hit line :: ps))
    (hfront : atLineStart (lastOf none front) = atLineStart prev) :
    UnmaskedLine password (front ++ line.text) (front ++ (unmaskLine password line).text) := by
  obtain ⟨hstart, hcut, -⟩ := cut_of_scanned hscanned
  by_cases hmask : trim line.value = CONFIG_SECRET_MASK
  · refine .inr ⟨front, line, ?_, hmask, rfl, by rw [unmaskLine, if_pos hmask]⟩
    refine matchAt_eq_some.2 ⟨hfront.trans hstart, [], ?_, hcut.lead, ?_, hcut.value, ?_⟩
    · rw [append_nil, KeyLine.text]
    · intro u hu
      apply hcut.start
      rw [append_nil] at hu
      rw [head?_append, Option.mem_def.1 hu]
      rfl
    · simp
  · exact .inl (by rw [unmaskLine, if_neg hmask])

/-- Line by line.  The pieces continue the lines `front` and `front'`: the same line so far,
or lines that end here. -/
theorem forall₂_lines (hpassword : Unbroken password) {front front' : JsString}
    (hscanned : (secretLineRe .password).scanner.Scanned prev ps) (hfront : Unbroken front)
    (hfront' : Unbroken front') (hline : UnmaskedLine password front front')
    (hstate : front' = front ∧ atLineStart (lastOf none front) = atLineStart prev ∨ NextLine ps) :
    List.Forall₂ (UnmaskedLine password)
      ((front ++ render KeyLine.text ps).splitOnP isLineBreak)
      ((front' ++ render (fun line => (unmaskLine password line).text) ps).splitOnP
        isLineBreak) := by
  induction ps generalizing prev front front' with
  | nil =>
    rw [render_nil, render_nil, append_nil, append_nil,
      splitOnP_eq_singleton hfront, splitOnP_eq_singleton hfront']
    exact List.Forall₂.cons hline List.Forall₂.nil
  | cons p ps ih =>
    cases p with
    | letter u =>
      rw [render_letter, render_letter]
      cases hbreak : isLineBreak u with
      | true =>
        rw [splitOnP_append_cons_of_forall_mem hfront u hbreak,
          splitOnP_append_cons_of_forall_mem hfront' u hbreak]
        refine List.Forall₂.cons hline ?_
        have hnil : Unbroken [] := forall_mem_nil _
        exact ih hscanned.2 hnil hnil (.inl rfl)
          (.inl ⟨rfl, (isLineTerminator_of_isLineBreak hbreak).symm⟩)
      | false =>
        rcases hstate with ⟨rfl, -⟩ | hnil | ⟨v, ps', heq, hnext⟩
        · rw [append_cons _ u (render KeyLine.text ps), append_cons _ u (render _ ps)]
          have hlonger : Unbroken (front' ++ [u]) :=
            forall_mem_append.2 ⟨hfront, forall_mem_singleton.2 hbreak⟩
          refine ih hscanned.2 hlonger hlonger (.inl rfl) (.inl ⟨rfl, ?_⟩)
          rw [lastOf_append, lastOf_cons, lastOf_nil]
        · cases hnil
        · cases heq
          rw [hbreak] at hnext
          cases hnext
    | hit line =>
      obtain ⟨hstart, hcut, hnext⟩ := cut_of_scanned hscanned
      rcases hstate with ⟨rfl, hstate⟩ | hnil | ⟨v, ps', heq, -⟩
      · rw [render_hit, render_hit, ← append_assoc, ← append_assoc]
        exact ih hscanned.2
          (forall_mem_append.2 ⟨hfront, unbroken_text hcut⟩)
          (forall_mem_append.2 ⟨hfront, unbroken_unmaskLine hpassword hcut⟩)
          (unmaskedLine_of_scanned hscanned hstate) (.inr hnext)
      · cases hnil
      · cases heq

/-- Editing a masked `Rcon.cfg` with a known password: a file that holds only this password
comes back as it was, masking twice is masking once, and whatever is saved, each of its lines
is written as it is or gets the password in the place of the mask. -/
theorem unmask_mask_roundtrip (panelPassword onDisk : Option JsString) (password : JsString)
    (hstored : storedPassword panelPassword onDisk = some password)
    (honeLine : ∀ u ∈ password, isLineBreak u = false) : (∀ content,
        (∀ line ∈ (secretLineRe .password).scanner.hits content,
          trim line.value ≠ [] → line.value = password) →
        unmaskRconPassword panelPassword onDisk (maskConfigSecrets (js "Rcon.cfg") content) =
          .ok content) ∧
      (∀ content, maskConfigSecrets (js "Rcon.cfg") (maskConfigSecrets (js "Rcon.cfg") content) =
        maskConfigSecrets (js "Rcon.cfg") content) ∧
      ∀ content, ∃ written, unmaskRconPassword panelPassword onDisk content = .ok written ∧
        List.Forall₂ (UnmaskedLine password) (content.splitOnP isLineBreak)
          (written.splitOnP isLineBreak) := by
  refine ⟨fun content hvalues => ?_, fun content => ?_, fun content => ?_⟩
  · rw [unmaskRconPassword_eq hstored, replaceAll_maskConfigSecrets]
    refine congrArg Except.ok (replaceAll_eq_self fun line hline => ?_)
    exact congrArg KeyLine.text (unmaskLine_maskLine (hvalues line hline))
  · rw [maskConfigSecrets_rcon (maskConfigSecrets _ _), replaceAll_maskConfigSecrets]
    exact replaceAll_congr fun line _ => congrArg KeyLine.text (maskLine_maskLine line)
  · refine ⟨_, unmaskRconPassword_eq hstored content, ?_⟩
    have hlines := forall₂_lines honeLine
      (scanned_pieces (secretLineRe .password).scanner content) (forall_mem_nil _)
      (forall_mem_nil _) (.inl rfl) (.inl ⟨rfl, rfl⟩)
    have htext : render KeyLine.text ((secretLineRe .password).scanner.pieces content) = content :=
      render_pieces (secretLineRe .password).scanner content
    rw [nil_append, nil_append, htext] at hlines
    exact hlines

/-- Two password lines, one of them empty, with mixed line ends. -/
def sampleRconCfg : JsString := js "Port=21114\r\n\tPASSWORD = s3cret\nPassword=\r\n"

theorem unmask_mask_sampleRconCfg : storedPassword (some (js "s3cret")) none = some (js "s3cret") ∧
      (∀ u ∈ js "s3cret", isLineBreak u = false) ∧
      unmaskRconPassword (some (js "s3cret")) none
          (maskConfigSecrets (js "Rcon.cfg") sampleRconCfg) = .ok sampleRconCfg := by
  have honeLine : Unbroken (js "s3cret") := by
    have hunits : (js "s3cret").any isLineBreak = false := by decide
    simpa using hunits
  have hvalues : ∀ line ∈ (secretLineRe .password).scanner.hits sampleRconCfg,
      trim line.value ≠ [] → line.value = js "s3cret" := by decide +kernel
  exact ⟨rfl, honeLine,
    (unmask_mask_roundtrip (some (js "s3cret")) none (js "s3cret") rfl honeLine).1
      sampleRconCfg hvalues⟩

end SquadPanel.Configs
