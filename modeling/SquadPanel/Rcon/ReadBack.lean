import SquadPanel.Js.Trim
import SquadPanel.Rcon.AtMostOnce

/-!
# Reading an operator command back

The game takes the command up to the first space and splits the arguments of some commands at
further spaces.  What it reads is what was requested.
-/

namespace SquadPanel.Rcon

open Js List

/-- The text up to its first space, and what follows the space. -/
def cut (text : JsString) : JsString × JsString :=
  (text.takeWhile (· ≠ 0x20), (text.dropWhile (· ≠ 0x20)).tail)

variable (name : RconOperatorCommandName)

def readArgs (rest : JsString) : List JsString :=
  match name with
  | .adminWarn | .adminKick => [(cut rest).1, (cut rest).2]
  | .adminBan => [(cut rest).1, (cut (cut rest).2).1, (cut (cut rest).2).2]
  | _ => if rest = [] then [] else [rest]

def readCommand (text : JsString) : Option (RconOperatorCommandName × List JsString) :=
  (RconOperatorCommandName.all.find? (·.text = (cut text).1)).map fun name =>
    (name, readArgs name (cut text).2)

/-- A text that stays on one line. -/
abbrev Plain (text : JsString) : Prop := text.any isLineBreakOrNul = false

theorem cut_append {a : JsString} (ha : 0x20 ∉ a) (b : JsString) :
    cut (a ++ 0x20 :: b) = (a, b) := by
  have hne : ∀ u ∈ a, decide (u ≠ 0x20) = true := fun u hu =>
    decide_eq_true fun heq => ha (heq ▸ hu)
  rw [cut, takeWhile_append_of_pos hne, dropWhile_append_of_pos hne]
  simp

theorem cut_of_not_mem {a : JsString} (ha : 0x20 ∉ a) : cut a = (a, []) := by
  have hne : ∀ u ∈ a, decide (u ≠ 0x20) = true := fun u hu =>
    decide_eq_true fun heq => ha (heq ▸ hu)
  rw [cut, takeWhile_eq_self_iff.2 hne, dropWhile_eq_nil_iff.2 hne]
  rfl

theorem text_spec : 0x20 ∉ name.text ∧ Plain name.text ∧
      RconOperatorCommandName.all.find? (·.text = name.text) = some name := by
  cases name <;> decide

theorem Plain.append {a b : JsString} (ha : Plain a) (hb : Plain b) : Plain (a ++ 0x20 :: b) := by
  have hspace : isLineBreakOrNul 0x20 = false := by decide
  simp only [Plain, any_append, any_cons, ha, hspace, hb, Bool.or_self]

/-- The command word and what stands behind it. -/
theorem readCommand_append (rest : JsString) :
    readCommand (name.text ++ 0x20 :: rest) = some (name, readArgs name rest) := by
  obtain ⟨hspace, -, hfind⟩ := text_spec name
  rw [readCommand, cut_append hspace, hfind]
  rfl

/-! ## What the validators let through -/

theorem assertSafeSingleLineText_ok {value label text : JsString} {maxChars : Nat}
    (hok : assertSafeSingleLineText (some value) label maxChars = .ok text) :
    text = trim value ∧ text ≠ [] ∧ Plain text := by
  unfold assertSafeSingleLineText at hok
  dsimp only [Option.map_some, Option.getD_some] at hok
  split at hok
  · cases hok
  · next hne =>
    split at hok
    · cases hok
    · split at hok
      · cases hok
      · next hplain =>
        cases hok
        exact ⟨rfl, hne, eq_false_of_ne_true hplain⟩

theorem exists_of_bind_ok {α β : Type} {b : β} {x : Except JsString α}
    {f : α → Except JsString β} (hok : x >>= f = .ok b) : ∃ a, x = .ok a ∧ f a = .ok b := by
  cases x with
  | error => cases hok
  | ok a => exact ⟨a, rfl, hok⟩

variable {text : JsString}

theorem not_space_of_not_isWhitespace (htext : ∀ u ∈ text, isWhitespace u = false) : 0x20 ∉ text :=
  fun hspace => absurd (htext _ hspace) (by decide)

theorem assertSafeTarget_ok {value label text : JsString}
    (hok : assertSafeTarget (some value) label = .ok text) :
    text = trim value ∧ Plain text ∧ 0x20 ∉ text := by
  obtain ⟨text', htext, hok⟩ := exists_of_bind_ok hok
  obtain ⟨htrim, -, hplain⟩ := assertSafeSingleLineText_ok htext
  split at hok
  · cases hok
  · next hword =>
    cases hok
    exact ⟨htrim, hplain, not_space_of_not_isWhitespace (by simpa using hword)⟩

/-- A class without line breaks, `NUL` and the space. -/
theorem class_spec {p : UInt16 → Bool} {u : UInt16} (hu : p u = true)
    (hp : ([0x0D, 0x0A, 0x00, 0x20] : JsString).any p = false) :
    isLineBreakOrNul u = false ∧ u ≠ 0x20 := by
  simp only [any_cons, any_nil, Bool.or_eq_false_iff] at hp
  obtain ⟨hcr, hlf, hnul, hspace, -⟩ := hp
  have hne {c : UInt16} (hc : p c = false) : u ≠ c := by
    rintro rfl
    cases hc.symm.trans hu
  exact ⟨by simp [isLineBreakOrNul, hne hcr, hne hlf, hne hnul], hne hspace⟩

/-- A ban length has digits and a unit, and no other characters. -/
theorem banLength_spec (hlength : BAN_LENGTH_PATTERN text = true) :
    ∀ u ∈ text, isLineBreakOrNul u = false ∧ u ≠ 0x20 := by
  intro u hu
  rw [← takeWhile_append_dropWhile (p := isDigit) (l := text)] at hu
  rcases mem_append.1 hu with hdigits | hunit
  · exact class_spec (all_eq_true.1 all_takeWhile u hdigits) (by decide)
  · simp only [BAN_LENGTH_PATTERN, Bool.and_eq_true] at hlength
    split at hlength
    · next hnil => simp [hnil] at hunit
    · next c hone =>
      obtain rfl : u = c := by simpa [hone] using hunit
      exact class_spec hlength.2 (by decide)
    · cases hlength.2

theorem assertValidBanLength_ok {value text : JsString}
    (hok : assertValidBanLength (some value) = .ok text) :
    text = trim value ∧ Plain text ∧ 0x20 ∉ text := by
  unfold assertValidBanLength at hok
  dsimp only [Option.map_some, Option.getD_some] at hok
  split at hok
  · cases hok
  · split at hok
    · cases hok
    · next hlength =>
      cases hok
      have hspec := banLength_spec (by simpa using hlength)
      refine ⟨rfl, any_eq_false.2 fun u hu => ?_, fun hspace => (hspec _ hspace).2 rfl⟩
      exact ne_true_of_eq_false (hspec u hu).1

/-- The one argument of a command, trimmed and checked. -/
def OneLine (args : List JsString) (text : JsString) : Prop :=
  args.map trim = [text] ∧ text ≠ [] ∧ Plain text

theorem validateBroadcastText_ok {args : List JsString}
    (hok : validateBroadcastText args = .ok text) : OneLine args text := by
  rcases args with _ | ⟨value, _ | _⟩
  · cases hok
  · obtain ⟨rfl, hline⟩ := assertSafeSingleLineText_ok hok
    exact ⟨rfl, hline⟩
  · cases hok

theorem validateLayerName_ok {args : List JsString}
    (hok : validateLayerName args = .ok text) : OneLine args text := by
  rcases args with _ | ⟨value, _ | _⟩
  · cases hok
  · obtain ⟨line, hline, hok⟩ := exists_of_bind_ok hok
    obtain ⟨rfl, hline⟩ := assertSafeSingleLineText_ok hline
    split at hok
    · cases hok
    · cases hok
      exact ⟨rfl, hline⟩
  · cases hok

/-! ## The builders -/

/-- The text stays on one line and is read as the command with its trimmed arguments. -/
def ReadsBack (args : List JsString) (text : JsString) : Prop :=
  Plain text ∧ readCommand text = some (name, args.map trim)

section
variable {name : RconOperatorCommandName} {args : List JsString} {text : JsString}

theorem readsBack_oneLine {word : JsString} {checked : Except JsString JsString}
    (hword : word = name.text ++ [0x20])
    (hchecked : ∀ {line}, checked = .ok line → OneLine args line)
    (hrest : ∀ rest, readArgs name rest = if rest = [] then [] else [rest])
    (hok : (do return word ++ (← checked)) = Except.ok text) : ReadsBack name args text := by
  obtain ⟨line, hline, hok⟩ := exists_of_bind_ok hok
  obtain ⟨hargs, hne, hplain⟩ := hchecked hline
  cases hok
  rw [hword, append_assoc, singleton_append]
  refine ⟨(text_spec name).2.1.append hplain, ?_⟩
  rw [readCommand_append, hrest, if_neg hne, hargs]

theorem readsBack_noArgs {request : RconCommandRequest} {word : JsString}
    (hword : request.command.text = word) (hrest : readArgs request.command [] = [])
    (hok : (do ensureNoArgs request; return word) = Except.ok text) :
    ReadsBack request.command request.args text := by
  obtain ⟨hspace, hplain, hfind⟩ := text_spec request.command
  obtain ⟨_, hnone, hok⟩ := exists_of_bind_ok hok
  unfold ensureNoArgs at hnone
  split at hnone
  · cases hnone
  · next hargs =>
    cases hok
    have hnil : request.args = [] := by simpa using hargs
    rw [← hword, hnil]
    refine ⟨hplain, ?_⟩
    rw [readCommand, cut_of_not_mem hspace, hfind, Option.map_some, hrest]
    rfl

theorem readsBack_targeted {label : JsString}
    (hok : buildTargetedCommand name.text label args = .ok text)
    (hrest : ∀ rest, readArgs name rest = [(cut rest).1, (cut rest).2]) :
    ReadsBack name args text := by
  rcases args with _ | ⟨value, _ | ⟨value', _ | _⟩⟩
  · cases hok
  · cases hok
  · obtain ⟨target, htarget, hok⟩ := exists_of_bind_ok hok
    obtain ⟨message, hmessage, hok⟩ := exists_of_bind_ok hok
    obtain ⟨rfl, hplain, hspace⟩ := assertSafeTarget_ok htarget
    obtain ⟨rfl, -, hplain'⟩ := assertSafeSingleLineText_ok hmessage
    cases hok
    have hone : js " " = [0x20] := by decide
    simp only [hone, append_assoc, cons_append, nil_append]
    refine ⟨(text_spec name).2.1.append (hplain.append hplain'), ?_⟩
    rw [readCommand_append, hrest, cut_append hspace]
    rfl
  · cases hok

theorem readsBack_ban (hok : buildAdminBanCommand args = .ok text) :
    ReadsBack .adminBan args text := by
  rcases args with _ | ⟨value, _ | ⟨value', _ | ⟨value'', _ | _⟩⟩⟩
  · cases hok
  · cases hok
  · cases hok
  · obtain ⟨target, htarget, hok⟩ := exists_of_bind_ok hok
    obtain ⟨banLength, hlength, hok⟩ := exists_of_bind_ok hok
    obtain ⟨reason, hreason, hok⟩ := exists_of_bind_ok hok
    obtain ⟨rfl, hplain, hspace⟩ := assertSafeTarget_ok htarget
    obtain ⟨rfl, hplain', hspace'⟩ := assertValidBanLength_ok hlength
    obtain ⟨rfl, -, hplain''⟩ := assertSafeSingleLineText_ok hreason
    cases hok
    have hone : js " " = [0x20] := by decide
    have hword : js "AdminBan " = RconOperatorCommandName.adminBan.text ++ [0x20] := by decide
    simp only [hone, hword, append_assoc, cons_append, nil_append]
    refine ⟨(text_spec _).2.1.append (hplain.append (hplain'.append hplain'')), ?_⟩
    rw [readCommand_append, readArgs, cut_append hspace, cut_append hspace']
    rfl
  · cases hok

end

theorem buildOperatorCommand_readsBack {rt : Runtime} {input : Json} {text : JsString}
    (hbuild : buildOperatorCommand rt input = .ok text) :
    ∃ request, rconCommandRequestSchema rt input = some request ∧
      ReadsBack request.command request.args text := by
  unfold buildOperatorCommand at hbuild
  split at hbuild
  · cases hbuild
  · next request hrequest =>
    refine ⟨request, hrequest, ?_⟩
    obtain ⟨requestId, command, args⟩ := request
    change ReadsBack command args text
    cases command with
    | adminBan => exact readsBack_ban hbuild
    | adminBroadcast =>
      exact readsBack_oneLine (by decide) validateBroadcastText_ok (fun _ => rfl) hbuild
    | adminChangeLayer | adminSetNextLayer =>
      exact readsBack_oneLine (by decide) validateLayerName_ok (fun _ => rfl) hbuild
    | adminEndMatch | adminReloadServerConfig => exact readsBack_noArgs rfl rfl hbuild
    | adminKick | adminWarn => exact readsBack_targeted hbuild fun _ => rfl

/-- An accepted request is read back as it was meant, so no other request has its text. -/
theorem command_read_back (rt : Runtime) (input : Json) {text : JsString}
    (hbuild : buildOperatorCommand rt input = .ok text) :
    (∀ u ∈ text, u ≠ 0x0D ∧ u ≠ 0x0A ∧ u ≠ 0x00) ∧
      ∃ request, rconCommandRequestSchema rt input = some request ∧
        readCommand text = some (request.command, request.args.map trim) ∧
        ∀ input' request', rconCommandRequestSchema rt input' = some request' →
          buildOperatorCommand rt input' = .ok text →
          request'.command = request.command ∧ request'.args.map trim = request.args.map trim := by
  obtain ⟨request, hrequest, hplain, hread⟩ := buildOperatorCommand_readsBack hbuild
  refine ⟨fun u hu => ?_, request, hrequest, hread, fun input' request' hrequest' hbuild' => ?_⟩
  · simpa [isLineBreakOrNul, and_assoc] using any_eq_false.1 hplain u hu
  obtain ⟨_, hparsed, -, hread'⟩ := buildOperatorCommand_readsBack hbuild'
  cases hrequest'.symm.trans hparsed
  simpa using hread'.symm.trans hread

/-- `AdminKick` of a player, with blanks around the reason. -/
def sampleKick : Json :=
  .obj [(js "request_id", .str (js "r1")), (js "command", .str (js "AdminKick")),
    (js "args", .arr [.str (js "7656"), .str (js " be nice ")])]

theorem command_read_back_sampleKick :
    readCommand (js "AdminKick 7656 be nice") = some (.adminKick, [js "7656", js "be nice"]) ∧
      ∀ input' request', rconCommandRequestSchema sampleRuntime input' = some request' →
        buildOperatorCommand sampleRuntime input' = .ok (js "AdminKick 7656 be nice") →
        request'.command = .adminKick ∧ request'.args.map trim = [js "7656", js "be nice"] := by
  have hbuild : buildOperatorCommand sampleRuntime sampleKick =
      .ok (js "AdminKick 7656 be nice") := by decide
  obtain ⟨-, request, hrequest, hread, hsame⟩ := command_read_back sampleRuntime sampleKick hbuild
  have hparsed : rconCommandRequestSchema sampleRuntime sampleKick =
      some ⟨js "r1", .adminKick, [js "7656", js " be nice "]⟩ := by decide
  cases hrequest.symm.trans hparsed
  exact ⟨hread.trans (by decide), hsame⟩

end SquadPanel.Rcon
