import SquadPanel.Rcon.ExecResult

/-!
# The text of a split response

`push` decodes every packet on its own and `handlePacket` joins the decoded
bodies.  A response that the game server splits between two characters comes
out as its text; one that is split inside a character does not.
-/

namespace SquadPanel.Rcon

open Js Lib RconClient

/-- The body bytes of the responses that carry an id, in order of arrival. -/
def responseBytes (id : Int) (log : List LogEntry) : List (List UInt8) :=
  log.filterMap fun
    | .received p => if IsResponse p id then some p.bytes else none
    | _ => none

theorem responses_eq_map (id : Int) (log : List LogEntry) :
    responses id log = (responseBytes id log).map bufferToString := by
  unfold responses responseBytes
  rw [List.map_filterMap]
  congr 1
  funext entry
  cases entry with
  | received p =>
    simp only
    split <;> rfl
  | _ => rfl

/-- Joining the decoded pieces of an encoded text gives the text exactly when every
piece is itself an encoded text. -/
def ResolvesTextIff (pre : List LogEntry) (call : Nat) (value : JsString) : Prop :=
  ∃ before between id probeId echo,
    pre = before ++ .sent call id probeId :: (between ++ [.received echo]) ∧
    IsResponse echo probeId ∧ responses probeId between = [] ∧
    ∀ text, (responseBytes id between).flatten = Utf8.encode text →
      (value = bufferToString (responseBytes id between).flatten ↔
        ∀ bytes ∈ responseBytes id between, ∃ part, bytes = Utf8.encode part)

theorem resolved_text_iff (nextId : Int) (events : List ClientEvent)
    (pre post : List LogEntry) (call : Nat) (value : JsString)
    (hlog : ((connected nextId).run events).log = pre ++ .resolved call value :: post) :
    ResolvesTextIff pre call value := by
  have hinv := clientInv_run events (clientInv_connected nextId)
  obtain ⟨before, between, id, probeId, echo, hpre, hecho, hfirst, hvalue⟩ :=
    hinv.resolved pre post call value hlog
  refine ⟨before, between, id, probeId, echo, hpre, hecho, hfirst, ?_⟩
  intro text htext
  rw [hvalue, responses_eq_map, flatten_map_bufferToString, bufferToString, utf16Encode_inj]
  exact Utf8.decode_pieces_iff htext

/-! ### A two-byte character -/

/-- `ListPlayers` on a client that has used the ids up to 1001, answered in pieces. -/
def sampleExec (pieces : List (List UInt8)) : List ClientEvent :=
  [.exec (js "ListPlayers"), .turn,
    .data (pieces.flatMap fun bytes => encodePacket ⟨1002, SERVERDATA_RESPONSE_VALUE, bytes⟩),
    .data (encodePacket ⟨1003, SERVERDATA_RESPONSE_VALUE, []⟩)]

/-- The log of that run up to the answer. -/
def sampleAnswered (pieces : List (List UInt8)) : List LogEntry :=
  .sent 0 1002 1003 ::
    ((pieces.map fun bytes => .received ⟨1002, SERVERDATA_RESPONSE_VALUE, bytes⟩) ++
      [.received ⟨1003, SERVERDATA_RESPONSE_VALUE, []⟩])

theorem resolved_text_iff_betweenCharacters :
    ((connected 1001).run (sampleExec [[0x68], [0xC3, 0xA9]])).log =
        sampleAnswered [[0x68], [0xC3, 0xA9]] ++ [.resolved 0 (js "hé")] ∧
      ResolvesTextIff (sampleAnswered [[0x68], [0xC3, 0xA9]]) 0 (js "hé") := by
  have hlog : ((connected 1001).run (sampleExec [[0x68], [0xC3, 0xA9]])).log =
      sampleAnswered [[0x68], [0xC3, 0xA9]] ++ [.resolved 0 (js "hé")] := by
    decide +kernel
  exact ⟨hlog, resolved_text_iff 1001 _ _ _ 0 _ hlog⟩

/-- The two bytes of `é` in two packets come out as two replacement characters. -/
theorem insideCharacter_resolves_replacements :
    ((connected 1001).run (sampleExec [[0xC3], [0xA9]])).log =
        sampleAnswered [[0xC3], [0xA9]] ++ [.resolved 0 (js "\uFFFD\uFFFD")] ∧
      [[0xC3], [0xA9]].flatten = Utf8.encode ['é'] ∧
      bufferToString [[0xC3], [0xA9]].flatten = js "é" ∧
      js "\uFFFD\uFFFD" ≠ js "é" := by
  decide +kernel

end SquadPanel.Rcon
