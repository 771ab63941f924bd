import SquadPanel.Rcon.PacketStream

/-!
# The broken tail in a stream of packets

Squad answers an empty probe twice and follows the second answer with seven bytes that belong
to no frame, and that are also how a chat packet with a body of 246 bytes begins.  The decoder
tells the two apart by what came before: it strips the bytes only after the second of two
consecutive empty responses with one id, which is where the server sends them.
-/

namespace SquadPanel.Rcon

open Js Lib Lib.Incremental List

/-! ## The server -/

/-- A packet as the server sends it: the numbers fit their fields and the frame the limit. -/
structure SentPacket where
  id : Int
  type : Int
  text : List Char
  id_int32 : -2 ^ 31 ≤ id ∧ id < 2 ^ 31
  type_int32 : -2 ^ 31 ≤ type ∧ type < 2 ^ 31
  size_le : ((Utf8.encode text).length : Int) + 10 ≤ MAX_RCON_PACKET_SIZE

namespace SentPacket

variable (p : SentPacket)

def body : JsString := utf16Encode p.text

/-- The packet with its body as bytes. -/
def packet : RconPacket := ⟨p.id, p.type, bufferFromUtf8 p.body⟩

def isEmptyResponse : Bool :=
  p.type = SERVERDATA_RESPONSE_VALUE && p.text.isEmpty

variable (earlier : List SentPacket)

/-- How many of the latest empty responses, without a break, have an id. -/
def emptyRun (id : Int) : Nat :=
  ((earlier.filter (·.isEmptyResponse)).takeWhile fun p => p.id = id).length

/-- The packet is every second one of the consecutive empty responses with its id. -/
def followedByTail (p : SentPacket) : Bool :=
  p.isEmptyResponse && emptyRun earlier p.id % 2 = 1

/-- What the server writes for some packets after earlier ones, the latest first. -/
def serverStream : List SentPacket → List SentPacket → List UInt8
  | _, [] => []
  | earlier, p :: rest =>
    encodePacket p.packet ++
      ((if followedByTail earlier p then SQUAD_BROKEN_PROBE_TAIL else []) ++
        serverStream (p :: earlier) rest)

theorem bytes_packet : p.packet.bytes = Utf8.encode p.text :=
  bufferFromUtf8_utf16Encode p.text

theorem body_packet : p.packet.body = p.body := by
  rw [RconPacket.body, bytes_packet, bufferToString, Utf8.decode_encode]
  rfl

/-! ## What the decoder has tracked -/

/-- The tracked id after some packets, the latest first: that of the latest empty response, if
it awaits its second one. -/
def echoAfter : ProbeEcho where
  lastEmptyResponseId :=
    match earlier.filter (·.isEmptyResponse) with
    | [] => none
    | last :: _ => if emptyRun earlier last.id % 2 = 1 then some last.id else none
  expectProbeTail := false

variable {earlier : List SentPacket} {p : SentPacket}

theorem emptyRun_cons_of_not (hp : p.isEmptyResponse = false) (id : Int) :
    emptyRun (p :: earlier) id = emptyRun earlier id := by
  unfold emptyRun
  rw [filter_cons_of_neg (by simp [hp])]

theorem emptyRun_cons (hp : p.isEmptyResponse = true) :
    emptyRun (p :: earlier) p.id = emptyRun earlier p.id + 1 := by
  unfold emptyRun
  rw [filter_cons_of_pos hp, takeWhile_cons_of_pos (by simp), length_cons]

theorem size_eq_iff (p : SentPacket) :
    (p.packet.bytes.length : Int) + 10 = EMPTY_FRAME_SIZE ↔ p.text = [] := by
  rw [bytes_packet]
  constructor
  · intro hsize
    have hlength : (Utf8.encode p.text).length = 0 := by
      unfold EMPTY_FRAME_SIZE at hsize
      omega
    rw [← Utf8.decode_encode p.text, length_eq_zero_iff.mp hlength]
    rfl
  · intro htext
    rw [htext]
    rfl

theorem isEmptyResponse_iff (p : SentPacket) : p.isEmptyResponse = true ↔
      p.type = SERVERDATA_RESPONSE_VALUE ∧
        (p.packet.bytes.length : Int) + 10 = EMPTY_FRAME_SIZE := by
  rw [size_eq_iff, isEmptyResponse, Bool.and_eq_true, decide_eq_true_iff, List.isEmpty_iff]

theorem lastEmptyResponseId_eq_iff (earlier : List SentPacket) (id : Int) :
    (echoAfter earlier).lastEmptyResponseId = some id ↔ emptyRun earlier id % 2 = 1 := by
  unfold echoAfter
  split
  · next hnil => simp [emptyRun, hnil]
  · next last rest hcons =>
    by_cases hid : last.id = id
    · subst hid
      split <;> simp_all
    · have hrun : emptyRun earlier id = 0 := by
        unfold emptyRun
        rw [hcons, takeWhile_cons_of_neg (by simpa using hid)]
        rfl
      rw [hrun]
      split <;> simp [hid]

theorem echoAfter_cons_of_not (hp : p.isEmptyResponse = false) :
    echoAfter (p :: earlier) = echoAfter earlier := by
  unfold echoAfter
  rw [filter_cons_of_neg (by simp [hp])]
  simp only [emptyRun_cons_of_not hp]

theorem echoAfter_cons (hp : p.isEmptyResponse = true) : echoAfter (p :: earlier) =
      ⟨if emptyRun earlier p.id % 2 = 1 then none else some p.id, false⟩ := by
  unfold echoAfter
  rw [filter_cons_of_pos hp]
  simp only [emptyRun_cons hp]
  by_cases hrun : emptyRun earlier p.id % 2 = 1
  · rw [if_pos hrun, if_neg (by omega)]
  · rw [if_neg hrun, if_pos (by omega)]

/-- Reading a frame tracks what the server goes by. -/
theorem trackProbeEcho_echoAfter (earlier : List SentPacket) (p : SentPacket) :
    trackProbeEcho (echoAfter earlier) p.id p.type (p.packet.bytes.length + 10) =
      { echoAfter (p :: earlier) with expectProbeTail := followedByTail earlier p } := by
  have hlast := lastEmptyResponseId_eq_iff earlier p.id
  unfold trackProbeEcho followedByTail
  cases hp : p.isEmptyResponse with
  | false =>
    have hskip : p.type ≠ SERVERDATA_RESPONSE_VALUE ∨
        (p.packet.bytes.length : Int) + 10 ≠ EMPTY_FRAME_SIZE := by
      rw [← not_and_or, ← isEmptyResponse_iff, hp]
      exact Bool.false_ne_true
    rw [if_pos hskip, echoAfter_cons_of_not hp]
    rfl
  | true =>
    obtain ⟨htype, hsize⟩ := p.isEmptyResponse_iff.mp hp
    rw [if_neg (by simp [htype, hsize]), echoAfter_cons hp]
    by_cases hrun : emptyRun earlier p.id % 2 = 1
    · rw [if_pos (hlast.mpr hrun)]
      simp [hrun]
    · rw [if_neg (mt hlast.mp hrun)]
      simp [hrun, echoAfter]

/-! ## Decoding -/

theorem encodePacket_ne_nil (p : RconPacket) (rest : List UInt8) : encodePacket p ++ rest ≠ [] :=
  cons_ne_nil _ _

/-- A packet, with the tail where the server sends it, is read as that packet. -/
theorem drain_serverStream_cons (earlier : List SentPacket) (p : SentPacket)
    (packets : List SentPacket) :
    drain pushStep (echoAfter earlier) (serverStream earlier (p :: packets)) =
      Result.prepend [p.packet]
        (drain pushStep (echoAfter (p :: earlier)) (serverStream (p :: earlier) packets)) := by
  have hsize : (p.packet.bytes.length : Int) + 10 ≤ MAX_RCON_PACKET_SIZE := by
    rw [bytes_packet]
    exact p.size_le
  rw [serverStream, drain_eq_step pushStep_stable _ (encodePacket_ne_nil _ _),
    pushStep_of_not_expected rfl, readFrame_encodePacket _ _ _ p.id_int32 p.type_int32 hsize]
  show Result.prepend [p.packet] (drain pushStep (trackProbeEcho (echoAfter earlier) p.id p.type
    (p.packet.bytes.length + 10)) _) = _
  rw [trackProbeEcho_echoAfter]
  congr 1
  cases followedByTail earlier p with
  | false => rfl
  | true =>
    have hne : SQUAD_BROKEN_PROBE_TAIL ++ serverStream (p :: earlier) packets ≠ [] :=
      cons_ne_nil _ _
    have hlength : min (SQUAD_BROKEN_PROBE_TAIL ++ serverStream (p :: earlier) packets).length
        SQUAD_BROKEN_PROBE_TAIL.length = SQUAD_BROKEN_PROBE_TAIL.length := by
      rw [length_append]
      omega
    rw [if_pos rfl, drain_eq_step pushStep_stable _ hne]
    simp only [pushStep, if_true, hlength, take_left, take_length, ne_eq,
      not_true_eq_false, if_false, lt_irrefl, drop_left]
    exact Result.prepend_nil _

theorem drain_serverStream (earlier packets : List SentPacket) :
    drain pushStep (echoAfter earlier) (serverStream earlier packets) =
      .ok (packets.map packet, echoAfter (packets.reverse ++ earlier), []) := by
  induction packets generalizing earlier with
  | nil => rfl
  | cons p packets ih =>
    rw [drain_serverStream_cons, ih, reverse_cons, append_assoc]
    rfl

end SentPacket

/-- Decoding what the server writes, in whatever chunks it arrives, gives exactly the packets
it sent, in order, and leaves nothing in the buffer. -/
theorem pushAll_serverStream (packets : List SentPacket) (chunks : List (List UInt8))
    (hchunks : chunks.flatten = SentPacket.serverStream [] packets) :
    ∃ decoded echo, pushAll ({}, []) chunks = .ok (decoded, echo, []) ∧
      decoded.map (fun p => (p.id, p.type, p.body)) =
        packets.map fun p => (p.id, p.type, p.body) := by
  refine ⟨packets.map (·.packet), SentPacket.echoAfter (packets.reverse ++ []), ?_, ?_⟩
  · rw [pushAll_eq_push, hchunks]
    exact SentPacket.drain_serverStream [] packets
  · rw [map_map]
    apply map_congr_left
    intro p _
    exact congrArg (p.id, p.type, ·) p.body_packet

/-- Two answers to a probe, the tail, and a chat packet whose frame begins with the same bytes,
cut inside the tail. -/
theorem pushAll_serverStream_chat :
    let answer : SentPacket := ⟨5, SERVERDATA_RESPONSE_VALUE, [], by decide, by decide, by decide⟩
    let chat : SentPacket :=
      ⟨0, SERVERDATA_CHAT_VALUE, List.replicate 246 'a', by decide, by decide, by decide +kernel⟩
    let stream := SentPacket.serverStream [] [answer, answer, chat]
    SQUAD_BROKEN_PROBE_TAIL <+: encodePacket chat.packet ∧
      ∃ decoded echo, pushAll ({}, []) [stream.take 32, stream.drop 32] = .ok (decoded, echo, []) ∧
        decoded.map (fun p => (p.id, p.type, p.body)) =
          [answer, answer, chat].map fun p => (p.id, p.type, p.body) := by
  intro answer chat stream
  refine ⟨by decide +kernel, pushAll_serverStream [answer, answer, chat] _ ?_⟩
  rw [flatten_cons, flatten_cons, flatten_nil, append_nil, take_append_drop]

end SquadPanel.Rcon
