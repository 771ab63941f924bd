import SquadPanel.Js.Buffer
import SquadPanel.Lib.Incremental
import SquadPanel.Rcon.OperatorCommand

/-!
# The RCON packet stream

`apps/workers/rcon/src/protocol.ts`: packets on the wire and the decoder that
splits a TCP byte stream into packets, including the broken tail Squad sends
after its second answer to an empty probe.
-/

namespace SquadPanel.Rcon

open Js Lib Lib.Incremental List

/-! ## Packets -/

def SERVERDATA_RESPONSE_VALUE : Int := 0
def SERVERDATA_CHAT_VALUE : Int := 1

/-- A packet, with its body as the bytes on the wire. -/
structure RconPacket where
  id : Int
  type : Int
  bytes : List UInt8
  deriving DecidableEq

/-- The `body` string: `push` decodes the bytes of each packet on their own. -/
def RconPacket.body (p : RconPacket) : JsString := bufferToString p.bytes

def SQUAD_BROKEN_PROBE_TAIL : List UInt8 := [0x00, 0x01, 0x00, 0x00, 0x00, 0x00, 0x00]
def MAX_RCON_PACKET_SIZE : Int := 1024 * 1024
def EMPTY_FRAME_SIZE : Int := 10

/-- `Buffer.readInt32LE` -/
def readInt32LE (buf : List UInt8) (offset : Nat) : Int :=
  let byte (i : Nat) : Nat := (buf.getD (offset + i) 0).toNat
  let n : Nat := byte 0 + 2 ^ 8 * byte 1 + 2 ^ 16 * byte 2 + 2 ^ 24 * byte 3
  if n < 2 ^ 31 then n else (n : Int) - 2 ^ 32

/-- A template literal part: the decimal text of a number. -/
def intText (n : Int) : JsString :=
  if n < 0 then js "-" ++ decimal n.natAbs else decimal n.natAbs

/-- `Buffer.writeInt32LE`, on a value that fits. -/
def writeInt32LE (n : Int) : List UInt8 :=
  let m := (n % 2 ^ 32).toNat
  [UInt8.ofNat (m % 256), UInt8.ofNat (m / 256 % 256), UInt8.ofNat (m / 65536 % 256),
    UInt8.ofNat (m / 16777216)]

/-- `encodePacket`: the frame of a packet. -/
def encodePacket (p : RconPacket) : List UInt8 :=
  writeInt32LE (4 + 4 + p.bytes.length + 2) ++
    (writeInt32LE p.id ++ (writeInt32LE p.type ++ (p.bytes ++ [0, 0])))

/-! ## The decoder -/

/-- What `RconPacketStream` tracks besides its buffer. -/
structure ProbeEcho where
  lastEmptyResponseId : Option Int := none
  expectProbeTail : Bool := false
  deriving DecidableEq

/-- The fields of the class: the probe echo and the unconsumed bytes. -/
abbrev RconPacketStream := ProbeEcho × List UInt8

variable (echo : ProbeEcho)

def trackProbeEcho (id type size : Int) : ProbeEcho :=
  if type ≠ SERVERDATA_RESPONSE_VALUE ∨ size ≠ EMPTY_FRAME_SIZE then echo
  else if echo.lastEmptyResponseId = some id then
    { lastEmptyResponseId := none, expectProbeTail := true }
  else { echo with lastEmptyResponseId := some id }

variable (buf : List UInt8)

/-- The packet of a complete frame; its last two bytes are null terminators. -/
def framePacket (size : Int) : RconPacket where
  id := readInt32LE buf 4
  type := readInt32LE buf 8
  bytes := (buf.take (4 + size - 2).toNat).drop 12

/-- The part of an iteration that reads one frame. -/
def readFrame :
    Step ProbeEcho UInt8 RconPacket JsString :=
  if buf.length < 4 then .wait echo
  else
    let size := readInt32LE buf 0
    if size < EMPTY_FRAME_SIZE ∨ size > MAX_RCON_PACKET_SIZE then
      .fail (js "invalid RCON packet size: " ++ intText size)
    else if (buf.length : Int) - 4 < size then .wait echo
    else
      let packet := framePacket buf size
      .next (trackProbeEcho echo packet.id packet.type size) [packet] (buf.drop (4 + size).toNat)

/-- One iteration of the loop in `push`: strip the broken tail where it is expected,
else read one frame. -/
def pushStep :
    Step ProbeEcho UInt8 RconPacket JsString :=
  if echo.expectProbeTail then
    let n := min buf.length SQUAD_BROKEN_PROBE_TAIL.length
    if buf.take n ≠ SQUAD_BROKEN_PROBE_TAIL.take n then
      readFrame { echo with expectProbeTail := false } buf
    else if n < SQUAD_BROKEN_PROBE_TAIL.length then .wait echo
    else .next { echo with expectProbeTail := false } [] (buf.drop n)
  else readFrame echo buf

/-- `push`: the packets the chunk completes and the stream afterwards, or the thrown error. -/
def push (stream : RconPacketStream) (chunk : List UInt8) :
    Except JsString (List RconPacket × RconPacketStream) :=
  feed pushStep chunk stream

/-- Push the chunks one after the other and concatenate the returned lists; the first
error is thrown to the caller. -/
def pushAll : RconPacketStream → List (List UInt8) →
    Except JsString (List RconPacket × RconPacketStream)
  | stream, [] => .ok ([], stream)
  | stream, chunk :: chunks => do
    let (packets, stream') ← push stream chunk
    let (more, stream'') ← pushAll stream' chunks
    return (packets ++ more, stream'')

/-! ## Frames -/

theorem length_writeInt32LE (n : Int) : (writeInt32LE n).length = 4 := rfl

theorem readInt32LE_writeInt32LE {n : Int} (hmin : -2 ^ 31 ≤ n) (hmax : n < 2 ^ 31)
    (rest : List UInt8) : readInt32LE (writeInt32LE n ++ rest) 0 = n := by
  have hbyte (m : Nat) (h : m < 256) : (UInt8.ofNat m).toNat = m := UInt8.toNat_ofNat_of_lt h
  simp only [readInt32LE, writeInt32LE, cons_append, nil_append, getD_cons_zero,
    getD_cons_succ, Nat.add_zero, Nat.zero_add]
  rw [hbyte _ (by omega), hbyte _ (by omega), hbyte _ (by omega), hbyte _ (by omega)]
  split <;> omega

theorem readInt32LE_drop (front rest : List UInt8) (offset : Nat) :
    readInt32LE (front ++ rest) (front.length + offset) = readInt32LE rest offset := by
  have hbyte (i : Nat) :
      (front ++ rest).getD (front.length + offset + i) 0 = rest.getD (offset + i) 0 := by
    simp only [getD_eq_getElem?_getD]
    rw [getElem?_append_right (by omega)]
    congr 2
    omega
  unfold readInt32LE
  simp only [hbyte]

theorem readFrame_encodePacket (p : RconPacket) (rest : List UInt8)
    (hid : -2 ^ 31 ≤ p.id ∧ p.id < 2 ^ 31) (htype : -2 ^ 31 ≤ p.type ∧ p.type < 2 ^ 31)
    (hbytes : (p.bytes.length : Int) + 10 ≤ MAX_RCON_PACKET_SIZE) :
    readFrame echo (encodePacket p ++ rest) =
      .next (trackProbeEcho echo p.id p.type (p.bytes.length + 10)) [p] rest := by
  obtain ⟨id, type, bytes⟩ := p
  simp only at hid htype hbytes
  have hmax : (bytes.length : Int) + 10 ≤ 1048576 := hbytes
  have hsize : readInt32LE (encodePacket ⟨id, type, bytes⟩ ++ rest) 0 = bytes.length + 10 := by
    rw [encodePacket, append_assoc, readInt32LE_writeInt32LE] <;> simp only <;> omega
  have hreadId : readInt32LE (encodePacket ⟨id, type, bytes⟩ ++ rest) 4 = id := by
    rw [encodePacket, append_assoc]
    rw [show 4 = (writeInt32LE (4 + 4 + (bytes.length : Int) + 2)).length + 0 from rfl,
      readInt32LE_drop, append_assoc, readInt32LE_writeInt32LE hid.1 hid.2]
  have hreadType : readInt32LE (encodePacket ⟨id, type, bytes⟩ ++ rest) 8 = type := by
    rw [encodePacket, append_assoc]
    rw [show 8 = (writeInt32LE (4 + 4 + (bytes.length : Int) + 2)).length + 4 from rfl,
      readInt32LE_drop, append_assoc,
      show 4 = (writeInt32LE id).length + 0 from rfl, readInt32LE_drop, append_assoc,
      readInt32LE_writeInt32LE htype.1 htype.2]
  have hlayout : encodePacket ⟨id, type, bytes⟩ ++ rest =
      (writeInt32LE (4 + 4 + (bytes.length : Int) + 2) ++ writeInt32LE id ++ writeInt32LE type) ++
        bytes ++ [0, 0] ++ rest := by
    simp only [encodePacket, append_assoc]
  have hlength : (encodePacket ⟨id, type, bytes⟩ ++ rest).length =
      14 + bytes.length + rest.length := by
    simp only [hlayout, length_append, length_writeInt32LE, length_cons, length_nil]
    omega
  have hpacket : framePacket (encodePacket ⟨id, type, bytes⟩ ++ rest) (bytes.length + 10) =
      ⟨id, type, bytes⟩ := by
    have htake : (4 + ((bytes.length : Int) + 10) - 2).toNat = 12 + bytes.length := by omega
    have hlength' : (writeInt32LE (4 + 4 + (bytes.length : Int) + 2) ++ writeInt32LE id ++
        writeInt32LE type ++ bytes).length = 12 + bytes.length := by
      simp only [length_append, length_writeInt32LE]
    rw [framePacket, hreadId, hreadType, htake, hlayout, append_assoc _ [0, 0] rest,
      take_left' hlength', drop_left' (by simp [length_writeInt32LE])]
  have hdrop : (encodePacket ⟨id, type, bytes⟩ ++ rest).drop
      (4 + ((bytes.length : Int) + 10)).toNat = rest := by
    rw [hlayout]
    exact drop_left' (by simp [length_writeInt32LE]; omega)
  rw [readFrame, if_neg (by omega)]
  simp only [hsize]
  rw [if_neg (by unfold EMPTY_FRAME_SIZE; omega), if_neg (by omega), hpacket, hdrop]

/-! ## Stability under more input -/

theorem readInt32LE_append {a : List UInt8} (b : List UInt8) {offset : Nat}
    (hlength : offset + 4 ≤ a.length) : readInt32LE (a ++ b) offset = readInt32LE a offset := by
  have hbyte (i : Nat) (hi : i < 4) : (a ++ b).getD (offset + i) 0 = a.getD (offset + i) 0 := by
    simp only [getD_eq_getElem?_getD]
    rw [getElem?_append_left (by omega)]
  unfold readInt32LE
  simp only [hbyte 0 (by omega), hbyte 1 (by omega), hbyte 2 (by omega), hbyte 3 (by omega)]

theorem framePacket_append {a : List UInt8} (b : List UInt8) {size : Int}
    (hmin : 10 ≤ size) (hlength : size ≤ (a.length : Int) - 4) :
    framePacket (a ++ b) size = framePacket a size := by
  unfold framePacket
  rw [readInt32LE_append b (by omega), readInt32LE_append b (by omega),
    take_append_of_le_length (by omega)]

variable {echo : ProbeEcho}

theorem readFrame_wait {echo' : ProbeEcho} {buf : List UInt8}
    (hwait : readFrame echo buf = .wait echo') : echo' = echo := by
  unfold readFrame at hwait
  grind

theorem readFrame_stable : Stable readFrame := by
  intro echo buf
  by_cases hshort : buf.length < 4
  · exact .wait echo (by rw [readFrame, if_pos hshort]) fun b => rfl
  · have hsize (b : List UInt8) : readInt32LE (buf ++ b) 0 = readInt32LE buf 0 :=
      readInt32LE_append b (by omega)
    have hlong (b : List UInt8) : ¬(buf ++ b).length < 4 := by
      rw [length_append]
      omega
    by_cases hrange : readInt32LE buf 0 < EMPTY_FRAME_SIZE ∨
        readInt32LE buf 0 > MAX_RCON_PACKET_SIZE
    · refine .fail (js "invalid RCON packet size: " ++ intText (readInt32LE buf 0)) fun b => ?_
      simp only [readFrame, if_neg (hlong b), hsize b, if_pos hrange]
    · by_cases hwait : (buf.length : Int) - 4 < readInt32LE buf 0
      · refine .wait echo ?_ fun b => rfl
        simp only [readFrame, if_neg hshort, if_neg hrange, if_pos hwait]
      · have hmin : 10 ≤ readInt32LE buf 0 := by
          unfold EMPTY_FRAME_SIZE at hrange
          omega
        have hlength : readInt32LE buf 0 ≤ (buf.length : Int) - 4 := by omega
        refine .next (trackProbeEcho echo (readInt32LE buf 4) (readInt32LE buf 8)
          (readInt32LE buf 0)) [framePacket buf (readInt32LE buf 0)]
          (buf.drop (4 + readInt32LE buf 0).toNat) ?_ fun b => ?_
        · rw [length_drop]
          omega
        · have hwait' : ¬((buf ++ b).length : Int) - 4 < readInt32LE buf 0 := by
            rw [length_append]
            omega
          simp only [readFrame, if_neg (hlong b), hsize b, if_neg hrange, if_neg hwait',
            framePacket_append b hmin hlength]
          rw [drop_append_of_le_length (by omega)]
          rfl

/-- A mismatch with the tail is not undone by more input. -/
theorem take_ne_append {a tail : List UInt8} (b : List UInt8)
    (hne : a.take (min a.length tail.length) ≠ tail.take (min a.length tail.length)) :
    (a ++ b).take (min (a ++ b).length tail.length) ≠
      tail.take (min (a ++ b).length tail.length) := by
  intro heq
  apply hne
  have hprefix := congrArg (List.take (min a.length tail.length)) heq
  rw [take_take, take_take] at hprefix
  have hmin : min (min a.length tail.length) (min (a ++ b).length tail.length) =
      min a.length tail.length := by
    rw [length_append]
    omega
  rwa [hmin, take_append_of_le_length (by omega)] at hprefix

theorem pushStep_of_not_expected (hexpect : echo.expectProbeTail = false)
    (buf : List UInt8) : pushStep echo buf = readFrame echo buf := by
  simp [pushStep, hexpect]

/-- An iteration that reads a frame on every extension of the buffer is decided as the
frame is. -/
theorem decided_of_readFrame (echo' : ProbeEcho) {buf : List UInt8}
    (hexpect : echo'.expectProbeTail = false)
    (hread : ∀ b, pushStep echo (buf ++ b) = readFrame echo' (buf ++ b)) :
    Decided pushStep echo buf := by
  have hnil := hread []
  rw [append_nil] at hnil
  rcases readFrame_stable echo' buf with ⟨s, hstep, hmore⟩ | ⟨message, hmore⟩ |
    ⟨s, packets, rest, hshort, hmore⟩
  · have heq : s = echo' := readFrame_wait hstep
    subst heq
    exact .wait s (hnil.trans hstep) fun b => by rw [hread b, pushStep_of_not_expected hexpect]
  · exact .fail message fun b => by rw [hread b, hmore b]
  · exact .next s packets rest hshort fun b => by rw [hread b, hmore b]

theorem pushStep_stable : Stable pushStep := by
  intro echo buf
  cases hexpect : echo.expectProbeTail with
  | false => exact decided_of_readFrame echo hexpect fun b => pushStep_of_not_expected hexpect _
  | true =>
    by_cases hne : buf.take (min buf.length SQUAD_BROKEN_PROBE_TAIL.length) ≠
        SQUAD_BROKEN_PROBE_TAIL.take (min buf.length SQUAD_BROKEN_PROBE_TAIL.length)
    · refine decided_of_readFrame { echo with expectProbeTail := false } rfl fun b => ?_
      simp only [pushStep, hexpect, if_true, if_pos (take_ne_append b hne)]
    · by_cases hpart : min buf.length SQUAD_BROKEN_PROBE_TAIL.length <
          SQUAD_BROKEN_PROBE_TAIL.length
      · refine .wait echo ?_ fun b => rfl
        simp only [pushStep, hexpect, if_true, if_neg hne, if_pos hpart]
      · have hfull : SQUAD_BROKEN_PROBE_TAIL.length ≤ buf.length := by omega
        have hmin (b : List UInt8) : min (buf ++ b).length SQUAD_BROKEN_PROBE_TAIL.length =
            SQUAD_BROKEN_PROBE_TAIL.length := by
          rw [length_append]
          omega
        rw [Nat.min_eq_right hfull] at hne
        refine .next { echo with expectProbeTail := false } []
          (buf.drop SQUAD_BROKEN_PROBE_TAIL.length) ?_ fun b => ?_
        · have hpos : 0 < SQUAD_BROKEN_PROBE_TAIL.length := by decide
          rw [length_drop]
          omega
        · simp only [pushStep, hexpect, if_true, hmin b,
            take_append_of_le_length hfull, if_neg hne, lt_irrefl, if_false,
            drop_append_of_le_length hfull]

/-! ## Chunks do not matter -/

theorem pushAll_eq_feedAll (stream : RconPacketStream) (chunks : List (List UInt8)) :
    pushAll stream chunks = feedAll pushStep chunks stream := by
  induction chunks generalizing stream with
  | nil => rfl
  | cons chunk chunks ih =>
    rw [pushAll, feedAll, push]
    cases feed pushStep chunk stream with
    | error message => rfl
    | ok r =>
      obtain ⟨packets, stream'⟩ := r
      simp only [bind, Except.bind, ih stream', Result.resume]
      cases feedAll pushStep chunks stream' <;> rfl

/-- Pushing a byte string in chunks, however it is cut, gives the packets, the stream
and the error that pushing it at once gives. -/
theorem pushAll_eq_push (chunks : List (List UInt8)) :
    pushAll ({}, []) chunks = push ({}, []) chunks.flatten := by
  rw [pushAll_eq_feedAll]
  exact feedAll_eq_feed pushStep_stable chunks {}

end SquadPanel.Rcon
