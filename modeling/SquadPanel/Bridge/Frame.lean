import SquadPanel.Js.Buffer
import SquadPanel.Js.Number
import SquadPanel.Lib.Incremental

/-!
# Bridge frames

The wire format between the panel and the host bridge: a 4-byte big-endian length and a
JSON payload.  The panel's side is `packages/bridge-client/src/frame.ts`, the bridge's
side `apps/bridge/internal/rpc/frame.go`.
-/

namespace SquadPanel.Bridge

open Js Lib.Incremental List

/-! ## Big-endian words -/

/-- `Buffer.readUInt32BE`, `binary.BigEndian.Uint32` -/
def readUInt32BE (buf : List UInt8) (offset : Nat) : Nat :=
  let byte (i : Nat) : Nat := (buf.getD (offset + i) 0).toNat
  2 ^ 24 * byte 0 + 2 ^ 16 * byte 1 + 2 ^ 8 * byte 2 + byte 3

/-- `Buffer.writeUInt32BE`, `binary.BigEndian.PutUint32` -/
def writeUInt32BE (n : Nat) : List UInt8 :=
  [UInt8.ofNat (n / 2 ^ 24 % 256), UInt8.ofNat (n / 2 ^ 16 % 256), UInt8.ofNat (n / 2 ^ 8 % 256),
    UInt8.ofNat (n % 256)]

theorem length_writeUInt32BE (n : Nat) : (writeUInt32BE n).length = 4 := rfl

theorem readUInt32BE_writeUInt32BE {n : Nat} (hn : n < 2 ^ 32) (rest : List UInt8) :
    readUInt32BE (writeUInt32BE n ++ rest) 0 = n := by
  have hbyte (m : Nat) (h : m < 256) : (UInt8.ofNat m).toNat = m := UInt8.toNat_ofNat_of_lt h
  simp only [readUInt32BE, writeUInt32BE, cons_append, nil_append, getD_cons_zero,
    getD_cons_succ, Nat.add_zero, Nat.zero_add]
  rw [hbyte _ (by omega), hbyte _ (by omega), hbyte _ (by omega), hbyte _ (by omega)]
  omega

theorem readUInt32BE_append {a : List UInt8} (b : List UInt8) (hlength : 4 ≤ a.length) :
    readUInt32BE (a ++ b) 0 = readUInt32BE a 0 := by
  have hbyte (i : Nat) (hi : i < 4) : (a ++ b).getD (0 + i) 0 = a.getD (0 + i) 0 := by
    simp only [getD_eq_getElem?_getD]
    rw [getElem?_append_left (by omega)]
  unfold readUInt32BE
  simp only [hbyte 0 (by omega), hbyte 1 (by omega), hbyte 2 (by omega), hbyte 3 (by omega)]

theorem readUInt32BE_take {buf : List UInt8} (hlength : 4 ≤ buf.length) :
    readUInt32BE (buf.take 4) 0 = readUInt32BE buf 0 := by
  have hhead : 4 ≤ (buf.take 4).length := by
    rw [length_take]
    omega
  rw [← readUInt32BE_append (buf.drop 4) hhead, take_append_drop]

/-! ## The panel's side -/

def BRIDGE_MAX_FRAME_BYTES : Nat := 16 * 1024 * 1024

structure FrameTooLargeError where
  size : Nat
  deriving DecidableEq

def FrameTooLargeError.code (_ : FrameTooLargeError) : JsString := js "frame_too_large"

def FrameTooLargeError.message (e : FrameTooLargeError) : JsString :=
  js "bridge frame exceeds max size: " ++ decimalText e.size ++ js " > " ++
    decimalText BRIDGE_MAX_FRAME_BYTES

/-- A header and the payload it announces. -/
def frame (payload : List UInt8) : List UInt8 := writeUInt32BE payload.length ++ payload

/-- `encodeFrame` on the bytes of the serialised payload. -/
def encodeBody (body : List UInt8) : Except FrameTooLargeError (List UInt8) :=
  if body.length > BRIDGE_MAX_FRAME_BYTES then .error ⟨body.length⟩
  else .ok (frame body)

/-- `encodeFrame`, over the `JSON.stringify` of the runtime. -/
def encodeFrame {α : Type} (stringify : α → JsString) (payload : α) :
    Except FrameTooLargeError (List UInt8) :=
  encodeBody (bufferFromUtf8 (stringify payload))

structure FrameDecoderChunk where
  frames : List (List UInt8)
  remainder : List UInt8
  deriving DecidableEq

/-- One iteration of the loop in `decodeFrames`, on the bytes from `offset` on. -/
def decodeStep (_ : Unit) (buf : List UInt8) :
    Step Unit UInt8 (List UInt8) FrameTooLargeError :=
  if buf.length < 4 then .wait ()
  else
    let size := readUInt32BE buf 0
    if size > BRIDGE_MAX_FRAME_BYTES then .fail ⟨size⟩
    else if buf.length - 4 < size then .wait ()
    else .next () [(buf.drop 4).take size] (buf.drop (4 + size))

def decodeFrames (buffer : List UInt8) : Except FrameTooLargeError FrameDecoderChunk :=
  (drain decodeStep () buffer).map fun (frames, _, remainder) => ⟨frames, remainder⟩

/-- The fields of the class; the counter counts the queued bytes. -/
structure FrameAccumulator where
  chunks : List (List UInt8)
  queuedBytes : Nat
  queuedBytes_eq : queuedBytes = chunks.flatten.length

namespace FrameAccumulator

/-- A new accumulator, and one after `reset`. -/
def empty : FrameAccumulator := ⟨[], 0, rfl⟩

variable (acc : FrameAccumulator)

/-- `this.chunks.push(chunk)` with the counter -/
def queue (chunk : List UInt8) : FrameAccumulator where
  chunks := acc.chunks ++ [chunk]
  queuedBytes := acc.queuedBytes + chunk.length
  queuedBytes_eq := by simp [acc.queuedBytes_eq]

/-- The unconsumed part of a joined buffer, kept as a copy. -/
def retain (remainder : List UInt8) : FrameAccumulator where
  chunks := if remainder.length > 0 then [remainder] else []
  queuedBytes := remainder.length
  queuedBytes_eq := by
    cases remainder <;> simp

/-- `nextFrameSize`: the header may be spread over several chunks. -/
def nextFrameSize : Nat :=
  let head := acc.chunks.headD []
  let header := if head.length ≥ 4 then head else acc.chunks.flatten.take 4
  readUInt32BE header 0

/-- `push`: the returned frames or the thrown error, and the accumulator afterwards.  The
chunk stays queued when an error is thrown. -/
def push (chunk : List UInt8) :
    Except FrameTooLargeError (List (List UInt8)) × FrameAccumulator :=
  let queued := acc.queue chunk
  if queued.queuedBytes < 4 then (.ok [], queued)
  else
    let size := queued.nextFrameSize
    if size > BRIDGE_MAX_FRAME_BYTES then (.error ⟨size⟩, queued)
    else if queued.queuedBytes < 4 + size then (.ok [], queued)
    else
      let joined := if queued.chunks.length = 1 then chunk else queued.chunks.flatten
      match decodeFrames joined with
      | .error e => (.error e, queued)
      | .ok ⟨frames, remainder⟩ => (.ok frames, retain remainder)

/-- Push the chunks one after the other and collect the frames; the first error ends it. -/
def pushAll : FrameAccumulator → List (List UInt8) →
    Except FrameTooLargeError (List (List UInt8)) × FrameAccumulator
  | acc, [] => (.ok [], acc)
  | acc, chunk :: chunks =>
    match acc.push chunk with
    | (.error e, acc') => (.error e, acc')
    | (.ok frames, acc') =>
      let (more, acc'') := pushAll acc' chunks
      (more.map (frames ++ ·), acc'')

/-- The bytes kept for the next push. -/
def bytes : List UInt8 := acc.chunks.flatten

end FrameAccumulator

/-! ## The bridge's side -/

namespace Rpc

def MaxFrame : Nat := 16 <<< 20

inductive FrameError
  | EOF
  | ErrUnexpectedEOF
  | ErrFrameTooLarge
  deriving DecidableEq

/-- `io.ReadFull` on a reader that delivers `r` and then ends: the bytes read and what is
left, `EOF` when there was nothing to read. -/
def readFull (n : Nat) (r : List UInt8) : Except FrameError (List UInt8 × List UInt8) :=
  if n ≤ r.length then .ok (r.take n, r.drop n)
  else if r = [] then .error .EOF
  else .error .ErrUnexpectedEOF

/-- `ReadFrame`: the payload and the rest of the stream. -/
def readFrame (r : List UInt8) : Except FrameError (List UInt8 × List UInt8) := do
  let (header, r) ← readFull 4 r
  let size := readUInt32BE header 0
  if size = 0 then return ([], r)
  if size > MaxFrame then throw .ErrFrameTooLarge
  readFull size r

/-- `WriteFrame`: the bytes of the one `Write`. -/
def writeFrame (payload : List UInt8) : Except FrameError (List UInt8) :=
  if payload.length > MaxFrame then .error .ErrFrameTooLarge
  else .ok (writeUInt32BE payload.length ++ payload)

/-- Frames read until an error ends the connection, at most `fuel` of them. -/
def readFramesFuel : Nat → List UInt8 → List (List UInt8) × FrameError
  | 0, _ => ([], .EOF)
  | fuel + 1, r =>
    match readFrame r with
    | .error e => ([], e)
    | .ok (payload, r') =>
      let (payloads, e) := readFramesFuel fuel r'
      (payload :: payloads, e)

/-- The loop of the connection handler over `ReadFrame`; each frame takes four bytes at
least. -/
def readFrames (r : List UInt8) : List (List UInt8) × FrameError :=
  readFramesFuel (r.length + 1) r

end Rpc

end SquadPanel.Bridge
