import SquadPanel.Bridge.Frame

/-!
# Frames over a stream

The panel reads frames from a queue of chunks or from a whole buffer, the bridge from a
blocking reader.  All three take the same frames from the same bytes, however the bytes
are cut.
-/

namespace SquadPanel.Bridge

open Lib.Incremental List FrameAccumulator

/-! ## One frame -/

variable {payload : List UInt8} {payloads : List (List UInt8)}

section
variable (hfit : payload.length ≤ BRIDGE_MAX_FRAME_BYTES)
include hfit

theorem encodeBody_of_le : encodeBody payload = .ok (frame payload) := if_neg (by omega)

theorem writeFrame_of_le :
    Rpc.writeFrame payload = .ok (frame payload) := if_neg (not_lt.2 hfit)

theorem decodeStep_frame (rest : List UInt8) :
    decodeStep () (frame payload ++ rest) = .next () [payload] rest := by
  have hmax : BRIDGE_MAX_FRAME_BYTES < 2 ^ 32 := by decide
  have hsize : readUInt32BE (frame payload ++ rest) 0 = payload.length := by
    exact readUInt32BE_writeUInt32BE (by omega) _
  have hlength : (frame payload ++ rest).length = 4 + payload.length + rest.length := by
    simp only [frame, length_append, length_writeUInt32BE]
  have hbody : ((frame payload ++ rest).drop 4).take payload.length = payload := by
    rw [frame, append_assoc, drop_left' (length_writeUInt32BE _), take_left' rfl]
  have hrest : (frame payload ++ rest).drop (4 + payload.length) = rest :=
    drop_left' (by simp only [frame, length_append, length_writeUInt32BE])
  rw [decodeStep, if_neg (by omega)]
  simp only [hsize]
  rw [if_neg (by omega), if_neg (by omega), hbody, hrest]

end

theorem decodeStep_stable : Stable decodeStep := by
  intro _ buf
  by_cases hshort : buf.length < 4
  · exact .wait () (by rw [decodeStep, if_pos hshort]) fun b => rfl
  · have hsize (b : List UInt8) : readUInt32BE (buf ++ b) 0 = readUInt32BE buf 0 :=
      readUInt32BE_append b (by omega)
    have hlong (b : List UInt8) : ¬(buf ++ b).length < 4 := by
      rw [length_append]
      omega
    by_cases hmax : readUInt32BE buf 0 > BRIDGE_MAX_FRAME_BYTES
    · refine .fail ⟨readUInt32BE buf 0⟩ fun b => ?_
      simp only [decodeStep, if_neg (hlong b), hsize b, if_pos hmax]
    · by_cases hwait : buf.length - 4 < readUInt32BE buf 0
      · refine .wait () ?_ fun b => rfl
        simp only [decodeStep, if_neg hshort, if_neg hmax, if_pos hwait]
      · refine .next () [(buf.drop 4).take (readUInt32BE buf 0)]
          (buf.drop (4 + readUInt32BE buf 0)) ?_ fun b => ?_
        · rw [length_drop]
          omega
        · have hwait' : ¬(buf ++ b).length - 4 < readUInt32BE buf 0 := by
            rw [length_append]
            omega
          simp only [decodeStep, if_neg (hlong b), hsize b, if_neg hmax, if_neg hwait']
          rw [drop_append_of_le_length (by omega), drop_append_of_le_length (by omega),
            take_append_of_le_length (by rw [length_drop]; omega)]

/-- Less than one complete frame. -/
def Incomplete (buf : List UInt8) : Prop :=
  buf.length < 4 ∨ buf.length < 4 + readUInt32BE buf 0

/-! ## Whole buffers -/

theorem drain_frames (hfit : ∀ p ∈ payloads, p.length ≤ BRIDGE_MAX_FRAME_BYTES) :
    drain decodeStep () (payloads.flatMap frame) = .ok (payloads, (), []) := by
  induction payloads with
  | nil => rfl
  | cons payload payloads ih =>
    have hne : frame payload ++ payloads.flatMap frame ≠ [] := by
      simp [frame, writeUInt32BE]
    rw [flatMap_cons, drain_eq_step decodeStep_stable () hne,
      decodeStep_frame (hfit payload mem_cons_self)]
    simp only
    rw [ih fun p hp => hfit p (mem_cons_of_mem _ hp)]
    rfl

/-! ## The queue of chunks -/

namespace FrameAccumulator

@[simp] theorem bytes_empty : empty.bytes = [] := rfl

variable (acc : FrameAccumulator) (chunk : List UInt8)

@[simp] theorem bytes_queue : (acc.queue chunk).bytes = acc.bytes ++ chunk := by
  simp [bytes, queue]

@[simp] theorem bytes_retain (remainder : List UInt8) : (retain remainder).bytes = remainder := by
  cases remainder <;> simp [bytes, retain]

theorem queuedBytes_eq_length : acc.queuedBytes = acc.bytes.length :=
  acc.queuedBytes_eq

theorem nextFrameSize_eq {acc : FrameAccumulator} (hlength : 4 ≤ acc.bytes.length) :
    acc.nextFrameSize = readUInt32BE acc.bytes 0 := by
  unfold nextFrameSize
  simp only
  split
  · next hhead =>
    unfold bytes
    cases hchunks : acc.chunks with
    | nil => simp [hchunks] at hhead
    | cons head chunks =>
      rw [hchunks, headD_cons] at hhead
      rw [headD_cons, flatten_cons, readUInt32BE_append _ hhead]
  · exact readUInt32BE_take hlength

/-- The buffer that is decoded is all that is queued, joined or not. -/
theorem joined_eq :
    (if (acc.queue chunk).chunks.length = 1 then chunk else (acc.queue chunk).chunks.flatten) =
      acc.bytes ++ chunk := by
  split
  · next hone =>
    have hnil : acc.chunks = [] := by
      simpa [queue] using hone
    simp [bytes, hnil]
  · exact bytes_queue acc chunk

/-- `push` decodes what is queued as if it were one buffer. -/
theorem push_eq_feed : (acc.push chunk).1 = (feed decodeStep chunk ((), acc.bytes)).map (·.1) ∧
      ∀ frames rest, feed decodeStep chunk ((), acc.bytes) = .ok (frames, (), rest) →
        (acc.push chunk).2.bytes = rest := by
  show _ = (drain decodeStep () (acc.bytes ++ chunk)).map _ ∧
    ∀ frames rest, drain decodeStep () (acc.bytes ++ chunk) = _ → _
  have hqueued : (acc.queue chunk).queuedBytes = (acc.bytes ++ chunk).length := by
    rw [queuedBytes_eq_length, bytes_queue]
  have hwaits (hwait : decodeStep () (acc.bytes ++ chunk) = .wait ()) :
      drain decodeStep () (acc.bytes ++ chunk) = .ok ([], (), acc.bytes ++ chunk) := by
    by_cases hempty : acc.bytes ++ chunk = []
    · rw [hempty]
      rfl
    · rw [drain_eq_step decodeStep_stable () hempty, hwait]
  have hkept (frames : List (List UInt8)) (rest : List UInt8)
      (hwait : decodeStep () (acc.bytes ++ chunk) = .wait ())
      (hdrain : drain decodeStep () (acc.bytes ++ chunk) = .ok (frames, (), rest)) :
      (acc.queue chunk).bytes = rest := by
    rw [hwaits hwait] at hdrain
    cases hdrain
    exact bytes_queue acc chunk
  unfold push
  simp only [hqueued]
  split
  · next hshort =>
    have hwait : decodeStep () (acc.bytes ++ chunk) = .wait () := if_pos hshort
    rw [hwaits hwait]
    exact ⟨rfl, fun frames rest h => hkept frames rest hwait (hwaits hwait ▸ h)⟩
  · next hlong =>
    have hsize : (acc.queue chunk).nextFrameSize = readUInt32BE (acc.bytes ++ chunk) 0 := by
      rw [nextFrameSize_eq (by rw [bytes_queue]; omega), bytes_queue]
    rw [hsize, joined_eq]
    split
    · next hmax =>
      have hne : acc.bytes ++ chunk ≠ [] := by
        intro hnil
        rw [hnil] at hlong
        exact hlong (by decide)
      have hfail : decodeStep () (acc.bytes ++ chunk) =
          .fail ⟨readUInt32BE (acc.bytes ++ chunk) 0⟩ := by
        simp only [decodeStep, if_neg hlong, if_pos hmax]
      rw [drain_eq_step decodeStep_stable () hne, hfail]
      exact ⟨rfl, nofun⟩
    · next hmax =>
      split
      · next hpart =>
        have hwait : decodeStep () (acc.bytes ++ chunk) = .wait () := by
          simp only [decodeStep, if_neg hlong, if_neg hmax]
          exact if_pos (by omega)
        rw [hwaits hwait]
        exact ⟨rfl, fun frames rest h => hkept frames rest hwait (hwaits hwait ▸ h)⟩
      · unfold decodeFrames
        cases hdrain : drain decodeStep () (acc.bytes ++ chunk) with
        | error e => exact ⟨rfl, nofun⟩
        | ok r =>
          obtain ⟨frames, _, rest⟩ := r
          refine ⟨rfl, fun frames' rest' h => ?_⟩
          cases h
          exact bytes_retain rest

theorem pushAll_eq_feedAll (chunks : List (List UInt8)) :
    (acc.pushAll chunks).1 = (feedAll decodeStep chunks ((), acc.bytes)).map (·.1) ∧
      ∀ frames rest, feedAll decodeStep chunks ((), acc.bytes) = .ok (frames, (), rest) →
        (acc.pushAll chunks).2.bytes = rest := by
  induction chunks generalizing acc with
  | nil =>
    refine ⟨rfl, fun frames rest h => ?_⟩
    cases h
    rfl
  | cons chunk chunks ih =>
    obtain ⟨hframes, hbytes⟩ := push_eq_feed acc chunk
    rw [pushAll, feedAll]
    cases hfeed : feed decodeStep chunk ((), acc.bytes) with
    | error e =>
      rw [hfeed] at hframes
      rcases hpush : acc.push chunk with ⟨result, acc'⟩
      rw [hpush] at hframes
      have hresult : result = .error e := hframes
      subst hresult
      exact ⟨rfl, fun _ _ h => by cases h⟩
    | ok r =>
      obtain ⟨frames, _, rest⟩ := r
      have hrest := hbytes frames rest hfeed
      rw [hfeed] at hframes
      rcases hpush : acc.push chunk with ⟨result, acc'⟩
      rw [hpush] at hframes hrest
      have hresult : result = .ok frames := hframes
      subst hresult
      obtain ⟨hmore, hlast⟩ := ih acc'
      have hbuffer : acc'.bytes = rest := hrest
      rw [hbuffer] at hmore hlast
      simp only [Result.resume, hmore]
      cases hlater : feedAll decodeStep chunks ((), rest) with
      | error e => exact ⟨rfl, fun _ _ h => by cases h⟩
      | ok r =>
        obtain ⟨frames', _, rest'⟩ := r
        refine ⟨rfl, fun frames'' rest'' h => ?_⟩
        cases h
        exact hlast frames' rest' hlater

/-- However the bytes are cut, the pushes return the frames of the whole. -/
theorem pushAll_eq_decodeFrames (chunks : List (List UInt8)) :
    (empty.pushAll chunks).1 = (decodeFrames chunks.flatten).map (·.frames) := by
  rw [(pushAll_eq_feedAll empty chunks).1, bytes_empty, feedAll_eq_feed decodeStep_stable]
  show (drain decodeStep () ([] ++ chunks.flatten)).map _ = _
  rw [nil_append, decodeFrames]
  cases drain decodeStep () chunks.flatten <;> rfl

/-- As long as nothing was thrown, less than one frame is retained. -/
theorem incomplete_of_pushAll {chunks : List (List UInt8)} {frames : List (List UInt8)}
    (hpushed : (empty.pushAll chunks).1 = .ok frames) :
    Incomplete (empty.pushAll chunks).2.bytes := by
  obtain ⟨hframes, hbytes⟩ := pushAll_eq_feedAll empty chunks
  rw [bytes_empty, feedAll_eq_feed decodeStep_stable] at hframes hbytes
  cases hfeed : feed decodeStep chunks.flatten ((), []) with
  | error e =>
    rw [hpushed, hfeed] at hframes
    cases hframes
  | ok r =>
    obtain ⟨frames', _, rest⟩ := r
    rw [hbytes frames' rest hfeed]
    rcases drain_waits decodeStep_stable hfeed with rfl | ⟨_, hwait⟩
    · exact .inl (by decide)
    · unfold decodeStep at hwait
      unfold Incomplete
      grind

end FrameAccumulator

/-! ## The blocking reader -/

namespace Rpc

theorem maxFrame_eq : MaxFrame = BRIDGE_MAX_FRAME_BYTES := by decide

variable {r : List UInt8}

theorem readFull_of_le {n : Nat} (hlength : n ≤ r.length) :
    readFull n r = .ok (r.take n, r.drop n) := if_pos hlength

theorem readFull_of_lt {n : Nat} (hlength : r.length < n) :
    readFull n r = .error (if r = [] then .EOF else .ErrUnexpectedEOF) := by
  rw [readFull, if_neg (by omega)]
  split <;> rfl

/-- The reader's one frame, once the header is there. -/
theorem readFrame_of_le (hlength : 4 ≤ r.length) : readFrame r =
      if readUInt32BE r 0 > BRIDGE_MAX_FRAME_BYTES then .error .ErrFrameTooLarge
      else readFull (readUInt32BE r 0) (r.drop 4) := by
  simp only [readFrame, readFull_of_le hlength, bind, Except.bind, maxFrame_eq]
  rw [readUInt32BE_take hlength]
  by_cases hzero : readUInt32BE r 0 = 0
  · rw [if_pos hzero, hzero, if_neg (by decide), readFull_of_le (Nat.zero_le _)]
    rfl
  · rw [if_neg hzero]
    split <;> rfl

/-- What an iteration of the panel's decoder does, the reader does on the same bytes. -/
theorem readFrame_of_decodeStep (r : List UInt8) : match decodeStep () r with
    | .wait _ => ∃ e, readFrame r = .error e ∧ e ≠ .ErrFrameTooLarge ∧ (r = [] → e = .EOF)
    | .fail _ => readFrame r = .error .ErrFrameTooLarge
    | .next _ frames rest => ∃ payload, frames = [payload] ∧ readFrame r = .ok (payload, rest) := by
  have hended (r : List UInt8) :
      (if r = [] then FrameError.EOF else .ErrUnexpectedEOF) ≠ .ErrFrameTooLarge := by
    split <;> decide
  unfold decodeStep
  by_cases hshort : r.length < 4
  · rw [if_pos hshort]
    have hread : readFrame r = .error (if r = [] then .EOF else .ErrUnexpectedEOF) := by
      rw [readFrame, readFull_of_lt hshort]
      rfl
    exact ⟨_, hread, hended r, fun hnil => if_pos hnil⟩
  · rw [if_neg hshort, readFrame_of_le (by omega)]
    by_cases hmax : readUInt32BE r 0 > BRIDGE_MAX_FRAME_BYTES
    · simp only [if_pos hmax]
    · by_cases hwait : r.length - 4 < readUInt32BE r 0
      · simp only [if_neg hmax, if_pos hwait]
        refine ⟨_, readFull_of_lt (by rw [length_drop]; exact hwait), hended _, ?_⟩
        rintro rfl
        exact absurd (by decide) hshort
      · simp only [if_neg hmax, if_neg hwait]
        refine ⟨_, rfl, ?_⟩
        rw [readFull_of_le (by rw [length_drop]; omega), drop_drop]

/-- The reader's frames are the decoder's; it ends with a refusal where the decoder throws. -/
theorem readFramesFuel_of_drain {fuel : Nat} (hfuel : r.length < fuel) :
    match drain decodeStep () r with
    | .ok (frames, _, rest) =>
      (readFramesFuel fuel r).1 = frames ∧ (readFramesFuel fuel r).2 ≠ .ErrFrameTooLarge ∧
        (rest = [] → (readFramesFuel fuel r).2 = .EOF)
    | .error _ => (readFramesFuel fuel r).2 = .ErrFrameTooLarge := by
  induction fuel generalizing r with
  | zero => omega
  | succ fuel ih =>
    have hframe := readFrame_of_decodeStep r
    by_cases hempty : r = []
    · subst hempty
      exact ⟨rfl, FrameError.noConfusion, fun _ => rfl⟩
    · rw [drain_eq_step decodeStep_stable () hempty, readFramesFuel]
      cases hstep : decodeStep () r with
      | wait _ =>
        rw [hstep] at hframe
        obtain ⟨e, hread, hsize, -⟩ := hframe
        rw [hread]
        exact ⟨rfl, hsize, fun hnil => absurd hnil hempty⟩
      | fail e =>
        rw [hstep] at hframe
        rw [show readFrame r = _ from hframe]
      | next _ frames rest =>
        rw [hstep] at hframe
        obtain ⟨payload, rfl, hread⟩ := hframe
        have hshort := decodeStep_stable.shrinks hstep
        have hlater := ih (show rest.length < fuel by omega)
        rw [hread]
        simp only
        cases hdrain : drain decodeStep () rest with
        | error e =>
          rw [hdrain] at hlater
          exact hlater
        | ok result =>
          obtain ⟨frames, _, last⟩ := result
          rw [hdrain] at hlater
          exact ⟨congrArg (payload :: ·) hlater.1, hlater.2⟩

end Rpc

/-- The two sides read the same from a stream: the same frames where none is refused, and
a refusal of the one is a refusal of the other. -/
def ReadAlike (stream : List UInt8) : Prop :=
  match decodeFrames stream with
  | .ok chunk =>
    (Rpc.readFrames stream).1 = chunk.frames ∧
      (Rpc.readFrames stream).2 ≠ .ErrFrameTooLarge ∧
        (chunk.remainder = [] → (Rpc.readFrames stream).2 = .EOF)
  | .error _ => (Rpc.readFrames stream).2 = .ErrFrameTooLarge

theorem readAlike (stream : List UInt8) : ReadAlike stream := by
  have hread := Rpc.readFramesFuel_of_drain (Nat.lt_succ_self stream.length)
  unfold ReadAlike decodeFrames
  cases hdrain : drain decodeStep () stream with
  | error e | ok result =>
    rw [hdrain] at hread
    exact hread

/-! ## Every cut gives the same frames -/

/-- Nothing is thrown on the first part of a stream that is read to its end. -/
theorem pushAll_ok_of_append {front back : List (List UInt8)} {chunk : FrameDecoderChunk}
    (hwhole : decodeFrames (front ++ back).flatten = .ok chunk) :
    ∃ frames, (FrameAccumulator.empty.pushAll front).1 = .ok frames := by
  rw [pushAll_eq_decodeFrames]
  unfold decodeFrames at hwhole ⊢
  rw [flatten_append, drain_append decodeStep_stable] at hwhole
  cases hfront : drain decodeStep () front.flatten with
  | error e =>
    rw [hfront] at hwhole
    cases hwhole
  | ok result => exact ⟨result.1, rfl⟩

/-- The frames of a list of payloads, written by either side and cut in any way, are read
back as that list by the accumulator, by the whole-buffer decoder and by the bridge's
reader; what the accumulator retains is never a complete frame; and on any other stream
the three agree, up to the refusal of a length above the maximum. -/
theorem frames_read_identically (payloads chunks : List (List UInt8))
    (hfit : ∀ p ∈ payloads, p.length ≤ BRIDGE_MAX_FRAME_BYTES)
    (hcut : chunks.flatten = payloads.flatMap frame) :
    (∀ p ∈ payloads, encodeBody p = .ok (frame p) ∧ Rpc.writeFrame p = .ok (frame p)) ∧
      (FrameAccumulator.empty.pushAll chunks).1 = .ok payloads ∧
      (∀ front back, chunks = front ++ back →
        Incomplete (FrameAccumulator.empty.pushAll front).2.bytes) ∧
      decodeFrames chunks.flatten = .ok ⟨payloads, []⟩ ∧
      Rpc.readFrames chunks.flatten = (payloads, .EOF) ∧
      (∀ body, BRIDGE_MAX_FRAME_BYTES < body.length → encodeBody body = .error ⟨body.length⟩ ∧
          Rpc.writeFrame body = .error .ErrFrameTooLarge) ∧
      ∀ cut : List (List UInt8), ReadAlike cut.flatten ∧
        (FrameAccumulator.empty.pushAll cut).1 =
          (decodeFrames cut.flatten).map (·.frames) := by
  have hdecode : decodeFrames chunks.flatten = .ok ⟨payloads, []⟩ := by
    rw [hcut, decodeFrames, drain_frames hfit]
    rfl
  refine ⟨fun p hp => ⟨encodeBody_of_le (hfit p hp), writeFrame_of_le (hfit p hp)⟩, ?_, ?_,
    hdecode, ?_, ?_, ?_⟩
  · rw [pushAll_eq_decodeFrames, hdecode]
    rfl
  · rintro front back rfl
    obtain ⟨frames, hpushed⟩ := pushAll_ok_of_append hdecode
    exact incomplete_of_pushAll hpushed
  · have hread := readAlike chunks.flatten
    rw [ReadAlike, hdecode] at hread
    exact Prod.ext hread.1 (hread.2.2 rfl)
  · intro body hlarge
    exact ⟨if_pos hlarge, if_pos (Rpc.maxFrame_eq ▸ hlarge)⟩
  · exact fun cut => ⟨readAlike cut.flatten, pushAll_eq_decodeFrames cut⟩

/-- An empty payload and a text, with the second header cut in two. -/
theorem frames_read_identically_splitHeader :
    (FrameAccumulator.empty.pushAll [[0, 0, 0, 0, 0, 0], [0, 2, 123], [125]]).1 =
      .ok [[], [123, 125]] :=
  (frames_read_identically [[], [123, 125]] [[0, 0, 0, 0, 0, 0], [0, 2, 123], [125]]
    (by decide) (by decide)).2.1

end SquadPanel.Bridge
