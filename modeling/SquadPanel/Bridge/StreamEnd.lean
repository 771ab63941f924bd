import SquadPanel.Bridge.FrameStream

/-!
# How a stream of frames ends

Every stream is a sequence of complete frames and a rest that starts with no complete frame.
`ReadFrame` is documented to tell a rest that is empty from one that ends in the middle of a
frame.  The second of its two full reads reports the end of the stream like the first one does.
-/

namespace SquadPanel.Bridge.Rpc

open List

/-! ## Splitting a stream -/

/-- The rest ends inside the header or inside the body of a frame, at any offset. -/
def EndsInside (rest : List UInt8) : Prop :=
  (0 < rest.length ∧ rest.length < 4) ∨
    (4 ≤ rest.length ∧ readUInt32BE rest 0 ≤ MaxFrame ∧ rest.length < 4 + readUInt32BE rest 0)

/-- The header at the start of the rest announces more than `MaxFrame`. -/
def AnnouncesTooMuch (rest : List UInt8) : Prop :=
  4 ≤ rest.length ∧ MaxFrame < readUInt32BE rest 0

instance (rest : List UInt8) : Decidable (EndsInside rest) := inferInstanceAs (Decidable (_ ∨ _))

instance (rest : List UInt8) : Decidable (AnnouncesTooMuch rest) :=
  inferInstanceAs (Decidable (_ ∧ _))

/-- The complete frames of a stream in order, and what is left. -/
structure Splits (stream : List UInt8) (payloads : List (List UInt8)) (rest : List UInt8) :
    Prop where
  eq : stream = payloads.flatMap frame ++ rest
  fit : ∀ payload ∈ payloads, payload.length ≤ MaxFrame
  ended : rest = [] ∨ EndsInside rest ∨ AnnouncesTooMuch rest

theorem writeUInt32BE_readUInt32BE (a b c d : UInt8) (rest : List UInt8) :
    writeUInt32BE (readUInt32BE (a :: b :: c :: d :: rest) 0) = [a, b, c, d] := by
  have ha := a.toNat_lt
  have hb := b.toNat_lt
  have hc := c.toNat_lt
  have hd := d.toNat_lt
  have hword : readUInt32BE (a :: b :: c :: d :: rest) 0 =
      2 ^ 24 * a.toNat + 2 ^ 16 * b.toNat + 2 ^ 8 * c.toNat + d.toNat := rfl
  have hofNat (byte : UInt8) (n : Nat) (h : n = byte.toNat) : UInt8.ofNat n = byte := by
    rw [h, UInt8.ofNat_toNat]
  rw [hword, writeUInt32BE, hofNat a _ (by omega), hofNat b _ (by omega), hofNat c _ (by omega),
    hofNat d _ (by omega)]

/-- A header with all the bytes it announces is a complete frame. -/
theorem frame_of_le {buf : List UInt8} (hheader : 4 ≤ buf.length)
    (hbody : 4 + readUInt32BE buf 0 ≤ buf.length) :
    buf = frame ((buf.drop 4).take (readUInt32BE buf 0)) ++ buf.drop (4 + readUInt32BE buf 0) := by
  obtain ⟨a, b, c, d, rest, rfl⟩ : ∃ a b c d rest, buf = a :: b :: c :: d :: rest := by
    match buf, hheader with
    | a :: b :: c :: d :: rest, _ => exact ⟨a, b, c, d, rest, rfl⟩
  generalize hsize : readUInt32BE (a :: b :: c :: d :: rest) 0 = size at hbody ⊢
  have htake : (((a :: b :: c :: d :: rest).drop 4).take size).length = size := by
    rw [length_take, length_drop]
    omega
  rw [frame, htake, ← hsize, writeUInt32BE_readUInt32BE, hsize, ← drop_drop]
  simp only [drop_succ_cons, drop_zero, cons_append, nil_append, take_append_drop]

theorem exists_splits (stream : List UInt8) : ∃ payloads rest, Splits stream payloads rest := by
  induction hlength : stream.length using Nat.strong_induction_on generalizing stream with
  | _ n ih =>
    by_cases hended : stream = [] ∨ EndsInside stream ∨ AnnouncesTooMuch stream
    · exact ⟨[], stream, rfl, by simp, hended⟩
    · -- a header, not too large, with its whole body
      rw [not_or, not_or] at hended
      obtain ⟨hne, hinside, htoo⟩ := hended
      have hpos := length_pos_iff.mpr hne
      have hheader : 4 ≤ stream.length := by
        by_contra hshort
        exact hinside (.inl ⟨hpos, by omega⟩)
      have hfit : readUInt32BE stream 0 ≤ MaxFrame := by
        by_contra hlarge
        exact htoo ⟨hheader, by omega⟩
      have hbody : 4 + readUInt32BE stream 0 ≤ stream.length := by
        by_contra hshort
        exact hinside (.inr ⟨hheader, hfit, by omega⟩)
      obtain ⟨payloads, rest, hsplits⟩ := ih
        (stream.drop (4 + readUInt32BE stream 0)).length (by rw [length_drop]; omega) _ rfl
      refine ⟨(stream.drop 4).take (readUInt32BE stream 0) :: payloads, rest, ?_, ?_, hsplits.ended⟩
      · rw [flatMap_cons, append_assoc, ← hsplits.eq]
        exact frame_of_le hheader hbody
      · rw [forall_mem_cons]
        refine ⟨?_, hsplits.fit⟩
        rw [length_take]
        omega

/-! ## Reading to the end -/

theorem readFrame_frame {payload : List UInt8} (hfit : payload.length ≤ MaxFrame)
    (rest : List UInt8) : readFrame (frame payload ++ rest) = .ok (payload, rest) := by
  have hframe := readFrame_of_decodeStep (frame payload ++ rest)
  rw [decodeStep_frame hfit] at hframe
  obtain ⟨read, hread, hframe⟩ := hframe
  rw [hframe, List.cons.inj hread |>.1]

variable {rest : List UInt8} {payloads : List (List UInt8)}

/-- The frames are read one after the other, up to what cannot be read. -/
theorem readFramesFuel_frames {e : FrameError}
    (hfit : ∀ payload ∈ payloads, payload.length ≤ MaxFrame) (hrest : readFrame rest = .error e)
    {fuel : Nat} (hfuel : (payloads.flatMap frame ++ rest).length < fuel) :
    readFramesFuel fuel (payloads.flatMap frame ++ rest) = (payloads, e) := by
  induction payloads generalizing fuel with
  | nil =>
    obtain ⟨fuel, rfl⟩ := Nat.exists_eq_succ_of_ne_zero (Nat.ne_zero_of_lt hfuel)
    rw [flatMap_nil, nil_append, readFramesFuel, hrest]
  | cons payload payloads ih =>
    obtain ⟨fuel, rfl⟩ := Nat.exists_eq_succ_of_ne_zero (Nat.ne_zero_of_lt hfuel)
    rw [flatMap_cons, append_assoc] at hfuel ⊢
    rw [length_append, frame, length_append, length_writeUInt32BE] at hfuel
    rw [readFramesFuel, readFrame_frame (hfit payload mem_cons_self)]
    simp only
    rw [ih (fun p hp => hfit p (mem_cons_of_mem _ hp)) (by omega)]

theorem readFrames_of_splits {stream : List UInt8} {e : FrameError}
    (hsplits : Splits stream payloads rest) (hrest : readFrame rest = .error e) :
    readFrames stream = (payloads, e) := by
  rw [readFrames, hsplits.eq]
  exact readFramesFuel_frames hsplits.fit hrest (Nat.lt_succ_self _)

theorem readFrame_nil : readFrame [] = .error .EOF := rfl

theorem readFrame_of_announcesTooMuch (htoo : AnnouncesTooMuch rest) :
    readFrame rest = .error .ErrFrameTooLarge := by
  rw [readFrame_of_le htoo.1, ← maxFrame_eq, if_pos htoo.2]

/-- The stream ends right after the header of a frame with a body. -/
def EndsAfterHeader (rest : List UInt8) : Prop :=
  rest.length = 4 ∧ 0 < readUInt32BE rest 0 ∧ readUInt32BE rest 0 ≤ MaxFrame

instance (rest : List UInt8) : Decidable (EndsAfterHeader rest) :=
  inferInstanceAs (Decidable (_ ∧ _))

/-- The read of the body finds nothing to read right after a header. -/
theorem readFrame_of_endsInside (hinside : EndsInside rest) :
    readFrame rest = .error (if EndsAfterHeader rest then .EOF else .ErrUnexpectedEOF) := by
  rcases hinside with ⟨hpos, hshort⟩ | ⟨hheader, hfit, hbody⟩
  · have hne : rest ≠ [] := length_pos_iff.mp hpos
    have hafter : ¬ EndsAfterHeader rest := fun hafter => by
      have := hafter.1
      omega
    rw [readFrame, readFull_of_lt hshort, if_neg hne, if_neg hafter]
    rfl
  · rw [readFrame_of_le hheader, ← maxFrame_eq, if_neg (by omega),
      readFull_of_lt (by rw [length_drop]; omega)]
    have hiff : rest.drop 4 = [] ↔ EndsAfterHeader rest := by
      rw [drop_eq_nil_iff]
      exact ⟨fun hle => ⟨by omega, by omega, hfit⟩, fun hafter => le_of_eq hafter.1⟩
    simp only [hiff]

/-- What the comments of `ReadFrame` promise about the errors. -/
structure AsDocumented (stream : List UInt8) (payloads : List (List UInt8))
    (rest : List UInt8) : Prop where
  frames : (readFrames stream).1 = payloads
  eof : (readFrames stream).2 = .EOF ↔ rest = []
  unexpectedEof : (readFrames stream).2 = .ErrUnexpectedEOF ↔ EndsInside rest
  tooLarge : (readFrames stream).2 = .ErrFrameTooLarge ↔ AnnouncesTooMuch rest

theorem not_endsInside_of_announcesTooMuch (htoo : AnnouncesTooMuch rest) : ¬ EndsInside rest := by
  rintro (⟨-, hshort⟩ | ⟨-, hfit, -⟩)
  · have := htoo.1
    omega
  · have := htoo.2
    omega

theorem ne_nil_of_endsInside (hinside : EndsInside rest) : rest ≠ [] := by
  rintro rfl
  exact absurd hinside (by decide)

theorem ne_nil_of_announcesTooMuch (htoo : AnnouncesTooMuch rest) : rest ≠ [] := by
  rintro rfl
  exact absurd htoo (by decide)

/-- Every stream splits into its complete frames and a rest; reading it gives these frames and
the documented error, unless the rest is the header of a frame with a body and nothing else. -/
theorem readFrames_asDocumented_iff (stream : List UInt8) :
    (∃ payloads rest, Splits stream payloads rest) ∧
    ∀ payloads rest, Splits stream payloads rest →
      (AsDocumented stream payloads rest ↔ ¬ EndsAfterHeader rest) := by
  refine ⟨exists_splits stream, fun payloads rest hsplits => ?_⟩
  rcases hsplits.ended with rfl | hinside | htoo
  · have hread := readFrames_of_splits hsplits readFrame_nil
    have hinside : ¬ EndsInside [] := by decide
    have htoo : ¬ AnnouncesTooMuch [] := by decide
    refine iff_of_true ⟨by rw [hread], ?_, ?_, ?_⟩ (by decide)
    · simp [hread]
    · simp [hread, hinside]
    · simp [hread, htoo]
  · have hread := readFrames_of_splits hsplits (readFrame_of_endsInside hinside)
    have htoo : ¬ AnnouncesTooMuch rest := fun htoo =>
      not_endsInside_of_announcesTooMuch htoo hinside
    by_cases hafter : EndsAfterHeader rest
    · rw [if_pos hafter] at hread
      refine iff_of_false (fun hdoc => ?_) (not_not_intro hafter)
      exact ne_nil_of_endsInside hinside (hdoc.eof.mp (by rw [hread]))
    · rw [if_neg hafter] at hread
      refine iff_of_true ⟨by rw [hread], ?_, ?_, ?_⟩ hafter
      · simp [hread, ne_nil_of_endsInside hinside]
      · simp [hread, hinside]
      · simp [hread, htoo]
  · have hread := readFrames_of_splits hsplits (readFrame_of_announcesTooMuch htoo)
    refine iff_of_true ⟨by rw [hread], ?_, ?_, ?_⟩ fun hafter => ?_
    · simp [hread, ne_nil_of_announcesTooMuch htoo]
    · simp [hread, not_endsInside_of_announcesTooMuch htoo]
    · simp [hread, htoo]
    · have hfit := hafter.2.2
      have hlarge := htoo.2
      omega

/-- An empty frame, and three bytes of the next header. -/
theorem readFrames_asDocumented_cutHeader : AsDocumented [0, 0, 0, 0, 0, 0, 1] [[]] [0, 0, 1] := by
  have hsplits : Splits [0, 0, 0, 0, 0, 0, 1] [[]] [0, 0, 1] :=
    ⟨rfl, by decide, .inr (.inl (by decide))⟩
  exact ((readFrames_asDocumented_iff _).2 _ _ hsplits).mpr (by decide)

/-- The announced byte is missing, and the reader reports a clean end. -/
theorem readFrames_eof_after_header :
    Splits [0, 0, 0, 1] [] [0, 0, 0, 1] ∧ EndsInside [0, 0, 0, 1] ∧
      readFrames [0, 0, 0, 1] = ([], .EOF) ∧ ¬ AsDocumented [0, 0, 0, 1] [] [0, 0, 0, 1] := by
  have hread : readFrames [0, 0, 0, 1] = ([], .EOF) := by decide
  refine ⟨⟨rfl, by decide, .inr (.inl (by decide))⟩, by decide, hread, fun hdoc => ?_⟩
  exact absurd (hdoc.eof.mp (by rw [hread])) (by decide)

end SquadPanel.Bridge.Rpc
