import Mathlib.Data.List.Basic

/-!
# Decoders fed in chunks

A decoder keeps a state and the input it has not consumed.  Each iteration looks
at the buffer and either waits for more input, consumes a part of it, or fails.
When every decision is stable under more input, the output depends only on the
concatenation of the chunks (`feedAll_eq_feed`).
-/

namespace SquadPanel.Lib.Incremental

open List

/-- One iteration over a buffer. -/
inductive Step (σ β ω ε : Type)
  | wait (s : σ)
  | next (s : σ) (out : List ω) (rest : List β)
  | fail (e : ε)

variable {σ β ω ε : Type} {step : σ → List β → Step σ β ω ε} {buf : List β}

/-- What an iteration decides on a buffer, more input does not change; consuming
shortens the buffer. -/
inductive Decided (step : σ → List β → Step σ β ω ε) (s : σ) (a : List β) : Prop
  | wait (s' : σ) (hstep : step s a = .wait s')
      (hmore : ∀ b, step s (a ++ b) = step s' (a ++ b))
  | fail (e : ε) (hmore : ∀ b, step s (a ++ b) = .fail e)
  | next (s' : σ) (out : List ω) (rest : List β) (hshort : rest.length < a.length)
      (hmore : ∀ b, step s (a ++ b) = .next s' out (rest ++ b))

/-- The decisions of the decoder are stable under more input. -/
def Stable (step : σ → List β → Step σ β ω ε) : Prop := ∀ s a, Decided step s a

theorem Stable.shrinks (hstable : Stable step) {s s' : σ}
    {a rest : List β} {out : List ω} (hstep : step s a = .next s' out rest) :
    rest.length < a.length := by
  rcases hstable s a with ⟨s'', hwait, -⟩ | ⟨e, hmore⟩ | ⟨s'', out', rest', hshort, hmore⟩
  · rw [hstep] at hwait
    cases hwait
  · have hnil := hmore []
    rw [append_nil, hstep] at hnil
    cases hnil
  · have hnil := hmore []
    rw [append_nil, append_nil, hstep] at hnil
    cases hnil
    exact hshort

/-- What decoding gives: the output, the state and the unconsumed input, or an error. -/
abbrev Result (σ β ω ε : Type) := Except ε (List ω × σ × List β)

/-- Put output in front of a result. -/
def Result.prepend (out : List ω) (r : Result σ β ω ε) : Result σ β ω ε :=
  r.map fun x => (out ++ x.1, x.2)

/-- Go on from where a decoder stopped. -/
def Result.resume (r : Result σ β ω ε) (k : σ × List β → Result σ β ω ε) : Result σ β ω ε :=
  match r with
  | .error e => .error e
  | .ok (out, st) => (k st).prepend out

/-- Iterate until the buffer is empty or too short, at most `fuel` times. -/
def drainFuel (step : σ → List β → Step σ β ω ε) : Nat → σ → List β → Result σ β ω ε
  | 0, s, buf => .ok ([], s, buf)
  | fuel + 1, s, buf =>
    if buf = [] then .ok ([], s, buf)
    else match step s buf with
      | .wait s' => .ok ([], s', buf)
      | .fail e => .error e
      | .next s' out rest => (drainFuel step fuel s' rest).prepend out

/-- Iterate as long as the decoder makes progress. -/
def drain (step : σ → List β → Step σ β ω ε) (s : σ) (buf : List β) : Result σ β ω ε :=
  drainFuel step buf.length s buf

/-- Append a chunk to the buffer and decode. -/
def feed (step : σ → List β → Step σ β ω ε) (chunk : List β) (st : σ × List β) :
    Result σ β ω ε :=
  drain step st.1 (st.2 ++ chunk)

/-- Feed the chunks one after the other, collecting the output. -/
def feedAll (step : σ → List β → Step σ β ω ε) :
    List (List β) → σ × List β → Result σ β ω ε
  | [], st => .ok ([], st)
  | chunk :: chunks, st => Result.resume (feed step chunk st) (feedAll step chunks)

/-! ### Results -/

namespace Result

variable (r : Result σ β ω ε)

@[simp] theorem prepend_nil : r.prepend [] = r := by
  cases r <;> rfl

@[simp] theorem prepend_prepend (out out' : List ω) :
    (r.prepend out').prepend out = r.prepend (out ++ out') := by
  cases r with
  | error e => rfl
  | ok x => simp [prepend, Except.map]

theorem resume_prepend (out : List ω) (k : σ × List β → Result σ β ω ε) :
    (r.prepend out).resume k = (r.resume k).prepend out := by
  cases r with
  | error e => rfl
  | ok x => exact (prepend_prepend (k x.2) out x.1).symm

@[simp] theorem resume_ok : (r.resume fun st => .ok ([], st)) = r := by
  cases r with
  | error e => rfl
  | ok x => simp [resume, prepend, Except.map]

end Result

/-! ### Draining -/

@[simp] theorem drainFuel_nil (fuel : Nat) (s : σ) :
    drainFuel step fuel s [] = .ok ([], s, []) := by
  cases fuel <;> rfl

section
variable (hstable : Stable step)
include hstable

/-- Fuel beyond the length of the buffer changes nothing. -/
theorem drainFuel_congr {m n : Nat} {s : σ} (hm : buf.length ≤ m) (hn : buf.length ≤ n) :
    drainFuel step m s buf = drainFuel step n s buf := by
  induction m generalizing n s buf with
  | zero =>
    have hempty : buf = [] := length_eq_zero_iff.mp (by omega)
    simp [hempty]
  | succ m ih =>
    cases n with
    | zero =>
      have hempty : buf = [] := length_eq_zero_iff.mp (by omega)
      simp [hempty]
    | succ n =>
      unfold drainFuel
      cases hstep : step s buf with
      | wait s' => rfl
      | fail e => rfl
      | next s' out rest =>
        have hshort := hstable.shrinks hstep
        simp only
        rw [ih (by omega : rest.length ≤ m) (by omega : rest.length ≤ n)]

theorem drain_eq_step (s : σ) (hne : buf ≠ []) : drain step s buf = match step s buf with
      | .wait s' => .ok ([], s', buf)
      | .fail e => .error e
      | .next s' out rest => Result.prepend out (drain step s' rest) := by
  have hpos := length_pos_of_ne_nil hne
  obtain ⟨fuel, hfuel⟩ : ∃ fuel, buf.length = fuel + 1 := ⟨buf.length - 1, by omega⟩
  rw [drain, hfuel, drainFuel, if_neg hne]
  cases hstep : step s buf with
  | wait s' => rfl
  | fail e => rfl
  | next s' out rest =>
    have hshort := hstable.shrinks hstep
    simp only [drain]
    rw [drainFuel_congr hstable (by omega : rest.length ≤ fuel) (Nat.le_refl rest.length)]

/-- What is left over waits for more input. -/
theorem drain_waits {s s' : σ} {rest : List β} {out : List ω}
    (hdrain : drain step s buf = .ok (out, s', rest)) :
    rest = [] ∨ ∃ s'', step s'' rest = .wait s' := by
  induction hlength : buf.length using Nat.strongRecOn generalizing s buf out with
  | ind n ih =>
    by_cases hempty : buf = []
    · subst hempty
      cases hdrain
      exact .inl rfl
    · rw [drain_eq_step hstable s hempty] at hdrain
      cases hstep : step s buf with
      | wait s'' =>
        rw [hstep] at hdrain
        cases hdrain
        exact .inr ⟨s, hstep⟩
      | fail e =>
        rw [hstep] at hdrain
        cases hdrain
      | next s'' out' rest' =>
        simp only [hstep] at hdrain
        have hshort := hstable.shrinks hstep
        cases hlater : drain step s'' rest' with
        | error e =>
          rw [hlater] at hdrain
          cases hdrain
        | ok r =>
          obtain ⟨out'', last⟩ := r
          rw [hlater] at hdrain
          cases hdrain
          exact ih rest'.length (by omega) hlater rfl

/-- Decoding a longer input goes on where decoding its first part stopped. -/
theorem drain_append (s : σ) (a b : List β) :
    drain step s (a ++ b) = (drain step s a).resume (feed step b) := by
  induction hlength : a.length using Nat.strongRecOn generalizing s a with
  | ind n ih =>
    by_cases hempty : a = []
    · simp [hempty, drain, Result.resume, feed]
    · have hne : a ++ b ≠ [] := by simp [hempty]
      rw [drain_eq_step hstable s hempty, drain_eq_step hstable s hne]
      rcases hstable s a with ⟨s', hstep, hmore⟩ | ⟨e, hmore⟩ | ⟨s', out, rest, hshort, hmore⟩
      · -- the waiting state decides on the longer input as the old one does
        rw [hstep, hmore b, ← drain_eq_step hstable s' hne]
        exact (Result.prepend_nil _).symm
      · have hstep := hmore []
        rw [append_nil] at hstep
        rw [hstep, hmore b]
        rfl
      · have hstep := hmore []
        rw [append_nil, append_nil] at hstep
        rw [hstep, hmore b]
        simp only
        rw [ih rest.length (by omega) s' rest rfl, Result.resume_prepend]

theorem feed_append (a b : List β) (st : σ × List β) :
    feed step (a ++ b) st = (feed step a st).resume (feed step b) := by
  rw [feed, ← append_assoc, drain_append hstable]
  rfl

/-- Feeding chunk by chunk, from a state that has nothing buffered, gives what feeding
their concatenation gives. -/
theorem feedAll_eq_feed (chunks : List (List β)) (s : σ) :
    feedAll step chunks (s, []) = feed step chunks.flatten (s, []) := by
  -- after the first chunk the buffer need not be empty, so the induction is over any state
  have hcons (chunk : List β) (chunks : List (List β)) (st : σ × List β) :
      feedAll step (chunk :: chunks) st = feed step (chunk ++ chunks.flatten) st := by
    induction chunks generalizing chunk st with
    | nil =>
      rw [flatten_nil, append_nil]
      exact Result.resume_ok (feed step chunk st)
    | cons next chunks ih =>
      rw [feedAll, flatten_cons, feed_append hstable]
      congr 1
      funext st'
      exact ih next st'
  cases chunks with
  | nil => rfl
  | cons chunk chunks => exact hcons chunk chunks (s, [])

end

end SquadPanel.Lib.Incremental
