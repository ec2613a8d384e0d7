import Unroxy.Lib.Bytes

/-!
Owns ciphers that combine each byte with the next byte of a keystream.

`Keystream.apply` goes through the bytes once and hands on the state it ends in,
so pieces of a message are handled like the whole message, and two states that
are equal undo each other.

Does not own any particular keystream.
-/

namespace Unroxy.Lib.Keystream

variable {σ : Type} (next : σ → UInt8 × σ)

/-- The bytes under the keystream from this state, and the state behind them. -/
def apply : σ → Bytes → Bytes × σ
  | state, [] => ([], state)
  | state, byte :: rest =>
      let (key, state) := next state
      let (out, state) := apply state rest
      ((byte ^^^ key) :: out, state)

theorem apply_cons (state : σ) (byte : UInt8) (rest : Bytes) :
    apply next state (byte :: rest) =
      ((byte ^^^ (next state).1) :: (apply next (next state).2 rest).1,
        (apply next (next state).2 rest).2) := rfl

/-- A message in two pieces. -/
theorem apply_append (state : σ) (first second : Bytes) :
    apply next state (first ++ second) =
      ((apply next state first).1 ++ (apply next (apply next state first).2 second).1,
        (apply next (apply next state first).2 second).2) := by
  induction first generalizing state with
  | nil => rfl
  | cons byte rest inductionHypothesis =>
      rw [List.cons_append, apply_cons, apply_cons, inductionHypothesis]
      rfl

@[simp] theorem apply_length (state : σ) (bytes : Bytes) :
    (apply next state bytes).1.length = bytes.length := by
  induction bytes generalizing state with
  | nil => rfl
  | cons byte rest inductionHypothesis =>
      rw [apply_cons, List.length_cons, inductionHypothesis, List.length_cons]

/-- The same keystream undoes itself. -/
theorem apply_apply (state : σ) (bytes : Bytes) :
    apply next state (apply next state bytes).1 = (bytes, (apply next state bytes).2) := by
  induction bytes generalizing state with
  | nil => rfl
  | cons byte rest inductionHypothesis =>
      rw [apply_cons, apply_cons, inductionHypothesis]
      have undone : byte ^^^ (next state).1 ^^^ (next state).1 = byte := by
        rw [UInt8.xor_assoc, UInt8.xor_self, UInt8.xor_zero]
      rw [undone]

/-- What a byte of the keystream keeps, a message keeps. -/
theorem apply_keeps {invariant : σ → Prop}
    (kept : ∀ state, invariant state → invariant (next state).2) (bytes : Bytes) {state : σ}
    (held : invariant state) : invariant (apply next state bytes).2 := by
  induction bytes generalizing state with
  | nil => exact held
  | cons byte rest inductionHypothesis =>
      rw [apply_cons]
      exact inductionHypothesis (kept state held)

/-! ### A message cut into buffers -/

/-- The buffers under one keystream, one after the other and each in its place. -/
def applyEach : σ → List Bytes → List Bytes × σ
  | state, [] => ([], state)
  | state, buffer :: rest =>
      let (out, state) := apply next state buffer
      let (later, state) := applyEach state rest
      (out :: later, state)

theorem applyEach_cons (state : σ) (buffer : Bytes) (rest : List Bytes) :
    applyEach next state (buffer :: rest) =
      ((apply next state buffer).1 :: (applyEach next (apply next state buffer).2 rest).1,
        (applyEach next (apply next state buffer).2 rest).2) := rfl

/-- Where the message is cut makes no difference. -/
theorem applyEach_flatten (state : σ) (buffers : List Bytes) :
    ((applyEach next state buffers).1.flatten, (applyEach next state buffers).2) =
      apply next state buffers.flatten := by
  induction buffers generalizing state with
  | nil => rfl
  | cons buffer rest inductionHypothesis =>
      rw [List.flatten_cons, apply_append, ← inductionHypothesis, applyEach_cons]
      rfl

theorem applyEach_lengths (state : σ) (buffers : List Bytes) :
    (applyEach next state buffers).1.map List.length = buffers.map List.length := by
  induction buffers generalizing state with
  | nil => rfl
  | cons buffer rest inductionHypothesis =>
      rw [applyEach_cons, List.map_cons, apply_length, inductionHypothesis, List.map_cons]

/-- The same keystream undoes itself, wherever its result is cut. -/
theorem applyEach_applyEach (state : σ) {buffers others : List Bytes}
    (cut : others.flatten = (applyEach next state buffers).1.flatten) :
    ((applyEach next state others).1.flatten, (applyEach next state others).2) =
      (buffers.flatten, (applyEach next state buffers).2) := by
  have first := applyEach_flatten next state buffers
  have bytes : (applyEach next state buffers).1.flatten = (apply next state buffers.flatten).1 :=
    congrArg Prod.fst first
  have behind : (applyEach next state buffers).2 = (apply next state buffers.flatten).2 :=
    congrArg Prod.snd first
  rw [applyEach_flatten, cut, bytes, apply_apply, behind]

end Unroxy.Lib.Keystream
