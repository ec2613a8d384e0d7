import Mathlib.Data.List.Basic

/-!
Owns machines that turn a stream into another, unit by unit, and what they make
of a stream that comes in pieces.

A turn takes a unit off the input if it is there as a whole. What a turn does
stays the same when more input is behind it, so a machine that is given its
input piece by piece ends where it would if it were given all at once
(`drain_append`).

Does not own any particular unit.
-/

namespace Unroxy.Lib

/-- `ahead` is the length of the unit at the front of the input, `none` while it
is not complete, and `act` what the machine makes of a unit. -/
structure Transducer (σ α β : Type) where
  ahead : σ → List α → Option Nat
  act : σ → List α → List β × σ
  within : ∀ {state : σ} {input : List α} {size : Nat}, ahead state input = some size →
    0 < size ∧ size ≤ input.length
  stable : ∀ {state : σ} {input : List α} {size : Nat}, ahead state input = some size →
    ∀ more, ahead state (input ++ more) = some size

namespace Transducer

variable {σ α β : Type} (machine : Transducer σ α β)

/-- One turn: the output, the new state and the rest of the input. -/
def next (state : σ) (input : List α) : Option (List β × σ × List α) :=
  (machine.ahead state input).map fun size =>
    ((machine.act state (input.take size)).1, (machine.act state (input.take size)).2,
      input.drop size)

theorem next_eq_none {state : σ} {input : List α} :
    machine.next state input = none ↔ machine.ahead state input = none := by
  rw [next, Option.map_eq_none_iff]

variable {machine} in
theorem next_of_ahead {state : σ} {input : List α} {size : Nat}
    (found : machine.ahead state input = some size) :
    machine.next state input = some ((machine.act state (input.take size)).1,
      (machine.act state (input.take size)).2, input.drop size) := by
  rw [next, found]
  rfl

variable {state after : σ} {input rest : List α} {output : List β}

private theorem shorter (turn : machine.next state input = some (output, after, rest)) :
    rest.length < input.length := by
  rw [next, Option.map_eq_some_iff] at turn
  rcases turn with ⟨size, found, same⟩
  have bounds := machine.within found
  cases same
  rw [List.length_drop]
  omega

/-- A turn is the same when more input is behind it. -/
private theorem next_append (turn : machine.next state input = some (output, after, rest))
    (more : List α) : machine.next state (input ++ more) = some (output, after, rest ++ more) := by
  rw [next, Option.map_eq_some_iff] at turn
  rcases turn with ⟨size, found, same⟩
  have bounds := machine.within found
  cases same
  rw [next_of_ahead (machine.stable found more), List.take_append_of_le_length bounds.2,
    List.drop_append_of_le_length bounds.2]

/-- At most this many turns. -/
def turns : Nat → σ → List α → List β × σ × List α
  | 0, state, input => ([], state, input)
  | fuel + 1, state, input =>
      match machine.next state input with
      | none => ([], state, input)
      | some (output, after, rest) =>
          let (more, last, left) := turns fuel after rest
          (output ++ more, last, left)

/-- All the turns there are: the output, the state reached and what is left of
the input. -/
def drain (state : σ) (input : List α) : List β × σ × List α :=
  machine.turns input.length state input

theorem next_nil (state : σ) : machine.next state [] = none := by
  cases turn : machine.next state [] with
  | none => rfl
  | some result => exact absurd (machine.shorter turn) (Nat.not_lt_zero _)

/-- More turns than there is input change nothing. -/
private theorem turns_enough (fuel : Nat) :
    ∀ (other : Nat) (state : σ) (input : List α), input.length ≤ fuel → input.length ≤ other →
      machine.turns fuel state input = machine.turns other state input := by
  induction fuel with
  | zero =>
      intro other state input none _
      rw [List.length_eq_zero_iff.mp (Nat.le_zero.mp none), turns]
      cases other with
      | zero => rfl
      | succ other => rw [turns, next_nil]
  | succ fuel inductionHypothesis =>
      intro other state input enough enough'
      cases other with
      | zero =>
          rw [List.length_eq_zero_iff.mp (Nat.le_zero.mp enough'), turns, turns, next_nil]
      | succ other =>
          rw [turns, turns]
          cases turn : machine.next state input with
          | none => rfl
          | some result =>
              have less := machine.shorter turn
              dsimp only
              rw [inductionHypothesis other _ _ (by omega) (by omega)]

variable {machine}

theorem drain_none (stuck : machine.next state input = none) :
    machine.drain state input = ([], state, input) := by
  rw [drain]
  cases input with
  | nil => rfl
  | cons first rest => rw [List.length_cons, turns, stuck]

theorem drain_some (turn : machine.next state input = some (output, after, rest)) :
    machine.drain state input =
      (output ++ (machine.drain after rest).1, (machine.drain after rest).2) := by
  have less := machine.shorter turn
  obtain ⟨count, size⟩ : ∃ count, input.length = count + 1 :=
    Nat.exists_eq_add_one.mpr (Nat.zero_lt_of_lt less)
  rw [drain, size, turns, turn]
  dsimp only
  rw [machine.turns_enough count rest.length after rest (by omega) (Nat.le_refl _)]
  rfl

/-- A fact about every unit of the input that stays true from turn to turn. -/
theorem drain_induction {motive : σ → List α → Prop}
    (stuck : ∀ state input, machine.next state input = none → motive state input)
    (turn : ∀ state input output after rest,
      machine.next state input = some (output, after, rest) → motive after rest →
      motive state input) (state : σ) (input : List α) :
    motive state input := by
  induction size : input.length using Nat.strongRecOn generalizing state input with
  | _ count inductionHypothesis =>
      cases found : machine.next state input with
      | none => exact stuck state input found
      | some result =>
          rcases result with ⟨output, after, rest⟩
          have less := machine.shorter found
          exact turn state input output after rest found
            (inductionHypothesis rest.length (size ▸ less) after rest rfl)

/-- A stream in two pieces. -/
theorem drain_append (state : σ) (input more : List α) :
    machine.drain state (input ++ more) =
      ((machine.drain state input).1 ++
          (machine.drain (machine.drain state input).2.1
            ((machine.drain state input).2.2 ++ more)).1,
        (machine.drain (machine.drain state input).2.1
          ((machine.drain state input).2.2 ++ more)).2) := by
  apply drain_induction (motive := fun state input => machine.drain state (input ++ more) =
    ((machine.drain state input).1 ++
        (machine.drain (machine.drain state input).2.1
          ((machine.drain state input).2.2 ++ more)).1,
      (machine.drain (machine.drain state input).2.1
        ((machine.drain state input).2.2 ++ more)).2))
  · intro state input stuck
    rw [drain_none stuck]
    rfl
  · intro state input output after rest turn inductionHypothesis
    rw [drain_some (machine.next_append turn more), drain_some turn, inductionHypothesis]
    simp only [List.append_assoc]

/-- A turn on the input that is there, with more behind it. -/
theorem drain_ahead {size : Nat} (found : machine.ahead state input = some size)
    (more : List α) :
    machine.drain state (input ++ more) =
      ((machine.act state (input.take size)).1 ++
          (machine.drain (machine.act state (input.take size)).2 (input.drop size ++ more)).1,
        (machine.drain (machine.act state (input.take size)).2 (input.drop size ++ more)).2) :=
  drain_some (machine.next_append (next_of_ahead found) more)

/-! ### Turns one by one -/

/-- Some turns lead from one state and input to others and put this out. -/
inductive Reaches (machine : Transducer σ α β) : σ → List α → List β → σ → List α → Prop where
  | here (state : σ) (input : List α) : Reaches machine state input [] state input
  | turn {state between after : σ} {input rest left : List α} {output more : List β}
      (first : machine.next state input = some (output, between, rest))
      (later : Reaches machine between rest more after left) :
      Reaches machine state input (output ++ more) after left

theorem Reaches.one {size : Nat} (found : machine.ahead state input = some size)
    (acts : machine.act state (input.take size) = (output, after)) :
    Reaches machine state input output after (input.drop size) := by
  have turn := next_of_ahead found
  rw [acts] at turn
  have reaches := Reaches.turn turn (.here after (input.drop size))
  rwa [List.append_nil] at reaches

theorem Reaches.trans {between : σ} {more : List β} {left : List α}
    (first : Reaches machine state input output between rest)
    (second : Reaches machine between rest more after left) :
    Reaches machine state input (output ++ more) after left := by
  induction first with
  | here => exact second
  | turn one _ inductionHypothesis =>
      rw [List.append_assoc]
      exact .turn one (inductionHypothesis second)

theorem Reaches.drain (reaches : Reaches machine state input output after rest) (more : List α) :
    machine.drain state (input ++ more) =
      (output ++ (machine.drain after (rest ++ more)).1,
        (machine.drain after (rest ++ more)).2) := by
  induction reaches with
  | here => rfl
  | turn one _ inductionHypothesis =>
      rw [drain_some (machine.next_append one more), inductionHypothesis, List.append_assoc]

theorem Reaches.notLonger (reaches : Reaches machine state input output after rest) :
    rest.length ≤ input.length := by
  induction reaches with
  | here => exact Nat.le_refl _
  | turn one _ inductionHypothesis =>
      exact Nat.le_trans inductionHypothesis (Nat.le_of_lt (machine.shorter one))

/-- `larger` takes every unit that `machine` takes, and does the same with it. -/
def Extends (machine larger : Transducer σ α β) : Prop :=
  ∀ state input result, machine.next state input = some result →
    larger.next state input = some result

variable {larger : Transducer σ α β}

theorem Reaches.extended (reaches : Reaches machine state input output after rest)
    (extension : Extends machine larger) : Reaches larger state input output after rest := by
  induction reaches with
  | here => exact .here _ _
  | turn one _ inductionHypothesis => exact .turn (extension _ _ _ one) inductionHypothesis

/-- The larger machine goes on where the other has stopped. -/
theorem Extends.drain (extension : Extends machine larger) (state : σ) (input : List α) :
    larger.drain state input =
      ((machine.drain state input).1 ++
          (larger.drain (machine.drain state input).2.1 (machine.drain state input).2.2).1,
        (larger.drain (machine.drain state input).2.1 (machine.drain state input).2.2).2) := by
  apply @drain_induction _ _ _ machine (motive := fun state input =>
    larger.drain state input =
      ((machine.drain state input).1 ++
          (larger.drain (machine.drain state input).2.1 (machine.drain state input).2.2).1,
        (larger.drain (machine.drain state input).2.1 (machine.drain state input).2.2).2))
  · intro state input stuck
    rw [drain_none stuck]
    rfl
  · intro state input output after rest turn inductionHypothesis
    rw [drain_some (extension _ _ _ turn), drain_some turn, inductionHypothesis]
    simp only [List.append_assoc]

/-! ### Units of one element -/

theorem within_one {size : Nat} (found : (if input.isEmpty then none else some 1) = some size) :
    0 < size ∧ size ≤ input.length := by
  cases input with
  | nil => cases found
  | cons first rest =>
      cases found
      exact ⟨Nat.one_pos, Nat.succ_le_succ (Nat.zero_le _)⟩

theorem stable_one {size : Nat} (found : (if input.isEmpty then none else some 1) = some size)
    (more : List α) : (if (input ++ more).isEmpty then none else some 1) = some size := by
  cases input with
  | nil => cases found
  | cons first rest => exact found

/-- A state in which every element passes. -/
theorem drain_passes {machine : Transducer σ α α} {state : σ}
    (ahead : ∀ first rest, machine.ahead state (first :: rest) = some 1)
    (act : ∀ element, machine.act state [element] = ([element], state)) (input : List α) :
    machine.drain state input = (input, state, []) := by
  induction input with
  | nil => exact drain_none (machine.next_nil state)
  | cons first rest inductionHypothesis =>
      have turn : machine.next state (first :: rest) = some ([first], state, rest) := by
        rw [next_of_ahead (ahead first rest), List.take_succ_cons, List.take_zero, act]
        rfl
      rw [drain_some turn, inductionHypothesis]
      rfl

/-! ### Units that are complete -/

/-- A unit is not there before its last element is. -/
theorem ahead_take {unit : List α} (whole : machine.ahead state unit = some unit.length)
    {count : Nat} (short : count < unit.length) :
    machine.ahead state (unit.take count) = none := by
  cases found : machine.ahead state (unit.take count) with
  | none => rfl
  | some size =>
      have later := machine.stable found (unit.drop count)
      rw [List.take_append_drop, whole, Option.some.injEq] at later
      have bounds := machine.within found
      rw [List.length_take] at bounds
      omega

/-- The beginning of a stream that starts with a unit. -/
theorem drain_take {unit : List α} (whole : machine.ahead state unit = some unit.length)
    (rest : List α) (count : Nat) :
    machine.drain state ((unit ++ rest).take count) =
      if unit.length ≤ count then
        ((machine.act state unit).1 ++
            (machine.drain (machine.act state unit).2 (rest.take (count - unit.length))).1,
          (machine.drain (machine.act state unit).2 (rest.take (count - unit.length))).2)
      else
        ([], state, unit.take count) := by
  split
  case isTrue enough =>
    rw [List.take_append, List.take_of_length_le enough]
    have turn := next_of_ahead (machine.stable whole (rest.take (count - unit.length)))
    rw [List.take_left, List.drop_left] at turn
    exact drain_some turn
  case isFalse short =>
    have less := Nat.lt_of_not_le short
    rw [List.take_append_of_le_length (Nat.le_of_lt less)]
    exact drain_none (machine.next_eq_none.mpr (ahead_take whole less))

end Transducer

/-- The units that are complete in the first `count` elements of a stream. -/
def complete {α : Type} : List (List α) → Nat → List α
  | [], _ => []
  | unit :: rest, count =>
      if unit.length ≤ count then unit ++ complete rest (count - unit.length) else []

end Unroxy.Lib
