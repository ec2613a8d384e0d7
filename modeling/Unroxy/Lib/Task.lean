import Unroxy.Lib.Bytes

/-!
Owns stateful computations that can fail, and their rules of pre- and
postconditions.

A task runs on a state and ends in one of four ways: with a value, with an
error, in a panic, or waiting for an input that has not come. The state it
leaves behind counts in all four, since an early return does not undo what was
done before it. `Triple` therefore has two postconditions, one for a value and
one for the other three endings.

Does not own any particular state.
-/

namespace Unroxy.Lib

/-- How a computation ends. -/
inductive Outcome (ε α : Type) where
  | ok (value : α)
  | error (failure : ε)
  | panic
  | pending
deriving DecidableEq, Repr

namespace Outcome

variable {ε α β : Type}

def bind (outcome : Outcome ε α) (next : α → Outcome ε β) : Outcome ε β :=
  match outcome with
  | .ok value => next value
  | .error failure => .error failure
  | .panic => .panic
  | .pending => .pending

instance : Monad (Outcome ε) where
  pure := .ok
  bind := bind

@[simp] theorem ok_bind (value : α) (next : α → Outcome ε β) :
    (Outcome.ok value >>= next) = next value := rfl

/-- A sequence that ends with a value had a value in between. -/
theorem of_bind_ok {outcome : Outcome ε α} {next : α → Outcome ε β} {value : β}
    (run : (outcome >>= next) = .ok value) :
    ∃ between, outcome = .ok between ∧ next between = .ok value := by
  cases outcome with
  | ok between => exact ⟨between, rfl, run⟩
  | error failure => cases run
  | panic => cases run
  | pending => cases run

/-- A slice out of range is a panic. -/
def ofChecked : Checked α → Outcome ε α
  | .ok value => .ok value
  | .error _ => .panic

@[simp] theorem ofChecked_ok (value : α) :
    (ofChecked (.ok value) : Outcome ε α) = .ok value := rfl

/-- An absent value is this error. -/
def ofOption (failure : ε) : Option α → Outcome ε α
  | some value => .ok value
  | none => .error failure

@[simp] theorem ofOption_some (failure : ε) (value : α) :
    ofOption failure (some value) = .ok value := rfl

/-- The computation came back, with a value or an error. -/
def Returned : Outcome ε α → Prop
  | .ok _ | .error _ => True
  | .panic | .pending => False

theorem Returned.bind {outcome : Outcome ε α} {next : α → Outcome ε β}
    (first : outcome.Returned) (second : ∀ value, outcome = .ok value → (next value).Returned) :
    (outcome >>= next).Returned := by
  cases outcome with
  | ok value => exact second value rfl
  | error failure => trivial
  | panic => exact first
  | pending => exact first

@[simp] theorem ofOption_returned (failure : ε) (value : Option α) :
    (ofOption failure value).Returned := by
  cases value <;> trivial

end Outcome

/-- A computation on a state `σ`; an ending other than `ok` keeps the state
reached so far. -/
def Task (σ ε α : Type) := σ → Outcome ε α × σ

namespace Task

variable {σ τ ε α β : Type}

def bind (task : Task σ ε α) (next : α → Task σ ε β) : Task σ ε β := fun state =>
  match task state with
  | (.ok value, after) => next value after
  | (.error failure, after) => (.error failure, after)
  | (.panic, after) => (.panic, after)
  | (.pending, after) => (.pending, after)

instance : Monad (Task σ ε) where
  pure value := fun state => (.ok value, state)
  bind := bind

def throw (failure : ε) : Task σ ε α := fun state => (.error failure, state)

/-- Read a part of the state. -/
def gets (read : σ → α) : Task σ ε α := fun state => (.ok (read state), state)

def modify (change : σ → σ) : Task σ ε Unit := fun state => (.ok (), change state)

/-- A computation that does not touch the state. -/
def lift (outcome : Outcome ε α) : Task σ ε α := fun state => (outcome, state)

/-- Run a task on a part of the state. -/
def zoom (read : σ → τ) (write : τ → σ → σ) (task : Task τ ε α) : Task σ ε α := fun state =>
  let (outcome, after) := task (read state)
  (outcome, write after state)

/-- At most `fuel` turns of a loop. `inl` starts another turn, `inr` leaves the
loop; a loop out of fuel is still waiting. -/
def turns : Nat → (β → Task σ ε (β ⊕ α)) → β → Task σ ε α
  | 0, _, _ => fun state => (.pending, state)
  | fuel + 1, body, carried => do
      match ← body carried with
      | .inl next => turns fuel body next
      | .inr value => pure value

/-- A loop whose every completed turn lowers `size`. -/
def loop (size : σ → Nat) (body : β → Task σ ε (β ⊕ α)) (start : β) : Task σ ε α := fun state =>
  turns (size state + 1) body start state

/-! ### Running the basic tasks -/

@[simp] theorem run_pure (value : α) (state : σ) :
    (pure value : Task σ ε α) state = (.ok value, state) := rfl

@[simp] theorem run_gets (read : σ → α) (state : σ) :
    (gets read : Task σ ε α) state = (.ok (read state), state) := rfl

@[simp] theorem run_modify (change : σ → σ) (state : σ) :
    (modify change : Task σ ε Unit) state = (.ok (), change state) := rfl

@[simp] theorem run_lift (outcome : Outcome ε α) (state : σ) :
    (lift outcome : Task σ ε α) state = (outcome, state) := rfl

theorem run_bind (task : Task σ ε α) (next : α → Task σ ε β) (state : σ) :
    (task >>= next) state =
      match task state with
      | (.ok value, after) => next value after
      | (.error failure, after) => (.error failure, after)
      | (.panic, after) => (.panic, after)
      | (.pending, after) => (.pending, after) := rfl

theorem run_bind_ok {task : Task σ ε α} {next : α → Task σ ε β} {state after : σ} {value : α}
    (run : task state = (.ok value, after)) : (task >>= next) state = next value after := by
  rw [run_bind, run]

/-- A sequence that ends with a value had a value in between. -/
theorem of_bind_ok {task : Task σ ε α} {next : α → Task σ ε β} {state after : σ} {value : β}
    (run : (task >>= next) state = (.ok value, after)) :
    ∃ between reached, task state = (.ok between, reached) ∧
      next between reached = (.ok value, after) := by
  rw [run_bind] at run
  rcases first : task state with ⟨outcome, reached⟩
  rw [first] at run
  cases outcome with
  | ok between => exact ⟨between, reached, rfl, run⟩
  | error failure => cases run
  | panic => cases run
  | pending => cases run

/-! ### Pre- and postconditions -/

/-- How a computation ends without a value. -/
inductive Stop (ε : Type) where
  | error (failure : ε)
  | panic
  | pending

/-- From a state in `before`, the task ends with a value and a state in
`after`, or without a value and in a state in `otherwise`. -/
def Triple (before : σ → Prop) (task : Task σ ε α) (after : α → σ → Prop)
    (otherwise : Stop ε → σ → Prop) : Prop :=
  ∀ state, before state →
    match task state with
    | (.ok value, reached) => after value reached
    | (.error failure, reached) => otherwise (.error failure) reached
    | (.panic, reached) => otherwise .panic reached
    | (.pending, reached) => otherwise .pending reached

/-- The task keeps `invariant`, however it ends. -/
def Preserves (invariant : σ → Prop) (task : Task σ ε α) : Prop :=
  Triple invariant task (fun _ => invariant) (fun _ => invariant)

/-- The task keeps `invariant` and ends with a value or an error. -/
def Returns (invariant : σ → Prop) (task : Task σ ε α) : Prop :=
  Triple invariant task (fun _ => invariant)
    (fun stop state => (∃ failure, stop = .error failure) ∧ invariant state)

namespace Triple

variable {before : σ → Prop} {after : α → σ → Prop} {otherwise : Stop ε → σ → Prop}

theorem pure (value : α) : Triple (after value) (Pure.pure value : Task σ ε α) after otherwise :=
  fun _ held => held

theorem bind {β : Type} {task : Task σ ε α} {next : α → Task σ ε β} {final : β → σ → Prop}
    (first : Triple before task after otherwise)
    (second : ∀ value, Triple (after value) (next value) final otherwise) :
    Triple before (task >>= next) final otherwise := by
  intro state held
  have step := first state held
  rw [run_bind]
  rcases run : task state with ⟨outcome, reached⟩
  rw [run] at step
  cases outcome with
  | ok value => exact second value reached step
  | error failure => exact step
  | panic => exact step
  | pending => exact step

theorem weaken {before' : σ → Prop} {after' : α → σ → Prop} {otherwise' : Stop ε → σ → Prop}
    {task : Task σ ε α} (triple : Triple before task after otherwise)
    (stronger : ∀ state, before' state → before state)
    (weaker : ∀ value state, after value state → after' value state)
    (stopping : ∀ stop state, otherwise stop state → otherwise' stop state) :
    Triple before' task after' otherwise' := by
  intro state held
  have step := triple state (stronger state held)
  rcases run : task state with ⟨outcome, reached⟩
  rw [run] at step
  cases outcome with
  | ok value => exact weaker value reached step
  | error failure => exact stopping _ reached step
  | panic => exact stopping _ reached step
  | pending => exact stopping _ reached step

private theorem turns {body : β → Task σ ε (β ⊕ α)} {invariant : β → σ → Prop}
    {variant : β → σ → Nat}
    (turn : ∀ carried size, Triple
      (fun state => invariant carried state ∧ variant carried state = size) (body carried)
      (fun result state => match result with
        | .inl next => invariant next state ∧ variant next state < size
        | .inr value => after value state) otherwise) :
    ∀ fuel carried, Triple
      (fun state => invariant carried state ∧ variant carried state < fuel)
      (Task.turns fuel body carried) after otherwise
  | 0, _ => fun _ held => absurd held.2 (Nat.not_lt_zero _)
  | fuel + 1, carried => by
      intro state held
      refine bind (turn carried (variant carried state)) (fun result => ?_) state ⟨held.1, rfl⟩
      cases result with
      | inl next =>
          intro reached kept
          have lower := held.2
          exact turns turn fuel next reached ⟨kept.1, by have := kept.2; omega⟩
      | inr value => exact pure value

/-- The loop rule: `invariant` is indexed by what a turn hands to the next one,
and every turn that starts another lowers `variant`. -/
theorem loop {size : σ → Nat} {body : β → Task σ ε (β ⊕ α)} (invariant : β → σ → Prop)
    (variant : β → σ → Nat) {start : β}
    (enough : ∀ state, invariant start state → variant start state ≤ size state)
    (turn : ∀ carried bound, Triple
      (fun state => invariant carried state ∧ variant carried state = bound) (body carried)
      (fun result state => match result with
        | .inl next => invariant next state ∧ variant next state < bound
        | .inr value => after value state) otherwise) :
    Triple (invariant start) (Task.loop size body start) after otherwise :=
  fun state held => turns turn (size state + 1) start state
    ⟨held, Nat.lt_succ_of_le (enough state held)⟩

private theorem turnsPartial {body : β → Task σ ε (β ⊕ α)} {invariant : β → σ → Prop}
    (stuck : ∀ carried state, invariant carried state → otherwise .pending state)
    (turn : ∀ carried, Triple (invariant carried) (body carried)
      (Sum.elim invariant after) otherwise) :
    ∀ fuel carried, Triple (invariant carried) (Task.turns fuel body carried) after otherwise
  | 0, carried => fun state held => stuck carried state held
  | fuel + 1, carried => by
      refine bind (turn carried) fun result => ?_
      cases result with
      | inl next => exact turnsPartial stuck turn fuel next
      | inr value => exact pure value

/-- The loop rule for a loop that may wait for ever. -/
theorem loopPartial {size : σ → Nat} {body : β → Task σ ε (β ⊕ α)} (invariant : β → σ → Prop)
    {start : β} (stuck : ∀ carried state, invariant carried state → otherwise .pending state)
    (turn : ∀ carried, Triple (invariant carried) (body carried)
      (Sum.elim invariant after) otherwise) :
    Triple (invariant start) (Task.loop size body start) after otherwise :=
  fun state held => turnsPartial stuck turn (size state + 1) start state held

/-- What a task does to a part, it does to the whole. -/
theorem zoom {read : σ → τ} {write : τ → σ → σ} {task : Task τ ε α} {before' : τ → Prop}
    {after' : α → τ → Prop} {otherwise' : Stop ε → τ → Prop}
    (triple : Triple before' task after' otherwise')
    (enters : ∀ state, before state → before' (read state))
    (leaves : ∀ state part value, before state → after' value part →
      after value (write part state))
    (stops : ∀ state part stop, before state → otherwise' stop part →
      otherwise stop (write part state)) :
    Triple before (Task.zoom read write task) after otherwise := by
  intro state held
  have step := triple (read state) (enters state held)
  unfold Task.zoom
  rcases run : task (read state) with ⟨outcome, reached⟩
  rw [run] at step
  cases outcome with
  | ok value => exact leaves state reached value held step
  | error failure => exact stops state reached _ held step
  | panic => exact stops state reached _ held step
  | pending => exact stops state reached _ held step

/-- A task that cannot stop without a value ends with one. -/
theorem ends {task : Task σ ε α} (triple : Triple before task after fun _ _ => False) {state : σ}
    (held : before state) :
    ∃ value reached, task state = (.ok value, reached) ∧ after value reached := by
  have step := triple state held
  rcases run : task state with ⟨outcome, reached⟩
  rw [run] at step
  cases outcome with
  | ok value => exact ⟨value, reached, rfl, step⟩
  | error failure => exact step.elim
  | panic => exact step.elim
  | pending => exact step.elim

end Triple

namespace Preserves

variable {invariant : σ → Prop}

theorem pure (value : α) : Preserves invariant (Pure.pure value : Task σ ε α) :=
  fun _ held => held

theorem throw (failure : ε) : Preserves invariant (Task.throw failure : Task σ ε α) :=
  fun _ held => held

theorem gets (read : σ → α) : Preserves invariant (Task.gets read : Task σ ε α) :=
  fun _ held => held

theorem lift (outcome : Outcome ε α) : Preserves invariant (Task.lift outcome : Task σ ε α) := by
  intro state held
  cases outcome <;> exact held

theorem modify {change : σ → σ} (kept : ∀ state, invariant state → invariant (change state)) :
    Preserves invariant (Task.modify change : Task σ ε Unit) :=
  fun state held => kept state held

theorem bind {task : Task σ ε α} {next : α → Task σ ε β} (first : Preserves invariant task)
    (second : ∀ value, Preserves invariant (next value)) :
    Preserves invariant (task >>= next) :=
  Triple.bind first second

theorem zoom {read : σ → τ} {write : τ → σ → σ} {task : Task τ ε α}
    (kept : ∀ state part, invariant state → invariant (write part state)) :
    Preserves invariant (Task.zoom read write task) := by
  intro state held
  have written := kept state (task (read state)).2 held
  unfold Task.zoom
  rcases run : task (read state) with ⟨outcome, reached⟩
  rw [run] at written
  cases outcome <;> exact written

private theorem turns {body : β → Task σ ε (β ⊕ α)}
    (turn : ∀ carried, Preserves invariant (body carried)) :
    ∀ fuel carried, Preserves invariant (Task.turns fuel body carried)
  | 0, _ => fun _ held => held
  | fuel + 1, carried => by
      apply bind (turn carried)
      intro result
      cases result with
      | inl next => exact turns turn fuel next
      | inr value => exact pure value

theorem loop {size : σ → Nat} {body : β → Task σ ε (β ⊕ α)}
    (turn : ∀ carried, Preserves invariant (body carried)) (start : β) :
    Preserves invariant (Task.loop size body start) :=
  fun state held => turns turn (size state + 1) start state held

theorem and {other : σ → Prop} {task : Task σ ε α} (first : Preserves invariant task)
    (second : Preserves other task) :
    Preserves (fun state => invariant state ∧ other state) task := by
  intro state held
  have left := first state held.1
  have right := second state held.2
  rcases run : task state with ⟨outcome, reached⟩
  rw [run] at left right
  cases outcome <;> exact ⟨left, right⟩

/-- The invariant holds of the state a task leaves behind. -/
theorem final {task : Task σ ε α} (preserved : Preserves invariant task) {state : σ}
    (held : invariant state) : invariant (task state).2 := by
  have step := preserved state held
  rcases run : task state with ⟨outcome, reached⟩
  rw [run] at step
  cases outcome <;> exact step

end Preserves

namespace Returns

variable {invariant : σ → Prop}

theorem pure (value : α) : Returns invariant (Pure.pure value : Task σ ε α) :=
  fun _ held => held

theorem throw (failure : ε) : Returns invariant (Task.throw failure : Task σ ε α) :=
  fun _ held => ⟨⟨failure, rfl⟩, held⟩

theorem gets (read : σ → α) : Returns invariant (Task.gets read : Task σ ε α) :=
  fun _ held => held

theorem modify {change : σ → σ} (kept : ∀ state, invariant state → invariant (change state)) :
    Returns invariant (Task.modify change : Task σ ε Unit) :=
  fun state held => kept state held

theorem bind {task : Task σ ε α} {next : α → Task σ ε β} (first : Returns invariant task)
    (second : ∀ value, Returns invariant (next value)) : Returns invariant (task >>= next) :=
  Triple.bind first second

theorem zoom {read : σ → τ} {write : τ → σ → σ} {task : Task τ ε α}
    (returns : Returns (fun _ => True) task)
    (kept : ∀ state part, invariant state → invariant (write part state)) :
    Returns invariant (Task.zoom read write task) := by
  intro state held
  have step := returns (read state) trivial
  have written := kept state (task (read state)).2 held
  unfold Task.zoom
  rcases run : task (read state) with ⟨outcome, reached⟩
  rw [run] at written step
  cases outcome with
  | ok value => exact written
  | error failure => exact ⟨⟨failure, rfl⟩, written⟩
  | panic => exact nomatch step.1.choose_spec
  | pending => exact nomatch step.1.choose_spec

end Returns

end Task

end Unroxy.Lib
