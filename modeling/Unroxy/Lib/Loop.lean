import Mathlib.Data.List.Basic

/-!
Owns loops whose body can fail and says whether to go on, and what it is for one
to come to an end.

A loop that is run for a number of turns returns something in any case.
`Loop` holds only if the body itself has asked to stop or has failed, and
`loop_iterate` gives that from a measure.

Does not own any particular loop.
-/

namespace Unroxy.Lib

variable {σ ε : Type}

/-- From this state the loop comes to an end with this result. -/
inductive Loop (turn : σ → Except ε (Bool × σ)) : σ → Except ε σ → Prop where
  | stops {state after : σ} (last : turn state = .ok (false, after)) : Loop turn state (.ok after)
  | fails {state : σ} {failure : ε} (failed : turn state = .error failure) :
      Loop turn state (.error failure)
  | goesOn {state between : σ} {result : Except ε σ} (one : turn state = .ok (true, between))
      (later : Loop turn between result) : Loop turn state result

/-- At most this many turns. -/
def iterate (turn : σ → Except ε (Bool × σ)) : Nat → σ → Except ε σ
  | 0, state => .ok state
  | fuel + 1, state =>
      match turn state with
      | .error failure => .error failure
      | .ok (again, after) => if again then iterate turn fuel after else .ok after

/-- Every turn that is followed by another lowers the measure, and there is
nothing to do when it is zero. -/
structure Measured (turn : σ → Except ε (Bool × σ)) (measure : σ → Nat) : Prop where
  lowers : ∀ state after, turn state = .ok (true, after) → measure after < measure state
  idle : ∀ state, measure state = 0 → turn state = .ok (false, state)

/-- As many turns as the measure says are enough. -/
theorem loop_iterate {turn : σ → Except ε (Bool × σ)} {measure : σ → Nat}
    (measured : Measured turn measure) (fuel : Nat) :
    ∀ {state : σ}, measure state ≤ fuel → Loop turn state (iterate turn fuel state) := by
  induction fuel with
  | zero =>
      intro state enough
      exact .stops (measured.idle state (Nat.le_zero.mp enough))
  | succ fuel inductionHypothesis =>
      intro state enough
      rw [iterate]
      cases ran : turn state with
      | error failure => exact .fails ran
      | ok result =>
          rcases result with ⟨again, after⟩
          dsimp only
          cases again with
          | false => exact .stops ran
          | true =>
              have less := measured.lowers state after ran
              exact .goesOn ran (inductionHypothesis (by omega))

end Unroxy.Lib
