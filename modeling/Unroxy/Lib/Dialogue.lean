import Unroxy.Lib.Run

/-!
Owns programs that talk over a stream: they read an exact number of items, write
some, and put questions to what is around them.

A program that gets its input piece by piece says what it would say if the input
were all there, and ends in the same place (`run_feed`).

Does not own what the questions are.
-/

namespace Unroxy.Lib

/-- A program over items of `α` that puts questions `κ`, is answered by `ρ` and
ends in one of the ways `ε`. -/
inductive Dialogue (α κ : Type) (ρ : κ → Type) (ε : Type) where
  | read (count : Nat) (next : List α → Dialogue α κ ρ ε)
  | write (items : List α) (next : Dialogue α κ ρ ε)
  | ask (question : κ) (next : ρ question → Dialogue α κ ρ ε)
  | done (ending : ε)

namespace Dialogue

variable {α κ : Type} {ρ : κ → Type} {ε : Type}

/-- What a program does to the outside. -/
inductive Said (α κ : Type) where
  | wrote (items : List α)
  | asked (question : κ)
deriving DecidableEq, Repr

/-- A program under way: what it has said, what is left of it, and the input it
has not read. -/
structure Talk (α κ : Type) (ρ : κ → Type) (ε : Type) where
  said : List (Said α κ)
  program : Dialogue α κ ρ ε
  rest : List α

def Talk.after (said : List (Said α κ)) (talk : Talk α κ ρ ε) : Talk α κ ρ ε :=
  { talk with said := said ++ talk.said }

variable (answer : (question : κ) → ρ question)

/-- As far as the input goes. -/
def advance : Dialogue α κ ρ ε → List α → Talk α κ ρ ε
  | .read count next, input =>
      if count ≤ input.length then advance (next (input.take count)) (input.drop count)
      else ⟨[], .read count next, input⟩
  | .write items next, input => (advance next input).after [.wrote items]
  | .ask question next, input => (advance (next (answer question)) input).after [.asked question]
  | .done ending, input => ⟨[], .done ending, input⟩

theorem advance_read {count : Nat} {next : List α → Dialogue α κ ρ ε} {front rest : List α}
    (size : front.length = count) :
    advance answer (.read count next) (front ++ rest) = advance answer (next front) rest := by
  rw [advance, if_pos (by rw [List.length_append]; omega), List.take_left' size,
    List.drop_left' size]

theorem advance_short {count : Nat} {next : List α → Dialogue α κ ρ ε} {input : List α}
    (short : input.length < count) :
    advance answer (.read count next) input = ⟨[], .read count next, input⟩ := by
  rw [advance, if_neg (Nat.not_le.mpr short)]

/-- The next piece of the input. -/
def Talk.feed (talk : Talk α κ ρ ε) (chunk : List α) : Talk α κ ρ ε :=
  (advance answer talk.program (talk.rest ++ chunk)).after talk.said

theorem advance_append (program : Dialogue α κ ρ ε) (input more : List α) :
    advance answer program (input ++ more) = (advance answer program input).feed answer more := by
  induction program generalizing input with
  | read count next inductionHypothesis =>
      rcases Nat.lt_or_ge input.length count with short | enough
      · rw [advance_short answer short]
        rfl
      · have parts : input.take count ++ (input.drop count ++ more) = input ++ more := by
          rw [← List.append_assoc, List.take_append_drop]
        have size : (input.take count).length = count := List.length_take_of_le enough
        have whole : advance answer (.read count next) (input.take count ++ input.drop count) =
            advance answer (next (input.take count)) (input.drop count) := advance_read answer size
        rw [List.take_append_drop] at whole
        rw [← parts, advance_read answer size, inductionHypothesis, whole]
  | write items next inductionHypothesis =>
      rw [advance, inductionHypothesis, advance]
      rfl
  | ask question next inductionHypothesis =>
      rw [advance, inductionHypothesis, advance]
      rfl
  | done ending => rfl

/-- How the input is cut makes no difference. -/
theorem run_feed (program : Dialogue α κ ρ ε) (chunks : List (List α)) :
    run (Talk.feed answer) (advance answer program []) chunks =
      advance answer program chunks.flatten := by
  have onward (input : List α) : run (Talk.feed answer) (advance answer program input) chunks =
      advance answer program (input ++ chunks.flatten) := by
    induction chunks generalizing input with
    | nil =>
        rw [List.flatten_nil, List.append_nil]
        rfl
    | cons chunk rest inductionHypothesis =>
        rw [run_cons, ← advance_append, inductionHypothesis, List.flatten_cons, List.append_assoc]
  exact onward []

end Dialogue

end Unroxy.Lib
