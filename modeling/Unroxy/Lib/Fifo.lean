import Mathlib.Data.List.Basic

/-!
Owns queues of elements that are put in and taken out in pieces, with all that
has gone through them.

What came out and what is still there is what went in, in its order: a history
for which this fails cannot be built.

Does not own how a queue is stored.
-/

namespace Unroxy.Lib

/-- What was put in, what was taken out, and what is in between. -/
structure Fifo (α : Type) where
  entered : List α
  taken : List α
  held : List α
  conserved : taken ++ held = entered

namespace Fifo

variable {α : Type}

def empty : Fifo α := ⟨[], [], [], rfl⟩

def put (self : Fifo α) (items : List α) : Fifo α where
  entered := self.entered ++ items
  taken := self.taken
  held := self.held ++ items
  conserved := by rw [← List.append_assoc, self.conserved]

def take (self : Fifo α) (count : Nat) : Fifo α where
  entered := self.entered
  taken := self.taken ++ self.held.take count
  held := self.held.drop count
  conserved := by rw [List.append_assoc, List.take_append_drop, self.conserved]

/-- The later queue comes from the earlier one by an operation. -/
inductive Step : Fifo α → Fifo α → Prop where
  | put (self : Fifo α) (items : List α) : Step self (self.put items)
  | take (self : Fifo α) (count : Nat) : Step self (self.take count)

@[simp] theorem take_zero (self : Fifo α) : self.take 0 = self := by
  simp [take]

/-- Taking nothing is an operation. -/
theorem Step.stay (self : Fifo α) : Step self self := by
  have nothing := Step.take self 0
  rw [take_zero] at nothing
  exact nothing

/-- An empty queue has given everything back. -/
theorem taken_of_held_nil {self : Fifo α} (nothing : self.held = []) :
    self.taken = self.entered := by
  rw [← self.conserved, nothing, List.append_nil]

/-- Taking the beginning of what is there. -/
theorem take_of_append {self : Fifo α} {items rest : List α} (parts : items ++ rest = self.held) :
    (self.take items.length).taken = self.taken ++ items ∧
      (self.take items.length).held = rest := by
  simp [take, ← parts]

end Fifo

end Unroxy.Lib
