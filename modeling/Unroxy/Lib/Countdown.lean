import Mathlib.Algebra.Order.Group.Nat

/-!
Owns countdowns: at every tick what is left gets smaller by a unit, until a tick
fires and it is set back.

A countdown fires at its first tick and then at equal distances, and at no other
tick (`Punctual`).

Does not own what happens when it fires.
-/

namespace Unroxy.Lib.Countdown

variable {unit reset first left ticks : Nat} {fired : List Nat}

/-- The ticks until it fires. -/
def wait (unit left : Nat) : Nat := (left - 1) / unit + 1

theorem wait_pos (unit left : Nat) : 0 < wait unit left := Nat.succ_pos _

theorem wait_more (some : 0 < unit) (more : unit < left) :
    wait unit left = wait unit (left - unit) + 1 := by
  obtain ⟨rest, rfl⟩ := Nat.exists_eq_add_of_lt more
  have smaller : unit + rest + 1 - 1 = rest + unit := by omega
  have left : unit + rest + 1 - unit - 1 = rest := by omega
  rw [wait, wait, smaller, left, Nat.add_div_right rest some]

theorem wait_last (last : left ≤ unit) (some : 0 < unit) : wait unit left = 1 := by
  rw [wait, Nat.div_eq_of_lt (by omega)]

/-- What has fired is what should have by now, and so is what fires next. -/
structure Punctual (unit reset first left ticks : Nat) (fired : List Nat) : Prop where
  due : ∀ tick, tick ∈ fired ↔
    tick ≤ ticks ∧ ∃ turn, tick = first + turn * wait unit reset
  sorted : fired.Pairwise (· < ·)
  next : ∃ turn, ticks + wait unit left = first + turn * wait unit reset ∧
    ∀ earlier, first + earlier * wait unit reset ≤ ticks ↔ earlier < turn

theorem punctual_start (unit reset left : Nat) :
    Punctual unit reset (wait unit left) left 0 [] where
  due tick := by
    constructor
    · exact fun among => absurd among List.not_mem_nil
    · rintro ⟨early, turn, rfl⟩
      have later := wait_pos unit left
      omega
  sorted := .nil
  next := by
    refine ⟨0, by omega, fun earlier => ?_⟩
    constructor
    · intro early
      have later := wait_pos unit left
      omega
    · exact fun impossible => absurd impossible (Nat.not_lt_zero _)

/-- A turn that is not over yet comes later than those that are. -/
theorem turn_le (period : Nat) {turn other : Nat} (later : turn ≤ other) :
    first + turn * period ≤ first + other * period :=
  Nat.add_le_add_left (Nat.mul_le_mul_right period later) first

theorem Punctual.waits (punctual : Punctual unit reset first left ticks fired)
    (some : 0 < unit) (more : unit < left) :
    Punctual unit reset first (left - unit) (ticks + 1) fired := by
  obtain ⟨turn, atTurn, before⟩ := punctual.next
  rw [wait_more some more] at atTurn
  have since : ∀ earlier, first + earlier * wait unit reset ≤ ticks + 1 ↔ earlier < turn := by
    intro earlier
    constructor
    · intro early
      by_contra later
      have bound := @turn_le first (wait unit reset) turn earlier (Nat.le_of_not_lt later)
      have still := wait_pos unit (left - unit)
      omega
    · exact fun early => Nat.le_succ_of_le ((before earlier).mpr early)
  refine ⟨fun tick => ?_, punctual.sorted, turn, by omega, since⟩
  rw [punctual.due]
  constructor
  · exact fun early => ⟨Nat.le_succ_of_le early.1, early.2⟩
  · rintro ⟨early, earlier, rfl⟩
    exact ⟨(before earlier).mpr ((since earlier).mp early), earlier, rfl⟩

theorem Punctual.fires (punctual : Punctual unit reset first left ticks fired)
    (some : 0 < unit) (last : left ≤ unit) :
    Punctual unit reset first reset (ticks + 1) (fired ++ [ticks + 1]) := by
  obtain ⟨turn, atTurn, before⟩ := punctual.next
  rw [wait_last last some] at atTurn
  have after : first + (turn + 1) * wait unit reset = ticks + 1 + wait unit reset := by
    rw [Nat.succ_mul]
    omega
  have since : ∀ earlier, first + earlier * wait unit reset ≤ ticks + 1 ↔ earlier < turn + 1 := by
    intro earlier
    constructor
    · intro early
      by_contra later
      have bound := @turn_le first (wait unit reset) (turn + 1) earlier (Nat.le_of_not_lt later)
      have positive := wait_pos unit reset
      omega
    · intro early
      have bound := @turn_le first (wait unit reset) earlier turn (Nat.le_of_lt_succ early)
      omega
  refine ⟨fun tick => ?_, ?_, turn + 1, after.symm, since⟩
  · rw [List.mem_append, List.mem_singleton, punctual.due]
    constructor
    · rintro (early | rfl)
      · exact ⟨Nat.le_succ_of_le early.1, early.2⟩
      · exact ⟨Nat.le_refl _, turn, atTurn⟩
    · rintro ⟨early, earlier, rfl⟩
      rcases Nat.lt_or_ge earlier turn with old | new
      · exact .inl ⟨(before earlier).mpr old, earlier, rfl⟩
      · have same : earlier = turn := Nat.le_antisymm
          (Nat.le_of_lt_succ ((since earlier).mp early)) new
        rw [same, ← atTurn]
        exact .inr rfl
  · rw [List.pairwise_append]
    refine ⟨punctual.sorted, List.pairwise_singleton _ _, ?_⟩
    intro tick among later same
    rw [List.mem_singleton.mp same]
    exact Nat.lt_succ_of_le ((punctual.due tick).mp among).1

end Unroxy.Lib.Countdown
