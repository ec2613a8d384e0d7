import Mathlib.Data.Stream.Init

/-!
Owns infinite streams that are made of blocks of one size, and how many of their
elements come before a given place.

`concatenation_cons` says what the stream is: its first block, then the
concatenation of the others.

Does not own where the blocks come from.
-/

namespace Unroxy.Lib

open Stream'

variable {α β : Type}

/-! ### Beginnings of streams -/

/-- The beginning of a list that a stream goes on from. -/
theorem take_append_stream (list : List α) (stream : Stream' α) :
    ∀ count, Stream'.take count (list ++ₛ stream) =
      list.take count ++ Stream'.take (count - list.length) stream := by
  induction list with
  | nil => simp
  | cons head rest inductionHypothesis =>
      intro count
      cases count with
      | zero => simp
      | succ count =>
          rw [cons_append_stream, take_succ_cons, inductionHypothesis, List.take_succ_cons,
            List.length_cons, Nat.succ_sub_succ, List.cons_append]

theorem take_zip_stream (combine : α → α → β) (count : Nat) :
    ∀ left right : Stream' α, Stream'.take count (Stream'.zip combine left right) =
      List.zipWith combine (Stream'.take count left) (Stream'.take count right) := by
  induction count with
  | zero => exact fun _ _ => rfl
  | succ count inductionHypothesis =>
      intro left right
      rw [take_succ, take_succ, take_succ, List.zipWith_cons_cons, ← inductionHypothesis]
      rfl

/-! ### Blocks -/

variable [Inhabited α]

/-- The blocks one after the other, each of this size: place `n` is place
`n % size` of block `n / size`. -/
def concatenation (size : Nat) (block : Nat → List α) : Stream' α :=
  fun place => (block (place / size)).getD (place % size) default

theorem concatenation_cons {size : Nat} (positive : 0 < size) {block : Nat → List α}
    (sized : ∀ number, (block number).length = size) :
    concatenation size block =
      block 0 ++ₛ concatenation size fun number => block (number + 1) := by
  apply Stream'.ext
  intro place
  by_cases first : place < (block 0).length
  · rw [get_append_left _ _ _ first]
    rw [sized] at first
    show (block (place / size)).getD (place % size) default = _
    rw [Nat.div_eq_of_lt first, Nat.mod_eq_of_lt first, List.getD_eq_getElem?_getD,
      List.getElem?_eq_getElem, Option.getD_some]
  · obtain ⟨later, rfl⟩ := Nat.exists_eq_add_of_le (Nat.not_lt.mp first)
    rw [get_append_right]
    show (block (((block 0).length + later) / size)).getD (((block 0).length + later) % size) _ = _
    rw [sized, Nat.add_div_left later positive, Nat.add_mod_left]
    rfl

end Unroxy.Lib
