import Mathlib.Data.List.Basic

/-!
Owns storage that hands out places and uses the free ones again.

An item goes to the first free slot, or behind the last one. `count` is how many
slots are taken.

Does not own what is stored.
-/

namespace Unroxy.Lib

structure Slab (α : Type) where
  slots : List (Option α)
deriving DecidableEq, Repr

namespace Slab

variable {α : Type}

def empty : Slab α := ⟨[]⟩

def get? (slab : Slab α) (place : Nat) : Option α := slab.slots[place]?.join

/-- Where the next item goes. -/
def vacant (slab : Slab α) : Nat := slab.slots.findIdx Option.isNone

/-- The place of the new item, and the slab with it. -/
def insert (slab : Slab α) (item : α) : Nat × Slab α :=
  if slab.vacant < slab.slots.length then
    (slab.vacant, ⟨slab.slots.set slab.vacant (some item)⟩)
  else
    (slab.slots.length, ⟨slab.slots ++ [some item]⟩)

/-- Change the item at a taken place. -/
def replace (slab : Slab α) (place : Nat) (item : α) : Slab α :=
  match slab.get? place with
  | none => slab
  | some _ => ⟨slab.slots.set place (some item)⟩

/-- The item at a place and the slab without it, `none` for a free place. -/
def remove? (slab : Slab α) (place : Nat) : Option (α × Slab α) :=
  (slab.get? place).map fun item => (item, ⟨slab.slots.set place none⟩)

def count (slab : Slab α) : Nat := slab.slots.countP Option.isSome

variable (slab : Slab α)

/-! ### Where items are -/

theorem get?_eq_some {place : Nat} {item : α} :
    slab.get? place = some item ↔ slab.slots[place]? = some (some item) :=
  Option.join_eq_some_iff

theorem get?_empty (place : Nat) : (empty : Slab α).get? place = none := by
  simp [get?, empty]

theorem vacant_free : slab.get? slab.vacant = none := by
  rcases Nat.lt_or_ge slab.vacant slab.slots.length with inside | outside
  · have free : (slab.slots[slab.vacant]).isNone = true := List.findIdx_getElem (w := inside)
    simp [get?, List.getElem?_eq_getElem inside, Option.isNone_iff_eq_none.mp free]
  · simp [get?, List.getElem?_eq_none outside]

/-- A new item gets a place that nothing has. -/
theorem insert_fresh (item : α) : slab.get? (slab.insert item).1 = none := by
  unfold insert
  split
  · exact slab.vacant_free
  · simp [get?]

theorem get?_insert_self (item : α) :
    (slab.insert item).2.get? (slab.insert item).1 = some item := by
  unfold insert
  split
  case isTrue inside => simp [get?, inside]
  case isFalse => simp [get?]

theorem get?_insert_of_ne (item : α) {place : Nat} (other : place ≠ (slab.insert item).1) :
    (slab.insert item).2.get? place = slab.get? place := by
  unfold insert at other ⊢
  split
  case isTrue inside =>
    rw [if_pos inside] at other
    simp [get?, List.getElem?_set_ne (Ne.symm other)]
  case isFalse full =>
    rw [if_neg full] at other
    rcases Nat.lt_or_gt_of_ne other with before | behind
    · simp [get?, List.getElem?_append_left before]
    · have beyond : (slab.slots ++ [some item]).length ≤ place := by
        rw [List.length_append]
        exact behind
      simp [get?, List.getElem?_eq_none beyond, List.getElem?_eq_none (Nat.le_of_lt behind)]

theorem get?_replace_self {place : Nat} {before : α} (taken : slab.get? place = some before)
    (item : α) : (slab.replace place item).get? place = some item := by
  have inside : place < slab.slots.length :=
    (List.getElem?_eq_some_iff.mp (slab.get?_eq_some.mp taken)).1
  unfold replace
  rw [taken]
  simp [get?, inside]

theorem get?_replace_of_ne {place other : Nat} (different : other ≠ place) (item : α) :
    (slab.replace place item).get? other = slab.get? other := by
  unfold replace
  split
  · rfl
  · simp [get?, List.getElem?_set_ne (Ne.symm different)]

theorem remove?_eq_some {place : Nat} {item : α} (taken : slab.get? place = some item) :
    slab.remove? place = some (item, ⟨slab.slots.set place none⟩) := by
  simp [remove?, taken]

theorem get?_remove_of_ne {place other : Nat} (different : other ≠ place) {item : α}
    {after : Slab α} (removed : slab.remove? place = some (item, after)) :
    after.get? other = slab.get? other := by
  unfold remove? at removed
  rcases Option.map_eq_some_iff.mp removed with ⟨found, -, same⟩
  cases same
  simp [get?, List.getElem?_set_ne (Ne.symm different)]

theorem get?_remove_self {place : Nat} {item : α} {after : Slab α}
    (removed : slab.remove? place = some (item, after)) : after.get? place = none := by
  unfold remove? at removed
  rcases Option.map_eq_some_iff.mp removed with ⟨found, taken, same⟩
  cases same
  have inside : place < slab.slots.length :=
    (List.getElem?_eq_some_iff.mp (slab.get?_eq_some.mp taken)).1
  simp [get?, inside]

/-! ### How many there are -/

private theorem countP_set {slots : List (Option α)} {place : Nat} {before : Option α}
    (there : slots[place]? = some before) (after : Option α) :
    (slots.set place after).countP Option.isSome + (if before.isSome then 1 else 0) =
      slots.countP Option.isSome + (if after.isSome then 1 else 0) := by
  induction slots generalizing place with
  | nil => simp at there
  | cons head tail inductionHypothesis =>
      cases place with
      | zero =>
          cases there
          simp only [List.set_cons_zero, List.countP_cons]
          omega
      | succ place =>
          have later := @inductionHypothesis place (by simpa using there)
          simp only [List.set_cons_succ, List.countP_cons]
          omega

@[simp] theorem count_empty : (empty : Slab α).count = 0 := rfl

theorem count_insert (item : α) : (slab.insert item).2.count = slab.count + 1 := by
  unfold insert
  split
  case isTrue inside =>
    have free := slab.vacant_free
    have there : slab.slots[slab.vacant]? = some none := by
      rw [get?, List.getElem?_eq_getElem inside] at free
      rw [List.getElem?_eq_getElem inside]
      simpa using free
    simpa [count] using countP_set there (some item)
  case isFalse => simp [count]

theorem count_replace (place : Nat) (item : α) : (slab.replace place item).count = slab.count := by
  unfold replace
  split
  case h_1 => rfl
  case h_2 before taken =>
    simpa [count] using countP_set (slab.get?_eq_some.mp taken) (some item)

theorem count_remove {place : Nat} {item : α} {after : Slab α}
    (removed : slab.remove? place = some (item, after)) : after.count + 1 = slab.count := by
  unfold remove? at removed
  rcases Option.map_eq_some_iff.mp removed with ⟨found, taken, same⟩
  cases same
  simpa [count] using countP_set (slab.get?_eq_some.mp taken) none

end Slab

end Unroxy.Lib
