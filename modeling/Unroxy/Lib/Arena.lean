import Mathlib.Data.List.Basic

/-!
Owns cells that are shared by reference.

A reference is the place of a cell. `alloc` gives a place no reference has yet,
and `modify` changes one cell for everyone who has a reference to it.

Does not own what is in a cell.
-/

namespace Unroxy.Lib

structure Arena (α : Type) where
  cells : List α
deriving DecidableEq, Repr

namespace Arena

variable {α : Type}

def empty : Arena α := ⟨[]⟩

def size (arena : Arena α) : Nat := arena.cells.length

def get [Inhabited α] (arena : Arena α) (place : Nat) : α := arena.cells.getD place default

/-- A new cell: its place, and the arena with it. -/
def alloc (arena : Arena α) (cell : α) : Nat × Arena α := (arena.size, ⟨arena.cells ++ [cell]⟩)

def modify (arena : Arena α) (place : Nat) (change : α → α) : Arena α :=
  ⟨arena.cells.modify place change⟩

variable (arena : Arena α)

@[simp] theorem size_alloc (cell : α) : (arena.alloc cell).2.size = arena.size + 1 := by
  simp [alloc, size]

@[simp] theorem size_modify (place : Nat) (change : α → α) :
    (arena.modify place change).size = arena.size := by
  simp [modify, size]

variable [Inhabited α]

@[simp] theorem get_alloc_size (cell : α) : (arena.alloc cell).2.get arena.size = cell := by
  simp [alloc, get, size]

theorem get_of_size_le {place : Nat} (unknown : arena.size ≤ place) : arena.get place = default := by
  have outside : arena.cells.length ≤ place := unknown
  simp [get, List.getD_eq_getElem?_getD, outside]

theorem get_alloc_of_lt (cell : α) {place : Nat} (known : place < arena.size) :
    (arena.alloc cell).2.get place = arena.get place := by
  have inside : place < arena.cells.length := known
  simp [alloc, get, List.getD_eq_getElem?_getD, List.getElem?_append_left inside]

theorem get_modify_self (change : α → α) {place : Nat} (known : place < arena.size) :
    (arena.modify place change).get place = change (arena.get place) := by
  have inside : place < arena.cells.length := known
  simp [modify, get, List.getD_eq_getElem?_getD, List.getElem?_eq_getElem inside]

theorem get_modify_of_ne (change : α → α) {place other : Nat} (different : place ≠ other) :
    (arena.modify place change).get other = arena.get other := by
  simp [modify, get, List.getD_eq_getElem?_getD, different]

theorem get_modify (change : α → α) (place : Nat) {other : Nat} (known : other < arena.size) :
    (arena.modify place change).get other =
      if place = other then change (arena.get other) else arena.get other := by
  split
  case isTrue same =>
    cases same
    exact arena.get_modify_self change known
  case isFalse different => exact arena.get_modify_of_ne change different

omit [Inhabited α] in
theorem size_foldl_modify {β : Type} (place : β → Nat) (change : α → α) (items : List β) :
    (items.foldl (fun arena item => arena.modify (place item) change) arena).size =
      arena.size := by
  induction items generalizing arena with
  | nil => rfl
  | cons item rest inductionHypothesis =>
      rw [List.foldl_cons, inductionHypothesis, size_modify]

/-- Changing many cells, each of them once. -/
theorem get_foldl_modify {β : Type} (place : β → Nat) (change : α → α) {items : List β}
    (distinct : (items.map place).Nodup) {other : Nat} (known : other < arena.size) :
    (items.foldl (fun arena item => arena.modify (place item) change) arena).get other =
      if other ∈ items.map place then change (arena.get other) else arena.get other := by
  induction items generalizing arena with
  | nil => rfl
  | cons item rest inductionHypothesis =>
      have parts := List.nodup_cons.mp distinct
      have inside : other < (arena.modify (place item) change).size := by rwa [size_modify]
      rw [List.foldl_cons, inductionHypothesis _ parts.2 inside, get_modify _ _ _ known]
      by_cases same : place item = other
      · have absent : other ∉ rest.map place := same ▸ parts.1
        simp [same, absent]
      · by_cases later : other ∈ rest.map place
        · simp [same, later]
        · simp [same, later, Ne.symm same]

omit [Inhabited α] in
/-- The last value counts. -/
theorem modify_modify (place : Nat) (first second : α) :
    (arena.modify place fun _ => first).modify place (fun _ => second) =
      arena.modify place fun _ => second := by
  simp [modify, List.modify_modify_eq, Function.comp_def]

theorem modify_get {place : Nat} (known : place < arena.size) :
    (arena.modify place fun _ => arena.get place) = arena := by
  have inside : place < arena.cells.length := known
  simp [modify, get, List.modify_eq_set_getElem?, List.getD_eq_getElem?_getD, inside]

end Arena

end Unroxy.Lib
