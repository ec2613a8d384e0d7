import Mathlib.Data.List.Basic

/-!
Owns maps with any number of values under a key, seen as the values of each key.

Does not own an order between the keys.
-/

namespace Unroxy.Lib

/-- The values of a key come in the order in which they are listed. -/
abbrev Multimap (κ ν : Type) := List (κ × ν)

namespace Multimap

variable {κ ν : Type} [DecidableEq κ]

def values (self : Multimap κ ν) (key : κ) : List ν :=
  (self.filter fun entry => entry.1 = key).map Prod.snd

/-- The first value of the key. -/
def get (self : Multimap κ ν) (key : κ) : Option ν := (self.values key).head?

def remove (self : Multimap κ ν) (key : κ) : Multimap κ ν :=
  self.filter fun entry => entry.1 ≠ key

def removeAll (self : Multimap κ ν) (keys : List κ) : Multimap κ ν := keys.foldl remove self

/-- The value takes the place of all values of the key. -/
def insert (self : Multimap κ ν) (key : κ) (value : ν) : Multimap κ ν :=
  self.remove key ++ [(key, value)]

variable (self : Multimap κ ν) (key other : κ) (value : ν)

@[simp] theorem values_remove :
    (self.remove key).values other = if other = key then [] else self.values other := by
  rw [values, remove, List.filter_filter]
  split
  case isTrue same =>
    subst same
    simp
  case isFalse different =>
    rw [values]
    congr 2
    funext entry
    simp only [Bool.and_eq_left_iff_imp, decide_eq_true_eq]
    rintro rfl
    simpa using different

@[simp] theorem values_removeAll (keys : List κ) :
    (self.removeAll keys).values other = if other ∈ keys then [] else self.values other := by
  induction keys generalizing self with
  | nil => simp [removeAll]
  | cons key keys inductionHypothesis =>
      change ((self.remove key).removeAll keys).values other = _
      rw [inductionHypothesis, values_remove]
      by_cases same : other = key
      · simp [same]
      · simp [same]

@[simp] theorem values_insert :
    (self.insert key value).values other = if other = key then [value] else self.values other := by
  have parts : (self.insert key value).values other =
      (self.remove key).values other ++ values [(key, value)] other := by
    rw [insert, values, List.filter_append, List.map_append]
    rfl
  rw [parts, values_remove]
  by_cases same : other = key
  · simp [same, values]
  · simp [same, Ne.symm same, values]

end Multimap

end Unroxy.Lib
