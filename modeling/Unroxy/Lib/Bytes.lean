import Mathlib.Algebra.Group.Nat.Defs
import Mathlib.Data.List.Basic
import Mathlib.Data.Nat.Basic

/-!
Owns byte strings, checked slicing and big-endian words.

A slice or an index outside its byte string is a value of its own,
`SliceError.outOfRange`, so that "never panics" is a statement about results and
not an assumption. Words are read and written most significant byte first, and
the two directions undo each other.

Does not own any message layout.
-/

namespace Unroxy.Lib

abbrev Bytes := List UInt8

/-- What an out-of-range slice does in place of returning bytes. -/
inductive SliceError where
  | outOfRange
deriving DecidableEq, Repr

abbrev Checked := Except SliceError

/-! ### Checked slices -/

/-- `bytes[i]`. -/
def index (bytes : Bytes) (position : Nat) : Checked UInt8 :=
  match bytes[position]? with
  | some byte => .ok byte
  | none => .error .outOfRange

/-- `bytes[start..stop]`. -/
def slice (bytes : Bytes) (start stop : Nat) : Checked Bytes :=
  if start ≤ stop ∧ stop ≤ bytes.length then
    .ok ((bytes.drop start).take (stop - start))
  else
    .error .outOfRange

/-- `bytes[start..]`. -/
def sliceFrom (bytes : Bytes) (start : Nat) : Checked Bytes :=
  slice bytes start bytes.length

theorem bind_ok {α β : Type} {first : Checked α} {next : α → Checked β} {value : β}
    (ran : (first >>= next) = .ok value) :
    ∃ result, first = .ok result ∧ next result = .ok value := by
  cases first with
  | error failure => cases ran
  | ok result => exact ⟨result, rfl, ran⟩

theorem index_of_lt {bytes : Bytes} {position : Nat} (below : position < bytes.length) :
    index bytes position = .ok bytes[position] := by
  simp [index, List.getElem?_eq_getElem below]

theorem slice_of_le {bytes : Bytes} {start stop : Nat} (ordered : start ≤ stop)
    (within : stop ≤ bytes.length) :
    slice bytes start stop = .ok ((bytes.drop start).take (stop - start)) := by
  simp [slice, ordered, within]

theorem sliceFrom_of_le {bytes : Bytes} {start : Nat} (within : start ≤ bytes.length) :
    sliceFrom bytes start = .ok (bytes.drop start) := by
  rw [sliceFrom, slice_of_le within le_rfl, List.take_of_length_le (by simp)]

theorem sliceFrom_of_gt {bytes : Bytes} {start : Nat} (beyond : bytes.length < start) :
    sliceFrom bytes start = .error .outOfRange := by
  simp [sliceFrom, slice, Nat.not_le.mpr beyond]

/-! ### Big-endian words -/

/-- `u32::to_be_bytes`. -/
def u32ToBe (value : UInt32) : Bytes :=
  [UInt8.ofNat (value.toNat / 2 ^ 24), UInt8.ofNat (value.toNat / 2 ^ 16),
    UInt8.ofNat (value.toNat / 2 ^ 8), UInt8.ofNat value.toNat]

/-- `u32::from_be_bytes` behind `try_into`: only four bytes make a word. -/
def u32FromBe : Bytes → Option UInt32
  | [b3, b2, b1, b0] =>
      some (UInt32.ofNat
        (b3.toNat * 2 ^ 24 + b2.toNat * 2 ^ 16 + b1.toNat * 2 ^ 8 + b0.toNat))
  | _ => none

/-- `u16::to_be_bytes`. -/
def u16ToBe (value : UInt16) : Bytes :=
  [UInt8.ofNat (value.toNat / 2 ^ 8), UInt8.ofNat value.toNat]

/-- `u16::from_be_bytes`, on exactly two bytes. -/
def u16FromBe : Bytes → Option UInt16
  | [b1, b0] => some (UInt16.ofNat (b1.toNat * 2 ^ 8 + b0.toNat))
  | _ => none

@[simp] theorem u32ToBe_length (value : UInt32) : (u32ToBe value).length = 4 := rfl

@[simp] theorem u16ToBe_length (value : UInt16) : (u16ToBe value).length = 2 := rfl

@[simp] theorem u32FromBe_toBe (value : UInt32) : u32FromBe (u32ToBe value) = some value := by
  have bound : value.toNat < 2 ^ 32 := value.toNat_lt
  simp only [u32ToBe, u32FromBe, Option.some.injEq]
  apply UInt32.toNat_inj.mp
  simp only [UInt8.toNat_ofNat', UInt32.toNat_ofNat']
  omega

@[simp] theorem u16FromBe_toBe (value : UInt16) : u16FromBe (u16ToBe value) = some value := by
  have bound : value.toNat < 2 ^ 16 := value.toNat_lt
  simp only [u16ToBe, u16FromBe, Option.some.injEq]
  apply UInt16.toNat_inj.mp
  simp only [UInt8.toNat_ofNat', UInt16.toNat_ofNat']
  omega

theorem u32ToBe_injective {left right : UInt32} (same : u32ToBe left = u32ToBe right) :
    left = right := by
  have decoded := congrArg u32FromBe same
  simpa using decoded

theorem u32FromBe_isSome {bytes : Bytes} (four : bytes.length = 4) :
    ∃ value, u32FromBe bytes = some value := by
  match bytes, four with
  | [b3, b2, b1, b0], _ => exact ⟨_, rfl⟩

/-- Every word comes from its own encoding only. -/
theorem u32FromBe_eq_some {bytes : Bytes} {value : UInt32} :
    u32FromBe bytes = some value ↔ bytes = u32ToBe value := by
  constructor
  · intro decoded
    match bytes, decoded with
    | [b3, b2, b1, b0], decoded =>
        simp only [u32FromBe, Option.some.injEq] at decoded
        subst decoded
        have h3 := b3.toNat_lt
        have h2 := b2.toNat_lt
        have h1 := b1.toNat_lt
        have h0 := b0.toNat_lt
        simp only [u32ToBe, UInt32.toNat_ofNat', List.cons.injEq, and_true]
        refine ⟨?_, ?_, ?_, ?_⟩ <;>
          · apply UInt8.toNat_inj.mp
            rw [UInt8.toNat_ofNat']
            omega
  · rintro rfl
    exact u32FromBe_toBe value

theorem u16FromBe_isSome {bytes : Bytes} (two : bytes.length = 2) :
    ∃ value, u16FromBe bytes = some value := by
  match bytes, two with
  | [b1, b0], _ => exact ⟨_, rfl⟩

theorem u16FromBe_eq_some {bytes : Bytes} {value : UInt16}
    (decoded : u16FromBe bytes = some value) : bytes = u16ToBe value := by
  match bytes, decoded with
  | [b1, b0], decoded =>
      simp only [u16FromBe, Option.some.injEq] at decoded
      subst decoded
      have h1 := b1.toNat_lt
      have h0 := b0.toNat_lt
      simp only [u16ToBe, UInt16.toNat_ofNat', List.cons.injEq, and_true]
      refine ⟨?_, ?_⟩ <;>
        · apply UInt8.toNat_inj.mp
          rw [UInt8.toNat_ofNat']
          omega

end Unroxy.Lib
