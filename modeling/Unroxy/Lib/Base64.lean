import Mathlib.Data.List.Basic

/-!
Owns Base64 with the standard alphabet and with padding.

`decode` takes what `encode` makes and nothing else: whole groups, padding where
it is due, and no bits in it.

Does not own other alphabets.
-/

namespace Unroxy.Lib.Base64

def digit (value : Nat) : Char :=
  if value < 26 then Char.ofNat (65 + value)
  else if value < 52 then Char.ofNat (97 + (value - 26))
  else if value < 62 then Char.ofNat (48 + (value - 52))
  else if value = 62 then '+'
  else '/'

def digitValue (char : Char) : Option Nat :=
  if char.isUpper then some (char.toNat - 65)
  else if char.isLower then some (char.toNat - 97 + 26)
  else if char.isDigit then some (char.toNat - 48 + 52)
  else if char = '+' then some 62
  else if char = '/' then some 63
  else none

def encode : List UInt8 → List Char
  | [] => []
  | [a] => [digit (a.toNat / 4), digit (a.toNat % 4 * 16), '=', '=']
  | [a, b] =>
      [digit (a.toNat / 4), digit (a.toNat % 4 * 16 + b.toNat / 16), digit (b.toNat % 16 * 4), '=']
  | a :: b :: c :: rest =>
      digit (a.toNat / 4) :: digit (a.toNat % 4 * 16 + b.toNat / 16) ::
        digit (b.toNat % 16 * 4 + c.toNat / 64) :: digit (c.toNat % 64) :: encode rest

/-- The group that padding completes. -/
def decodeLast (a b c : Char) : Option (List UInt8) := do
  let x ← digitValue a
  let y ← digitValue b
  if c = '=' then
    if y % 16 = 0 then some [UInt8.ofNat (x * 4 + y / 16)] else none
  else
    let z ← digitValue c
    if z % 4 = 0 then
      some [UInt8.ofNat (x * 4 + y / 16), UInt8.ofNat (y % 16 * 16 + z / 4)]
    else
      none

def decodeGroup (a b c d : Char) : Option (List UInt8) := do
  let x ← digitValue a
  let y ← digitValue b
  let z ← digitValue c
  let w ← digitValue d
  return [UInt8.ofNat (x * 4 + y / 16), UInt8.ofNat (y % 16 * 16 + z / 4),
    UInt8.ofNat (z % 4 * 64 + w)]

def decode : List Char → Option (List UInt8)
  | [] => some []
  | a :: b :: c :: d :: rest =>
      if d = '=' then
        if rest = [] then decodeLast a b c else none
      else do
        let bytes ← decodeGroup a b c d
        let others ← decode rest
        return bytes ++ others
  | _ => none

@[simp] theorem digitValue_digit {value : Nat} (small : value < 64) :
    digitValue (digit value) = some value := by
  have all : ∀ value < 64, digitValue (digit value) = some value := by decide
  exact all value small

theorem digit_visible {value : Nat} (small : value < 64) :
    33 ≤ (digit value).toNat ∧ (digit value).toNat < 127 ∧ digit value ≠ '=' := by
  have all : ∀ value < 64,
      33 ≤ (digit value).toNat ∧ (digit value).toNat < 127 ∧ digit value ≠ '=' := by decide
  exact all value small

theorem ofNat_eq (byte : UInt8) {value : Nat} (same : value = byte.toNat) :
    UInt8.ofNat value = byte := by
  rw [same, UInt8.ofNat_toNat]

section Digits

variable {x y z w : Nat}

theorem decodeLast_one (first : x < 64) (second : y < 64) (clean : y % 16 = 0) :
    decodeLast (digit x) (digit y) '=' = some [UInt8.ofNat (x * 4 + y / 16)] := by
  simp only [decodeLast, digitValue_digit first, digitValue_digit second, Option.bind_eq_bind,
    Option.bind_some, if_true, if_pos clean]

theorem decodeLast_two (first : x < 64) (second : y < 64) (third : z < 64)
    (clean : z % 4 = 0) :
    decodeLast (digit x) (digit y) (digit z) =
      some [UInt8.ofNat (x * 4 + y / 16), UInt8.ofNat (y % 16 * 16 + z / 4)] := by
  simp only [decodeLast, digitValue_digit first, digitValue_digit second, digitValue_digit third,
    Option.bind_eq_bind, Option.bind_some, if_neg (digit_visible third).2.2, if_pos clean]

theorem decodeGroup_digit (first : x < 64) (second : y < 64) (third : z < 64) (fourth : w < 64) :
    decodeGroup (digit x) (digit y) (digit z) (digit w) =
      some [UInt8.ofNat (x * 4 + y / 16), UInt8.ofNat (y % 16 * 16 + z / 4),
        UInt8.ofNat (z % 4 * 64 + w)] := by
  simp only [decodeGroup, digitValue_digit first, digitValue_digit second, digitValue_digit third,
    digitValue_digit fourth, Option.bind_eq_bind, Option.bind_some, Option.pure_def]

end Digits

theorem decode_encode (bytes : List UInt8) : decode (encode bytes) = some bytes := by
  induction bytes using encode.induct with
  | case1 => rfl
  | case2 a =>
      have size := a.toNat_lt
      simp only [encode, decode, if_true]
      rw [decodeLast_one (by omega) (by omega) (by omega), ofNat_eq a (by omega)]
  | case3 a b =>
      have sizes := And.intro a.toNat_lt b.toNat_lt
      simp only [encode, decode, if_true]
      rw [decodeLast_two (by omega) (by omega) (by omega) (by omega), ofNat_eq a (by omega),
        ofNat_eq b (by omega)]
  | case4 a b c rest inductionHypothesis =>
      have sizes := And.intro a.toNat_lt (And.intro b.toNat_lt c.toNat_lt)
      have unpadded : digit (c.toNat % 64) ≠ '=' := (digit_visible (by omega)).2.2
      simp only [encode, decode, if_neg unpadded, inductionHypothesis]
      rw [decodeGroup_digit (by omega) (by omega) (by omega) (by omega), ofNat_eq a (by omega),
        ofNat_eq b (by omega), ofNat_eq c (by omega)]
      rfl

/-- No blank is in it, nor anything that is not ASCII. -/
theorem encode_visible (bytes : List UInt8) :
    ∀ char ∈ encode bytes, 33 ≤ char.toNat ∧ char.toNat < 127 := by
  have visible {value : Nat} (small : value < 64) :
      33 ≤ (digit value).toNat ∧ (digit value).toNat < 127 :=
    ⟨(digit_visible small).1, (digit_visible small).2.1⟩
  have padding : 33 ≤ '='.toNat ∧ '='.toNat < 127 := by decide
  induction bytes using encode.induct with
  | case1 => exact fun char among => absurd among List.not_mem_nil
  | case2 a =>
      have size := a.toNat_lt
      simp only [encode, List.forall_mem_cons]
      exact ⟨visible (by omega), visible (by omega), padding, padding,
        fun char among => absurd among List.not_mem_nil⟩
  | case3 a b =>
      have sizes := And.intro a.toNat_lt b.toNat_lt
      simp only [encode, List.forall_mem_cons]
      exact ⟨visible (by omega), visible (by omega), visible (by omega), padding,
        fun char among => absurd among List.not_mem_nil⟩
  | case4 a b c rest inductionHypothesis =>
      have sizes := And.intro a.toNat_lt (And.intro b.toNat_lt c.toNat_lt)
      simp only [encode, List.forall_mem_cons]
      exact ⟨visible (by omega), visible (by omega), visible (by omega), visible (by omega),
        inductionHypothesis⟩

end Unroxy.Lib.Base64
