import Unroxy.Lib.Utf8

/-!
Owns how the addresses of the Internet are written: IPv4 in dotted decimal, IPv6
in groups with the longest run of zero groups left out.

Does not own how they are read.
-/

namespace Unroxy.Lib.Address

open Unroxy.Lib.Utf8 (Ascii)

def ipv4Text (a b c d : UInt8) : String :=
  ".".intercalate ([a, b, c, d].map fun byte => Nat.repr byte.toNat)

/-- Where a run of zero groups starts, and how long it is. -/
structure Span where
  start : Nat
  len : Nat
deriving DecidableEq, Repr

/-- The longest run of zero groups so far and the one that goes on, a group later. -/
def widen (spans : Span × Span) (group : Nat × Nat) : Span × Span :=
  let (longest, current) := spans
  let (segment, index) := group
  if segment = 0 then
    let start := if current.len = 0 then index else current.start
    let current : Span := ⟨start, current.len + 1⟩
    (if longest.len < current.len then current else longest, current)
  else
    (longest, ⟨0, 0⟩)

def longestZeroes (segments : List Nat) : Span :=
  (segments.zipIdx.foldl widen (⟨0, 0⟩, ⟨0, 0⟩)).1

def groupsText (segments : List Nat) : String :=
  ":".intercalate (segments.map fun segment => String.ofList (Nat.toDigits 16 segment))

def segmentsOf : List UInt8 → List Nat
  | high :: low :: rest => (high.toNat * 256 + low.toNat) :: segmentsOf rest
  | _ => []

/-- The text of an address of 16 bytes. -/
def ipv6Text (bytes : List UInt8) : String :=
  match bytes with
  | [0, 0, 0, 0, 0, 0, 0, 0, 0, 0, 0xFF, 0xFF, a, b, c, d] => "::ffff:" ++ ipv4Text a b c d
  | bytes =>
      let segments := segmentsOf bytes
      let zeroes := longestZeroes segments
      if 1 < zeroes.len then
        groupsText (segments.take zeroes.start) ++ "::" ++
          groupsText (segments.drop (zeroes.start + zeroes.len))
      else
        groupsText segments

example : ipv6Text [0x20, 1, 0xD, 0xB8, 0, 0, 0, 0, 0, 1, 0, 0, 0, 0, 0, 0xA] =
    "2001:db8::1:0:0:a" := by
  decide

/-- A character of a domain or of an IPv4 address. -/
def HostChar (char : Char) : Prop :=
  0x20 < char.toNat ∧ char.toNat < 0x7F ∧
    char ∉ [':', '@', '/', '?', '#', '[', ']']

instance (char : Char) : Decidable (HostChar char) :=
  inferInstanceAs (Decidable (_ ∧ _ ∧ _))

/-- The characters of a text that is written out are checked one by one. -/
theorem hostChar_of_all {text : String} (checked : text.toList.all (fun char => HostChar char)) :
    ∀ char ∈ text.toList, HostChar char :=
  fun char member => of_decide_eq_true (List.all_eq_true.mp checked char member)

theorem hostChar_of_isDigit {char : Char} (digit : char.isDigit) : HostChar char := by
  have bounds : 48 ≤ char.toNat ∧ char.toNat ≤ 57 := by
    simpa [Char.isDigit, UInt32.le_iff_toNat_le] using digit
  refine ⟨by omega, by omega, ?_⟩
  intro delimiter
  have differs : [':', '@', '/', '?', '#', '[', ']'].all (fun other => !other.isDigit) := by decide
  have other := List.all_eq_true.mp differs char delimiter
  rw [digit] at other
  cases other

theorem hostChar_decimal (byte : UInt8) : ∀ char ∈ Nat.toDigits 10 byte.toNat, HostChar char :=
  fun _ member => hostChar_of_isDigit (Nat.isDigit_of_mem_toDigits (by decide) (by decide) member)

theorem hostChar_ipv4Text (a b c d : UInt8) :
    ∀ char ∈ (ipv4Text a b c d).toList, HostChar char := by
  have dot : HostChar '.' := by decide
  intro char member
  simp [ipv4Text, String.intercalate_cons_cons] at member
  rcases member with inA | rfl | inB | rfl | inC | rfl | inD
  · exact hostChar_decimal a char inA
  · exact dot
  · exact hostChar_decimal b char inB
  · exact dot
  · exact hostChar_decimal c char inC
  · exact dot
  · exact hostChar_decimal d char inD

theorem length_decimal (byte : UInt8) : (Nat.toDigits 10 byte.toNat).length ≤ 3 := by
  have small : byte.toNat < 10 ^ 3 := Nat.lt_trans byte.toNat_lt (by decide)
  exact (Nat.length_toDigits_le_iff (by decide) (by decide)).mpr small

theorem length_ipv4Text (a b c d : UInt8) : (ipv4Text a b c d).length ≤ 15 := by
  have inA := length_decimal a
  have inB := length_decimal b
  have inC := length_decimal c
  have inD := length_decimal d
  simp [ipv4Text, String.intercalate_cons_cons, ← String.length_toList]
  omega

theorem ascii_of_hostChar {text : String} (plain : ∀ char ∈ text.toList, HostChar char) :
    Ascii text := by
  intro char member
  have bound : char.toNat < 0x7F := (plain char member).2.1
  omega

end Unroxy.Lib.Address
