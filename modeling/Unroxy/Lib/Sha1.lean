import Unroxy.Lib.Bytes

/-!
Owns SHA-1, as a type of functions and as the function itself.

What is proved of a program that hashes holds for every function of the type;
the function is there to run the program.
-/

namespace Unroxy.Lib

/-- A digest of a byte string. -/
abbrev Sha1 := Bytes → Vector UInt8 20

namespace Sha1

abbrev State := UInt32 × UInt32 × UInt32 × UInt32 × UInt32

def rotate (value : UInt32) (count : UInt32) : UInt32 :=
  (value <<< count) ||| (value >>> (32 - count))

/-- The message, a one bit, zeros and the length in bits, to whole blocks. -/
def padded (message : Bytes) : Bytes :=
  message ++ [0x80] ++ List.replicate ((119 - message.length % 64) % 64) 0 ++
    u32ToBe (UInt32.ofNat (message.length * 8 / 2 ^ 32)) ++
    u32ToBe (UInt32.ofNat (message.length * 8))

/-- The words of a block, the last one first. -/
def words : Nat → Bytes → List UInt32 → List UInt32
  | 0, _, read => read
  | count + 1, bytes, read =>
      words count (bytes.drop 4) ((u32FromBe (bytes.take 4)).getD 0 :: read)

def extend : Nat → List UInt32 → List UInt32
  | 0, schedule => schedule
  | count + 1, schedule =>
      extend count (rotate (schedule.getD 2 0 ^^^ schedule.getD 7 0 ^^^ schedule.getD 13 0 ^^^
        schedule.getD 15 0) 1 :: schedule)

def mix (round : Nat) (b c d : UInt32) : UInt32 :=
  if round < 20 then (b &&& c ||| ~~~b &&& d) + 0x5A827999
  else if round < 40 then (b ^^^ c ^^^ d) + 0x6ED9EBA1
  else if round < 60 then (b &&& c ||| b &&& d ||| c &&& d) + 0x8F1BBCDC
  else (b ^^^ c ^^^ d) + 0xCA62C1D6

def rounds : Nat → List UInt32 → State → State
  | _, [], state => state
  | round, word :: rest, (a, b, c, d, e) =>
      rounds (round + 1) rest (rotate a 5 + mix round b c d + e + word, a, rotate b 30, c, d)

def block (state : State) (bytes : Bytes) : State :=
  let (a, b, c, d, e) := rounds 0 (extend 64 (words 16 bytes [])).reverse state
  (state.1 + a, state.2.1 + b, state.2.2.1 + c, state.2.2.2.1 + d, state.2.2.2.2 + e)

def blocks : Nat → Bytes → State → State
  | 0, _, state => state
  | count + 1, bytes, state => blocks count (bytes.drop 64) (block state (bytes.take 64))

/-- The SHA-1 digest. -/
def digest : Sha1 := fun message =>
  let bytes := padded message
  let (a, b, c, d, e) := blocks (bytes.length / 64) bytes
    (0x67452301, 0xEFCDAB89, 0x98BADCFE, 0x10325476, 0xC3D2E1F0)
  ⟨(u32ToBe a ++ u32ToBe b ++ u32ToBe c ++ u32ToBe d ++ u32ToBe e).toArray, rfl⟩

/-- The digest of `abc`. -/
example : (digest [97, 98, 99]).toList =
    [0xA9, 0x99, 0x3E, 0x36, 0x47, 0x06, 0x81, 0x6A, 0xBA, 0x3E, 0x25, 0x71, 0x78, 0x50, 0xC2,
      0x6C, 0x9C, 0xD0, 0xD8, 0x9D] := by
  decide +kernel

end Sha1

end Unroxy.Lib
