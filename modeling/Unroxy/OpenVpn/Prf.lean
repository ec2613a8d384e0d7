import Unroxy.Lib.Blocks
import Unroxy.Lib.Loop
import Unroxy.OpenVpn.Keys

/-!
Owns that `prf` of `openvpn/crypto/keys.rs` is the PRF of TLS 1.0.

`P_hash` is an infinite stream here. The loop of `p_hash` holds `A(i)` for the
block that comes next, so its lemma starts at any block with any bytes before
it.

Does not own the two digests, of which only the sizes are known, nor the keys
that are cut from the result.
-/

namespace Unroxy.OpenVpn

open Unroxy.Lib

/-! ### The streams -/

/-- `A(i)`: the seed, and then each time the digest of the one before. -/
def chain (mac : Bytes → Bytes → Bytes) (secret seed : Bytes) : Nat → Bytes
  | 0 => seed
  | number + 1 => mac secret (chain mac secret seed number)

/-- `HMAC(secret, A(i) + seed)` for each `i` from `first` on. -/
def blocksFrom (mac : Bytes → Bytes → Bytes) (size : Nat) (secret seed : Bytes) (first : Nat) :
    Stream' UInt8 :=
  concatenation size fun number => mac secret (chain mac secret seed (first + number) ++ seed)

/-- `P_hash(secret, seed)`. -/
def pStream (mac : Bytes → Bytes → Bytes) (size : Nat) (secret seed : Bytes) : Stream' UInt8 :=
  blocksFrom mac size secret seed 1

/-- The digests have this size, and there is something in them. -/
structure FixedLength (mac : Bytes → Bytes → Bytes) (size : Nat) : Prop where
  positive : 0 < size
  length : ∀ key message, (mac key message).length = size

section

variable {mac : Bytes → Bytes → Bytes} {size : Nat}

theorem blocksFrom_cons (fixed : FixedLength mac size) (secret seed : Bytes) (first : Nat) :
    blocksFrom mac size secret seed first =
      Stream'.appendStream' (mac secret (chain mac secret seed first ++ seed))
        (blocksFrom mac size secret seed (first + 1)) := by
  rw [blocksFrom, concatenation_cons fixed.positive fun _ => fixed.length _ _, blocksFrom]
  simp only [Nat.add_zero, Nat.add_assoc, Nat.add_comm 1]

/-! ### The loop of `p_hash` -/

/-- From block `first` on, the loop puts the stream behind what it has. -/
theorem pHashLoop_take (fixed : FixedLength mac size) (secret seed : Bytes) (len fuel : Nat) :
    ∀ (first : Nat) (out : Bytes), len ≤ out.length + fuel →
      (pHashLoop mac secret seed len fuel out (chain mac secret seed first)).take len =
        out.take len ++
          Stream'.take (len - out.length) (blocksFrom mac size secret seed first) := by
  have full (first : Nat) (out : Bytes) (enough : len ≤ out.length) :
      out.take len = out.take len ++
        Stream'.take (len - out.length) (blocksFrom mac size secret seed first) := by
    rw [Nat.sub_eq_zero_of_le enough, Stream'.take_zero, List.append_nil]
  induction fuel with
  | zero => exact full
  | succ fuel inductionHypothesis =>
      intro first out enough
      rw [pHashLoop]
      split
      case isTrue more =>
        have grown := fixed.length secret (chain mac secret seed first ++ seed)
        have positive := fixed.positive
        have later := inductionHypothesis (first + 1)
          (out ++ mac secret (chain mac secret seed first ++ seed))
          (by rw [List.length_append]; omega)
        rw [blocksFrom_cons fixed, take_append_stream, ← List.append_assoc, ← List.take_append,
          Nat.sub_sub, ← List.length_append]
        exact later
      case isFalse done => exact full first out (Nat.not_lt.mp done)

theorem pHash_eq (fixed : FixedLength mac size) (secret seed : Bytes) (len : Nat) :
    pHash mac secret seed len = Stream'.take len (pStream mac size secret seed) := by
  have looped := pHashLoop_take fixed secret seed len len 1 [] (Nat.le_add_left _ _)
  rw [List.take_nil, List.nil_append, List.length_nil, Nat.sub_zero] at looped
  exact looped

/-- A turn of the loop, on `out` and `a`: whether the loop goes on. -/
def pHashTurn (mac : Bytes → Bytes → Bytes) (secret seed : Bytes) (len : Nat)
    (state : Bytes × Bytes) : Checked (Bool × Bytes × Bytes) :=
  let (out, a) := state
  if out.length < len then .ok (true, out ++ mac secret (a ++ seed), mac secret a)
  else .ok (false, out, a)

theorem pHashTurn_measured (fixed : FixedLength mac size) (secret seed : Bytes) (len : Nat) :
    Measured (pHashTurn mac secret seed len) fun state => len - state.1.length where
  lowers := by
    intro state after ran
    have positive := fixed.positive
    rw [pHashTurn] at ran
    split at ran
    case isTrue more =>
      cases ran
      rw [List.length_append, fixed.length]
      omega
    case isFalse => cases ran
  idle := by
    intro state full
    exact if_neg (by omega)

theorem pHashLoop_eq (mac : Bytes → Bytes → Bytes) (secret seed : Bytes) (len fuel : Nat) :
    ∀ out a : Bytes, ∃ last, iterate (pHashTurn mac secret seed len) fuel (out, a) =
      .ok (pHashLoop mac secret seed len fuel out a, last) := by
  induction fuel with
  | zero => exact fun out a => ⟨a, rfl⟩
  | succ fuel inductionHypothesis =>
      intro out a
      rw [iterate, pHashTurn, pHashLoop]
      by_cases more : out.length < len
      · rw [if_pos more, if_pos more]
        exact inductionHypothesis _ _
      · rw [if_neg more, if_neg more]
        exact ⟨a, rfl⟩

/-- The loop comes to an end by itself, with at least what is asked for. -/
def PHashEnds (mac : Bytes → Bytes → Bytes) (secret seed : Bytes) (len : Nat) : Prop :=
  ∃ out last, Loop (pHashTurn mac secret seed len) ([], mac secret seed) (.ok (out, last)) ∧
    len ≤ out.length ∧ pHash mac secret seed len = out.take len

theorem pHash_ends (fixed : FixedLength mac size) (secret seed : Bytes) (len : Nat) :
    PHashEnds mac secret seed len := by
  obtain ⟨last, returned⟩ := pHashLoop_eq mac secret seed len len [] (mac secret seed)
  have ended := loop_iterate (pHashTurn_measured fixed secret seed len) len
    (Nat.sub_le len (([], mac secret seed) : Bytes × Bytes).1.length)
  rw [returned] at ended
  refine ⟨_, last, ended, ?_, rfl⟩
  have whole := congrArg List.length (pHash_eq fixed secret seed len)
  rw [Stream'.length_take, pHash, List.length_take] at whole
  omega

end

/-! ### The PRF -/

/-- The first and the last half of a secret, which share its middle byte if its
length is odd. -/
structure Halves (secret first last : Bytes) : Prop where
  begins : first <+: secret
  ends : last <:+ secret
  firstLength : first.length = (secret.length + 1) / 2
  lastLength : last.length = (secret.length + 1) / 2
  firstSlice : slice secret 0 ((secret.length + 1) / 2) = .ok first
  lastSlice : sliceFrom secret (secret.length - (secret.length + 1) / 2) = .ok last

theorem halves (secret : Bytes) :
    Halves secret (secret.take ((secret.length + 1) / 2))
      (secret.drop (secret.length - (secret.length + 1) / 2)) where
  begins := List.take_prefix _ _
  ends := List.drop_suffix _ _
  firstLength := by
    rw [List.length_take]
    omega
  lastLength := by
    rw [List.length_drop]
    omega
  firstSlice := slice_of_le (Nat.zero_le _) (by omega)
  lastSlice := sliceFrom_of_le (Nat.sub_le _ _)

/-- The PRF of TLS 1.0. -/
def tlsPrf (crypto : Crypto) (md5Size sha1Size : Nat) (first last seed : Bytes) : Stream' UInt8 :=
  Stream'.zip (fun a b => a ^^^ b) (pStream crypto.hmacMd5 md5Size first seed)
    (pStream crypto.hmacSha1 sha1Size last seed)

/-- The PRF gives the beginning of the stream it is asked for, for any two
digests of fixed sizes. -/
theorem prf_eq_tlsPrf {crypto : Crypto} {md5Size sha1Size : Nat}
    (md5 : FixedLength crypto.hmacMd5 md5Size) (sha1 : FixedLength crypto.hmacSha1 sha1Size)
    (secret : Bytes) (label : String) (seed : List Bytes) (len : Nat) :
    ∃ first last, Halves secret first last ∧
      PHashEnds crypto.hmacMd5 first (label.toUTF8.toList ++ seed.flatten) len ∧
      PHashEnds crypto.hmacSha1 last (label.toUTF8.toList ++ seed.flatten) len ∧
      prf crypto secret label seed len = Stream'.take len
        (tlsPrf crypto md5Size sha1Size first last (label.toUTF8.toList ++ seed.flatten)) ∧
      (prf crypto secret label seed len).length = len := by
  refine ⟨_, _, halves secret, pHash_ends md5 _ _ _, pHash_ends sha1 _ _ _, ?_⟩
  have bytes : prf crypto secret label seed len = Stream'.take len (tlsPrf crypto md5Size sha1Size
      (secret.take ((secret.length + 1) / 2))
      (secret.drop (secret.length - (secret.length + 1) / 2))
      (label.toUTF8.toList ++ seed.flatten)) := by
    rw [prf, pHash_eq md5, pHash_eq sha1, tlsPrf, take_zip_stream]
  refine ⟨bytes, ?_⟩
  rw [bytes, Stream'.length_take]

/-! ### A secret of three bytes -/

/-- The digests of a few messages, and zeros for every other. -/
def tableMac {size : Nat} (table : List (Bytes × Vector UInt8 size)) (_ message : Bytes) : Bytes :=
  ((table.lookup message).getD (Vector.replicate size 0)).toList

theorem fixedLength_tableMac {size : Nat} (positive : 0 < size)
    (table : List (Bytes × Vector UInt8 size)) : FixedLength (tableMac table) size where
  positive := positive
  length _ _ := Vector.length_toList

def md5Chain1 : Vector UInt8 16 :=
  #v[125, 219, 97, 255, 169, 163, 142, 89, 87, 27, 154, 88, 38, 121, 191, 14]

def md5Chain2 : Vector UInt8 16 :=
  #v[54, 153, 224, 109, 47, 220, 177, 66, 99, 219, 64, 200, 106, 80, 119, 53]

def sha1Chain1 : Vector UInt8 20 :=
  #v[189, 79, 252, 169, 78, 237, 187, 23, 85, 42, 18, 20, 178, 57, 26, 118, 32, 52, 239, 238]

/-- HMAC-MD5 under `[1, 2]` and HMAC-SHA1 under `[2, 3]`, as far as they are
needed for twenty bytes of the PRF with the seed `[97, 9]`. -/
def tableCrypto : Crypto where
  gcmSeal _ _ _ _ := none
  gcmOpen _ _ _ _ := none
  cbcEncrypt _ _ _ := []
  cbcDecrypt _ _ _ := none
  hmac _ _ _ := []
  hmacMd5 := tableMac [
    ([97, 9], md5Chain1),
    (md5Chain1.toList ++ [97, 9],
      #v[188, 110, 27, 136, 21, 108, 225, 12, 212, 87, 84, 24, 108, 183, 165, 140]),
    (md5Chain1.toList, md5Chain2),
    (md5Chain2.toList ++ [97, 9],
      #v[101, 196, 237, 9, 154, 159, 39, 202, 86, 164, 50, 193, 51, 234, 35, 37]),
    (md5Chain2.toList,
      #v[230, 94, 102, 79, 85, 154, 181, 38, 150, 86, 124, 87, 239, 150, 208, 248])]
  hmacSha1 := tableMac [
    ([97, 9], sha1Chain1),
    (sha1Chain1.toList ++ [97, 9],
      #v[92, 89, 1, 109, 237, 3, 141, 211, 51, 254, 132, 51, 206, 19, 19, 79, 178, 174, 202, 42]),
    (sha1Chain1.toList,
      #v[45, 155, 5, 179, 200, 112, 148, 194, 8, 35, 196, 170, 133, 198, 87, 122, 33, 171, 10,
        108])]

theorem prf_eq_tlsPrf_table :
    prf tableCrypto [1, 2, 3] "a" [[9]] 20 =
        [224, 55, 26, 229, 248, 111, 108, 223, 231, 169, 208, 43, 162, 164, 182, 195, 215, 106, 39,
          35] ∧
      ∃ first last, Halves [1, 2, 3] first last ∧
        PHashEnds tableCrypto.hmacMd5 first ("a".toUTF8.toList ++ [[9]].flatten) 20 ∧
        PHashEnds tableCrypto.hmacSha1 last ("a".toUTF8.toList ++ [[9]].flatten) 20 ∧
        prf tableCrypto [1, 2, 3] "a" [[9]] 20 = Stream'.take 20
          (tlsPrf tableCrypto 16 20 first last ("a".toUTF8.toList ++ [[9]].flatten)) ∧
        (prf tableCrypto [1, 2, 3] "a" [[9]] 20).length = 20 :=
  ⟨by decide +kernel, prf_eq_tlsPrf (fixedLength_tableMac (by decide) _)
    (fixedLength_tableMac (by decide) _) [1, 2, 3] "a" [[9]] 20⟩

end Unroxy.OpenVpn
