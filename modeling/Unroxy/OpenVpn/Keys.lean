import Unroxy.OpenVpn.Config
import Unroxy.Lib.Task

/-!
Owns the crypto crates as a parameter, and the key derivation of
`openvpn/crypto/keys.rs`.

`Crypto` holds one function for each operation the code takes from a crate. A
result that needs one of them to behave as documented names that behaviour as a
hypothesis; nothing is assumed here.
-/

namespace Unroxy.OpenVpn

open Unroxy.Lib

/-- What the code calls in `aes_gcm`, `cbc`, `hmac` and `btls`. The key length
selects AES-128 or AES-256. -/
structure Crypto where
  /-- `Aead::encrypt`: key, nonce, associated data, message. -/
  gcmSeal : Bytes → Bytes → Bytes → Bytes → Option Bytes
  /-- `Aead::decrypt`: key, nonce, associated data, sealed message. -/
  gcmOpen : Bytes → Bytes → Bytes → Bytes → Option Bytes
  /-- `encrypt_padded_vec_mut::<Pkcs7>`: key, iv, message. -/
  cbcEncrypt : Bytes → Bytes → Bytes → Bytes
  /-- `decrypt_padded_vec_mut::<Pkcs7>`: key, iv, message. -/
  cbcDecrypt : Bytes → Bytes → Bytes → Option Bytes
  /-- The `btls` HMAC of the data channel: digest, key, message. -/
  hmac : Auth → Bytes → Bytes → Bytes
  hmacMd5 : Bytes → Bytes → Bytes
  hmacSha1 : Bytes → Bytes → Bytes

def masterLen : Nat := 48
def keyLen : Nat := 64
def key2Len : Nat := 4 * keyLen

/-- The loop of `p_hash`: `fuel` bounds its turns, each of which appends one
block. -/
def pHashLoop (mac : Bytes → Bytes → Bytes) (secret seed : Bytes) (len : Nat) :
    Nat → Bytes → Bytes → Bytes
  | 0, out, _ => out
  | fuel + 1, out, a =>
      if out.length < len then
        pHashLoop mac secret seed len fuel (out ++ mac secret (a ++ seed)) (mac secret a)
      else
        out

/-- `len` turns are enough, since a block is not empty. -/
def pHash (mac : Bytes → Bytes → Bytes) (secret seed : Bytes) (len : Nat) : Bytes :=
  (pHashLoop mac secret seed len len [] (mac secret seed)).take len

def prf (crypto : Crypto) (secret : Bytes) (label : String) (seed : List Bytes) (len : Nat) :
    Bytes :=
  let labelSeed := label.toUTF8.toList ++ seed.flatten
  let half := (secret.length + 1) / 2
  let md5 := pHash crypto.hmacMd5 (secret.take half) labelSeed len
  let sha1 := pHash crypto.hmacSha1 (secret.drop (secret.length - half)) labelSeed len
  List.zipWith (fun a b => a ^^^ b) md5 sha1

/-- The sizes of the two digests of the PRF. -/
structure PrfDigests (crypto : Crypto) : Prop where
  md5 : ∀ key message, (crypto.hmacMd5 key message).length = 16
  sha1 : ∀ key message, (crypto.hmacSha1 key message).length = 20

private theorem pHashLoop_length {mac : Bytes → Bytes → Bytes}
    (block : ∀ key message, 0 < (mac key message).length) (secret seed : Bytes) (len fuel : Nat) :
    ∀ out a : Bytes, len ≤ out.length + fuel →
      len ≤ (pHashLoop mac secret seed len fuel out a).length := by
  induction fuel with
  | zero => exact fun out a enough => enough
  | succ fuel inductionHypothesis =>
      intro out a enough
      rw [pHashLoop]
      split
      case isTrue =>
        apply inductionHypothesis
        have grown := block secret (a ++ seed)
        rw [List.length_append]
        omega
      case isFalse done => exact Nat.not_lt.mp done

theorem pHash_length {mac : Bytes → Bytes → Bytes}
    (block : ∀ key message, 0 < (mac key message).length) (secret seed : Bytes) (len : Nat) :
    (pHash mac secret seed len).length = len := by
  have filled := pHashLoop_length block secret seed len len [] (mac secret seed) (by omega)
  rw [pHash, List.length_take, Nat.min_eq_left filled]

/-- The PRF gives as many bytes as it is asked for. -/
theorem prf_length {crypto : Crypto} (digests : PrfDigests crypto) (secret : Bytes)
    (label : String) (seed : List Bytes) (len : Nat) :
    (prf crypto secret label seed len).length = len := by
  have md5 : ∀ key message, 0 < (crypto.hmacMd5 key message).length := fun key message => by
    rw [digests.md5]
    decide
  have sha1 : ∀ key message, 0 < (crypto.hmacSha1 key message).length := fun key message => by
    rw [digests.sha1]
    decide
  simp only [prf, List.length_zipWith, pHash_length md5, pHash_length sha1, Nat.min_self]

structure SeedData where
  preMaster : Vector UInt8 48
  clientRandom1 : Vector UInt8 32
  serverRandom1 : Vector UInt8 32
  clientRandom2 : Vector UInt8 32
  serverRandom2 : Vector UInt8 32
  clientSid : Vector UInt8 8
  serverSid : Vector UInt8 8
deriving DecidableEq, Repr

structure KeyMaterial where
  encrypt : Bytes
  decrypt : Bytes
  macEncrypt : Bytes
  macDecrypt : Bytes
deriving DecidableEq, Repr

def KeyMaterial.derive (crypto : Crypto) (seed : SeedData) (cipher : Cipher) (macLen : Nat) :
    Outcome Error KeyMaterial := do
  let master := prf crypto seed.preMaster.toList "OpenVPN master secret"
    [seed.clientRandom1.toList, seed.serverRandom1.toList] masterLen
  let expanded := prf crypto master "OpenVPN key expansion"
    [seed.clientRandom2.toList, seed.serverRandom2.toList, seed.clientSid.toList,
      seed.serverSid.toList] key2Len
  let encrypt ← .ofChecked (slice expanded 0 cipher.keyLen)
  let macEncrypt ← .ofChecked (slice expanded keyLen (keyLen + macLen))
  let decrypt ← .ofChecked
    (slice expanded (keyLen + keyLen) (keyLen + keyLen + cipher.keyLen))
  let macDecrypt ← .ofChecked
    (slice expanded (keyLen + keyLen + keyLen) (keyLen + keyLen + keyLen + macLen))
  return { encrypt, decrypt, macEncrypt, macDecrypt }

/-- The four slices lie within the expansion: a key of the cipher's size and a
mac key of the digest's size in each direction. -/
theorem KeyMaterial.derive_ok {crypto : Crypto} (digests : PrfDigests crypto) (seed : SeedData)
    (cipher : Cipher) (auth : Auth) :
    ∃ material, derive crypto seed cipher auth.size = .ok material ∧
      material.encrypt.length = cipher.keyLen ∧ material.decrypt.length = cipher.keyLen ∧
      material.macEncrypt.length = auth.size ∧ material.macDecrypt.length = auth.size := by
  have keyFits : cipher.keyLen ≤ keyLen := by cases cipher <;> decide
  have macFits : auth.size ≤ keyLen := by cases auth <;> decide
  have size (secret : Bytes) (label : String) (parts : List Bytes) :
      (prf crypto secret label parts key2Len).length = 4 * keyLen :=
    prf_length digests secret label parts key2Len
  unfold derive
  dsimp only
  rw [slice_of_le (Nat.zero_le _) (by rw [size]; omega),
    slice_of_le (by omega) (by rw [size]; omega), slice_of_le (by omega) (by rw [size]; omega),
    slice_of_le (by omega) (by rw [size]; omega)]
  refine ⟨_, rfl, ?_, ?_, ?_, ?_⟩ <;>
    · rw [List.length_take, List.length_drop, size]
      omega

end Unroxy.OpenVpn
