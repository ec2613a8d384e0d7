import Unroxy.OpenVpn.Keys

/-!
Owns `DataCipher` of `openvpn/crypto/aes.rs`.

The fields of a `DataCipher` are private and only `new` fills them, so the
lengths `new` checks are fields of the structure. The iv that `encrypt_cbc`
draws is an argument.
-/

namespace Unroxy.OpenVpn

open Unroxy.Lib

def tagLen : Nat := 16

structure DataCipher where
  cipher : Cipher
  auth : Auth
  key : Bytes
  mac : Bytes
  implicitIv : Bytes
  key_length : key.length = cipher.keyLen
  mac_length : cipher.isAead = false → auth.size ≤ mac.length
  implicitIv_length : implicitIv.length = if cipher.isAead then 8 else 0
deriving DecidableEq, Repr

/-- The bytes of `implicit_iv`: the head of the mac key, filled up with zeros. -/
def implicitIvOf (cipher : Cipher) (mac : Bytes) : Bytes :=
  if cipher.isAead then
    mac.take (cipher.ivLen - 4) ++ List.replicate (cipher.ivLen - 4 - mac.length) 0
  else
    []

theorem implicitIvOf_length (cipher : Cipher) (mac : Bytes) :
    (implicitIvOf cipher mac).length = if cipher.isAead then 8 else 0 := by
  unfold implicitIvOf Cipher.ivLen
  split
  · simp only [List.length_append, List.length_take, List.length_replicate, *]
    omega
  · rfl

def aeadNonce (implicitIv : Bytes) (packetId : UInt32) : Bytes :=
  u32ToBe packetId ++ implicitIv.take 8 ++ List.replicate (8 - implicitIv.length) 0

def tagFirst (sealedBytes : Bytes) (tag : Nat) : Outcome Error Bytes :=
  if sealedBytes.length < tag then
    .panic
  else
    let split := sealedBytes.length - tag
    .ok (sealedBytes.drop split ++ sealedBytes.take split)

def tagLast (body : Bytes) : Outcome Error Bytes := do
  let message ← .ofChecked (sliceFrom body tagLen)
  let tag ← .ofChecked (slice body 0 tagLen)
  return message ++ tag

def constantTimeEq (a b : Bytes) : Bool :=
  if a.length ≠ b.length then
    false
  else
    (List.zip a b).foldl (fun diff pair => diff ||| (pair.1 ^^^ pair.2)) (0 : UInt8) == 0

namespace DataCipher

def new (cipher : Cipher) (auth : Auth) (key mac : Bytes) : Outcome Error DataCipher :=
  if shortKey : key.length < cipher.keyLen then
    .error (.data "short key")
  else if shortMac : cipher.isAead = false ∧ mac.length < auth.size then
    .error (.data "short mac key")
  else
    .ok {
      cipher, auth, mac
      key := key.take cipher.keyLen
      implicitIv := implicitIvOf cipher mac
      key_length := by simp only [List.length_take]; omega
      mac_length := fun cbc => by
        by_contra short
        exact shortMac ⟨cbc, by omega⟩
      implicitIv_length := implicitIvOf_length cipher mac }

variable (crypto : Crypto) (self : DataCipher)

/-- `aead()` and `new_from_slice`, which only looks at the length of the key. -/
def aead : Outcome Error Unit :=
  match self.cipher with
  | .aes256Gcm => if self.key.length = 32 then .ok () else .error (.data "gcm key")
  | .aes128Gcm => if self.key.length = 16 then .ok () else .error (.data "gcm key")
  | _ => .error (.data "not an aead cipher")

def encryptAead (header : Bytes) (packetId : UInt32) (plaintext : Bytes) :
    Outcome Error Bytes := do
  let iv := aeadNonce self.implicitIv packetId
  self.aead
  let sealedBytes ← .ofOption (.data "gcm encrypt") (crypto.gcmSeal self.key iv header plaintext)
  tagFirst sealedBytes tagLen

def decryptAead (header body : Bytes) : Outcome Error (UInt32 × Bytes) :=
  if body.length < tagLen then
    .error (.data "short gcm packet")
  else if header.length < 4 then
    .panic
  else do
    let tail ← .ofChecked (sliceFrom header (header.length - 4))
    match u32FromBe tail with
    | none => .panic
    | some packetId =>
        let sealedBytes ← tagLast body
        let iv := aeadNonce self.implicitIv packetId
        self.aead
        let plaintext ← .ofOption (.data "gcm decrypt")
          (crypto.gcmOpen self.key iv header sealedBytes)
        return (packetId, plaintext)

/-- `new_from_slices`: the key of the cipher's size and a 16-byte iv. -/
def cbc (iv : Bytes) : Outcome Error Unit :=
  match self.cipher with
  | .aes256Cbc =>
      if self.key.length = 32 ∧ iv.length = 16 then .ok () else .error (.data "cbc key")
  | _ => if self.key.length = 16 ∧ iv.length = 16 then .ok () else .error (.data "cbc key")

def encryptCbc (iv : Vector UInt8 16) (packetId : UInt32) (plaintext : Bytes) :
    Outcome Error Bytes := do
  let input := u32ToBe packetId ++ plaintext
  self.cbc iv.toList
  let ciphertext := crypto.cbcEncrypt self.key iv.toList input
  let macKey ← .ofChecked (slice self.mac 0 self.auth.size)
  let tag := crypto.hmac self.auth macKey (iv.toList ++ ciphertext)
  return tag ++ iv.toList ++ ciphertext

def decryptCbc (body : Bytes) : Outcome Error (UInt32 × Bytes) :=
  let macLen := self.auth.size
  if body.length < macLen + 16 + 16 then
    .error (.data "short cbc packet")
  else do
    let tag ← .ofChecked (slice body 0 macLen)
    let rest ← .ofChecked (sliceFrom body macLen)
    let iv ← .ofChecked (slice rest 0 16)
    let ciphertext ← .ofChecked (sliceFrom rest 16)
    let macKey ← .ofChecked (slice self.mac 0 macLen)
    let expected := crypto.hmac self.auth macKey (iv ++ ciphertext)
    if constantTimeEq expected tag = false then
      .error (.data "hmac mismatch")
    else
      self.cbc iv
      let plaintext ← .ofOption (.data "cbc padding") (crypto.cbcDecrypt self.key iv ciphertext)
      if plaintext.length < 4 then
        .error (.data "short cbc payload")
      else
        let head ← .ofChecked (slice plaintext 0 4)
        let payload ← .ofChecked (sliceFrom plaintext 4)
        match u32FromBe head with
        | none => .panic
        | some packetId => return (packetId, payload)

def encrypt (iv : Vector UInt8 16) (nonce : Bytes) (packetId : UInt32) (plaintext : Bytes) :
    Outcome Error Bytes :=
  if self.cipher.isAead then
    self.encryptAead crypto nonce packetId plaintext
  else
    self.encryptCbc crypto iv packetId plaintext

def decrypt (header body : Bytes) : Outcome Error (UInt32 × Bytes) :=
  if self.cipher.isAead then
    self.decryptAead crypto header body
  else
    self.decryptCbc crypto body

end DataCipher

/-! ### The messages of the tests -/

namespace TestVector

def key : Bytes := (List.range 16).map UInt8.ofNat

def mac : Bytes := (List.range 20).map fun i => UInt8.ofNat (100 + i)

/-- `"openvpn data channel payload"`. -/
def payload : Bytes :=
  [111, 112, 101, 110, 118, 112, 110, 32, 100, 97, 116, 97, 32, 99, 104, 97, 110, 110, 101, 108,
    32, 112, 97, 121, 108, 111, 97, 100]

/-- The cipher of `gcm_roundtrip_with_packet_id_in_aad`. -/
def gcmCipher : DataCipher where
  cipher := .aes128Gcm
  auth := .sha1
  key := key
  mac := mac
  implicitIv := mac.take 8
  key_length := by decide
  mac_length := by decide
  implicitIv_length := by decide

/-- The cipher of `cbc_matches_openvpn_layout`. -/
def cbcCipher : DataCipher where
  cipher := .aes128Cbc
  auth := .sha1
  key := key
  mac := mac
  implicitIv := []
  key_length := by decide
  mac_length := by decide
  implicitIv_length := by decide

def gcmHeader : Bytes := [0x48, 0x1a, 0x2b, 0x3c, 0, 0, 0, 7]

def gcmCiphertext : Bytes :=
  [218, 42, 10, 234, 73, 60, 192, 100, 75, 149, 232, 115, 24, 106, 172, 159, 53, 248, 85, 107,
    7, 61, 1, 189, 145, 89, 111, 103]

def gcmTag : Bytes :=
  [186, 23, 169, 82, 155, 227, 249, 181, 186, 233, 221, 43, 113, 255, 235, 71]

def cbcIv : Bytes := (List.range 16).map fun i => UInt8.ofNat (200 + i)

def cbcCiphertext : Bytes :=
  [124, 49, 193, 189, 59, 168, 199, 135, 160, 51, 224, 72, 85, 53, 139, 241, 163, 180, 64, 233,
    186, 37, 222, 28, 12, 7, 80, 158, 35, 77, 27, 175, 71, 165, 248, 175, 150, 42, 65, 191, 53,
    27, 53, 209, 27, 14, 0, 251]

def cbcTag : Bytes :=
  [192, 215, 244, 117, 114, 187, 228, 207, 88, 212, 211, 107, 131, 125, 180, 110, 18, 142, 133,
    46]

/-! AES-GCM, AES-CBC and HMAC-SHA1 on the messages of the two tests. Elsewhere
the lengths are right and no message opens; the PRF is not used. -/

def gcmSeal (key' nonce header message : Bytes) : Option Bytes :=
  if 2 ^ 36 < message.length then
    none
  else if key' = key ∧ nonce = aeadNonce (mac.take 8) 7 ∧ header = gcmHeader ∧
      message = payload then
    some (gcmCiphertext ++ gcmTag)
  else
    some (message ++ List.replicate tagLen 0)

def gcmOpen (key' nonce header sealedBytes : Bytes) : Option Bytes :=
  if key' = key ∧ nonce = aeadNonce (mac.take 8) 7 ∧ header = gcmHeader ∧
      sealedBytes = gcmCiphertext ++ gcmTag then
    some payload
  else
    none

def cbcEncrypt (key' iv message : Bytes) : Bytes :=
  if key' = key ∧ iv = cbcIv ∧ message = [1, 2, 3, 4] ++ payload then
    cbcCiphertext
  else
    List.replicate (16 * (message.length / 16 + 1)) 0

def cbcDecrypt (key' iv ciphertext : Bytes) : Option Bytes :=
  if key' = key ∧ iv = cbcIv ∧ ciphertext = cbcCiphertext then
    some ([1, 2, 3, 4] ++ payload)
  else
    none

def hmac (auth : Auth) (macKey message : Bytes) : Bytes :=
  if auth = .sha1 ∧ macKey = mac ∧ message = cbcIv ++ cbcCiphertext then
    cbcTag
  else
    List.replicate auth.size 0

def crypto : Crypto where
  gcmSeal := gcmSeal
  gcmOpen := gcmOpen
  cbcEncrypt := cbcEncrypt
  cbcDecrypt := cbcDecrypt
  hmac := hmac
  hmacMd5 _ _ := List.replicate 16 0
  hmacSha1 _ _ := List.replicate 20 0

end TestVector

end Unroxy.OpenVpn
