import Mathlib.Logic.Equiv.Basic
import Unroxy.OpenVpn.DataLayout
import Unroxy.OpenVpn.DataReceive

/-!
Owns that the two directions of the data channel undo each other.

`decrypt` and `encrypt` each get one equation for a successful result, in terms
of the crates only: `decrypt_aead_iff` and `encrypt_aead_iff` for GCM,
`decryptCbc_parts` and `encrypt_cbc` for CBC. Both main results, the exact image of `encrypt` and
the round trip over the wire, are read off these.

Does not own the replay window.
-/

namespace Unroxy.OpenVpn

open Unroxy.Lib

/-- What the code takes for granted of `aes_gcm`: opening undoes sealing. -/
def GcmOpens (crypto : Crypto) : Prop :=
  ∀ key nonce header message sealedBytes,
    crypto.gcmSeal key nonce header message = some sealedBytes →
    crypto.gcmOpen key nonce header sealedBytes = some message

/-- Only what was sealed opens. -/
def GcmAuthentic (crypto : Crypto) : Prop :=
  ∀ key nonce header message sealedBytes,
    crypto.gcmOpen key nonce header sealedBytes = some message →
    ∃ original, crypto.gcmSeal key nonce header original = some sealedBytes

/-- CBC decryption undoes encryption. -/
def CbcDecrypts (crypto : Crypto) : Prop :=
  ∀ key iv message, crypto.cbcDecrypt key iv (crypto.cbcEncrypt key iv message) = some message

/-- With strict padding, encryption undoes a decryption that succeeds. -/
def CbcStrict (crypto : Crypto) : Prop :=
  ∀ key iv ciphertext message, crypto.cbcDecrypt key iv ciphertext = some message →
    crypto.cbcEncrypt key iv message = ciphertext

/-! ### The helpers of `aes.rs` -/

/-- The accumulator stays zero exactly as long as the bytes agree. -/
private theorem foldl_diff_eq_zero (pairs : List (UInt8 × UInt8)) :
    ∀ diff : UInt8, pairs.foldl (fun diff pair => diff ||| (pair.1 ^^^ pair.2)) diff = 0 ↔
      diff = 0 ∧ ∀ pair ∈ pairs, pair.1 = pair.2 := by
  induction pairs with
  | nil => simp
  | cons pair rest inductionHypothesis =>
      intro diff
      rw [List.foldl_cons, inductionHypothesis, UInt8.or_eq_zero_iff, UInt8.xor_eq_zero_iff,
        List.forall_mem_cons, and_assoc]

/-- The comparison without early exit is equality. -/
theorem constantTimeEq_iff (a b : Bytes) : constantTimeEq a b = true ↔ a = b := by
  unfold constantTimeEq
  split
  case isTrue differs =>
    constructor
    · intro equal
      cases equal
    · rintro rfl
      exact absurd rfl differs
  case isFalse same =>
    rw [beq_iff_eq, foldl_diff_eq_zero]
    constructor
    · intro agree
      apply List.ext_getElem (not_not.mp same)
      intro i left right
      exact agree.2 (a[i], b[i]) (List.mem_iff_getElem.mpr ⟨i, by simp; omega, by simp⟩)
    · rintro rfl
      refine ⟨rfl, fun pair found => ?_⟩
      rcases List.mem_iff_getElem.mp found with ⟨i, bound, rfl⟩
      simp

theorem tagLast_of_le {body : Bytes} (long : tagLen ≤ body.length) :
    tagLast body = .ok (body.drop tagLen ++ body.take tagLen) := by
  rw [tagLast, sliceFrom_of_le long, slice_of_le (Nat.zero_le _) long]
  rfl

namespace DataCipher

variable {crypto : Crypto} {self : DataCipher}

/-! ### What the two directions return -/

theorem decrypt_aead_iff (isAead : self.cipher.isAead = true) {header : Bytes}
    (headed : 4 ≤ header.length) (body : Bytes) (packetId : UInt32) (plaintext : Bytes) :
    self.decrypt crypto header body = .ok (packetId, plaintext) ↔
      tagLen ≤ body.length ∧ u32FromBe (header.drop (header.length - 4)) = some packetId ∧
        crypto.gcmOpen self.key (aeadNonce self.implicitIv packetId) header
          (body.drop tagLen ++ body.take tagLen) = some plaintext := by
  rw [decrypt, if_pos isAead, decryptAead]
  split
  case isTrue short =>
    constructor
    · intro accepted
      cases accepted
    · exact fun accepted => absurd accepted.1 (Nat.not_le.mpr short)
  case isFalse long =>
    obtain ⟨tail, word⟩ := u32FromBe_isSome
      (show (header.drop (header.length - 4)).length = 4 by rw [List.length_drop]; omega)
    rw [if_neg (by omega), sliceFrom_of_le (by omega)]
    simp only [Outcome.ofChecked_ok, Outcome.ok_bind, word, Option.some.injEq,
      tagLast_of_le (Nat.not_lt.mp long), aead_ok isAead]
    cases opened : crypto.gcmOpen self.key (aeadNonce self.implicitIv tail) header
        (body.drop tagLen ++ body.take tagLen) with
    | none =>
        constructor
        · intro accepted
          cases accepted
        · rintro ⟨-, rfl, accepted⟩
          rw [opened] at accepted
          cases accepted
    | some message =>
        constructor
        · intro accepted
          cases accepted
          exact ⟨Nat.not_lt.mp long, rfl, opened⟩
        · rintro ⟨-, rfl, accepted⟩
          rw [opened] at accepted
          cases accepted
          rfl

/-- Only GCM has a limit. -/
theorem encrypt_ok_iff (seals : GcmSeals crypto) (self : DataCipher) (iv : Vector UInt8 16)
    {header : Bytes} (short : header.length ≤ gcmLimit) (packetId : UInt32) (plaintext : Bytes) :
    (∃ body, self.encrypt crypto iv header packetId plaintext = .ok body) ↔
      (self.cipher.isAead = true → plaintext.length ≤ gcmLimit) := by
  cases mode : self.cipher.isAead with
  | true =>
      have sealing := self.encrypt_aead seals mode iv short packetId plaintext
      split at sealing
      case isTrue within => exact iff_of_true sealing fun _ => within
      case isFalse beyond =>
        refine iff_of_false ?_ fun limited => beyond (limited rfl)
        rintro ⟨body, encrypted⟩
        rw [sealing] at encrypted
        cases encrypted
  | false =>
      rw [encrypt_cbc mode]
      exact iff_of_true ⟨_, rfl⟩ Bool.false_ne_true.elim

/-- A body in its three parts is accepted if the tag is theirs and the message
starts with a packet id. -/
private theorem decryptCbc_parts (cbc : self.cipher.isAead = false) {tag ciphertext : Bytes}
    (iv : Vector UInt8 16) (tagLength : tag.length = self.auth.size)
    (block : 16 ≤ ciphertext.length) (packetId : UInt32) (plaintext : Bytes) :
    self.decryptCbc crypto (tag ++ (iv.toList ++ ciphertext)) = .ok (packetId, plaintext) ↔
      crypto.hmac self.auth (self.mac.take self.auth.size) (iv.toList ++ ciphertext) = tag ∧
        crypto.cbcDecrypt self.key iv.toList ciphertext =
          some (u32ToBe packetId ++ plaintext) := by
  have ivLength : iv.toList.length = 16 := Vector.length_toList
  have long : self.auth.size + 16 + 16 ≤ (tag ++ (iv.toList ++ ciphertext)).length := by
    simp only [List.length_append]
    omega
  unfold decryptCbc
  dsimp only
  rw [if_neg (Nat.not_lt.mpr long), slice_of_le (Nat.zero_le _) (by omega),
    sliceFrom_of_le (by omega), List.drop_left' tagLength, List.drop_zero, Nat.sub_zero,
    List.take_left' tagLength]
  simp only [Outcome.ofChecked_ok, Outcome.ok_bind]
  rw [slice_of_le (Nat.zero_le _) (by rw [List.length_append]; omega),
    sliceFrom_of_le (by rw [List.length_append]; omega), List.drop_left' ivLength,
    List.drop_zero, Nat.sub_zero, List.take_left' ivLength,
    slice_of_le (Nat.zero_le _) (self.mac_length cbc), List.drop_zero, Nat.sub_zero]
  simp only [Outcome.ofChecked_ok, Outcome.ok_bind]
  split
  case isTrue forged =>
    constructor
    · intro accepted
      cases accepted
    · intro accepted
      rw [(constantTimeEq_iff _ _).mpr accepted.1] at forged
      cases forged
  case isFalse genuine =>
    rw [Bool.not_eq_false, constantTimeEq_iff] at genuine
    rw [cbc_ok cbc, Outcome.ok_bind, and_iff_right genuine]
    cases crypto.cbcDecrypt self.key iv.toList ciphertext with
    | none =>
        constructor
        · intro accepted
          cases accepted
        · intro accepted
          cases accepted
    | some message =>
        rw [Outcome.ofOption_some, Outcome.ok_bind, Option.some.injEq]
        split
        case isTrue short =>
          constructor
          · intro accepted
            cases accepted
          · rintro rfl
            simp only [List.length_append, u32ToBe_length] at short
            omega
        case isFalse enough =>
          obtain ⟨word, read⟩ := u32FromBe_isSome
            (show (message.take 4).length = 4 by rw [List.length_take]; omega)
          have head := u32FromBe_eq_some.mp read
          rw [slice_of_le (Nat.zero_le _) (by omega), sliceFrom_of_le (by omega)]
          simp only [Outcome.ofChecked_ok, Outcome.ok_bind, List.drop_zero, Nat.sub_zero, read]
          constructor
          · intro accepted
            cases accepted
            rw [← head, List.take_append_drop]
          · rintro rfl
            rw [List.take_left' (u32ToBe_length packetId)] at head
            rw [List.drop_left' (u32ToBe_length packetId), u32ToBe_injective head]
            rfl

/-- Tag, iv and at least one block. -/
private theorem exists_parts {body : Bytes} {tagLength : Nat}
    (long : tagLength + 16 + 16 ≤ body.length) :
    ∃ tag ciphertext, ∃ iv : Vector UInt8 16, body = tag ++ (iv.toList ++ ciphertext) ∧
      tag.length = tagLength ∧ 16 ≤ ciphertext.length := by
  have ivLength : (((body.drop tagLength).take 16).toArray).size = 16 := by
    rw [List.size_toArray, List.length_take, List.length_drop]
    omega
  refine ⟨body.take tagLength, (body.drop tagLength).drop 16, ⟨_, ivLength⟩, ?_, ?_, ?_⟩
  · change body = _ ++ ((body.drop tagLength).take 16 ++ _)
    rw [List.take_append_drop, List.take_append_drop]
  · rw [List.length_take]
    omega
  · rw [List.length_drop, List.length_drop]
    omega

theorem decryptCbc_cbcBody (decrypts : CbcDecrypts crypto) (pads : CbcPads crypto)
    (cbc : self.cipher.isAead = false) (iv : Vector UInt8 16) (packetId : UInt32)
    (plaintext : Bytes) :
    self.decryptCbc crypto (self.cbcBody crypto iv packetId plaintext) =
      .ok (packetId, plaintext) := by
  have block : 16 ≤ (crypto.cbcEncrypt self.key iv.toList
      (u32ToBe packetId ++ plaintext)).length := by
    rw [pads.encrypted]
    omega
  rw [cbcBody, List.append_assoc, decryptCbc_parts cbc iv (pads.tag _ _ _) block]
  exact ⟨rfl, decrypts _ _ _⟩

theorem eq_cbcBody_of_decryptCbc (strict : CbcStrict crypto) (pads : CbcPads crypto)
    (cbc : self.cipher.isAead = false) {body : Bytes} {packetId : UInt32} {plaintext : Bytes}
    (accepted : self.decryptCbc crypto body = .ok (packetId, plaintext)) :
    ∃ iv : Vector UInt8 16, body = self.cbcBody crypto iv packetId plaintext := by
  rcases exists_parts (decryptCbc_ok_length pads accepted).1 with
    ⟨tag, ciphertext, iv, rfl, tagLength, block⟩
  rw [decryptCbc_parts cbc iv tagLength block] at accepted
  refine ⟨iv, ?_⟩
  rw [cbcBody, strict _ _ _ _ accepted.2, accepted.1, List.append_assoc]

/-! ### The image of `encrypt` -/

/-- `body` is what `encrypt` makes of this message; under an AEAD cipher the
header names the packet id too. -/
def Encrypts (crypto : Crypto) (self : DataCipher) (header body : Bytes) (packetId : UInt32)
    (plaintext : Bytes) : Prop :=
  (self.cipher.isAead = true → u32FromBe (header.drop (header.length - 4)) = some packetId) ∧
    ∃ iv, self.encrypt crypto iv header packetId plaintext = .ok body

theorem decrypt_of_encrypts (opens : GcmOpens crypto) (decrypts : CbcDecrypts crypto)
    (pads : CbcPads crypto) {header body : Bytes} (headed : 4 ≤ header.length)
    {packetId : UInt32} {plaintext : Bytes}
    (encrypts : self.Encrypts crypto header body packetId plaintext) :
    self.decrypt crypto header body = .ok (packetId, plaintext) := by
  rcases encrypts with ⟨named, iv, encrypted⟩
  cases mode : self.cipher.isAead with
  | true =>
      rw [encrypt_aead_iff mode] at encrypted
      rw [decrypt_aead_iff mode headed]
      exact ⟨encrypted.1, named mode, opens _ _ _ _ _ encrypted.2⟩
  | false =>
      rw [encrypt_cbc mode] at encrypted
      cases encrypted
      rw [decrypt, mode, if_neg Bool.false_ne_true, decryptCbc_cbcBody decrypts pads mode]

/-- An accepted packet is the encryption of what it is decrypted to. For GCM the
opened message is the sealed one, since opening undoes sealing. -/
theorem encrypts_of_decrypt (opens : GcmOpens crypto) (authentic : GcmAuthentic crypto)
    (strict : CbcStrict crypto) (pads : CbcPads crypto) {header body : Bytes}
    (headed : 4 ≤ header.length) {packetId : UInt32} {plaintext : Bytes}
    (accepted : self.decrypt crypto header body = .ok (packetId, plaintext)) :
    self.Encrypts crypto header body packetId plaintext := by
  cases mode : self.cipher.isAead with
  | true =>
      rw [decrypt_aead_iff mode headed] at accepted
      rcases accepted with ⟨long, named, opened⟩
      rcases authentic _ _ _ _ _ opened with ⟨original, made⟩
      rw [opens _ _ _ _ _ made] at opened
      cases opened
      exact ⟨fun _ => named, Vector.replicate 16 0, (encrypt_aead_iff mode _ _ _ _ _).mpr
        ⟨long, made⟩⟩
  | false =>
      rw [decrypt, mode, if_neg Bool.false_ne_true] at accepted
      rcases eq_cbcBody_of_decryptCbc strict pads mode accepted with ⟨iv, rfl⟩
      refine ⟨fun isAead => ?_, iv, encrypt_cbc mode iv header packetId plaintext⟩
      rw [mode] at isAead
      cases isAead

/-- `decrypt` comes back on every body, and accepts exactly what `encrypt`
makes. -/
theorem decrypt_exact (opens : GcmOpens crypto) (authentic : GcmAuthentic crypto)
    (decrypts : CbcDecrypts crypto) (strict : CbcStrict crypto) (pads : CbcPads crypto)
    (self : DataCipher) {header : Bytes} (headed : 4 ≤ header.length) (body : Bytes) :
    (self.decrypt crypto header body).Returned ∧
      ∀ packetId plaintext, self.decrypt crypto header body = .ok (packetId, plaintext) ↔
        self.Encrypts crypto header body packetId plaintext := by
  refine ⟨self.decrypt_returned crypto headed body, fun packetId plaintext => ?_⟩
  constructor
  · exact encrypts_of_decrypt opens authentic strict pads headed
  · exact decrypt_of_encrypts opens decrypts pads headed

end DataCipher

namespace Session

variable {σ : Type} {crypto : Crypto}

private theorem new_ok {cipher : Cipher} {auth : Auth} {key mac : Bytes}
    (keyLength : key.length = cipher.keyLen) (macLength : mac.length = auth.size) :
    ∃ made, DataCipher.new cipher auth key mac = .ok made := by
  unfold DataCipher.new
  rw [dif_neg (by omega), dif_neg (fun short => by omega)]
  exact ⟨_, rfl⟩

/-- From a seed `install_keys` always makes a pair of ciphers. -/
theorem installKeys_ok (digests : PrfDigests crypto) {self : Session σ} {seed : SeedData}
    (seeded : self.control.seed = some seed) :
    ∃ after keys, installKeys crypto self = (.ok (), after) ∧ after.control.keys = some keys := by
  rcases KeyMaterial.derive_ok digests seed self.control.cipher self.control.auth with
    ⟨material, derived, encryptLength, decryptLength, macEncryptLength, macDecryptLength⟩
  rcases new_ok encryptLength macEncryptLength with ⟨encrypt, newEncrypt⟩
  rcases new_ok decryptLength macDecryptLength with ⟨decrypt, newDecrypt⟩
  have run : installKeys crypto self = (.ok (), { self with
      control := { self.control with seed := none, keys := some ⟨encrypt, decrypt⟩ } }) := by
    simp only [installKeys, update, Task.run_bind, Task.run_gets, Task.run_modify, Task.run_lift,
      seeded, Outcome.ofOption_some, derived, newEncrypt, newDecrypt]
  exact ⟨_, _, run, rfl⟩

/-! ### Over the wire -/

/-- The opcode of a cipher's data packets. -/
def dataOpcode (cipher : Cipher) : UInt8 := if cipher.isAead then pDataV2 else pDataV1

/-- The header `send_data` writes is the header the parser cuts off. -/
theorem parse_sentHeader (self : Session σ) (body : Bytes) :
    Packet.parse (self.sentHeader ++ body) =
      .ok (some { opcode := dataOpcode self.control.cipher, sessionId := [], packetId := 0,
                  header := self.sentHeader, payload := body }) := by
  unfold sentHeader dataHeader dataOpcode
  cases self.control.cipher.isAead with
  | true => exact Packet.parse_data (by decide) (by simp [u32ToBe_length]; decide)
  | false => exact Packet.parse_data (by decide) (by simp [u32ToBe_length]; decide)

/-- The last four bytes of that header are the counter. -/
theorem sentHeader_packetId (self : Session σ) :
    4 ≤ self.sentHeader.length ∧
      u32FromBe (self.sentHeader.drop (self.sentHeader.length - 4)) =
        some (self.control.sendCounter + 1) := by
  unfold sentHeader
  rw [List.length_append, u32ToBe_length, Nat.add_sub_cancel, List.drop_left, u32FromBe_toBe]
  exact ⟨Nat.le_add_left _ _, rfl⟩

/-- `send_data` takes the next counter, and puts the encrypted payload behind its
header on the wire if there is one. -/
theorem sendData_events (crypto : Crypto) {self : Session σ} {keys : Keys}
    (present : self.control.keys = some keys) (iv : Vector UInt8 16) (payload : Bytes) :
    ∃ new, (sendData crypto iv payload self).2.history = self.history ++ new ∧
      (sendData crypto iv payload self).2.control = self.counted.control ∧
      ∀ datagram, (.sent datagram ∈ new ∨ .lost datagram ∈ new) ↔
        ∃ body, keys.encrypt.encrypt crypto iv self.sentHeader (self.control.sendCounter + 1)
          payload = .ok body ∧ datagram = self.sentHeader ++ body := by
  rw [sendData_eq present]
  cases keys.encrypt.encrypt crypto iv self.sentHeader (self.control.sendCounter + 1) payload with
  | ok body =>
      rw [Task.run_bind_ok (Task.run_lift _ _)]
      split
      case isTrue =>
        obtain ⟨event, kind, events, control⟩ := sendRaw_step (self.sentHeader ++ body)
          { self.counted with
            history := self.history ++ [.encrypted keys.encrypt.key
              (aeadNonce keys.encrypt.implicitIv (self.control.sendCounter + 1))] }
        refine ⟨[.encrypted keys.encrypt.key
          (aeadNonce keys.encrypt.implicitIv (self.control.sendCounter + 1)), event], ?_, control,
          fun datagram => ?_⟩
        · rw [List.append_cons]
          exact events
        · rcases kind with rfl | rfl <;> simp
      case isFalse =>
        obtain ⟨event, kind, events, control⟩ :=
          sendRaw_step (self.sentHeader ++ body) self.counted
        refine ⟨[event], events, control, fun datagram => ?_⟩
        rcases kind with rfl | rfl <;> simp
  | error failure => exact ⟨[], (List.append_nil _).symm, rfl, fun datagram => by simp⟩
  | panic => exact ⟨[], (List.append_nil _).symm, rfl, fun datagram => by simp⟩
  | pending => exact ⟨[], (List.append_nil _).symm, rfl, fun datagram => by simp⟩

theorem built_iff (crypto : Crypto) {self : Session σ} {keys : Keys}
    (present : self.control.keys = some keys) (iv : Vector UInt8 16) (payload datagram : Bytes) :
    Built crypto self iv payload datagram ↔
      ∃ body, keys.encrypt.encrypt crypto iv self.sentHeader (self.control.sendCounter + 1)
        payload = .ok body ∧ datagram = self.sentHeader ++ body := by
  rcases sendData_events crypto present iv payload with ⟨new, history, -, built⟩
  rw [Built, history, List.drop_left, built]

/-- A data packet that is read back as what was sent under this cipher. -/
def ReadsBack (crypto : Crypto) (cipher : DataCipher) (datagram : Bytes) (packetId : UInt32)
    (payload : Bytes) : Prop :=
  ∃ packet, Packet.parse datagram = .ok (some packet) ∧
    packet.opcode = dataOpcode cipher.cipher ∧
    cipher.decrypt crypto packet.header packet.payload = .ok (packetId, payload)

/-- The round trip over the wire, for key material of the lengths
`KeyMaterial::derive` cuts: `send_data` builds one datagram unless the payload
is beyond what GCM seals, and a cipher with the same keys reads it back. -/
theorem sendData_readsBack (seals : GcmSeals crypto) (opens : GcmOpens crypto)
    (decrypts : CbcDecrypts crypto) (pads : CbcPads crypto) (cipher : Cipher) (auth : Auth)
    {key mac : Bytes} (keyLength : key.length = cipher.keyLen)
    (macLength : mac.length = auth.size) :
    ∃ made, DataCipher.new cipher auth key mac = .ok made ∧
      ∀ (self : Session σ) (decrypt : DataCipher), self.control.cipher = cipher →
        self.control.keys = some ⟨made, decrypt⟩ →
        ∀ iv payload,
          ((∃ datagram, Built crypto self iv payload datagram) ↔
            (cipher.isAead = true → payload.length ≤ gcmLimit)) ∧
          ∀ datagram, Built crypto self iv payload datagram →
            ReadsBack crypto made datagram
              (sendData crypto iv payload self).2.control.sendCounter payload := by
  rcases new_ok keyLength macLength with ⟨made, new⟩
  refine ⟨made, new, fun self decrypt kind present iv payload => ?_⟩
  have madeKind : made.cipher = cipher := new_cipher new
  have built := built_iff crypto present iv payload
  rcases sentHeader_packetId self with ⟨headed, named⟩
  constructor
  · have short : self.sentHeader.length ≤ gcmLimit := by
      have := dataHeader_length self.control.cipher self.control.peerId
      simp only [sentHeader, List.length_append, u32ToBe_length, gcmLimit]
      omega
    rw [← madeKind, ← made.encrypt_ok_iff seals iv short (self.control.sendCounter + 1)]
    constructor
    · rintro ⟨datagram, sent⟩
      rcases (built datagram).mp sent with ⟨body, encrypted, -⟩
      exact ⟨body, encrypted⟩
    · rintro ⟨body, encrypted⟩
      exact ⟨_, (built _).mpr ⟨body, encrypted, rfl⟩⟩
  · intro datagram sent
    rcases (built datagram).mp sent with ⟨body, encrypted, rfl⟩
    rcases sendData_events crypto present iv payload with ⟨-, -, control, -⟩
    refine ⟨_, parse_sentHeader self body, by rw [kind, madeKind], ?_⟩
    rw [control]
    exact DataCipher.decrypt_of_encrypts opens decrypts pads headed
      ⟨fun _ => named, iv, encrypted⟩

end Session

namespace TestVector

open Session

/-! The crates on the messages of the two tests, and an invertible stand-in for
every other message: a seal appends sixteen zeros and CBC only pads. The value of
the test and the stand-in's change places. -/

def standInSeal (message : Bytes) : Option Bytes :=
  if 2 ^ 36 < message.length then none else some (message ++ List.replicate tagLen 0)

def standInOpen (sealedBytes : Bytes) : Option Bytes :=
  let message := sealedBytes.take (sealedBytes.length - tagLen)
  if standInSeal message = some sealedBytes then some message else none

def standInPad (message : Bytes) : Bytes :=
  let count := 16 - message.length % 16
  message ++ List.replicate count (UInt8.ofNat count)

def standInUnpad (ciphertext : Bytes) : Option Bytes :=
  let message := ciphertext.take (ciphertext.length - (ciphertext.getLastD 0).toNat)
  if standInPad message = ciphertext then some message else none

def gcmSwap (key' nonce header : Bytes) : Equiv.Perm Bytes :=
  if key' = key ∧ nonce = aeadNonce (mac.take 8) 7 ∧ header = gcmHeader then
    Equiv.swap (payload ++ List.replicate tagLen 0) (gcmCiphertext ++ gcmTag)
  else
    Equiv.refl Bytes

def cbcSwap (key' iv : Bytes) : Equiv.Perm Bytes :=
  if key' = key ∧ iv = cbcIv then
    Equiv.swap (standInPad ([1, 2, 3, 4] ++ payload)) cbcCiphertext
  else
    Equiv.refl Bytes

def lawful : Crypto where
  gcmSeal key' nonce header message := (standInSeal message).map (gcmSwap key' nonce header)
  gcmOpen key' nonce header sealedBytes :=
    standInOpen ((gcmSwap key' nonce header).symm sealedBytes)
  cbcEncrypt key' iv message := cbcSwap key' iv (standInPad message)
  cbcDecrypt key' iv ciphertext := standInUnpad ((cbcSwap key' iv).symm ciphertext)
  hmac := hmac
  hmacMd5 _ _ := List.replicate 16 0
  hmacSha1 _ _ := List.replicate 20 0

private theorem swap_length {left right : Bytes} (same : left.length = right.length)
    (bytes : Bytes) : (Equiv.swap left right bytes).length = bytes.length := by
  rw [Equiv.swap_apply_def]
  split_ifs with isLeft isRight
  · rw [isLeft, same]
  · rw [isRight, same]
  · rfl

private theorem gcmSwap_length (key' nonce header sealedBytes : Bytes) :
    (gcmSwap key' nonce header sealedBytes).length = sealedBytes.length := by
  unfold gcmSwap
  split
  · exact swap_length (by decide) sealedBytes
  · rfl

private theorem cbcSwap_length (key' iv ciphertext : Bytes) :
    (cbcSwap key' iv ciphertext).length = ciphertext.length := by
  unfold cbcSwap
  split
  · exact swap_length (by decide) ciphertext
  · rfl

private theorem standInOpen_iff (sealedBytes message : Bytes) :
    standInOpen sealedBytes = some message ↔ standInSeal message = some sealedBytes := by
  constructor
  · intro opened
    unfold standInOpen at opened
    dsimp only at opened
    split at opened
    case isTrue made =>
      cases opened
      exact made
    case isFalse => cases opened
  · intro made
    have shape := made
    unfold standInSeal at shape
    split at shape
    case isTrue => cases shape
    case isFalse =>
      cases shape
      have taken : (message ++ List.replicate tagLen (0 : UInt8)).take
          ((message ++ List.replicate tagLen (0 : UInt8)).length - tagLen) = message := by
        rw [List.length_append, List.length_replicate, Nat.add_sub_cancel, List.take_left]
      rw [standInOpen, taken, if_pos made]

private theorem standInUnpad_iff (ciphertext message : Bytes) :
    standInUnpad ciphertext = some message ↔ standInPad message = ciphertext := by
  constructor
  · intro unpadded
    unfold standInUnpad at unpadded
    dsimp only at unpadded
    split at unpadded
    case isTrue made =>
      cases unpadded
      exact made
    case isFalse => cases unpadded
  · rintro rfl
    have last : (standInPad message).getLastD 0 = UInt8.ofNat (16 - message.length % 16) := by
      obtain ⟨count, more⟩ := Nat.exists_eq_succ_of_ne_zero
        (show 16 - message.length % 16 ≠ 0 by omega)
      rw [standInPad, more, List.getLastD_eq_getLast?, List.replicate_succ', ← List.append_assoc,
        List.getLast?_concat]
      rfl
    have taken : (standInPad message).take
        ((standInPad message).length - ((standInPad message).getLastD 0).toNat) = message := by
      have small : (16 - message.length % 16) % 2 ^ 8 = 16 - message.length % 16 := by omega
      rw [last, UInt8.toNat_ofNat', small, standInPad, List.length_append, List.length_replicate,
        Nat.add_sub_cancel, List.take_left]
    rw [standInUnpad, taken, if_pos rfl]

theorem lawfulSeals : GcmSeals lawful where
  within key' nonce header message _ short := by
    refine ⟨gcmSwap key' nonce header (message ++ List.replicate tagLen 0), ?_, ?_⟩
    · change (standInSeal message).map _ = _
      rw [standInSeal, if_neg (Nat.not_lt.mpr short)]
      rfl
    · rw [gcmSwap_length, List.length_append, List.length_replicate]
  beyond key' nonce header message long := by
    change (standInSeal message).map _ = none
    rw [standInSeal, if_pos long]
    rfl

theorem lawfulOpens : GcmOpens lawful := by
  intro key' nonce header message sealedBytes made
  rcases Option.map_eq_some_iff.mp made with ⟨plain, standIn, rfl⟩
  change standInOpen ((gcmSwap key' nonce header).symm (gcmSwap key' nonce header plain)) = _
  rw [Equiv.symm_apply_apply, standInOpen_iff]
  exact standIn

theorem lawfulAuthentic : GcmAuthentic lawful := by
  intro key' nonce header message sealedBytes opened
  have standIn := (standInOpen_iff _ _).mp opened
  refine ⟨message, ?_⟩
  change (standInSeal message).map _ = some sealedBytes
  rw [standIn, Option.map_some, Equiv.apply_symm_apply]

theorem lawfulDecrypts : CbcDecrypts lawful := by
  intro key' iv message
  change standInUnpad ((cbcSwap key' iv).symm (cbcSwap key' iv (standInPad message))) = _
  rw [Equiv.symm_apply_apply, standInUnpad_iff]

theorem lawfulStrict : CbcStrict lawful := by
  intro key' iv ciphertext message decrypted
  have standIn := (standInUnpad_iff _ _).mp decrypted
  change cbcSwap key' iv (standInPad message) = ciphertext
  rw [standIn, Equiv.apply_symm_apply]

theorem lawfulPads : CbcPads lawful where
  encrypted key' iv message := by
    change (cbcSwap key' iv (standInPad message)).length = _
    rw [cbcSwap_length, standInPad, List.length_append, List.length_replicate]
    omega
  decrypted key' iv ciphertext message decrypted := by
    have standIn := lawfulStrict key' iv ciphertext message decrypted
    rw [← standIn]
    change 16 ∣ (cbcSwap key' iv (standInPad message)).length
    rw [cbcSwap_length, standInPad, List.length_append, List.length_replicate]
    omega
  tag := cbcPads.tag

/-- The packets of the two tests are the encryptions of their payload. -/
theorem decrypt_exact_test :
    (gcmCipher.Encrypts lawful gcmHeader (gcmTag ++ gcmCiphertext) 7 payload ∧
        gcmCipher.decrypt lawful gcmHeader (gcmTag ++ gcmCiphertext) = .ok (7, payload)) ∧
      cbcCipher.Encrypts lawful gcmHeader cbcTestBody 0x01020304 payload ∧
        (cbcCipher.decrypt lawful gcmHeader []).Returned := by
  have gcm : gcmCipher.decrypt lawful gcmHeader (gcmTag ++ gcmCiphertext) = .ok (7, payload) := by
    decide
  have cbc : cbcCipher.decrypt lawful gcmHeader cbcTestBody = .ok (0x01020304, payload) := by
    decide
  have exact' (cipher : DataCipher) (body : Bytes) :=
    DataCipher.decrypt_exact lawfulOpens lawfulAuthentic lawfulDecrypts lawfulStrict lawfulPads
      cipher (show 4 ≤ gcmHeader.length by decide) body
  exact ⟨⟨((exact' gcmCipher _).2 _ _).mp gcm, gcm⟩, ((exact' cbcCipher _).2 _ _).mp cbc,
    (exact' cbcCipher []).1⟩

/-- The packet of `gcm_roundtrip_with_packet_id_in_aad` on the wire. -/
theorem sendData_readsBack_gcm :
    Built lawful (session gcmCipher []) iv payload (gcmHeader ++ (gcmTag ++ gcmCiphertext)) ∧
      ReadsBack lawful gcmCipher (gcmHeader ++ (gcmTag ++ gcmCiphertext)) 7 payload := by
  have built : Built lawful (session gcmCipher []) iv payload
      (gcmHeader ++ (gcmTag ++ gcmCiphertext)) := .inl (by decide)
  obtain ⟨made, new, back⟩ := @sendData_readsBack Unit _ lawfulSeals lawfulOpens lawfulDecrypts
    lawfulPads .aes128Gcm .sha1 key mac (by decide) (by decide)
  have same : DataCipher.new .aes128Gcm .sha1 key mac = .ok gcmCipher := by decide
  rw [same] at new
  cases new
  exact ⟨built, (back (session gcmCipher []) gcmCipher rfl rfl iv payload).2 _ built⟩

end TestVector

end Unroxy.OpenVpn
