import Unroxy.OpenVpn.DataSend

/-!
Owns where the packet id of a CBC data packet goes.

OpenVPN puts it inside the ciphertext only. `send_data` also appends it to the
link header and `Packet::parse` takes four bytes of every data packet as that
id, so the datagrams are four bytes off in both directions. Every result here is
a count of lengths.
-/

namespace Unroxy.OpenVpn

open Unroxy.Lib

/-- The lengths of `cbc` with `Pkcs7` and of an HMAC. -/
structure CbcPads (crypto : Crypto) : Prop where
  encrypted : ∀ key iv message,
    (crypto.cbcEncrypt key iv message).length = 16 * (message.length / 16 + 1)
  decrypted : ∀ key iv ciphertext message, crypto.cbcDecrypt key iv ciphertext = some message →
    16 ∣ ciphertext.length
  tag : ∀ auth key message, (crypto.hmac auth key message).length = auth.size

namespace DataCipher

variable {crypto : Crypto} {self : DataCipher}

/-- `HMAC || IV || ciphertext`, with the packet id inside the ciphertext. -/
def cbcBody (crypto : Crypto) (self : DataCipher) (iv : Vector UInt8 16) (packetId : UInt32)
    (plaintext : Bytes) : Bytes :=
  let ciphertext := crypto.cbcEncrypt self.key iv.toList (u32ToBe packetId ++ plaintext)
  crypto.hmac self.auth (self.mac.take self.auth.size) (iv.toList ++ ciphertext) ++ iv.toList ++
    ciphertext

theorem cbcBody_length (pads : CbcPads crypto) (iv : Vector UInt8 16) (packetId : UInt32)
    (plaintext : Bytes) :
    (self.cbcBody crypto iv packetId plaintext).length =
      self.auth.size + 16 + 16 * ((4 + plaintext.length) / 16 + 1) := by
  simp only [cbcBody, List.length_append, pads.tag, pads.encrypted, u32ToBe_length,
    Vector.length_toList]

theorem cbc_ok (cbc : self.cipher.isAead = false) (iv : Vector UInt8 16) :
    self.cbc iv.toList = .ok () := by
  have length := self.key_length
  unfold DataCipher.cbc
  cases kind : self.cipher with
  | aes256Gcm => simp [kind, Cipher.isAead] at cbc
  | aes128Gcm => simp [kind, Cipher.isAead] at cbc
  | aes256Cbc => simp [length, kind, Cipher.keyLen]
  | aes128Cbc => simp [length, kind, Cipher.keyLen]

/-- The cipher itself keeps to the layout. -/
theorem encrypt_cbc (cbc : self.cipher.isAead = false) (iv : Vector UInt8 16) (header : Bytes)
    (packetId : UInt32) (plaintext : Bytes) :
    self.encrypt crypto iv header packetId plaintext =
      .ok (self.cbcBody crypto iv packetId plaintext) := by
  rw [encrypt, cbc, if_neg Bool.false_ne_true, encryptCbc, cbc_ok cbc,
    slice_of_le (Nat.zero_le _) (self.mac_length cbc)]
  rfl

/-- A body the cipher accepts ends in whole blocks. -/
theorem decryptCbc_ok_length (pads : CbcPads crypto) {body : Bytes} {result : UInt32 × Bytes}
    (accepted : self.decryptCbc crypto body = .ok result) :
    self.auth.size + 16 + 16 ≤ body.length ∧ 16 ∣ body.length - self.auth.size - 16 := by
  unfold decryptCbc at accepted
  dsimp only at accepted
  split at accepted
  case isTrue => cases accepted
  case isFalse long =>
    rcases Outcome.of_bind_ok accepted with ⟨tag, -, accepted⟩
    rcases Outcome.of_bind_ok accepted with ⟨rest, restSlice, accepted⟩
    rcases Outcome.of_bind_ok accepted with ⟨iv, -, accepted⟩
    rcases Outcome.of_bind_ok accepted with ⟨ciphertext, ciphertextSlice, accepted⟩
    rcases Outcome.of_bind_ok accepted with ⟨macKey, -, accepted⟩
    rw [sliceFrom_of_le (by omega)] at restSlice
    cases restSlice
    rw [sliceFrom_of_le (by rw [List.length_drop]; omega)] at ciphertextSlice
    cases ciphertextSlice
    split at accepted
    case isTrue => cases accepted
    case isFalse =>
      rcases Outcome.of_bind_ok accepted with ⟨_, -, accepted⟩
      rcases Outcome.of_bind_ok accepted with ⟨plaintext, decrypted, -⟩
      cases found : crypto.cbcDecrypt self.key iv ((body.drop self.auth.size).drop 16) with
      | none =>
          rw [found] at decrypted
          cases decrypted
      | some message =>
          have whole := pads.decrypted _ _ _ _ found
          rw [List.length_drop, List.length_drop] at whole
          exact ⟨by omega, whole⟩

end DataCipher

namespace Session

variable {σ : Type} {crypto : Crypto}

/-- The datagram `send_data` built, whether or not the socket took it. -/
def Built (crypto : Crypto) (self : Session σ) (iv : Vector UInt8 16) (payload datagram : Bytes) :
    Prop :=
  .sent datagram ∈ (sendData crypto iv payload self).2.history.drop self.history.length ∨
    .lost datagram ∈ (sendData crypto iv payload self).2.history.drop self.history.length

/-- What `send_data` builds is the link header and a body in OpenVPN's layout. -/
def SendsLayout (crypto : Crypto) (self : Session σ) (keys : Keys) (iv : Vector UInt8 16)
    (payload : Bytes) : Prop :=
  ∀ datagram, Built crypto self iv payload datagram →
    ∃ iv' packetId, datagram = dataHeader self.control.cipher 0 self.control.peerId ++
      keys.encrypt.cbcBody crypto iv' packetId payload

/-- A link header and this body are read as `result`. -/
def ReadsLayout (crypto : Crypto) (self : Session σ) (keys : Keys) (body : Bytes)
    (result : UInt32 × Bytes) : Prop :=
  ∃ packet, Packet.parse (dataHeader self.control.cipher 0 self.control.peerId ++ body) =
      .ok (some packet) ∧
    keys.decrypt.decrypt crypto packet.header packet.payload = .ok result

/-- Under a CBC cipher `send_data` builds the body behind header and counter. -/
theorem built_cbc {self : Session σ} {keys : Keys} (installed : Installed self keys)
    (cbc : self.control.cipher.isAead = false) (iv : Vector UInt8 16) (payload : Bytes) :
    Built crypto self iv payload (self.sentHeader ++
      keys.encrypt.cbcBody crypto iv (self.control.sendCounter + 1) payload) := by
  have senderCbc : keys.encrypt.cipher.isAead = false := installed.sender ▸ cbc
  have run : sendData crypto iv payload self = sendRaw (self.sentHeader ++
      keys.encrypt.cbcBody crypto iv (self.control.sendCounter + 1) payload) self.counted := by
    rw [sendData_eq installed.present, DataCipher.encrypt_cbc senderCbc,
      Task.run_bind_ok (Task.run_lift _ _)]
    simp only [senderCbc, Bool.false_eq_true, if_false]
  obtain ⟨event, kind, events, -⟩ := sendRaw_step (self.sentHeader ++
    keys.encrypt.cbcBody crypto iv (self.control.sendCounter + 1) payload) self.counted
  unfold Built
  rw [run, events, show self.counted.history = self.history from rfl, List.drop_left]
  rcases kind with rfl | rfl
  · exact .inl (List.mem_singleton.mpr rfl)
  · exact .inr (List.mem_singleton.mpr rfl)

/-- The parser takes the first four bytes of a CBC body for a packet id. -/
theorem parse_cbc {cipher : Cipher} (cbc : cipher.isAead = false) (peerId : PeerId)
    {body : Bytes} (long : 4 ≤ body.length) :
    Packet.parse (dataHeader cipher 0 peerId ++ body) =
      .ok (some { opcode := pDataV1, sessionId := [], packetId := 0,
                  header := dataHeader cipher 0 peerId ++ body.take 4,
                  payload := body.drop 4 }) := by
  have header : dataHeader cipher 0 peerId = [0x30] := by
    rw [dataHeader, cbc, if_neg Bool.false_ne_true]
    decide
  have headed : ((0x30 : UInt8) :: body.take 4).length =
      linkHeaderLen ((0x30 : UInt8) >>> 3) + 4 := by
    rw [List.length_cons, List.length_take, Nat.min_eq_left long]
    decide
  calc Packet.parse (dataHeader cipher 0 peerId ++ body)
      = Packet.parse (0x30 :: body.take 4 ++ body.drop 4) := by
        rw [header, List.singleton_append, List.cons_append, List.take_append_drop]
    _ = _ := by
        rw [Packet.parse_data (by decide) headed, header, List.singleton_append]
        rfl

/-- Under a CBC cipher no datagram has OpenVPN's layout and no body that has it
is read. -/
theorem cbc_never_in_layout (pads : CbcPads crypto) {self : Session σ} {keys : Keys}
    (installed : Installed self keys) (cbc : self.control.cipher.isAead = false) :
    (∀ iv payload, ¬ SendsLayout crypto self keys iv payload) ∧
      ∀ body result, keys.decrypt.decryptCbc crypto body = .ok result →
        ¬ ReadsLayout crypto self keys body result := by
  constructor
  · intro iv payload sends
    rcases sends _ (built_cbc installed cbc iv payload) with ⟨iv', packetId, same⟩
    have lengths := congrArg List.length same
    simp only [sentHeader, List.length_append, DataCipher.cbcBody_length pads, u32ToBe_length]
      at lengths
    omega
  · rintro body result accepted ⟨packet, parsed, decrypted⟩
    have receiverCbc : keys.decrypt.cipher.isAead = false := installed.receiver ▸ cbc
    rcases DataCipher.decryptCbc_ok_length pads accepted with ⟨long, whole⟩
    rw [parse_cbc cbc self.control.peerId (by omega)] at parsed
    cases parsed
    rw [DataCipher.decrypt, receiverCbc, if_neg Bool.false_ne_true] at decrypted
    rcases DataCipher.decryptCbc_ok_length pads decrypted with ⟨longTail, wholeTail⟩
    rw [List.length_drop] at longTail wholeTail
    omega

end Session

namespace TestVector

open Session

theorem cbcPads : CbcPads crypto where
  encrypted key' iv message := by
    change (cbcEncrypt key' iv message).length = _
    unfold cbcEncrypt
    split
    case isTrue vector =>
      rw [vector.2.2]
      decide
    case isFalse => exact List.length_replicate
  decrypted key' iv ciphertext message decrypted := by
    change cbcDecrypt key' iv ciphertext = some message at decrypted
    unfold cbcDecrypt at decrypted
    split at decrypted
    case isTrue vector =>
      rw [vector.2.2]
      decide
    case isFalse => cases decrypted
  tag auth key' message := by
    change (hmac auth key' message).length = _
    unfold hmac
    split
    case isTrue vector =>
      rw [vector.1]
      decide
    case isFalse => exact List.length_replicate

/-- The body of `cbc_matches_openvpn_layout`. -/
def cbcTestBody : Bytes := cbcTag ++ cbcIv ++ cbcCiphertext

theorem cbc_never_in_layout_test :
    cbcCipher.decryptCbc crypto cbcTestBody = .ok (0x01020304, payload) ∧
      (∀ iv sent,
        ¬ SendsLayout crypto (session cbcCipher []) ⟨cbcCipher, cbcCipher⟩ iv sent) ∧
      ∀ body result, cbcCipher.decryptCbc crypto body = .ok result →
        ¬ ReadsLayout crypto (session cbcCipher []) ⟨cbcCipher, cbcCipher⟩ body result :=
  ⟨by decide, cbc_never_in_layout cbcPads (installed cbcCipher []) rfl⟩

/-- The body the test accepts is rejected behind a link header. -/
theorem not_readsLayout_test :
    cbcCipher.decryptCbc crypto cbcTestBody = .ok (0x01020304, payload) ∧
      ¬ ReadsLayout crypto (session cbcCipher []) ⟨cbcCipher, cbcCipher⟩ cbcTestBody
        (0x01020304, payload) := by
  refine ⟨by decide, ?_⟩
  rintro ⟨packet, parsed, decrypted⟩
  have long : 4 ≤ cbcTestBody.length := by decide
  cases (parse_cbc rfl _ long).symm.trans parsed
  have rejected : cbcCipher.decryptCbc crypto (cbcTestBody.drop 4) =
      .error (.data "hmac mismatch") := by decide
  exact nomatch rejected.symm.trans decrypted

end TestVector

end Unroxy.OpenVpn
