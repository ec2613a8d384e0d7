import Unroxy.Lib.Run
import Unroxy.OpenVpn.Control

/-!
Owns the nonces of `send_data` under an AEAD cipher.

The keys are installed once and every call of `send_data` takes the next
counter, so the nonce of a call is fixed by how many calls came before it.
`runCalls_encryptions` lists the pairs of key and nonce a run of calls uses; two
of them agree exactly when the counter has gone once around its 32 bits.
-/

namespace Unroxy.OpenVpn

open Unroxy.Lib

/-- The longest message `aes_gcm` seals. -/
abbrev gcmLimit : Nat := 2 ^ 36

/-- `aes_gcm` seals a message within its limit and appends the tag; it refuses a
longer one. -/
structure GcmSeals (crypto : Crypto) : Prop where
  within : ∀ key nonce header message, header.length ≤ gcmLimit → message.length ≤ gcmLimit →
    ∃ sealedBytes, crypto.gcmSeal key nonce header message = some sealedBytes ∧
      sealedBytes.length = message.length + tagLen
  beyond : ∀ key nonce header message, gcmLimit < message.length →
    crypto.gcmSeal key nonce header message = none

/-! ### Nonces -/

theorem aeadNonce_injective {implicitIv : Bytes} {left right : UInt32}
    (same : aeadNonce implicitIv left = aeadNonce implicitIv right) : left = right := by
  unfold aeadNonce at same
  rw [List.append_assoc, List.append_assoc] at same
  exact u32ToBe_injective (List.append_inj_left same (by simp))

/-- Counting on reaches the same counter exactly after whole rounds. -/
private theorem counter_eq_iff (counter : UInt32) (distance : Nat) :
    counter + UInt32.ofNat distance = counter ↔ 2 ^ 32 ∣ distance := by
  rw [← UInt32.toNat_inj, UInt32.toNat_add, UInt32.toNat_ofNat']
  have bound := counter.toNat_lt
  omega

namespace DataCipher

variable {crypto : Crypto} {self : DataCipher}

theorem aead_ok (isAead : self.cipher.isAead = true) : self.aead = .ok () := by
  have length := self.key_length
  unfold aead
  cases kind : self.cipher with
  | aes256Gcm => simp [length, kind, Cipher.keyLen]
  | aes128Gcm => simp [length, kind, Cipher.keyLen]
  | aes256Cbc => simp [kind, Cipher.isAead] at isAead
  | aes128Cbc => simp [kind, Cipher.isAead] at isAead

/-- Moving the tag to the front and back again. -/
theorem tagFirst_iff (sealedBytes body : Bytes) :
    tagFirst sealedBytes tagLen = .ok body ↔
      tagLen ≤ body.length ∧ sealedBytes = body.drop tagLen ++ body.take tagLen := by
  unfold tagFirst
  split
  case isTrue short =>
    constructor
    · intro moved
      cases moved
    · rintro ⟨long, rfl⟩
      simp only [List.length_append, List.length_drop, List.length_take] at short
      omega
  case isFalse long =>
    have tagLength : (sealedBytes.drop (sealedBytes.length - tagLen)).length = tagLen := by
      rw [List.length_drop]
      omega
    constructor
    · intro moved
      cases moved
      rw [List.drop_left' tagLength, List.take_left' tagLength, List.take_append_drop,
        List.length_append]
      exact ⟨by omega, rfl⟩
    · rintro ⟨enough, rfl⟩
      have messageLength : (body.drop tagLen ++ body.take tagLen).length - tagLen =
          (body.drop tagLen).length := by
        simp only [List.length_append, List.length_drop, List.length_take]
        omega
      simp only [messageLength, List.drop_left, List.take_left, List.take_append_drop]

theorem encrypt_aead_iff (isAead : self.cipher.isAead = true)
    (iv : Vector UInt8 16) (header : Bytes) (packetId : UInt32) (plaintext body : Bytes) :
    self.encrypt crypto iv header packetId plaintext = .ok body ↔
      tagLen ≤ body.length ∧ crypto.gcmSeal self.key (aeadNonce self.implicitIv packetId) header
        plaintext = some (body.drop tagLen ++ body.take tagLen) := by
  rw [encrypt, if_pos isAead, encryptAead, aead_ok isAead, Outcome.ok_bind]
  cases made : crypto.gcmSeal self.key (aeadNonce self.implicitIv packetId) header plaintext with
  | none =>
      constructor
      · intro encrypted
        cases encrypted
      · intro encrypted
        cases encrypted.2
  | some sealedBytes =>
      rw [Outcome.ofOption_some, Outcome.ok_bind, tagFirst_iff, Option.some.injEq]

/-- Under an AEAD cipher a packet is encrypted exactly if it is within the
limit. -/
theorem encrypt_aead (seals : GcmSeals crypto) (isAead : self.cipher.isAead = true)
    (iv : Vector UInt8 16) {header : Bytes} (short : header.length ≤ gcmLimit)
    (packetId : UInt32) (plaintext : Bytes) :
    if plaintext.length ≤ gcmLimit then
      ∃ body, self.encrypt crypto iv header packetId plaintext = .ok body
    else
      self.encrypt crypto iv header packetId plaintext = .error (.data "gcm encrypt") := by
  rw [encrypt, if_pos isAead, encryptAead, aead_ok isAead]
  split
  case isTrue within =>
    obtain ⟨sealedBytes, result, length⟩ := seals.within self.key
      (aeadNonce self.implicitIv packetId) header plaintext short within
    refine ⟨sealedBytes.drop (sealedBytes.length - tagLen) ++
      sealedBytes.take (sealedBytes.length - tagLen), ?_⟩
    simp only [Outcome.ok_bind, result, Outcome.ofOption_some, tagFirst]
    rw [if_neg (by omega)]
  case isFalse beyond =>
    rw [Outcome.ok_bind, seals.beyond _ _ _ _ (by omega)]
    rfl

end DataCipher

namespace Session

variable {σ : Type} {crypto : Crypto}

/-! ### Calls after `install_keys` -/

/-- A control whose keys are installed. -/
structure Installed (session : Session σ) (keys : Keys) : Prop where
  present : session.control.keys = some keys
  noSeed : session.control.seed = none
  sender : keys.encrypt.cipher = session.control.cipher
  receiver : keys.decrypt.cipher = session.control.cipher

inductive DataCall where
  | sendData (iv : Vector UInt8 16) (payload : Bytes)
  | installKeys

/-- The session a call leaves behind, however it ends. -/
def DataCall.run (crypto : Crypto) (self : Session σ) : DataCall → Session σ
  | .sendData iv payload => (Session.sendData crypto iv payload self).2
  | .installKeys => (Session.installKeys crypto self).2

def runCalls (crypto : Crypto) (self : Session σ) (calls : List DataCall) : Session σ :=
  run (DataCall.run crypto) self calls

/-- The payloads of the `send_data` calls, failing ones included. -/
def payloads (calls : List DataCall) : List Bytes :=
  calls.filterMap fun call => match call with
    | .sendData _ payload => some payload
    | .installKeys => none

/-- Key and nonce of every packet encrypted under an AEAD cipher. -/
def encryptions (history : List Event) : List (Bytes × Bytes) :=
  history.filterMap fun event => match event with
    | .encrypted key nonce => some (key, nonce)
    | _ => none

/-- No two calls with a payload that can be sealed are a whole number of rounds
of the counter apart. -/
def Spaced (payloads : List Bytes) : Prop :=
  ∀ i j first second, i < j → payloads[i]? = some first → payloads[j]? = some second →
    first.length ≤ gcmLimit → second.length ≤ gcmLimit → ¬ 2 ^ 32 ∣ j - i

/-- What one call encrypts under this counter. -/
def spent (keys : Keys) (counter : UInt32) (payload : Bytes) : List (Bytes × Bytes) :=
  if payload.length ≤ gcmLimit then
    [(keys.encrypt.key, aeadNonce keys.encrypt.implicitIv counter)]
  else
    []

/-- What the calls with these payloads encrypt, starting behind `counter`. -/
def spentAll (keys : Keys) : UInt32 → List Bytes → List (Bytes × Bytes)
  | _, [] => []
  | counter, payload :: rest =>
      spent keys (counter + 1) payload ++ spentAll keys (counter + 1) rest

/-! ### One call -/

theorem dataHeader_length (cipher : Cipher) (peerId : PeerId) :
    (dataHeader cipher 0 peerId).length ≤ 4 := by
  unfold dataHeader
  split <;> simp

theorem new_cipher {cipher : Cipher} {auth : Auth} {key mac : Bytes} {made : DataCipher}
    (run : DataCipher.new cipher auth key mac = .ok made) : made.cipher = cipher := by
  unfold DataCipher.new at run
  split at run
  · cases run
  · split at run
    · cases run
    · cases run
      rfl

theorem installKeys_installed {before after : Session σ}
    (run : installKeys crypto before = (.ok (), after)) : ∃ keys, Installed after keys := by
  rcases Task.of_bind_ok run with ⟨control, _, got, run⟩
  cases got
  rcases Task.of_bind_ok run with ⟨_, _, spentSeed, run⟩
  cases spentSeed
  rcases Task.of_bind_ok run with ⟨seed, _, seeded, run⟩
  cases (Prod.mk.inj seeded).2
  rcases Task.of_bind_ok run with ⟨material, _, derived, run⟩
  cases (Prod.mk.inj derived).2
  rcases Task.of_bind_ok run with ⟨encrypt, _, newEncrypt, run⟩
  cases (Prod.mk.inj newEncrypt).2
  rcases Task.of_bind_ok run with ⟨decrypt, _, newDecrypt, run⟩
  cases (Prod.mk.inj newDecrypt).2
  cases run
  exact ⟨⟨encrypt, decrypt⟩, rfl, rfl, new_cipher (Prod.mk.inj newEncrypt).1,
    new_cipher (Prod.mk.inj newDecrypt).1⟩

/-- Installed keys stay: the seed is gone. -/
theorem installKeys_fails {self : Session σ} (noSeed : self.control.seed = none) :
    installKeys crypto self = (.error (.control "keys already installed"), self) := by
  have unchanged : { self with control := { self.control with seed := none } } = self := by
    rw [← noSeed]
  calc installKeys crypto self
      = (do
          let seed ← Task.lift (.ofOption (.control "keys already installed") self.control.seed)
          let keys ← Task.lift (KeyMaterial.derive crypto seed self.control.cipher
            self.control.auth.size)
          let encrypt ← Task.lift (DataCipher.new self.control.cipher self.control.auth
            keys.encrypt keys.macEncrypt)
          let decrypt ← Task.lift (DataCipher.new self.control.cipher self.control.auth
            keys.decrypt keys.macDecrypt)
          update fun control => { control with keys := some { encrypt, decrypt } } : Act σ Unit)
            { self with control := { self.control with seed := none } } := rfl
    _ = (.error (.control "keys already installed"), self) := by
        rw [noSeed, unchanged]
        rfl

/-- The state after `send_data` has taken a counter. -/
def counted (self : Session σ) : Session σ :=
  { self with control := { self.control with sendCounter := self.control.sendCounter + 1 } }

/-- The header `send_data` puts in front of the encrypted payload. -/
def sentHeader (self : Session σ) : Bytes :=
  dataHeader self.control.cipher 0 self.control.peerId ++ u32ToBe (self.control.sendCounter + 1)

theorem sendData_eq {self : Session σ} {keys : Keys} (present : self.control.keys = some keys)
    (iv : Vector UInt8 16) (payload : Bytes) :
    sendData crypto iv payload self = (do
      let encrypted ← Task.lift (keys.encrypt.encrypt crypto iv self.sentHeader
        (self.control.sendCounter + 1) payload)
      if keys.encrypt.cipher.isAead then
        log (.encrypted keys.encrypt.key
          (aeadNonce keys.encrypt.implicitIv (self.control.sendCounter + 1)))
      sendRaw (self.sentHeader ++ encrypted) : Act σ Unit) self.counted := by
  calc sendData crypto iv payload self
      = (do
          let keys ← Task.lift (.ofOption (.control "data keys missing") self.control.keys)
          let encrypted ← Task.lift (keys.encrypt.encrypt crypto iv self.sentHeader
            (self.control.sendCounter + 1) payload)
          if keys.encrypt.cipher.isAead then
            log (.encrypted keys.encrypt.key
              (aeadNonce keys.encrypt.implicitIv (self.control.sendCounter + 1)))
          sendRaw (self.sentHeader ++ encrypted) : Act σ Unit) self.counted := rfl
    _ = _ := by
        rw [present]
        rfl

/-- A datagram on its way out is one event, which encrypts nothing. -/
theorem sendRaw_step (datagram : Bytes) (self : Session σ) :
    ∃ event, (event = .sent datagram ∨ event = .lost datagram) ∧
      (sendRaw datagram self).2.history = self.history ++ [event] ∧
      (sendRaw datagram self).2.control = self.control := by
  simp only [sendRaw, log, Task.run_bind, Task.run_gets, Task.run_modify, id]
  cases self.faults.headD false with
  | true => exact ⟨_, .inr rfl, rfl, rfl⟩
  | false => exact ⟨_, .inl rfl, rfl, rfl⟩

/-- A payload that is sealed is two events, the encryption and the datagram on its way out. -/
theorem sendData_encrypted {self : Session σ} {keys : Keys} (installed : Installed self keys)
    (isAead : self.control.cipher.isAead = true) {iv : Vector UInt8 16} {payload body : Bytes}
    (encrypted : keys.encrypt.encrypt crypto iv self.sentHeader (self.control.sendCounter + 1)
      payload = .ok body) :
    ∃ event, (event = .sent (self.sentHeader ++ body) ∨ event = .lost (self.sentHeader ++ body)) ∧
      (sendData crypto iv payload self).2.history = self.history ++ [.encrypted keys.encrypt.key
        (aeadNonce keys.encrypt.implicitIv (self.control.sendCounter + 1)), event] ∧
      (sendData crypto iv payload self).2.control = self.counted.control := by
  have senderAead : keys.encrypt.cipher.isAead = true := installed.sender ▸ isAead
  rw [sendData_eq installed.present, encrypted, Task.run_bind_ok (Task.run_lift _ _)]
  simp only [senderAead, if_true]
  obtain ⟨event, kind, events, control⟩ := sendRaw_step (self.sentHeader ++ body)
    { self.counted with
      history := self.history ++ [.encrypted keys.encrypt.key
        (aeadNonce keys.encrypt.implicitIv (self.control.sendCounter + 1))] }
  refine ⟨event, kind, ?_, control⟩
  rw [List.append_cons]
  exact events

theorem sendData_step (seals : GcmSeals crypto) {self : Session σ} {keys : Keys}
    (installed : Installed self keys) (isAead : self.control.cipher.isAead = true)
    (iv : Vector UInt8 16) (payload : Bytes) :
    ∃ new, (sendData crypto iv payload self).2.history = self.history ++ new ∧
      encryptions new = spent keys (self.control.sendCounter + 1) payload ∧
      (sendData crypto iv payload self).2.control = self.counted.control := by
  have short : self.sentHeader.length ≤ gcmLimit := by
    have := dataHeader_length self.control.cipher self.control.peerId
    simp only [sentHeader, List.length_append, u32ToBe_length, gcmLimit]
    omega
  have sealing := keys.encrypt.encrypt_aead seals (installed.sender ▸ isAead) iv short
    (self.control.sendCounter + 1) payload
  rw [spent]
  split at sealing
  case isTrue within =>
    rcases sealing with ⟨body, encrypted⟩
    obtain ⟨event, kind, events, control⟩ := sendData_encrypted installed isAead encrypted
    rw [if_pos within]
    refine ⟨_, events, ?_, control⟩
    rcases kind with rfl | rfl <;> rfl
  case isFalse beyond =>
    rw [sendData_eq installed.present, sealing, if_neg beyond]
    exact ⟨[], (List.append_nil _).symm, rfl, rfl⟩

/-- The key and the nonce that a call logs are those under which its payload is sealed,
and what was sealed goes out, the tag first. -/
theorem sendData_sealed {self : Session σ} {keys : Keys} (installed : Installed self keys)
    (isAead : self.control.cipher.isAead = true) (iv : Vector UInt8 16) (payload : Bytes)
    {key nonce : Bytes}
    (logged : (key, nonce) ∈ encryptions
      ((sendData crypto iv payload self).2.history.drop self.history.length)) :
    ∃ body, crypto.gcmSeal key nonce self.sentHeader payload =
        some (body.drop tagLen ++ body.take tagLen) ∧
      ∃ event ∈ (sendData crypto iv payload self).2.history,
        event = .sent (self.sentHeader ++ body) ∨ event = .lost (self.sentHeader ++ body) := by
  rcases encrypted : keys.encrypt.encrypt crypto iv self.sentHeader
      (self.control.sendCounter + 1) payload with body | failure | - | -
  · obtain ⟨event, kind, events, -⟩ := sendData_encrypted installed isAead encrypted
    have pair : (key, nonce) = (keys.encrypt.key,
        aeadNonce keys.encrypt.implicitIv (self.control.sendCounter + 1)) := by
      rw [events, List.drop_left] at logged
      rcases kind with rfl | rfl <;> exact List.mem_singleton.mp logged
    cases pair
    refine ⟨body, ((DataCipher.encrypt_aead_iff (installed.sender ▸ isAead) _ _ _ _ _).mp
      encrypted).2, event, ?_, kind⟩
    rw [events]
    exact List.mem_append_right _ (List.mem_cons_of_mem _ List.mem_cons_self)
  all_goals
    rw [sendData_eq installed.present, encrypted] at logged
    have none_new : (key, nonce) ∈ encryptions (self.history.drop self.history.length) := logged
    rw [List.drop_length] at none_new
    exact absurd none_new List.not_mem_nil

/-! ### Runs of calls -/

theorem runCalls_encryptions (seals : GcmSeals crypto) (calls : List DataCall) :
    ∀ {self : Session σ} {keys : Keys}, Installed self keys →
      self.control.cipher.isAead = true →
      ∃ new, (runCalls crypto self calls).history = self.history ++ new ∧
        encryptions new = spentAll keys self.control.sendCounter (payloads calls) := by
  induction calls with
  | nil => exact fun _ _ => ⟨[], (List.append_nil _).symm, rfl⟩
  | cons call rest inductionHypothesis =>
      intro self keys installed isAead
      cases call with
      | sendData iv payload =>
          obtain ⟨first, firstHistory, firstSpent, control⟩ :=
            sendData_step seals installed isAead iv payload
          have still : Installed (sendData crypto iv payload self).2 keys :=
            ⟨by rw [control]; exact installed.present, by rw [control]; exact installed.noSeed,
              by rw [control]; exact installed.sender, by rw [control]; exact installed.receiver⟩
          obtain ⟨later, laterHistory, laterSpent⟩ :=
            inductionHypothesis still (by rw [control]; exact isAead)
          refine ⟨first ++ later, ?_, ?_⟩
          · rw [← List.append_assoc, ← firstHistory]
            exact laterHistory
          · rw [encryptions, List.filterMap_append]
            change encryptions first ++ encryptions later = _
            rw [firstSpent, laterSpent, control]
            rfl
      | installKeys =>
          have same : DataCall.run crypto self .installKeys = self := by
            rw [DataCall.run, installKeys_fails installed.noSeed]
          rw [runCalls, run_cons, same]
          exact inductionHypothesis installed isAead

private theorem mem_spentAll {keys : Keys} {pair : Bytes × Bytes} (payloads : List Bytes) :
    ∀ {counter : UInt32}, pair ∈ spentAll keys counter payloads ↔
      ∃ i payload, payloads[i]? = some payload ∧ payload.length ≤ gcmLimit ∧
        pair = (keys.encrypt.key,
          aeadNonce keys.encrypt.implicitIv (counter + UInt32.ofNat (i + 1))) := by
  induction payloads with
  | nil => simp [spentAll]
  | cons payload rest inductionHypothesis =>
      intro counter
      have shifted (i : Nat) : counter + 1 + UInt32.ofNat (i + 1) =
          counter + UInt32.ofNat (i + 1 + 1) := by
        rw [UInt32.add_assoc, Nat.add_comm (i + 1) 1, UInt32.ofNat_add 1 (i + 1)]
        rfl
      rw [spentAll, List.mem_append, inductionHypothesis]
      constructor
      · rintro (now | ⟨i, later, found, within, same⟩)
        · by_cases within : payload.length ≤ gcmLimit
          · rw [spent, if_pos within, List.mem_singleton] at now
            exact ⟨0, payload, rfl, within, now⟩
          · rw [spent, if_neg within] at now
            cases now
        · exact ⟨i + 1, later, found, within, by rw [same, shifted]⟩
      · rintro ⟨i, found, at_i, within, same⟩
        cases i with
        | zero =>
            cases at_i
            rw [spent, if_pos within]
            exact .inl (List.mem_singleton.mpr same)
        | succ i => exact .inr ⟨i, found, at_i, within, by rw [same, shifted]⟩

private theorem spaced_cons {payload : Bytes} {rest : List Bytes} :
    Spaced (payload :: rest) ↔
      (payload.length ≤ gcmLimit → ∀ i later, rest[i]? = some later → later.length ≤ gcmLimit →
        ¬ 2 ^ 32 ∣ i + 1) ∧ Spaced rest := by
  constructor
  · intro spaced
    refine ⟨fun within i later found laterWithin => ?_, fun i j first second => ?_⟩
    · exact spaced 0 (i + 1) payload later (Nat.succ_pos i) rfl found within laterWithin
    · have shifted := spaced (i + 1) (j + 1) first second
      rw [Nat.add_sub_add_right] at shifted
      exact fun order => shifted (Nat.succ_lt_succ order)
  · rintro ⟨head, tail⟩ i j first second order atFirst atSecond firstWithin secondWithin
    rcases Nat.exists_eq_succ_of_ne_zero (show j ≠ 0 by omega) with ⟨j, rfl⟩
    cases i with
    | zero =>
        cases atFirst
        exact head firstWithin j second atSecond secondWithin
    | succ i =>
        rw [Nat.succ_eq_add_one, Nat.add_sub_add_right]
        exact tail i j first second (by omega) atFirst atSecond firstWithin secondWithin

theorem spentAll_nodup_iff (keys : Keys) (payloads : List Bytes) :
    ∀ counter : UInt32, (spentAll keys counter payloads).Nodup ↔ Spaced payloads := by
  induction payloads with
  | nil => simp [spentAll, Spaced]
  | cons payload rest inductionHypothesis =>
      intro counter
      rw [spentAll, spaced_cons, ← inductionHypothesis (counter + 1)]
      by_cases within : payload.length ≤ gcmLimit
      · have reused : (keys.encrypt.key, aeadNonce keys.encrypt.implicitIv (counter + 1)) ∈
            spentAll keys (counter + 1) rest ↔
            ∃ i later, rest[i]? = some later ∧ later.length ≤ gcmLimit ∧ 2 ^ 32 ∣ i + 1 := by
          rw [mem_spentAll]
          refine exists_congr fun i => exists_congr fun later => and_congr_right fun _ =>
            and_congr_right fun _ => ?_
          rw [← counter_eq_iff (counter + 1) (i + 1)]
          constructor
          · exact fun same => (aeadNonce_injective (Prod.mk.inj same).2).symm
          · exact fun same => by rw [same]
        rw [spent, if_pos within, List.singleton_append, List.nodup_cons, reused]
        simp only [within, true_imp_iff, not_exists, not_and]
      · rw [spent, if_neg within, List.nil_append]
        simp only [within, false_imp_iff, true_and]

/-- After `install_keys` no pair of key and nonce is used twice, exactly as long
as no two sealed payloads are a whole number of rounds of the counter apart.
The logged pairs are the ones the payloads are sealed under (`sendData_sealed`). -/
theorem encryptions_nodup_iff (seals : GcmSeals crypto) {self : Session σ} {keys : Keys}
    (installed : Installed self keys) (isAead : self.control.cipher.isAead = true)
    (calls : List DataCall) :
    (encryptions ((runCalls crypto self calls).history.drop self.history.length)).Nodup ↔
      Spaced (payloads calls) := by
  rcases runCalls_encryptions seals calls installed isAead with ⟨new, history, spentNew⟩
  rw [history, List.drop_left, spentNew]
  exact spentAll_nodup_iff keys (payloads calls) self.control.sendCounter

end Session

namespace TestVector

open Session

/-- A control whose keys, in both directions, are those of a test. -/
def session (cipher : DataCipher) (arrivals : List Arrival) : Session Unit where
  control := { Control.start () (Vector.replicate 8 1) (Vector.replicate 8 2) 0 cipher.cipher
                cipher.auth with
               keys := some ⟨cipher, cipher⟩
               peerId := ⟨0x1a2b3c⟩
               sendCounter := 6 }
  arrivals := arrivals
  faults := []
  overdue := false
  history := []

theorem installed (cipher : DataCipher) (arrivals : List Arrival) :
    Installed (session cipher arrivals) ⟨cipher, cipher⟩ :=
  ⟨rfl, rfl, rfl, rfl⟩

theorem gcmSeals : GcmSeals crypto where
  within key' nonce header message _ short := by
    change ∃ sealedBytes, gcmSeal key' nonce header message = some sealedBytes ∧ _
    rw [gcmSeal, if_neg (Nat.not_lt.mpr short)]
    split
    case isTrue vector =>
      refine ⟨_, rfl, ?_⟩
      rw [vector.2.2.2]
      decide
    case isFalse => exact ⟨_, rfl, by simp⟩
  beyond key' nonce header message long := by
    change gcmSeal key' nonce header message = none
    rw [gcmSeal, if_pos long]

def iv : Vector UInt8 16 := Vector.ofFn fun i => UInt8.ofNat (200 + i)

/-- The packet of `gcm_roundtrip_with_packet_id_in_aad`. -/
theorem encryptions_nodup_gcm :
    encryptions (runCalls crypto (session gcmCipher []) [.sendData iv payload,
        .installKeys]).history = [(key, aeadNonce (mac.take 8) 7)] ∧
      ((encryptions ((runCalls crypto (session gcmCipher []) [.sendData iv payload,
        .installKeys]).history.drop 0)).Nodup ↔ Spaced [payload]) :=
  ⟨by decide, encryptions_nodup_iff gcmSeals (installed gcmCipher []) rfl _⟩

/-- With 2^32 + 1 packets the first nonce comes back. -/
theorem not_encryptions_nodup_round :
    ¬ (encryptions ((runCalls crypto (session gcmCipher [])
      (List.replicate (2 ^ 32 + 1) (.sendData iv payload))).history.drop 0)).Nodup := by
  obtain ⟨new, history, spentNew⟩ := runCalls_encryptions gcmSeals
    (List.replicate (2 ^ 32 + 1) (.sendData iv payload)) (installed gcmCipher []) rfl
  have sent : payloads (List.replicate (2 ^ 32 + 1) (.sendData iv payload)) =
      List.replicate (2 ^ 32 + 1) payload :=
    List.filterMap_replicate_of_some rfl
  rw [history, show (session gcmCipher []).history = [] from rfl, List.nil_append, List.drop_zero,
    spentNew, spentAll_nodup_iff, sent]
  intro spaced
  refine spaced 0 (2 ^ 32) payload payload (by omega) ?_ ?_ (by decide) (by decide) (by omega)
  · rw [List.getElem?_replicate, if_pos (by omega)]
  · rw [List.getElem?_replicate, if_pos (by omega)]

end TestVector

end Unroxy.OpenVpn
