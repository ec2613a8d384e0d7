import Mathlib.Data.List.DropRight
import Unroxy.Ssh.OsshRead

/-!
Owns what `normalize_packet` of `ssh/ossh.rs` makes of a packet.

`BinaryPacket` is the packet of SSH by its parts. The code's `plain_packet` is
one with the least padding, and whatever padding a packet comes with, its
payload goes on as such a packet.

Does not own how packets are found in the stream.
-/

namespace Unroxy.Ssh

open Unroxy.Lib

/-! ### Packets by their parts -/

/-- A packet of the binary packet protocol. -/
structure BinaryPacket where
  payload : Bytes
  padding : Bytes
  paddingFits : padding.length < 256
  fits : payload.length + 1 + padding.length < 2 ^ 32

namespace BinaryPacket

variable (self : BinaryPacket)

/-- The length, the length of the padding, and the two parts. -/
def bytes : Bytes :=
  u32ToBe (UInt32.ofNat (self.payload.length + 1 + self.padding.length)) ++
    [UInt8.ofNat self.padding.length] ++ self.payload ++ self.padding

@[simp] theorem bytes_length :
    self.bytes.length = 5 + self.payload.length + self.padding.length := by
  rw [bytes, List.length_append, List.length_append, List.length_append, u32ToBe_length]
  rfl

theorem lengthField_bytes :
    lengthField self.bytes = .ok (self.payload.length + 1 + self.padding.length) := by
  have small : (UInt32.ofNat (self.payload.length + 1 + self.padding.length)).toNat =
      self.payload.length + 1 + self.padding.length := by
    rw [UInt32.toNat_ofNat', Nat.mod_eq_of_lt self.fits]
  obtain ⟨length, read, field⟩ := OsshStream.lengthField_eq
    (show 4 ≤ self.bytes.length by rw [bytes_length]; omega)
  rw [bytes, List.append_assoc, List.append_assoc, List.take_left' (u32ToBe_length _),
    u32FromBe_toBe, Option.some.injEq] at read
  rw [field, ← read, small]

theorem index_bytes : index self.bytes 4 = .ok (UInt8.ofNat self.padding.length) := rfl

theorem drop_bytes : self.bytes.drop 5 = self.payload ++ self.padding := rfl

theorem paddingLength : (UInt8.ofNat self.padding.length).toNat = self.padding.length := by
  rw [UInt8.toNat_ofNat', Nat.mod_eq_of_lt self.paddingFits]

theorem slice_payload :
    slice self.bytes 5 (self.bytes.length - self.padding.length) = .ok self.payload := by
  have stop : self.bytes.length - self.padding.length - 5 = self.payload.length := by
    rw [bytes_length]
    omega
  rw [slice_of_le (by rw [bytes_length]; omega) (Nat.sub_le _ _), drop_bytes, stop,
    List.take_left' rfl]

theorem slice_padding :
    sliceFrom self.bytes (self.bytes.length - self.padding.length) = .ok self.padding := by
  have start : self.bytes.length - self.padding.length = 5 + self.payload.length := by
    rw [bytes_length]
    omega
  rw [sliceFrom_of_le (Nat.sub_le _ _), start, ← List.drop_drop, drop_bytes, List.drop_left' rfl]

end BinaryPacket

/-! ### The padding -/

/-- The loop stops at the next multiple of eight. -/
theorem growPadding_spec (payloadLen fuel : Nat) :
    ∀ newPadding, (8 - (payloadLen + 1 + newPadding + 4) % 8) % 8 ≤ fuel →
      growPadding payloadLen fuel newPadding =
        newPadding + (8 - (payloadLen + 1 + newPadding + 4) % 8) % 8 := by
  induction fuel with
  | zero =>
      intro newPadding enough
      rw [Nat.le_zero.mp enough]
      rfl
  | succ fuel inductionHypothesis =>
      intro newPadding enough
      rw [growPadding]
      split
      case isTrue even => omega
      case isFalse uneven =>
        rw [inductionHypothesis (newPadding + 1) (by omega)]
        omega

/-- The padding of a packet is between 4 and 11 bytes and fills the packet up. -/
theorem growPadding_bounds (payloadLen : Nat) :
    4 ≤ growPadding payloadLen 8 4 ∧ growPadding payloadLen 8 4 ≤ 11 ∧
      (5 + payloadLen + growPadding payloadLen 8 4) % 8 = 0 := by
  rw [growPadding_spec payloadLen 8 4 (by omega)]
  omega

/-- The packet of this payload that `normalize_packet` writes. -/
def plain (payload : Bytes) (small : payload.length ≤ maxPacket) : BinaryPacket where
  payload := payload
  padding := List.replicate (growPadding payload.length 8 4) 0
  paddingFits := by
    have bounds := growPadding_bounds payload.length
    rw [List.length_replicate]
    omega
  fits := by
    have bounds := growPadding_bounds payload.length
    have limit : maxPacket = 262144 := rfl
    rw [List.length_replicate]
    omega

theorem plain_bytes (payload : Bytes) (small : payload.length ≤ maxPacket) :
    (plain payload small).bytes = plainPacket payload := by
  simp only [BinaryPacket.bytes, plain, plainPacket, List.length_replicate]

/-! ### Normalizing -/

/-- The payload ends where the declared padding begins, and there is none if the
padding does not fit. -/
theorem normalizePacket_of_parts {packet : Bytes} {length : Nat} {padding : UInt8}
    (field : lengthField packet = .ok length) (declared : index packet 4 = .ok padding)
    (five : 5 ≤ packet.length) (size : packet.length = 4 + length) :
    normalizePacket packet = .ok (plainPacket ((packet.drop 5).rdrop padding.toNat)) := by
  have payload : slice packet 5 (min (5 + (length - (padding.toNat + 1))) packet.length) =
      .ok ((packet.drop 5).rdrop padding.toNat) := by
    rw [slice_of_le (by omega) (Nat.min_le_right _ _), List.rdrop, List.length_drop,
      Except.ok.injEq, List.take_eq_take_iff, List.length_drop]
    omega
  simp only [normalizePacket, field, declared, bind, Except.bind, payload]
  rfl

theorem normalizePacket_bytes (packet : BinaryPacket) :
    normalizePacket packet.bytes = .ok (plainPacket packet.payload) := by
  rw [normalizePacket_of_parts packet.lengthField_bytes packet.index_bytes
    (by rw [packet.bytes_length]; omega) (by rw [packet.bytes_length]; omega),
    packet.paddingLength, packet.drop_bytes, List.rdrop, List.length_append, Nat.add_sub_cancel,
    List.take_left' rfl]

/-- A packet of whole blocks of eight bytes, with this payload and 4 to 11 zeros
behind it. -/
structure IsPlain (payload out : Bytes) : Prop where
  aligned : out.length % 8 = 0
  atLeast : 16 ≤ out.length
  field : lengthField out = .ok (out.length - 4)
  parts : ∃ count : UInt8, index out 4 = .ok count ∧ 4 ≤ count.toNat ∧ count.toNat ≤ 11 ∧
    slice out 5 (out.length - count.toNat) = .ok payload ∧
    sliceFrom out (out.length - count.toNat) = .ok (List.replicate count.toNat 0)

theorem isPlain_plainPacket {payload : Bytes} (small : payload.length ≤ maxPacket) :
    IsPlain payload (plainPacket payload) := by
  have bounds := growPadding_bounds payload.length
  have count : (plain payload small).padding.length = growPadding payload.length 8 4 :=
    List.length_replicate
  have zeros : (plain payload small).padding =
      List.replicate (plain payload small).padding.length 0 := by
    rw [count]
    rfl
  have size : (plain payload small).bytes.length =
      5 + payload.length + growPadding payload.length 8 4 := by
    rw [(plain payload small).bytes_length, count]
    rfl
  rw [← plain_bytes payload small]
  refine ⟨by omega, by omega, ?_, _, (plain payload small).index_bytes, ?_⟩
  · have field := (plain payload small).lengthField_bytes
    rw [count] at field
    rw [field, size, Except.ok.injEq]
    show payload.length + 1 + _ = _
    omega
  · rw [(plain payload small).paddingLength, (plain payload small).slice_padding, ← zeros, count]
    refine ⟨bounds.1, bounds.2.1, ?_, rfl⟩
    rw [← count]
    exact (plain payload small).slice_payload

/-- Every packet becomes one with the same payload and the least padding, and
stays as it is from then on. -/
theorem normalizePacket_isPlain {packet : Bytes} {length : Nat} {padding : UInt8}
    (field : lengthField packet = .ok length) (bounds : 1 ≤ length ∧ length ≤ maxPacket)
    (size : packet.length = 4 + length) (declared : index packet 4 = .ok padding) :
    ∃ out, normalizePacket packet = .ok out ∧
      IsPlain ((packet.drop 5).rdrop padding.toNat) out ∧ normalizePacket out = .ok out := by
  have small : ((packet.drop 5).rdrop padding.toNat).length ≤ maxPacket := by
    rw [List.rdrop, List.length_take, List.length_drop]
    omega
  refine ⟨_, normalizePacket_of_parts field declared (by omega) size, isPlain_plainPacket small, ?_⟩
  have again := normalizePacket_bytes (plain _ small)
  rw [plain_bytes] at again
  exact again

/-- Three bytes of payload and two of padding. -/
theorem normalizePacket_isPlain_short :
    ∃ out, normalizePacket [0, 0, 0, 6, 2, 20, 21, 22, 9, 9] = .ok out ∧
      IsPlain [20, 21, 22] out ∧ normalizePacket out = .ok out :=
  @normalizePacket_isPlain [0, 0, 0, 6, 2, 20, 21, 22, 9, 9] 6 2 rfl (by decide) rfl rfl

end Unroxy.Ssh
