import Unroxy.Ssh.OsshDecode
import Unroxy.Ssh.OsshServer

/-!
Owns what comes of a server's stream behind a packet length that is not
acceptable.

`process_read` drops the five bytes it has decrypted and stays in the key
exchange, so at its next turn it takes the five bytes behind them for the
beginning of a packet. Bytes of the stream get through to the reader again as
soon as such five bytes happen to hold a length that is acceptable and the
packet is complete (`Resumes`).
-/

namespace Unroxy.Ssh

open Unroxy.Lib

/-- In these decrypted bytes, taken for beginnings of packets five by five, there
is one with an acceptable length, and the packet is complete. -/
inductive Resumes : Bytes → Prop where
  | packet {plain : Bytes} {length : Nat} (valid : headerLength plain = some length)
      (whole : length + 4 ≤ plain.length) : Resumes plain
  | skip {plain : Bytes} (five : 5 ≤ plain.length) (corrupt : headerLength plain = none)
      (later : Resumes (plain.drop 5)) : Resumes plain

/-! ### The beginning of a packet -/

theorem headerLength_take (plain : Bytes) : headerLength (plain.take 5) = headerLength plain := by
  rw [headerLength, headerLength, List.take_take]
  rfl

/-- The first bytes are decrypted first. -/
private theorem apply_take_drop (s2c : Rc4) (input : Bytes) (count : Nat) :
    (s2c.apply input).1.take count = (s2c.apply (input.take count)).1 ∧
      (s2c.apply input).1.drop count =
        ((s2c.apply (input.take count)).2.apply (input.drop count)).1 := by
  have pieces := s2c.apply_append (input.take count) (input.drop count)
  rw [List.take_append_drop] at pieces
  have whole : (s2c.apply input).1 = (s2c.apply (input.take count)).1 ++
      ((s2c.apply (input.take count)).2.apply (input.drop count)).1 := by rw [pieces]
  rcases Nat.le_total count input.length with enough | short
  · have size : (s2c.apply (input.take count)).1.length = count := by
      rw [Rc4.apply_length, List.length_take, Nat.min_eq_left enough]
    rw [whole]
    exact ⟨List.take_left' size, List.drop_left' size⟩
  · have size : (s2c.apply input).1.length ≤ count := by rwa [Rc4.apply_length]
    rw [List.take_of_length_le size, List.drop_of_length_le size, List.take_of_length_le short,
      List.drop_of_length_le short]
    exact ⟨rfl, rfl⟩

theorem normalized_ne_nil (packet : Bytes) : normalized packet ≠ [] := by
  rw [normalized, plainPacket, ← List.length_pos_iff]
  simp only [List.length_append, u32ToBe_length]
  omega

/-- A packet whose length is acceptable gets through when it is complete, and
holds up everything when it is not. -/
private theorem decoder_drain_valid {s2c : Rc4} {input : Bytes} {length : Nat}
    (valid : headerLength (s2c.apply (input.take 5)).1 = some length) (five : 5 ≤ input.length) :
    (decoder.drain (.kex, s2c) input).1 ≠ [] ↔ length + 4 ≤ input.length := by
  have bounds := headerLength_bounds valid
  have ahead : decoder.ahead (.kex, s2c) input = some 5 := if_pos five
  have acts : decoder.act (.kex, s2c) (input.take 5) =
      if length = 1 then
        readPacket (s2c.apply (input.take 5)).1 (s2c.apply (input.take 5)).2
      else
        ([], .packet (s2c.apply (input.take 5)).1 (length - 1), (s2c.apply (input.take 5)).2) := by
    change (if (headerLength (s2c.apply (input.take 5)).1).isSome then
      readUnit (.kex, s2c) (input.take 5) else _) = _
    rw [if_pos (by rw [valid]; rfl), readUnit, valid]
  have turn := Transducer.next_of_ahead ahead
  rw [acts] at turn
  rw [Transducer.drain_some turn]
  by_cases one : length = 1
  · -- The packet is its beginning.
    rw [if_pos one]
    have out := normalized_ne_nil (s2c.apply (input.take 5)).1
    constructor
    · intro _
      omega
    · intro _ nothing
      exact out (List.append_eq_nil_iff.mp nothing).1
  · rw [if_neg one, List.nil_append]
    let header := (s2c.apply (input.take 5)).1
    let behind := (s2c.apply (input.take 5)).2
    change (decoder.drain (.packet header (length - 1), behind) (input.drop 5)).1 ≠ [] ↔ _
    have measured : (input.drop 5).length = input.length - 5 := List.length_drop
    by_cases whole : length - 1 ≤ (input.drop 5).length
    · have ahead' : decoder.ahead (.packet header (length - 1), behind) (input.drop 5) =
          some (length - 1) := if_pos ⟨by omega, whole⟩
      have turn' := Transducer.next_of_ahead ahead'
      rw [Transducer.drain_some turn']
      have out := normalized_ne_nil
        (header ++ (behind.apply ((input.drop 5).take (length - 1))).1)
      constructor
      · intro _
        omega
      · intro _ nothing
        exact out (List.append_eq_nil_iff.mp nothing).1
    · have stuck : decoder.ahead (.packet header (length - 1), behind) (input.drop 5) = none :=
        if_neg fun fits => whole fits.2
      rw [Transducer.drain_none (decoder.next_eq_none.mpr stuck)]
      constructor
      · exact fun some => absurd rfl some
      · intro _
        omega

/-- Something comes of these bytes if and only if delivery resumes in them. -/
theorem decoder_drain_iff (s2c : Rc4) (input : Bytes) :
    (decoder.drain (.kex, s2c) input).1 ≠ [] ↔ Resumes (s2c.apply input).1 := by
  induction size : input.length using Nat.strongRecOn generalizing s2c input with
  | _ count inductionHypothesis =>
      have measured := s2c.apply_length input
      rcases apply_take_drop s2c input 5 with ⟨front, behind⟩
      have header : headerLength (s2c.apply (input.take 5)).1 =
          headerLength (s2c.apply input).1 := by rw [← front, headerLength_take]
      rcases Nat.lt_or_ge input.length 5 with short | five
      · have stuck : decoder.ahead (.kex, s2c) input = none := if_neg (by omega)
        rw [Transducer.drain_none (decoder.next_eq_none.mpr stuck)]
        constructor
        · exact fun some => absurd rfl some
        · intro resumes
          cases resumes with
          | packet valid whole =>
              have bounds := headerLength_bounds valid
              omega
          | skip five => omega
      · cases read : headerLength (s2c.apply (input.take 5)).1 with
        | none =>
            have later := inductionHypothesis (input.drop 5).length
              (by rw [List.length_drop]; omega) (s2c.apply (input.take 5)).2 (input.drop 5) rfl
            rw [decoder_drain_corrupt five read, later, ← behind]
            rw [header] at read
            constructor
            · exact .skip (by omega) read
            · intro resumes
              cases resumes with
              | packet valid =>
                  rw [valid] at read
                  cases read
              | skip _ _ later => exact later
        | some length =>
            rw [decoder_drain_valid read five]
            rw [header] at read
            constructor
            · exact fun whole => .packet read (by omega)
            · intro resumes
              cases resumes with
              | packet valid whole =>
                  cases read.symm.trans valid
                  omega
              | skip _ corrupt =>
                  rw [corrupt] at read
                  cases read

/-! ### Behind a corrupt length -/

/-- What comes of a stream in which the five bytes behind `front` do not hold an
acceptable length. -/
private theorem outstanding_corrupt {self : OsshStream} {front five rest output : Bytes}
    {s2c : Rc4} (fresh : self.rin = []) (empty : self.rbuf = [])
    (stream : arriving self.inner.reads = front ++ (five ++ rest))
    (read : reader.drain (self.mode, self.s2c) front = (output, (.kex, s2c), []))
    (size : five.length = 5) (corrupt : headerLength (s2c.apply five).1 = none) :
    self.outstanding = output ++ (decoder.drain (.kex, (s2c.apply five).2) rest).1 := by
  have before : decoder.drain (self.mode, self.s2c) front = (output, (.kex, s2c), []) := by
    rw [reader_extends_decoder.drain, read]
    dsimp only
    rw [Transducer.drain_none (Transducer.next_nil decoder _), List.append_nil]
  have beginning : (five ++ rest).take 5 = five := List.take_left' size
  have dropped : decoder.drain (.kex, s2c) (five ++ rest) =
      decoder.drain (.kex, (s2c.apply five).2) rest := by
    rw [decoder_drain_corrupt, beginning, List.drop_left' size]
    · rw [List.length_append]
      omega
    · rwa [beginning]
  rw [OsshStream.outstanding, OsshStream.toCome, fresh, empty, stream, List.nil_append,
    List.nil_append, Transducer.drain_append, before]
  dsimp only
  rw [List.nil_append, dropped]

/-- The bytes behind a corrupt length stay away from the reader, however the
stream arrives and whatever the sizes of the reader's buffers, if and only if
delivery does not resume in them. -/
theorem corrupt_length_stops_iff (sha1 : Sha1) (keyword : String)
    (seed : Vector UInt8 seedLength) (padding : Bytes) (writes : List WriteAnswer)
    {reads : List ReadAnswer} {front five rest output : Bytes} {s2c : Rc4}
    (stream : arriving reads = front ++ (five ++ rest))
    (read : reader.drain (.ident [], Rc4.new (deriveKey sha1 seed keyword.toUTF8.toList
      "server_to_client".toUTF8.toList).toList) front = (output, (.kex, s2c), []))
    (size : five.length = 5) (corrupt : headerLength (s2c.apply five).1 = none) :
    (∀ sizes returned after,
      (OsshStream.new sha1 ⟨[], writes, reads⟩ keyword seed padding).readAll sizes =
        .ok (returned, after) → returned <+: output) ↔
      ¬ Resumes ((s2c.apply five).2.apply rest).1 := by
  let origin := OsshStream.new sha1 ⟨[], writes, reads⟩ keyword seed padding
  have begun : origin.Begun := by
    intro header remaining held
    cases held
  have whole := @outstanding_corrupt origin _ _ _ _ _ rfl rfl stream read size corrupt
  rw [OsshStream.readAll_within_iff begun, whole, ← decoder_drain_iff, not_not]
  constructor
  · intro within
    have longer := within.length_le
    rw [List.length_append] at longer
    exact List.length_eq_zero_iff.mp (by omega)
  · intro nothing
    simp [nothing]

/-! ### Two streams -/

/-- `SSH-` and a CRLF. -/
def bareLine : ServerLine := ⟨[83, 83, 72, 45, 13, 10], by decide, by decide⟩

/-- The length of no packet. -/
def zeroLength : Bytes := [0, 0, 0, 0, 0]

/-- The line, a length of zero and these bytes, in one piece. -/
def corruptReads (s2c : Rc4) (rest : { bytes : Bytes // bytes.length ≤ 100 }) :
    List ReadAnswer :=
  have size : (s2c.apply (bareLine.bytes ++ (zeroLength ++ rest.val))).1.length ≤ readSize := by
    have short := rest.property
    rw [Rc4.apply_length, List.length_append, List.length_append]
    simp only [bareLine, zeroLength, readSize, List.length_cons, List.length_nil]
    omega
  [.delivers ⟨(s2c.apply (bareLine.bytes ++ (zeroLength ++ rest.val))).1, size⟩]

private theorem arriving_corruptReads (s2c : Rc4) (rest : { bytes : Bytes // bytes.length ≤ 100 }) :
    arriving (corruptReads s2c rest) = (s2c.apply bareLine.bytes).1 ++
      (((s2c.apply bareLine.bytes).2.apply zeroLength).1 ++
        (((s2c.apply bareLine.bytes).2.apply zeroLength).2.apply rest.val).1) := by
  change (s2c.apply (bareLine.bytes ++ (zeroLength ++ rest.val))).1 ++ [] = _
  rw [List.append_nil, Rc4.apply_append, Rc4.apply_append]

private theorem drain_bareLine (s2c : Rc4) :
    reader.drain (.ident [], s2c) (s2c.apply bareLine.bytes).1 =
      (bareLine.bytes, (.kex, (s2c.apply bareLine.bytes).2), []) := by
  have drained := drain_serverLine bareLine s2c []
  rw [if_pos (by decide), List.append_nil] at drained
  dsimp only at drained
  rw [drained, Transducer.drain_none (Transducer.next_nil reader _), List.append_nil]

private theorem headerLength_zeroLength (s2c : Rc4) :
    headerLength (s2c.apply (s2c.apply zeroLength).1).1 = none := by
  rw [Rc4.apply_apply]
  have read : headerLength zeroLength = none := by decide
  exact read

/-- The server's cipher for the seed and the keyword of the examples. -/
def sampleCipher : Rc4 :=
  Rc4.new (deriveKey Sha1.digest (Vector.replicate 16 5) "key".toUTF8.toList
    "server_to_client".toUTF8.toList).toList

/-- Another length that is not acceptable. -/
theorem corrupt_length_stops_twice :
    ¬ Resumes [255, 255, 255, 255, 0] ∧ ∀ sizes returned after,
      (OsshStream.new Sha1.digest
        ⟨[], [], corruptReads sampleCipher ⟨[255, 255, 255, 255, 0], by decide⟩⟩ "key"
        (Vector.replicate 16 5) []).readAll sizes = .ok (returned, after) →
      returned <+: bareLine.bytes := by
  have ends : ¬ Resumes [255, 255, 255, 255, 0] := by
    intro resumes
    cases resumes with
    | packet valid =>
        have read : headerLength [255, 255, 255, 255, 0] = none := by decide
        rw [read] at valid
        cases valid
    | skip _ _ later =>
        cases later with
        | packet valid => cases valid
        | skip five => exact absurd five (by decide)
  refine ⟨ends, ?_⟩
  apply (corrupt_length_stops_iff Sha1.digest "key" (Vector.replicate 16 5) [] []
    (arriving_corruptReads _ _) (drain_bareLine _) (Rc4.apply_length _ _)
    (headerLength_zeroLength _)).mpr
  rw [Rc4.apply_apply, Rc4.apply_apply]
  exact ends

/-- A packet of the key exchange. -/
def shortPacket : SshPacket := ⟨[0, 20], by decide, by decide⟩

/-- A packet behind a length of zero gets through. -/
theorem corrupt_length_resumes :
    ∃ sizes after,
      (OsshStream.new Sha1.digest
        ⟨[], [], corruptReads sampleCipher ⟨[0, 0, 0, 2, 0, 20], by decide⟩⟩ "key"
        (Vector.replicate 16 5) []).readAll sizes =
        .ok ([83, 83, 72, 45, 13, 10] ++ [0, 0, 0, 12, 10, 20, 0, 0, 0, 0, 0, 0, 0, 0, 0, 0],
          after) ∧
      ¬ [83, 83, 72, 45, 13, 10] ++ [0, 0, 0, 12, 10, 20, 0, 0, 0, 0, 0, 0, 0, 0, 0, 0] <+:
        bareLine.bytes := by
  let origin := OsshStream.new Sha1.digest
    ⟨[], [], corruptReads sampleCipher ⟨shortPacket.bytes, by decide⟩⟩ "key"
    (Vector.replicate 16 5) []
  have begun : origin.Begun := by
    intro header remaining held
    cases held
  have cipher : origin.s2c = sampleCipher := rfl
  have drained (s2c : Rc4) : (decoder.drain (.kex, s2c) (s2c.apply shortPacket.bytes).1).1 =
      normalized shortPacket.bytes := by
    have read := drain_packet shortPacket s2c []
    rw [if_neg (by decide), List.append_nil] at read
    dsimp only at read
    rw [Transducer.drain_none (Transducer.next_nil reader _), List.append_nil] at read
    rw [reader_extends_decoder.drain, read]
    dsimp only
    rw [Transducer.drain_none (Transducer.next_nil decoder _), List.append_nil]
  have whole := @outstanding_corrupt origin _ _ _ _ _ rfl rfl (arriving_corruptReads _ _)
    (drain_bareLine _) (Rc4.apply_length _ _) (headerLength_zeroLength _)
  rw [cipher, Rc4.apply_apply, drained] at whole
  rcases OsshStream.readAll_whole begun with ⟨sizes, after, read⟩
  rw [whole] at read
  exact ⟨sizes, after, read, by decide⟩

end Unroxy.Ssh
