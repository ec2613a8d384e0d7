import Unroxy.Ssh.OsshWrite

/-!
Owns how the bytes that a client writes fall into units, for bytes of any kind.

A byte string either comes to a packet that is too short for `process_write`
(`TooShort`), or so many of its bytes make whole units and go out (`Sends`).
-/

namespace Unroxy.Ssh

open Unroxy.Lib

/-! ### Units of any bytes -/

/-- In the key exchange the client's bytes come to a packet whose length field
is 1. -/
inductive TooShort : WriteState → Bytes → Prop where
  | line {input : Bytes} {position : Nat} (found : findCrlf input = some position)
      (later : TooShort .kex (input.drop (position + 2))) : TooShort .ident input
  | packet (packet : SshPacket) (ordinary : packet.kind ≠ msgNewkeys) {rest : Bytes}
      (later : TooShort .kex rest) : TooShort .kex (packet.bytes ++ rest)
  | here (padding : UInt8) (rest : Bytes) : TooShort .kex ([0, 0, 0, 1, padding] ++ rest)

/-- Of the client's bytes this many make whole units. Behind NEWKEYS all of them
do. -/
inductive Sends : WriteState → Bytes → Nat → Prop where
  | noLine {input : Bytes} (missing : findCrlf input = none) : Sends .ident input 0
  | line {input : Bytes} {position count : Nat} (found : findCrlf input = some position)
      (later : Sends .kex (input.drop (position + 2)) count) :
      Sends .ident input (position + 2 + count)
  | noPacket {input : Bytes} (missing : packetAhead input = none) : Sends .kex input 0
  | packet (packet : SshPacket) (ordinary : packet.kind ≠ msgNewkeys) {rest : Bytes} {count : Nat}
      (later : Sends .kex rest count) :
      Sends .kex (packet.bytes ++ rest) (packet.bytes.length + count)
  | newkeys (packet : SshPacket) (last : packet.kind = msgNewkeys) (rest : Bytes) :
      Sends .kex (packet.bytes ++ rest) (packet.bytes.length + rest.length)
  | done (input : Bytes) : Sends .done input input.length

/-- A packet at the front is too short, or one that the code can read. -/
theorem packetAhead_cases {input : Bytes} {total : Nat}
    (found : packetAhead input = some total) :
    (∃ padding, total = 5 ∧ input.take total = [0, 0, 0, 1, padding]) ∨
      ∃ packet : SshPacket, input.take total = packet.bytes := by
  have bounds := packetAhead_le found
  rw [packetAhead, if_neg (by omega)] at found
  cases read : u32FromBe (input.take 4) with
  | none =>
      rw [read] at found
      cases found
  | some length =>
      rw [read] at found
      dsimp only at found
      split at found
      case isFalse => cases found
      case isTrue fits =>
        cases found
        have front := u32FromBe_eq_some.mp read
        have split : input.take (length.toNat + 4) =
            u32ToBe length ++ (input.drop 4).take length.toNat := by
          rw [Nat.add_comm, List.take_add, front]
        have size : ((input.drop 4).take length.toNat).length = length.toNat := by
          rw [List.length_take, List.length_drop]
          omega
        rcases Nat.lt_or_ge length.toNat 2 with one | long
        · have value : length = 1 := UInt32.toNat_inj.mp (by rw [UInt32.toNat_one]; omega)
          subst value
          rcases List.length_eq_one_iff.mp size with ⟨padding, rest⟩
          refine .inl ⟨padding, rfl, ?_⟩
          rw [split, rest]
          rfl
        · refine .inr ⟨⟨(input.drop 4).take length.toNat, ?_, ?_⟩, ?_⟩
          · rw [size]
            exact long
          · rw [size]
            exact fits.2.1
          · rw [split, SshPacket.bytes]
            dsimp only
            rw [size, UInt32.ofNat_toNat]

/-- The machine on a packet that it can read. -/
private theorem drain_readable (packet : SshPacket) (c2s : Rc4) (rest : Bytes) :
    writer.drain (some (.kex, c2s)) (packet.bytes ++ rest) =
      let state : Writer :=
        some (if packet.kind = msgNewkeys then .done else .kex, (c2s.apply packet.bytes).2)
      ((c2s.apply packet.bytes).1 ++ (writer.drain state rest).1,
        (writer.drain state rest).2) := by
  have ahead : writer.ahead (some (.kex, c2s)) packet.bytes = some packet.bytes.length :=
    packet.packetAhead_bytes
  rw [Transducer.drain_ahead ahead, List.take_length, List.drop_length, packet.act_bytes]
  rfl

/-- The machine on an identification line. -/
theorem drain_found {input : Bytes} {position : Nat}
    (found : findCrlf input = some position) (c2s : Rc4) :
    writer.drain (some (.ident, c2s)) input =
      let state : Writer := some (.kex, (c2s.apply (input.take (position + 2))).2)
      ((c2s.apply (input.take (position + 2))).1 ++
          (writer.drain state (input.drop (position + 2))).1,
        (writer.drain state (input.drop (position + 2))).2) := by
  have ahead : writer.ahead (some (.ident, c2s)) input = some (position + 2) := by
    change (findCrlf input).map (· + 2) = _
    rw [found]
    rfl
  exact Transducer.drain_some (Transducer.next_of_ahead ahead)

/-- A packet that is too short makes the machine panic. -/
theorem TooShort.drain {state : WriteState} {input : Bytes} (short : TooShort state input)
    (c2s : Rc4) : (writer.drain (some (state, c2s)) input).2.1 = none := by
  induction short generalizing c2s with
  | line found _ inductionHypothesis =>
      rw [drain_found found]
      exact inductionHypothesis _
  | packet packet ordinary _ inductionHypothesis =>
      rw [drain_readable, if_neg ordinary]
      exact inductionHypothesis _
  | here padding rest =>
      have ahead : writer.ahead (some (.kex, c2s)) [0, 0, 0, 1, padding] = some 5 := rfl
      have stuck : writer.next none ([] ++ rest) = none := rfl
      rw [Transducer.drain_ahead ahead]
      change (writer.drain none ([] ++ rest)).2.1 = none
      rw [Transducer.drain_none stuck]

/-- The machine puts out the units that are there, and keeps the rest. -/
theorem Sends.drain {state : WriteState} {input : Bytes} {count : Nat}
    (sends : Sends state input count) (c2s : Rc4) :
    ∃ output last, writer.drain (some (state, c2s)) input =
      (output, some last, input.drop count) ∧ output.length = count := by
  induction sends generalizing c2s with
  | @noLine input missing =>
      have stuck : writer.ahead (some (.ident, c2s)) input = none := by
        change (findCrlf input).map (· + 2) = none
        rw [missing]
        rfl
      exact ⟨[], _, Transducer.drain_none (writer.next_eq_none.mpr stuck), rfl⟩
  | @line input position count found _ inductionHypothesis =>
      have bounds := findCrlf_le found
      rcases inductionHypothesis (c2s.apply (input.take (position + 2))).2 with
        ⟨output, last, drained, size⟩
      refine ⟨(c2s.apply (input.take (position + 2))).1 ++ output, last, ?_, ?_⟩
      · rw [drain_found found]
        dsimp only
        rw [drained, List.drop_drop]
      · rw [List.length_append, Rc4.apply_length, List.length_take, size]
        omega
  | @noPacket input missing =>
      have stuck : writer.ahead (some (.kex, c2s)) input = none := missing
      exact ⟨[], _, Transducer.drain_none (writer.next_eq_none.mpr stuck), rfl⟩
  | @packet packet ordinary rest count _ inductionHypothesis =>
      rcases inductionHypothesis (c2s.apply packet.bytes).2 with ⟨output, last, drained, size⟩
      refine ⟨(c2s.apply packet.bytes).1 ++ output, last, ?_, ?_⟩
      · rw [drain_readable, if_neg ordinary]
        dsimp only
        rw [drained, List.drop_append, List.drop_of_length_le (Nat.le_add_right _ _),
          Nat.add_sub_cancel_left]
        rfl
      · rw [List.length_append, Rc4.apply_length, size]
  | newkeys packet last rest =>
      refine ⟨(c2s.apply packet.bytes).1 ++ rest, (.done, (c2s.apply packet.bytes).2), ?_, ?_⟩
      · rw [drain_readable, if_pos last]
        dsimp only
        rw [writer_drain_done, List.drop_of_length_le (Nat.le_of_eq List.length_append)]
      · rw [List.length_append, Rc4.apply_length]
  | done input =>
      refine ⟨input, (.done, c2s), ?_, rfl⟩
      rw [writer_drain_done, List.drop_length]

/-- A cipher to try the machine with. -/
private def anyCipher : Rc4 := ⟨Vector.replicate 256 0, 0, 0⟩

theorem Sends.unique {state : WriteState} {input : Bytes} {count other : Nat}
    (sends : Sends state input count) (also : Sends state input other) : count = other := by
  rcases sends.drain anyCipher with ⟨output, last, drained, size⟩
  rcases also.drain anyCipher with ⟨output', last', drained', size'⟩
  rw [drained, Prod.mk.injEq] at drained'
  rw [← size, ← size', drained'.1]

theorem TooShort.not_sends {state : WriteState} {input : Bytes} {count : Nat}
    (short : TooShort state input) : ¬ Sends state input count := by
  intro sends
  rcases sends.drain anyCipher with ⟨output, last, drained, _⟩
  have panicked := short.drain anyCipher
  rw [drained] at panicked
  cases panicked

/-- There is nothing else for bytes to do. -/
theorem tooShort_or_sends (state : WriteState) (input : Bytes) :
    TooShort state input ∨ ∃ count, Sends state input count := by
  induction size : input.length using Nat.strongRecOn generalizing state input with
  | _ length inductionHypothesis =>
      cases state with
      | done => exact .inr ⟨_, .done input⟩
      | ident =>
          cases found : findCrlf input with
          | none => exact .inr ⟨0, .noLine found⟩
          | some position =>
              have bounds := findCrlf_le found
              have less : (input.drop (position + 2)).length < length := by
                rw [List.length_drop]
                omega
              rcases inductionHypothesis _ less .kex _ rfl with short | ⟨count, later⟩
              · exact .inl (.line found short)
              · exact .inr ⟨_, .line found later⟩
      | kex =>
          cases ahead : packetAhead input with
          | none => exact .inr ⟨0, .noPacket ahead⟩
          | some total =>
              have bounds := packetAhead_le ahead
              have whole := List.take_append_drop total input
              rcases packetAhead_cases ahead with ⟨padding, _, short⟩ | ⟨packet, readable⟩
              · rw [← whole, short]
                exact .inl (.here padding _)
              · have less : (input.drop total).length < length := by
                  rw [List.length_drop]
                  omega
                rw [← whole, readable]
                by_cases last : packet.kind = msgNewkeys
                · exact .inr ⟨_, .newkeys packet last _⟩
                · rcases inductionHypothesis _ less .kex _ rfl with short | ⟨count, later⟩
                  · exact .inl (.packet packet last short)
                  · exact .inr ⟨_, .packet packet last later⟩

/-- The machine panics on these bytes if and only if they come to a packet that
is too short. -/
theorem writer_drain_iff (state : WriteState) (c2s : Rc4) (input : Bytes) :
    (writer.drain (some (state, c2s)) input).2.1 = none ↔ TooShort state input := by
  constructor
  · intro panicked
    rcases tooShort_or_sends state input with short | ⟨count, sends⟩
    · exact short
    · rcases sends.drain c2s with ⟨output, last, drained, _⟩
      rw [drained] at panicked
      cases panicked
  · exact fun short => short.drain c2s

namespace OsshStream

theorem processWrite_ok_iff (self : OsshStream) :
    (∃ after, self.processWrite = .ok after) ↔ ¬ TooShort self.wstate self.wbuf := by
  rw [processWrite_eq, ← writer_drain_iff self.wstate self.c2s self.wbuf]
  rcases writer.drain (some (self.wstate, self.c2s)) self.wbuf with
    ⟨output, - | ⟨wstate, c2s⟩, left⟩
  · constructor
    · rintro ⟨after, panicked⟩
      cases panicked
    · exact fun alive => absurd rfl alive
  · constructor
    · intro _ panicked
      cases panicked
    · exact fun _ => ⟨_, rfl⟩

/-- `poll_write` panics if and only if it comes to a packet that is too short. -/
theorem pollWrite_ok_iff (self : OsshStream) (buf : Bytes) :
    (∃ result, self.pollWrite buf = .ok result) ↔
      self.flushOut.1 = .pending ∨ ¬ TooShort self.wstate (self.wbuf ++ buf) := by
  rcases flush : self.flushOut with ⟨- | result, between⟩
  · rw [pollWrite_pending flush]
    exact ⟨fun _ => .inl rfl, fun _ => ⟨_, rfl⟩⟩
  · have flushed := flushOut_flushed flush
    have taken := processWrite_ok_iff { between with wbuf := between.wbuf ++ buf }
    have fields : between.wstate = self.wstate ∧ between.wbuf = self.wbuf := by
      rw [flushed.same]
      exact ⟨rfl, rfl⟩
    change _ ↔ ¬ TooShort between.wstate (between.wbuf ++ buf) at taken
    rw [pollWrite_ready flush, ← fields.1, ← fields.2]
    cases processed : processWrite { between with wbuf := between.wbuf ++ buf } with
    | error failure =>
        rw [processed] at taken
        constructor
        · rintro ⟨answer, panicked⟩
          cases panicked
        · rintro (waits | alive)
          · cases waits
          · rcases taken.mpr alive with ⟨after, ran⟩
            cases ran
    | ok written =>
        rw [processed] at taken
        exact ⟨fun _ => .inr (taken.mp ⟨written, rfl⟩), fun _ => ⟨_, rfl⟩⟩

end OsshStream

end Unroxy.Ssh
