import Unroxy.OpenVpn.ControlAck
import Unroxy.OpenVpn.ControlTransfer

/-!
Owns what `send_control`, `retransmit_control`, `send_ack` and `reset_packet` build:
that `Packet::parse` reads it back, and which packets its ack blocks list along a
run of calls.

A datagram is built whether the socket takes it or fails. A run is any sequence of
packet ids that are acknowledged and payloads that are sent.

Does not own which calls a session makes.
-/

namespace Unroxy.OpenVpn

open Unroxy.Lib

namespace Session

variable {σ : Type}

/-! ### The datagrams of a call -/

/-- The datagrams a call handed to the socket. -/
def built (before after : Session σ) : List Bytes :=
  (after.history.drop before.history.length).filterMap fun event => match event with
    | .sent datagram | .lost datagram => some datagram
    | _ => none

/-- The datagram of an acknowledgement. -/
def ackDatagram (control : Control σ) : Bytes :=
  (pAckV1 <<< 3) :: (control.sessionId.toList ++ encodeAcks control.acked control.remoteSessionId)

/-- The datagram of a resent payload, which lists no acks. -/
def resendDatagram (control : Control σ) : Bytes :=
  (pControlV1 <<< 3) :: (control.sessionId.toList ++ [0]) ++ u32ToBe control.nextPacketId ++
    control.lastPayload

theorem built_sendRaw {before self : Session σ} (datagram : Bytes) (resent : List Bytes)
    (quiet : self.history = before.history ++ resent.map .resend) :
    built before (sendRaw datagram self).2 = [datagram] ∧
      (sendRaw datagram self).2.control = self.control := by
  rcases run_sendRaw datagram self with ⟨after, run, same, events⟩ | ⟨after, run, same, events⟩
  · rw [run]
    exact ⟨by simp [built, events, quiet], same⟩
  · rw [run]
    exact ⟨by simp [built, events, quiet], same⟩

theorem built_sendControl (payload : Bytes) (self : Session σ) :
    built self (sendControl payload self).2 =
        [controlDatagram self.control self.control.nextPacketId payload] ∧
      (sendControl payload self).2.control =
        { self.control with
          nextPacketId := self.control.nextPacketId + 1, lastPayload := payload } := by
  simp only [sendControl, update, Task.run_bind, Task.run_gets, Task.run_modify]
  exact built_sendRaw _ [] (List.append_nil _).symm

theorem built_sendAck (packetId : UInt32) (self : Session σ) :
    built self (sendAck packetId self).2 = [ackDatagram (recordAck packetId self.control)] ∧
      (sendAck packetId self).2.control = recordAck packetId self.control := by
  simp only [sendAck, update, Task.run_bind, Task.run_gets, Task.run_modify]
  exact built_sendRaw _ [] (List.append_nil _).symm

theorem built_retransmitControl (self : Session σ) :
    built self (retransmitControl self).2 =
      if self.control.lastPayload = [] then [] else [resendDatagram self.control] := by
  by_cases empty : self.control.lastPayload = []
  · simp [retransmitControl, log, built, empty, Task.run_bind, Task.run_gets, Task.run_modify]
  · have sends : retransmitControl self = sendRaw (resendDatagram self.control)
        { self with
          control := { self.control with nextPacketId := self.control.nextPacketId + 1 }
          history := self.history ++ [self.control.lastPayload].map .resend } := by
      simp only [retransmitControl, log, update, Task.run_bind, Task.run_gets, Task.run_modify,
        List.isEmpty_iff, if_neg empty]
      rfl
    rw [if_neg empty, sends]
    exact (built_sendRaw _ [self.control.lastPayload] rfl).1

/-! ### Reading them back -/

theorem parse_ackDatagram (control : Control σ) :
    Packet.parse (ackDatagram control) =
      .ok (some { opcode := pAckV1, sessionId := control.sessionId.toList, packetId := 0,
                  header := [], payload := [] }) := by
  rcases encodeAcks_shape control.acked control.remoteSessionId with ⟨count, acks, encoded, block⟩
  rw [ackDatagram, encoded, ← List.append_nil acks, Packet.parse_ack (by decide) block]
  rfl

theorem parse_resendDatagram (control : Control σ) :
    Packet.parse (resendDatagram control) =
      .ok (some { opcode := pControlV1, sessionId := control.sessionId.toList,
                  packetId := control.nextPacketId, header := [],
                  payload := control.lastPayload }) := by
  have shape : resendDatagram control = (pControlV1 <<< 3) :: (control.sessionId.toList ++
      0 :: ([] ++ (u32ToBe control.nextPacketId ++ control.lastPayload))) := by
    simp [resendDatagram]
  rw [shape, Packet.parse_control (by decide) (by decide) (by decide)]
  rfl

theorem parse_resetPacket (sessionId : SessionId) :
    Packet.parse (resetPacket sessionId) =
      .ok (some { opcode := pControlHardResetClientV2, sessionId := sessionId.toList,
                  packetId := 0, header := [], payload := [] }) := by
  have shape : resetPacket sessionId = (pControlHardResetClientV2 <<< 3) ::
      (sessionId.toList ++ 0 :: ([] ++ (u32ToBe 0 ++ []))) := by
    simp [resetPacket]
  rw [shape, Packet.parse_control (by decide) (by decide) (by decide)]
  rfl

/-- Whatever the session has recorded, each packet that it builds is read back. -/
theorem parse_built (self : Session σ) (payload : Bytes) (packetId : UInt32) :
    (built self (sendControl payload self).2).map Packet.parse =
        [.ok (some { opcode := pControlV1, sessionId := self.control.sessionId.toList,
                     packetId := self.control.nextPacketId, header := [], payload })] ∧
      (built self (retransmitControl self).2).map Packet.parse =
        (if self.control.lastPayload = [] then [] else
          [.ok (some { opcode := pControlV1, sessionId := self.control.sessionId.toList,
                       packetId := self.control.nextPacketId, header := [],
                       payload := self.control.lastPayload })]) ∧
      (built self (sendAck packetId self).2).map Packet.parse =
        [.ok (some { opcode := pAckV1, sessionId := self.control.sessionId.toList,
                     packetId := 0, header := [], payload := [] })] ∧
      Packet.parse (resetPacket self.control.sessionId) =
        .ok (some { opcode := pControlHardResetClientV2,
                    sessionId := self.control.sessionId.toList,
                    packetId := 0, header := [], payload := [] }) := by
  have sameSession : (recordAck packetId self.control).sessionId = self.control.sessionId := by
    unfold recordAck
    split <;> rfl
  refine ⟨?_, ?_, ?_, parse_resetPacket _⟩
  · rw [(built_sendControl payload self).1, List.map_singleton, parse_controlDatagram]
  · rw [built_retransmitControl, apply_ite (List.map Packet.parse), List.map_singleton,
      parse_resendDatagram]
    rfl
  · rw [(built_sendAck packetId self).1, List.map_singleton, parse_ackDatagram, sameSession]

/-! ### The acks of a run -/

inductive Call where
  | ack (packetId : UInt32)
  | control (payload : Bytes)
deriving DecidableEq, Repr

/-- The session after the call, whatever the socket did. -/
def call (self : Session σ) : Call → Session σ
  | .ack packetId => (sendAck packetId self).2
  | .control payload => (sendControl payload self).2

/-- The packets received so far, the reset of the server first. -/
def receivedIds (resetId : UInt32) (calls : List Call) : List UInt32 :=
  resetId :: calls.filterMap fun call => match call with
    | .ack packetId => some packetId
    | .control _ => none

/-- Ids without a duplicate, few enough for an ack block, all of them received. -/
structure AckList (arrived acked : List UInt32) : Prop where
  distinct : acked.Nodup
  few : acked.length ≤ maxAcks
  known : ∀ id ∈ acked, id ∈ arrived

theorem AckList.recordAck {arrived : List UInt32} {control : Control σ} (packetId : UInt32)
    (list : AckList arrived control.acked) :
    AckList (arrived ++ [packetId]) (recordAck packetId control).acked ∧
      packetId ∈ (Session.recordAck packetId control).acked := by
  unfold Session.recordAck
  split
  next listed =>
    have known : ∀ id ∈ control.acked, id ∈ arrived ++ [packetId] :=
      fun id member => List.mem_append_left _ (list.known id member)
    exact ⟨⟨list.distinct, list.few, known⟩, listed⟩
  next new =>
    refine ⟨⟨?_, List.length_take_le _ _, ?_⟩, List.mem_cons_self⟩
    · exact (List.nodup_cons.mpr ⟨new, list.distinct⟩).sublist (List.take_sublist _ _)
    · intro id member
      rcases List.mem_cons.mp (List.mem_of_mem_take member) with rfl | earlier
      · exact List.mem_append_right _ List.mem_cons_self
      · exact List.mem_append_left _ (list.known id earlier)

/-- A run keeps the list of acks and the two session ids. -/
structure Recorded (resetId : UInt32) (start : Session σ) (calls : List Call)
    (after : Session σ) : Prop where
  list : AckList (receivedIds resetId calls) after.control.acked
  sessionId : after.control.sessionId = start.control.sessionId
  remote : after.control.remoteSessionId = start.control.remoteSessionId

theorem recordAck_sessions (packetId : UInt32) (control : Control σ) :
    (recordAck packetId control).sessionId = control.sessionId ∧
      (recordAck packetId control).remoteSessionId = control.remoteSessionId := by
  unfold recordAck
  split <;> exact ⟨rfl, rfl⟩

theorem Recorded.call {resetId : UInt32} {start before : Session σ} {calls : List Call}
    (recorded : Recorded resetId start calls before) (next : Call) :
    Recorded resetId start (calls ++ [next]) (before.call next) := by
  cases next with
  | ack packetId =>
      obtain ⟨sessionId, remote⟩ := recordAck_sessions packetId before.control
      have control := (built_sendAck packetId before).2
      have list := (recorded.list.recordAck packetId).1
      refine ⟨?_, ?_, ?_⟩
      · change AckList _ (sendAck packetId before).2.control.acked
        rw [control]
        simpa [receivedIds] using list
      · change (sendAck packetId before).2.control.sessionId = _
        rw [control, sessionId, recorded.sessionId]
      · change (sendAck packetId before).2.control.remoteSessionId = _
        rw [control, remote, recorded.remote]
  | control payload =>
      have control := (built_sendControl payload before).2
      refine ⟨?_, ?_, ?_⟩
      · change AckList _ (sendControl payload before).2.control.acked
        rw [control]
        simpa [receivedIds] using recorded.list
      · change (sendControl payload before).2.control.sessionId = _
        rw [control, ← recorded.sessionId]
      · change (sendControl payload before).2.control.remoteSessionId = _
        rw [control, ← recorded.remote]

theorem recorded_run {resetId : UInt32} {start : Session σ}
    (fresh : start.control.acked = [resetId]) (calls : List Call) :
    Recorded resetId start calls (run Session.call start calls) := by
  induction calls using List.reverseRecOn with
  | nil =>
      refine ⟨?_, rfl, rfl⟩
      change AckList [resetId] start.control.acked
      rw [fresh]
      exact ⟨List.nodup_singleton _, Nat.le_add_left 1 3, fun _ member => member⟩
  | append_singleton calls next inductionHypothesis =>
      rw [run_append]
      exact inductionHypothesis.call next

def Call.opcode : Call → UInt8
  | .ack _ => pAckV1
  | .control _ => pControlV1

/-- What a call puts behind its ack block. -/
def Call.tail (control : Control σ) : Call → Bytes
  | .ack _ => []
  | .control payload => u32ToBe control.nextPacketId ++ payload

/-- The datagram has an ack block with these ids: a count, as many ids, and the session
id of the peer unless the count is zero. -/
def HasAckBlock (opcode : UInt8) (sessionId remote : SessionId) (ids : List UInt32)
    (tail datagram : Bytes) : Prop :=
  ∃ count : UInt8, count.toNat = ids.length ∧
    datagram = (opcode <<< 3) :: (sessionId.toList ++ count ::
      (ids.flatMap u32ToBe ++ ((if count = 0 then [] else remote.toList) ++ tail)))

theorem encodeAcks_ids (ids : List UInt32) (few : ids.length ≤ maxAcks) (remote : SessionId) :
    ∃ count : UInt8, encodeAcks ids remote = count :: (ids.flatMap u32ToBe ++
      if count = 0 then [] else remote.toList) ∧ count.toNat = ids.length := by
  have count : (UInt8.ofNat ids.length).toNat = ids.length := by
    rw [UInt8.toNat_ofNat', Nat.mod_eq_of_lt]
    unfold maxAcks at few
    omega
  refine ⟨UInt8.ofNat ids.length, ?_, count⟩
  have zero_iff : UInt8.ofNat ids.length = 0 ↔ ¬ ids.length > 0 := by
    rw [← UInt8.toNat_inj, count, Nat.not_lt, Nat.le_zero]
    rfl
  simp only [encodeAcks, Nat.min_eq_left few, List.take_length, zero_iff, ite_not,
    List.cons_append]

theorem hasAckBlock_call {arrived : List UInt32} {before : Session σ}
    (list : AckList arrived before.control.acked) (next : Call) :
    ∃ datagram ids, built before (before.call next) = [datagram] ∧
      HasAckBlock next.opcode before.control.sessionId before.control.remoteSessionId ids
        (next.tail before.control) datagram ∧
      ∀ packetId, next = .ack packetId → packetId ∈ ids := by
  cases next with
  | ack packetId =>
      obtain ⟨newList, listed⟩ := list.recordAck packetId
      obtain ⟨sessionId, remote⟩ := recordAck_sessions packetId before.control
      obtain ⟨count, encoded, counted⟩ := encodeAcks_ids
        (recordAck packetId before.control).acked newList.few before.control.remoteSessionId
      refine ⟨_, _, (built_sendAck packetId before).1, ⟨count, counted, ?_⟩, ?_⟩
      · rw [ackDatagram, sessionId, remote, encoded, Call.tail, List.append_nil]
        rfl
      · rintro _ ⟨⟩
        exact listed
  | control payload =>
      obtain ⟨count, encoded, counted⟩ := encodeAcks_ids before.control.acked list.few
        before.control.remoteSessionId
      refine ⟨_, _, (built_sendControl payload before).1, ⟨count, counted, ?_⟩, ?_⟩
      · rw [controlDatagram, encoded]
        simp [Call.tail, Call.opcode]
      · rintro _ ⟨⟩

/-- After any run of calls the list of acks has no duplicate, no more than four ids, and
only ids that were received; and whatever call is next, its ack block is well formed, and
lists the packet if it acknowledges one. -/
theorem acks_run {resetId : UInt32} {start : Session σ}
    (fresh : start.control.acked = [resetId]) (calls : List Call) :
    AckList (receivedIds resetId calls) (run Session.call start calls).control.acked ∧
      ∀ next : Call, ∃ datagram ids,
        built (run Session.call start calls) ((run Session.call start calls).call next) =
          [datagram] ∧
        HasAckBlock next.opcode start.control.sessionId start.control.remoteSessionId ids
          (next.tail (run Session.call start calls).control) datagram ∧
        ∀ packetId, next = .ack packetId → packetId ∈ ids := by
  have recorded := recorded_run fresh calls
  refine ⟨recorded.list, fun next => ?_⟩
  rw [← recorded.sessionId, ← recorded.remote]
  exact hasAckBlock_call recorded.list next

/-- Packet 1 comes twice, and a payload is sent between it and packet 2. -/
theorem acks_run_repeated :
    (run Session.call (unanswered []) [.ack 1, .ack 1, .control [7], .ack 2]).control.acked =
        [2, 1, 0] ∧
      AckList [0, 1, 1, 2]
        (run Session.call (unanswered []) [.ack 1, .ack 1, .control [7], .ack 2]).control.acked ∧
      ∃ datagram ids,
        built (run Session.call (unanswered []) [.ack 1, .ack 1, .control [7]])
          (run Session.call (unanswered []) [.ack 1, .ack 1, .control [7], .ack 2]) =
            [datagram] ∧
        HasAckBlock pAckV1 (unanswered []).control.sessionId
          (unanswered []).control.remoteSessionId ids [] datagram ∧ 2 ∈ ids := by
  have fresh : (unanswered []).control.acked = [0] := rfl
  obtain ⟨list, -⟩ := acks_run fresh [.ack 1, .ack 1, .control [7], .ack 2]
  obtain ⟨datagram, ids, sent, block, listed⟩ :=
    (acks_run fresh [.ack 1, .ack 1, .control [7]]).2 (.ack 2)
  exact ⟨by decide +kernel, list, datagram, ids, sent, block, listed 2 rfl⟩

end Session

end Unroxy.OpenVpn
