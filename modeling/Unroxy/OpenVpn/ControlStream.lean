import Unroxy.Lib.Run
import Unroxy.OpenVpn.Control

/-!
Owns the integrity of the outgoing control stream.

`Streams backlog` is the invariant: as long as nothing was resent and no control
packet was lost, the control packets on the wire are numbered 1, 2, 3, ... and their payloads, with
the bytes taken from TLS and not yet sent, are what `take_outbound` returned.
Every function of the handshake keeps it; `send_control_chunks` works the
backlog off.
-/

namespace Unroxy.OpenVpn

open Unroxy.Lib

namespace Session

variable {σ : Type}

/-! ### What the wire carries -/

/-- Packet id and payload of a control datagram, as a peer reads them. -/
def controlPayload (datagram : Bytes) : Option (UInt32 × Bytes) :=
  match Packet.parse datagram with
  | .ok (some packet) =>
      if packet.opcode = pControlV1 then some (packet.packetId, packet.payload) else none
  | _ => none

/-- The control packets sent so far, in the order they were sent. -/
def controls (history : List Event) : List (UInt32 × Bytes) :=
  history.filterMap fun event => match event with
    | .sent datagram => controlPayload datagram
    | _ => none

/-- All bytes `take_outbound` returned so far. -/
def taken (history : List Event) : Bytes :=
  history.flatMap fun event => match event with
    | .took bytes => bytes
    | _ => []

/-- A stream a peer can read off the delivered packets by taking one payload
for each of the ids 1, 2, 3, ... without a gap. -/
def Reassembles (delivered : List (UInt32 × Bytes)) (stream : Bytes) : Prop :=
  ∃ payloads : List Bytes, payloads.flatten = stream ∧
    ∀ position payload, payloads[position]? = some payload →
      ∃ packetId : UInt32, packetId.toNat = position + 1 ∧ (packetId, payload) ∈ delivered

/-- The control packets assign one payload to each packet id, in id order they
are the bytes taken from TLS, and no loss, duplication or reordering lets a
peer read anything but a beginning of those bytes. -/
structure Intact (history : List Event) : Prop where
  assigned : ∃ payloads : List Bytes, payloads.flatten = taken history ∧
    ∀ packetId payload, (packetId, payload) ∈ controls history ↔
      ∃ position, packetId.toNat = position + 1 ∧ payloads[position]? = some payload
  complete : Reassembles (controls history) (taken history)
  sound : ∀ delivered, delivered ⊆ controls history →
    ∀ stream, Reassembles delivered stream → stream <+: taken history

/-- The event neither gives a payload a second id nor drops one. A lost ACK or
data packet drops none. -/
def Event.Calm : Event → Prop
  | .lost datagram => controlPayload datagram = none
  | .resend payload => payload = []
  | _ => True

instance : DecidablePred Event.Calm
  | .took _ => .isTrue trivial
  | .sent _ => .isTrue trivial
  | .lost datagram => inferInstanceAs (Decidable (controlPayload datagram = none))
  | .resend payload => inferInstanceAs (Decidable (payload = []))
  | .encrypted _ _ => .isTrue trivial

/-- Nothing was resent, and no control packet was lost. -/
def Calm (history : List Event) : Prop := ∀ event ∈ history, Event.Calm event

instance (history : List Event) : Decidable (Calm history) :=
  inferInstanceAs (Decidable (∀ event ∈ history, Event.Calm event))

theorem calm_append {history : List Event} {event : Event} :
    Calm (history ++ [event]) ↔ Calm history ∧ Event.Calm event := by
  simp only [Calm, List.mem_append, List.mem_singleton, or_imp, forall_and, forall_eq]

@[simp] theorem controls_append (history : List Event) (event : Event) :
    controls (history ++ [event]) = controls history ++ controls [event] :=
  List.filterMap_append

@[simp] theorem taken_append (history : List Event) (event : Event) :
    taken (history ++ [event]) = taken history ++ taken [event] :=
  List.flatMap_append

@[simp] theorem controls_sent (datagram : Bytes) :
    controls [.sent datagram] = (controlPayload datagram).toList := by
  cases found : controlPayload datagram with
  | none => simp [controls, found]
  | some packet => simp [controls, found]

/-- Payloads with their ids, from 1 on. -/
def numbered (payloads : List Bytes) : List (UInt32 × Bytes) :=
  payloads.mapIdx fun position payload => (UInt32.ofNat (position + 1), payload)

/-! ### Numbered packets make an intact stream -/

theorem mem_numbered {payloads : List Bytes} (few : payloads.length < 2 ^ 32)
    {packetId : UInt32} {payload : Bytes} :
    (packetId, payload) ∈ numbered payloads ↔
      ∃ position, packetId.toNat = position + 1 ∧ payloads[position]? = some payload := by
  rw [numbered, List.mem_mapIdx]
  have idValue (position : Nat) (below : position < payloads.length) :
      (UInt32.ofNat (position + 1)).toNat = position + 1 := by
    rw [UInt32.toNat_ofNat']
    exact Nat.mod_eq_of_lt (by omega)
  constructor
  · rintro ⟨position, below, same⟩
    rcases Prod.mk.inj same with ⟨idEq, payloadEq⟩
    refine ⟨position, ?_, by rw [List.getElem?_eq_getElem below, payloadEq]⟩
    rw [← idEq, idValue position below]
  · rintro ⟨position, idEq, payloadEq⟩
    rcases List.getElem?_eq_some_iff.mp payloadEq with ⟨below, rfl⟩
    refine ⟨position, below, Prod.ext ?_ rfl⟩
    apply UInt32.toNat_inj.mp
    rw [idValue position below, idEq]

theorem intact_of_numbered {history : List Event} {payloads : List Bytes}
    (few : payloads.length < 2 ^ 32) (packets : controls history = numbered payloads)
    (stream : payloads.flatten = taken history) : Intact history where
  assigned := ⟨payloads, stream, fun packetId payload => by rw [packets, mem_numbered few]⟩
  complete := by
    refine ⟨payloads, stream, fun position payload found => ?_⟩
    rcases List.getElem?_eq_some_iff.mp found with ⟨below, rfl⟩
    refine ⟨UInt32.ofNat (position + 1), ?_, ?_⟩
    · rw [UInt32.toNat_ofNat']
      exact Nat.mod_eq_of_lt (by omega)
    · rw [packets]
      exact List.mem_mapIdx.mpr ⟨position, below, rfl⟩
  sound := by
    rintro delivered subset _ ⟨read, rfl, sources⟩
    -- Each payload the peer read is the one sent under that id.
    have agrees (position : Nat) (payload : Bytes) (found : read[position]? = some payload) :
        payloads[position]? = some payload := by
      rcases sources position payload found with ⟨packetId, idEq, member⟩
      have sentUnder := subset member
      rw [packets, mem_numbered few] at sentUnder
      rcases sentUnder with ⟨position', idEq', found'⟩
      have : position' = position := by omega
      exact this ▸ found'
    have isPrefix : read <+: payloads := by
      rw [List.prefix_iff_getElem?]
      intro position below
      exact agrees position read[position] (List.getElem?_eq_getElem below)
    rcases isPrefix with ⟨rest, rfl⟩
    rw [← stream, List.flatten_append]
    exact List.prefix_append _ _

/-! ### The invariant -/

/-- As long as the history is calm, the packets sent are numbered from 1 and
`backlog` is taken from TLS but not sent. -/
def Streams (backlog : Bytes) (self : Session σ) : Prop :=
  Calm self.history → ∃ payloads : List Bytes,
    controls self.history = numbered payloads ∧
      self.control.nextPacketId = UInt32.ofNat (payloads.length + 1) ∧
      payloads.flatten ++ backlog = taken self.history

/-- A step that writes no control packet, takes nothing and leaves the next id
alone keeps the invariant. -/
private theorem Streams.of_same {backlog : Bytes} {before after : Session σ}
    (held : Streams backlog before)
    (calm : Calm after.history → Calm before.history)
    (packets : controls after.history = controls before.history)
    (bytes : taken after.history = taken before.history)
    (next : after.control.nextPacketId = before.control.nextPacketId) :
    Streams backlog after := by
  intro calmAfter
  rcases held (calm calmAfter) with ⟨payloads, numberedEq, nextEq, stream⟩
  exact ⟨payloads, by rw [packets, numberedEq], by rw [next, nextEq], by rw [bytes, stream]⟩

private theorem streams_of_not_calm {backlog : Bytes} {self : Session σ}
    (disturbed : ¬ Calm self.history) : Streams backlog self :=
  fun calm => absurd calm disturbed

theorem streams_tls {α : Type} {backlog : Bytes} (task : Task (TlsState σ) Error α) :
    Task.Preserves (Streams backlog) (tls task) :=
  Task.Preserves.zoom fun _ _ held => held

theorem streams_update {backlog : Bytes} {change : Control σ → Control σ}
    (kept : ∀ control, (change control).nextPacketId = control.nextPacketId) :
    Task.Preserves (Streams backlog) (update change) :=
  Task.Preserves.modify fun self held =>
    held.of_same (fun calm => calm) rfl rfl (kept self.control)

theorem streams_deadlinePassed {backlog : Bytes} :
    Task.Preserves (Streams backlog) (deadlinePassed : Act σ Bool) := by
  apply Task.Preserves.bind (Task.Preserves.gets _)
  intro self
  split
  · exact Task.Preserves.bind (Task.Preserves.modify fun _ held => held)
      fun _ => Task.Preserves.pure _
  · exact Task.Preserves.pure _

theorem streams_recvPacket {backlog : Bytes} :
    Task.Preserves (Streams backlog) (recvPacket : Act σ (Option Packet)) := by
  apply Task.Preserves.bind (Task.Preserves.gets _)
  intro self
  split
  · exact Task.Preserves.lift _
  · exact Task.Preserves.bind (Task.Preserves.modify fun _ held => held)
      fun _ => Task.Preserves.pure _
  · exact Task.Preserves.bind (Task.Preserves.modify fun _ held => held)
      fun _ => Task.Preserves.throw _
  · exact Task.Preserves.bind (Task.Preserves.modify fun _ held => held)
      fun _ => Task.Preserves.pure _
  · exact Task.Preserves.bind (Task.Preserves.modify fun _ held => held)
      fun _ => Task.Preserves.lift _

/-! ### Sending -/

/-- What `send_raw` does: the datagram is on the wire, or it is lost. -/
theorem run_sendRaw (datagram : Bytes) (self : Session σ) :
    (∃ after, sendRaw datagram self = (.ok (), after) ∧ after.control = self.control ∧
        after.history = self.history ++ [.sent datagram]) ∨
      ∃ after, sendRaw datagram self = (.error .socket, after) ∧ after.control = self.control ∧
        after.history = self.history ++ [.lost datagram] := by
  simp only [sendRaw, log, Task.run_bind, Task.run_gets, Task.run_modify, id]
  cases self.faults.headD false with
  | true => exact .inr ⟨_, rfl, rfl, rfl⟩
  | false => exact .inl ⟨_, rfl, rfl, rfl⟩

/-- A datagram that is no control packet goes out without touching the stream. -/
theorem streams_sendRaw {backlog datagram : Bytes} (other : controlPayload datagram = none) :
    Task.Preserves (Streams backlog) (sendRaw datagram : Act σ Unit) := by
  intro self held
  rcases run_sendRaw datagram self with
    ⟨after, run, sameControl, events⟩ | ⟨after, run, sameControl, events⟩
  · rw [run]
    refine held.of_same (fun calm => ?_) ?_ ?_ (by rw [sameControl])
    · rw [events] at calm
      exact (calm_append.mp calm).1
    · rw [events, controls_append, controls_sent, other, Option.toList_none, List.append_nil]
    · rw [events, taken_append]
      simp [taken]
  · rw [run]
    refine held.of_same (fun calm => ?_) ?_ ?_ (by rw [sameControl])
    · rw [events] at calm
      exact (calm_append.mp calm).1
    · rw [events, controls_append]
      simp [controls]
    · rw [events, taken_append]
      simp [taken]

private theorem numbered_append (payloads : List Bytes) (payload : Bytes) :
    numbered (payloads ++ [payload]) =
      numbered payloads ++ [(UInt32.ofNat (payloads.length + 1), payload)] := by
  simp [numbered, List.mapIdx_append]

theorem controlPayload_control (sessionId remoteSessionId : SessionId)
    (acked : List UInt32) (packetId : UInt32) (payload : Bytes) :
    controlPayload ((pControlV1 <<< 3) :: (sessionId.toList ++
      encodeAcks acked remoteSessionId) ++ u32ToBe packetId ++ payload) =
        some (packetId, payload) := by
  rcases encodeAcks_shape acked remoteSessionId with ⟨count, acks, encoded, block⟩
  rw [encoded]
  simp only [List.cons_append, List.append_assoc]
  rw [controlPayload, Packet.parse_control (by decide) (by decide) block]
  simp only [show pControlV1 <<< 3 >>> 3 = pControlV1 by decide, if_true]

private theorem controlPayload_ack (sessionId remoteSessionId : SessionId)
    (acked : List UInt32) :
    controlPayload ((pAckV1 <<< 3) :: (sessionId.toList ++
      encodeAcks acked remoteSessionId)) = none := by
  rcases encodeAcks_shape acked remoteSessionId with ⟨count, acks, encoded, block⟩
  rw [encoded, ← List.append_nil acks, controlPayload, Packet.parse_ack (by decide) block]
  simp only [show ¬ pAckV1 <<< 3 >>> 3 = pControlV1 by decide, if_false]

/-- `send_control` moves its payload from the backlog to the wire, under the
next id. -/
theorem sendControl_spec (payload rest : Bytes) :
    Task.Triple (Streams (payload ++ rest)) (sendControl payload : Act σ Unit)
      (fun _ => Streams rest) (fun _ => Streams []) := by
  intro self held
  simp only [sendControl, update, Task.run_bind, Task.run_gets, Task.run_modify]
  obtain ⟨after, run, sameControl, events⟩ | ⟨after, run, -, events⟩ := run_sendRaw
    ((pControlV1 <<< 3) :: (self.control.sessionId.toList ++
      encodeAcks self.control.acked self.control.remoteSessionId) ++
        u32ToBe self.control.nextPacketId ++ payload)
    { self with
      control := { self.control with
                   nextPacketId := self.control.nextPacketId + 1, lastPayload := payload } }
  · rw [run]
    intro calm
    rw [events] at calm ⊢
    rcases held (calm_append.mp calm).1 with ⟨payloads, packets, next, stream⟩
    refine ⟨payloads ++ [payload], ?_, ?_, ?_⟩
    · rw [controls_append, controls_sent, controlPayload_control, packets, numbered_append, next]
      rfl
    · rw [sameControl, next, List.length_append]
      exact (UInt32.ofNat_add _ 1).symm
    · simp only [taken_append, ← stream]
      simp [taken]
  · rw [run]
    refine streams_of_not_calm fun calm => ?_
    rw [events] at calm
    have dropped : controlPayload _ = none := (calm_append.mp calm).2
    rw [controlPayload_control] at dropped
    cases dropped

/-- `send_control_chunks` works off the whole backlog. -/
theorem sendControlChunks_spec (data : Bytes) :
    Task.Triple (Streams data) (sendControlChunks data : Act σ Unit)
      (fun _ => Streams []) (fun _ => Streams []) := by
  change Task.Triple (Streams (data.drop 0)) (sendControlChunks data) _ _
  refine Task.Triple.loop (fun offset => Streams (data.drop offset))
    (fun offset _ => data.length - offset) (fun _ _ => Nat.sub_le _ _) fun offset bound => ?_
  split
  case isTrue more =>
    -- The chunk and what is behind it are what is left of `data`.
    have parts : data.drop offset =
        (data.drop offset).take (min (offset + maxControlPayload) data.length - offset) ++
          data.drop (min (offset + maxControlPayload) data.length) := by
      conv_lhs => rw [← List.take_append_drop
        (min (offset + maxControlPayload) data.length - offset) (data.drop offset)]
      rw [List.drop_drop]
      congr 2
      unfold maxControlPayload
      omega
    have sent : Task.Triple _ (sendControl ((data.drop offset).take
        (min (offset + maxControlPayload) data.length - offset)) : Act σ Unit) _ _ :=
      sendControl_spec _ (data.drop (min (offset + maxControlPayload) data.length))
    rw [← parts] at sent
    have shorter : data.length - min (offset + maxControlPayload) data.length <
        data.length - offset := by
      unfold maxControlPayload
      omega
    intro self held
    refine Task.Triple.bind sent (fun _ => ?_) self held.1
    exact fun reached kept => ⟨kept, held.2 ▸ shorter⟩
  case isFalse done =>
    rintro self ⟨held, -⟩
    rw [List.drop_of_length_le (by omega)] at held
    exact held

theorem takeOutbound_spec :
    Task.Triple (Streams []) (takeOutbound : Act σ Bytes) Streams (fun _ => Streams []) := by
  intro self held
  simp only [takeOutbound, update, log, Task.run_bind, Task.run_gets, Task.run_modify,
    Task.run_pure]
  intro calm
  rcases held (calm_append.mp calm).1 with ⟨payloads, packets, next, stream⟩
  refine ⟨payloads, ?_, next, ?_⟩
  · rw [controls_append, packets]
    simp [controls]
  · rw [taken_append, ← stream]
    simp [taken]

/-! ### Every function of the handshake keeps the invariant -/

theorem streams_sendAck (packetId : UInt32) :
    Task.Preserves (Streams []) (sendAck packetId : Act σ Unit) := by
  refine Task.Preserves.bind (streams_update fun control => ?_) fun _ => ?_
  · unfold recordAck
    split <;> rfl
  · exact Task.Preserves.bind (Task.Preserves.gets _)
      fun self => streams_sendRaw (controlPayload_ack _ _ _)

private theorem disturbed_sendRaw (datagram : Bytes) :
    Task.Preserves (fun self => ¬ Calm self.history) (sendRaw datagram : Act σ Unit) := by
  intro self disturbed
  rcases run_sendRaw datagram self with ⟨after, run, -, events⟩ | ⟨after, run, -, events⟩
  · rw [run]
    exact fun calm => disturbed (calm_append.mp (events ▸ calm)).1
  · rw [run]
    exact fun calm => disturbed (calm_append.mp (events ▸ calm)).1

/-- A resend that finds something to resend ends the calm. -/
theorem streams_retransmitControl :
    Task.Preserves (Streams []) (retransmitControl : Act σ Unit) := by
  apply Task.Preserves.bind (Task.Preserves.gets _)
  intro control
  by_cases nothing : control.lastPayload = []
  · simp only [nothing, List.isEmpty_nil, if_true]
    refine Task.Preserves.bind (Task.Preserves.modify fun self held => ?_)
      fun _ => Task.Preserves.pure ()
    refine held.of_same (fun calm => (calm_append.mp calm).1) ?_ ?_ rfl
    · rw [controls_append]
      simp [controls]
    · rw [taken_append]
      simp [taken]
  · have logged : Task.Triple (Streams []) (log (.resend control.lastPayload) : Act σ Unit)
        (fun _ self => ¬ Calm self.history) (fun _ => Streams []) :=
      fun self _ calm => nothing (calm_append.mp calm).2
    have resent : Task.Preserves (fun self => ¬ Calm self.history) (do
        update fun control => { control with nextPacketId := control.nextPacketId + 1 }
        sendRaw ((pControlV1 <<< 3) :: (control.sessionId.toList ++ [0]) ++
          u32ToBe control.nextPacketId ++ control.lastPayload) : Act σ Unit) :=
      Task.Preserves.bind (Task.Preserves.modify fun _ disturbed => disturbed)
        fun _ => disturbed_sendRaw _
    apply Task.Triple.bind logged
    intro _
    rw [if_neg (by rwa [List.isEmpty_iff])]
    exact resent.weaken (fun _ disturbed => disturbed)
      (fun _ _ disturbed => streams_of_not_calm disturbed)
      (fun _ _ disturbed => streams_of_not_calm disturbed)

theorem streams_flushTls : Task.Preserves (Streams []) (flushTls : Act σ Unit) := by
  apply Task.Triple.bind takeOutbound_spec
  intro outbound
  split
  case isTrue empty =>
    rw [List.isEmpty_iff.mp empty]
    exact Task.Preserves.pure ()
  case isFalse => exact sendControlChunks_spec outbound

theorem streams_acceptControl (engine : Engine σ) (packetId : UInt32) (payload : Bytes) :
    Task.Preserves (Streams []) (acceptControl engine packetId payload) := by
  refine preserves_acceptControl (fun _ => streams_tls _) (fun change received => ?_) _ _
  apply streams_update
  intro control
  rcases received control with ⟨recvNext, reorder, same⟩
  rw [same]

theorem streams_handleControl (engine : Engine σ) (packet : Packet) :
    Task.Preserves (Streams []) (handleControl engine packet) := by
  apply Task.Preserves.bind (streams_sendAck _)
  intro _
  apply Task.Preserves.bind (streams_acceptControl engine _ _)
  intro _
  exact Task.Preserves.bind (streams_tls _) fun _ => streams_flushTls

theorem streams_pump (engine : Engine σ) : Task.Preserves (Streams []) (pump engine) := by
  refine Task.Preserves.loop (fun _ => ?_) ()
  apply Task.Preserves.bind streams_deadlinePassed
  intro passed
  split
  · exact Task.Preserves.throw _
  · apply Task.Preserves.bind streams_recvPacket
    intro received
    cases received with
    | none =>
        apply Task.Preserves.bind (Task.Preserves.gets _)
        intro self
        split
        · exact Task.Preserves.bind streams_retransmitControl fun _ => Task.Preserves.pure _
        · exact Task.Preserves.pure _
    | some packet =>
        dsimp only
        split
        · exact Task.Preserves.bind (streams_handleControl engine packet)
            fun _ => Task.Preserves.pure _
        · exact Task.Preserves.pure _

theorem streams_driveTls (engine : Engine σ) : Task.Preserves (Streams []) (driveTls engine) := by
  refine Task.Preserves.loop (fun _ => ?_) ()
  apply Task.Preserves.bind (streams_tls _)
  intro _
  apply Task.Triple.bind takeOutbound_spec
  intro outbound
  have rest : Task.Preserves (Streams []) (do
      let self ← Task.gets Session.control
      if self.tls.isReady then
        return .inr ()
      else if ← deadlinePassed then
        Task.throw .timeout
      else
        pump engine
        return .inl () : Act σ (Unit ⊕ Unit)) := by
    apply Task.Preserves.bind (Task.Preserves.gets _)
    intro self
    split
    · exact Task.Preserves.pure _
    · apply Task.Preserves.bind streams_deadlinePassed
      intro passed
      split
      · exact Task.Preserves.throw _
      · exact Task.Preserves.bind (streams_pump engine) fun _ => Task.Preserves.pure _
  split
  case isTrue => exact Task.Triple.bind (sendControlChunks_spec outbound) fun _ => rest
  case isFalse empty =>
    rw [Decidable.not_not, List.isEmpty_iff] at empty
    rw [empty]
    exact rest

theorem streams_takePlaintext :
    Task.Preserves (Streams []) (takePlaintext : Act σ (Option Bytes)) := by
  apply Task.Preserves.bind (Task.Preserves.gets _)
  intro self
  exact Task.Preserves.bind (streams_update fun _ => rfl) fun _ => Task.Preserves.pure _

/-- A turn of a loop that waits for a message of the server. -/
theorem streams_turn {α : Type} (engine : Engine σ) {next : Option Bytes → Act σ α}
    (each : ∀ chunk, Task.Preserves (Streams []) (next chunk)) :
    Task.Preserves (Streams []) (do
      if ← deadlinePassed then
        Task.throw .timeout
      else
        pump engine
        let chunk ← takePlaintext
        next chunk : Act σ α) := by
  apply Task.Preserves.bind streams_deadlinePassed
  intro passed
  split
  · exact Task.Preserves.throw _
  · apply Task.Preserves.bind (streams_pump engine)
    intro _
    exact Task.Preserves.bind streams_takePlaintext each

theorem streams_exchangeKeys (engine : Engine σ) (profile : Profile) (secrets : ClientSecrets) :
    Task.Preserves (Streams []) (exchangeKeys engine profile secrets) := by
  apply Task.Preserves.bind (Task.Preserves.lift _)
  intro payload
  apply Task.Preserves.bind (streams_tls _)
  intro _
  apply Task.Triple.bind takeOutbound_spec
  intro outbound
  apply Task.Triple.bind (sendControlChunks_spec outbound)
  intro _
  refine Task.Preserves.bind (Task.Preserves.loop (fun buffer => ?_) _)
    fun randoms => streams_update fun _ => rfl
  apply streams_turn engine
  intro chunk
  apply Task.Preserves.bind (Task.Preserves.lift _)
  intro found
  cases found with
  | none => exact Task.Preserves.pure _
  | some randoms => exact Task.Preserves.pure _

theorem streams_pushRequest (engine : Engine σ) :
    Task.Preserves (Streams []) (pushRequest engine) := by
  apply Task.Preserves.bind (streams_tls _)
  intro _
  apply Task.Preserves.bind streams_flushTls
  intro _
  refine Task.Preserves.loop (fun buffer => ?_) _
  apply streams_turn engine
  intro chunk
  dsimp only
  split
  · exact Task.Preserves.pure _
  · split
    · exact Task.Preserves.throw _
    · exact Task.Preserves.pure _

/-! ### Whole runs -/

/-- One call of a function that works on the control channel. -/
inductive Step where
  | driveTls
  | exchangeKeys (profile : Profile) (secrets : ClientSecrets)
  | flushTls
  | pushRequest
  | pump

/-- The session a step leaves behind, however the call ends. -/
def Step.run (engine : Engine σ) (self : Session σ) : Step → Session σ
  | .driveTls => (Session.driveTls engine self).2
  | .exchangeKeys profile secrets => (Session.exchangeKeys engine profile secrets self).2
  | .flushTls => (Session.flushTls self).2
  | .pushRequest => (Session.pushRequest engine self).2
  | .pump => (Session.pump engine self).2

def runSteps (engine : Engine σ) (self : Session σ) (steps : List Step) : Session σ :=
  run (Step.run engine) self steps

/-- A control that has just been connected, before its handshake. -/
def connected (control : Control σ) (arrivals : List Arrival) (faults : List Bool) :
    Session σ where
  control := control
  arrivals := arrivals
  faults := faults
  overdue := false
  history := []

theorem streams_step (engine : Engine σ) (step : Step) {self : Session σ}
    (held : Streams [] self) : Streams [] (step.run engine self) := by
  cases step with
  | driveTls => exact (streams_driveTls engine).final held
  | exchangeKeys profile secrets => exact (streams_exchangeKeys engine profile secrets).final held
  | flushTls => exact streams_flushTls.final held
  | pushRequest => exact (streams_pushRequest engine).final held
  | pump => exact (streams_pump engine).final held

/-- The outgoing control stream is intact in every run in which nothing was
resent, no send of a control packet failed and the packet id did not wrap. -/
theorem intact_runSteps (engine : Engine σ) (session : σ) (sessionId remoteSessionId : SessionId)
    (resetId : UInt32) (cipher : Cipher) (auth : Auth) (arrivals : List Arrival)
    (faults : List Bool) (steps : List Step) {history : List Event}
    (reached : (runSteps engine (connected
      (Control.start session sessionId remoteSessionId resetId cipher auth) arrivals faults)
        steps).history = history)
    (calm : Calm history) (few : (controls history).length < 2 ^ 32) : Intact history := by
  subst reached
  have fresh : Streams [] (connected
      (Control.start session sessionId remoteSessionId resetId cipher auth) arrivals faults) :=
    fun _ => ⟨[], rfl, rfl, rfl⟩
  have reached : Streams [] (runSteps engine (connected
      (Control.start session sessionId remoteSessionId resetId cipher auth) arrivals faults)
        steps) :=
    run_always (fun _ step held => streams_step engine step held) steps fresh
  rcases reached calm with ⟨payloads, packets, -, stream⟩
  refine intact_of_numbered ?_ packets (by rw [← stream, List.append_nil])
  rw [packets, numbered, List.length_mapIdx] at few
  exact few

/-! ### A handshake whose server stays silent -/

/-- A TLS record with a ClientHello that offers one cipher suite. -/
def clientHello : Bytes :=
  [0x16, 3, 1, 0, 45, 1, 0, 0, 41, 3, 3] ++ List.replicate 32 7 ++ [0, 0, 2, 0xc0, 0x2f, 1, 0]

/-- A TLS session that has written its ClientHello and waits for the server. -/
def waitingEngine : Engine Bool where
  handshake started memory :=
    if started then (.wouldBlock, true, memory)
    else (.wouldBlock, true, { memory with outbound := memory.outbound ++ clientHello })
  read started memory := ([], started, memory)
  write started memory _ := (none, started, memory)

/-- `drive_tls` against a server that does not answer, with these waits. -/
def unanswered (arrivals : List Arrival) : Session Bool :=
  runSteps waitingEngine (connected (Control.start false (Vector.replicate 8 1)
    (Vector.replicate 8 2) 0 .aes256Gcm .sha1) arrivals []) [.driveTls]

theorem intact_unanswered :
    Calm (unanswered [.silent false]).history ∧
      (controls (unanswered [.silent false]).history).length = 1 ∧
      Intact (unanswered [.silent false]).history := by
  have calm : Calm (unanswered [.silent false]).history := by decide
  have one : (controls (unanswered [.silent false]).history).length = 1 := by decide
  refine ⟨calm, one, intact_runSteps _ _ _ _ _ _ _ _ _ _ rfl calm ?_⟩
  rw [one]
  decide

/-- Two seconds without an answer: the ClientHello is on the wire under two
ids. -/
theorem not_intact_unanswered :
    ¬ Intact (unanswered [.silent false, .silent false, .silent false, .silent false,
      .silent true]).history := by
  rintro ⟨⟨payloads, stream, assigned⟩, -, -⟩
  have bytes : taken (unanswered [.silent false, .silent false, .silent false, .silent false,
      .silent true]).history = clientHello := by decide
  have packets : controls (unanswered [.silent false, .silent false, .silent false, .silent false,
      .silent true]).history = [(1, clientHello), (2, clientHello)] := by decide
  rw [bytes] at stream
  rw [packets] at assigned
  rcases (assigned 1 clientHello).mp (by simp) with ⟨first, idFirst, atFirst⟩
  rcases (assigned 2 clientHello).mp (by simp) with ⟨second, idSecond, atSecond⟩
  obtain rfl : first = 0 := by
    have : (1 : UInt32).toNat = 1 := rfl
    omega
  obtain rfl : second = 1 := by
    have : (2 : UInt32).toNat = 2 := rfl
    omega
  -- The stream would hold the ClientHello twice.
  match payloads, atFirst, atSecond with
  | head :: next :: rest, atFirst, atSecond =>
      have lengths := congrArg List.length stream
      simp only [List.getElem?_cons_zero, List.getElem?_cons_succ, Option.some.injEq]
        at atFirst atSecond
      subst atFirst atSecond
      simp only [List.flatten_cons, List.length_append] at lengths
      have size : clientHello.length = 50 := by decide
      omega

end Session

end Unroxy.OpenVpn
