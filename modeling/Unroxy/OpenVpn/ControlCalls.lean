import Unroxy.OpenVpn.ControlStream
import Unroxy.OpenVpn.NegotiationRun

/-!
Owns the calls a connection makes on its `Control`, from the handshake to the
data channel, and the rule by which an invariant of the parts of a session
holds of every call.
-/

namespace Unroxy.OpenVpn

open Unroxy.Lib

namespace Session

variable {σ : Type}

/-! ### The parts of a call -/

/-- What an invariant has to survive for the control channel to keep it.
`genuine` is what is known of the control packets that arrive. -/
structure Handles (engine : Engine σ) (genuine : UInt32 → Bytes → Prop)
    (invariant : Session σ → Prop) : Prop where
  /-- Time passes, and a datagram is taken from the socket or a send used up. -/
  script : ∀ self arrivals faults overdue, invariant self → arrivals <:+ self.arrivals →
    invariant { self with arrivals, faults, overdue }
  event : ∀ self event, invariant self → taken [event] = [] →
    invariant { self with history := self.history ++ [event] }
  sending : ∀ (self : Session σ) acked nextPacketId lastPayload, invariant self →
    invariant { self with control := { self.control with acked, nextPacketId, lastPayload } }
  arrived : ∀ self raw overdue packet, invariant self →
    .datagram raw overdue ∈ self.arrivals → Packet.parse raw = .ok (some packet) →
    packet.opcode = pControlV1 → genuine packet.packetId packet.payload
  accepts : ∀ packetId payload, genuine packetId payload →
    Task.Preserves invariant (acceptControl engine packetId payload)
  drives : Task.Preserves invariant (tls (TlsState.drive engine))
  writes : ∀ data, Task.Preserves invariant (tls (TlsState.write engine data))
  takes : Task.Preserves invariant takeOutbound
  reads : Task.Preserves invariant takePlaintext

/-- What it has to survive for the data channel too. -/
structure Survives (engine : Engine σ) (genuine : UInt32 → Bytes → Prop)
    (invariant : Session σ → Prop) : Prop extends Handles engine genuine invariant where
  data : ∀ (self : Session σ) keys seed sendCounter replay, invariant self →
    invariant { self with control := { self.control with keys, seed, sendCounter, replay } }

namespace Handles

variable {engine : Engine σ} {genuine : UInt32 → Bytes → Prop} {invariant : Session σ → Prop}

/-- What `recv_packet` returns holds no control packet but a genuine one. -/
def Known (genuine : UInt32 → Bytes → Prop) (received : Option Packet) : Prop :=
  ∀ packet, received = some packet → packet.opcode = pControlV1 →
    genuine packet.packetId packet.payload

private theorem known_bind {α β : Type} {known : β → Prop} {task : Act σ β} {next : β → Act σ α}
    (first : Task.Triple invariant task (fun received self => invariant self ∧ known received)
      fun _ => invariant)
    (later : ∀ received, known received → Task.Preserves invariant (next received)) :
    Task.Preserves invariant (task >>= next) :=
  Task.Triple.bind first fun received self held => later received held.2 self held.1

variable (handles : Handles engine genuine invariant)

include handles

theorem update {change : Control σ → Control σ}
    (same : ∀ control, ∃ acked nextPacketId lastPayload,
      change control = { control with acked, nextPacketId, lastPayload }) :
    Task.Preserves invariant (update change) :=
  Task.Preserves.modify fun self held => by
    obtain ⟨acked, nextPacketId, lastPayload, same⟩ := same self.control
    rw [same]
    exact handles.sending self acked nextPacketId lastPayload held

theorem log {event : Event} (silent : taken [event] = []) :
    Task.Preserves invariant (log event : Act σ Unit) :=
  Task.Preserves.modify fun self held => handles.event self event held silent

theorem sendRaw (datagram : Bytes) : Task.Preserves invariant (sendRaw datagram) := by
  apply Task.Preserves.bind (Task.Preserves.gets _)
  intro self
  apply Task.Preserves.bind (Task.Preserves.modify fun before held =>
    handles.script before _ before.faults.tail before.overdue held List.suffix_rfl)
  intro _
  split
  · exact Task.Preserves.bind (handles.log rfl) fun _ => Task.Preserves.throw _
  · exact handles.log rfl

theorem deadlinePassed : Task.Preserves invariant (deadlinePassed : Act σ Bool) := by
  intro self held
  rw [Session.deadlinePassed, Task.run_bind_ok (Task.run_gets _ _)]
  simp only [id]
  rcases arrivals : self.arrivals with _ | ⟨arrival, rest⟩
  · exact held
  · cases arrival with
    | expired =>
        exact handles.script self rest self.faults self.overdue held
          (arrivals ▸ List.suffix_cons _ _)
    | failed => exact held
    | silent overdue => exact held
    | datagram raw overdue => exact held

theorem recvPacket :
    Task.Triple invariant (recvPacket : Act σ (Option Packet))
      (fun received self => invariant self ∧ Known genuine received) fun _ => invariant := by
  intro self held
  rw [Session.recvPacket, Task.run_bind_ok (Task.run_gets _ _)]
  simp only [id]
  have nothing : Known genuine none := fun packet none => by cases none
  rcases arrivals : self.arrivals with _ | ⟨arrival, rest⟩
  · exact held
  · have passed (overdue : Bool) :
        invariant { self with arrivals := rest, overdue := overdue } :=
      handles.script self rest self.faults overdue held (arrivals ▸ List.suffix_cons _ _)
    cases arrival with
    | expired => exact ⟨passed self.overdue, nothing⟩
    | failed => exact passed self.overdue
    | silent overdue => exact ⟨passed overdue, nothing⟩
    | datagram raw overdue =>
        simp only [Task.run_bind, Task.run_modify, Task.run_lift]
        rcases parsed : Packet.parse raw with failure | received
        · exact passed overdue
        · refine ⟨passed overdue, fun packet same control => ?_⟩
          subst same
          exact handles.arrived self raw overdue packet held
            (arrivals ▸ List.mem_cons_self) parsed control

/-! ### The control channel -/

theorem sendAck (packetId : UInt32) : Task.Preserves invariant (sendAck packetId : Act σ Unit) := by
  refine Task.Preserves.bind (handles.update fun control => ?_) fun _ => ?_
  · unfold recordAck
    split <;> exact ⟨_, _, _, rfl⟩
  · exact Task.Preserves.bind (Task.Preserves.gets _) fun _ => handles.sendRaw _

theorem sendControl (payload : Bytes) :
    Task.Preserves invariant (sendControl payload : Act σ Unit) := by
  apply Task.Preserves.bind (Task.Preserves.gets _)
  intro self
  exact Task.Preserves.bind (handles.update fun _ => ⟨_, _, _, rfl⟩) fun _ => handles.sendRaw _

theorem sendControlChunks (data : Bytes) :
    Task.Preserves invariant (sendControlChunks data : Act σ Unit) := by
  refine Task.Preserves.loop (fun offset => ?_) 0
  split
  · exact Task.Preserves.bind (handles.sendControl _) fun _ => Task.Preserves.pure _
  · exact Task.Preserves.pure _

theorem retransmitControl : Task.Preserves invariant (retransmitControl : Act σ Unit) := by
  apply Task.Preserves.bind (Task.Preserves.gets _)
  intro self
  apply Task.Preserves.bind (handles.log rfl)
  intro _
  split
  · exact Task.Preserves.pure _
  · exact Task.Preserves.bind (handles.update fun _ => ⟨_, _, _, rfl⟩)
      fun _ => handles.sendRaw _

theorem flushTls : Task.Preserves invariant (flushTls : Act σ Unit) :=
  preserves_flushTls handles.takes handles.sendControl

theorem handleControl (packet : Packet) (known : genuine packet.packetId packet.payload) :
    Task.Preserves invariant (handleControl engine packet) := by
  apply Task.Preserves.bind (handles.sendAck _)
  intro _
  apply Task.Preserves.bind (handles.accepts _ _ known)
  intro _
  exact Task.Preserves.bind handles.drives fun _ => handles.flushTls

theorem pump : Task.Preserves invariant (pump engine) := by
  refine Task.Preserves.loop (fun _ => ?_) ()
  apply Task.Preserves.bind handles.deadlinePassed
  intro passed
  split
  · exact Task.Preserves.throw _
  · refine known_bind handles.recvPacket fun received known => ?_
    cases received with
    | none =>
        apply Task.Preserves.bind (Task.Preserves.gets _)
        intro self
        split
        · exact Task.Preserves.bind handles.retransmitControl fun _ => Task.Preserves.pure _
        · exact Task.Preserves.pure _
    | some packet =>
        dsimp only
        split
        case isTrue control =>
          exact Task.Preserves.bind (handles.handleControl packet (known packet rfl control))
            fun _ => Task.Preserves.pure _
        case isFalse => exact Task.Preserves.pure _

theorem driveTls : Task.Preserves invariant (driveTls engine) := by
  refine Task.Preserves.loop (fun _ => ?_) ()
  apply Task.Preserves.bind handles.drives
  intro _
  apply Task.Preserves.bind handles.takes
  intro outbound
  have rest : Task.Preserves invariant (do
      let self ← Task.gets Session.control
      if self.tls.isReady then
        return .inr ()
      else if ← Session.deadlinePassed then
        Task.throw .timeout
      else
        Session.pump engine
        return .inl () : Act σ (Unit ⊕ Unit)) := by
    apply Task.Preserves.bind (Task.Preserves.gets _)
    intro self
    split
    · exact Task.Preserves.pure _
    · apply Task.Preserves.bind handles.deadlinePassed
      intro passed
      split
      · exact Task.Preserves.throw _
      · exact Task.Preserves.bind handles.pump fun _ => Task.Preserves.pure _
  split
  · exact Task.Preserves.bind (handles.sendControlChunks _) fun _ => rest
  · exact rest

/-- A turn of a loop that waits for a message of the server. -/
theorem turn {α : Type} {next : Option Bytes → Act σ α}
    (each : ∀ chunk, Task.Preserves invariant (next chunk)) :
    Task.Preserves invariant (do
      if ← Session.deadlinePassed then
        Task.throw .timeout
      else
        Session.pump engine
        let chunk ← takePlaintext
        next chunk : Act σ α) := by
  apply Task.Preserves.bind handles.deadlinePassed
  intro passed
  split
  · exact Task.Preserves.throw _
  · apply Task.Preserves.bind handles.pump
    intro _
    exact Task.Preserves.bind handles.reads each

/-- The randoms arrive in a state of the invariant. -/
theorem exchangeKeys (profile : Profile) (secrets : ClientSecrets) :
    Task.Triple invariant (exchangeKeys engine profile secrets)
      (fun _ self => ∃ before randoms, invariant before ∧ self = seedWith secrets randoms before)
      fun _ => invariant := by
  apply Task.Triple.bind (Task.Preserves.lift _)
  intro payload
  apply Task.Triple.bind (handles.writes _)
  intro _
  apply Task.Triple.bind handles.takes
  intro outbound
  apply Task.Triple.bind (handles.sendControlChunks _)
  intro _
  refine Task.Triple.bind (?_ : Task.Preserves invariant _) ?_
  · refine Task.Preserves.loop (fun buffer => ?_) _
    apply handles.turn
    intro chunk
    apply Task.Preserves.bind (Task.Preserves.lift _)
    intro found
    cases found with
    | none => exact Task.Preserves.pure _
    | some randoms => exact Task.Preserves.pure _
  rintro randoms self held
  exact ⟨self, randoms, held, rfl⟩

theorem pushRequest : Task.Preserves invariant (pushRequest engine) := by
  apply Task.Preserves.bind (handles.writes _)
  intro _
  apply Task.Preserves.bind handles.flushTls
  intro _
  refine Task.Preserves.loop (fun buffer => ?_) _
  apply handles.turn
  intro chunk
  dsimp only
  split
  · exact Task.Preserves.pure _
  · split
    · exact Task.Preserves.throw _
    · exact Task.Preserves.pure _

end Handles

namespace Survives

variable {engine : Engine σ} {genuine : UInt32 → Bytes → Prop} {invariant : Session σ → Prop}
  (survives : Survives engine genuine invariant)

include survives

theorem updateData {change : Control σ → Control σ}
    (same : ∀ control, ∃ keys seed sendCounter replay,
      change control = { control with keys, seed, sendCounter, replay }) :
    Task.Preserves invariant (update change) :=
  Task.Preserves.modify fun self held => by
    obtain ⟨keys, seed, sendCounter, replay, same⟩ := same self.control
    rw [same]
    exact survives.data self keys seed sendCounter replay held

theorem exchangeKeys (profile : Profile) (secrets : ClientSecrets) :
    Task.Preserves invariant (exchangeKeys engine profile secrets) :=
  (survives.toHandles.exchangeKeys profile secrets).weaken (fun _ held => held)
    (fun _ _ held => by
      obtain ⟨before, randoms, held, rfl⟩ := held
      exact survives.data before before.control.keys _ before.control.sendCounter
        before.control.replay held)
    fun _ _ held => held

/-! ### The data channel -/

theorem installKeys (crypto : Crypto) :
    Task.Preserves invariant (installKeys crypto : Act σ Unit) := by
  apply Task.Preserves.bind (Task.Preserves.gets _)
  intro self
  refine Task.Preserves.bind (survives.updateData fun _ => ?_) fun _ => ?_
  · exact ⟨_, _, _, _, rfl⟩
  apply Task.Preserves.bind (Task.Preserves.lift _)
  intro seed
  apply Task.Preserves.bind (Task.Preserves.lift _)
  intro keys
  apply Task.Preserves.bind (Task.Preserves.lift _)
  intro encrypt
  apply Task.Preserves.bind (Task.Preserves.lift _)
  intro decrypt
  exact survives.updateData fun _ => ⟨_, _, _, _, rfl⟩

theorem sendData (crypto : Crypto) (iv : Vector UInt8 16) (payload : Bytes) :
    Task.Preserves invariant (sendData crypto iv payload : Act σ Unit) := by
  refine Task.Preserves.bind (survives.updateData fun _ => ?_) fun _ => ?_
  · exact ⟨_, _, _, _, rfl⟩
  apply Task.Preserves.bind (Task.Preserves.gets _)
  intro self
  apply Task.Preserves.bind (Task.Preserves.lift _)
  intro keys
  apply Task.Preserves.bind (Task.Preserves.lift _)
  intro encrypted
  split
  · exact Task.Preserves.bind (survives.log rfl) fun _ => survives.sendRaw _
  · exact survives.sendRaw _

theorem recvData (crypto : Crypto) : Task.Preserves invariant (recvData crypto engine) := by
  have accepted (keys : Keys) (packet : Packet) :
      Task.Preserves invariant (acceptData crypto keys packet) := by
    apply Task.Preserves.bind (Task.Preserves.lift _)
    intro decrypted
    apply Task.Preserves.bind (Task.Preserves.gets _)
    intro self
    exact Task.Preserves.bind (survives.updateData fun _ => ⟨_, _, _, _, rfl⟩)
      fun _ => Task.Preserves.pure _
  refine Task.Preserves.loop (fun _ => ?_) ()
  apply Task.Preserves.bind survives.deadlinePassed
  intro passed
  split
  · exact Task.Preserves.pure _
  · refine Handles.known_bind survives.recvPacket fun received known => ?_
    cases received with
    | none => exact Task.Preserves.pure _
    | some packet =>
        show Task.Preserves invariant (handlePacket crypto engine packet)
        unfold handlePacket
        split
        · apply Task.Preserves.bind (Task.Preserves.gets _)
          intro self
          split
          · exact Task.Preserves.pure _
          · apply Task.Preserves.bind (accepted _ _)
            intro plaintext
            split
            · exact Task.Preserves.pure _
            · exact Task.Preserves.pure _
        · split
          case isTrue control =>
            exact Task.Preserves.bind (survives.handleControl packet (known packet rfl control))
              fun _ => Task.Preserves.pure _
          case isFalse =>
            split
            · exact Task.Preserves.bind (survives.sendAck _) fun _ => Task.Preserves.pure _
            · exact Task.Preserves.pure _

end Survives

/-! ### Calls -/

/-- A call of the handshake or of the data channel. -/
inductive Work where
  | handshake (step : Step)
  | installKeys
  | sendData (iv : Vector UInt8 16) (payload : Bytes)
  | recvData

/-- The session a call leaves behind, however it ends. -/
def Work.run (crypto : Crypto) (engine : Engine σ) (self : Session σ) : Work → Session σ
  | .handshake step => step.run engine self
  | .installKeys => (Session.installKeys crypto self).2
  | .sendData iv payload => (Session.sendData crypto iv payload self).2
  | .recvData => (Session.recvData crypto engine self).2

theorem Survives.run {engine : Engine σ} {genuine : UInt32 → Bytes → Prop}
    {invariant : Session σ → Prop} (survives : Survives engine genuine invariant)
    (crypto : Crypto) (work : Work) {self : Session σ} (held : invariant self) :
    invariant (work.run crypto engine self) := by
  cases work with
  | handshake step =>
      cases step with
      | driveTls => exact survives.driveTls.final held
      | exchangeKeys profile secrets => exact (survives.exchangeKeys profile secrets).final held
      | flushTls => exact survives.flushTls.final held
      | pushRequest => exact survives.pushRequest.final held
      | pump => exact survives.pump.final held
  | installKeys => exact (survives.installKeys crypto).final held
  | sendData iv payload => exact (survives.sendData crypto iv payload).final held
  | recvData => exact (survives.recvData crypto).final held

/-! ### The outgoing stream -/

private theorem controlPayload_of_data {byte : UInt8} {rest : Bytes}
    (opcode : IsData (byte >>> 3)) : controlPayload (byte :: rest) = none := by
  by_cases short : (byte :: rest).length < linkHeaderLen (byte >>> 3) + 4
  · rw [controlPayload, Packet.parse_data_short opcode short]
  · have parts : byte :: rest.take (linkHeaderLen (byte >>> 3) + 3) ++
        rest.drop (linkHeaderLen (byte >>> 3) + 3) = byte :: rest := by
      rw [List.cons_append, List.take_append_drop]
    have length : (byte :: rest.take (linkHeaderLen (byte >>> 3) + 3)).length =
        linkHeaderLen (byte >>> 3) + 4 := by
      simp only [List.length_cons, List.length_take] at short ⊢
      omega
    rw [controlPayload, ← parts, Packet.parse_data opcode length]
    dsimp only
    rw [if_neg]
    rintro control
    rw [control] at opcode
    exact absurd opcode (by decide)

/-- A data packet is none of the control channel's. -/
theorem controlPayload_dataHeader (cipher : Cipher) (peerId : PeerId) (rest : Bytes) :
    controlPayload (dataHeader cipher 0 peerId ++ rest) = none := by
  unfold dataHeader
  split
  · exact controlPayload_of_data (by decide)
  · exact controlPayload_of_data (by decide)

theorem streams_sendData {backlog : Bytes} (crypto : Crypto) (iv : Vector UInt8 16)
    (payload : Bytes) : Task.Preserves (Streams backlog) (sendData crypto iv payload : Act σ Unit) := by
  refine Task.Preserves.bind (streams_update fun _ => ?_) fun _ => ?_
  · rfl
  apply Task.Preserves.bind (Task.Preserves.gets _)
  intro self
  apply Task.Preserves.bind (Task.Preserves.lift _)
  intro keys
  apply Task.Preserves.bind (Task.Preserves.lift _)
  intro encrypted
  have sent : Task.Preserves (Streams backlog)
      (Session.sendRaw (dataHeader self.cipher 0 self.peerId ++ u32ToBe self.sendCounter ++
        encrypted) : Act σ Unit) := by
    apply streams_sendRaw
    rw [List.append_assoc]
    exact controlPayload_dataHeader _ _ _
  split
  · refine Task.Preserves.bind (Task.Preserves.modify fun self held calm => ?_) fun _ => sent
    rcases held (calm_append.mp calm).1 with ⟨payloads, packets, next, stream⟩
    exact ⟨payloads, by rw [controls_append, packets]; exact List.append_nil _, next,
      by rw [taken_append, stream]; exact (List.append_nil _).symm⟩
  · exact sent

theorem streams_installKeys {backlog : Bytes} (crypto : Crypto) :
    Task.Preserves (Streams backlog) (installKeys crypto : Act σ Unit) := by
  apply Task.Preserves.bind (Task.Preserves.gets _)
  intro self
  refine Task.Preserves.bind (streams_update fun _ => ?_) fun _ => ?_
  · rfl
  apply Task.Preserves.bind (Task.Preserves.lift _)
  intro seed
  apply Task.Preserves.bind (Task.Preserves.lift _)
  intro keys
  apply Task.Preserves.bind (Task.Preserves.lift _)
  intro encrypt
  apply Task.Preserves.bind (Task.Preserves.lift _)
  intro decrypt
  exact streams_update fun _ => rfl

theorem streams_recvData (crypto : Crypto) (engine : Engine σ) :
    Task.Preserves (Streams []) (recvData crypto engine) := by
  have accepted (keys : Keys) (packet : Packet) :
      Task.Preserves (Streams []) (acceptData crypto keys packet : Act σ (Option Bytes)) := by
    apply Task.Preserves.bind (Task.Preserves.lift _)
    intro decrypted
    apply Task.Preserves.bind (Task.Preserves.gets _)
    intro self
    exact Task.Preserves.bind (streams_update fun _ => rfl) fun _ => Task.Preserves.pure _
  refine Task.Preserves.loop (fun _ => ?_) ()
  apply Task.Preserves.bind streams_deadlinePassed
  intro passed
  split
  · exact Task.Preserves.pure _
  · apply Task.Preserves.bind streams_recvPacket
    intro received
    cases received with
    | none => exact Task.Preserves.pure _
    | some packet =>
        show Task.Preserves (Streams []) (handlePacket crypto engine packet)
        unfold handlePacket
        split
        · apply Task.Preserves.bind (Task.Preserves.gets _)
          intro self
          split
          · exact Task.Preserves.pure _
          · apply Task.Preserves.bind (accepted _ _)
            intro plaintext
            split
            · exact Task.Preserves.pure _
            · exact Task.Preserves.pure _
        · split
          · exact Task.Preserves.bind (streams_handleControl _ _) fun _ => Task.Preserves.pure _
          · split
            · exact Task.Preserves.bind (streams_sendAck _) fun _ => Task.Preserves.pure _
            · exact Task.Preserves.pure _

theorem streams_work (crypto : Crypto) (engine : Engine σ) (work : Work) {self : Session σ}
    (held : Streams [] self) : Streams [] (work.run crypto engine self) := by
  cases work with
  | handshake step => exact streams_step engine step held
  | installKeys => exact (streams_installKeys crypto).final held
  | sendData iv payload => exact (streams_sendData crypto iv payload).final held
  | recvData => exact (streams_recvData crypto engine).final held

end Session

end Unroxy.OpenVpn
