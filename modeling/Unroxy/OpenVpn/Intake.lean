import Unroxy.OpenVpn.ControlAck

/-!
Owns the receiving side of the control channel on its own: the payloads handed to
TLS, the counter, the buffer and the acknowledged ids, and what a packet that
`pump` or `recv_data` handles does to them.

Two things are not of the receiving side: whether the acknowledgement of a packet
can be sent, and whether TLS takes data. They come with the packet. `hear_intake`
says that every call on a session is such a step.

Does not own the sending side, and what TLS does with the payloads.
-/

namespace Unroxy.OpenVpn

open Unroxy.Lib

structure Intake where
  /-- The payloads handed to `feed`, in order. -/
  fed : List Bytes
  recvNext : UInt32
  reorder : Std.TreeMap UInt32 Bytes
  acked : List UInt32

/-- A packet that a call handles. -/
structure Heard where
  caller : Session.Caller
  packet : Packet
  /-- `send_ack` does not fail. -/
  sent : Bool
  /-- `feed` does not fail. -/
  isOpen : Bool
deriving DecidableEq, Repr

namespace Intake

/-- Once the server's reset has arrived. -/
def start (resetId : UInt32) : Intake where
  fed := []
  recvNext := resetId + 1
  reorder := ∅
  acked := [resetId]

/-- `record_ack`. -/
def recordAck (self : Intake) (packetId : UInt32) : Intake :=
  if packetId ∈ self.acked then
    self
  else
    { self with acked := (packetId :: self.acked).take maxAcks }

/-- The payload whose turn it is. -/
def feed (self : Intake) (payload : Bytes) : Intake :=
  { self with fed := self.fed ++ [payload], recvNext := self.recvNext + 1 }

/-- The loop of `accept_control`, for at most this many turns. -/
def drain : Nat → Intake → Intake
  | 0, self => self
  | turns + 1, self =>
      match self.reorder[self.recvNext]? with
      | none => self
      | some payload =>
          drain turns ({ self with reorder := self.reorder.erase self.recvNext }.feed payload)

def acceptControl (self : Intake) (isOpen : Bool) (packetId : UInt32) (payload : Bytes) :
    Intake :=
  if packetId < self.recvNext then
    self
  else if packetId > self.recvNext then
    if self.reorder.size < reorderLimit then
      { self with reorder := self.reorder.insert packetId payload }
    else
      self
  else if isOpen then
    drain self.reorder.size (self.feed payload)
  else
    self

/-- What `pump` and `recv_data` do with a packet. Only `recv_data` acknowledges a
reset. -/
def handle (self : Intake) (heard : Heard) : Intake :=
  if heard.packet.opcode = pControlV1 then
    let noted := self.recordAck heard.packet.packetId
    if heard.sent then
      noted.acceptControl heard.isOpen heard.packet.packetId heard.packet.payload
    else
      noted
  else if heard.packet.opcode = pControlHardResetServerV2 ∧ heard.caller = .recvData then
    self.recordAck heard.packet.packetId
  else
    self

end Intake

theorem TlsState.feed_closed {σ : Type} (engine : Engine σ) {state : TlsState σ}
    (closed : ¬ state.Open) (payload : Bytes) :
    feed engine payload state = (.error (.tls "tls closed"), state) := by
  have parts : state.handshake = none ∧ state.stream = none := by
    simpa [Open] using closed
  simp only [feed, Task.run_bind, Task.run_gets, id, parts.1, parts.2]
  rfl

/-- TLS once it has been driven and, unless that failed, flushed. -/
def TlsState.settle {σ : Type} (engine : Engine σ) (state : TlsState σ) : TlsState σ :=
  match drive engine state with
  | (.ok (), after) => after.takeOutbound.2
  | (_, after) => after

/-- What became of TLS in a call that handed it these payloads: it was driven and
flushed, or the call ended before that. -/
def TlsState.Took {σ : Type} (engine : Engine σ) (before : TlsState σ) (feeds : List Bytes)
    (after : TlsState σ) : Prop :=
  after = settle engine (feedAll engine feeds before).2 ∨ feeds = [] ∧ after = before

namespace Session

variable {σ : Type} {engine : Engine σ}

/-- The receiving side of a session whose TLS was handed these payloads. -/
def intake (self : Session σ) (fed : List Bytes) : Intake where
  fed
  recvNext := self.control.recvNext
  reorder := self.control.reorder
  acked := self.control.acked

/-! ### `accept_control` -/

/-- The loop of `accept_control` under way: what it handed to TLS so far, and that
the rest of it leads to `target`. -/
structure Drains (engine : Engine σ) (origin : Session σ) (fed : List Bytes) (target : Intake)
    (session : Session σ) (feeds : List Bytes) : Prop where
  frame : session = origin.received session.control.tls session.control.recvNext
    session.control.reorder
  done : TlsState.feedAll engine feeds origin.control.tls = (.ok (), session.control.tls)
  isOpen : session.control.tls.Open
  rest : (session.intake (fed ++ feeds)).drain session.control.reorder.size = target

theorem Drains.turn {origin : Session σ} {fed : List Bytes} {target : Intake}
    {self : Session σ} {feeds : List Bytes} (drains : Drains engine origin fed target self feeds) :
    (self.control.reorder[self.control.recvNext]? = none ∧
        self.intake (fed ++ feeds) = target) ∨
      ∃ payload tls, self.control.reorder[self.control.recvNext]? = some payload ∧
        TlsState.feed engine payload self.control.tls = (.ok (), tls) ∧
        Drains engine origin fed target (self.received tls (self.control.recvNext + 1)
          (self.control.reorder.erase self.control.recvNext)) (feeds ++ [payload]) ∧
        (self.control.reorder.erase self.control.recvNext).size < self.control.reorder.size := by
  have rest := drains.rest
  cases entry : self.control.reorder[self.control.recvNext]? with
  | none =>
      refine .inl ⟨rfl, ?_⟩
      cases size : self.control.reorder.size with
      | zero =>
          rw [size] at rest
          exact rest
      | succ turns =>
          have missing : (self.intake (fed ++ feeds)).reorder[
            (self.intake (fed ++ feeds)).recvNext]? = none := entry
          rw [size, Intake.drain, missing] at rest
          exact rest
  | some payload =>
      have smaller := size_erase_of_entry entry
      have found : (self.intake (fed ++ feeds)).reorder[
        (self.intake (fed ++ feeds)).recvNext]? = some payload := entry
      rcases TlsState.feed_open engine drains.isOpen payload with ⟨tls, fedNow, isOpen⟩
      refine .inr ⟨payload, tls, rfl, fedNow, ⟨?_, ?_, isOpen, ?_⟩, by omega⟩
      · rw [drains.frame]
        rfl
      · rw [TlsState.feedAll_append _ _ drains.done, TlsState.feedAll, Task.run_bind_ok fedNow]
        rfl
      · rw [← smaller, Intake.drain, found] at rest
        rw [← List.append_assoc]
        exact rest

theorem drainReorder_intake {origin : Session σ} {fed : List Bytes} {target : Intake} :
    Task.Triple (fun self => ∃ feeds, Drains engine origin fed target self feeds)
      (drainReorder engine)
      (fun _ self => ∃ feeds, Drains engine origin fed target self feeds ∧
        self.intake (fed ++ feeds) = target)
      (fun _ _ => False) := by
  refine Task.Triple.loop (fun _ self => ∃ feeds, Drains engine origin fed target self feeds)
    (fun _ self => self.control.reorder.size) (fun _ _ => le_rfl) fun _ bound => ?_
  rintro self ⟨⟨feeds, drains⟩, rfl⟩
  simp only [Task.run_bind, Task.run_gets]
  rcases drains.turn with ⟨missing, atTarget⟩ | ⟨payload, tls', found, fedNow, next, smaller⟩
  · rw [missing]
    exact ⟨feeds, drains, atTarget⟩
  · rw [found]
    simp only [update, tls, Task.zoom, Task.run_bind, Task.run_modify, Task.run_pure, fedNow]
    exact ⟨⟨_, next⟩, smaller⟩

/-- The packet whose turn it is, and the loop behind it. -/
theorem acceptDue_intake (engine : Engine σ) (self : Session σ) (fed : List Bytes)
    (payload : Bytes) (isOpen : self.control.tls.Open) :
    ∃ feeds after, (do
        tls (TlsState.feed engine payload)
        update fun control => { control with recvNext := control.recvNext + 1 }
        drainReorder engine : Act σ Unit) self = (.ok (), after) ∧
      after.intake (fed ++ feeds) =
        ((self.intake fed).feed payload).drain self.control.reorder.size ∧
      after.control.tls = (TlsState.feedAll engine feeds self.control.tls).2 := by
  rcases TlsState.feed_open engine isOpen payload with ⟨fedTls, fedNow, fedOpen⟩
  let due := self.received fedTls (self.control.recvNext + 1) self.control.reorder
  have begins : Drains engine due (fed ++ [payload])
      (((self.intake fed).feed payload).drain self.control.reorder.size) due [] := by
    refine ⟨rfl, rfl, fedOpen, ?_⟩
    rw [List.append_nil]
    rfl
  rcases (@drainReorder_intake σ engine _ _ _).ends ⟨[], begins⟩ with
    ⟨_, after, ran, feeds, drains, reached⟩
  refine ⟨payload :: feeds, after, ?_, ?_, ?_⟩
  · simp only [tls, Task.zoom, update, Task.run_bind, Task.run_modify, fedNow]
    exact ran
  · rw [← reached, List.append_assoc]
    rfl
  · rw [TlsState.feedAll, Task.run_bind_ok fedNow]
    exact (congrArg Prod.snd drains.done).symm

/-- A call of `accept_control` is a step of the receiving side, and hands TLS what
the step adds. A call that fails hands it nothing. -/
theorem acceptControl_intake (engine : Engine σ) (self : Session σ) (fed : List Bytes)
    (packetId : UInt32) (payload : Bytes) :
    ∃ feeds, (acceptControl engine packetId payload self).2.intake (fed ++ feeds) =
        (self.intake fed).acceptControl (decide self.control.tls.Open) packetId payload ∧
      (acceptControl engine packetId payload self).2.control.tls =
        (TlsState.feedAll engine feeds self.control.tls).2 ∧
      ((acceptControl engine packetId payload self).1 = .ok () ∨ feeds = []) := by
  have nothing : self.intake (fed ++ []) = self.intake fed := by rw [List.append_nil]
  have next : (self.intake fed).recvNext = self.control.recvNext := rfl
  have size : (self.intake fed).reorder.size = self.control.reorder.size := rfl
  simp only [acceptControl, Intake.acceptControl, Task.run_bind, Task.run_gets, next, size]
  by_cases behind : packetId < self.control.recvNext
  · simp only [if_pos behind]
    exact ⟨[], nothing, rfl, .inr rfl⟩
  simp only [if_neg behind]
  by_cases ahead : packetId > self.control.recvNext
  · simp only [if_pos ahead]
    by_cases room : self.control.reorder.size < reorderLimit
    · simp only [if_pos room]
      refine ⟨[], ?_, rfl, .inr rfl⟩
      rw [List.append_nil]
      rfl
    · simp only [if_neg room]
      exact ⟨[], nothing, rfl, .inr rfl⟩
  simp only [if_neg ahead]
  by_cases isOpen : self.control.tls.Open
  · simp only [isOpen, decide_true, if_true]
    rcases acceptDue_intake engine self fed payload isOpen with ⟨feeds, after, ran, reached, fedTls⟩
    rw [ran]
    exact ⟨feeds, reached, fedTls, .inl rfl⟩
  · simp only [isOpen, decide_false, Bool.false_eq_true, if_false, tls, Task.zoom, Task.run_bind,
      TlsState.feed_closed engine isOpen payload]
    exact ⟨[], nothing, rfl, .inr rfl⟩

/-! ### The calls -/

/-- A packet on the wire and as the call reads it. -/
structure PacketArrival where
  caller : Caller
  raw : Bytes
  packet : Packet
  parsed : Packet.parse raw = .ok (some packet)

/-- The session once the call has dealt with the packet. -/
def hear (crypto : Crypto) (engine : Engine σ) (self : Session σ) (arrival : PacketArrival) :
    Session σ :=
  match arrival.caller with
  | .pump => (pump engine (self.expecting arrival.raw)).2
  | .recvData => (recvData crypto engine (self.expecting arrival.raw)).2

/-- The packet with what this session adds to it. -/
def heardBy (self : Session σ) (arrival : PacketArrival) : Heard where
  caller := arrival.caller
  packet := arrival.packet
  sent := !self.faults.headD false
  isOpen := decide self.control.tls.Open

theorem sendAck_intake (packetId : UInt32) (self : Session σ) (fed : List Bytes) :
    (sendAck packetId self).2.intake fed = (self.intake fed).recordAck packetId := by
  obtain ⟨after, control, outcome⟩ := run_sendAck packetId self
  have noted : after.intake fed = (self.intake fed).recordAck packetId := by
    rw [intake, control, recordAck, Intake.recordAck]
    have acked : (self.intake fed).acked = self.control.acked := rfl
    rw [acked]
    split
    · rfl
    · rfl
  rcases outcome with ⟨-, ran, -⟩ | ⟨-, ran, -⟩
  · rw [ran]
    exact noted
  · rw [ran]
    exact noted

theorem tls_sendAck (packetId : UInt32) (self : Session σ) :
    (sendAck packetId self).2.control.tls = self.control.tls := by
  obtain ⟨after, control, outcome⟩ := run_sendAck packetId self
  have same : after.control.tls = self.control.tls := by
    rw [control, recordAck]
    split
    · rfl
    · rfl
  rcases outcome with ⟨-, ran, -⟩ | ⟨-, ran, -⟩
  · rw [ran]
    exact same
  · rw [ran]
    exact same

/-- `drive` and `flush_tls` are not of the receiving side. -/
theorem intake_driveFlush (engine : Engine σ) (fed : List Bytes) (target : Intake) :
    Task.Preserves (fun self : Session σ => self.intake fed = target)
      (do tls (TlsState.drive engine); flushTls) := by
  have driven : Task.Preserves (fun self : Session σ => self.intake fed = target)
      (tls (TlsState.drive engine)) :=
    Task.Preserves.zoom fun _ _ held => held
  exact Task.Preserves.bind driven fun _ =>
    preserves_flushTls_of_blind fun _ _ _ _ _ _ held => held

/-- Whatever becomes of the packets it sends, a flush takes what TLS has written. -/
theorem tls_flushTls (self : Session σ) :
    (flushTls self).2.control.tls = self.control.tls.takeOutbound.2 := by
  have sent : Task.Preserves
      (fun after : Session σ => after.control.tls = self.control.tls.takeOutbound.2)
      (sendControlChunks self.control.tls.takeOutbound.1) :=
    preserves_sendControlChunks (preserves_sendControl fun _ _ _ _ _ same => same) _
  have taken : ∃ after, takeOutbound self = (.ok self.control.tls.takeOutbound.1, after) ∧
      after.control.tls = self.control.tls.takeOutbound.2 := ⟨_, rfl, rfl⟩
  obtain ⟨after, took, flushed⟩ := taken
  rw [flushTls, Task.run_bind_ok took]
  split
  · exact flushed
  · exact sent.final flushed

/-- Driving and flushing, on TLS. -/
theorem tls_driveFlush (engine : Engine σ) (self : Session σ) :
    ((do tls (TlsState.drive engine); flushTls : Act σ Unit) self).2.control.tls =
      self.control.tls.settle engine := by
  simp only [tls, Task.zoom, Task.run_bind, TlsState.settle]
  rcases TlsState.drive engine self.control.tls with ⟨outcome, driven⟩
  cases outcome with
  | ok value => exact tls_flushTls _
  | error failure => rfl
  | panic => rfl
  | pending => rfl

/-- The control arm, on the receiving side. -/
theorem handleControl_intake (engine : Engine σ) (self : Session σ) (fed : List Bytes)
    (packet : Packet) :
    ∃ feeds, (handleControl engine packet self).2.intake (fed ++ feeds) =
        (let noted := (self.intake fed).recordAck packet.packetId
         if !self.faults.headD false then
           noted.acceptControl (decide self.control.tls.Open) packet.packetId packet.payload
         else noted) ∧
      (feeds ≠ [] → ∃ noted, sendAck packet.packetId self = (.ok (), noted) ∧
        (acceptControl engine packet.packetId packet.payload noted).2.control.tls =
          (TlsState.feedAll engine feeds noted.control.tls).2) ∧
      self.control.tls.Took engine feeds (handleControl engine packet self).2.control.tls := by
  obtain ⟨noted, control, outcome⟩ := run_sendAck packet.packetId self
  have recorded := sendAck_intake packet.packetId self fed
  have sameTls := tls_sendAck packet.packetId self
  rcases outcome with ⟨fault, ran, -⟩ | ⟨fault, ran, -⟩
  · rw [ran] at recorded sameTls
    refine ⟨[], ?_, fun more => absurd rfl more, .inr ⟨rfl, ?_⟩⟩
    · rw [handleControl, Task.run_bind, ran, List.append_nil, fault]
      exact recorded
    · rw [handleControl, Task.run_bind, ran]
      exact sameTls
  · rw [ran] at recorded sameTls
    have recordedHere : noted.intake fed = (self.intake fed).recordAck packet.packetId := recorded
    have sameHere : noted.control.tls = self.control.tls := sameTls
    obtain ⟨feeds, reached, fedTls, ending⟩ :=
      acceptControl_intake engine noted fed packet.packetId packet.payload
    refine ⟨feeds, ?_, fun _ => ⟨noted, ran, fedTls⟩, ?_⟩
    all_goals
      rw [recordedHere, sameHere] at reached
      rw [sameHere] at fedTls
      rw [handleControl, Task.run_bind_ok ran, Task.run_bind]
      rcases accepted : acceptControl engine packet.packetId packet.payload noted with
        ⟨outcome, after⟩
      rw [accepted] at reached fedTls ending
    · rw [fault]
      cases outcome with
      | ok value => exact (intake_driveFlush engine (fed ++ feeds) _).final reached
      | error failure => exact reached
      | panic => exact reached
      | pending => exact reached
    · have unfed (none_fed : feeds = []) : after.control.tls = self.control.tls := by
        rw [none_fed] at fedTls
        exact fedTls
      cases outcome with
      | ok value =>
          refine .inl ?_
          have driven := tls_driveFlush engine after
          rw [show after.control.tls = _ from fedTls] at driven
          exact driven
      | error _ | panic | pending =>
          have none_fed := ending.resolve_left (by simp)
          exact .inr ⟨none_fed, unfed none_fed⟩

/-- The data arm leaves the receiving side and TLS alone. -/
theorem acceptData_intake (crypto : Crypto) (keys : Keys) (packet : Packet) (fed : List Bytes)
    (target : Intake) (same : TlsState σ) :
    Task.Preserves (fun self : Session σ => self.intake fed = target ∧ self.control.tls = same)
      (acceptData crypto keys packet) := by
  apply Task.Preserves.bind (Task.Preserves.lift _)
  intro decrypted
  apply Task.Preserves.bind (Task.Preserves.gets _)
  intro self
  exact Task.Preserves.bind (Task.Preserves.modify fun _ held => held) fun _ =>
    Task.Preserves.pure _

/-- A packet of any other kind. -/
theorem handlePacket_intake (crypto : Crypto) (engine : Engine σ) (self : Session σ)
    (fed : List Bytes) {packet : Packet} (other : packet.opcode ≠ pControlV1) :
    ((handlePacket crypto engine packet self).2.intake fed =
      if packet.opcode = pControlHardResetServerV2 then
        (self.intake fed).recordAck packet.packetId
      else self.intake fed) ∧
    (handlePacket crypto engine packet self).2.control.tls = self.control.tls := by
  by_cases data : IsData packet.opcode
  · have noReset : packet.opcode ≠ pControlHardResetServerV2 := by
      intro reset
      rw [reset] at data
      revert data
      decide
    have kept : Task.Preserves (fun later : Session σ =>
        later.intake fed = self.intake fed ∧ later.control.tls = self.control.tls)
        (handlePacket crypto engine packet) := by
      unfold handlePacket
      rw [if_pos data]
      apply Task.Preserves.bind (Task.Preserves.gets _)
      intro control
      split
      · exact Task.Preserves.pure _
      · apply Task.Preserves.bind (acceptData_intake crypto _ packet fed _ _)
        intro plaintext
        split
        · exact Task.Preserves.pure _
        · exact Task.Preserves.pure _
    rw [if_neg noReset]
    exact kept.final ⟨rfl, rfl⟩
  · unfold handlePacket
    rw [if_neg data, if_neg other]
    split
    · rw [Task.run_bind]
      have recorded := sendAck_intake packet.packetId self fed
      have sameTls := tls_sendAck packet.packetId self
      rcases ran : sendAck packet.packetId self with ⟨outcome, after⟩
      rw [ran] at recorded sameTls
      cases outcome <;> exact ⟨recorded, sameTls⟩
    · exact ⟨rfl, rfl⟩

/-- A call that deals with a packet is a step of the receiving side. What the step
hands to TLS is what `accept_control` feeds, and then TLS is driven and flushed. -/
theorem hear_intake (crypto : Crypto) (engine : Engine σ) (self : Session σ)
    (arrival : PacketArrival) (fed : List Bytes) :
    ∃ feeds, (hear crypto engine self arrival).intake (fed ++ feeds) =
        (self.intake fed).handle (self.heardBy arrival) ∧
      (feeds ≠ [] → ∃ noted, sendAck arrival.packet.packetId self.heard = (.ok (), noted) ∧
        (acceptControl engine arrival.packet.packetId arrival.packet.payload noted).2.control.tls =
          (TlsState.feedAll engine feeds noted.control.tls).2) ∧
      self.control.tls.Took engine feeds (hear crypto engine self arrival).control.tls := by
  by_cases control : arrival.packet.opcode = pControlV1
  · have both : hear crypto engine self arrival =
        (handleControl engine arrival.packet self.heard).2 :=
      deliver_eq crypto engine self
        ⟨arrival.caller, arrival.raw, arrival.packet, arrival.parsed, control⟩
    obtain ⟨feeds, reached, fedTls, took⟩ :=
      handleControl_intake engine self.heard fed arrival.packet
    refine ⟨feeds, ?_, fedTls, both ▸ took⟩
    rw [both, reached]
    exact (if_pos control).symm
  · have other : (hear crypto engine self arrival).intake fed =
          (self.intake fed).handle (self.heardBy arrival) ∧
        (hear crypto engine self arrival).control.tls = self.control.tls := by
      have packet : (self.heardBy arrival).packet = arrival.packet := rfl
      have caller : (self.heardBy arrival).caller = arrival.caller := rfl
      rw [Intake.handle, packet, caller, if_neg control, hear]
      cases arrival.caller with
      | pump =>
          rw [pump_expecting engine arrival.parsed, if_neg control, if_neg (by simp)]
          exact ⟨rfl, rfl⟩
      | recvData =>
          rw [recvData_expecting crypto engine arrival.parsed]
          have handled := handlePacket_intake crypto engine self.heard fed control
          simp only [and_true]
          exact handled
    refine ⟨[], ?_, fun more => absurd rfl more, .inr ⟨rfl, other.2⟩⟩
    rw [List.append_nil]
    exact other.1

/-- Every run of the calls is a run of the receiving side, over the same packets. -/
theorem run_hear_intake (crypto : Crypto) (engine : Engine σ) (arrivals : List PacketArrival) :
    ∀ (self : Session σ) (fed : List Bytes), ∃ heards feeds,
      heards.map (fun heard => (heard.caller, heard.packet)) =
        arrivals.map (fun arrival => (arrival.caller, arrival.packet)) ∧
      (run (hear crypto engine) self arrivals).intake (fed ++ feeds) =
        run Intake.handle (self.intake fed) heards := by
  induction arrivals with
  | nil =>
      intro self fed
      refine ⟨[], [], rfl, ?_⟩
      rw [List.append_nil]
      rfl
  | cons arrival rest inductionHypothesis =>
      intro self fed
      obtain ⟨feeds, step, -, -⟩ := hear_intake crypto engine self arrival fed
      obtain ⟨heards, more, same, reached⟩ :=
        inductionHypothesis (hear crypto engine self arrival) (fed ++ feeds)
      refine ⟨self.heardBy arrival :: heards, feeds ++ more, ?_, ?_⟩
      · rw [List.map_cons, List.map_cons, same]
        rfl
      · rw [run_cons, run_cons, ← step, ← reached, List.append_assoc]

end Session

end Unroxy.OpenVpn
