import Unroxy.OpenVpn.ControlDelivery

/-!
Owns which control packets are acknowledged, and that none of them is lost.

`pump` and `recv_data` send the acknowledgement of a control packet first and
hand the packet to `accept_control` then, which drops it without a word when
`reorder` is full. `Safe` is the invariant: every packet the peer may stop
resending, because an ack block on the wire lists it or the next one will, is
fed or held. A step keeps it unless the packet is `Exposed`.
-/

namespace Unroxy.OpenVpn

open Unroxy.Lib

/-! ### What an ack block says -/

/-- The first `count` words. -/
def readIds : Nat → Bytes → List UInt32
  | 0, _ => []
  | count + 1, bytes =>
      (u32FromBe (bytes.take 4)).toList ++ readIds count (bytes.drop 4)

/-- The packet ids a datagram acknowledges, as the peer reads them. -/
def acknowledgedBy : Bytes → List UInt32
  | [] => []
  | byte :: rest =>
      if byte >>> 3 = pAckV1 ∨ byte >>> 3 = pControlV1 then
        readIds (rest.getD sidSize 0).toNat (rest.drop (sidSize + 1))
      else
        []

theorem readIds_flatMap (ids : List UInt32) (rest : Bytes) :
    readIds ids.length (ids.flatMap u32ToBe ++ rest) = ids := by
  induction ids with
  | nil => rfl
  | cons id ids inductionHypothesis =>
      rw [List.length_cons, readIds, List.flatMap_cons, List.append_assoc,
        List.take_left' (u32ToBe_length id), List.drop_left' (u32ToBe_length id),
        inductionHypothesis, u32FromBe_toBe]
      rfl

/-- An ack block lists the newest acknowledgements. -/
theorem acknowledgedBy_acks {byte : UInt8}
    (listing : byte >>> 3 = pAckV1 ∨ byte >>> 3 = pControlV1) (sessionId remote : SessionId)
    (acked : List UInt32) (rest : Bytes) :
    acknowledgedBy (byte :: (sessionId.toList ++ (encodeAcks acked remote ++ rest))) =
      acked.take maxAcks := by
  have few : min acked.length maxAcks < 2 ^ 8 := by
    unfold maxAcks
    omega
  have taken : (acked.take (min acked.length maxAcks)).length = min acked.length maxAcks := by
    rw [List.length_take]
    omega
  have size : sessionId.toList.length = sidSize := Vector.length_toList
  rw [acknowledgedBy, if_pos listing, encodeAcks]
  rw [List.cons_append, List.cons_append, List.getD_eq_getElem?_getD,
    List.getElem?_append_right (by omega), ← List.drop_drop, List.drop_left' size, size,
    Nat.sub_self, List.getElem?_cons_zero, Option.getD_some, List.drop_one, List.tail_cons,
    UInt8.toNat_ofNat', Nat.mod_eq_of_lt few]
  nth_rewrite 1 [← taken]
  rw [List.append_assoc, readIds_flatMap, Nat.min_comm, List.take_eq_take_iff]
  omega

namespace Session

variable {σ : Type} {engine : Engine σ}

/-- Every packet id acknowledged so far. -/
def acknowledged (history : List Event) : List UInt32 :=
  history.flatMap fun event => match event with
    | .sent datagram => acknowledgedBy datagram
    | _ => []

@[simp] theorem acknowledged_append (history later : List Event) :
    acknowledged (history ++ later) = acknowledged history ++ acknowledged later :=
  List.flatMap_append

/-- The packet has been fed to TLS or is held for later. -/
def Kept (control : Control σ) (id : UInt32) : Prop :=
  id < control.recvNext ∨ id ∈ control.reorder

instance (control : Control σ) (id : UInt32) : Decidable (Kept control id) :=
  inferInstanceAs (Decidable (_ ∨ _))

/-- Nothing that is acknowledged, or will be with the next ack block, is lost. -/
structure Safe (session : Session σ) : Prop where
  mirrored : ∃ receiver, Mirrors receiver session.control
  recorded : ∀ id ∈ session.control.acked, Kept session.control id
  sent : ∀ id ∈ acknowledged session.history, Kept session.control id

/-- The step in which a packet is acknowledged and lost: it is new, and its
acknowledgement fails on the socket, or it is due and TLS is closed or the
counter runs over its last value, or it is early and `reorder` is full. -/
def Exposed (self : Session σ) (packetId : UInt32) : Prop :=
  ¬ Kept self.control packetId ∧
    (self.faults.headD false = true ∨
      (packetId = self.control.recvNext ∧ (¬ self.control.tls.Open ∨
        ∀ id, self.control.recvNext < id → id ∈ self.control.reorder)) ∨
      (packetId ≠ self.control.recvNext ∧ reorderLimit ≤ self.control.reorder.size))

/-! ### The parts of a step -/

private theorem mem_recordAck {control : Control σ} {packetId id : UInt32}
    (found : id ∈ (recordAck packetId control).acked) : id = packetId ∨ id ∈ control.acked := by
  unfold recordAck at found
  split at found
  case isTrue => exact .inr found
  case isFalse => exact List.mem_cons.mp (List.mem_of_mem_take found)

private theorem recordAck_frame (packetId : UInt32) (control : Control σ) :
    (recordAck packetId control).recvNext = control.recvNext ∧
      (recordAck packetId control).reorder = control.reorder ∧
      (recordAck packetId control).tls = control.tls := by
  unfold recordAck
  split <;> exact ⟨rfl, rfl, rfl⟩

/-- `send_ack` records the packet, and puts the record on the wire unless the
socket fails. -/
theorem run_sendAck (packetId : UInt32) (self : Session σ) :
    ∃ after, after.control = recordAck packetId self.control ∧
      (self.faults.headD false = true ∧ sendAck packetId self = (.error .socket, after) ∧
          acknowledged after.history = acknowledged self.history ∨
        self.faults.headD false = false ∧ sendAck packetId self = (.ok (), after) ∧
          acknowledged after.history = acknowledged self.history ++
            (recordAck packetId self.control).acked.take maxAcks) := by
  simp only [sendAck, sendRaw, update, log, Task.run_bind, Task.run_gets, Task.run_modify, id]
  cases self.faults.headD false with
  | true =>
      refine ⟨_, rfl, .inl ⟨rfl, rfl, ?_⟩⟩
      simp [acknowledged]
  | false =>
      refine ⟨_, rfl, .inr ⟨rfl, rfl, ?_⟩⟩
      rw [acknowledged_append]
      congr 1
      have block := @acknowledgedBy_acks (pAckV1 <<< 3) (.inl (by decide))
        (recordAck packetId self.control).sessionId
        (recordAck packetId self.control).remoteSessionId
        (recordAck packetId self.control).acked []
      rw [List.append_nil] at block
      simpa [acknowledged] using block

private theorem Safe.of_same {before after : Session σ} (safe : Safe before)
    (next : after.control.recvNext = before.control.recvNext)
    (map : after.control.reorder = before.control.reorder)
    (recorded : ∀ id ∈ after.control.acked, id ∈ before.control.acked)
    (sent : ∀ id ∈ acknowledged after.history,
      id ∈ acknowledged before.history ∨ id ∈ before.control.acked) : Safe after := by
  have kept (id : UInt32) (before : Kept before.control id) : Kept after.control id := by
    rw [Kept, next, map]
    exact before
  refine ⟨?_, fun id found => kept id (safe.recorded id (recorded id found)), fun id found => ?_⟩
  · rcases safe.mirrored with ⟨receiver, mirrors⟩
    exact ⟨receiver, next ▸ mirrors.next, map ▸ mirrors.held, map ▸ mirrors.size, mirrors.words⟩
  · rcases sent id found with earlier | listed
    · exact kept id (safe.sent id earlier)
    · exact kept id (safe.recorded id listed)

private theorem safe_tls {α : Type} (task : Task (TlsState σ) Error α) :
    Task.Preserves Safe (tls task : Act σ α) :=
  Task.Preserves.zoom fun _ _ safe =>
    safe.of_same rfl rfl (fun _ found => found) fun _ found => .inl found

private theorem safe_sendControl (payload : Bytes) :
    Task.Preserves Safe (sendControl payload : Act σ Unit) := by
  intro self safe
  simp only [sendControl, update, Task.run_bind, Task.run_gets, Task.run_modify]
  obtain ⟨after, run, sameControl, events⟩ | ⟨after, run, sameControl, events⟩ := run_sendRaw
    ((pControlV1 <<< 3) :: (self.control.sessionId.toList ++
      encodeAcks self.control.acked self.control.remoteSessionId) ++
        u32ToBe self.control.nextPacketId ++ payload)
    { self with
      control := { self.control with
                   nextPacketId := self.control.nextPacketId + 1, lastPayload := payload } }
  · rw [run]
    refine safe.of_same (by rw [sameControl]) (by rw [sameControl]) (by
      rw [sameControl]
      exact fun _ found => found) fun id found => ?_
    have block := @acknowledgedBy_acks (pControlV1 <<< 3) (.inr (by decide))
      self.control.sessionId self.control.remoteSessionId self.control.acked
      (u32ToBe self.control.nextPacketId ++ payload)
    rw [events, acknowledged_append, List.mem_append] at found
    refine found.imp_right fun listed => ?_
    simp only [acknowledged, List.flatMap_cons, List.flatMap_nil, List.append_nil,
      List.cons_append, List.append_assoc] at listed
    rw [block] at listed
    exact List.mem_of_mem_take listed
  · rw [run]
    refine safe.of_same (by rw [sameControl]) (by rw [sameControl]) (by
      rw [sameControl]
      exact fun _ found => found) fun id found => .inl ?_
    rw [events, acknowledged_append] at found
    simpa [acknowledged] using found

private theorem safe_flushTls : Task.Preserves Safe (flushTls : Act σ Unit) := by
  refine preserves_flushTls ?_ safe_sendControl
  apply Task.Preserves.bind (Task.Preserves.gets _)
  intro self
  refine Task.Preserves.bind (Task.Preserves.modify fun before safe => ?_) fun _ =>
    Task.Preserves.bind (Task.Preserves.modify fun before safe => ?_) fun _ =>
      Task.Preserves.pure _
  · exact safe.of_same rfl rfl (fun _ found => found) fun _ found => .inl found
  · refine safe.of_same rfl rfl (fun _ found => found) fun _ found => .inl ?_
    simpa [acknowledged] using found

/-! ### One packet -/

private theorem Mirrors.kept_iff {receiver : Reorder reorderLimit} {control : Control σ}
    (mirrors : Mirrors receiver control) (id : UInt32) :
    Kept control id ↔ id.toNat < receiver.next ∨ id.toNat ∈ receiver.held := by
  rw [Kept, UInt32.lt_iff_toNat_lt, mirrors.next, mirrors.held]

/-- The receiver keeps what it had and the packet, unless that is dropped. -/
private theorem Mirrors.kept_accept {receiver : Reorder reorderLimit} {before after : Control σ}
    (mirrors : Mirrors receiver before) {packetId : UInt32}
    (accepted : Mirrors (receiver.accept packetId.toNat) after)
    (spared : ¬ receiver.Drops packetId.toNat) {id : UInt32}
    (kept : id = packetId ∨ Kept before id) : Kept after id := by
  have complete : receiver.Complete 0 {id | id < receiver.next ∨ id ∈ receiver.held} :=
    fun _ found _ => found
  rw [accepted.kept_iff]
  apply complete.accept spared _ _ (Nat.zero_le _)
  rcases kept with rfl | kept
  · exact .inl rfl
  · exact .inr ((mirrors.kept_iff id).mp kept)

/-- What an unexposed packet finds: it is not dropped, TLS takes it if it is due,
and the counter does not run over. -/
private theorem spared_of_not_exposed {self : Session σ} {receiver : Reorder reorderLimit}
    (mirrors : Mirrors receiver self.control) {packetId : UInt32}
    (spared : ¬ self.Exposed packetId) :
    ¬ receiver.Drops packetId.toNat ∧
      (packetId = self.control.recvNext → self.control.tls.Open) ∧
      (receiver.accept packetId.toNat).next < 2 ^ 32 := by
  have dueNew : ¬ Kept self.control self.control.recvNext := by
    rw [mirrors.kept_iff, mirrors.next]
    rintro (below | held)
    · exact Nat.lt_irrefl _ below
    · exact Nat.lt_irrefl _ (receiver.above _ held)
  refine ⟨?_, ?_, ?_⟩
  · rintro ⟨ahead, full, new⟩
    refine spared ⟨?_, .inr (.inr ⟨?_, ?_⟩)⟩
    · rw [mirrors.kept_iff]
      rintro (below | held)
      · omega
      · exact new held
    · rintro rfl
      rw [mirrors.next] at ahead
      exact Nat.lt_irrefl _ ahead
    · rw [mirrors.size]
      exact full
  · rintro rfl
    by_contra closed
    exact spared ⟨dueNew, .inr (.inl ⟨rfl, .inl closed⟩)⟩
  · have word : receiver.next < 2 ^ 32 := mirrors.next ▸ self.control.recvNext.toNat_lt
    rcases receiver.accept_cases packetId.toNat with ⟨same, -⟩ | ⟨next, -⟩ | ⟨next, -, due⟩
    · rw [same]
      exact word
    · rw [next]
      exact word
    · have isDue : packetId = self.control.recvNext :=
        UInt32.toNat_inj.mp (due.trans mirrors.next.symm)
      subst isDue
      by_contra wraps
      rw [next] at wraps
      refine spared ⟨dueNew, .inr (.inl ⟨rfl, .inr fun id later => ?_⟩)⟩
      rw [UInt32.lt_iff_toNat_lt, mirrors.next] at later
      rw [mirrors.held]
      have word := id.toNat_lt
      exact Reorder.mem_of_lt_gap (show receiver.next + 1 ≤ id.toNat from later) (by omega)

/-- A packet that is not exposed is kept, and so is all that was. -/
theorem safe_handleControl {self : Session σ} (safe : Safe self) {packet : Packet}
    (spared : ¬ self.Exposed packet.packetId) : Safe (handleControl engine packet self).2 := by
  rcases safe.mirrored with ⟨receiver, mirrors⟩
  rcases run_sendAck packet.packetId self with ⟨noted, control, outcome⟩
  rcases recordAck_frame packet.packetId self.control with ⟨next, map, tls'⟩
  have notedMirrors : Mirrors receiver noted.control := by
    rw [control]
    exact ⟨next ▸ mirrors.next, map ▸ mirrors.held, map ▸ mirrors.size, mirrors.words⟩
  have same (id : UInt32) : Kept noted.control id ↔ Kept self.control id := by
    rw [notedMirrors.kept_iff, mirrors.kept_iff]
  have noted_recorded (id : UInt32) (found : id ∈ noted.control.acked) :
      id = packet.packetId ∨ Kept self.control id := by
    rw [control] at found
    exact (mem_recordAck found).imp_right (safe.recorded id)
  rcases outcome with ⟨fault, run, sent⟩ | ⟨-, run, sent⟩
  · -- The packet is only recorded; the next ack block lists it.
    have kept : Kept self.control packet.packetId := by
      by_contra new
      exact spared ⟨new, .inl fault⟩
    have stopped : handleControl engine packet self = (.error .socket, noted) := by
      rw [handleControl, Task.run_bind, run]
    rw [stopped]
    refine ⟨⟨receiver, notedMirrors⟩, fun id found => ?_, fun id found => ?_⟩
    · rw [same]
      exact (noted_recorded id found).elim (fun equal => equal ▸ kept) fun other => other
    · rw [same]
      exact safe.sent id (sent ▸ found)
  · rcases spared_of_not_exposed mirrors spared with ⟨notDropped, isOpen, reachable⟩
    have isOpen' : packet.packetId = noted.control.recvNext → noted.control.tls.Open := by
      rw [control, next, tls']
      exact isOpen
    rcases acceptControl_mirrors engine notedMirrors isOpen' reachable packet.payload with
      ⟨after, ran, frame, accepted⟩
    have kept {id : UInt32} : id = packet.packetId ∨ Kept self.control id →
        Kept after.control id := mirrors.kept_accept accepted notDropped
    have safeAfter : Safe after := by
      refine ⟨⟨_, accepted⟩, fun id found => ?_, fun id found => ?_⟩
      · rw [frame] at found
        exact kept (noted_recorded id found)
      · rw [frame] at found
        change id ∈ acknowledged noted.history at found
        rw [sent, List.mem_append] at found
        rcases found with earlier | listed
        · exact kept (.inr (safe.sent id earlier))
        · exact kept (noted_recorded id (control ▸ List.mem_of_mem_take listed))
    have rest : handleControl engine packet self =
        (do tls (TlsState.drive engine); flushTls : Act σ Unit) after := by
      rw [handleControl, Task.run_bind_ok run, Task.run_bind_ok ran]
    rw [rest]
    exact (Task.Preserves.bind (safe_tls _) fun _ => safe_flushTls).final safeAfter

/-! ### Runs of `pump` and `recv_data` -/

/-- The call that is waiting when a packet arrives. -/
inductive Caller where
  | pump
  | recvData
deriving DecidableEq, Repr

/-- A control packet, on the wire and as the call reads it. -/
structure ControlArrival where
  caller : Caller
  raw : Bytes
  packet : Packet
  parsed : Packet.parse raw = .ok (some packet)
  control : packet.opcode = pControlV1

/-- The session once the call has dealt with the packet: `pump` returns and
`recv_data` waits for the next one. -/
def deliver (crypto : Crypto) (engine : Engine σ) (self : Session σ)
    (arrival : ControlArrival) : Session σ :=
  let waiting := { self with arrivals := [.datagram arrival.raw false] }
  match arrival.caller with
  | .pump => (pump engine waiting).2
  | .recvData => (recvData crypto engine waiting).2

section Arrivals

variable {arrivals : List Arrival}

theorem arrivals_sendRaw (datagram : Bytes) :
    Task.Preserves (fun self : Session σ => self.arrivals = arrivals) (sendRaw datagram) :=
  preserves_sendRaw (fun _ _ _ same => same) _

theorem arrivals_update (change : Control σ → Control σ) :
    Task.Preserves (fun self : Session σ => self.arrivals = arrivals) (update change) :=
  Task.Preserves.modify fun _ same => same

theorem arrivals_tls {α : Type} (task : Task (TlsState σ) Error α) :
    Task.Preserves (fun self : Session σ => self.arrivals = arrivals) (tls task) :=
  Task.Preserves.zoom fun _ _ same => same

theorem arrivals_acceptControl (packetId : UInt32) (payload : Bytes) :
    Task.Preserves (fun self : Session σ => self.arrivals = arrivals)
      (acceptControl engine packetId payload) :=
  preserves_acceptControl (fun _ => arrivals_tls _) (fun _ _ => arrivals_update _) _ _

theorem arrivals_flushTls :
    Task.Preserves (fun self : Session σ => self.arrivals = arrivals) flushTls :=
  preserves_flushTls_of_blind fun _ _ _ _ _ _ same => same

theorem arrivals_sendAck (packetId : UInt32) :
    Task.Preserves (fun self : Session σ => self.arrivals = arrivals) (sendAck packetId) :=
  Task.Preserves.bind (arrivals_update _) fun _ =>
    Task.Preserves.bind (Task.Preserves.gets _) fun _ => arrivals_sendRaw _

theorem arrivals_handleControl (engine : Engine σ) (packet : Packet) :
    Task.Preserves (fun self : Session σ => self.arrivals = arrivals)
      (handleControl engine packet) := by
  apply Task.Preserves.bind (arrivals_sendAck _)
  intro _
  apply Task.Preserves.bind (arrivals_acceptControl _ _)
  intro _
  exact Task.Preserves.bind (arrivals_tls _) fun _ => arrivals_flushTls

theorem arrivals_handlePacket (crypto : Crypto) (engine : Engine σ) (packet : Packet) :
    Task.Preserves (fun self : Session σ => self.arrivals = arrivals)
      (handlePacket crypto engine packet) := by
  have accepted (keys : Keys) : Task.Preserves (fun self : Session σ => self.arrivals = arrivals)
      (acceptData crypto keys packet) := by
    apply Task.Preserves.bind (Task.Preserves.lift _)
    intro decrypted
    apply Task.Preserves.bind (Task.Preserves.gets _)
    intro self
    exact Task.Preserves.bind (arrivals_update _) fun _ => Task.Preserves.pure _
  unfold handlePacket
  split
  · apply Task.Preserves.bind (Task.Preserves.gets _)
    intro self
    split
    · exact Task.Preserves.pure _
    · apply Task.Preserves.bind (accepted _)
      intro plaintext
      split
      · exact Task.Preserves.pure _
      · exact Task.Preserves.pure _
  · split
    · exact Task.Preserves.bind (arrivals_handleControl _ _) fun _ => Task.Preserves.pure _
    · split
      · exact Task.Preserves.bind (arrivals_sendAck _) fun _ => Task.Preserves.pure _
      · exact Task.Preserves.pure _

end Arrivals

theorem run_deadlinePassed {self : Session σ}
    (ahead : ∀ rest, self.arrivals ≠ .expired :: rest) :
    deadlinePassed self = (.ok false, self) := by
  simp only [deadlinePassed, Task.run_bind, Task.run_gets, id]
  rfl

/-- The session that waits for nothing but this datagram. -/
def expecting (self : Session σ) (raw : Bytes) : Session σ :=
  { self with arrivals := [.datagram raw false] }

/-- The datagram has been taken from the socket. -/
def heard (self : Session σ) : Session σ := { self with arrivals := [], overdue := false }

/-- The next packet is there: the call handles it. -/
private theorem run_receive {α : Type} {raw : Bytes} {packet : Packet}
    (parsed : Packet.parse raw = .ok (some packet)) (self : Session σ) (onTimeout : Act σ α)
    (onPacket : Option Packet → Act σ α) :
    (do if ← deadlinePassed then onTimeout else
          let packet ← recvPacket
          onPacket packet : Act σ α) (self.expecting raw) =
      onPacket (some packet) self.heard := by
  have before : deadlinePassed (self.expecting raw) = (.ok false, self.expecting raw) :=
    run_deadlinePassed fun rest => by simp [expecting]
  have received : recvPacket (self.expecting raw) = (.ok (some packet), self.heard) := by
    simp only [recvPacket, expecting, Task.run_bind, Task.run_gets, id, Task.run_modify,
      Task.run_lift, parsed, Outcome.ofChecked_ok]
    rfl
  rw [Task.run_bind_ok before, if_neg Bool.false_ne_true, Task.run_bind_ok received]

/-- Nothing is there: the call waits. -/
private theorem run_waits {α : Type} {self : Session σ} (empty : self.arrivals = [])
    (onTimeout : Act σ α) (onPacket : Option Packet → Act σ α) :
    (do if ← deadlinePassed then onTimeout else
          let packet ← recvPacket
          onPacket packet : Act σ α) self = (.pending, self) := by
  have before : deadlinePassed self = (.ok false, self) :=
    run_deadlinePassed fun rest => by simp [empty]
  have waits : recvPacket self = (.pending, self) := by
    simp only [recvPacket, Task.run_bind, Task.run_gets, id, empty, Task.run_lift]
  rw [Task.run_bind_ok before, if_neg Bool.false_ne_true, Task.run_bind, waits]

/-- `pump` handles a control packet and goes on waiting after any other. -/
theorem pump_expecting (engine : Engine σ) {raw : Bytes} {packet : Packet}
    (parsed : Packet.parse raw = .ok (some packet)) (self : Session σ) :
    (pump engine (self.expecting raw)).2 =
      if packet.opcode = pControlV1 then (handleControl engine packet self.heard).2
      else self.heard := by
  rw [pump]
  change (Task.turns 2 _ () _).2 = _
  rw [Task.turns, Task.run_bind, run_receive parsed]
  by_cases control : packet.opcode = pControlV1
  · simp only [if_pos control, Task.run_bind]
    rcases handleControl engine packet self.heard with ⟨outcome, after⟩
    cases outcome <;> rfl
  · simp only [if_neg control]
    change (Task.turns 1 _ () self.heard).2 = self.heard
    rw [Task.turns, Task.run_bind, run_waits rfl]

/-- `recv_data` handles the packet, and returns or waits. -/
theorem recvData_expecting (crypto : Crypto) (engine : Engine σ) {raw : Bytes} {packet : Packet}
    (parsed : Packet.parse raw = .ok (some packet)) (self : Session σ) :
    (recvData crypto engine (self.expecting raw)).2 =
      (handlePacket crypto engine packet self.heard).2 := by
  have kept := (arrivals_handlePacket crypto engine packet).final
    (show self.heard.arrivals = [] from rfl)
  rw [recvData]
  change (Task.turns 2 _ () _).2 = _
  rw [Task.turns, Task.run_bind, run_receive parsed]
  dsimp only
  rcases handled : handlePacket crypto engine packet self.heard with ⟨outcome, after⟩
  rw [handled] at kept
  cases outcome with
  | ok value =>
      cases value with
      | inl again =>
          change (Task.turns 1 _ () after).2 = after
          rw [Task.turns, Task.run_bind, run_waits kept]
      | inr plaintext => rfl
  | error failure => rfl
  | panic => rfl
  | pending => rfl

private theorem handlePacket_control {crypto : Crypto} {packet : Packet}
    (control : packet.opcode = pControlV1) :
    handlePacket crypto engine packet = (do
      handleControl engine packet
      return .inl () : Act σ (Unit ⊕ Option Bytes)) := by
  have notData : ¬ IsData packet.opcode := by
    rw [control]
    decide
  rw [handlePacket, if_neg notData, if_pos control]

/-- Both calls deal with a control packet by `handleControl`. -/
theorem deliver_eq (crypto : Crypto) (engine : Engine σ) (self : Session σ)
    (arrival : ControlArrival) :
    deliver crypto engine self arrival =
      (handleControl engine arrival.packet { self with arrivals := [], overdue := false }).2 := by
  change _ = (handleControl engine arrival.packet self.heard).2
  unfold deliver
  cases arrival.caller with
  | pump => exact (pump_expecting engine arrival.parsed self).trans (if_pos arrival.control)
  | recvData =>
      refine (recvData_expecting crypto engine arrival.parsed self).trans ?_
      rw [handlePacket_control arrival.control, Task.run_bind]
      rcases handleControl engine arrival.packet self.heard with ⟨outcome, after⟩
      cases outcome <;> rfl

/-- In every state a run of control packets reaches without an exposed packet,
each packet that was acknowledged is fed or held. Every call runs to its end: a
`recv_data` that is dropped at the await of `send_ack` handles no packet. -/
theorem acknowledged_kept (crypto : Crypto) (engine : Engine σ) {self : Session σ}
    (empty : self.control.reorder.isEmpty = true)
    (fresh : ∀ id ∈ self.control.acked, id < self.control.recvNext) (quiet : self.history = [])
    {arrivals : List ControlArrival}
    (spared : Along (deliver crypto engine)
      (fun self arrival => ¬ self.Exposed arrival.packet.packetId) self arrivals)
    {done : List ControlArrival} (reached : done <+: arrivals) :
    ∀ id ∈ acknowledged (run (deliver crypto engine) self done).history,
      self.control.recvNext ≤ id → Kept (run (deliver crypto engine) self done).control id := by
  have start : Safe self := by
    refine ⟨⟨_, mirrors_empty empty⟩, fun id found => .inl (fresh id found), fun id found => ?_⟩
    rw [quiet] at found
    cases found
  have step (before : Session σ) (arrival : ControlArrival) (safe : Safe before)
      (kept : ¬ before.Exposed arrival.packet.packetId) :
      Safe (deliver crypto engine before arrival) := by
    have same : Safe { before with arrivals := [], overdue := false } :=
      safe.of_same rfl rfl (fun _ found => found) fun _ found => .inl found
    rw [deliver_eq]
    exact safe_handleControl same kept
  rcases reached with ⟨rest, rfl⟩
  have safe := run_invariant step done start spared.left
  exact fun id found _ => safe.sent id found

/-- A control packet of the server with an empty ack block. -/
def arrivalOf (caller : Caller) (packetId : UInt32) (payload : Bytes) : ControlArrival where
  caller := caller
  raw := (pControlV1 <<< 3) :: ((Vector.replicate 8 2).toList ++
    0 :: ([] ++ (u32ToBe packetId ++ payload)))
  packet := { opcode := pControlV1, sessionId := (Vector.replicate 8 2).toList, packetId,
              header := [], payload }
  parsed := Packet.parse_control (by decide) (by decide) rfl
  control := rfl

/-- Two packets that change places. -/
theorem acknowledged_kept_swapped :
    acknowledged (run (deliver TestVector.crypto waitingEngine) waiting
        [arrivalOf .pump 2 [20], arrivalOf .recvData 1 [10]]).history =
        [2, 0, 2, 0, 1, 2, 0] ∧
      ∀ id ∈ acknowledged (run (deliver TestVector.crypto waitingEngine) waiting
          [arrivalOf .pump 2 [20], arrivalOf .recvData 1 [10]]).history,
        waiting.control.recvNext ≤ id → Kept (run (deliver TestVector.crypto waitingEngine) waiting
          [arrivalOf .pump 2 [20], arrivalOf .recvData 1 [10]]).control id := by
  have fresh (id : UInt32) (found : id ∈ waiting.control.acked) :
      id < waiting.control.recvNext := by
    rw [List.mem_singleton.mp found]
    decide
  refine ⟨by decide +kernel, acknowledged_kept _ _ (by decide) fresh rfl ?_ ⟨[], rfl⟩⟩
  have early : ¬ waiting.Exposed 2 := by
    rintro ⟨-, fault | ⟨due, -⟩ | ⟨-, full⟩⟩
    · exact nomatch fault
    · exact absurd due (by decide)
    · exact absurd full (by decide)
  have due : ¬ (deliver TestVector.crypto waitingEngine waiting
      (arrivalOf .pump 2 [20])).Exposed 1 := by
    rintro ⟨-, fault | ⟨-, closed | wraps⟩ | ⟨late, -⟩⟩
    · exact absurd fault (by decide +kernel)
    · exact absurd closed (by decide +kernel)
    · exact absurd (wraps 3 (by decide +kernel)) (by decide +kernel)
    · exact absurd (show (1 : UInt32) = _ by decide +kernel) late
  exact ⟨early, due, trivial⟩

/-- The packets 2 to 34, with packet 1 delayed. -/
def burst : List ControlArrival :=
  (List.range 33).map fun position => arrivalOf .pump (UInt32.ofNat (position + 2)) [0]

/-- Packet 34 is acknowledged, and neither fed nor held. -/
theorem not_acknowledged_kept_burst :
    ¬ ∀ id ∈ acknowledged (run (deliver TestVector.crypto waitingEngine) waiting burst).history,
      waiting.control.recvNext ≤ id →
        Kept (run (deliver TestVector.crypto waitingEngine) waiting burst).control id := by
  intro kept
  have sent : 34 ∈ acknowledged (run (deliver TestVector.crypto waitingEngine) waiting
      burst).history := by decide +kernel
  have lost : ¬ Kept (run (deliver TestVector.crypto waitingEngine) waiting burst).control 34 := by
    decide +kernel
  exact lost (kept 34 sent (by decide))

end Session

end Unroxy.OpenVpn
