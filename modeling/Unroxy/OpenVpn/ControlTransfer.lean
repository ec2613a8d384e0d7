import Unroxy.OpenVpn.ControlDelivery

/-!
Owns a transfer over the control channel from end to end.

`send_control_chunks` cuts its data and numbers the pieces; the peer parses what
the network delivers, in whatever order and however often, and hands it to
`accept_control`. `sendControlChunks_emits` says what is on the wire, the rest is
the receiver of `Unroxy.Lib.Reorder` with a window that fits its buffer.

Does not own resending.
-/

namespace Unroxy.OpenVpn

open Unroxy.Lib

namespace Session

variable {σ τ : Type}

/-! ### Chunks -/

def chunk (data : Bytes) (position : Nat) : Bytes :=
  (data.drop (position * maxControlPayload)).take maxControlPayload

def chunkCount (data : Bytes) : Nat :=
  (data.length + maxControlPayload - 1) / maxControlPayload

def chunks (data : Bytes) : List Bytes := (List.range (chunkCount data)).map (chunk data)

theorem lt_chunkCount_iff (data : Bytes) (position : Nat) :
    position < chunkCount data ↔ position * maxControlPayload < data.length := by
  unfold chunkCount maxControlPayload
  omega

theorem chunk_length {data : Bytes} {position : Nat} (within : position < chunkCount data) :
    1 ≤ (chunk data position).length ∧ (chunk data position).length ≤ maxControlPayload := by
  rw [lt_chunkCount_iff] at within
  rw [chunk, List.length_take, List.length_drop]
  unfold maxControlPayload at *
  omega

private theorem flatten_range_chunk (data : Bytes) (count : Nat) :
    ((List.range count).map (chunk data)).flatten = data.take (count * maxControlPayload) := by
  induction count with
  | zero => simp
  | succ count inductionHypothesis =>
      rw [List.range_succ, List.map_append, List.flatten_append, inductionHypothesis,
        Nat.succ_mul, List.take_add]
      simp [chunk]

/-- The chunks are the data. -/
theorem flatten_chunks (data : Bytes) : (chunks data).flatten = data := by
  rw [chunks, flatten_range_chunk]
  apply List.take_of_length_le
  unfold chunkCount maxControlPayload
  omega

/-! ### What is on the wire -/

/-- The datagram of a control packet. -/
def controlDatagram (control : Control σ) (packetId : UInt32) (payload : Bytes) : Bytes :=
  (pControlV1 <<< 3) :: (control.sessionId.toList ++
    encodeAcks control.acked control.remoteSessionId) ++ u32ToBe packetId ++ payload

/-- The datagram of a chunk. -/
def chunkDatagram (control : Control σ) (data : Bytes) (position : Nat) : Bytes :=
  controlDatagram control (control.nextPacketId + UInt32.ofNat position) (chunk data position)

/-- `send_control_chunks` under way from `origin`: this many chunks have been
sent. -/
private structure Sent (origin : Session σ) (data : Bytes) (count : Nat) (session : Session σ) :
    Prop where
  sessionId : session.control.sessionId = origin.control.sessionId
  acked : session.control.acked = origin.control.acked
  remote : session.control.remoteSessionId = origin.control.remoteSessionId
  next : session.control.nextPacketId = origin.control.nextPacketId + UInt32.ofNat count
  history : session.history = origin.history ++ (List.range count).map fun position =>
    .sent (chunkDatagram origin.control data position)

private theorem Sent.one_more {origin self : Session σ} {data : Bytes} {count : Nat}
    (sent : Sent origin data count self) :
    Task.Triple (· = self) (sendControl (chunk data count)) (fun _ => Sent origin data (count + 1))
      (fun _ _ => True) := by
  intro session same
  rw [same]
  simp only [sendControl, update, Task.run_bind, Task.run_gets, Task.run_modify]
  obtain ⟨after, run, sameControl, events⟩ | ⟨after, run, -⟩ := run_sendRaw
    ((pControlV1 <<< 3) :: (self.control.sessionId.toList ++
      encodeAcks self.control.acked self.control.remoteSessionId) ++
        u32ToBe self.control.nextPacketId ++ chunk data count)
    { self with
      control := { self.control with
                   nextPacketId := self.control.nextPacketId + 1
                   lastPayload := chunk data count } }
  · rw [run]
    exact {
      sessionId := by rw [sameControl, ← sent.sessionId]
      acked := by rw [sameControl, ← sent.acked]
      remote := by rw [sameControl, ← sent.remote]
      next := by
        rw [sameControl, UInt32.ofNat_add, ← UInt32.add_assoc, ← sent.next]
        rfl
      history := by
        rw [events, List.range_succ, List.map_append, ← List.append_assoc, ← sent.history,
          sent.sessionId, sent.acked, sent.remote, sent.next]
        rfl }
  · rw [run]
    trivial

/-- The slice a turn of the loop sends is a chunk. -/
private theorem slice_eq_chunk {data : Bytes} {count offset : Nat}
    (place : offset = min (count * maxControlPayload) data.length)
    (more : offset < data.length) :
    (data.drop offset).take (min (offset + maxControlPayload) data.length - offset) =
      chunk data count := by
  have exactly : offset = count * maxControlPayload := by omega
  rw [chunk, ← exactly, List.take_eq_take_iff, List.length_drop]
  omega

/-- If `send_control_chunks` comes back, it has sent one datagram for each
chunk. -/
theorem sendControlChunks_emits {self after : Session σ} {data : Bytes}
    (run : sendControlChunks data self = (.ok (), after)) :
    after.history = self.history ++ (List.range (chunkCount data)).map fun position =>
      .sent (chunkDatagram self.control data position) := by
  let Under (offset : Nat) (session : Session σ) : Prop :=
    ∃ count, count ≤ chunkCount data ∧ offset = min (count * maxControlPayload) data.length ∧
      Sent self data count session
  have triple : Task.Triple (Under 0) (sendControlChunks data)
      (fun _ => Sent self data (chunkCount data)) (fun _ _ => True) := by
    refine Task.Triple.loop Under (fun offset _ => data.length - offset)
      (fun _ _ => Nat.sub_le _ _) fun offset bound => ?_
    split
    case isTrue more =>
      rintro session ⟨⟨count, few, place, sent⟩, rfl⟩
      have turn := sent.one_more
      rw [← slice_eq_chunk place more] at turn
      refine Task.Triple.bind turn (fun _ => ?_) session rfl
      intro reached kept
      have within : count < chunkCount data := by
        rw [lt_chunkCount_iff]
        omega
      refine ⟨⟨count + 1, within, ?_, kept⟩, ?_⟩
      · rw [Nat.succ_mul]
        omega
      · unfold maxControlPayload
        omega
    case isFalse done =>
      rintro session ⟨⟨count, few, place, sent⟩, rfl⟩
      have all : count = chunkCount data := by
        apply Nat.le_antisymm few
        by_contra early
        have := (lt_chunkCount_iff data count).mp (Nat.lt_of_not_le early)
        omega
      exact all ▸ sent
  have done := triple self ⟨0, Nat.zero_le _, by simp, rfl, rfl, rfl, by simp, by simp⟩
  rw [run] at done
  exact done.history

/-- The datagrams a call put on the wire. -/
def emitted (before after : Session σ) : List Bytes :=
  (after.history.drop before.history.length).filterMap fun event => match event with
    | .sent datagram => some datagram
    | _ => none

theorem emitted_chunks {self after : Session σ} {data : Bytes}
    (run : sendControlChunks data self = (.ok (), after)) :
    emitted self after = (List.range (chunkCount data)).map (chunkDatagram self.control data) := by
  rw [emitted, sendControlChunks_emits run, List.drop_left, List.filterMap_map]
  exact congrFun List.filterMap_eq_map _

/-- The datagram of a chunk is read as a control packet with its payload. -/
theorem parse_controlDatagram (control : Control σ) (packetId : UInt32) (payload : Bytes) :
    Packet.parse (controlDatagram control packetId payload) =
      .ok (some { opcode := pControlV1, sessionId := control.sessionId.toList, packetId,
                  header := [], payload }) := by
  rcases encodeAcks_shape control.acked control.remoteSessionId with ⟨count, acks, encoded, block⟩
  rw [controlDatagram, encoded]
  simp only [List.cons_append, List.append_assoc]
  rw [Packet.parse_control (by decide) (by decide) block]
  rfl

/-! ### The peer -/

/-- `Packet::parse` and then `accept_control`. -/
def receive (engine : Engine τ) (datagram : Bytes) : Act τ Unit := do
  match ← Task.lift (.ofChecked (Packet.parse datagram)) with
  | none => return ()
  | some packet =>
      if packet.opcode = pControlV1 then
        acceptControl engine packet.packetId packet.payload
      else
        return ()

def receiveAll (engine : Engine τ) : List Bytes → Act τ Unit
  | [] => pure ()
  | datagram :: rest => do
      receive engine datagram
      receiveAll engine rest

private theorem receiveAll_eq {engine : Engine τ} (control : Control σ)
    (calls : List (UInt32 × Bytes)) :
    receiveAll engine (calls.map fun call => controlDatagram control call.1 call.2) =
      acceptAll engine calls := by
  induction calls with
  | nil => rfl
  | cons call rest inductionHypothesis =>
      have first : receive engine (controlDatagram control call.1 call.2) =
          acceptControl engine call.1 call.2 := by
        rw [receive, parse_controlDatagram]
        rfl
      rw [List.map_cons, receiveAll, acceptAll, first, inductionHypothesis]

/-- What the peer has after a transfer of `data`. -/
structure Delivered (engine : Engine τ) (data : Bytes) (peer received : Session τ) : Prop where
  /-- TLS was fed with the chunks, in order. -/
  fed : TlsState.feedAll engine (chunks data) peer.control.tls = (.ok (), received.control.tls)
  advanced : received.control.recvNext =
    peer.control.recvNext + UInt32.ofNat (chunks data).length
  empty : received.control.reorder.isEmpty = true

/-- Deliveries of the datagrams of chunks are deliveries of chunks. -/
private theorem exists_positions {control : Control σ} {data : Bytes} (deliveries : List Bytes)
    (genuine : ∀ datagram ∈ deliveries,
      datagram ∈ (List.range (chunkCount data)).map (chunkDatagram control data)) :
    ∃ positions : List Nat, (∀ position ∈ positions, position < chunkCount data) ∧
      deliveries = positions.map (chunkDatagram control data) := by
  induction deliveries with
  | nil => exact ⟨[], fun _ found => (List.not_mem_nil found).elim, rfl⟩
  | cons datagram rest inductionHypothesis =>
      rcases List.mem_map.mp (genuine datagram List.mem_cons_self) with ⟨position, below, rfl⟩
      rcases inductionHypothesis fun other found => genuine other (List.mem_cons_of_mem _ found)
        with ⟨positions, within, rfl⟩
      refine ⟨position :: positions, ?_, rfl⟩
      exact List.forall_mem_cons.mpr ⟨List.mem_range.mp below, within⟩

private theorem payloadsOf_chunk (data : Bytes) {first : Nat}
    (noWrap : first + chunkCount data < 2 ^ 32) :
    payloadsOf (fun id => chunk data (id.toNat - first)) first (first + chunkCount data) =
      chunks data := by
  rw [payloadsOf, chunks, Nat.add_sub_cancel_left, List.range'_eq_map_range, List.map_map]
  apply List.map_congr_left
  intro position below
  have small : first + position < 2 ^ 32 := by
    have := List.mem_range.mp below
    omega
  simp only [Function.comp_apply]
  rw [UInt32.toNat_ofNat', Nat.mod_eq_of_lt small, Nat.add_sub_cancel_left]

private theorem toNat_add_ofNat {first : UInt32} {position count : Nat}
    (noWrap : first.toNat + count < 2 ^ 32) (within : position ≤ count) :
    (first + UInt32.ofNat position).toNat = first.toNat + position := by
  rw [UInt32.toNat_add, UInt32.toNat_ofNat']
  omega

private theorem chunkDatagram_injective {control : Control σ} {data : Bytes} {left right : Nat}
    (noWrap : control.nextPacketId.toNat + chunkCount data < 2 ^ 32)
    (leftWithin : left < chunkCount data) (rightWithin : right < chunkCount data)
    (same : chunkDatagram control data left = chunkDatagram control data right) :
    left = right := by
  have parsed := congrArg Packet.parse same
  rw [chunkDatagram, chunkDatagram, parse_controlDatagram, parse_controlDatagram] at parsed
  simp only [Except.ok.injEq, Option.some.injEq, Packet.mk.injEq, true_and] at parsed
  have ids := congrArg UInt32.toNat parsed.1
  rw [toNat_add_ofNat noWrap leftWithin.le, toNat_add_ofNat noWrap rightWithin.le] at ids
  omega

/-- The numbered chunks in any order and any number of copies are one window of
the receiver. -/
private theorem acceptAll_chunks {engine : Engine τ} {data : Bytes} {first : UInt32}
    (few : data.length ≤ 33 * maxControlPayload)
    (noWrap : first.toNat + chunkCount data < 2 ^ 32) {peer : Session τ}
    (empty : peer.control.reorder.isEmpty = true) (isOpen : peer.control.tls.Open)
    (expects : peer.control.recvNext = first) {positions : List Nat}
    (within : ∀ position ∈ positions, position < chunkCount data)
    (all : ∀ position, position < chunkCount data → position ∈ positions) :
    ∃ received, acceptAll engine (positions.map fun position =>
        (first + UInt32.ofNat position, chunk data position)) peer = (.ok (), received) ∧
      Delivered engine data peer received := by
  subst expects
  have small : chunkCount data ≤ reorderLimit + 1 := by
    unfold chunkCount reorderLimit maxControlPayload at *
    omega
  have idsOf : ids (positions.map fun position =>
      (peer.control.recvNext + UInt32.ofNat position, chunk data position)) =
      positions.map (peer.control.recvNext.toNat + ·) := by
    rw [ids, List.map_map]
    exact List.map_congr_left fun position found =>
      toNat_add_ofNat noWrap (within position found).le
  have window := @Reorder.acceptAll_window reorderLimit peer.control.recvNext.toNat
    (chunkCount data) small (positions.map (peer.control.recvNext.toNat + ·))
    (by
      intro id found
      rcases List.mem_map.mp found with ⟨position, listed, rfl⟩
      have := within position listed
      omega)
    (by
      intro id atLeast below
      exact List.mem_map.mpr ⟨id - peer.control.recvNext.toNat, all _ (by omega), by omega⟩)
  obtain ⟨received, ran, accepted, -, -⟩ := acceptAll_spec engine
    (fun id => chunk data (id.toNat - peer.control.recvNext.toNat))
    (show peer.control.recvNext.toNat ≤ 2 ^ 32 - 1 by omega)
    (positions.map fun position =>
      (peer.control.recvNext + UInt32.ofNat position, chunk data position))
    (mirrors_empty empty) (fun _ found => absurd found (Finset.notMem_empty _)) isOpen
    (Reorder.tracks_start _) (fun _ found => absurd found (Set.notMem_empty _))
    (by
      intro call found
      rcases List.mem_map.mp found with ⟨position, listed, rfl⟩
      have below := within position listed
      simp only [toNat_add_ofNat noWrap below.le, Nat.add_sub_cancel_left, true_and]
      omega)
  rw [idsOf] at accepted
  rcases window with ⟨last, nothing⟩
  refine ⟨received, ran, ?_⟩
  exact {
    fed := by
      have fed := accepted.fed
      rw [last] at fed
      rw [← payloadsOf_chunk data noWrap]
      exact fed
    advanced := by
      apply UInt32.toNat_inj.mp
      rw [accepted.mirrors.next, last, chunks, List.length_map, List.length_range,
        toNat_add_ofNat noWrap le_rfl]
    empty := by
      rw [Std.TreeMap.isEmpty_eq_size_eq_zero, beq_iff_eq, accepted.mirrors.size, nothing]
      rfl }

/-- Whatever the network does to the order and the number of copies, all the data
arrives. -/
theorem receiveAll_delivers {engine : Engine τ} {self after : Session σ} {data : Bytes}
    (sentAll : sendControlChunks data self = (.ok (), after))
    (few : data.length ≤ 33 * maxControlPayload)
    (noWrap : self.control.nextPacketId.toNat + chunkCount data < 2 ^ 32) {peer : Session τ}
    (empty : peer.control.reorder.isEmpty = true) (isOpen : peer.control.tls.Open)
    (expects : peer.control.recvNext = self.control.nextPacketId) {deliveries : List Bytes}
    (genuine : ∀ datagram ∈ deliveries, datagram ∈ emitted self after)
    (complete : ∀ datagram ∈ emitted self after, datagram ∈ deliveries) :
    (∀ datagram ∈ emitted self after, ∃ packet, Packet.parse datagram = .ok (some packet) ∧
        packet.opcode = pControlV1 ∧ 1 ≤ packet.payload.length ∧
        packet.payload.length ≤ maxControlPayload) ∧
      (chunks data).flatten = data ∧ (chunks data).length = (emitted self after).length ∧
      ∃ received, receiveAll engine deliveries peer = (.ok (), received) ∧
        Delivered engine data peer received := by
  rw [emitted_chunks sentAll] at genuine complete ⊢
  refine ⟨fun datagram found => ?_, flatten_chunks data, by simp [chunks], ?_⟩
  · rcases List.mem_map.mp found with ⟨position, below, rfl⟩
    exact ⟨_, parse_controlDatagram _ _ _, rfl, chunk_length (List.mem_range.mp below)⟩
  rcases exists_positions deliveries genuine with ⟨positions, within, rfl⟩
  have all (position : Nat) (below : position < chunkCount data) : position ∈ positions := by
    rcases List.mem_map.mp (complete _ (List.mem_map_of_mem (List.mem_range.mpr below))) with
      ⟨other, listed, same⟩
    exact chunkDatagram_injective noWrap (within other listed) below same ▸ listed
  have arrives : ∃ received, acceptAll engine _ peer = (.ok (), received) ∧
      Delivered engine data peer received :=
    acceptAll_chunks few noWrap empty isOpen expects within all
  rcases arrives with ⟨received, ran, delivered⟩
  refine ⟨received, ?_, delivered⟩
  rw [← receiveAll_eq self.control, List.map_map] at ran
  exact ran

/-- One byte more than a chunk. -/
def twoChunks : Bytes := List.replicate 1185 7

/-- Two chunks, delivered last first and then once more in order. -/
theorem receiveAll_delivers_twice :
    chunkCount twoChunks = 2 ∧
      ∃ received, receiveAll waitingEngine
          ((emitted waiting (sendControlChunks twoChunks waiting).2).reverse ++
            emitted waiting (sendControlChunks twoChunks waiting).2) waiting =
          (.ok (), received) ∧
        Delivered waitingEngine twoChunks waiting received := by
  have length : twoChunks.length = 1185 := List.length_replicate
  have count : chunkCount twoChunks = 2 := by
    rw [chunkCount, length]
    rfl
  have came : (sendControlChunks twoChunks waiting).1 = .ok () := by decide +kernel
  have ran : sendControlChunks twoChunks waiting =
      (.ok (), (sendControlChunks twoChunks waiting).2) := by
    rw [← came]
  have few : twoChunks.length ≤ 33 * maxControlPayload := by
    rw [length]
    decide
  have noWrap : waiting.control.nextPacketId.toNat + chunkCount twoChunks < 2 ^ 32 := by
    rw [count]
    decide
  refine ⟨count, ?_⟩
  exact (receiveAll_delivers ran few noWrap (by decide) (by decide) rfl
    (fun datagram found => by simpa using found) fun datagram found => by simpa using found).2.2.2

end Session

end Unroxy.OpenVpn
