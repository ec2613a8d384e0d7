import Unroxy.Lib.Insertion
import Unroxy.OpenVpn.Intake

/-!
Owns which packets the receiving side of the control channel does not notice.

Nothing looks at the session id of a packet, so a packet of another session is
treated as one of the server. `Inert` says when either goes unnoticed.

Does not own what is noticed on the wire: an acknowledgement is sent in any case.
`ForeignRuns` compares the runs of whole sessions.
-/

namespace Unroxy.OpenVpn.Intake

open Unroxy.Lib

/-- The same payloads fed, the same counter, the same packets held and the same ids
acknowledged. -/
structure Same (left right : Intake) : Prop where
  fed : left.fed = right.fed
  recvNext : left.recvNext = right.recvNext
  reorder : left.reorder.Equiv right.reorder
  acked : left.acked = right.acked

theorem same_equivalence : Equivalence Same where
  refl _ := ⟨rfl, rfl, .rfl, rfl⟩
  symm same := ⟨same.fed.symm, same.recvNext.symm, same.reorder.symm, same.acked.symm⟩
  trans first second :=
    ⟨first.fed.trans second.fed, first.recvNext.trans second.recvNext,
      first.reorder.trans second.reorder, first.acked.trans second.acked⟩

/-! ### Steps do not tell such states apart -/

section Congruence

variable {left right : Intake}

theorem Same.recordAck (same : Same left right) (packetId : UInt32) :
    Same (left.recordAck packetId) (right.recordAck packetId) := by
  unfold Intake.recordAck
  rw [same.acked]
  split
  · exact same
  · exact ⟨same.fed, same.recvNext, same.reorder, rfl⟩

theorem Same.feed (same : Same left right) (payload : Bytes) :
    Same (left.feed payload) (right.feed payload) where
  fed := congrArg (· ++ [payload]) same.fed
  recvNext := congrArg (· + 1) same.recvNext
  reorder := same.reorder
  acked := same.acked

theorem Same.drain (same : Same left right) (turns : Nat) :
    Same (left.drain turns) (right.drain turns) := by
  induction turns generalizing left right with
  | zero => exact same
  | succ turns inductionHypothesis =>
      have entry : left.reorder[left.recvNext]? = right.reorder[right.recvNext]? := by
        rw [same.recvNext, same.reorder.getElem?_eq]
      rw [Intake.drain, Intake.drain, entry]
      split
      · exact same
      · apply inductionHypothesis
        apply Same.feed
        have erased : (left.reorder.erase left.recvNext).Equiv
            (right.reorder.erase right.recvNext) := by
          rw [same.recvNext]
          exact same.reorder.erase _
        exact ⟨same.fed, same.recvNext, erased, same.acked⟩

theorem Same.acceptControl (same : Same left right) (isOpen : Bool) (packetId : UInt32)
    (payload : Bytes) :
    Same (left.acceptControl isOpen packetId payload)
      (right.acceptControl isOpen packetId payload) := by
  unfold Intake.acceptControl
  rw [same.recvNext, same.reorder.size_eq]
  split
  · exact same
  · split
    · split
      · exact ⟨same.fed, rfl, same.reorder.insert _ _, same.acked⟩
      · exact same
    · split
      · exact (same.feed payload).drain _
      · exact same

theorem Same.handle (same : Same left right) (heard : Heard) :
    Same (left.handle heard) (right.handle heard) := by
  unfold Intake.handle
  split
  · dsimp only
    split
    · exact (same.recordAck _).acceptControl _ _ _
    · exact same.recordAck _
  · split
    · exact same.recordAck _
    · exact same

end Congruence

/-! ### Which steps go unnoticed -/

/-- `accept_control` does something with this packet. -/
def Takes (self : Intake) (isOpen : Bool) (packetId : UInt32) (payload : Bytes) : Prop :=
  packetId = self.recvNext ∧ isOpen = true ∨
    self.recvNext < packetId ∧ self.reorder.size < reorderLimit ∧
      self.reorder[packetId]? ≠ some payload

/-- The id of the packet is acknowledged already, if it is to be, and
`accept_control` does nothing with the packet. -/
structure Inert (intake : Intake) (heard : Heard) : Prop where
  control : heard.packet.opcode = pControlV1 → heard.packet.packetId ∈ intake.acked
  accepted : heard.packet.opcode = pControlV1 → heard.sent = true →
    ¬ intake.Takes heard.isOpen heard.packet.packetId heard.packet.payload
  reset : heard.packet.opcode = pControlHardResetServerV2 → heard.caller = .recvData →
    heard.packet.packetId ∈ intake.acked

theorem recordAck_of_mem {self : Intake} {packetId : UInt32} (known : packetId ∈ self.acked) :
    self.recordAck packetId = self := if_pos known

theorem mem_acked_recordAck (self : Intake) (packetId : UInt32) :
    packetId ∈ (self.recordAck packetId).acked := by
  unfold recordAck
  split
  · next known => exact known
  · exact List.mem_cons_self

theorem acked_drain (turns : Nat) (self : Intake) : (self.drain turns).acked = self.acked := by
  induction turns generalizing self with
  | zero => rfl
  | succ turns inductionHypothesis =>
      rw [drain]
      split
      · rfl
      · exact inductionHypothesis _

theorem acked_acceptControl (self : Intake) (isOpen : Bool) (packetId : UInt32)
    (payload : Bytes) : (self.acceptControl isOpen packetId payload).acked = self.acked := by
  unfold acceptControl
  split
  · rfl
  · split
    · split
      · rfl
      · rfl
    · split
      · exact acked_drain _ _
      · rfl

theorem fed_length_drain (turns : Nat) (self : Intake) :
    self.fed.length ≤ (self.drain turns).fed.length := by
  induction turns generalizing self with
  | zero => exact Nat.le_refl _
  | succ turns inductionHypothesis =>
      rw [drain]
      split
      · exact Nat.le_refl _
      · next payload found =>
          refine Nat.le_trans ?_ (inductionHypothesis _)
          rw [feed, List.length_append]
          exact Nat.le_add_right _ _

/-- A payload that is held already under this id. -/
theorem insert_equiv_iff (reorder : Std.TreeMap UInt32 Bytes) (packetId : UInt32)
    (payload : Bytes) :
    (reorder.insert packetId payload).Equiv reorder ↔ reorder[packetId]? = some payload := by
  constructor
  · intro same
    rw [← same.getElem?_eq, Std.TreeMap.getElem?_insert_self]
  · intro held
    apply Std.TreeMap.Equiv.of_forall_constGet?_eq
    intro id
    rw [Std.TreeMap.getElem?_insert]
    split
    · next equal => rw [← Std.LawfulEqCmp.eq_of_compare equal, held]
    · rfl

theorem same_acceptControl_iff (self : Intake) (isOpen : Bool) (packetId : UInt32)
    (payload : Bytes) :
    Same (self.acceptControl isOpen packetId payload) self ↔
      ¬ self.Takes isOpen packetId payload := by
  have self_same : Same self self := same_equivalence.refl self
  unfold acceptControl Takes
  by_cases behind : packetId < self.recvNext
  · have notDue : packetId ≠ self.recvNext := UInt32.ne_of_lt behind
    have notAhead : ¬ self.recvNext < packetId := UInt32.lt_asymm behind
    simp only [if_pos behind]
    exact iff_of_true self_same (by simp [notDue, notAhead])
  simp only [if_neg behind]
  by_cases ahead : packetId > self.recvNext
  · have notDue : packetId ≠ self.recvNext := (UInt32.ne_of_lt ahead).symm
    have later : self.recvNext < packetId := ahead
    simp only [if_pos ahead]
    by_cases room : self.reorder.size < reorderLimit
    · simp only [if_pos room]
      have inserted : Same { self with reorder := self.reorder.insert packetId payload } self ↔
          (self.reorder.insert packetId payload).Equiv self.reorder :=
        ⟨Same.reorder, fun equiv => ⟨rfl, rfl, equiv, rfl⟩⟩
      rw [inserted, insert_equiv_iff]
      simp [notDue, later, room]
    · simp only [if_neg room]
      exact iff_of_true self_same (by simp [notDue, room])
  simp only [if_neg ahead]
  have due : packetId = self.recvNext :=
    UInt32.le_antisymm (UInt32.not_lt.mp ahead) (UInt32.not_lt.mp behind)
  cases isOpen with
  | false => exact iff_of_true self_same (by simp [due])
  | true =>
      refine iff_of_false ?_ (by simp [due])
      intro same
      have more := fed_length_drain self.reorder.size (self.feed payload)
      have grown : (self.feed payload).fed.length = self.fed.length + 1 := by simp [feed]
      have unchanged : ((self.feed payload).drain self.reorder.size).fed.length =
        self.fed.length := congrArg List.length same.fed
      omega

theorem same_recordAck_iff (self : Intake) (packetId : UInt32) :
    Same (self.recordAck packetId) self ↔ packetId ∈ self.acked := by
  constructor
  · intro same
    rw [← same.acked]
    exact self.mem_acked_recordAck packetId
  · intro known
    rw [recordAck_of_mem known]
    exact same_equivalence.refl self

theorem same_handle_iff (self : Intake) (heard : Heard) :
    Same (self.handle heard) self ↔ self.Inert heard := by
  unfold handle
  by_cases control : heard.packet.opcode = pControlV1
  · have noReset : heard.packet.opcode ≠ pControlHardResetServerV2 := by
      rw [control]
      decide
    rw [if_pos control]
    dsimp only
    by_cases known : heard.packet.packetId ∈ self.acked
    · rw [recordAck_of_mem known]
      by_cases sent : heard.sent = true
      · rw [if_pos sent, same_acceptControl_iff]
        exact ⟨fun idle => ⟨fun _ => known, fun _ _ => idle, fun reset => absurd reset noReset⟩,
          fun inert => inert.accepted control sent⟩
      · rw [if_neg sent]
        exact iff_of_true (same_equivalence.refl self)
          ⟨fun _ => known, fun _ isSent => absurd isSent sent, fun reset => absurd reset noReset⟩
    · refine iff_of_false ?_ fun inert => known (inert.control control)
      intro same
      have acked := same.acked
      have listed := self.mem_acked_recordAck heard.packet.packetId
      split at acked
      · rw [acked_acceptControl] at acked
        exact known (acked ▸ listed)
      · exact known (acked ▸ listed)
  · rw [if_neg control]
    by_cases reset : heard.packet.opcode = pControlHardResetServerV2 ∧ heard.caller = .recvData
    · rw [if_pos reset, same_recordAck_iff]
      exact ⟨fun known => ⟨fun isControl => absurd isControl control,
          fun isControl => absurd isControl control, fun _ _ => known⟩,
        fun inert => inert.reset reset.1 reset.2⟩
    · rw [if_neg reset]
      exact iff_of_true (same_equivalence.refl self)
        ⟨fun isControl => absurd isControl control, fun isControl => absurd isControl control,
          fun isReset inData => absurd ⟨isReset, inData⟩ reset⟩

/-- Whatever session they come from, inserted packets are not noticed at any point of
the run exactly if each of them is inert when it comes. -/
theorem insertion_inert_iff (self : Intake) (entries : List (Marked Heard)) :
    (∀ done, done <+: entries →
      Same (run handle self (everything done)) (run handle self (original done))) ↔
      Along (fun self (entry : Marked Heard) => self.handle entry.action)
        (fun self entry => entry.inserted = true → self.Inert entry.action) self entries :=
  insertions_iff same_equivalence same_equivalence (fun same => same)
    (fun heard same => same.handle heard) (fun self heard => (same_handle_iff self heard).mpr)
    (fun self heard => (same_handle_iff self heard).mp) entries (same_equivalence.refl self)

/-- The session of the server. -/
def serverSession : SessionId := Vector.replicate 8 2

/-- A packet of another session, with the first payload. -/
def foreignPacket : Heard where
  caller := .pump
  packet := { opcode := pControlV1, sessionId := List.replicate 8 9, packetId := 1,
              header := [], payload := [7] }
  sent := true
  isOpen := true

/-- The payload of another session is handed to TLS. -/
theorem foreign_packet_fed :
    ¬ ∀ (remoteSessionId : SessionId) (resetId : UInt32) (entries : List (Marked Heard)),
      (∀ entry ∈ entries, entry.inserted = true → ¬ IsData entry.action.packet.opcode ∧
        entry.action.packet.sessionId ≠ remoteSessionId.toList) →
      Same (run handle (start resetId) (everything entries))
        (run handle (start resetId) (original entries)) := by
  intro inert
  have foreign : ∀ entry ∈ [(⟨foreignPacket, true⟩ : Marked Heard)], entry.inserted = true →
      ¬ IsData entry.action.packet.opcode ∧
        entry.action.packet.sessionId ≠ serverSession.toList := by
    intro entry member _
    rw [List.mem_singleton.mp member]
    decide
  have same := inert serverSession 0 [⟨foreignPacket, true⟩] foreign
  have counted : (2 : UInt32) = 1 := same.recvNext
  exact absurd counted (by decide)

end Unroxy.OpenVpn.Intake
