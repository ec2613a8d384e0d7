import Unroxy.Lib.Run
import Unroxy.Lib.Task
import Unroxy.OpenVpn.Config

/-!
Owns `openvpn/framing.rs` and the TCP side of `recv_packet`.

A `read_packet` call is a future: `ReadPacket` holds what a suspended call has
taken off the stream, and `poll` runs it on the bytes that have arrived.
Dropping the future drops what it holds. The peer, the network and the timeouts
are steps of a `Link`; every interleaving of them is a run.

Does not own what `Packet::parse` makes of a frame.
-/

namespace Unroxy.OpenVpn

open Unroxy.Lib

def maxPacket : Nat := 65535

def writePacket (payload : Bytes) : Outcome Error Bytes :=
  if payload.length > maxPacket then
    .error (.transport "packet too large")
  else
    .ok (u16ToBe (UInt16.ofNat payload.length) ++ payload)

/-- A suspended `read_packet`, by the `read_exact` it waits in, with what that
one has taken. -/
inductive ReadPacket where
  | length (taken : Bytes)
  | payload (size : UInt16) (taken : Bytes)
deriving DecidableEq, Repr

namespace ReadPacket

/-- `read_exact` takes bytes as they arrive, up to `size`: all it has then and
what is left in the socket. -/
def readExact (size : Nat) (taken available : Bytes) : Bytes × Bytes :=
  (taken ++ available.take (size - taken.length), available.drop (size - taken.length))

def pollPayload (size : UInt16) (taken available : Bytes) :
    (ReadPacket ⊕ Outcome Error Bytes) × Bytes :=
  let (taken, rest) := readExact size.toNat taken available
  if taken.length < size.toNat then
    (.inl (.payload size taken), rest)
  else
    (.inr (.ok taken), rest)

/-- Run the call on the bytes in the socket: it is suspended again or returns. -/
def poll (self : ReadPacket) (available : Bytes) : (ReadPacket ⊕ Outcome Error Bytes) × Bytes :=
  match self with
  | .length taken =>
      let (taken, rest) := readExact 2 taken available
      match u16FromBe taken with
      | none => (.inl (.length taken), rest)
      | some size =>
          if size = 0 then
            (.inr (.error (.transport "empty frame")), rest)
          else
            pollPayload size [] rest
  | .payload size taken => pollPayload size taken available

end ReadPacket

/-! ### The receiving end of a connection -/

structure Link where
  /-- Sent by the peer and not yet arrived. -/
  wire : Bytes
  /-- Arrived and not yet read. -/
  socket : Bytes
  call : Option ReadPacket
  /-- The frames `recv_packet` handed to `Packet::parse`. -/
  frames : List Bytes
deriving DecidableEq, Repr

namespace Link

inductive Step where
  | arrive (count : Nat)
  | recvPacket
  | poll
  /-- The timeout of `recv_packet`, or the `select!` around it, drops the call. -/
  | cancel
deriving DecidableEq, Repr

def step (self : Link) : Step → Link
  | .arrive count =>
      { self with wire := self.wire.drop count, socket := self.socket ++ self.wire.take count }
  | .recvPacket =>
      match self.call with
      | none => { self with call := some (.length []) }
      | some _ => self
  | .poll =>
      match self.call with
      | none => self
      | some call =>
          match call.poll self.socket with
          | (.inl call, rest) => { self with call := some call, socket := rest }
          | (.inr (.ok frame), rest) =>
              { self with call := none, socket := rest, frames := self.frames ++ [frame] }
          | (.inr _, rest) => { self with call := none, socket := rest }
  | .cancel => { self with call := none }

/-- The bytes of the peer's frames. -/
def stream (payloads : List Bytes) : Bytes :=
  payloads.flatMap fun payload => u16ToBe (UInt16.ofNat payload.length) ++ payload

/-- A connection whose peer sends these payloads. -/
def opened (payloads : List Bytes) : Link where
  wire := stream payloads
  socket := []
  call := none
  frames := []

/-- A call is dropped only while it has taken nothing. -/
def Harmless (self : Link) : Step → Prop
  | .cancel => self.call = none ∨ self.call = some (.length [])
  | _ => True

instance : ∀ (self : Link) (action : Step), Decidable (Harmless self action)
  | self, .cancel =>
      inferInstanceAs (Decidable (self.call = none ∨ self.call = some (.length [])))
  | _, .arrive _ => .isTrue trivial
  | _, .recvPacket => .isTrue trivial
  | _, .poll => .isTrue trivial

/-- `write_packet` sends each payload as its part of the stream. -/
theorem writePacket_stream {payload : Bytes} (fits : payload.length ≤ maxPacket) :
    writePacket payload = .ok (stream [payload]) := by
  rw [writePacket, if_neg (Nat.not_lt.mpr fits), stream, List.flatMap_singleton]

/-! ### The invariant -/

/-- What a call has taken off the stream, the length included. -/
def takenBy : Option ReadPacket → Bytes
  | none => []
  | some (.length taken) => taken
  | some (.payload size taken) => u16ToBe size ++ taken

/-- The call waits for more. -/
def Waiting : Option ReadPacket → Prop
  | none => True
  | some (.length taken) => taken.length < 2
  | some (.payload size taken) => taken.length < size.toNat

/-- The frames so far and the bytes still to read are the peer's payloads. -/
def InStep (payloads : List Bytes) (self : Link) : Prop :=
  Waiting self.call ∧ ∃ rest, payloads = self.frames ++ rest ∧
    takenBy self.call ++ self.socket ++ self.wire = stream rest

/-- What `write_packet` accepts and `read_packet` does not refuse. -/
def Framed (payloads : List Bytes) : Prop :=
  ∀ payload ∈ payloads, 0 < payload.length ∧ payload.length ≤ maxPacket

instance (payloads : List Bytes) : Decidable (Framed payloads) :=
  inferInstanceAs (Decidable (∀ payload ∈ payloads, _))

private theorem readExact_append (size : Nat) (taken available : Bytes) :
    (ReadPacket.readExact size taken available).1 ++
      (ReadPacket.readExact size taken available).2 = taken ++ available := by
  rw [ReadPacket.readExact, List.append_assoc, List.take_append_drop]

private theorem readExact_length {size : Nat} {taken : Bytes} (fits : taken.length ≤ size)
    (available : Bytes) : (ReadPacket.readExact size taken available).1.length ≤ size := by
  simp only [ReadPacket.readExact, List.length_append, List.length_take]
  omega

/-- Behind a length the stream holds a payload of that length. -/
private theorem stream_head {payloads : List Bytes} (framed : Framed payloads) {size : UInt16}
    {bytes : Bytes} (start : u16ToBe size ++ bytes = stream payloads) :
    ∃ payload rest, payloads = payload :: rest ∧ size.toNat = payload.length ∧
      bytes = payload ++ stream rest := by
  cases payloads with
  | nil => cases start
  | cons payload rest =>
      rw [stream, List.flatMap_cons, List.append_assoc] at start
      rcases List.append_inj start (by simp) with ⟨lengths, tails⟩
      have decoded := congrArg u16FromBe lengths
      rw [u16FromBe_toBe, u16FromBe_toBe] at decoded
      have bound := (framed payload List.mem_cons_self).2
      refine ⟨payload, rest, rfl, ?_, tails⟩
      rw [Option.some.inj decoded, UInt16.toNat_ofNat']
      exact Nat.mod_eq_of_lt (by unfold maxPacket at bound; omega)

/-- A call in step stays in step, or returns the next payload. -/
def InStepResult (rest : List Bytes) (wire : Bytes) :
    (ReadPacket ⊕ Outcome Error Bytes) × Bytes → Prop
  | (.inl call, socket) =>
      Waiting (some call) ∧ takenBy (some call) ++ socket ++ wire = stream rest
  | (.inr (.ok frame), socket) => ∃ later, rest = frame :: later ∧ socket ++ wire = stream later
  | (.inr _, _) => False

private theorem pollPayload_inStep {rest : List Bytes} (framed : Framed rest) {size : UInt16}
    {taken available wire : Bytes} (fits : taken.length ≤ size.toNat)
    (start : u16ToBe size ++ (taken ++ available ++ wire) = stream rest) :
    InStepResult rest wire (ReadPacket.pollPayload size taken available) := by
  have bytes := readExact_append size.toNat taken available
  have bound := readExact_length fits available
  simp only [ReadPacket.pollPayload]
  split
  case isTrue more =>
    refine ⟨more, ?_⟩
    rw [← start, takenBy, ← bytes]
    simp only [List.append_assoc]
  case isFalse full =>
    rcases stream_head framed start with ⟨payload, later, rfl, sizeEq, tail⟩
    rw [← bytes, List.append_assoc] at tail
    rcases List.append_inj tail (by omega) with ⟨same, left⟩
    exact ⟨later, by rw [same], left⟩

private theorem poll_inStep {rest : List Bytes} (framed : Framed rest) {call : ReadPacket}
    {available wire : Bytes} (waiting : Waiting (some call))
    (start : takenBy (some call) ++ available ++ wire = stream rest) :
    InStepResult rest wire (call.poll available) := by
  cases call with
  | payload size taken =>
      apply pollPayload_inStep framed (le_of_lt waiting)
      rw [← start, takenBy]
      simp only [List.append_assoc]
  | length taken =>
      change taken ++ available ++ wire = stream rest at start
      have bytes := readExact_append 2 taken available
      have bound := readExact_length (le_of_lt waiting) available
      simp only [ReadPacket.poll]
      cases decoded : u16FromBe (ReadPacket.readExact 2 taken available).1 with
      | none =>
          refine ⟨?_, by rw [takenBy, bytes, start]⟩
          apply Nat.lt_of_le_of_ne bound
          intro two
          rcases u16FromBe_isSome two with ⟨size, some⟩
          exact nomatch decoded.symm.trans some
      | some size =>
          rw [← bytes, u16FromBe_eq_some decoded, List.append_assoc] at start
          rcases stream_head framed start with ⟨payload, later, rfl, sizeEq, -⟩
          have nonempty := (framed payload List.mem_cons_self).1
          have sized : size ≠ 0 := by
            rintro rfl
            change 0 = payload.length at sizeEq
            omega
          dsimp only
          rw [if_neg sized]
          exact pollPayload_inStep framed (Nat.zero_le _) start

/-! ### Runs -/

theorem inStep_step {payloads : List Bytes} (framed : Framed payloads) (self : Link)
    (action : Step) (inStep : InStep payloads self) (harmless : Harmless self action) :
    InStep payloads (self.step action) := by
  rcases inStep with ⟨waiting, rest, split, bytes⟩
  cases action with
  | arrive count =>
      refine ⟨waiting, rest, split, ?_⟩
      rw [← bytes]
      simp only [step, List.append_assoc, List.take_append_drop]
  | recvPacket =>
      simp only [step]
      cases call : self.call with
      | none => exact ⟨Nat.zero_lt_two, rest, split, by rw [← bytes, call]; rfl⟩
      | some future => exact ⟨waiting, rest, split, bytes⟩
  | poll =>
      have restFramed : Framed rest := fun payload member =>
        framed payload (by rw [split]; exact List.mem_append_right _ member)
      simp only [step]
      cases call : self.call with
      | none => exact ⟨waiting, rest, split, bytes⟩
      | some future =>
          rw [call] at waiting bytes
          have result := poll_inStep restFramed waiting bytes
          dsimp only
          generalize future.poll self.socket = polled at result
          match polled, result with
          | (.inl next, left), ⟨stillWaiting, stillBytes⟩ =>
              exact ⟨stillWaiting, rest, split, stillBytes⟩
          | (.inr (.ok frame), left), ⟨later, same, laterBytes⟩ =>
              refine ⟨trivial, later, ?_, laterBytes⟩
              rw [split, same, List.append_assoc, List.singleton_append]
  | cancel =>
      refine ⟨trivial, rest, split, ?_⟩
      rw [← bytes]
      rcases harmless with idle | fresh
      · rw [idle]
        rfl
      · rw [fresh]
        rfl

/-- The frames handed to `Packet::parse` are a beginning of the peer's payloads
in every run that drops a call only while it has taken nothing. -/
theorem frames_in_order {payloads : List Bytes} (framed : Framed payloads) (steps : List Step)
    (harmless : Along step Harmless (opened payloads) steps) :
    (run step (opened payloads) steps).frames <+: payloads := by
  have start : InStep payloads (opened payloads) := ⟨trivial, payloads, rfl, rfl⟩
  rcases run_invariant (inStep_step framed) steps start harmless with ⟨-, rest, split, -⟩
  exact ⟨rest, split.symm⟩

/-- A call dropped before anything arrived does no harm. -/
theorem frames_in_order_idle :
    (run step (opened [[0, 1, 7]]) [.recvPacket, .cancel, .arrive 5, .recvPacket, .poll]).frames =
        [[0, 1, 7]] ∧
      (run step (opened [[0, 1, 7]])
        [.recvPacket, .cancel, .arrive 5, .recvPacket, .poll]).frames <+: [[0, 1, 7]] :=
  ⟨by decide, frames_in_order (by decide) _ (by decide)⟩

/-- A call dropped between length and payload: the payload is read as a frame. -/
theorem not_frames_in_order_cancelled :
    ¬ (run step (opened [[0, 1, 7]]) [.arrive 2, .recvPacket, .poll, .cancel, .arrive 3,
      .recvPacket, .poll]).frames <+: [[0, 1, 7]] := by
  decide

end Link

end Unroxy.OpenVpn
