import Unroxy.Lib.Bytes
import Unroxy.Lib.Run

/-!
Owns one connection of the `run` loop of `openvpn/stack.rs` and the `Stream` its
client holds.

The loop and the client run side by side and meet in two bounded channels. Each
channel operation and each call on the smoltcp socket is a step of its own, so
a run is any interleaving of them. What the socket answers is an argument of the
step: `send_slice` takes any beginning of what it is offered and `recv_slice`
returns any bytes. `written`, `accepted`, `received` and `read` record the
bytes that passed the four ends and are never read.

Does not own the smoltcp interface, its routing and the device queues.
-/

namespace Unroxy.OpenVpn

open Unroxy.Lib

def queueCapacity : Nat := 16
def chunkSize : Nat := 16 * 1024

/-! ### Bounded channels -/

/-- A `tokio::sync::mpsc` channel of byte buffers. -/
structure Channel where
  queue : List Bytes
  senderGone : Bool
  receiverGone : Bool
deriving DecidableEq, Repr

namespace Channel

inductive TrySendError where
  | full
  | closed
deriving DecidableEq, Repr

def new : Channel := ⟨[], false, false⟩

def capacity (self : Channel) : Nat := queueCapacity - self.queue.length

def trySend (self : Channel) (message : Bytes) : Except TrySendError Channel :=
  if self.receiverGone then
    .error .closed
  else if self.capacity = 0 then
    .error .full
  else
    .ok { self with queue := self.queue ++ [message] }

/-- The channel after `let _ = try_send(message)`. -/
def offer (self : Channel) (message : Bytes) : Channel :=
  match self.trySend message with
  | .ok after => after
  | .error _ => self

theorem trySend_eq_ok {self after : Channel} {message : Bytes} :
    self.trySend message = .ok after ↔
      self.receiverGone = false ∧ 0 < self.capacity ∧
        after = { self with queue := self.queue ++ [message] } := by
  unfold trySend
  cases self.receiverGone with
  | true => simp
  | false =>
      by_cases full : self.capacity = 0
      · simp [full]
      · simp [full, Nat.pos_of_ne_zero full, eq_comm]

@[simp] theorem offer_receiverGone (self : Channel) (message : Bytes) :
    (self.offer message).receiverGone = self.receiverGone := by
  unfold offer
  split
  case h_1 after sent => rw [(trySend_eq_ok.mp sent).2.2]
  case h_2 => rfl

theorem offer_of_room {self : Channel} {message : Bytes} (receiver : self.receiverGone = false)
    (room : 0 < self.capacity) : (self.offer message).queue = self.queue ++ [message] := by
  rw [offer, trySend_eq_ok.mpr ⟨receiver, room, rfl⟩]

def tryRecv (self : Channel) : Option (Bytes × Channel) :=
  match self.queue with
  | [] => none
  | message :: rest => some (message, { self with queue := rest })

def dropSender (self : Channel) : Channel := { self with senderGone := true }

/-- Dropping the receiver drops what is queued. -/
def dropReceiver (self : Channel) : Channel := { self with queue := [], receiverGone := true }

end Channel

/-! ### The client's stream -/

structure Stream where
  pending : Bytes
  offset : Nat
deriving DecidableEq, Repr

namespace Stream

def new : Stream := ⟨[], 0⟩

/-- `poll_read` into a buffer with `remaining` free bytes: the bytes put into
it, the stream and the channel. -/
def pollRead (self : Stream) (channel : Channel) (remaining : Nat) : Bytes × Stream × Channel :=
  if self.offset < self.pending.length then
    let take := min (self.pending.length - self.offset) remaining
    let put := (self.pending.drop self.offset).take take
    if self.offset + take = self.pending.length then
      (put, ⟨[], 0⟩, channel)
    else
      (put, { self with offset := self.offset + take }, channel)
  else
    match channel.tryRecv with
    | none => ([], self, channel)
    | some (chunk, channel) =>
        let take := min chunk.length remaining
        if take < chunk.length then
          (chunk.take take, ⟨chunk, take⟩, channel)
        else
          (chunk.take take, self, channel)

end Stream

/-! ### The connection -/

/-- Where the loop is in its pass over the connection. -/
inductive Stage where
  /-- Before `can_recv`. -/
  | top
  /-- `recv_slice` returned this buffer. -/
  | deliver (buffer : Bytes)
  /-- Before `can_send`. -/
  | send
  /-- Before `from_client.try_recv`. -/
  | drain
  /-- `try_recv` returned this chunk. -/
  | offer (chunk : Bytes)
  /-- `send_slice` left this rest. -/
  | rest (chunk : Bytes)
  /-- Before `is_open`. -/
  | finish
  /-- The connection was removed. -/
  | removed
deriving DecidableEq, Repr

/-- The chunk the loop has taken from the client and not yet offered. -/
def Stage.chunk : Stage → Bytes
  | .offer chunk => chunk
  | _ => []

/-- The buffer the loop has taken from the socket and not yet queued. -/
def Stage.buffer : Stage → Bytes
  | .deliver buffer => buffer
  | _ => []

/-- The loop holds no bytes of the connection. -/
def Stage.Idle : Stage → Prop
  | .top | .send | .drain | .finish => True
  | _ => False

theorem Stage.Idle.holds_nothing {stage : Stage} (idle : stage.Idle) :
    stage.chunk = [] ∧ stage.buffer = [] ∧ stage ≠ .removed := by
  cases stage <;> first | exact idle.elim | exact ⟨rfl, rfl, nofun⟩

structure Connection where
  toClient : Channel
  fromClient : Channel
  stream : Stream
  stage : Stage
  written : Bytes
  accepted : Bytes
  received : Bytes
  read : Bytes
deriving DecidableEq, Repr

namespace Connection

/-- `Command::Open`, once the socket connects. -/
def opened : Connection where
  toClient := .new
  fromClient := .new
  stream := .new
  stage := .top
  written := []
  accepted := []
  received := []
  read := []

/-- One operation of the client or of the loop. An answer of `none` is an
error of the socket. -/
inductive Step where
  | pollWrite (buffer : Bytes)
  | pollRead (remaining : Nat)
  | dropStream
  | recvSlice (canRecv : Bool) (answer : Option Bytes)
  | deliver
  | canSend (answer : Bool)
  | tryRecv
  | sendSlice (answer : Option Nat)
  | returnRest
  | isOpen (answer : Bool)
deriving DecidableEq, Repr

def pollWrite (self : Connection) (buffer : Bytes) : Connection :=
  if self.fromClient.senderGone then
    self
  else
    match self.fromClient.trySend buffer with
    | .ok channel => { self with fromClient := channel, written := self.written ++ buffer }
    | .error _ => self

def pollRead (self : Connection) (remaining : Nat) : Connection :=
  if self.toClient.receiverGone then
    self
  else
    let (put, stream, channel) := self.stream.pollRead self.toClient remaining
    { self with toClient := channel, stream := stream, read := self.read ++ put }

/-- `if socket.can_recv() && conn.to_client.capacity() > 0`. -/
def recvSlice (self : Connection) (canRecv : Bool) (answer : Option Bytes) : Connection :=
  if canRecv ∧ self.toClient.capacity > 0 then
    match answer with
    | none => { self with stage := .send }
    | some bytes =>
        let buffer := bytes.take chunkSize
        if buffer.length > 0 then
          { self with stage := .deliver buffer, received := self.received ++ buffer }
        else
          { self with stage := .send }
  else
    { self with stage := .send }

def sendSlice (self : Connection) (chunk : Bytes) : Option Nat → Connection
  | none => { self with stage := .finish }
  | some count =>
      let written := min count chunk.length
      if written = chunk.length then
        { self with stage := .drain, accepted := self.accepted ++ chunk }
      else
        { self with stage := .rest (chunk.drop written)
                    accepted := self.accepted ++ chunk.take written }

def step (self : Connection) (action : Step) : Connection :=
  match action, self.stage with
  | .pollWrite buffer, _ => self.pollWrite buffer
  | .pollRead remaining, _ => self.pollRead remaining
  | .dropStream, _ =>
      { self with toClient := self.toClient.dropReceiver
                  fromClient := self.fromClient.dropSender }
  | .recvSlice canRecv answer, .top => self.recvSlice canRecv answer
  | .deliver, .deliver buffer =>
      { self with stage := .send, toClient := self.toClient.offer buffer }
  | .canSend answer, .send => { self with stage := if answer then .drain else .finish }
  | .tryRecv, .drain =>
      match self.fromClient.tryRecv with
      | none => { self with stage := .finish }
      | some (chunk, channel) => { self with stage := .offer chunk, fromClient := channel }
  | .sendSlice answer, .offer chunk => self.sendSlice chunk answer
  | .returnRest, .rest chunk =>
      { self with stage := .finish, toClient := self.toClient.offer chunk }
  | .isOpen answer, .finish =>
      if answer then
        { self with stage := .top }
      else
        { self with stage := .removed
                    toClient := self.toClient.dropSender
                    fromClient := self.fromClient.dropReceiver }
  -- The loop is elsewhere in its pass.
  | _, _ => self

/-! ### Byte-stream integrity -/

/-- What the socket accepted is a beginning of what the client wrote, and what
the client read of what the socket returned. -/
def Intact (self : Connection) : Prop :=
  self.accepted <+: self.written ∧ self.read <+: self.received

instance (self : Connection) : Decidable self.Intact :=
  inferInstanceAs (Decidable (self.accepted <+: self.written ∧ self.read <+: self.received))

/-- `send_slice` does not fail. -/
def Reliable (_ : Connection) (action : Step) : Prop := action ≠ .sendSlice none

instance (self : Connection) (action : Step) : Decidable (Reliable self action) :=
  inferInstanceAs (Decidable (action ≠ .sendSlice none))

/-- `send_slice` takes the whole chunk it is offered. -/
def Whole (self : Connection) (action : Step) : Prop :=
  match action, self.stage with
  | .sendSlice (some count), .offer chunk => chunk.length ≤ count
  | _, _ => True

instance (self : Connection) (action : Step) : Decidable (Whole self action) := by
  unfold Whole
  split <;> infer_instance

/-! ### The invariant -/

/-- As long as both ends of a channel are there, every byte that went in is
accounted for, in order. -/
structure Balanced (connection : Connection) : Prop where
  whole : ∀ chunk, connection.stage ≠ .rest chunk
  gone : connection.fromClient.receiverGone = true → connection.stage = .removed
  outgoing : connection.fromClient.receiverGone = false →
    connection.accepted ++ connection.stage.chunk ++ connection.fromClient.queue.flatten =
      connection.written
  incoming : connection.toClient.receiverGone = false →
    connection.read ++ connection.stream.pending.drop connection.stream.offset ++
        connection.toClient.queue.flatten ++ connection.stage.buffer =
      connection.received
  room : ∀ buffer, connection.stage = .deliver buffer → 0 < connection.toClient.capacity
  intact : connection.Intact

theorem balanced_opened : Balanced opened where
  whole _ := nofun
  gone := nofun
  outgoing _ := rfl
  incoming _ := rfl
  room _ := nofun
  intact := ⟨List.nil_prefix, List.nil_prefix⟩

/-- A read hands on bytes in order and keeps the rest. -/
theorem pollRead_conserves (stream : Stream) (channel : Channel) (remaining : Nat)
    {put : Bytes} {after : Stream} {left : Channel}
    (result : stream.pollRead channel remaining = (put, after, left)) :
    put ++ after.pending.drop after.offset ++ left.queue.flatten =
        stream.pending.drop stream.offset ++ channel.queue.flatten ∧
      left.receiverGone = channel.receiverGone ∧ channel.capacity ≤ left.capacity := by
  unfold Stream.pollRead at result
  dsimp only at result
  split at result
  case isTrue more =>
    split at result
    case isTrue last =>
      cases result
      refine ⟨?_, rfl, le_rfl⟩
      rw [List.take_of_length_le (by rw [List.length_drop]; omega)]
      simp
    case isFalse =>
      cases result
      refine ⟨?_, rfl, le_rfl⟩
      congr 1
      rw [← List.drop_drop, List.take_append_drop]
  case isFalse empty =>
    have nothing : stream.pending.drop stream.offset = [] :=
      List.drop_of_length_le (Nat.not_lt.mp empty)
    unfold Channel.tryRecv at result
    rcases queued : channel.queue with _ | ⟨chunk, rest⟩
    · rw [queued] at result
      cases result
      rw [queued]
      exact ⟨by simp, rfl, le_rfl⟩
    · rw [queued] at result
      have smaller : channel.capacity ≤ queueCapacity - rest.length := by
        rw [Channel.capacity, queued, List.length_cons]
        omega
      dsimp only at result
      split at result
      case isTrue rest' =>
        cases result
        refine ⟨?_, rfl, smaller⟩
        rw [nothing, List.take_append_drop]
        rfl
      case isFalse all =>
        cases result
        refine ⟨?_, rfl, smaller⟩
        rw [List.take_of_length_le (by omega), nothing]
        simp

theorem balanced_pollWrite {self : Connection} (balanced : Balanced self) (buffer : Bytes) :
    Balanced (self.pollWrite buffer) := by
  unfold pollWrite
  split
  case isTrue => exact balanced
  case isFalse =>
    split
    case h_1 channel sent =>
      rcases Channel.trySend_eq_ok.mp sent with ⟨receiver, -, rfl⟩
      refine { balanced with outgoing := fun _ => ?_, intact := ⟨?_, balanced.intact.2⟩ }
      · rw [← balanced.outgoing receiver]
        simp
      · exact balanced.intact.1.trans (List.prefix_append _ _)
    case h_2 => exact balanced

theorem balanced_pollRead {self : Connection} (balanced : Balanced self) (remaining : Nat) :
    Balanced (self.pollRead remaining) := by
  unfold pollRead
  split
  case isTrue => exact balanced
  case isFalse present =>
    rw [Bool.not_eq_true] at present
    rcases result : self.stream.pollRead self.toClient remaining with ⟨put, stream, channel⟩
    rcases pollRead_conserves _ _ _ result with ⟨conserved, receiver, capacity⟩
    have before := balanced.incoming present
    rw [List.append_assoc self.read, ← conserved] at before
    have after : self.read ++ put ++ stream.pending.drop stream.offset ++ channel.queue.flatten ++
        self.stage.buffer = self.received := by
      rw [← before]
      simp only [List.append_assoc]
    refine { balanced with incoming := fun _ => after, room := ?_,
                           intact := ⟨balanced.intact.1, ?_⟩ }
    · exact fun buffer staged => Nat.lt_of_lt_of_le (balanced.room buffer staged) capacity
    · refine ⟨stream.pending.drop stream.offset ++ channel.queue.flatten ++ self.stage.buffer, ?_⟩
      rw [← after]
      simp only [List.append_assoc]

/-- The loop goes on in its pass without bytes in hand. -/
private theorem Balanced.move {self : Connection} (balanced : Balanced self) {stage : Stage}
    (before : self.stage.Idle) (after : stage.Idle) : Balanced { self with stage := stage } := by
  rcases before.holds_nothing with ⟨chunk, buffer, present⟩
  rcases after.holds_nothing with ⟨chunk', buffer', -⟩
  refine { balanced with whole := ?_, gone := fun gone => absurd (balanced.gone gone) present,
                         outgoing := fun receiver => ?_, incoming := fun receiver => ?_,
                         room := ?_ }
  · rintro rest rfl
    exact after
  · rw [← balanced.outgoing receiver, chunk, chunk']
  · rw [← balanced.incoming receiver, buffer, buffer']
  · rintro held rfl
    exact after.elim

theorem balanced_recvSlice {self : Connection} (balanced : Balanced self) (top : self.stage = .top)
    (canRecv : Bool) (answer : Option Bytes) : Balanced (self.recvSlice canRecv answer) := by
  have present : self.stage ≠ .removed := by simp [top]
  have skip : Balanced { self with stage := .send } :=
    balanced.move (by rw [top]; trivial) trivial
  unfold recvSlice
  split
  case isTrue ready =>
    split
    case h_1 => exact skip
    case h_2 bytes =>
      dsimp only
      split
      case isTrue =>
        refine { balanced with whole := nofun, gone := fun gone => absurd (balanced.gone gone) present,
                               outgoing := fun receiver => ?_, incoming := fun receiver => ?_,
                               room := fun _ _ => ready.2,
                               intact := ⟨balanced.intact.1, ?_⟩ }
        · rw [← balanced.outgoing receiver, top]
          rfl
        · rw [← balanced.incoming receiver, top]
          simp [Stage.buffer]
        · exact balanced.intact.2.trans (List.prefix_append _ _)
      case isFalse => exact skip
  case isFalse => exact skip

theorem balanced_deliver {self : Connection} (balanced : Balanced self) {buffer : Bytes}
    (staged : self.stage = .deliver buffer) :
    Balanced { self with stage := .send, toClient := self.toClient.offer buffer } := by
  have present : self.stage ≠ .removed := by simp [staged]
  refine { balanced with whole := nofun, gone := fun gone => absurd (balanced.gone gone) present,
                         outgoing := fun receiver => ?_, incoming := fun receiver => ?_,
                         room := nofun }
  · rw [← balanced.outgoing receiver, staged]
    rfl
  · rw [Channel.offer_receiverGone] at receiver
    rw [← balanced.incoming receiver, staged,
      Channel.offer_of_room receiver (balanced.room buffer staged)]
    simp [Stage.buffer]

theorem balanced_tryRecv {self : Connection} (balanced : Balanced self)
    (staged : self.stage = .drain) {chunk : Bytes} {channel : Channel}
    (got : self.fromClient.tryRecv = some (chunk, channel)) :
    Balanced { self with stage := .offer chunk, fromClient := channel } := by
  have present : self.stage ≠ .removed := by simp [staged]
  unfold Channel.tryRecv at got
  rcases queued : self.fromClient.queue with _ | ⟨head, rest⟩
  · rw [queued] at got
    cases got
  · rw [queued] at got
    cases got
    refine { balanced with whole := nofun, gone := fun gone => absurd (balanced.gone gone) present,
                           outgoing := fun receiver => ?_, incoming := fun receiver => ?_,
                           room := nofun }
    · rw [← balanced.outgoing receiver, staged, queued]
      simp [Stage.chunk]
    · rw [← balanced.incoming receiver, staged]
      rfl

theorem balanced_sendSlice {self : Connection} (balanced : Balanced self) {chunk : Bytes}
    (staged : self.stage = .offer chunk) {count : Nat} (whole : chunk.length ≤ count) :
    Balanced (self.sendSlice chunk (some count)) := by
  have present : self.stage ≠ .removed := by simp [staged]
  have receiver : self.fromClient.receiverGone = false := by
    rw [← Bool.not_eq_true]
    exact fun gone => present (balanced.gone gone)
  have outgoing := balanced.outgoing receiver
  rw [staged] at outgoing
  simp only [sendSlice, Nat.min_eq_right whole, if_true]
  refine { balanced with whole := nofun, gone := fun gone => absurd (balanced.gone gone) present,
                         outgoing := fun _ => ?_, incoming := fun client => ?_,
                         room := nofun, intact := ⟨⟨self.fromClient.queue.flatten, outgoing⟩,
                           balanced.intact.2⟩ }
  · rw [← outgoing]
    simp [Stage.chunk]
  · rw [← balanced.incoming client, staged]
    rfl

/-- The client is gone: nothing has to reach it any more. -/
theorem balanced_dropStream {self : Connection} (balanced : Balanced self) :
    Balanced { self with toClient := self.toClient.dropReceiver
                         fromClient := self.fromClient.dropSender } :=
  { balanced with
    incoming := nofun
    room := fun _ _ => show 0 < queueCapacity - 0 by decide }

/-- The connection is gone: nothing is accepted any more. -/
theorem balanced_remove {self : Connection} (balanced : Balanced self)
    (staged : self.stage = .finish) :
    Balanced { self with stage := .removed
                         toClient := self.toClient.dropSender
                         fromClient := self.fromClient.dropReceiver } :=
  { balanced with
    whole := nofun
    gone := fun _ => rfl
    outgoing := nofun
    incoming := fun receiver => by
      rw [← balanced.incoming receiver, staged]
      rfl
    room := nofun }

/-- One step keeps the balance if `send_slice` takes whole chunks. -/
theorem balanced_step (self : Connection) (action : Step) (balanced : Balanced self)
    (allowed : Reliable self action ∧ Whole self action) : Balanced (self.step action) := by
  unfold step
  split
  case h_1 buffer => exact balanced_pollWrite balanced buffer
  case h_2 remaining => exact balanced_pollRead balanced remaining
  case h_3 => exact balanced_dropStream balanced
  case h_4 canRecv answer staged => exact balanced_recvSlice balanced staged canRecv answer
  case h_5 buffer staged => exact balanced_deliver balanced staged
  case h_6 answer staged =>
    have idle : self.stage.Idle := by rw [staged]; trivial
    cases answer with
    | true => exact balanced.move idle trivial
    | false => exact balanced.move idle trivial
  case h_7 staged =>
    split
    case h_1 => exact balanced.move (by rw [staged]; trivial) trivial
    case h_2 chunk channel got => exact balanced_tryRecv balanced staged got
  case h_8 answer chunk staged =>
    cases answer with
    | none => exact absurd rfl allowed.1
    | some count =>
        have whole := allowed.2
        unfold Whole at whole
        rw [staged] at whole
        exact balanced_sendSlice balanced staged whole
  case h_9 chunk staged => exact absurd staged (balanced.whole chunk)
  case h_10 answer staged =>
    split
    case isTrue => exact balanced.move (by rw [staged]; trivial) trivial
    case isFalse => exact balanced_remove balanced staged
  case h_11 => exact balanced

/-- No byte is lost, moved or mixed in, in every run in which `send_slice` takes
the whole of every chunk it is offered. -/
theorem intact_run (steps : List Step) (reliable : Along step Reliable opened steps)
    (whole : Along step Whole opened steps) : (run step opened steps).Intact :=
  (run_invariant balanced_step steps balanced_opened (reliable.and whole)).intact

/-- A request goes out in one piece and its answer comes back. -/
def exchange : List Step :=
  [.pollWrite [1, 2, 3], .recvSlice false none, .canSend true, .tryRecv, .sendSlice (some 3),
    .tryRecv, .isOpen true, .recvSlice true (some [4, 5]), .deliver, .pollRead 8]

theorem intact_exchange :
    (run step opened exchange).accepted = [1, 2, 3] ∧ (run step opened exchange).read = [4, 5] ∧
      (run step opened exchange).Intact :=
  ⟨by decide, by decide, intact_run exchange (by decide) (by decide)⟩

/-- The socket has room for one of three bytes: the client reads the other two
back. -/
theorem not_intact_rest :
    Along step Reliable opened [.pollWrite [1, 2, 3], .recvSlice false none, .canSend true,
        .tryRecv, .sendSlice (some 1), .returnRest, .pollRead 8] ∧
      ¬ (run step opened [.pollWrite [1, 2, 3], .recvSlice false none, .canSend true, .tryRecv,
        .sendSlice (some 1), .returnRest, .pollRead 8]).Intact := by
  decide

end Connection

end Unroxy.OpenVpn
