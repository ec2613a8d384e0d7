import Unroxy.Lib.Fifo
import Unroxy.OpenVpn.Stack

/-!
Owns what `poll_read` of the `Stream` of `openvpn/stack.rs` answers, and that it
reads its channel as a queue of bytes.

`Stream.pollRead` says what happens to the bytes. Here the call is written with
its slices checked and with what it returns, which tells a caller that has to
wait from one that has reached the end. `sent` and `returned` record what went
in and came out and are never read.

Does not own who sends into the channel.
-/

namespace Unroxy.OpenVpn

open Unroxy.Lib

/-! ### The call -/

inductive Poll (α : Type) where
  | pending
  | ready (value : α)
deriving DecidableEq, Repr

/-- `Receiver::poll_recv`, which may also leave its caller waiting for no
reason. -/
def Channel.pollRecv (self : Channel) (spurious : Bool) : Poll (Option Bytes) × Channel :=
  if spurious then
    (.pending, self)
  else
    match self.tryRecv with
    | some (message, after) => (.ready (some message), after)
    | none => (if self.senderGone then .ready none else .pending, self)

/-- `buf.put_slice(&bytes[start..stop])`, for a buffer with `remaining` free
bytes. -/
def putSlice (remaining : Nat) (bytes : Bytes) (start stop : Nat) : Checked Bytes := do
  let part ← slice bytes start stop
  if part.length ≤ remaining then return part else throw .outOfRange

theorem putSlice_of_le {remaining : Nat} {bytes : Bytes} {start stop : Nat}
    (ordered : start ≤ stop) (within : stop ≤ bytes.length) (room : stop - start ≤ remaining) :
    putSlice remaining bytes start stop = .ok ((bytes.drop start).take (stop - start)) := by
  rw [putSlice, slice_of_le ordered within]
  exact if_pos (Nat.le_trans (List.length_take_le _ _) room)

namespace AsyncRead

/-- `poll_read`: `ready` holds the bytes put into the buffer. -/
def pollRead (self : Stream) (channel : Channel) (spurious : Bool) (remaining : Nat) :
    Checked (Poll Bytes × Stream × Channel) := do
  if self.offset < self.pending.length then
    let take := min (self.pending.length - self.offset) remaining
    let put ← putSlice remaining self.pending self.offset (self.offset + take)
    if self.offset + take = self.pending.length then
      return (.ready put, ⟨[], 0⟩, channel)
    else
      return (.ready put, { self with offset := self.offset + take }, channel)
  else
    match channel.pollRecv spurious with
    | (.ready (some chunk), channel) =>
        let take := min chunk.length remaining
        let put ← putSlice remaining chunk 0 take
        if take < chunk.length then
          return (.ready put, ⟨chunk, take⟩, channel)
        else
          return (.ready put, self, channel)
    | (.ready none, channel) => return (.ready [], self, channel)
    | (.pending, channel) => return (.pending, self, channel)

/-- What `poll_read` can answer. -/
inductive Answer (self : Stream) (channel : Channel) (remaining : Nat) :
    Poll Bytes × Stream × Channel → Prop where
  | waits : Answer self channel remaining (.pending, self, channel)
  /-- The end of the file. -/
  | ends (read : self.pending.length ≤ self.offset) (empty : channel.queue = [])
      (closed : channel.senderGone = true) :
      Answer self channel remaining (.ready [], self, channel)
  | hands (there : self.offset < self.pending.length ∨ channel.queue ≠ []) :
      Answer self channel remaining
        (.ready (self.pollRead channel remaining).1, (self.pollRead channel remaining).2)

/-- The call returns, whatever the state of the stream. -/
theorem pollRead_answers (self : Stream) (channel : Channel) (spurious : Bool) (remaining : Nat) :
    ∃ answer, pollRead self channel spurious remaining = .ok answer ∧
      Answer self channel remaining answer := by
  by_cases more : self.offset < self.pending.length
  · have put : putSlice remaining self.pending self.offset
        (self.offset + min (self.pending.length - self.offset) remaining) =
        .ok ((self.pending.drop self.offset).take
          (min (self.pending.length - self.offset) remaining)) := by
      rw [putSlice_of_le (Nat.le_add_right _ _) (by omega) (by omega), Nat.add_sub_cancel_left]
    refine ⟨_, ?_, .hands (.inl more)⟩
    rw [pollRead, if_pos more, Stream.pollRead, if_pos more]
    dsimp only
    rw [put]
    dsimp only [bind, Except.bind]
    split <;> rfl
  · rw [pollRead, if_neg more]
    cases spurious with
    | true => exact ⟨_, rfl, .waits⟩
    | false =>
        cases queued : channel.queue with
        | nil =>
            have nothing : channel.tryRecv = none := by rw [Channel.tryRecv, queued]
            cases closed : channel.senderGone with
            | true =>
                refine ⟨_, ?_, .ends (Nat.not_lt.mp more) queued closed⟩
                simp [Channel.pollRecv, nothing, closed]
                rfl
            | false =>
                refine ⟨_, ?_, .waits⟩
                simp [Channel.pollRecv, nothing, closed]
                rfl
        | cons chunk rest =>
            have first : channel.tryRecv = some (chunk, { channel with queue := rest }) := by
              rw [Channel.tryRecv, queued]
            have put : putSlice remaining chunk 0 (min chunk.length remaining) =
                .ok (chunk.take (min chunk.length remaining)) :=
              putSlice_of_le (Nat.zero_le _) (Nat.min_le_left _ _) (Nat.min_le_right _ _)
            refine ⟨_, ?_, .hands (.inr (by rw [queued]; exact List.cons_ne_nil _ _))⟩
            rw [Stream.pollRead, if_neg more, Channel.pollRecv, first]
            dsimp only
            rw [if_neg Bool.false_ne_true]
            dsimp only
            rw [put]
            dsimp only [bind, Except.bind]
            split <;> rfl

/-- Where the stream stands in its chunk, and what is left in the channel. -/
theorem pollRead_keeps (self : Stream) (channel : Channel) (remaining : Nat)
    (within : self.offset ≤ self.pending.length) :
    (self.pollRead channel remaining).2.1.offset ≤
        (self.pollRead channel remaining).2.1.pending.length ∧
      (self.pollRead channel remaining).2.2.queue <:+ channel.queue ∧
      (self.pollRead channel remaining).2.2.senderGone = channel.senderGone := by
  unfold Stream.pollRead
  dsimp only
  split
  case isTrue more =>
    split
    case isTrue => exact ⟨Nat.le_refl _, List.suffix_rfl, rfl⟩
    case isFalse => exact ⟨by dsimp only; omega, List.suffix_rfl, rfl⟩
  case isFalse =>
    unfold Channel.tryRecv
    cases queued : channel.queue with
    | nil => exact ⟨within, by simp [queued], rfl⟩
    | cons chunk rest =>
        dsimp only
        split
        case isTrue less => exact ⟨Nat.le_of_lt less, List.suffix_cons _ _, rfl⟩
        case isFalse => exact ⟨within, List.suffix_cons _ _, rfl⟩

/-- There is something to hand out, and room for it. -/
theorem pollRead_ne_nil {self : Stream} {channel : Channel} {remaining : Nat}
    (room : 0 < remaining) (chunks : ∀ chunk ∈ channel.queue, chunk ≠ [])
    (there : self.offset < self.pending.length ∨ channel.queue ≠ []) :
    (self.pollRead channel remaining).1 ≠ [] := by
  have handed {bytes : Bytes} (left : 0 < bytes.length) :
      bytes.take (min bytes.length remaining) ≠ [] := by
    apply List.ne_nil_of_length_pos
    rw [List.length_take]
    omega
  unfold Stream.pollRead
  dsimp only
  split
  case isTrue more =>
    have part := @handed (self.pending.drop self.offset) (by rw [List.length_drop]; omega)
    rw [List.length_drop] at part
    split
    case isTrue => exact part
    case isFalse => exact part
  case isFalse read =>
    unfold Channel.tryRecv
    cases queued : channel.queue with
    | nil => exact absurd queued (there.resolve_left read)
    | cons chunk rest =>
        have long : 0 < chunk.length :=
          List.length_pos_of_ne_nil (chunks chunk (by rw [queued]; exact List.mem_cons_self))
        dsimp only
        split
        case isTrue => exact handed long
        case isFalse => exact handed long

end AsyncRead

/-! ### Sends and calls in any order -/

/-- A stream and its read channel, with all that was sent and returned. -/
structure ReadSide where
  stream : Stream
  channel : Channel
  sent : List Bytes
  returned : Bytes
  panicked : Bool
deriving DecidableEq, Repr

namespace ReadSide

def opened : ReadSide := ⟨.new, .new, [], [], false⟩

inductive Step where
  | send (chunk : Bytes)
  | close
  | pollRead (spurious : Bool) (remaining : Nat)
deriving DecidableEq, Repr

/-- A chunk that the channel does not take is not sent. -/
def send (self : ReadSide) (chunk : Bytes) : ReadSide :=
  if self.channel.senderGone then
    self
  else
    match self.channel.trySend chunk with
    | .ok channel => { self with channel, sent := self.sent ++ [chunk] }
    | .error _ => self

def pollRead (self : ReadSide) (spurious : Bool) (remaining : Nat) : ReadSide :=
  match AsyncRead.pollRead self.stream self.channel spurious remaining with
  | .ok (.ready put, stream, channel) =>
      { self with stream, channel, returned := self.returned ++ put }
  | .ok (.pending, stream, channel) => { self with stream, channel }
  | .error _ => { self with panicked := true }

def step (self : ReadSide) : Step → ReadSide
  | .send chunk => self.send chunk
  | .close => { self with channel := self.channel.dropSender }
  | .pollRead spurious remaining => self.pollRead spurious remaining

/-! ### The queue it stands for -/

/-- What is still to be returned. -/
def ahead (self : ReadSide) : Bytes :=
  self.stream.pending.drop self.stream.offset ++ self.channel.queue.flatten

/-- The bytes are where the queue has them. -/
structure Represents (side : ReadSide) (fifo : Fifo UInt8) : Prop where
  entered : fifo.entered = side.sent.flatten
  taken : fifo.taken = side.returned
  held : fifo.held = side.ahead

theorem represents_send {self : ReadSide} {fifo : Fifo UInt8} (represents : self.Represents fifo)
    (chunk : Bytes) : ∃ after, Fifo.Step fifo after ∧ (self.send chunk).Represents after := by
  rw [send]
  split
  case isTrue => exact ⟨fifo, .stay fifo, represents⟩
  case isFalse =>
    split
    case h_1 channel sent =>
      obtain ⟨-, -, rfl⟩ := Channel.trySend_eq_ok.mp sent
      refine ⟨fifo.put chunk, .put fifo chunk, ?_, represents.taken, ?_⟩
      · show fifo.entered ++ chunk = _
        rw [represents.entered, List.flatten_append, List.flatten_singleton]
      · show fifo.held ++ chunk = _
        rw [represents.held, ahead, ahead, List.flatten_append, List.flatten_singleton,
          List.append_assoc]
    case h_2 => exact ⟨fifo, .stay fifo, represents⟩

theorem represents_pollRead {self : ReadSide} {fifo : Fifo UInt8}
    (represents : self.Represents fifo) (spurious : Bool) (remaining : Nat) :
    ∃ after, Fifo.Step fifo after ∧ (self.pollRead spurious remaining).Represents after := by
  obtain ⟨answer, returned, kind⟩ :=
    AsyncRead.pollRead_answers self.stream self.channel spurious remaining
  rw [pollRead, returned]
  cases kind with
  | waits => exact ⟨fifo, .stay fifo, represents⟩
  | ends read empty closed =>
      refine ⟨fifo, .stay fifo, represents.entered, ?_, represents.held⟩
      show fifo.taken = self.returned ++ []
      rw [represents.taken, List.append_nil]
  | hands there =>
      rcases result : self.stream.pollRead self.channel remaining with ⟨put, stream, channel⟩
      have conserved := (Connection.pollRead_conserves _ _ _ result).1
      rw [List.append_assoc] at conserved
      obtain ⟨taken, held⟩ := Fifo.take_of_append (conserved.trans represents.held.symm)
      refine ⟨_, .take fifo _, represents.entered, ?_, held⟩
      rw [taken, represents.taken]

/-- Every step is an operation of the queue. -/
theorem represents_step {self : ReadSide} {fifo : Fifo UInt8} (represents : self.Represents fifo)
    (action : Step) : ∃ after, Fifo.Step fifo after ∧ (self.step action).Represents after := by
  cases action with
  | send chunk => exact represents_send represents chunk
  | close =>
      exact ⟨fifo, .stay fifo, represents.entered, represents.taken, represents.held⟩
  | pollRead spurious remaining => exact represents_pollRead represents spurious remaining

/-! ### Between the steps -/

/-- The stream is where it can be, no chunk in the channel is empty, and no call
has panicked. -/
structure Sound (side : ReadSide) : Prop where
  represents : ∃ fifo, side.Represents fifo
  within : side.stream.offset ≤ side.stream.pending.length
  chunks : ∀ chunk ∈ side.channel.queue, chunk ≠ []
  running : side.panicked = false

theorem sound_opened : Sound opened where
  represents := ⟨.empty, rfl, rfl, rfl⟩
  within := Nat.le_refl _
  chunks := nofun
  running := rfl

theorem Sound.represents_step {self : ReadSide} (sound : self.Sound) (action : Step) :
    ∃ fifo, (self.step action).Represents fifo := by
  obtain ⟨fifo, represents⟩ := sound.represents
  obtain ⟨after, -, later⟩ := ReadSide.represents_step represents action
  exact ⟨after, later⟩

theorem sound_send {self : ReadSide} (sound : self.Sound) {chunk : Bytes} (some : chunk ≠ []) :
    (self.send chunk).Sound := by
  have represents := sound.represents_step (.send chunk)
  rw [step, send] at represents
  rw [send]
  by_cases gone : self.channel.senderGone = true
  · rw [if_pos gone]
    exact sound
  · rw [if_neg gone] at represents ⊢
    cases sent : self.channel.trySend chunk with
    | error failure => exact sound
    | ok channel =>
        rw [sent] at represents
        obtain ⟨-, -, rfl⟩ := Channel.trySend_eq_ok.mp sent
        refine { sound with represents := represents, chunks := fun other among => ?_ }
        rcases List.mem_append.mp among with queued | last
        · exact sound.chunks other queued
        · rw [List.mem_singleton.mp last]
          exact some

theorem sound_pollRead {self : ReadSide} (sound : self.Sound) (spurious : Bool) (remaining : Nat) :
    (self.pollRead spurious remaining).Sound := by
  have represents := sound.represents_step (.pollRead spurious remaining)
  obtain ⟨answer, returned, kind⟩ :=
    AsyncRead.pollRead_answers self.stream self.channel spurious remaining
  rw [step, pollRead, returned] at represents
  rw [pollRead, returned]
  cases kind with
  | waits => exact sound
  | ends read empty closed => exact { sound with represents := represents }
  | hands there =>
      obtain ⟨within, suffix, -⟩ :=
        AsyncRead.pollRead_keeps self.stream self.channel remaining sound.within
      exact {
        represents := represents
        within := within
        chunks := fun chunk among => sound.chunks chunk (suffix.subset among)
        running := sound.running }

theorem sound_step (self : ReadSide) (action : Step) (sound : self.Sound)
    (some : action ≠ .send []) : (self.step action).Sound := by
  cases action with
  | send chunk => exact sound_send sound fun empty => some (by rw [empty])
  | close => exact { sound with represents := sound.represents_step .close }
  | pollRead spurious remaining => exact sound_pollRead sound spurious remaining

/-- A call that reports the end of the file has nothing to return any more. -/
theorem Sound.endOfFile {self : ReadSide} (sound : self.Sound) {spurious : Bool} {remaining : Nat}
    (room : 0 < remaining) {stream : Stream} {channel : Channel}
    (ended : AsyncRead.pollRead self.stream self.channel spurious remaining =
      .ok (.ready [], stream, channel)) :
    self.channel.senderGone = true ∧ self.returned = self.sent.flatten := by
  obtain ⟨fifo, represents⟩ := sound.represents
  obtain ⟨answer, returned, kind⟩ :=
    AsyncRead.pollRead_answers self.stream self.channel spurious remaining
  rw [ended, Except.ok.injEq] at returned
  cases kind with
  | waits => cases returned
  | ends read empty closed =>
      have nothing : fifo.held = [] := by
        rw [represents.held, ahead, empty, List.drop_of_length_le read]
        rfl
      have all := Fifo.taken_of_held_nil nothing
      rw [represents.taken, represents.entered] at all
      exact ⟨closed, all⟩
  | hands there =>
      have handed := AsyncRead.pollRead_ne_nil room sound.chunks there
      rw [Prod.mk.injEq, Poll.ready.injEq] at returned
      exact absurd returned.1.symm handed

/-- The stream hands on the bytes of its channel in order, and all of them. -/
structure Faithful (side : ReadSide) : Prop where
  bytes : side.returned ++ side.stream.pending.drop side.stream.offset ++
    side.channel.queue.flatten = side.sent.flatten
  within : side.stream.offset ≤ side.stream.pending.length
  endOfFile : ∀ spurious remaining stream channel, 0 < remaining →
    AsyncRead.pollRead side.stream side.channel spurious remaining =
      .ok (.ready [], stream, channel) →
    side.channel.senderGone = true ∧ side.returned = side.sent.flatten
  running : side.panicked = false

theorem Sound.faithful {self : ReadSide} (sound : self.Sound) : self.Faithful := by
  obtain ⟨fifo, represents⟩ := sound.represents
  have conserved := fifo.conserved
  rw [represents.taken, represents.held, represents.entered, ahead, ← List.append_assoc]
    at conserved
  exact {
    bytes := conserved
    within := sound.within
    endOfFile := fun _ _ _ _ room ended => sound.endOfFile room ended
    running := sound.running }

/-- In any order of sends and calls, if no chunk is empty. -/
theorem faithful_run (steps : List Step) (chunks : .send [] ∉ steps) :
    (run step opened steps).Faithful := by
  have each : ∀ action ∈ steps, action ≠ .send [] := by
    rintro action among rfl
    exact chunks among
  have sound := run_invariant sound_step steps sound_opened (Along.of_mem each)
  exact sound.faithful

/-- Two chunks, one of them read in two pieces, and the end of the file. -/
theorem faithful_run_pieces :
    (run step opened [.send [1, 2, 3], .pollRead false 0, .pollRead false 2, .send [4],
        .pollRead false 8, .pollRead true 8, .pollRead false 8, .close]).returned = [1, 2, 3, 4] ∧
      (run step opened [.send [1, 2, 3], .pollRead false 0, .pollRead false 2, .send [4],
        .pollRead false 8, .pollRead true 8, .pollRead false 8, .close]).Faithful :=
  ⟨by decide, faithful_run _ (by decide)⟩

end ReadSide

end Unroxy.OpenVpn
