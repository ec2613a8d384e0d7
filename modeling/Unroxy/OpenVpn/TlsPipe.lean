import Unroxy.Lib.Run
import Unroxy.OpenVpn.Tls

/-!
Owns what goes through the `TlsState` of `openvpn/tls.rs`, for any TLS library.

A library is generic in its stream, so it reaches the memory stream through
`Read::read` and `Write::write` only. A `Script` is such a computation, and an
`Exchange` what it did to the stream: nothing it read or wrote is lost, whatever
it does. `Recorded` keeps what a session has read, written, given and accepted,
which nothing reads.

Does not own TLS itself.
-/

namespace Unroxy.OpenVpn

open Unroxy.Lib

/-! ### The memory stream -/

namespace MemoryStream

/-- `Read::read` into a buffer of this size: the bytes put into it, `none` for
`WouldBlock`. The ring buffer of `inbound` wraps behind `split` bytes, so that
`as_slices` has two parts. -/
def read (self : MemoryStream) (split capacity : Nat) : Option Bytes × MemoryStream :=
  if self.inbound.isEmpty then
    (none, self)
  else
    let length := min capacity self.inbound.length
    let head := self.inbound.take split
    let tail := self.inbound.drop split
    let taken := min length head.length
    let put := head.take taken ++ if taken < length then tail.take (length - taken) else []
    (some put, { self with inbound := self.inbound.drop length })

/-- `Write::write`. -/
def write (self : MemoryStream) (bytes : Bytes) : Nat × MemoryStream :=
  (bytes.length, { self with outbound := self.outbound ++ bytes })

/-- Copying from one part and then from the other. -/
private theorem take_parts (head tail : Bytes) (length : Nat) :
    head.take (min length head.length) ++
        (if min length head.length < length then tail.take (length - min length head.length)
          else []) =
      (head ++ tail).take length := by
  rw [List.take_append]
  rcases Nat.lt_or_ge head.length length with beyond | within
  · have whole : head.take length = head := List.take_of_length_le (Nat.le_of_lt beyond)
    rw [Nat.min_eq_right (Nat.le_of_lt beyond), if_pos beyond, List.take_length, whole]
  · rw [Nat.min_eq_left within, if_neg (Nat.lt_irrefl _), Nat.sub_eq_zero_of_le within,
      List.take_zero]

/-- Where the ring buffer wraps makes no difference. -/
theorem read_eq (self : MemoryStream) (split capacity : Nat) :
    self.read split capacity =
      if self.inbound.isEmpty then (none, self)
      else (some (self.inbound.take capacity),
        { self with inbound := self.inbound.drop capacity }) := by
  unfold read
  split
  case isTrue => rfl
  case isFalse =>
    have rest : self.inbound.drop (min capacity self.inbound.length) =
        self.inbound.drop capacity := by
      rcases Nat.le_total capacity self.inbound.length with less | more
      · rw [Nat.min_eq_left less]
      · rw [Nat.min_eq_right more, List.drop_length, List.drop_of_length_le more]
    have whole : (self.inbound.take split ++ self.inbound.drop split).take
        (min capacity self.inbound.length) = self.inbound.take capacity := by
      rw [List.take_append_drop, ← List.take_eq_take_min]
    have put := (take_parts _ _ _).trans whole
    simp only [put, rest]

end MemoryStream

/-! ### What a library can do -/

/-- A computation on a stream: `WouldBlock` is `none`. -/
inductive Script (α : Type) where
  | done (value : α)
  | read (split capacity : Nat) (next : Option Bytes → Script α)
  | write (bytes : Bytes) (next : Nat → Script α)

/-- What a computation has read and written, and the stream after it. -/
structure Exchange (before : MemoryStream) where
  read : Bytes
  written : Bytes
  after : MemoryStream
  inbound : read ++ after.inbound = before.inbound
  outbound : before.outbound ++ written = after.outbound

namespace Exchange

def none (memory : MemoryStream) : Exchange memory :=
  ⟨[], [], memory, rfl, List.append_nil _⟩

def trans {before : MemoryStream} (first : Exchange before) (second : Exchange first.after) :
    Exchange before where
  read := first.read ++ second.read
  written := first.written ++ second.written
  after := second.after
  inbound := by rw [List.append_assoc, second.inbound, first.inbound]
  outbound := by rw [← List.append_assoc, first.outbound, second.outbound]

/-- `MemoryStream::read`. -/
def ofRead (memory : MemoryStream) (split capacity : Nat) : Exchange memory where
  read := (memory.read split capacity).1.getD []
  written := []
  after := (memory.read split capacity).2
  inbound := by
    rw [MemoryStream.read_eq]
    split
    · rfl
    · exact List.take_append_drop capacity memory.inbound
  outbound := by
    rw [MemoryStream.read_eq, List.append_nil]
    split <;> rfl

/-- `MemoryStream::write`. -/
def ofWrite (memory : MemoryStream) (bytes : Bytes) : Exchange memory where
  read := []
  written := bytes
  after := (memory.write bytes).2
  inbound := rfl
  outbound := rfl

end Exchange

def Script.run {α : Type} : Script α → (memory : MemoryStream) → α × Exchange memory
  | .done value, memory => (value, .none memory)
  | .read split capacity next, memory =>
      let (value, later) := (next (memory.read split capacity).1).run
        (memory.read split capacity).2
      (value, (Exchange.ofRead memory split capacity).trans later)
  | .write bytes next, memory =>
      let (value, later) := (next (memory.write bytes).1).run (memory.write bytes).2
      (value, (Exchange.ofWrite memory bytes).trans later)

/-- The calls of `Engine`, as computations on a stream. -/
structure TlsLibrary (σ : Type) where
  handshake : σ → Script (Handshake × σ)
  read : σ → Script (List Bytes × σ)
  write : σ → Bytes → Script (Option Nat × σ)

/-- A session with what it has read from its stream, written to it, given to
`ssl_read` and accepted from `ssl_write`. -/
structure Recorded (σ : Type) where
  session : σ
  read : Bytes
  written : Bytes
  given : Bytes
  accepted : Bytes

namespace TlsLibrary

variable {σ : Type}

/-- A session that has not begun. -/
def fresh (session : σ) : Recorded σ := ⟨session, [], [], [], []⟩

def engine (library : TlsLibrary σ) : Engine (Recorded σ) where
  handshake self memory :=
    let ((ending, session), exchange) := (library.handshake self.session).run memory
    (ending, { self with session := session, read := self.read ++ exchange.read
                         written := self.written ++ exchange.written }, exchange.after)
  read self memory :=
    let ((chunks, session), exchange) := (library.read self.session).run memory
    (chunks, { self with session := session, read := self.read ++ exchange.read
                         written := self.written ++ exchange.written
                         given := self.given ++ chunks.flatten }, exchange.after)
  write self memory bytes :=
    let ((count, session), exchange) := (library.write self.session bytes).run memory
    (count, { self with session := session, read := self.read ++ exchange.read
                        written := self.written ++ exchange.written
                        accepted := self.accepted ++ bytes.take (count.getD 0) }, exchange.after)

end TlsLibrary

/-! ### Both directions -/

namespace TlsState

variable {σ : Type} {library : TlsLibrary σ}

/-- The session, in the handshake or behind it, with its stream. -/
def current (self : TlsState σ) : Option (σ × MemoryStream) := self.handshake <|> self.stream

/-- What was fed, taken, got and written at the outside is what went through the
session and what is still on its way. Before the handshake is done there is no
plaintext, and after it has failed there never was. -/
structure Flow (fed taken got wrote : Bytes) (tls : TlsState (Recorded σ)) : Prop where
  single : tls.handshake = none ∨ tls.stream = none
  offset : tls.offset = 0
  plain : tls.stream = none → got = [] ∧ wrote = [] ∧ tls.plaintext = [] ∧ tls.pending = []
  inbound : ∀ session memory, tls.current = some (session, memory) →
    session.read ++ memory.inbound = fed
  outbound : ∀ session memory, tls.current = some (session, memory) →
    session.written = taken ++ memory.outbound
  plaintext : ∀ session memory, tls.current = some (session, memory) →
    session.given = got ++ tls.plaintext
  pending : ∀ session memory, tls.current = some (session, memory) →
    session.accepted ++ tls.pending = wrote

namespace Flow

variable {fed taken got wrote : Bytes} {tls : TlsState (Recorded σ)} {session : Recorded σ}
  {memory : MemoryStream}

theorem ofStream (handshake : tls.handshake = none) (stream : tls.stream = some (session, memory))
    (offset : tls.offset = 0) (inbound : session.read ++ memory.inbound = fed)
    (outbound : session.written = taken ++ memory.outbound)
    (plaintext : session.given = got ++ tls.plaintext)
    (pending : session.accepted ++ tls.pending = wrote) : Flow fed taken got wrote tls := by
  have only (other : Recorded σ) (beside : MemoryStream)
      (there : tls.current = some (other, beside)) : session = other ∧ memory = beside := by
    rw [current, handshake, stream] at there
    cases there
    exact ⟨rfl, rfl⟩
  refine ⟨.inl handshake, offset, fun none => ?_, ?_, ?_, ?_, ?_⟩
  · rw [stream] at none
    cases none
  all_goals
    intro other beside there
    obtain ⟨rfl, rfl⟩ := only other beside there
    assumption

theorem ofHandshake (handshake : tls.handshake = some (session, memory))
    (stream : tls.stream = none) (offset : tls.offset = 0)
    (plain : got = [] ∧ wrote = [] ∧ tls.plaintext = [] ∧ tls.pending = [])
    (inbound : session.read ++ memory.inbound = fed)
    (outbound : session.written = taken ++ memory.outbound) (given : session.given = [])
    (accepted : session.accepted = []) : Flow fed taken got wrote tls := by
  have only (other : Recorded σ) (beside : MemoryStream)
      (there : tls.current = some (other, beside)) : session = other ∧ memory = beside := by
    rw [current, handshake] at there
    cases there
    exact ⟨rfl, rfl⟩
  rcases plain with ⟨nothing, none, empty, clear⟩
  refine ⟨.inr stream, offset, fun _ => ⟨nothing, none, empty, clear⟩, ?_, ?_, ?_, ?_⟩
  · intro other beside there
    obtain ⟨rfl, rfl⟩ := only other beside there
    exact inbound
  · intro other beside there
    obtain ⟨rfl, rfl⟩ := only other beside there
    exact outbound
  · intro other beside there
    obtain ⟨rfl, rfl⟩ := only other beside there
    rw [given, nothing, empty]
    rfl
  · intro other beside there
    obtain ⟨rfl, rfl⟩ := only other beside there
    rw [accepted, none, clear]
    rfl

/-- A handshake that failed leaves nothing behind. -/
theorem ofNeither (handshake : tls.handshake = none) (stream : tls.stream = none)
    (offset : tls.offset = 0)
    (plain : got = [] ∧ wrote = [] ∧ tls.plaintext = [] ∧ tls.pending = []) :
    Flow fed taken got wrote tls := by
  have nowhere : tls.current = none := by
    rw [current, handshake, stream]
    rfl
  refine ⟨.inl handshake, offset, fun _ => plain, ?_, ?_, ?_, ?_⟩
  all_goals
    intro other beside there
    rw [nowhere] at there
    cases there

variable (flow : Flow fed taken got wrote tls)

include flow

theorem noHandshake (stream : tls.stream = some (session, memory)) : tls.handshake = none := by
  refine flow.single.resolve_right fun none => ?_
  rw [stream] at none
  cases none

theorem noStream (handshake : tls.handshake = some (session, memory)) : tls.stream = none := by
  refine flow.single.resolve_left fun none => ?_
  rw [handshake] at none
  cases none

theorem currentStream (stream : tls.stream = some (session, memory)) :
    tls.current = some (session, memory) := by
  rw [current, flow.noHandshake stream, stream]
  rfl

omit flow in
theorem currentHandshake (handshake : tls.handshake = some (session, memory)) :
    tls.current = some (session, memory) := by
  rw [current, handshake]
  rfl

/-- In the handshake the session has neither given nor accepted anything. -/
theorem unused (handshake : tls.handshake = some (session, memory)) :
    session.given = [] ∧ session.accepted = [] := by
  obtain ⟨nothing, none, empty, clear⟩ := flow.plain (flow.noStream handshake)
  have given := flow.plaintext session memory (currentHandshake handshake)
  have accepted := flow.pending session memory (currentHandshake handshake)
  rw [nothing, empty] at given
  rw [none, clear, List.append_nil] at accepted
  exact ⟨given, accepted⟩

end Flow

variable {fed taken got wrote : Bytes}

theorem flow_start (session : σ) : Flow [] [] [] [] (start (TlsLibrary.fresh session)) :=
  .ofHandshake rfl rfl rfl ⟨rfl, rfl, rfl, rfl⟩ rfl rfl rfl rfl

theorem flow_pump : Task.Preserves (Flow fed taken got wrote) (pump library.engine) := by
  refine Task.Preserves.modify fun tls flow => ?_
  rcases stream : tls.stream with _ | ⟨session, memory⟩
  · exact flow
  · have there := flow.currentStream stream
    let exchange := ((library.read session.session).run memory).2
    refine .ofStream (flow.noHandshake stream) rfl flow.offset ?_ ?_ ?_ ?_
    · show (session.read ++ exchange.read) ++ exchange.after.inbound = fed
      rw [List.append_assoc, exchange.inbound, flow.inbound session memory there]
    · show session.written ++ exchange.written = taken ++ exchange.after.outbound
      rw [flow.outbound session memory there, List.append_assoc, exchange.outbound]
    · show session.given ++ _ = got ++ (tls.plaintext ++ _)
      rw [flow.plaintext session memory there, List.append_assoc]
      rfl
    · exact flow.pending session memory there

/-- What is fed goes into the stream, in the handshake and behind it. -/
theorem flow_feed (data : Bytes) :
    Task.Triple (Flow fed taken got wrote) (feed library.engine data)
      (fun _ => Flow (fed ++ data) taken got wrote) (fun _ => Flow fed taken got wrote) := by
  intro tls flow
  simp only [feed, Task.run_bind, Task.run_gets, id]
  rcases handshake : tls.handshake with _ | ⟨session, memory⟩
  · rcases stream : tls.stream with _ | ⟨session, memory⟩
    · exact flow
    · have there := flow.currentStream stream
      have entered : Flow (fed ++ data) taken got wrote
          { tls with stream := some (session, memory.feed data) } := by
        refine .ofStream handshake rfl flow.offset ?_ (flow.outbound session memory there)
          (flow.plaintext session memory there) (flow.pending session memory there)
        rw [MemoryStream.feed, ← List.append_assoc, flow.inbound session memory there]
      exact (flow_pump : Task.Preserves _ (pump library.engine)).final entered
  · have there := Flow.currentHandshake handshake
    have unused := flow.unused handshake
    simp only [Task.run_modify]
    refine .ofHandshake rfl (flow.noStream handshake) flow.offset
      (flow.plain (flow.noStream handshake)) ?_ (flow.outbound session memory there) unused.1
      unused.2
    rw [MemoryStream.feed, ← List.append_assoc, flow.inbound session memory there]

theorem flow_drive : Task.Preserves (Flow fed taken got wrote) (drive library.engine) := by
  intro tls flow
  simp only [drive, Task.run_bind, Task.run_gets, id]
  rcases handshake : tls.handshake with _ | ⟨session, memory⟩
  · exact flow_pump tls flow
  · have there := Flow.currentHandshake handshake
    have noStream := flow.noStream handshake
    have plain := flow.plain noStream
    have unused := flow.unused handshake
    rcases ran : (library.handshake session.session).run memory with ⟨⟨ending, session'⟩, exchange⟩
    have inbound : (session.read ++ exchange.read) ++ exchange.after.inbound = fed := by
      rw [List.append_assoc, exchange.inbound, flow.inbound session memory there]
    have outbound : session.written ++ exchange.written = taken ++ exchange.after.outbound := by
      rw [flow.outbound session memory there, List.append_assoc, exchange.outbound]
    simp only [TlsLibrary.engine, ran]
    cases ending with
    | done =>
        have given : session.given = got ++ tls.plaintext := by
          rw [unused.1, plain.1, plain.2.2.1]
          rfl
        have accepted : session.accepted ++ tls.pending = wrote := by
          rw [unused.2, plain.2.1, plain.2.2.2]
          rfl
        have entered : Flow fed taken got wrote
            { tls with handshake := none, stream := some ({ session with
                session := session', read := session.read ++ exchange.read
                written := session.written ++ exchange.written }, exchange.after) } :=
          .ofStream rfl rfl flow.offset inbound outbound given accepted
        exact flow_pump _ entered
    | wouldBlock =>
        exact .ofHandshake rfl noStream flow.offset plain inbound outbound unused.1 unused.2
    | failure message => exact .ofNeither rfl noStream flow.offset plain
    | setupFailure message => exact .ofNeither rfl noStream flow.offset plain

/-- The loop of `drain_pending` ends without an error. -/
theorem flow_drainPending :
    Task.Triple (fun tls => Flow fed taken got wrote tls ∧ tls.stream.isSome = true)
      (drainPending library.engine) (fun _ => Flow fed taken got wrote) (fun _ _ => False) := by
  refine Task.Triple.loop
    (fun _ tls => Flow fed taken got wrote tls ∧ tls.stream.isSome = true)
    (fun _ tls => tls.pending.length) (fun _ _ => le_rfl) fun _ bound => ?_
  rintro tls ⟨⟨flow, ready⟩, rfl⟩
  simp only [Task.run_bind, Task.run_gets, id]
  by_cases empty : tls.pending.isEmpty = true
  · rw [if_pos empty]
    exact flow
  · rw [if_neg empty]
    obtain ⟨⟨session, memory⟩, stream⟩ := Option.isSome_iff_exists.mp ready
    have there := flow.currentStream stream
    simp only [stream]
    rcases ran : (library.write session.session tls.pending).run memory with
      ⟨⟨count, session'⟩, exchange⟩
    have inbound : (session.read ++ exchange.read) ++ exchange.after.inbound = fed := by
      rw [List.append_assoc, exchange.inbound, flow.inbound session memory there]
    have outbound : session.written ++ exchange.written = taken ++ exchange.after.outbound := by
      rw [flow.outbound session memory there, List.append_assoc, exchange.outbound]
    have accepted : (session.accepted ++ tls.pending.take (count.getD 0)) ++
        tls.pending.drop (count.getD 0) = wrote := by
      rw [List.append_assoc, List.take_append_drop, flow.pending session memory there]
    have next : Flow fed taken got wrote { tls with
        stream := some ({ session with
          session := session', read := session.read ++ exchange.read
          written := session.written ++ exchange.written
          accepted := session.accepted ++ tls.pending.take (count.getD 0) }, exchange.after)
        pending := tls.pending.drop (count.getD 0) } :=
      .ofStream (flow.noHandshake stream) rfl flow.offset inbound outbound
        (flow.plaintext session memory there) accepted
    simp only [TlsLibrary.engine, ran, Task.run_bind, Task.run_modify]
    cases count with
    | none => exact next
    | some count =>
        cases count with
        | zero => exact next
        | succ count =>
            refine ⟨⟨next, rfl⟩, ?_⟩
            have some : tls.pending.length ≠ 0 := by
              rwa [ne_eq, List.length_eq_zero_iff, ← List.isEmpty_iff]
            show (tls.pending.drop (count + 1)).length < tls.pending.length
            rw [List.length_drop]
            omega

/-- What is written is accepted or waits; before the handshake is done the call
fails and takes nothing. -/
theorem flow_write (data : Bytes) :
    Task.Triple (Flow fed taken got wrote) (write library.engine data)
      (fun _ => Flow fed taken got (wrote ++ data)) (fun _ => Flow fed taken got wrote) := by
  intro tls flow
  simp only [write, Task.run_bind, Task.run_gets, id]
  rcases stream : tls.stream with _ | ⟨session, memory⟩
  · exact flow
  · have there := flow.currentStream stream
    have longer : session.accepted ++ (tls.pending ++ data) = wrote ++ data := by
      rw [← List.append_assoc, flow.pending session memory there]
    have entered : Flow fed taken got (wrote ++ data) { tls with pending := tls.pending ++ data } :=
      .ofStream (flow.noHandshake stream) stream flow.offset (flow.inbound session memory there)
        (flow.outbound session memory there) (flow.plaintext session memory there) longer
    have drained : Task.Triple (fun tls => Flow fed taken got (wrote ++ data) tls ∧
        tls.stream.isSome = true) (drainPending library.engine)
        (fun _ => Flow fed taken got (wrote ++ data)) (fun _ => Flow fed taken got wrote) :=
      flow_drainPending.weaken (fun _ held => held) (fun _ _ held => held)
        fun _ _ impossible => impossible.elim
    exact drained _ ⟨entered, Option.isSome_iff_exists.mpr ⟨_, stream⟩⟩

theorem flow_takeOutbound {tls : TlsState (Recorded σ)} (flow : Flow fed taken got wrote tls) :
    Flow fed (taken ++ tls.takeOutbound.1) got wrote tls.takeOutbound.2 := by
  unfold takeOutbound
  rcases handshake : tls.handshake with _ | ⟨session, memory⟩
  · rcases stream : tls.stream with _ | ⟨session, memory⟩
    · exact .ofNeither handshake stream flow.offset (flow.plain stream)
    · have there := flow.currentStream stream
      refine .ofStream rfl rfl flow.offset (flow.inbound session memory there) ?_
        (flow.plaintext session memory there) (flow.pending session memory there)
      rw [flow.outbound session memory there]
      exact (List.append_nil _).symm
  · have there := Flow.currentHandshake handshake
    have unused := flow.unused handshake
    refine .ofHandshake rfl (flow.noStream handshake) flow.offset
      (flow.plain (flow.noStream handshake)) (flow.inbound session memory there) ?_ unused.1
      unused.2
    rw [flow.outbound session memory there]
    exact (List.append_nil _).symm

theorem flow_takePlaintext {tls : TlsState (Recorded σ)} (flow : Flow fed taken got wrote tls) :
    Flow fed taken (got ++ tls.takePlaintext.1.getD []) wrote tls.takePlaintext.2 := by
  have emptied (chunk : Bytes) (same : chunk = tls.plaintext) :
      Flow fed taken (got ++ chunk) wrote { tls with plaintext := [], offset := 0 } := by
    refine ⟨flow.single, rfl, fun none => ?_, flow.inbound, flow.outbound, ?_, flow.pending⟩
    · obtain ⟨nothing, unwritten, empty, clear⟩ := flow.plain none
      refine ⟨?_, unwritten, rfl, clear⟩
      rw [nothing, same, empty]
      rfl
    · intro session memory there
      rw [flow.plaintext session memory there, same, List.append_nil]
  unfold takePlaintext
  split
  case isTrue nothing =>
    rw [flow.offset] at nothing
    exact emptied [] (List.length_eq_zero_iff.mp (Nat.le_zero.mp nothing)).symm
  case isFalse =>
    rw [flow.offset, List.drop_zero]
    exact emptied tls.plaintext rfl

end TlsState

/-! ### Runs of calls -/

/-- A `TlsState` with what it was fed, what was taken from it, the plaintext it
gave and the data it was given. -/
structure Pipe (σ : Type) where
  tls : TlsState (Recorded σ)
  fed : Bytes
  taken : Bytes
  got : Bytes
  wrote : Bytes

namespace Pipe

variable {σ : Type}

inductive Call where
  | feed (ciphertext : Bytes)
  | drive
  | pump
  | takeOutbound
  | takePlaintext
  | write (data : Bytes)
deriving DecidableEq, Repr

def start (session : σ) : Pipe σ := ⟨.start (TlsLibrary.fresh session), [], [], [], []⟩

/-- One call, however it ends. What a failing call was given counts for nothing. -/
def call (library : TlsLibrary σ) (self : Pipe σ) : Call → Pipe σ
  | .feed ciphertext =>
      match TlsState.feed library.engine ciphertext self.tls with
      | (.ok (), after) => { self with tls := after, fed := self.fed ++ ciphertext }
      | (_, after) => { self with tls := after }
  | .drive => { self with tls := (TlsState.drive library.engine self.tls).2 }
  | .pump => { self with tls := (TlsState.pump library.engine self.tls).2 }
  | .takeOutbound =>
      let (bytes, after) := self.tls.takeOutbound
      { self with tls := after, taken := self.taken ++ bytes }
  | .takePlaintext =>
      let (chunk, after) := self.tls.takePlaintext
      { self with tls := after, got := self.got ++ chunk.getD [] }
  | .write data =>
      match TlsState.write library.engine data self.tls with
      | (.ok (), after) => { self with tls := after, wrote := self.wrote ++ data }
      | (_, after) => { self with tls := after }

/-- The pipe's own record is that of its session. -/
def Flows (pipe : Pipe σ) : Prop :=
  TlsState.Flow pipe.fed pipe.taken pipe.got pipe.wrote pipe.tls

theorem flows_call (library : TlsLibrary σ) (self : Pipe σ) (call : Call) (flows : self.Flows) :
    (self.call library call).Flows := by
  cases call with
  | feed ciphertext =>
      have fed : Task.Triple (TlsState.Flow self.fed self.taken self.got self.wrote)
          (TlsState.feed library.engine ciphertext) _ _ := TlsState.flow_feed ciphertext
      have step := fed self.tls flows
      simp only [Pipe.call]
      rcases ran : TlsState.feed library.engine ciphertext self.tls with ⟨outcome, after⟩
      rw [ran] at step
      cases outcome <;> exact step
  | drive => exact TlsState.flow_drive.final flows
  | pump => exact TlsState.flow_pump.final flows
  | takeOutbound => exact TlsState.flow_takeOutbound flows
  | takePlaintext => exact TlsState.flow_takePlaintext flows
  | write data =>
      have written : Task.Triple (TlsState.Flow self.fed self.taken self.got self.wrote)
          (TlsState.write library.engine data) _ _ := TlsState.flow_write data
      have step := written self.tls flows
      simp only [Pipe.call]
      rcases ran : TlsState.write library.engine data self.tls with ⟨outcome, after⟩
      rw [ran] at step
      cases outcome <;> exact step

/-- No byte is lost, repeated or moved between the outside and the session, in
either direction and whatever the library does, also where the session goes from
its handshake to its stream. Plaintext moves only behind the handshake. -/
theorem flow_run (library : TlsLibrary σ) (session : σ) (calls : List Call) :
    let pipe := run (call library) (start session) calls
    (pipe.tls.stream = none → pipe.got = [] ∧ pipe.wrote = []) ∧
    ∀ session memory, pipe.tls.current = some (session, memory) →
      session.read ++ memory.inbound = pipe.fed ∧
      session.written = pipe.taken ++ memory.outbound ∧
      session.given = pipe.got ++ pipe.tls.plaintext ∧
      session.accepted ++ pipe.tls.pending = pipe.wrote := by
  have flows : (run (call library) (start session) calls).Flows :=
    run_always (fun self call held => flows_call library self call held) calls
      (TlsState.flow_start session)
  refine ⟨fun none => ⟨(flows.plain none).1, (flows.plain none).2.1⟩, fun session memory there => ?_⟩
  exact ⟨flows.inbound _ _ there, flows.outbound _ _ there, flows.plaintext _ _ there,
    flows.pending _ _ there⟩

end Pipe

end Unroxy.OpenVpn
