import Unroxy.Lib.Arena
import Unroxy.Lib.Slab
import Unroxy.OpenVpn.Stack

/-!
Owns the `run` loop of `openvpn/stack.rs` with all its connections: the command
channel, the device queues, the socket set and the passes over `conns`.

A run is any interleaving of the loop's operations with those of the clients.
What `select!` takes, what `Interface::poll` reads and transmits, whether
`send_data` fails and what a socket answers are arguments of the events. `links`
are the connections of `Connection.step`, the live and the removed ones; a
`Socket` holds the bytes that passed it, and `Traffic` the packets that passed
the loop. Neither is read.

Does not own the packets themselves, nor the requests that `open` sends.
-/

namespace Unroxy.OpenVpn

open Unroxy.Lib

/-! ### State -/

/-- What a smoltcp socket has taken with `send_slice` and returned with
`recv_slice`. -/
structure Socket where
  accepted : Bytes
  received : Bytes
deriving DecidableEq, Repr

def Socket.new : Socket := ⟨[], []⟩

structure Conn where
  handle : Nat
  /-- The connection whose ends of the channels it has. -/
  link : Nat
  closed : Bool
deriving DecidableEq, Repr

structure DeviceState where
  inbound : List Bytes
  outbound : List Bytes
deriving DecidableEq, Repr

/-- The packets that went through the loop. -/
structure Traffic where
  /-- What `recv_data` returned, with how many packets were waiting then. -/
  arrived : List (Bytes × Nat)
  /-- What the interface has read. -/
  ingested : List Bytes
  /-- What the interface has transmitted. -/
  emitted : List Bytes
  /-- What was given to `send_data`, with how that ended. -/
  tried : List (Bytes × Bool)
deriving DecidableEq, Repr

/-- Where the loop is in its turn. -/
inductive Phase where
  /-- Before `select!`. -/
  | select
  /-- Before `iface.poll`. -/
  | poll
  /-- Before `device.outbound.pop_front`. -/
  | transmit
  /-- At the connection with this index. -/
  | service (index : Nat)
  /-- Before `conns.retain`. -/
  | retain
  | stopped
  | panicked
deriving DecidableEq, Repr

instance : Inhabited Connection := ⟨.opened⟩

structure StackRun where
  device : DeviceState
  sockets : Slab Socket
  conns : List Conn
  links : Arena Connection
  /-- The errors that `Command::Open` was answered with. -/
  refused : List String
  phase : Phase
  traffic : Traffic
deriving DecidableEq, Repr

/-! ### Operations on one connection -/

namespace Connection

/-- An operation of the client, not of the loop. -/
def Step.ofClient : Step → Bool
  | .pollWrite _ | .pollRead _ | .dropStream => true
  | _ => false

/-- The loop's ends of the channels are dropped. -/
def forsaken (self : Connection) : Connection :=
  { self with stage := .removed
              toClient := self.toClient.dropSender
              fromClient := self.fromClient.dropReceiver }

end Connection

/-- What the loop's operation on a connection does to its socket. -/
def Socket.serve (self : Socket) (link : Connection) (action : Connection.Step) : Socket :=
  match action, link.stage with
  | .recvSlice canRecv (some bytes), .top =>
      if canRecv ∧ link.toClient.capacity > 0 then
        { self with received := self.received ++ bytes.take chunkSize }
      else
        self
  | .sendSlice (some count), .offer chunk =>
      { self with accepted := self.accepted ++ chunk.take count }
  | _, _ => self

namespace StackRun

def start : StackRun where
  device := ⟨[], []⟩
  sockets := .empty
  conns := []
  links := .empty
  refused := []
  phase := .select
  traffic := ⟨[], [], [], []⟩

inductive Event where
  /-- A client uses or drops its stream. -/
  | client (link : Nat) (action : Connection.Step)
  /-- `select!` takes a `Command::Open`; `socket.connect` may fail. -/
  | «open» (failure : Option String)
  /-- `commands.recv` returns `None`. -/
  | close
  /-- `select!` takes what `recv_data` returned. -/
  | packet (received : Option Bytes)
  | tick
  /-- `iface.poll` reads so many packets and transmits these. -/
  | poll (ingested : Nat) (emitted : List Bytes)
  /-- `send_data` on the next packet. -/
  | transmit (sent : Bool)
  /-- The loop's next operation on the connection it is at. -/
  | serve (action : Connection.Step)
  | retain
deriving DecidableEq, Repr

/-- `Command::Open`: the socket is in the set before it connects. -/
def openSocket (self : StackRun) (failure : Option String) : StackRun :=
  let (handle, sockets) := self.sockets.insert Socket.new
  match failure with
  | none =>
      let (link, links) := self.links.alloc .opened
      { self with sockets := sockets, links := links
                  conns := self.conns ++ [⟨handle, link, false⟩], phase := .poll }
  | some error =>
      { self with sockets := sockets, refused := self.refused ++ [error], phase := .poll }

def receive (self : StackRun) : Option Bytes → StackRun
  | none => { self with phase := .poll }
  | some packet =>
      let arrived := self.traffic.arrived ++ [(packet, self.device.inbound.length)]
      let self := { self with traffic := { self.traffic with arrived := arrived }, phase := .poll }
      if self.device.inbound.length < queueCapacity then
        { self with device := { self.device with inbound := self.device.inbound ++ [packet] } }
      else
        self

def pollInterface (self : StackRun) (ingested : Nat) (emitted : List Bytes) : StackRun :=
  { self with
    device := ⟨self.device.inbound.drop ingested, self.device.outbound ++ emitted⟩
    traffic := { self.traffic with
      ingested := self.traffic.ingested ++ self.device.inbound.take ingested
      emitted := self.traffic.emitted ++ emitted }
    phase := .transmit }

def transmit (self : StackRun) (sent : Bool) : StackRun :=
  match self.device.outbound with
  | [] => { self with phase := .service 0 }
  | packet :: rest =>
      { self with
        device := { self.device with outbound := rest }
        traffic := { self.traffic with tried := self.traffic.tried ++ [(packet, sent)] }
        phase := if sent then .transmit else .service 0 }

/-- One operation of the pass over `conns`. -/
def serve (self : StackRun) (index : Nat) (action : Connection.Step) : StackRun :=
  match self.conns[index]? with
  | none => { self with phase := .retain }
  | some conn =>
      match self.sockets.get? conn.handle with
      | none => { self with phase := .panicked }
      | some socket =>
          let link := self.links.get conn.link
          match action, link.stage with
          | .isOpen true, .finish =>
              { self with links := self.links.modify conn.link (·.step action)
                          phase := .service (index + 1) }
          | .isOpen false, .finish =>
              { self with conns := self.conns.set index { conn with closed := true }
                          phase := .service (index + 1) }
          | .isOpen _, _ => self
          | _, _ =>
              if action.ofClient then
                self
              else
                { self with sockets := self.sockets.replace conn.handle (socket.serve link action)
                            links := self.links.modify conn.link (·.step action) }

/-- `retain` drops a connection: its socket is removed, and with the `Conn` go
the loop's ends of its channels. -/
def release (self : StackRun) (conn : Conn) : StackRun :=
  match self.sockets.remove? conn.handle with
  | none => { self with phase := .panicked }
  | some (_, sockets) =>
      { self with sockets := sockets
                  links := self.links.modify conn.link (·.step (.isOpen false)) }

def retain (self : StackRun) : StackRun :=
  (self.conns.filter Conn.closed).foldl release
    { self with conns := self.conns.filter fun conn => !conn.closed, phase := .select }

/-- The loop ends and everything it has is dropped. -/
def stop (self : StackRun) : StackRun :=
  { self with
    sockets := .empty
    conns := []
    links := self.conns.foldl (fun links conn => links.modify conn.link (·.forsaken)) self.links
    phase := .stopped }

def step (self : StackRun) (event : Event) : StackRun :=
  match event, self.phase with
  | .client link action, _ =>
      if action.ofClient then
        { self with links := self.links.modify link (·.step action) }
      else
        self
  | .open failure, .select => self.openSocket failure
  | .close, .select => self.stop
  | .packet received, .select => self.receive received
  | .tick, .select => { self with phase := .poll }
  | .poll ingested emitted, .poll => self.pollInterface ingested emitted
  | .transmit sent, .transmit => self.transmit sent
  | .serve action, .service index => self.serve index action
  | .retain, .retain => self.retain
  -- The loop is elsewhere in its turn.
  | _, _ => self

end StackRun

/-! ### What one operation does to a connection -/

namespace Connection

/-- A client changes neither the loop's place nor what passed the socket. -/
theorem step_ofClient (self : Connection) {action : Step} (client : action.ofClient = true) :
    (self.step action).stage = self.stage ∧ (self.step action).accepted = self.accepted ∧
      (self.step action).received = self.received := by
  cases action with
  | pollWrite buffer =>
      simp only [step, pollWrite]
      split
      · exact ⟨rfl, rfl, rfl⟩
      · split <;> exact ⟨rfl, rfl, rfl⟩
  | pollRead remaining =>
      simp only [step, pollRead]
      split <;> exact ⟨rfl, rfl, rfl⟩
  | dropStream => exact ⟨rfl, rfl, rfl⟩
  | _ => cases client

theorem step_isOpen {self : Connection} (finish : self.stage = .finish) (answer : Bool) :
    self.step (.isOpen answer) = if answer then { self with stage := .top } else self.forsaken := by
  simp only [step, finish]
  rfl

/-- To be dropped between two passes is to be found closed in one. -/
theorem forsaken_eq {self : Connection} (top : self.stage = .top) :
    self.forsaken = run step self [.recvSlice false none, .canSend false, .isOpen false] := by
  simp [run, step, top, recvSlice, forsaken]

/-- Only `is_open` ends a connection. -/
theorem live_step {self : Connection} (live : self.stage ≠ .removed) {action : Step}
    (other : ∀ answer, action ≠ .isOpen answer) : (self.step action).stage ≠ .removed := by
  by_cases client : action.ofClient = true
  · rwa [(self.step_ofClient client).1]
  · unfold step
    split
    case h_4 canRecv answer stage =>
      simp only [recvSlice]
      split
      · cases answer with
        | none => simp
        | some bytes =>
            dsimp only
            split <;> simp
      · simp
    case h_6 answer stage => cases answer <;> simp
    case h_7 stage => split <;> simp
    case h_8 answer chunk stage =>
      cases answer with
      | none => simp [sendSlice]
      | some count =>
          simp only [sendSlice]
          split <;> simp
    case h_10 answer stage => exact absurd rfl (other answer)
    case h_11 => exact live
    all_goals first | exact absurd rfl client | simp

end Connection

/-- The socket's bytes are those of the connection. -/
structure Socket.Mirrors (socket : Socket) (link : Connection) : Prop where
  accepted : socket.accepted = link.accepted
  received : socket.received = link.received

theorem Socket.mirrors_new : Socket.Mirrors .new .opened := ⟨rfl, rfl⟩

/-- The connection and its socket take the same step. -/
theorem Socket.Mirrors.serve {socket : Socket} {link : Connection}
    (mirrors : Mirrors socket link) {action : Connection.Step} (loop : action.ofClient = false)
    (before : ∀ answer, action ≠ .isOpen answer) :
    Mirrors (socket.serve link action) (link.step action) := by
  have accepted := mirrors.accepted
  have received := mirrors.received
  cases action with
  | recvSlice canRecv answer =>
      cases stage : link.stage with
      | top =>
          simp only [Connection.step, stage, Connection.recvSlice]
          cases answer with
          | none =>
              simp only [Socket.serve]
              split <;> exact ⟨accepted, received⟩
          | some bytes =>
              simp only [Socket.serve, stage]
              split
              case isTrue =>
                split
                case isTrue => exact ⟨accepted, by simp [received]⟩
                case isFalse nothing =>
                  have empty : bytes.take chunkSize = [] :=
                    List.length_eq_zero_iff.mp (Nat.eq_zero_of_not_pos nothing)
                  exact ⟨accepted, by simp [received, empty]⟩
              case isFalse => exact ⟨accepted, received⟩
      | _ => cases answer <;> simpa only [Connection.step, Socket.serve, stage] using mirrors
  | sendSlice answer =>
      cases stage : link.stage with
      | offer chunk =>
          cases answer with
          | none =>
              simp only [Connection.step, Socket.serve, stage]
              exact ⟨accepted, received⟩
          | some count =>
              simp only [Connection.step, Socket.serve, stage, Connection.sendSlice]
              split
              case isTrue whole =>
                have all : chunk.take count = chunk :=
                  List.take_of_length_le (by rw [← whole]; exact Nat.min_le_left _ _)
                exact ⟨by simp [accepted, all], received⟩
              case isFalse => exact ⟨by simp [accepted, ← List.take_eq_take_min], received⟩
      | _ => cases answer <;> simpa only [Connection.step, Socket.serve, stage] using mirrors
  | deliver =>
      cases stage : link.stage <;> simp only [Connection.step, Socket.serve, stage] <;>
        exact ⟨accepted, received⟩
  | canSend answer =>
      cases stage : link.stage <;> simp only [Connection.step, Socket.serve, stage] <;>
        exact ⟨accepted, received⟩
  | tryRecv =>
      cases stage : link.stage with
      | drain =>
          simp only [Connection.step, Socket.serve, stage]
          split <;> exact ⟨accepted, received⟩
      | _ => simpa only [Connection.step, Socket.serve, stage] using mirrors
  | returnRest =>
      cases stage : link.stage <;> simp only [Connection.step, Socket.serve, stage] <;>
        exact ⟨accepted, received⟩
  | isOpen answer => exact absurd rfl (before answer)
  | _ => cases loop

end Unroxy.OpenVpn
