import Unroxy.OpenVpn.Config
import Unroxy.Lib.Task

/-!
Owns `MemoryStream` and `TlsState` of `openvpn/tls.rs`.

The `btls` session is a parameter: `Engine` says what each of its calls does to
the session and to the memory stream under it, and nothing else is known of it.
-/

namespace Unroxy.OpenVpn

open Unroxy.Lib

structure MemoryStream where
  inbound : Bytes
  outbound : Bytes
deriving DecidableEq, Repr

def MemoryStream.feed (self : MemoryStream) (data : Bytes) : MemoryStream :=
  { self with inbound := self.inbound ++ data }

def MemoryStream.takeOutbound (self : MemoryStream) : Bytes × MemoryStream :=
  (self.outbound, { self with outbound := [] })

/-- How `MidHandshakeSslStream::handshake` ends. -/
inductive Handshake where
  | done
  | wouldBlock
  | failure (message : String)
  | setupFailure (message : String)
deriving DecidableEq, Repr

/-- The calls `TlsState` makes on a `btls` session of state `σ`. `read` stands
for the loop over `ssl_read`: the chunks it yields before it reports 0 or an
error. -/
structure Engine (σ : Type) where
  handshake : σ → MemoryStream → Handshake × σ × MemoryStream
  read : σ → MemoryStream → List Bytes × σ × MemoryStream
  write : σ → MemoryStream → Bytes → Option Nat × σ × MemoryStream

structure TlsState (σ : Type) where
  handshake : Option (σ × MemoryStream)
  stream : Option (σ × MemoryStream)
  plaintext : Bytes
  offset : Nat
  pending : Bytes

namespace TlsState

variable {σ : Type}

def start (session : σ) : TlsState σ where
  handshake := some (session, ⟨[], []⟩)
  stream := none
  plaintext := []
  offset := 0
  pending := []

def isReady (self : TlsState σ) : Bool := self.stream.isSome

/-- Drain `ssl_read` into `plaintext`. -/
def pump (engine : Engine σ) : Task (TlsState σ) Error Unit := .modify fun self =>
  match self.stream with
  | none => self
  | some (session, memory) =>
      let (chunks, session, memory) := engine.read session memory
      { self with
        stream := some (session, memory)
        plaintext := self.plaintext ++ chunks.flatten }

def feed (engine : Engine σ) (ciphertext : Bytes) : Task (TlsState σ) Error Unit := do
  let self ← Task.gets id
  match self.handshake, self.stream with
  | some (session, memory), _ =>
      Task.modify fun self => { self with handshake := some (session, memory.feed ciphertext) }
  | none, some (session, memory) =>
      Task.modify fun self => { self with stream := some (session, memory.feed ciphertext) }
      pump engine
  | none, none => Task.throw (.tls "tls closed")

def drive (engine : Engine σ) : Task (TlsState σ) Error Unit := do
  let self ← Task.gets id
  match self.handshake with
  | none => pump engine
  | some (session, memory) =>
      let (result, session, memory) := engine.handshake session memory
      match result with
      | .done =>
          Task.modify fun self =>
            { self with handshake := none, stream := some (session, memory) }
          pump engine
      | .wouldBlock =>
          Task.modify fun self => { self with handshake := some (session, memory) }
      | .failure message =>
          Task.modify fun self => { self with handshake := none }
          Task.throw (.tls message)
      | .setupFailure message =>
          Task.modify fun self => { self with handshake := none }
          Task.throw (.tls message)

def takeOutbound (self : TlsState σ) : Bytes × TlsState σ :=
  match self.handshake, self.stream with
  | some (session, memory), _ =>
      let (taken, memory) := memory.takeOutbound
      (taken, { self with handshake := some (session, memory) })
  | none, some (session, memory) =>
      let (taken, memory) := memory.takeOutbound
      (taken, { self with stream := some (session, memory) })
  | none, none => ([], self)

def takePlaintext (self : TlsState σ) : Option Bytes × TlsState σ :=
  if self.offset ≥ self.plaintext.length then
    (none, { self with plaintext := [], offset := 0 })
  else
    (some (self.plaintext.drop self.offset), { self with plaintext := [], offset := 0 })

/-- The loop of `drain_pending`: every turn but the last writes at least one of
the pending bytes. -/
def drainPending (engine : Engine σ) : Task (TlsState σ) Error Unit :=
  Task.loop (fun self => self.pending.length) (fun (_ : Unit) => do
    let self ← Task.gets id
    if self.pending.isEmpty then
      return .inr ()
    else
      match self.stream with
      | none => Task.throw (.tls "handshake incomplete")
      | some (session, memory) =>
          let (written, session, memory) := engine.write session memory self.pending
          Task.modify fun self => { self with stream := some (session, memory) }
          match written with
          | none | some 0 => return .inr ()
          | some (count + 1) =>
              Task.modify fun self => { self with pending := self.pending.drop (count + 1) }
              return .inl ()) ()

def write (engine : Engine σ) (data : Bytes) : Task (TlsState σ) Error Unit := do
  let self ← Task.gets id
  if self.stream.isNone then
    Task.throw (.tls "handshake incomplete")
  else
    Task.modify fun self => { self with pending := self.pending ++ data }
    drainPending engine

end TlsState

end Unroxy.OpenVpn
