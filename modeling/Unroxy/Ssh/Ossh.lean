import Unroxy.Ssh.Rc4

/-!
Owns `OsshStream` of `ssh/ossh.rs`: the stream that hides the beginning of an SSH
connection under RC4.

The inner stream is a script: `writes` and `reads` say how it answers each
`poll_write` and `poll_read`, and a script that has run out leaves the caller
waiting. An index out of range is an error of its own, so a panic of the code is
a result. When a buffer gives its memory back is left out.
-/

namespace Unroxy.Ssh

open Unroxy.Lib

def magic : UInt32 := 0x0BF5CA7E
def maxPacket : Nat := 256 * 1024
def maxLine : Nat := 4096
def msgNewkeys : UInt8 := 21

/-- `\r\n`. -/
def crlf : Bytes := [13, 10]

/-- `SSH-`. -/
def sshMark : Bytes := [83, 83, 72, 45]

inductive Poll (α : Type) where
  | pending
  | ready (value : α)
deriving DecidableEq, Repr

/-- `io::Error`: the one of the code, and the inner stream's. -/
inductive IoError where
  | writeZero
  | inner
deriving DecidableEq, Repr

/-- How the inner stream answers a `poll_write`: it takes at most `limit` of the
bytes it is offered. -/
inductive WriteAnswer where
  | pending
  | takes (limit : Nat)
  | fails
deriving DecidableEq, Repr

def readSize : Nat := 8192

/-- How the inner stream answers a `poll_read` with a buffer of `readSize`
bytes. -/
inductive ReadAnswer where
  | pending
  | delivers (piece : { bytes : Bytes // bytes.length ≤ readSize })
  | fails
deriving DecidableEq, Repr

/-- The inner stream, with all that it has been given. -/
structure InnerStream where
  received : Bytes
  writes : List WriteAnswer
  reads : List ReadAnswer
deriving DecidableEq, Repr

inductive WriteState where
  | ident
  | kex
  | done
deriving DecidableEq, Repr

inductive ReadState where
  | ident
  | kex
  | done
deriving DecidableEq, Repr

structure OsshStream where
  inner : InnerStream
  c2s : Rc4
  s2c : Rc4
  wstate : WriteState
  wbuf : Bytes
  wout : Bytes
  rstate : ReadState
  rin : Bytes
  rbuf : Bytes
  rline : Bytes
  kexPrefix : Option (Bytes × Nat)
deriving DecidableEq, Repr

/-! ### Packets -/

/-- `u32::from_be_bytes(packet[..4].try_into().unwrap())`. -/
def lengthField (packet : Bytes) : Checked Nat := do
  match u32FromBe (← slice packet 0 4) with
  | some value => return value.toNat
  | none => throw .outOfRange

/-- The loop of `normalize_packet`, which comes to an end within 8 turns. -/
def growPadding (payloadLen : Nat) : Nat → Nat → Nat
  | 0, newPadding => newPadding
  | fuel + 1, newPadding =>
      if (payloadLen + 1 + newPadding + 4) % 8 = 0 then newPadding
      else growPadding payloadLen fuel (newPadding + 1)

/-- A packet of the minimal padding, which is zero. -/
def plainPacket (payload : Bytes) : Bytes :=
  let newPadding := growPadding payload.length 8 4
  u32ToBe (UInt32.ofNat (payload.length + 1 + newPadding)) ++ [UInt8.ofNat newPadding] ++
    payload ++ List.replicate newPadding 0

def normalizePacket (packet : Bytes) : Checked Bytes := do
  let packetLength ← lengthField packet
  let paddingLength := (← index packet 4).toNat
  let payloadLength := packetLength - (paddingLength + 1)
  let payloadEnd := min (5 + payloadLength) packet.length
  let payload ← slice packet 5 payloadEnd
  return plainPacket payload

/-- Where the first CRLF is. -/
def findCrlf : Bytes → Option Nat
  | 13 :: 10 :: _ => some 0
  | _ :: rest => (findCrlf rest).map (· + 1)
  | [] => none

namespace OsshStream

/-- `OsshStream::new`, for the seed and the padding it draws. -/
def new (sha1 : Sha1) (inner : InnerStream) (keyword : String)
    (seed : Vector UInt8 seedLength) (padding : Bytes) : OsshStream :=
  let c2sKey := deriveKey sha1 seed keyword.toUTF8.toList "client_to_server".toUTF8.toList
  let s2cKey := deriveKey sha1 seed keyword.toUTF8.toList "server_to_client".toUTF8.toList
  let (encrypted, c2s) := (Rc4.new c2sKey.toList).apply
    (u32ToBe magic ++ u32ToBe (UInt32.ofNat padding.length) ++ padding)
  { inner
    c2s
    s2c := Rc4.new s2cKey.toList
    wstate := .ident
    wbuf := []
    wout := seed.toList ++ encrypted
    rstate := .ident
    rin := []
    rbuf := []
    rline := []
    kexPrefix := none }

/-! ### Writing -/

def writeIdent (self : OsshStream) : OsshStream :=
  match self.wstate, findCrlf self.wbuf with
  | .ident, some index =>
      let (line, c2s) := self.c2s.apply (self.wbuf.take (index + 2))
      { self with
        wbuf := self.wbuf.drop (index + 2)
        c2s
        wout := self.wout ++ line
        wstate := .kex }
  | _, _ => self

/-- The loop over packets; every turn but the last takes one off `wbuf`. -/
def writeKex : Nat → OsshStream → Checked OsshStream
  | 0, self => return self
  | fuel + 1, self => do
      if self.wbuf.length < 5 then
        return self
      else
        let packetLength ← lengthField self.wbuf
        if ¬ (1 ≤ packetLength ∧ packetLength ≤ maxPacket) then
          return self
        else
          let total := packetLength + 4
          if self.wbuf.length < total then
            return self
          else
            let packet := self.wbuf.take total
            let kind ← index packet 5
            let (encrypted, c2s) := self.c2s.apply packet
            let self := { self with
              wbuf := self.wbuf.drop total, c2s, wout := self.wout ++ encrypted }
            if kind = msgNewkeys then
              return { self with wstate := .done }
            else
              writeKex fuel self

def writeDone (self : OsshStream) : OsshStream :=
  if self.wstate = .done ∧ ¬ self.wbuf.isEmpty then
    { self with wout := self.wout ++ self.wbuf, wbuf := [] }
  else
    self

def processWrite (self : OsshStream) : Checked OsshStream := do
  let self := self.writeIdent
  let self ← if self.wstate = .kex then writeKex self.wbuf.length self else pure self
  return self.writeDone

/-- The inner stream has these answers left. -/
def answered (self : OsshStream) (writes : List WriteAnswer) : OsshStream :=
  { self with inner := { self.inner with writes } }

/-- `flush_out` on these answers of the inner stream. -/
def flushOn : List WriteAnswer → OsshStream → Poll (Except IoError Unit) × OsshStream
  | [], self =>
      (if self.wout.isEmpty then .ready (.ok ()) else .pending, self.answered [])
  | answer :: answers, self =>
      if self.wout.isEmpty then
        (.ready (.ok ()), self.answered (answer :: answers))
      else
        match answer with
        | .pending => (.pending, self.answered answers)
        | .fails => (.ready (.error .inner), self.answered answers)
        | .takes limit =>
            let count := min limit self.wout.length
            if count = 0 then
              (.ready (.error .writeZero), self.answered answers)
            else
              flushOn answers { self with
                inner := { self.inner with received := self.inner.received ++ self.wout.take count }
                wout := self.wout.drop count }

def flushOut (self : OsshStream) : Poll (Except IoError Unit) × OsshStream :=
  flushOn self.inner.writes self

def pollWrite (self : OsshStream) (buf : Bytes) :
    Checked (Poll (Except IoError Nat) × OsshStream) :=
  match self.flushOut with
  | (.pending, self) => return (.pending, self)
  -- An error of the first flush is not reported.
  | (.ready _, self) => do
      let self ← { self with wbuf := self.wbuf ++ buf }.processWrite
      match self.flushOut with
      | (.ready (.error failure), self) => return (.ready (.error failure), self)
      | (_, self) => return (.ready (.ok buf.length), self)

/-- The body of `poll_flush` and `poll_shutdown`, with the inner stream's answer
to its own call of that name. -/
def flushThen (self : OsshStream) (answer : Poll (Except IoError Unit)) :
    Poll (Except IoError Unit) × OsshStream :=
  match self.flushOut with
  | (.pending, self) => (.pending, self)
  | (.ready (.error failure), self) => (.ready (.error failure), self)
  | (.ready (.ok ()), self) => (answer, self)

def pollFlush (self : OsshStream) (flush : Poll (Except IoError Unit)) :
    Poll (Except IoError Unit) × OsshStream := self.flushThen flush

def pollShutdown (self : OsshStream) (shutdown : Poll (Except IoError Unit)) :
    Poll (Except IoError Unit) × OsshStream := self.flushThen shutdown

/-! ### Reading -/

/-- The end of a turn in the key exchange, with the decrypted beginning of a
packet: whether the loop goes on. -/
def readRest (self : OsshStream) (header : Bytes) (remaining : Nat) :
    Checked (Bool × OsshStream) := do
  if self.rin.length < remaining then
    return (false, { self with kexPrefix := some (header, remaining) })
  else
    let (rest, s2c) := self.s2c.apply (self.rin.take remaining)
    let packet := header ++ rest
    let normalized ← normalizePacket packet
    let self := { self with
      kexPrefix := none, rin := self.rin.drop remaining, s2c, rbuf := self.rbuf ++ normalized }
    if packet[5]? = some msgNewkeys then
      return (false, { self with rstate := .done })
    else
      return (true, self)

/-- A turn of the loop of `process_read`: whether the loop goes on. -/
def readTurn (self : OsshStream) : Checked (Bool × OsshStream) :=
  match self.rstate with
  | .ident =>
      match self.rin with
      | [] => return (false, self)
      | byte :: rin =>
          let (plain, s2c) := self.s2c.apply [byte]
          let rline := self.rline ++ plain
          let self := { self with rin, s2c, rline }
          if rline.length > maxLine then
            return (true, { self with rline := [] })
          else if crlf.isSuffixOf rline then
            if sshMark.isPrefixOf rline then
              return (false, { self with rbuf := self.rbuf ++ rline, rline := [], rstate := .kex })
            else
              return (true, { self with rline := [] })
          else
            return (true, self)
  | .kex =>
      match self.kexPrefix with
      | some (header, remaining) => self.readRest header remaining
      | none => do
          if self.rin.length < 5 then
            return (false, self)
          else
            let (header, s2c) := self.s2c.apply (self.rin.take 5)
            let self := { self with rin := self.rin.drop 5, s2c }
            let packetLength ← lengthField header
            if ¬ (1 ≤ packetLength ∧ packetLength ≤ maxPacket) then
              return (false, self)
            else
              self.readRest header (packetLength - 1)
  | .done => return (false, self)

def readTurns : Nat → OsshStream → Checked OsshStream
  | 0, self => return self
  | fuel + 1, self => do
      let (again, self) ← self.readTurn
      if again then readTurns fuel self else return self

/-- `process_read`; every turn that is followed by another takes a byte off
`rin`, or the packet whose beginning is in `kex_prefix`. -/
def processRead (self : OsshStream) : Checked OsshStream := readTurns (self.rin.length + 2) self

/-- At most this many turns of the loop of `poll_read` with a buffer of `size`
bytes: what is put into the buffer. -/
def readPolls (size : Nat) : Nat → OsshStream → Checked (Poll (Except IoError Bytes) × OsshStream)
  | 0, self => return (.pending, self)
  | fuel + 1, self => do
      let self ← self.processRead
      if ¬ self.rbuf.isEmpty then
        let count := min size self.rbuf.length
        return (.ready (.ok (self.rbuf.take count)), { self with rbuf := self.rbuf.drop count })
      else if self.rstate = .done ∧ ¬ self.rin.isEmpty then
        readPolls size fuel { self with rbuf := self.rbuf ++ self.rin, rin := [] }
      else
        match self.inner.reads with
        | [] => return (.pending, self)
        | .pending :: reads => return (.pending, { self with inner := { self.inner with reads } })
        | .fails :: reads =>
            return (.ready (.error .inner), { self with inner := { self.inner with reads } })
        | .delivers piece :: reads =>
            let self := { self with inner := { self.inner with reads } }
            if piece.val.isEmpty then
              return (.ready (.ok []), self)
            else
              readPolls size fuel { self with rin := self.rin ++ piece.val }

/-- `poll_read`; every turn of its loop but the last two takes an answer of the
inner stream. -/
def pollRead (self : OsshStream) (size : Nat) :
    Checked (Poll (Except IoError Bytes) × OsshStream) :=
  readPolls size (self.inner.reads.length + 2) self

end OsshStream

end Unroxy.Ssh
