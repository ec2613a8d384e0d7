import Unroxy.OpenVpn.DataCipher
import Unroxy.OpenVpn.Packet
import Unroxy.OpenVpn.Replay
import Unroxy.OpenVpn.Tls

/-!
Owns `Control` of `openvpn/control.rs`: the control channel, the key exchange
and the data channel of one connection.

A `Session` is a `Control` with its socket. The socket is a script: `arrivals`
says how each wait for a packet ends and `faults` which sends fail. Deadlines
and the two-second resend timer are read from the same script, so a run takes
any timing the clock could give it; a script that has run out leaves the code
waiting. `history` records what the code did to the outside and is never read
by it.

Does not own `apply_push` and `parse_push`.
-/

namespace Unroxy.OpenVpn

open Unroxy.Lib

def maxControlPayload : Nat := 1184
def keySourceServerLen : Nat := 32 + 32

/-! ### State -/

structure Keys where
  encrypt : DataCipher
  decrypt : DataCipher
deriving DecidableEq, Repr

structure Control (σ : Type) where
  tls : TlsState σ
  sessionId : SessionId
  remoteSessionId : SessionId
  nextPacketId : UInt32
  cipher : Cipher
  auth : Auth
  keys : Option Keys
  seed : Option SeedData
  peerId : PeerId
  sendCounter : UInt32
  replay : ReplayWindow
  acked : List UInt32
  lastPayload : Bytes
  recvNext : UInt32
  reorder : Std.TreeMap UInt32 Bytes

/-- How one wait of the code ends. `expired` is a deadline found passed before
the wait. `overdue` is what `last_resend.elapsed() > 2 s` says after it. -/
inductive Arrival where
  | expired
  | failed
  | silent (overdue : Bool)
  | datagram (raw : Bytes) (overdue : Bool)
deriving DecidableEq, Repr

/-- What the code does to the outside. -/
inductive Event where
  /-- `take_outbound` returned these bytes. -/
  | took (bytes : Bytes)
  /-- `send_raw` sent this datagram. -/
  | sent (datagram : Bytes)
  /-- `send_raw` failed on this datagram. -/
  | lost (datagram : Bytes)
  /-- `retransmit_control` found this last payload. -/
  | resend (payload : Bytes)
  /-- A packet was encrypted under this AEAD key and nonce. -/
  | encrypted (key nonce : Bytes)
deriving DecidableEq, Repr

structure Session (σ : Type) where
  control : Control σ
  arrivals : List Arrival
  faults : List Bool
  overdue : Bool
  history : List Event

/-- `connect_to` up to the handshake, once the server's reset has arrived. -/
def Control.start {σ : Type} (session : σ) (sessionId remoteSessionId : SessionId)
    (resetId : UInt32) (cipher : Cipher) (auth : Auth) : Control σ where
  tls := TlsState.start session
  sessionId := sessionId
  remoteSessionId := remoteSessionId
  nextPacketId := 1
  cipher := cipher
  auth := auth
  keys := none
  seed := none
  peerId := PeerId.none
  sendCounter := 0
  replay := ReplayWindow.new
  acked := [resetId]
  lastPayload := []
  recvNext := resetId + 1
  reorder := ∅

abbrev Act (σ α : Type) := Task (Session σ) Error α

namespace Session

variable {σ : Type}

/-! ### Reading and writing the state -/

def log (event : Event) : Act σ Unit :=
  Task.modify fun self => { self with history := self.history ++ [event] }

def update (change : Control σ → Control σ) : Act σ Unit :=
  Task.modify fun self => { self with control := change self.control }

/-- Run one of the functions of `TlsState`. -/
def tls {α : Type} (task : Task (TlsState σ) Error α) : Act σ α :=
  Task.zoom (fun self => self.control.tls)
    (fun after self => { self with control := { self.control with tls := after } }) task

def takeOutbound : Act σ Bytes := do
  let self ← Task.gets Session.control
  let (taken, after) := self.tls.takeOutbound
  update fun control => { control with tls := after }
  log (.took taken)
  return taken

def takePlaintext : Act σ (Option Bytes) := do
  let self ← Task.gets Session.control
  let (taken, after) := self.tls.takePlaintext
  update fun control => { control with tls := after }
  return taken

/-! ### The socket -/

def sendRaw (datagram : Bytes) : Act σ Unit := do
  let self ← Task.gets id
  Task.modify fun self => { self with faults := self.faults.tail }
  if self.faults.headD false then
    log (.lost datagram)
    Task.throw .socket
  else
    log (.sent datagram)

/-- `remaining.is_zero()`. -/
def deadlinePassed : Act σ Bool := do
  let self ← Task.gets id
  match self.arrivals with
  | .expired :: rest =>
      Task.modify fun self => { self with arrivals := rest }
      return true
  | _ => return false

def recvPacket : Act σ (Option Packet) := do
  let self ← Task.gets id
  match self.arrivals with
  | [] => Task.lift .pending
  | .expired :: rest =>
      Task.modify fun self => { self with arrivals := rest }
      return none
  | .failed :: rest =>
      Task.modify fun self => { self with arrivals := rest }
      Task.throw .socket
  | .silent overdue :: rest =>
      Task.modify fun self => { self with arrivals := rest, overdue := overdue }
      return none
  | .datagram raw overdue :: rest =>
      Task.modify fun self => { self with arrivals := rest, overdue := overdue }
      Task.lift (.ofChecked (Packet.parse raw))

/-! ### The control channel -/

def recordAck (packetId : UInt32) (self : Control σ) : Control σ :=
  if packetId ∈ self.acked then
    self
  else
    { self with acked := (packetId :: self.acked).take maxAcks }

def sendAck (packetId : UInt32) : Act σ Unit := do
  update (recordAck packetId)
  let self ← Task.gets Session.control
  sendRaw ((pAckV1 <<< 3) :: (self.sessionId.toList ++
    encodeAcks self.acked self.remoteSessionId))

def sendControl (payload : Bytes) : Act σ Unit := do
  let self ← Task.gets Session.control
  let packetId := self.nextPacketId
  update fun control =>
    { control with nextPacketId := control.nextPacketId + 1, lastPayload := payload }
  sendRaw ((pControlV1 <<< 3) :: (self.sessionId.toList ++
    encodeAcks self.acked self.remoteSessionId) ++ u32ToBe packetId ++ payload)

def sendControlChunks (data : Bytes) : Act σ Unit :=
  Task.loop (fun _ => data.length) (fun offset => do
    if offset < data.length then
      let stop := min (offset + maxControlPayload) data.length
      sendControl ((data.drop offset).take (stop - offset))
      return .inl stop
    else
      return .inr ()) 0

def retransmitControl : Act σ Unit := do
  let self ← Task.gets Session.control
  let payload := self.lastPayload
  log (.resend payload)
  if payload.isEmpty then
    return ()
  else
    let packetId := self.nextPacketId
    update fun control => { control with nextPacketId := control.nextPacketId + 1 }
    sendRaw ((pControlV1 <<< 3) :: (self.sessionId.toList ++ [0]) ++ u32ToBe packetId ++ payload)

def flushTls : Act σ Unit := do
  let outbound ← takeOutbound
  if outbound.isEmpty then
    return ()
  else
    sendControlChunks outbound

/-- The `while let` of `accept_control`; every turn but the last removes an
entry of `reorder`. -/
def drainReorder (engine : Engine σ) : Act σ Unit :=
  Task.loop (fun self => self.control.reorder.size) (fun (_ : Unit) => do
    let self ← Task.gets Session.control
    match self.reorder[self.recvNext]? with
    | none => return .inr ()
    | some payload =>
        update fun control => { control with reorder := control.reorder.erase self.recvNext }
        tls (TlsState.feed engine payload)
        update fun control => { control with recvNext := control.recvNext + 1 }
        return .inl ()) ()

def acceptControl (engine : Engine σ) (packetId : UInt32) (payload : Bytes) : Act σ Unit := do
  let self ← Task.gets Session.control
  if packetId < self.recvNext then
    return ()
  else if packetId > self.recvNext then
    if self.reorder.size < 32 then
      update fun control => { control with reorder := control.reorder.insert packetId payload }
    else
      return ()
  else
    tls (TlsState.feed engine payload)
    update fun control => { control with recvNext := control.recvNext + 1 }
    drainReorder engine

/-- The `P_CONTROL_V1` arm of `pump` and `recv_data`. -/
def handleControl (engine : Engine σ) (packet : Packet) : Act σ Unit := do
  sendAck packet.packetId
  acceptControl engine packet.packetId packet.payload
  tls (TlsState.drive engine)
  flushTls

def pump (engine : Engine σ) : Act σ Unit :=
  Task.loop (fun self => self.arrivals.length) (fun (_ : Unit) => do
    if ← deadlinePassed then
      Task.throw .timeout
    else
      match ← recvPacket with
      | none =>
          let self ← Task.gets id
          if ¬ self.control.tls.isReady ∧ self.overdue then
            retransmitControl
            return .inl ()
          else
            return .inl ()
      | some packet =>
          if packet.opcode = pControlV1 then
            handleControl engine packet
            return .inr ()
          else
            return .inl ()) ()

def driveTls (engine : Engine σ) : Act σ Unit :=
  Task.loop (fun self => self.arrivals.length) (fun (_ : Unit) => do
    tls (TlsState.drive engine)
    let outbound ← takeOutbound
    if ¬ outbound.isEmpty then
      sendControlChunks outbound
    let self ← Task.gets Session.control
    if self.tls.isReady then
      return .inr ()
    else if ← deadlinePassed then
      Task.throw .timeout
    else
      pump engine
      return .inl ()) ()

/-! ### Negotiation -/

/-- What `exchange_keys` reads of the profile. -/
structure Profile where
  cipher : Cipher
  auth : Auth

/-- What `exchange_keys` draws. -/
structure ClientSecrets where
  preMaster : Vector UInt8 48
  random1 : Vector UInt8 32
  random2 : Vector UInt8 32

def writeString (out : Bytes) (value : String) : Outcome Error Bytes :=
  let bytes := value.toUTF8.toList
  if bytes.length > 65535 then
    .error (.control "string too long")
  else
    .ok (out ++ u16ToBe (UInt16.ofNat bytes.length) ++ bytes)

def optionsString (profile : Profile) : String :=
  "V4,dev-type tun,link-mtu 1557,tun-mtu 1500,proto UDPv4,auth " ++ profile.auth.asStr ++
    ",keysize " ++ toString (profile.cipher.keyLen * 8) ++ ",key-method 2,tls-client"

def peerInfo : String :=
  "IV_VER=2.6.9\nIV_PLAT=linux\nIV_TCPNL=1\nIV_NCP=2\n" ++
    "IV_CIPHERS=AES-256-GCM:AES-128-GCM:AES-256-CBC:AES-128-CBC\nIV_PROTO=2180\nIV_MTU=1500\n" ++
    "IV_SSL=OpenSSL\nIV_HWADDR=00:00:00:00:00:00\nIV_ACC=1,A:6,udp\nIV_IPV6=1\n"

def keyExchangePayload (profile : Profile) (secrets : ClientSecrets) : Outcome Error Bytes := do
  let payload := u32ToBe 0 ++ [2] ++ secrets.preMaster.toList ++ secrets.random1.toList ++
    secrets.random2.toList
  let payload ← writeString payload (optionsString profile)
  let payload ← writeString payload ""
  let payload ← writeString payload ""
  writeString payload peerInfo

/-- The server's answer to the key exchange: its two randoms, `none` while it
is incomplete. The four bytes before the key method are skipped. -/
def serverRandoms (buffer : Bytes) : Outcome Error (Option (Vector UInt8 32 × Vector UInt8 32)) :=
  if buffer.length < 5 + keySourceServerLen then
    .ok none
  else
    let method := buffer.getD 4 0
    if method ≠ 2 then
      .error (.control ("key method " ++ toString method.toNat))
    else
      .ok (some (Vector.ofFn fun i => buffer.getD (5 + i) 0,
        Vector.ofFn fun i => buffer.getD (5 + 32 + i) 0))

def exchangeKeys (engine : Engine σ) (profile : Profile) (secrets : ClientSecrets) :
    Act σ Unit := do
  let payload ← Task.lift (keyExchangePayload profile secrets)
  tls (TlsState.write engine payload)
  let outbound ← takeOutbound
  sendControlChunks outbound
  let (serverRandom1, serverRandom2) ←
    Task.loop (fun self => self.arrivals.length) (fun buffer => do
      if ← deadlinePassed then
        Task.throw .timeout
      else
        pump engine
        let chunk ← takePlaintext
        let buffer := buffer ++ chunk.getD []
        match ← Task.lift (serverRandoms buffer) with
        | none => return .inl buffer
        | some randoms => return .inr randoms) ([] : Bytes)
  update fun control =>
    { control with
      seed := some {
        preMaster := secrets.preMaster
        clientRandom1 := secrets.random1
        serverRandom1 := serverRandom1
        clientRandom2 := secrets.random2
        serverRandom2 := serverRandom2
        clientSid := control.sessionId
        serverSid := control.remoteSessionId } }

/-- `take_message`: the bytes from the first occurrence of `marker` up to the
next zero byte, and the buffer behind that byte. -/
def takeMessage (buffer marker : Bytes) : Option (Bytes × Bytes) :=
  match (List.range (buffer.length + 1 - marker.length)).find? fun start =>
      (buffer.drop start).take marker.length = marker with
  | none => none
  | some start =>
      match (buffer.drop start).findIdx? (· = 0) with
      | none => none
      | some offset =>
          some ((buffer.drop start).take offset, buffer.drop (start + offset + 1))

/-- `push_request`; the returned bytes are those of the reply string. -/
def pushRequest (engine : Engine σ) : Act σ Bytes := do
  tls (TlsState.write engine ("PUSH_REQUEST".toUTF8.toList ++ [0]))
  flushTls
  Task.loop (fun self => self.arrivals.length) (fun buffer => do
    if ← deadlinePassed then
      Task.throw .timeout
    else
      pump engine
      let chunk ← takePlaintext
      let buffer := buffer ++ chunk.getD []
      match takeMessage buffer "PUSH_REPLY".toUTF8.toList with
      | some (reply, _) => return .inr reply
      | none =>
          match takeMessage buffer "AUTH_FAILED".toUTF8.toList with
          | some _ => Task.throw .auth
          | none => return .inl buffer) ([] : Bytes)

/-! ### The data channel -/

def installKeys (crypto : Crypto) : Act σ Unit := do
  let self ← Task.gets Session.control
  update fun control => { control with seed := none }
  let seed ← Task.lift (.ofOption (.control "keys already installed") self.seed)
  let keys ← Task.lift (KeyMaterial.derive crypto seed self.cipher self.auth.size)
  let encrypt ← Task.lift (DataCipher.new self.cipher self.auth keys.encrypt keys.macEncrypt)
  let decrypt ← Task.lift (DataCipher.new self.cipher self.auth keys.decrypt keys.macDecrypt)
  update fun control => { control with keys := some { encrypt, decrypt } }

def sendData (crypto : Crypto) (iv : Vector UInt8 16) (payload : Bytes) : Act σ Unit := do
  update fun control => { control with sendCounter := control.sendCounter + 1 }
  let self ← Task.gets Session.control
  let counter := self.sendCounter
  let header := dataHeader self.cipher 0 self.peerId
  let keys ← Task.lift (.ofOption (.control "data keys missing") self.keys)
  let header := header ++ u32ToBe counter
  let encrypted ← Task.lift (keys.encrypt.encrypt crypto iv header counter payload)
  if keys.encrypt.cipher.isAead then
    log (.encrypted keys.encrypt.key (aeadNonce keys.encrypt.implicitIv counter))
  sendRaw (header ++ encrypted)

/-- The data arm of `recv_data`: the plaintext of a fresh packet, `none` for a
replayed one. -/
def acceptData (crypto : Crypto) (keys : Keys) (packet : Packet) : Act σ (Option Bytes) := do
  let (counter, plaintext) ← Task.lift (keys.decrypt.decrypt crypto packet.header packet.payload)
  let self ← Task.gets Session.control
  let (fresh, replay) := self.replay.accept counter
  update fun control => { control with replay := replay }
  return if fresh then some plaintext else none

/-- The `match` of `recv_data`: `inl` receives on, `inr` returns. -/
def handlePacket (crypto : Crypto) (engine : Engine σ) (packet : Packet) :
    Act σ (Unit ⊕ Option Bytes) := do
  if IsData packet.opcode then
    let self ← Task.gets Session.control
    match self.keys with
    | none => return .inl ()
    | some keys =>
        match ← acceptData crypto keys packet with
        | none => return .inl ()
        | some plaintext => return .inr (some plaintext)
  else if packet.opcode = pControlV1 then
    handleControl engine packet
    return .inl ()
  else if packet.opcode = pControlHardResetServerV2 then
    sendAck packet.packetId
    return .inl ()
  else
    return .inl ()

def recvData (crypto : Crypto) (engine : Engine σ) : Act σ (Option Bytes) :=
  Task.loop (fun self => self.arrivals.length) (fun (_ : Unit) => do
    if ← deadlinePassed then
      return .inr none
    else
      match ← recvPacket with
      | none => return .inr none
      | some packet => handlePacket crypto engine packet) ()

/-! ### Rules for the control channel -/

section Rules

variable {invariant : Session σ → Prop}

/-- What feeding TLS and the receiving side leave alone is kept. -/
theorem preserves_acceptControl {engine : Engine σ}
    (fed : ∀ payload, Task.Preserves invariant (tls (TlsState.feed engine payload)))
    (received : ∀ change : Control σ → Control σ,
      (∀ control, ∃ recvNext reorder, change control = { control with recvNext, reorder }) →
      Task.Preserves invariant (update change))
    (packetId : UInt32) (payload : Bytes) :
    Task.Preserves invariant (acceptControl engine packetId payload) := by
  have drained : Task.Preserves invariant (drainReorder engine) := by
    refine Task.Preserves.loop (fun _ => ?_) ()
    apply Task.Preserves.bind (Task.Preserves.gets _)
    intro self
    split
    · exact Task.Preserves.pure _
    · apply Task.Preserves.bind (received _ fun _ => ⟨_, _, rfl⟩)
      intro _
      apply Task.Preserves.bind (fed _)
      intro _
      exact Task.Preserves.bind (received _ fun _ => ⟨_, _, rfl⟩) fun _ => Task.Preserves.pure _
  apply Task.Preserves.bind (Task.Preserves.gets _)
  intro self
  split
  · exact Task.Preserves.pure _
  · split
    · split
      · exact received _ fun _ => ⟨_, _, rfl⟩
      · exact Task.Preserves.pure _
    · apply Task.Preserves.bind (fed _)
      intro _
      exact Task.Preserves.bind (received _ fun _ => ⟨_, _, rfl⟩) fun _ => drained

/-- What each control packet keeps is kept. -/
theorem preserves_sendControlChunks
    (sent : ∀ payload, Task.Preserves invariant (sendControl payload)) (data : Bytes) :
    Task.Preserves invariant (sendControlChunks data) := by
  refine Task.Preserves.loop (fun offset => ?_) 0
  split
  · exact Task.Preserves.bind (sent _) fun _ => Task.Preserves.pure _
  · exact Task.Preserves.pure _

/-- What `take_outbound` and each control packet keep is kept. -/
theorem preserves_flushTls (taken : Task.Preserves invariant takeOutbound)
    (sent : ∀ payload, Task.Preserves invariant (sendControl payload)) :
    Task.Preserves invariant flushTls := by
  apply Task.Preserves.bind taken
  intro outbound
  split
  · exact Task.Preserves.pure _
  · exact preserves_sendControlChunks sent outbound

/-- What says nothing about the sends is kept by one. -/
theorem preserves_sendRaw
    (blind : ∀ (self : Session σ) (faults : List Bool) (history : List Event),
      invariant self → invariant { self with faults, history })
    (datagram : Bytes) : Task.Preserves invariant (sendRaw datagram) := by
  apply Task.Preserves.bind (Task.Preserves.gets _)
  intro self
  refine Task.Preserves.bind
    (Task.Preserves.modify fun before held => blind before _ before.history held) fun _ => ?_
  split
  · exact Task.Preserves.bind
      (Task.Preserves.modify fun before held => blind before before.faults _ held)
      fun _ => Task.Preserves.throw _
  · exact Task.Preserves.modify fun before held => blind before before.faults _ held

/-- What says nothing about the sending side is kept by a control packet. -/
theorem preserves_sendControl
    (blind : ∀ (self : Session σ) (nextPacketId : UInt32) (lastPayload : Bytes)
      (faults : List Bool) (history : List Event), invariant self →
      invariant { self with
        control := { self.control with nextPacketId, lastPayload }, faults, history })
    (payload : Bytes) : Task.Preserves invariant (sendControl payload) := by
  apply Task.Preserves.bind (Task.Preserves.gets _)
  intro self
  refine Task.Preserves.bind (Task.Preserves.modify fun before held =>
    blind before _ _ before.faults before.history held) fun _ => ?_
  exact preserves_sendRaw (fun before faults history held =>
    blind before before.control.nextPacketId before.control.lastPayload faults history held) _

/-- What says nothing about TLS and the sending side is kept when TLS is flushed. -/
theorem preserves_flushTls_of_blind
    (blind : ∀ (self : Session σ) (tls : TlsState σ) (nextPacketId : UInt32) (lastPayload : Bytes)
      (faults : List Bool) (history : List Event), invariant self →
      invariant { self with
        control := { self.control with tls, nextPacketId, lastPayload }, faults, history }) :
    Task.Preserves invariant flushTls := by
  apply preserves_flushTls
  · apply Task.Preserves.bind (Task.Preserves.gets _)
    intro self
    refine Task.Preserves.bind (Task.Preserves.modify fun before held =>
      blind before _ before.control.nextPacketId before.control.lastPayload before.faults
        before.history held) fun _ => ?_
    exact Task.Preserves.bind (Task.Preserves.modify fun before held =>
      blind before before.control.tls before.control.nextPacketId before.control.lastPayload
        before.faults _ held) fun _ => Task.Preserves.pure _
  · exact preserves_sendControl fun before nextPacketId lastPayload faults history held =>
      blind before before.control.tls nextPacketId lastPayload faults history held

end Rules

end Session

end Unroxy.OpenVpn
