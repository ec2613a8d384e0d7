import Unroxy.Lib.Utf8
import Unroxy.OpenVpn.ControlCalls
import Unroxy.OpenVpn.Push

/-!
Owns how a tunnel comes up: `await_reset`, `Control::connect`, `apply_push` and
`Tunnel::connect`.

The servers are a world: what becomes of each attempt to reach one of them.
`connect_established` says what every tunnel that comes up has, whatever the
TLS, the server and the network did on the way.

Does not own the stack that `Tunnel::connect` spawns.
-/

namespace Unroxy.OpenVpn

open Unroxy.Lib
open Unroxy.Lib.Utf8 (decodeLossy)
open Session

variable {σ : Type}

/-! ### The server's reset -/

/-- `copy_from_slice` into the array of a session id. -/
def sessionIdOf (bytes : Bytes) : Outcome Error SessionId :=
  if whole : bytes.length = sidSize then .ok ⟨bytes.toArray, whole⟩ else .panic

/-- `await_reset`: the server's session id and packet id, and the waits that are
left. -/
def awaitReset : List Arrival → Outcome Error ((SessionId × UInt32) × List Arrival)
  | [] => .pending
  | .expired :: _ => .error .timeout
  | .failed :: _ => .error .socket
  | .silent _ :: rest => awaitReset rest
  | .datagram raw _ :: rest => do
      match ← Outcome.ofChecked (Packet.parse raw) with
      | none => awaitReset rest
      | some packet =>
          if packet.opcode = pControlHardResetServerV2 then
            let sid ← sessionIdOf packet.sessionId
            return ((sid, packet.packetId), rest)
          else
            awaitReset rest

/-- A wait that brings nothing `await_reset` returns with. -/
def Passed : Arrival → Prop
  | .silent _ => True
  | .datagram raw _ => ∃ received, Packet.parse raw = .ok received ∧
      ∀ packet, received = some packet → packet.opcode ≠ pControlHardResetServerV2
  | .expired | .failed => False

/-- The datagram is this reset of the server. -/
def Resets (raw : Bytes) (reset : SessionId × UInt32) : Prop :=
  ∃ packet, Packet.parse raw = .ok (some packet) ∧
    packet.opcode = pControlHardResetServerV2 ∧
    packet.sessionId = reset.1.toList ∧ packet.packetId = reset.2

/-- How the wait for the reset ends with this arrival behind those passed. -/
inductive Ends : Arrival → Outcome Error (SessionId × UInt32) → Prop where
  | reset (raw : Bytes) (overdue : Bool) (reset : SessionId × UInt32) (resets : Resets raw reset) :
      Ends (.datagram raw overdue) (.ok reset)
  | cutShort (raw : Bytes) (overdue : Bool) (failure) (parsed : Packet.parse raw = .error failure) :
      Ends (.datagram raw overdue) .panic
  | expired : Ends .expired (.error .timeout)
  | failed : Ends .failed (.error .socket)

private theorem sessionIdOf_packet {raw : Bytes} {packet : Packet}
    (parsed : Packet.parse raw = .ok (some packet))
    (opcode : packet.opcode = pControlHardResetServerV2) :
    ∃ sid : SessionId, sessionIdOf packet.sessionId = .ok sid ∧ packet.sessionId = sid.toList := by
  have whole : packet.sessionId.length = sidSize :=
    Packet.parse_sessionId parsed (by rw [opcode]; decide)
  exact ⟨_, dif_pos whole, rfl⟩

/-- One arrival either passes or ends the wait. -/
theorem awaitReset_cons (arrival : Arrival) (rest : List Arrival) :
    (Passed arrival ∧ awaitReset (arrival :: rest) = awaitReset rest) ∨
      ∃ outcome, Ends arrival outcome ∧
        awaitReset (arrival :: rest) = outcome.bind fun reset => .ok (reset, rest) := by
  cases arrival with
  | expired => exact .inr ⟨_, .expired, rfl⟩
  | failed => exact .inr ⟨_, .failed, rfl⟩
  | silent overdue => exact .inl ⟨trivial, rfl⟩
  | datagram raw overdue =>
      rw [awaitReset]
      rcases parsed : Packet.parse raw with failure | received
      · exact .inr ⟨_, .cutShort raw overdue failure parsed, rfl⟩
      · rw [Outcome.ofChecked_ok, Outcome.ok_bind]
        cases received with
        | none =>
            refine .inl ⟨⟨none, parsed, fun packet same => ?_⟩, rfl⟩
            cases same
        | some packet =>
            by_cases opcode : packet.opcode = pControlHardResetServerV2
            · obtain ⟨sid, whole, same⟩ := sessionIdOf_packet parsed opcode
              refine .inr ⟨.ok (sid, packet.packetId),
                .reset raw overdue _ ⟨packet, parsed, opcode, same, rfl⟩, ?_⟩
              dsimp only
              rw [if_pos opcode, whole]
              rfl
            · refine .inl ⟨⟨some packet, parsed, fun other same => ?_⟩, if_neg opcode⟩
              cases same
              exact opcode

/-- `await_reset` passes over everything but a reset of the server, its deadline
and a socket or a datagram that fails, and ends with the first of these. -/
theorem awaitReset_ends (arrivals : List Arrival) :
    (awaitReset arrivals = .pending ∧ ∀ arrival ∈ arrivals, Passed arrival) ∨
      ∃ before arrival rest outcome, arrivals = before ++ arrival :: rest ∧
        (∀ earlier ∈ before, Passed earlier) ∧ Ends arrival outcome ∧
        awaitReset arrivals = outcome.bind fun reset => .ok (reset, rest) := by
  induction arrivals with
  | nil => exact .inl ⟨rfl, fun _ among => absurd among List.not_mem_nil⟩
  | cons arrival rest inductionHypothesis =>
      rcases awaitReset_cons arrival rest with ⟨passed, same⟩ | ⟨outcome, ends, same⟩
      · rw [same]
        have also {earlier : List Arrival} (all : ∀ other ∈ earlier, Passed other) :
            ∀ other ∈ arrival :: earlier, Passed other :=
          List.forall_mem_cons.mpr ⟨passed, all⟩
        rcases inductionHypothesis with ⟨waiting, all⟩ |
          ⟨before, last, later, outcome, rfl, all, ends, equal⟩
        · exact .inl ⟨waiting, also all⟩
        · exact .inr ⟨arrival :: before, last, later, outcome, rfl, also all, ends, equal⟩
      · exact .inr ⟨[], arrival, rest, outcome, rfl,
          fun _ among => absurd among List.not_mem_nil, ends, same⟩

/-! ### One server -/

/-- What becomes of one attempt, and what it draws. -/
structure Attempt (σ : Type) where
  /-- `bind`, `connect` and `set_nodelay` all went well. -/
  opened : Bool
  sessionId : SessionId
  arrivals : List Arrival
  faults : List Bool
  /-- `context` and `TlsState::start`. -/
  session : Except String σ
  secrets : ClientSecrets

/-- How a task ends, with the state it leaves. -/
def finished {α : Type} (task : Act σ α) (self : Session σ) : Outcome Error (α × Session σ) :=
  match task self with
  | (.ok value, after) => .ok (value, after)
  | (.error failure, _) => .error failure
  | (.panic, _) => .panic
  | (.pending, _) => .pending

theorem finished_ok {α : Type} {task : Act σ α} {self after : Session σ} {value : α}
    (run : finished task self = .ok (value, after)) : task self = (.ok value, after) := by
  unfold finished at run
  rcases ran : task self with ⟨outcome, reached⟩
  rw [ran] at run
  cases outcome <;> cases run
  rfl

/-- `send_raw` of the first packet. -/
def sendReset (attempt : Attempt σ) : Outcome Error Unit :=
  if attempt.opened = false ∨ attempt.faults.headD false then .error .socket else .ok ()

def startTls (attempt : Attempt σ) : Outcome Error σ :=
  match attempt.session with
  | .ok session => .ok session
  | .error message => .error (.tls message)

def Profile.offered (profile : Profile) : Session.Profile := ⟨profile.cipher, profile.auth⟩

/-- The control before its handshake. -/
def begun (profile : Profile) (attempt : Attempt σ) (session : σ)
    (reset : SessionId × UInt32) (arrivals : List Arrival) : Session σ where
  control := Control.start session attempt.sessionId reset.1 reset.2 profile.cipher profile.auth
  arrivals := arrivals
  faults := attempt.faults.tail
  overdue := false
  history := [.sent (resetPacket attempt.sessionId)]

def connectTo (engine : Engine σ) (profile : Profile) (attempt : Attempt σ) :
    Outcome Error (Session σ) := do
  sendReset attempt
  let (reset, arrivals) ← awaitReset attempt.arrivals
  let session ← startTls attempt
  let ((), after) ← finished (do
    driveTls engine
    exchangeKeys engine profile.offered attempt.secrets)
    (begun profile attempt session reset arrivals)
  return after

/-! ### All servers -/

/-- The loop of `Control::connect`, from the server with this index on. -/
def connectFrom (engine : Engine σ) (profile : Profile) (world : Nat → Server → Attempt σ) :
    Nat → Option Error → List Server → Outcome Error (Session σ)
  | _, last, [] => .error (last.getD (.account "no remote"))
  | index, _, server :: rest =>
      match connectTo engine profile (world index server) with
      | .ok connected => .ok connected
      | .error failure => connectFrom engine profile world (index + 1) (some failure) rest
      | .panic => .panic
      | .pending => .pending

/-- `Control::connect`. -/
def connect (engine : Engine σ) (profile : Profile) (world : Nat → Server → Attempt σ) :
    Outcome Error (Session σ) :=
  connectFrom engine profile world 0 none profile.servers

def applyPush (reply : String) (self : Control σ) : Control σ :=
  let pushed := parsePush reply
  let self := match pushed.peerId with
    | some peerId => { self with peerId := peerId }
    | none => self
  match pushed.cipher with
  | some cipher => { self with cipher := cipher }
  | none => self

structure Tunnel (σ : Type) where
  /-- The control that moves into the stack. -/
  session : Session σ
  localAddr : Ipv4Addr
  remote : Option Ipv4Addr
  protocol : Protocol
  cipher : Cipher

/-- `profile.servers[0]`. -/
def firstServer (profile : Profile) : Outcome Error Server :=
  match profile.servers with
  | [] => .panic
  | server :: _ => .ok server

/-- `Tunnel::connect`. -/
def Tunnel.connect (crypto : Crypto) (engine : Engine σ) (profile : Profile)
    (world : Nat → Server → Attempt σ) : Outcome Error (Tunnel σ) := do
  let control ← OpenVpn.connect engine profile world
  let (reply, session) ← finished (do
    let reply ← pushRequest engine
    update (applyPush (decodeLossy reply))
    installKeys crypto
    return decodeLossy reply) control
  let pushed := parsePush reply
  let server ← firstServer profile
  return {
    session := session
    localAddr := pushed.localAddr.getD [10, 8, 0, 2]
    remote := pushed.remote
    protocol := server.protocol
    cipher := session.control.cipher }

/-! ### What the handshake leaves alone -/

/-- The parts of a control that only the key exchange, the push reply and the
data channel change. -/
structure Fixed where
  sessionId : SessionId
  remoteSessionId : SessionId
  cipher : Cipher
  auth : Auth
  keys : Option Keys
  seed : Option SeedData
  peerId : PeerId
  sendCounter : UInt32
  replay : ReplayWindow

def Control.fixed (self : Control σ) : Fixed where
  sessionId := self.sessionId
  remoteSessionId := self.remoteSessionId
  cipher := self.cipher
  auth := self.auth
  keys := self.keys
  seed := self.seed
  peerId := self.peerId
  sendCounter := self.sendCounter
  replay := self.replay

/-- TLS has its stream if it had it, or if it has to. -/
def Ready (must : Bool) (tls : TlsState σ) : Prop := must = true → tls.stream.isSome = true

private theorem ready_pump (engine : Engine σ) (must : Bool) :
    Task.Preserves (Ready must) (TlsState.pump engine) := by
  refine Task.Preserves.modify fun tls ready needed => ?_
  cases stream : tls.stream with
  | none =>
      have there := ready needed
      rw [stream] at there
      cases there
  | some stream => rfl

private theorem ready_feed (engine : Engine σ) (must : Bool) (payload : Bytes) :
    Task.Preserves (Ready must) (TlsState.feed engine payload) := by
  apply Task.Preserves.bind (Task.Preserves.gets _)
  intro self
  split
  · exact Task.Preserves.modify fun _ ready => ready
  · exact Task.Preserves.bind (Task.Preserves.modify fun _ _ _ => rfl)
      fun _ => ready_pump engine must
  · exact Task.Preserves.throw _

private theorem ready_drive (engine : Engine σ) (must : Bool) :
    Task.Preserves (Ready must) (TlsState.drive engine) := by
  apply Task.Preserves.bind (Task.Preserves.gets _)
  intro self
  split
  · exact ready_pump engine must
  · dsimp only
    split
    · exact Task.Preserves.bind (Task.Preserves.modify fun _ _ _ => rfl)
        fun _ => ready_pump engine must
    · exact Task.Preserves.modify fun _ ready => ready
    · exact Task.Preserves.bind (Task.Preserves.modify fun _ ready => ready)
        fun _ => Task.Preserves.throw _
    · exact Task.Preserves.bind (Task.Preserves.modify fun _ ready => ready)
        fun _ => Task.Preserves.throw _

private theorem ready_write (engine : Engine σ) (must : Bool) (data : Bytes) :
    Task.Preserves (Ready must) (TlsState.write engine data) := by
  have drained : Task.Preserves (Ready must) (TlsState.drainPending engine) := by
    refine Task.Preserves.loop (fun _ => ?_) ()
    apply Task.Preserves.bind (Task.Preserves.gets _)
    intro self
    split
    · exact Task.Preserves.pure _
    · split
      · exact Task.Preserves.throw _
      · dsimp only
        apply Task.Preserves.bind (Task.Preserves.modify fun _ _ _ => rfl)
        intro _
        split
        · exact Task.Preserves.pure _
        · exact Task.Preserves.pure _
        · exact Task.Preserves.bind (Task.Preserves.modify fun _ ready => ready)
            fun _ => Task.Preserves.pure _
  apply Task.Preserves.bind (Task.Preserves.gets _)
  intro self
  split
  · exact Task.Preserves.throw _
  · exact Task.Preserves.bind (Task.Preserves.modify fun _ ready => ready) fun _ => drained

/-- The fixed parts are these, and TLS is ready if it has to be. -/
structure Stands (fixed : Fixed) (must : Bool) (session : Session σ) : Prop where
  fixed : session.control.fixed = fixed
  ready : Ready must session.control.tls

private theorem stands_tls {α : Type} {fixed : Fixed} {must : Bool}
    {task : Task (TlsState σ) Error α} (kept : Task.Preserves (Ready must) task) :
    Task.Preserves (Stands fixed must) (tls task) :=
  Task.Triple.zoom kept (fun _ stands => stands.ready)
    (fun _ _ _ stands ready => ⟨stands.fixed, ready⟩)
    fun _ _ _ stands ready => ⟨stands.fixed, ready⟩

theorem handles_stands (engine : Engine σ) (fixed : Fixed) (must : Bool) :
    Handles engine (fun _ _ => True) (Stands fixed must) where
  script := fun _ _ _ _ stands _ => ⟨stands.fixed, stands.ready⟩
  event := fun _ _ stands _ => ⟨stands.fixed, stands.ready⟩
  sending := fun _ _ _ _ stands => ⟨stands.fixed, stands.ready⟩
  arrived := fun _ _ _ _ _ _ _ _ => trivial
  accepts := fun _ _ _ => preserves_acceptControl
    (fun payload => stands_tls (ready_feed engine must payload))
    (fun change received => Task.Preserves.modify fun self stands => by
      obtain ⟨recvNext, reorder, same⟩ := received self.control
      rw [same]
      exact ⟨stands.fixed, stands.ready⟩) _ _
  drives := stands_tls (ready_drive engine must)
  writes := fun data => stands_tls (ready_write engine must data)
  takes := by
    rintro self ⟨fixed, ready⟩
    refine ⟨fixed, fun needed => ?_⟩
    have there := ready needed
    show (self.control.tls.takeOutbound).2.stream.isSome = true
    unfold TlsState.takeOutbound
    split
    · exact there
    · rfl
    · exact there
  reads := by
    rintro self ⟨fixed, ready⟩
    refine ⟨fixed, fun needed => ?_⟩
    have there := ready needed
    show (self.control.tls.takePlaintext).2.stream.isSome = true
    unfold TlsState.takePlaintext
    split <;> exact there

/-- `drive_tls` returns with TLS ready. -/
theorem driveTls_ready (engine : Engine σ) (fixed : Fixed) :
    Task.Triple (Stands fixed false) (driveTls engine) (fun _ => Stands fixed true)
      fun _ => Stands fixed false := by
  have handles := handles_stands engine fixed false
  refine Task.Triple.loopPartial (fun _ => Stands fixed false) (fun _ _ stands => stands)
    fun _ => ?_
  apply Task.Triple.bind handles.drives
  intro _
  apply Task.Triple.bind handles.takes
  intro outbound
  have rest : Task.Triple (Stands fixed false) (do
      let self ← Task.gets Session.control
      if self.tls.isReady then
        return .inr ()
      else if ← deadlinePassed then
        Task.throw .timeout
      else
        pump engine
        return .inl () : Act σ (Unit ⊕ Unit))
      (Sum.elim (fun _ => Stands fixed false) fun _ => Stands fixed true)
      fun _ => Stands fixed false := by
    intro self stands
    rw [Task.run_bind_ok (Task.run_gets _ _)]
    by_cases ready : self.control.tls.isReady = true
    · rw [if_pos ready]
      exact ⟨stands.fixed, fun _ => ready⟩
    · rw [if_neg ready]
      refine Task.Triple.bind handles.deadlinePassed (fun passed => ?_) self stands
      split
      · exact fun _ stands => stands
      · exact Task.Triple.bind handles.pump fun _ _ stands => stands
  split
  · exact Task.Triple.bind (handles.sendControlChunks _) fun _ => rest
  · exact rest

/-! ### What a tunnel has -/

/-- What the keys are made of: the draws of the attempt, the server's randoms
and the session ids of both sides. -/
def seedOf (attempt : Attempt σ) (reset : SessionId × UInt32) (randoms : Randoms) : SeedData where
  preMaster := attempt.secrets.preMaster
  clientRandom1 := attempt.secrets.random1
  serverRandom1 := randoms.1
  clientRandom2 := attempt.secrets.random2
  serverRandom2 := randoms.2
  clientSid := attempt.sessionId
  serverSid := reset.1

/-- The key exchange of this attempt: TLS came up on its own arrivals, its own secrets
went out in the client's key message, and the randoms are those that the plaintext
of the rounds behind it begins with. -/
def Exchanged (engine : Engine σ) (profile : Profile) (attempt : Attempt σ)
    (reset : SessionId × UInt32) (rest : List Arrival) (randoms : Randoms)
    (session : Session σ) : Prop :=
  ∃ started ready sent chunks heard, startTls attempt = .ok started ∧
    driveTls engine (begun profile attempt started reset rest) = (.ok (), ready) ∧
    SentKeys engine profile.offered attempt.secrets ready sent ∧
    Rounds engine sent chunks heard ∧ serverRandoms chunks.flatten = .ok (some randoms) ∧
    session = seedWith attempt.secrets randoms heard

/-- The fixed parts of a control that `connect_to` returns. -/
def agreed (profile : Profile) (attempt : Attempt σ) (reset : SessionId × UInt32)
    (randoms : Randoms) : Fixed where
  sessionId := attempt.sessionId
  remoteSessionId := reset.1
  cipher := profile.cipher
  auth := profile.auth
  keys := none
  seed := some (seedOf attempt reset randoms)
  peerId := PeerId.none
  sendCounter := 0
  replay := ReplayWindow.new

theorem connectTo_ok {engine : Engine σ} {profile : Profile} {attempt : Attempt σ}
    {session : Session σ} (run : connectTo engine profile attempt = .ok session) :
    ∃ reset rest randoms, awaitReset attempt.arrivals = .ok (reset, rest) ∧
      Exchanged engine profile attempt reset rest randoms session ∧
      Stands (agreed profile attempt reset randoms) true session := by
  obtain ⟨⟨⟩, -, run⟩ := Outcome.of_bind_ok run
  obtain ⟨⟨reset, rest⟩, awaited, run⟩ := Outcome.of_bind_ok run
  obtain ⟨started, starts, run⟩ := Outcome.of_bind_ok run
  obtain ⟨⟨⟨⟩, after⟩, ran, done⟩ := Outcome.of_bind_ok run
  cases done
  obtain ⟨⟨⟩, between, driven, exchanged⟩ := Task.of_bind_ok (finished_ok ran)
  let initial := (begun profile attempt started reset rest).control.fixed
  have begins : Stands initial false (begun profile attempt started reset rest) :=
    ⟨rfl, fun needed => absurd needed Bool.false_ne_true⟩
  have ready := driveTls_ready engine initial _ begins
  rw [driven] at ready
  have seeded := (handles_stands engine initial true).exchangeKeys profile.offered
    attempt.secrets between ready
  rw [exchanged] at seeded
  obtain ⟨before, randoms, stands, rfl⟩ := seeded
  obtain ⟨sent, chunks, heard, read, sending, rounds, known, same⟩ := exchangeKeys_ok exchanged
  have stored : randoms = read := by
    have both := congrArg (fun session : Session σ => session.control.seed.map
      fun seed => (seed.serverRandom1, seed.serverRandom2)) same
    exact Option.some.inj both
  rw [← stored] at known same
  refine ⟨reset, rest, randoms, awaited,
    ⟨started, between, sent, chunks, heard, starts, driven, sending, rounds, known, same⟩,
    ?_, stands.ready⟩
  have sameId : before.control.sessionId = attempt.sessionId :=
    congrArg Fixed.sessionId stands.fixed
  have sameRemote : before.control.remoteSessionId = reset.1 :=
    congrArg Fixed.remoteSessionId stands.fixed
  have seed : (seedWith attempt.secrets randoms before).control.seed =
      some (seedOf attempt reset randoms) := by
    simp only [seedWith, seedOf, sameId, sameRemote]
  calc (seedWith attempt.secrets randoms before).control.fixed
      = { before.control.fixed with
          seed := (seedWith attempt.secrets randoms before).control.seed } := rfl
    _ = { initial with seed := some (seedOf attempt reset randoms) } := by
        rw [stands.fixed, seed]
    _ = agreed profile attempt reset randoms := rfl

/-- The first server that could be reached, and those in front of it. -/
theorem connectFrom_ok {engine : Engine σ} {profile : Profile}
    {world : Nat → Server → Attempt σ} {session : Session σ} (servers : List Server) :
    ∀ {first : Nat} {last : Option Error},
      connectFrom engine profile world first last servers = .ok session →
      ∃ index server, servers[index]? = some server ∧
        connectTo engine profile (world (first + index) server) = .ok session ∧
        ∀ earlier < index, ∀ other, servers[earlier]? = some other →
          ∃ failure, connectTo engine profile (world (first + earlier) other) =
            .error failure := by
  induction servers with
  | nil =>
      intro first last run
      cases run
  | cons server rest inductionHypothesis =>
      intro first last run
      rw [connectFrom] at run
      cases reached : connectTo engine profile (world first server) with
      | ok connected =>
          rw [reached] at run
          cases run
          exact ⟨0, server, rfl, reached, fun earlier before => absurd before (Nat.not_lt_zero _)⟩
      | error failure =>
          rw [reached] at run
          obtain ⟨index, found, there, ran, failed⟩ := inductionHypothesis run
          refine ⟨index + 1, found, there, ?_, fun earlier before other known => ?_⟩
          · rwa [Nat.add_assoc, Nat.add_comm 1] at ran
          · cases earlier with
            | zero =>
                cases known
                exact ⟨failure, reached⟩
            | succ earlier =>
                have past := failed earlier (by omega) other known
                rwa [Nat.add_assoc, Nat.add_comm 1] at past
      | panic =>
          rw [reached] at run
          cases run
      | pending =>
          rw [reached] at run
          cases run

/-- What `install_keys` makes. -/
theorem installKeys_made {crypto : Crypto} {before after : Session σ}
    (run : installKeys crypto before = (.ok (), after)) :
    ∃ seed material encrypt decrypt, before.control.seed = some seed ∧
      KeyMaterial.derive crypto seed before.control.cipher before.control.auth.size =
        .ok material ∧
      DataCipher.new before.control.cipher before.control.auth material.encrypt
        material.macEncrypt = .ok encrypt ∧
      DataCipher.new before.control.cipher before.control.auth material.decrypt
        material.macDecrypt = .ok decrypt ∧
      after = { before with
        control := { before.control with seed := none, keys := some ⟨encrypt, decrypt⟩ } } := by
  obtain ⟨control, _, got, run⟩ := Task.of_bind_ok run
  cases got
  obtain ⟨_, _, spentSeed, run⟩ := Task.of_bind_ok run
  cases spentSeed
  obtain ⟨seed, _, seeded, run⟩ := Task.of_bind_ok run
  cases (Prod.mk.inj seeded).2
  obtain ⟨material, _, derived, run⟩ := Task.of_bind_ok run
  cases (Prod.mk.inj derived).2
  obtain ⟨encrypt, _, newEncrypt, run⟩ := Task.of_bind_ok run
  cases (Prod.mk.inj newEncrypt).2
  obtain ⟨decrypt, _, newDecrypt, run⟩ := Task.of_bind_ok run
  cases (Prod.mk.inj newDecrypt).2
  cases run
  refine ⟨seed, material, encrypt, decrypt, ?_, (Prod.mk.inj derived).1,
    (Prod.mk.inj newEncrypt).1, (Prod.mk.inj newDecrypt).1, rfl⟩
  have present := (Prod.mk.inj seeded).1
  cases known : before.control.seed with
  | none =>
      rw [known] at present
      cases present
  | some held =>
      rw [known] at present
      cases present
      rfl

/-- What a tunnel that came up through this attempt has: the cipher and the peer
id that the server pushed, else its profile's and none, both directions' keys
for that cipher from the attempt's secrets and these randoms, and not one packet
sent or accepted. -/
structure Established (crypto : Crypto) (profile : Profile) (attempt : Attempt σ)
    (reset : SessionId × UInt32) (randoms : Randoms) (pushed : Pushed) (tunnel : Tunnel σ) :
    Prop where
  own : tunnel.session.control.sessionId = attempt.sessionId
  other : tunnel.session.control.remoteSessionId = reset.1
  ready : tunnel.session.control.tls.isReady = true
  cipher : tunnel.session.control.cipher = pushed.cipher.getD profile.cipher
  named : tunnel.cipher = tunnel.session.control.cipher
  peerId : tunnel.session.control.peerId = pushed.peerId.getD PeerId.none
  unsent : tunnel.session.control.sendCounter = 0
  unheard : tunnel.session.control.replay = ReplayWindow.new
  spent : tunnel.session.control.seed = none
  keys : ∃ material encrypt decrypt,
    tunnel.session.control.keys = some ⟨encrypt, decrypt⟩ ∧
      KeyMaterial.derive crypto (seedOf attempt reset randoms) tunnel.cipher profile.auth.size =
        .ok material ∧
      DataCipher.new tunnel.cipher profile.auth material.encrypt material.macEncrypt =
        .ok encrypt ∧
      DataCipher.new tunnel.cipher profile.auth material.decrypt material.macDecrypt = .ok decrypt
  localAddr : tunnel.localAddr = pushed.localAddr.getD [10, 8, 0, 2]
  remote : tunnel.remote = pushed.remote

private theorem applyPush_fixed (reply : String) (control : Control σ) :
    (applyPush reply control).fixed = { control.fixed with
      cipher := (parsePush reply).cipher.getD control.cipher
      peerId := (parsePush reply).peerId.getD control.peerId } ∧
    (applyPush reply control).tls = control.tls := by
  rcases peer : (parsePush reply).peerId with _ | peerId <;>
    rcases suite : (parsePush reply).cipher with _ | cipher <;>
    simp only [applyPush, peer, suite, Control.fixed, Option.getD_none, Option.getD_some, and_self]

/-- A tunnel comes up through the first server that can be reached, with what was
agreed with that server and no other, whatever the TLS library, the server and
the network do. -/
theorem Tunnel.connect_established (crypto : Crypto) (engine : Engine σ) (profile : Profile)
    (world : Nat → Server → Attempt σ) (tunnel : Tunnel σ)
    (run : Tunnel.connect crypto engine profile world = .ok tunnel) :
    ∃ index server reset rest randoms asked reply,
      profile.servers[index]? = some server ∧
      (∀ earlier < index, ∀ other, profile.servers[earlier]? = some other →
        ∃ failure, connectTo engine profile (world earlier other) = .error failure) ∧
      awaitReset (world index server).arrivals = .ok (reset, rest) ∧
      connectTo engine profile (world index server) = .ok asked ∧
      Exchanged engine profile (world index server) reset rest randoms asked ∧
      (pushRequest engine asked).1 = .ok reply ∧
      Established crypto profile (world index server) reset randoms
        (parsePush (decodeLossy reply)) tunnel := by
  obtain ⟨asked, connected, run⟩ := Outcome.of_bind_ok run
  obtain ⟨⟨text, session⟩, ran, run⟩ := Outcome.of_bind_ok run
  obtain ⟨first, -, made⟩ := Outcome.of_bind_ok run
  cases made
  obtain ⟨index, server, there, reached, failed⟩ := connectFrom_ok profile.servers connected
  rw [Nat.zero_add] at reached
  obtain ⟨reset, rest, randoms, awaited, exchanged, stands⟩ := connectTo_ok reached
  obtain ⟨reply, pushed, requested, run⟩ := Task.of_bind_ok (finished_ok ran)
  obtain ⟨⟨⟩, applied, change, run⟩ := Task.of_bind_ok run
  obtain ⟨⟨⟩, installed, installing, done⟩ := Task.of_bind_ok run
  cases done
  cases change
  have still := (handles_stands engine (agreed profile (world index server) reset randoms)
    true).pushRequest asked stands
  rw [requested] at still
  obtain ⟨parts, tls⟩ := applyPush_fixed (decodeLossy reply) pushed.control
  obtain ⟨seed, material, encrypt, decrypt, seeded, derived, sealing, opening, rfl⟩ :=
    installKeys_made installing
  dsimp only at seeded derived sealing opening
  have fixed : (applyPush (decodeLossy reply) pushed.control).fixed =
      { agreed profile (world index server) reset randoms with
        cipher := (parsePush (decodeLossy reply)).cipher.getD profile.cipher
        peerId := (parsePush (decodeLossy reply)).peerId.getD PeerId.none } := by
    have cipher : pushed.control.cipher = profile.cipher := congrArg Fixed.cipher still.fixed
    have peerId : pushed.control.peerId = PeerId.none := congrArg Fixed.peerId still.fixed
    rw [parts, still.fixed, cipher, peerId]
  have auth : (applyPush (decodeLossy reply) pushed.control).auth = profile.auth :=
    congrArg Fixed.auth fixed
  have same : seed = seedOf (world index server) reset randoms := by
    have held : (applyPush (decodeLossy reply) pushed.control).seed =
        some (seedOf (world index server) reset randoms) := congrArg Fixed.seed fixed
    exact Option.some.inj (seeded.symm.trans held)
  refine ⟨index, server, reset, rest, randoms, asked, reply, there, ?_, awaited, reached,
    exchanged, congrArg Prod.fst requested, ?_⟩
  · intro earlier before other known
    obtain ⟨failure, past⟩ := failed earlier before other known
    exact ⟨failure, by rwa [Nat.zero_add] at past⟩
  · rw [auth, same] at derived
    rw [auth] at sealing opening
    exact {
      own := congrArg Fixed.sessionId fixed
      other := congrArg Fixed.remoteSessionId fixed
      ready := by
        show (applyPush (decodeLossy reply) pushed.control).tls.isReady = true
        rw [tls]
        exact still.ready rfl
      cipher := congrArg Fixed.cipher fixed
      named := rfl
      peerId := congrArg Fixed.peerId fixed
      unsent := congrArg Fixed.sendCounter fixed
      unheard := congrArg Fixed.replay fixed
      spent := rfl
      keys := ⟨material, encrypt, decrypt, rfl, derived, sealing, opening⟩
      localAddr := rfl
      remote := rfl }

/-- Digests of the right sizes, and no ciphers. -/
def sizedDigests : Crypto where
  gcmSeal _ _ _ _ := none
  gcmOpen _ _ _ _ := none
  cbcEncrypt _ _ message := message
  cbcDecrypt _ _ _ := none
  hmac _ _ _ := []
  hmacMd5 _ _ := List.replicate 16 1
  hmacSha1 _ _ := List.replicate 20 2

def twoServers : Profile where
  servers := [⟨"one.example", 1194, .udp⟩, ⟨"two.example", 443, .tcp⟩]
  cipher := .aes256Gcm
  auth := .sha1
  credentials := ⟨"", "", ""⟩

/-- The first server cannot be reached. The second one's reset comes behind a
stray datagram, and then its key message and its push reply. -/
def secondAnswers (index : Nat) (_ : Server) : Attempt Unit where
  opened := index = 1
  sessionId := Vector.replicate 8 1
  arrivals :=
    [.silent false, .datagram [0xff] false,
      .datagram ((pControlHardResetServerV2 <<< 3) :: List.replicate 8 2 ++ [0] ++ u32ToBe 0)
        false] ++
      datagramsOf 1 [u32ToBe 0 ++ [2] ++ List.replicate 64 7,
        "PUSH_REPLY,peer-id 3,cipher AES-128-GCM,ifconfig 10.8.0.6 10.8.0.5".toUTF8.toList ++ [0]]
  faults := []
  session := .ok ()
  secrets := drawn

/-- The cipher of the tunnel, if there is one. -/
def cipherOf (outcome : Outcome Error (Tunnel σ)) : Option Cipher :=
  match outcome with
  | .ok tunnel => some tunnel.cipher
  | _ => none

theorem Tunnel.connect_established_second :
    ∃ tunnel, Tunnel.connect sizedDigests plainEngine twoServers secondAnswers = .ok tunnel ∧
      tunnel.cipher = .aes128Gcm ∧
      ∃ index server reset rest randoms asked reply,
        twoServers.servers[index]? = some server ∧
        (∀ earlier < index, ∀ other, twoServers.servers[earlier]? = some other →
          ∃ failure, connectTo plainEngine twoServers (secondAnswers earlier other) =
            .error failure) ∧
        awaitReset (secondAnswers index server).arrivals = .ok (reset, rest) ∧
        connectTo plainEngine twoServers (secondAnswers index server) = .ok asked ∧
        Exchanged plainEngine twoServers (secondAnswers index server) reset rest randoms asked ∧
        (pushRequest plainEngine asked).1 = .ok reply ∧
        Established sizedDigests twoServers (secondAnswers index server) reset randoms
          (parsePush (decodeLossy reply)) tunnel := by
  have up : cipherOf (Tunnel.connect sizedDigests plainEngine twoServers secondAnswers) =
      some .aes128Gcm := by decide +kernel
  rcases run : Tunnel.connect sizedDigests plainEngine twoServers secondAnswers with
    tunnel | failure | - | -
  · rw [run] at up
    exact ⟨tunnel, rfl, Option.some.inj up, Tunnel.connect_established _ _ _ _ tunnel run⟩
  all_goals
    rw [run] at up
    cases up

end Unroxy.OpenVpn
