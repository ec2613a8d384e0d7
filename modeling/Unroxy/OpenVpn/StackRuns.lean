import Unroxy.OpenVpn.StackTable

/-!
Owns what the `run` loop of `openvpn/stack.rs` does with bytes and packets in
every run, whatever the clients, the network and the sockets do: each connection
runs as it would alone, and no packet is lost unnoticed.

Does not own what one connection does with its bytes.
-/

namespace Unroxy.OpenVpn

open Unroxy.Lib

namespace StackRun

/-! ### Each connection runs as it would alone -/

/-- The loop's operations on its connections are of this kind. -/
def Serves (allowed : Connection → Connection.Step → Prop) (self : StackRun) : Event → Prop
  | .serve action =>
      match self.phase with
      | .service index =>
          match self.conns[index]? with
          | some conn => allowed (self.links.get conn.link) action
          | none => True
      | _ => True
  | _ => True

theorem serves_of_all {allowed : Connection → Connection.Step → Prop}
    (each : ∀ link action, allowed link action) (self : StackRun) (event : Event) :
    Serves allowed self event := by
  unfold Serves
  split
  · split
    · split
      · exact each _ _
      · trivial
    · trivial
  · trivial

section Links

variable {holds : Connection → Prop} {allowed : Connection → Connection.Step → Prop}
  (opened : holds .opened)
  (kept : ∀ link action, holds link → allowed link action → holds (link.step action))
  (free : ∀ link action, (∀ answer, action ≠ .sendSlice answer) → allowed link action)

include kept free

private theorem holds_release (self : StackRun) (conn : Conn)
    (held : ∀ link < self.links.size, holds (self.links.get link)) :
    ∀ link < (self.release conn).links.size, holds ((self.release conn).links.get link) := by
  unfold release
  split
  case h_1 => exact held
  case h_2 =>
    intro link inside
    rw [Arena.size_modify] at inside
    rw [Arena.get_modify _ _ _ inside]
    split
    case isTrue => exact kept _ _ (held link inside) (free _ _ fun _ same => by cases same)
    case isFalse => exact held link inside

include opened

/-- What every step of one connection keeps is kept of all of them. -/
theorem holds_step (self : StackRun) (event : Event)
    (held : Sound self ∧ ∀ link < self.links.size, holds (self.links.get link))
    (serves : Serves allowed self event) :
    Sound (self.step event) ∧
      ∀ link < (self.step event).links.size, holds ((self.step event).links.get link) := by
  refine ⟨held.1.step event, ?_⟩
  rcases held with ⟨sound, held⟩
  have modified (place : Nat) (action : Connection.Step)
      (fits : allowed (self.links.get place) action) :
      ∀ link < (self.links.modify place (·.step action)).size,
        holds ((self.links.modify place (·.step action)).get link) := by
    intro link inside
    rw [Arena.size_modify] at inside
    rw [Arena.get_modify _ _ _ inside]
    split
    case isTrue same => exact kept _ _ (held link inside) (same ▸ fits)
    case isFalse => exact held link inside
  unfold step
  split
  case h_1 link action =>
    split
    case isTrue client =>
      exact modified link action (free _ _ fun answer same => by cases same; cases client)
    case isFalse => exact held
  case h_2 failure selecting =>
    unfold openSocket
    cases failure with
    | some error => exact held
    | none =>
        intro link inside
        show holds ((self.links.alloc .opened).2.get link)
        rcases Nat.lt_or_ge link self.links.size with before | beyond
        · rw [Arena.get_alloc_of_lt _ _ before]
          exact held link before
        · have last : link = self.links.size := by
            have most : link < (self.links.alloc .opened).2.size := inside
            rw [Arena.size_alloc] at most
            omega
          rw [last, Arena.get_alloc_size]
          exact opened
  case h_3 selecting =>
    have distinct := sound.table.distinct
    rw [List.map_map] at distinct
    intro link inside
    have known : link < self.links.size := by
      rwa [stop, Arena.size_foldl_modify] at inside
    show holds ((self.conns.foldl (fun links conn => links.modify conn.link (·.forsaken))
      self.links).get link)
    rw [Arena.get_foldl_modify _ Conn.link _ distinct known]
    split
    case isTrue among =>
      obtain ⟨conn, member, same⟩ := List.mem_map.mp among
      obtain ⟨index, there⟩ := List.getElem?_of_mem member
      have top := sound.top_of_quiet (.inl selecting) there
      rw [same] at top
      rw [Connection.forsaken_eq top]
      refine run_invariant kept _ (held link known) ⟨?_, ?_, ?_, trivial⟩
      all_goals
        apply free
        intro answer same
        cases same
    case isFalse => exact held link known
  case h_4 received selecting =>
    cases received with
    | none => exact held
    | some packet =>
        simp only [receive]
        split <;> exact held
  case h_5 => exact held
  case h_6 => exact held
  case h_7 =>
    unfold transmit
    split <;> exact held
  case h_8 action index serving =>
    unfold serve
    rcases there : self.conns[index]? with _ | conn
    · exact held
    · rw [Serves, serving] at serves
      simp only [there] at serves
      dsimp only
      split
      case h_1 => exact held
      case h_2 =>
        split
        case h_1 => exact modified conn.link _ serves
        case h_2 => exact held
        case h_3 => exact held
        case h_4 =>
          split
          case isTrue => exact held
          case isFalse => exact modified conn.link _ serves
  case h_9 =>
    have all (closed : List Conn) : ∀ loop : StackRun,
        (∀ link < loop.links.size, holds (loop.links.get link)) →
        ∀ link < (closed.foldl release loop).links.size,
          holds ((closed.foldl release loop).links.get link) := by
      induction closed with
      | nil => exact fun _ held => held
      | cons conn rest inductionHypothesis =>
          exact fun loop held => inductionHypothesis _ (holds_release kept free loop conn held)
    exact all _ _ held
  case h_10 => exact held

/-- What every step of one connection keeps holds of all of them in every run. -/
theorem holds_run (events : List Event) (along : Along step (Serves allowed) start events) :
    ∀ link < (run step start events).links.size, holds ((run step start events).links.get link) :=
  (run_invariant (holds_step opened kept free) events ⟨sound_start, nofun⟩ along).2

end Links

/-! ### Bytes -/

/-- Every `send_slice` takes the whole chunk it is offered. -/
def SendsWhole : StackRun → Event → Prop :=
  Serves fun link action => link.Reliable action ∧ link.Whole action

instance (self : StackRun) (event : Event) : Decidable (SendsWhole self event) := by
  unfold SendsWhole Serves
  split
  · split
    · split <;> infer_instance
    · infer_instance
  · infer_instance

theorem balanced_run (events : List Event) (whole : Along step SendsWhole start events) :
    ∀ link < (run step start events).links.size,
      ((run step start events).links.get link).Balanced := by
  refine holds_run Connection.balanced_opened
    (fun link action balanced allowed => Connection.balanced_step link action balanced allowed)
    (fun link action other => ⟨other none, ?_⟩) events whole
  unfold Connection.Whole
  split
  case h_1 count chunk _ => exact absurd rfl (other (some count))
  case h_2 => trivial

/-- Each connection is in a state that it can reach alone, and no byte of it is
lost, moved or given to another. Between two passes every byte is accounted for
on the way from the client to the socket that the connection's handle names, and as
long as the client has not dropped its stream on the way back. -/
def KeptApart (loop : StackRun) : Prop :=
  (∀ link < loop.links.size, Leads Connection.step .opened (loop.links.get link) ∧
    (loop.links.get link).Intact) ∧
  ∀ conn ∈ loop.conns, ∃ socket, loop.sockets.get? conn.handle = some socket ∧
    socket.accepted <+: (loop.links.get conn.link).written ∧
    (loop.links.get conn.link).read <+: socket.received ∧
    (Phase.Quiet loop.phase →
      socket.accepted ++ (loop.links.get conn.link).fromClient.queue.flatten =
          (loop.links.get conn.link).written ∧
        ((loop.links.get conn.link).toClient.receiverGone = false →
          (loop.links.get conn.link).read ++
              (loop.links.get conn.link).stream.pending.drop
                (loop.links.get conn.link).stream.offset ++
              (loop.links.get conn.link).toClient.queue.flatten =
            socket.received))

/-- The loop keeps its connections apart in every run in which `send_slice` takes
whole chunks, with any number of clients, failed opens and reused sockets. -/
theorem connections_run (events : List Event) (whole : Along step SendsWhole start events) :
    KeptApart (run step start events) := by
  have sound := sound_run events
  have balanced := balanced_run events whole
  have alone := holds_run (Leads.refl Connection.step Connection.opened)
    (fun _ action leads (_ : True) => leads.next action) (fun _ _ _ => trivial) events
    (Along.of_all (serves_of_all fun _ _ => trivial) events start)
  refine ⟨fun link inside => ⟨alone link inside, (balanced link inside).intact⟩, ?_⟩
  intro conn among
  obtain ⟨index, there⟩ := List.getElem?_of_mem among
  have seated := sound.seated there
  obtain ⟨socket, taken, mirrors⟩ : ∃ socket,
      (run step start events).sockets.get? conn.handle = some socket ∧
        socket.Mirrors ((run step start events).links.get conn.link) :=
    sound.table.mirrored conn.seat seated.1
  have balance := balanced conn.link seated.2
  refine ⟨socket, taken, ?_, ?_, ?_⟩
  · rw [mirrors.accepted]
    exact balance.intact.1
  · rw [mirrors.received]
    exact balance.intact.2
  · intro quiet
    have top := sound.top_of_quiet quiet there
    have present :
        ((run step start events).links.get conn.link).fromClient.receiverGone = false := by
      rw [← Bool.not_eq_true]
      intro gone
      have removed := balance.gone gone
      rw [top] at removed
      cases removed
    constructor
    · have outgoing := balance.outgoing present
      rw [top] at outgoing
      rw [mirrors.accepted, ← outgoing]
      simp [Stage.chunk]
    · intro client
      have incoming := balance.incoming client
      rw [top] at incoming
      rw [mirrors.received, ← incoming]
      simp [Stage.buffer]

/-- Two clients at once, the second of which gets the socket of one that closed. -/
def together : List Event :=
  [.open none, .poll 0 [], .transmit true, .serve (.recvSlice false none), .serve (.canSend false),
    .serve (.isOpen false), .serve (.isOpen false), .retain,
    .open none, .client 1 (.pollWrite [1, 2]), .poll 0 [], .transmit true,
    .serve (.recvSlice false none), .serve (.canSend true), .serve .tryRecv,
    .serve (.sendSlice (some 2)), .serve .tryRecv, .serve (.isOpen true), .serve .tryRecv, .retain,
    .open none, .client 2 (.pollWrite [7]), .poll 0 [], .transmit true,
    .serve (.recvSlice true (some [3])), .serve .deliver, .client 1 (.pollRead 8),
    .serve (.canSend true), .serve .tryRecv, .serve (.isOpen true)]

theorem connections_run_together : KeptApart (run step start together) :=
  connections_run together (by decide)

/-! ### Packets -/

/-- Every packet is where it should be. -/
structure Packets (loop : StackRun) : Prop where
  room : loop.device.inbound.length ≤ queueCapacity
  incoming : loop.traffic.ingested ++ loop.device.inbound =
    (loop.traffic.arrived.filter fun packet => packet.2 < queueCapacity).map Prod.fst
  outgoing : loop.traffic.tried.map Prod.fst ++ loop.device.outbound = loop.traffic.emitted
  waiting : loop.phase = .transmit ∨ loop.device.outbound = [] ∨
    ∃ earlier packet, loop.traffic.tried = earlier ++ [(packet, false)]

namespace Packets

variable {self : StackRun}

/-- Outside the transmission the packets that wait are behind a failed one. -/
theorem elsewhere (packets : Packets self) (phase : self.phase ≠ .transmit) :
    self.device.outbound = [] ∨
      ∃ earlier packet, self.traffic.tried = earlier ++ [(packet, false)] :=
  packets.waiting.resolve_left phase

theorem same {after : StackRun} (packets : Packets self) (phase : self.phase ≠ .transmit)
    (device : after.device = self.device) (traffic : after.traffic = self.traffic) :
    Packets after where
  room := device ▸ packets.room
  incoming := by rw [device, traffic, packets.incoming]
  outgoing := by rw [device, traffic, packets.outgoing]
  waiting := by
    rw [device, traffic]
    exact .inr (packets.elsewhere phase)

theorem receive (packets : Packets self) (selecting : self.phase = .select)
    (received : Option Bytes) : Packets (self.receive received) := by
  have phase : self.phase ≠ .transmit := by simp [selecting]
  cases received with
  | none => exact packets.same phase rfl rfl
  | some packet =>
      simp only [StackRun.receive]
      split
      case isTrue room =>
        refine ⟨?_, ?_, packets.outgoing, .inr (packets.elsewhere phase)⟩
        · rw [List.length_append]
          exact room
        · simp [← List.append_assoc, packets.incoming, room]
      case isFalse full =>
        refine ⟨packets.room, ?_, packets.outgoing, .inr (packets.elsewhere phase)⟩
        simp [packets.incoming, full]

theorem pollInterface (packets : Packets self) (ingested : Nat) (emitted : List Bytes) :
    Packets (self.pollInterface ingested emitted) where
  room := by
    have bound := packets.room
    simp only [StackRun.pollInterface, List.length_drop]
    omega
  incoming := by simp [StackRun.pollInterface, ← packets.incoming]
  outgoing := by simp [StackRun.pollInterface, ← packets.outgoing]
  waiting := .inl rfl

theorem transmit (packets : Packets self) (sent : Bool) : Packets (self.transmit sent) := by
  unfold StackRun.transmit
  split
  case h_1 empty =>
    exact ⟨packets.room, packets.incoming, packets.outgoing, .inr (.inl empty)⟩
  case h_2 packet rest queued =>
    refine ⟨packets.room, packets.incoming, ?_, ?_⟩
    · rw [← packets.outgoing, queued]
      simp
    · cases sent with
      | true => exact .inl rfl
      | false => exact .inr (.inr ⟨_, packet, rfl⟩)

theorem step (packets : Packets self) (event : Event) : Packets (self.step event) := by
  unfold StackRun.step
  split
  case h_1 =>
    split
    case isTrue => exact ⟨packets.room, packets.incoming, packets.outgoing, packets.waiting⟩
    case isFalse => exact packets
  case h_2 failure selecting => cases failure <;> exact packets.same (by simp [selecting]) rfl rfl
  case h_3 selecting => exact packets.same (by simp [selecting]) rfl rfl
  case h_4 received selecting => exact packets.receive selecting received
  case h_5 selecting => exact packets.same (by simp [selecting]) rfl rfl
  case h_6 ingested emitted _ => exact packets.pollInterface ingested emitted
  case h_7 sent _ => exact packets.transmit sent
  case h_8 action index serving =>
    have kept : (self.serve index action).device = self.device ∧
        (self.serve index action).traffic = self.traffic := by
      unfold serve
      split
      · exact ⟨rfl, rfl⟩
      · split
        · exact ⟨rfl, rfl⟩
        · dsimp only
          split
          · exact ⟨rfl, rfl⟩
          · exact ⟨rfl, rfl⟩
          · exact ⟨rfl, rfl⟩
          · split <;> exact ⟨rfl, rfl⟩
    exact packets.same (by simp [serving]) kept.1 kept.2
  case h_9 retaining =>
    have kept (closed : List Conn) : ∀ loop : StackRun,
        (closed.foldl release loop).device = loop.device ∧
          (closed.foldl release loop).traffic = loop.traffic := by
      induction closed with
      | nil => exact fun _ => ⟨rfl, rfl⟩
      | cons conn rest inductionHypothesis =>
          intro loop
          have one : (loop.release conn).device = loop.device ∧
              (loop.release conn).traffic = loop.traffic := by
            unfold release
            split <;> exact ⟨rfl, rfl⟩
          have later := inductionHypothesis (loop.release conn)
          exact ⟨later.1.trans one.1, later.2.trans one.2⟩
    exact packets.same (by simp [retaining]) (kept _ _).1 (kept _ _).2
  case h_10 => exact packets

end Packets

/-- The device queues lose no packet unnoticed, in any run: the interface reads
exactly the packets that found fewer than `QUEUE` others waiting, in their order,
and never more wait. What it transmits is given to `send_data` once each and in
order, and outside the transmission a packet waits only behind one that failed. -/
theorem packets_run (events : List Event) :
    let loop := run step start events
    loop.device.inbound.length ≤ queueCapacity ∧
      loop.traffic.ingested ++ loop.device.inbound =
        (loop.traffic.arrived.filter fun packet => packet.2 < queueCapacity).map Prod.fst ∧
      loop.traffic.tried.map Prod.fst ++ loop.device.outbound = loop.traffic.emitted ∧
      (loop.phase = .transmit ∨ loop.device.outbound = [] ∨
        ∃ earlier packet, loop.traffic.tried = earlier ++ [(packet, false)]) := by
  have initial : Packets start := ⟨Nat.zero_le _, rfl, rfl, .inr (.inl rfl)⟩
  have packets : Packets (run step start events) :=
    run_always (fun _ event packets => packets.step event) events initial
  exact ⟨packets.room, packets.incoming, packets.outgoing, packets.waiting⟩

end StackRun

end Unroxy.OpenVpn
