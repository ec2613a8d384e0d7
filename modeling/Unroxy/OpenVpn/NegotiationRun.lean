import Unroxy.OpenVpn.ControlAck
import Unroxy.OpenVpn.Negotiation

/-!
Owns the outcome of the negotiation over any TLS session.

`negotiate_eq` says that the code's outcome is that of the chunks it gets, and
`sees_plainSession` that it can get a stream in any chunks.
-/

namespace Unroxy.OpenVpn

open Unroxy.Lib

namespace Session

variable {σ : Type} {engine : Engine σ}

/-! ### Rounds of the code -/

/-- What depends on the arrivals only is kept by a task that leaves them alone. -/
private theorem preserves_arrivals {α : Type} {task : Act σ α}
    (alone : ∀ arrivals, Task.Preserves (fun self : Session σ => self.arrivals = arrivals) task)
    (holds : List Arrival → Prop) :
    Task.Preserves (fun self : Session σ => holds self.arrivals) task := by
  intro self held
  have kept (reached : Session σ) (same : reached.arrivals = self.arrivals) :
      holds reached.arrivals := same ▸ held
  have triple : Task.Triple (fun before : Session σ => before.arrivals = self.arrivals) task
      (fun _ after => holds after.arrivals) (fun _ after => holds after.arrivals) :=
    (alone self.arrivals).weaken (fun _ same => same) (fun _ => kept) fun _ => kept
  exact triple self rfl

private theorem arrivals_retransmitControl (arrivals : List Arrival) :
    Task.Preserves (fun self : Session σ => self.arrivals = arrivals) retransmitControl := by
  apply Task.Preserves.bind (Task.Preserves.gets _)
  intro self
  refine Task.Preserves.bind (Task.Preserves.modify fun _ same => same) fun _ => ?_
  split
  · exact Task.Preserves.pure _
  · exact Task.Preserves.bind (arrivals_update _) fun _ => arrivals_sendRaw _

/-- The next arrival, if any, is taken. -/
private theorem recvPacket_spec (before : Session σ) :
    Task.Triple (· = before) (recvPacket : Act σ (Option Packet))
      (fun _ self => self.arrivals.length < before.arrivals.length) (fun _ _ => True) := by
  intro self same
  rw [same]
  simp only [recvPacket, Task.run_bind, Task.run_gets, id]
  rcases arrivals : before.arrivals with - | ⟨arrival, rest⟩
  · trivial
  · cases arrival with
    | expired => exact Nat.lt_succ_self _
    | failed => trivial
    | silent overdue => exact Nat.lt_succ_self _
    | datagram raw overdue =>
        simp only [Task.run_bind, Task.run_modify, Task.run_lift]
        cases Packet.parse raw with
        | ok packet => exact Nat.lt_succ_self _
        | error failure => trivial

private theorem deadlinePassed_spec (before : Session σ) :
    Task.Triple (· = before) (deadlinePassed : Act σ Bool)
      (fun passed self => passed = false → self = before) (fun _ _ => True) := by
  intro self same
  rw [same]
  simp only [deadlinePassed, Task.run_bind, Task.run_gets, id]
  rcases before.arrivals with - | ⟨arrival, rest⟩
  · exact fun _ => rfl
  · cases arrival with
    | expired => exact fun passed => absurd passed (by decide)
    | failed => exact fun _ => rfl
    | silent overdue => exact fun _ => rfl
    | datagram raw overdue => exact fun _ => rfl

/-- A `pump` that returns has taken at least one arrival. -/
theorem pump_shortens {self after : Session σ} (ran : pump engine self = (.ok (), after)) :
    after.arrivals.length < self.arrivals.length := by
  let Shorter (bound : Nat) (session : Session σ) : Prop := session.arrivals.length < bound
  have kept (bound : Nat) {α : Type} {task : Act σ α} (alone : ∀ arrivals, Task.Preserves
      (fun session : Session σ => session.arrivals = arrivals) task) :
      Task.Preserves (Shorter bound) task :=
    preserves_arrivals alone fun arrivals => arrivals.length < bound
  have triple : Task.Triple (Shorter (self.arrivals.length + 1)) (pump engine)
      (fun _ => Shorter self.arrivals.length) (fun _ _ => True) := by
    refine Task.Triple.loop (fun _ => Shorter (self.arrivals.length + 1))
      (fun _ session => session.arrivals.length) (fun _ _ => le_rfl) fun _ bound => ?_
    rintro session ⟨within, rfl⟩
    refine Task.Triple.bind (deadlinePassed_spec session) (fun passed => ?_) session rfl
    cases passed with
    | true => exact fun _ _ => trivial
    | false =>
        intro reached same
        rw [same rfl, if_neg Bool.false_ne_true]
        refine Task.Triple.bind (recvPacket_spec session) (fun packet => ?_) session rfl
        have onward : ∀ later, Shorter session.arrivals.length later →
            Shorter (self.arrivals.length + 1) later ∧
              later.arrivals.length < session.arrivals.length :=
          fun later shorter => ⟨Nat.lt_trans shorter within, shorter⟩
        cases packet with
        | none =>
            refine Task.Triple.bind (Task.Preserves.gets _ |>.weaken (fun _ held => held)
              (fun _ _ held => held) fun _ _ _ => trivial) fun state => ?_
            split
            · refine Task.Triple.bind ((kept _ arrivals_retransmitControl).weaken
                (fun _ held => held) (fun _ _ held => held) fun _ _ _ => trivial) fun _ => ?_
              exact onward
            · exact onward
        | some packet =>
            dsimp only
            split
            · refine Task.Triple.bind ((kept _ fun _ => arrivals_handleControl engine
                packet).weaken (fun _ held => held) (fun _ _ held => held)
                  fun _ _ _ => trivial) fun _ => ?_
              exact fun later shorter => Nat.lt_of_lt_of_le shorter (Nat.lt_succ_iff.mp within)
            · exact onward
  have done := triple self (Nat.lt_succ_self _)
  rw [ran] at done
  exact done

/-- One round of either loop: a `pump` that returns, and the chunk
`take_plaintext` yields after it. -/
def Round (engine : Engine σ) (before : Session σ) (chunk : Bytes) (after : Session σ) : Prop :=
  deadlinePassed before = (.ok false, before) ∧
    ∃ pumped taken, pump engine before = (.ok (), pumped) ∧
      takePlaintext pumped = (.ok taken, after) ∧ taken.getD [] = chunk

theorem Round.shorter {before after : Session σ} {chunk : Bytes}
    (round : Round engine before chunk after) :
    after.arrivals.length < before.arrivals.length := by
  rcases round with ⟨-, pumped, taken, ran, took, -⟩
  have same : after.arrivals = pumped.arrivals := by
    cases took
    rfl
  rw [same]
  exact pump_shortens ran

/-- Rounds after each other, with their chunks. -/
inductive Rounds (engine : Engine σ) : Session σ → List Bytes → Session σ → Prop where
  | done (self : Session σ) : Rounds engine self [] self
  | more {self between after : Session σ} {chunk : Bytes} {chunks : List Bytes}
      (round : Round engine self chunk between) (rest : Rounds engine between chunks after) :
      Rounds engine self (chunk :: chunks) after

/-- `exchange_keys` has sent the client's keys. -/
def SentKeys (engine : Engine σ) (profile : Profile) (secrets : ClientSecrets)
    (self after : Session σ) : Prop :=
  ∃ payload written outbound taken, keyExchangePayload profile secrets = .ok payload ∧
    tls (TlsState.write engine payload) self = (.ok (), written) ∧
    takeOutbound written = (.ok outbound, taken) ∧
    sendControlChunks outbound taken = (.ok (), after)

/-- `exchange_keys` has stored the randoms. -/
def seedWith (secrets : ClientSecrets) (randoms : Randoms) (self : Session σ) : Session σ :=
  { self with
    control := { self.control with
                 seed := some {
                   preMaster := secrets.preMaster
                   clientRandom1 := secrets.random1
                   serverRandom1 := randoms.1
                   clientRandom2 := secrets.random2
                   serverRandom2 := randoms.2
                   clientSid := self.control.sessionId
                   serverSid := self.control.remoteSessionId } } }

/-- `push_request` has sent its request. -/
def Requested (engine : Engine σ) (self after : Session σ) : Prop :=
  ∃ written, tls (TlsState.write engine ("PUSH_REQUEST".toUTF8.toList ++ [0])) self =
      (.ok (), written) ∧
    flushTls written = (.ok (), after)

/-- `push_request` gets these chunks, and then nothing more arrives. -/
def SeesPush (engine : Engine σ) : Session σ → List Bytes → Prop
  | self, [] => self.arrivals = []
  | self, chunk :: rest => ∃ after, Round engine self chunk after ∧ SeesPush engine after rest

/-- `exchange_keys` and then `push_request` get these chunks. -/
def SeesKeys (engine : Engine σ) (secrets : ClientSecrets) :
    Session σ → Bytes → List Bytes → Prop
  | self, _, [] => self.arrivals = []
  | self, buffer, chunk :: rest =>
      ∃ after, Round engine self chunk after ∧
        match serverRandoms (buffer ++ chunk) with
        | .ok none => SeesKeys engine secrets after (buffer ++ chunk) rest
        | .ok (some randoms) =>
            ∃ asked, Requested engine (seedWith secrets randoms after) asked ∧
              SeesPush engine asked rest
        | _ => True

/-- The server's plaintext reaches the negotiation in these chunks. -/
def Sees (engine : Engine σ) (profile : Profile) (secrets : ClientSecrets) (self : Session σ)
    (chunks : List Bytes) : Prop :=
  ∃ sent, SentKeys engine profile secrets self sent ∧ SeesKeys engine secrets sent [] chunks

/-- `exchange_keys` followed by `push_request`: the server's randoms and what the
second returns. -/
def negotiate (engine : Engine σ) (profile : Profile) (secrets : ClientSecrets)
    (self : Session σ) : Outcome Error (Option Randoms × Outcome Error Bytes) :=
  match exchangeKeys engine profile secrets self with
  | (.ok (), between) =>
      .ok (between.control.seed.map fun seed => (seed.serverRandom1, seed.serverRandom2),
        (pushRequest engine between).1)
  | (.error failure, _) => .error failure
  | (.panic, _) => .panic
  | (.pending, _) => .pending

/-! ### The code computes `negotiateChunks` -/

/-- The body of the loop of `push_request`. -/
private def pushTurn (engine : Engine σ) (buffer : Bytes) : Act σ (Bytes ⊕ Bytes) := do
  if ← deadlinePassed then
    Task.throw .timeout
  else
    pump engine
    let chunk ← takePlaintext
    let buffer := buffer ++ chunk.getD []
    match takeMessage buffer "PUSH_REPLY".toUTF8.toList with
    | some (reply, _) => return .inr reply
    | none =>
        match takeMessage buffer "AUTH_FAILED".toUTF8.toList with
        | some _ => Task.throw .auth
        | none => return .inl buffer

/-- The body of the loop of `exchange_keys`. -/
private def exchangeTurn (engine : Engine σ) (buffer : Bytes) : Act σ (Bytes ⊕ Randoms) := do
  if ← deadlinePassed then
    Task.throw .timeout
  else
    pump engine
    let chunk ← takePlaintext
    let buffer := buffer ++ chunk.getD []
    match ← Task.lift (serverRandoms buffer) with
    | none => return .inl buffer
    | some randoms => return .inr randoms

private theorem pushRequest_eq (engine : Engine σ) :
    pushRequest engine = (do
      tls (TlsState.write engine ("PUSH_REQUEST".toUTF8.toList ++ [0]))
      flushTls
      Task.loop (fun self => self.arrivals.length) (pushTurn engine) [] : Act σ Bytes) := rfl

private theorem pump_waits {self : Session σ} (nothing : self.arrivals = []) :
    pump engine self = (.pending, self) := by
  have before : deadlinePassed self = (.ok false, self) :=
    run_deadlinePassed fun rest => by simp [nothing]
  have waits : recvPacket self = (.pending, self) := by
    simp only [recvPacket, Task.run_bind, Task.run_gets, id, nothing, Task.run_lift]
  rw [pump, Task.loop, nothing, List.length_nil, Task.turns, Task.run_bind,
    Task.run_bind_ok before, if_neg Bool.false_ne_true, Task.run_bind, waits]

private theorem pushTurn_waits {self : Session σ} (nothing : self.arrivals = [])
    (buffer : Bytes) : pushTurn engine buffer self = (.pending, self) := by
  have before : deadlinePassed self = (.ok false, self) :=
    run_deadlinePassed fun rest => by simp [nothing]
  rw [pushTurn, Task.run_bind_ok before, if_neg Bool.false_ne_true, Task.run_bind,
    pump_waits nothing]

private theorem pushTurn_round {self after : Session σ} {chunk : Bytes}
    (round : Round engine self chunk after) (buffer : Bytes) :
    pushTurn engine buffer self =
      match takeMessage (buffer ++ chunk) pushReply with
      | some (reply, _) => (.ok (.inr reply), after)
      | none =>
          match takeMessage (buffer ++ chunk) authFailed with
          | some _ => (.error .auth, after)
          | none => (.ok (.inl (buffer ++ chunk)), after) := by
  rcases round with ⟨before, pumped, taken, ran, took, rfl⟩
  rw [pushTurn, Task.run_bind_ok before, if_neg Bool.false_ne_true, Task.run_bind_ok ran,
    Task.run_bind_ok took]
  change (match takeMessage (buffer ++ taken.getD []) pushReply with
    | some (reply, _) => pure (.inr reply)
    | none => match takeMessage (buffer ++ taken.getD []) authFailed with
      | some _ => Task.throw .auth
      | none => pure (.inl (buffer ++ taken.getD [])) : Act σ (Bytes ⊕ Bytes)) after = _
  cases takeMessage (buffer ++ taken.getD []) pushReply with
  | some found => rfl
  | none => cases takeMessage (buffer ++ taken.getD []) authFailed <;> rfl

private theorem turns_pushTurn (chunks : List Bytes) :
    ∀ {self : Session σ} {fuel : Nat} (buffer : Bytes), SeesPush engine self chunks →
      self.arrivals.length < fuel →
      (Task.turns fuel (pushTurn engine) buffer self).1 = pushChunks buffer chunks := by
  induction chunks with
  | nil =>
      intro self fuel buffer nothing enough
      obtain ⟨fuel, rfl⟩ := Nat.exists_eq_add_one_of_ne_zero (Nat.ne_zero_of_lt enough)
      rw [Task.turns, Task.run_bind, pushTurn_waits nothing]
      rfl
  | cons chunk rest inductionHypothesis =>
      intro self fuel buffer sees enough
      obtain ⟨fuel, rfl⟩ := Nat.exists_eq_add_one_of_ne_zero (Nat.ne_zero_of_lt enough)
      rcases sees with ⟨after, round, sees⟩
      have shorter := round.shorter
      rw [Task.turns, Task.run_bind, pushTurn_round round, pushChunks]
      cases takeMessage (buffer ++ chunk) pushReply with
      | some found => rfl
      | none =>
          cases takeMessage (buffer ++ chunk) authFailed with
          | some found => rfl
          | none => exact inductionHypothesis (buffer ++ chunk) sees (by omega)

private theorem pushRequest_outcome {self asked : Session σ}
    (requested : Requested engine self asked) {chunks : List Bytes}
    (sees : SeesPush engine asked chunks) :
    (pushRequest engine self).1 = pushChunks [] chunks := by
  rcases requested with ⟨written, wrote, flushed⟩
  rw [pushRequest_eq, Task.run_bind_ok wrote, Task.run_bind_ok flushed]
  exact turns_pushTurn chunks [] sees (Nat.lt_succ_self _)

private theorem exchangeTurn_waits {self : Session σ} (nothing : self.arrivals = [])
    (buffer : Bytes) : exchangeTurn engine buffer self = (.pending, self) := by
  have before : deadlinePassed self = (.ok false, self) :=
    run_deadlinePassed fun rest => by simp [nothing]
  rw [exchangeTurn, Task.run_bind_ok before, if_neg Bool.false_ne_true, Task.run_bind,
    pump_waits nothing]

private theorem exchangeTurn_round {self after : Session σ} {chunk : Bytes}
    (round : Round engine self chunk after) (buffer : Bytes) :
    exchangeTurn engine buffer self =
      match serverRandoms (buffer ++ chunk) with
      | .ok none => (.ok (.inl (buffer ++ chunk)), after)
      | .ok (some randoms) => (.ok (.inr randoms), after)
      | .error failure => (.error failure, after)
      | .panic => (.panic, after)
      | .pending => (.pending, after) := by
  rcases round with ⟨before, pumped, taken, ran, took, rfl⟩
  rw [exchangeTurn, Task.run_bind_ok before, if_neg Bool.false_ne_true, Task.run_bind_ok ran,
    Task.run_bind_ok took]
  change (Task.lift (serverRandoms (buffer ++ taken.getD [])) >>= fun found => match found with
    | none => pure (.inl (buffer ++ taken.getD []))
    | some randoms => pure (.inr randoms) : Act σ (Bytes ⊕ Randoms)) after = _
  rw [Task.run_bind, Task.run_lift]
  rcases serverRandoms (buffer ++ taken.getD []) with (- | randoms) | failure | - | -
  all_goals rfl

private theorem exchangeKeys_eq (engine : Engine σ) (profile : Profile) (secrets : ClientSecrets) :
    exchangeKeys engine profile secrets = (do
      let payload ← Task.lift (keyExchangePayload profile secrets)
      tls (TlsState.write engine payload)
      let outbound ← takeOutbound
      sendControlChunks outbound
      let randoms ← Task.loop (fun self => self.arrivals.length) (exchangeTurn engine) []
      Task.modify (seedWith secrets randoms) : Act σ Unit) := rfl

/-- A turn that ends well is a round, with what the buffer then tells. -/
private theorem exchangeTurn_ok {self after : Session σ} {buffer : Bytes}
    {result : Bytes ⊕ Randoms}
    (ran : exchangeTurn engine buffer self = (.ok result, after)) :
    ∃ chunk, Round engine self chunk after ∧
      (result = .inl (buffer ++ chunk) ∨
        ∃ randoms, result = .inr randoms ∧
          serverRandoms (buffer ++ chunk) = .ok (some randoms)) := by
  obtain ⟨passed, reached, before, ran⟩ := Task.of_bind_ok ran
  cases passed with
  | true =>
      rw [if_pos rfl] at ran
      cases ran
  | false =>
      rw [if_neg Bool.false_ne_true] at ran
      have same : reached = self := by
        have spec := deadlinePassed_spec self self rfl
        rw [before] at spec
        exact spec rfl
      rw [same] at before ran
      obtain ⟨⟨⟩, pumped, pumping, ran⟩ := Task.of_bind_ok ran
      obtain ⟨taken, read, took, ran⟩ := Task.of_bind_ok ran
      obtain ⟨found, decided, lifted, ran⟩ := Task.of_bind_ok ran
      obtain ⟨known, rfl⟩ := Prod.mk.inj lifted
      cases found with
      | none =>
          cases ran
          exact ⟨taken.getD [], ⟨before, pumped, taken, pumping, took, rfl⟩, .inl rfl⟩
      | some randoms =>
          cases ran
          exact ⟨taken.getD [], ⟨before, pumped, taken, pumping, took, rfl⟩,
            .inr ⟨randoms, rfl, known⟩⟩

private theorem turns_exchangeTurn_ok (fuel : Nat) :
    ∀ {self after : Session σ} {buffer : Bytes} {randoms : Randoms},
      Task.turns fuel (exchangeTurn engine) buffer self = (.ok randoms, after) →
      ∃ chunks, Rounds engine self chunks after ∧
        serverRandoms (buffer ++ chunks.flatten) = .ok (some randoms) := by
  induction fuel with
  | zero =>
      intro self after buffer randoms ran
      cases ran
  | succ fuel inductionHypothesis =>
      intro self after buffer randoms ran
      obtain ⟨result, between, turned, ran⟩ := Task.of_bind_ok ran
      obtain ⟨chunk, round, rfl | ⟨found, rfl, known⟩⟩ := exchangeTurn_ok turned
      · obtain ⟨chunks, rounds, known⟩ := inductionHypothesis ran
        rw [List.append_assoc] at known
        exact ⟨chunk :: chunks, .more round rounds, known⟩
      · cases ran
        refine ⟨[chunk], .more round (.done _), ?_⟩
        rw [List.flatten_singleton]
        exact known

/-- An `exchange_keys` that returns has sent the client's keys, and stored with them
the randoms that the plaintext of its rounds begins with. -/
theorem exchangeKeys_ok {profile : Profile} {secrets : ClientSecrets} {self after : Session σ}
    (ran : exchangeKeys engine profile secrets self = (.ok (), after)) :
    ∃ sent chunks heard randoms, SentKeys engine profile secrets self sent ∧
      Rounds engine sent chunks heard ∧ serverRandoms chunks.flatten = .ok (some randoms) ∧
      after = seedWith secrets randoms heard := by
  rw [exchangeKeys_eq] at ran
  obtain ⟨payload, begins, lifted, ran⟩ := Task.of_bind_ok ran
  obtain ⟨built, rfl⟩ := Prod.mk.inj lifted
  obtain ⟨⟨⟩, written, wrote, ran⟩ := Task.of_bind_ok ran
  obtain ⟨outbound, taken, took, ran⟩ := Task.of_bind_ok ran
  obtain ⟨⟨⟩, sent, sending, ran⟩ := Task.of_bind_ok ran
  obtain ⟨randoms, heard, looped, ran⟩ := Task.of_bind_ok ran
  cases ran
  obtain ⟨chunks, rounds, known⟩ := turns_exchangeTurn_ok _ looped
  exact ⟨sent, chunks, heard, randoms, ⟨payload, written, outbound, taken, built, wrote, took,
    sending⟩, rounds, known, rfl⟩

/-- What is left to do once `exchange_keys` is in its loop. -/
private def negotiateRest (engine : Engine σ) (secrets : ClientSecrets) :
    Outcome Error Randoms × Session σ → Outcome Error (Option Randoms × Outcome Error Bytes)
  | (.ok randoms, after) =>
      .ok (some randoms, (pushRequest engine (seedWith secrets randoms after)).1)
  | (.error failure, _) => .error failure
  | (.panic, _) => .panic
  | (.pending, _) => .pending

private theorem turns_exchangeTurn {secrets : ClientSecrets} (chunks : List Bytes) :
    ∀ {self : Session σ} {fuel : Nat} (buffer : Bytes), SeesKeys engine secrets self buffer chunks →
      self.arrivals.length < fuel →
      negotiateRest engine secrets (Task.turns fuel (exchangeTurn engine) buffer self) = (do
        let (randoms, reply) ← negotiateChunks buffer chunks
        return (some randoms, reply)) := by
  induction chunks with
  | nil =>
      intro self fuel buffer nothing enough
      obtain ⟨fuel, rfl⟩ := Nat.exists_eq_add_one_of_ne_zero (Nat.ne_zero_of_lt enough)
      rw [Task.turns, Task.run_bind, exchangeTurn_waits nothing]
      rfl
  | cons chunk rest inductionHypothesis =>
      intro self fuel buffer sees enough
      obtain ⟨fuel, rfl⟩ := Nat.exists_eq_add_one_of_ne_zero (Nat.ne_zero_of_lt enough)
      rcases sees with ⟨after, round, sees⟩
      have shorter := round.shorter
      rw [Task.turns, Task.run_bind, exchangeTurn_round round, negotiateChunks]
      rcases found : serverRandoms (buffer ++ chunk) with (- | randoms) | failure | - | -
      · rw [found] at sees
        exact inductionHypothesis (buffer ++ chunk) sees (by omega)
      · rw [found] at sees
        rcases sees with ⟨asked, requested, sees⟩
        have pushed := pushRequest_outcome requested sees
        change Outcome.ok (some randoms, (pushRequest engine _).1) = .ok (_, pushChunks [] rest)
        rw [pushed]
      · rfl
      · rfl
      · rfl

/-- The code's outcome is that of the chunks, whatever the TLS session. -/
theorem negotiate_eq {profile : Profile} {secrets : ClientSecrets} {self : Session σ}
    {chunks : List Bytes} (sees : Sees engine profile secrets self chunks) :
    negotiate engine profile secrets self = (do
      let (randoms, reply) ← negotiateChunks [] chunks
      return (some randoms, reply)) := by
  rcases sees with ⟨sent, ⟨payload, written, outbound, taken, built, wrote, took, sending⟩, sees⟩
  have lifted : (Task.lift (keyExchangePayload profile secrets) : Act σ Bytes) self =
      (.ok payload, self) := by
    rw [Task.run_lift, built]
  rw [← turns_exchangeTurn chunks [] sees (Nat.lt_succ_self _), negotiate, exchangeKeys_eq,
    Task.run_bind_ok lifted, Task.run_bind_ok wrote, Task.run_bind_ok took,
    Task.run_bind_ok sending, Task.run_bind, Task.loop]
  rcases Task.turns (sent.arrivals.length + 1) (exchangeTurn engine) [] sent with ⟨outcome, after⟩
  cases outcome <;> rfl

/-! ### Every way of cutting a stream is one of the code's -/

/-- A session that passes the bytes on as they are. -/
def plainEngine : Engine Unit where
  handshake _ memory := (.done, (), memory)
  read _ memory := ([memory.inbound], (), { memory with inbound := [] })
  write _ memory data := (some data.length, (), { memory with outbound := memory.outbound ++ data })

def plainTls (outbound plaintext : Bytes) : TlsState Unit where
  handshake := none
  stream := some ((), ⟨[], outbound⟩)
  plaintext := plaintext
  offset := 0
  pending := []

/-- One control packet for each chunk. -/
def datagramsOf : UInt32 → List Bytes → List Arrival
  | _, [] => []
  | packetId, chunk :: rest =>
      .datagram (arrivalOf .pump packetId chunk).raw false :: datagramsOf (packetId + 1) rest

/-- A session over `plainEngine` that waits for packet `next`. -/
private structure Hears (outbound plaintext : Bytes) (next : UInt32) (arrivals : List Arrival)
    (session : Session Unit) : Prop where
  tls : session.control.tls = plainTls outbound plaintext
  empty : session.control.reorder.isEmpty = true
  next : session.control.recvNext = next
  steady : session.faults = []
  arrivals : session.arrivals = arrivals

section Hears

variable {outbound plaintext : Bytes} {next : UInt32} {arrivals : List Arrival}

/-- A task that ends with a value and does not touch what `before` is about. -/
private abbrev Keeps {α : Type} (before : Session Unit → Prop) (task : Act Unit α) : Prop :=
  Task.Triple before task (fun _ => before) fun _ _ => False

private theorem hears_update {change : Control Unit → Control Unit}
    (same : ∀ control, (change control).tls = control.tls ∧
      (change control).reorder = control.reorder ∧
      (change control).recvNext = control.recvNext) :
    Keeps (Hears outbound plaintext next arrivals) (update change) := by
  intro self hears
  rcases same self.control with ⟨sameTls, sameReorder, sameNext⟩
  exact {
    tls := sameTls.trans hears.tls
    empty := (congrArg Std.TreeMap.isEmpty sameReorder).trans hears.empty
    next := sameNext.trans hears.next
    steady := hears.steady
    arrivals := hears.arrivals }

private theorem hears_gets {α : Type} (read : Session Unit → α) :
    Keeps (Hears outbound plaintext next arrivals) (Task.gets read) := fun _ hears => hears

private theorem hears_sendRaw (datagram : Bytes) :
    Keeps (Hears outbound plaintext next arrivals) (sendRaw datagram) := by
  intro self hears
  simp only [sendRaw, log, Task.run_bind, Task.run_gets, Task.run_modify, id, hears.steady]
  exact ⟨hears.tls, hears.empty, hears.next, rfl, hears.arrivals⟩

private theorem hears_sendControl (payload : Bytes) :
    Keeps (Hears outbound plaintext next arrivals) (sendControl payload) := by
  apply Task.Triple.bind (hears_gets _)
  intro control
  exact Task.Triple.bind (hears_update fun _ => ⟨rfl, rfl, rfl⟩) fun _ => hears_sendRaw _

private theorem hears_sendControlChunks (data : Bytes) :
    Keeps (Hears outbound plaintext next arrivals) (sendControlChunks data) := by
  refine Task.Triple.loop (fun _ => Hears outbound plaintext next arrivals)
    (fun offset _ => data.length - offset) (fun _ _ => Nat.sub_le _ _) fun offset bound => ?_
  split
  case isTrue more =>
    intro session held
    refine Task.Triple.bind (hears_sendControl _) (fun _ => ?_) session held.1
    intro reached kept
    refine ⟨kept, ?_⟩
    have := held.2
    unfold maxControlPayload
    omega
  case isFalse done => exact fun session held => held.1

private theorem hears_tls {α : Type} {task : Task (TlsState Unit) Error α} {value : α}
    {outbound' plaintext' : Bytes}
    (ran : task (plainTls outbound plaintext) = (.ok value, plainTls outbound' plaintext')) :
    Task.Triple (Hears outbound plaintext next arrivals) (Session.tls task)
      (fun _ => Hears outbound' plaintext' next arrivals) fun _ _ => False := by
  intro self hears
  simp only [Session.tls, Task.zoom, hears.tls, ran]
  exact ⟨rfl, hears.empty, hears.next, hears.steady, hears.arrivals⟩

private theorem run_write {data : Bytes} (some : data ≠ []) :
    TlsState.write plainEngine data (plainTls outbound plaintext) =
      (.ok (), plainTls (outbound ++ data) plaintext) := by
  obtain ⟨first, rest, rfl⟩ := List.exists_cons_of_ne_nil some
  have all : (rest.length + 1) = (first :: rest).length := rfl
  simp [TlsState.write, TlsState.drainPending, Task.loop, Task.turns, Task.run_bind, plainTls,
    plainEngine]

private theorem hears_takeOutbound :
    Task.Triple (Hears outbound plaintext next arrivals) takeOutbound
      (fun _ => Hears [] plaintext next arrivals) fun _ _ => False := by
  intro self hears
  simp only [takeOutbound, update, log, Task.run_bind, Task.run_gets, Task.run_modify,
    Task.run_pure, hears.tls]
  exact ⟨rfl, hears.empty, hears.next, hears.steady, hears.arrivals⟩

private theorem hears_flushTls :
    Task.Triple (Hears outbound plaintext next arrivals) flushTls
      (fun _ => Hears [] plaintext next arrivals) fun _ _ => False := by
  apply Task.Triple.bind hears_takeOutbound
  intro taken
  split
  · exact fun self hears => hears
  · exact hears_sendControlChunks taken

private theorem hears_sendAck (packetId : UInt32) :
    Keeps (Hears outbound plaintext next arrivals) (sendAck packetId) := by
  have recorded (control : Control Unit) : (recordAck packetId control).tls = control.tls ∧
      (recordAck packetId control).reorder = control.reorder ∧
      (recordAck packetId control).recvNext = control.recvNext := by
    unfold recordAck
    split <;> exact ⟨rfl, rfl, rfl⟩
  apply Task.Triple.bind (hears_update recorded)
  intro _
  exact Task.Triple.bind (hears_gets _) fun _ => hears_sendRaw _

private theorem drainReorder_empty {σ : Type} {engine : Engine σ} {self : Session σ}
    (empty : self.control.reorder.isEmpty = true) : drainReorder engine self = (.ok (), self) := by
  have absent : self.control.reorder[self.control.recvNext]? = none :=
    Std.TreeMap.getElem?_of_isEmpty empty
  simp only [drainReorder, Task.loop, Task.turns, Task.run_bind, Task.run_gets, absent,
    Task.run_pure]

private theorem hears_acceptControl (payload : Bytes) :
    Task.Triple (Hears outbound plaintext next arrivals) (acceptControl plainEngine next payload)
      (fun _ => Hears outbound (plaintext ++ payload) (next + 1) arrivals) fun _ _ => False := by
  intro self hears
  have fed : TlsState.feed plainEngine payload (plainTls outbound plaintext) =
      (.ok (), plainTls outbound (plaintext ++ payload)) := by
    simp [TlsState.feed, TlsState.pump, Task.run_bind, plainTls, plainEngine, MemoryStream.feed]
  rw [acceptControl, Task.run_bind, Task.run_gets]
  dsimp only
  rw [hears.next, if_neg (UInt32.lt_irrefl next), if_neg (UInt32.lt_irrefl next)]
  refine Task.Triple.bind (hears_tls fed) (fun _ => ?_) self hears
  have counted : Task.Triple (Hears outbound (plaintext ++ payload) next arrivals)
      (update fun control => { control with recvNext := control.recvNext + 1 })
      (fun _ => Hears outbound (plaintext ++ payload) (next + 1) arrivals) fun _ _ => False :=
    fun _ kept =>
      ⟨kept.tls, kept.empty, congrArg (· + 1) kept.next, kept.steady, kept.arrivals⟩
  apply Task.Triple.bind counted
  intro _ reached kept
  rw [drainReorder_empty kept.empty]
  exact kept

private theorem hears_handleControl (packet : Packet) (due : packet.packetId = next) :
    Task.Triple (Hears outbound plaintext next arrivals) (handleControl plainEngine packet)
      (fun _ => Hears [] (plaintext ++ packet.payload) (next + 1) arrivals)
      fun _ _ => False := by
  have driven (plaintext : Bytes) : TlsState.drive plainEngine (plainTls outbound plaintext) =
      (.ok (), plainTls outbound plaintext) := by
    simp [TlsState.drive, TlsState.pump, Task.run_bind, plainTls, plainEngine]
  apply Task.Triple.bind (hears_sendAck _)
  intro _
  rw [due]
  apply Task.Triple.bind (hears_acceptControl packet.payload)
  intro _
  exact Task.Triple.bind (hears_tls (driven _)) fun _ => hears_flushTls

end Hears

/-- The next chunk is one round. -/
private theorem hears_round {next : UInt32} {chunk : Bytes} {rest : List Bytes}
    {self : Session Unit} (hears : Hears [] [] next (datagramsOf next (chunk :: rest)) self) :
    ∃ after, Round plainEngine self chunk after ∧
      Hears [] [] (next + 1) (datagramsOf (next + 1) rest) after := by
  have ahead := hears.arrivals
  rw [datagramsOf] at ahead
  have before : deadlinePassed self = (.ok false, self) :=
    run_deadlinePassed fun rest => by simp [ahead]
  have arrived : recvPacket self = (.ok (some (arrivalOf .pump next chunk).packet),
      { self with arrivals := datagramsOf (next + 1) rest, overdue := false }) := by
    simp only [recvPacket, Task.run_bind, Task.run_gets, id, ahead, Task.run_modify, Task.run_lift,
      (arrivalOf .pump next chunk).parsed, Outcome.ofChecked_ok]
  have listening : Hears [] [] next (datagramsOf (next + 1) rest)
      { self with arrivals := datagramsOf (next + 1) rest, overdue := false } :=
    ⟨hears.tls, hears.empty, hears.next, hears.steady, rfl⟩
  rcases (hears_handleControl (arrivalOf .pump next chunk).packet rfl).ends listening with
    ⟨⟨⟩, pumped, handled, kept⟩
  have ran : pump plainEngine self = (.ok (), pumped) := by
    rw [pump, Task.loop, Task.turns, Task.run_bind, Task.run_bind_ok before,
      if_neg Bool.false_ne_true, Task.run_bind_ok arrived]
    dsimp only
    rw [if_pos (arrivalOf .pump next chunk).control, Task.run_bind_ok handled]
    rfl
  have taken : (TlsState.takePlaintext (plainTls [] chunk)).1.getD [] = chunk ∧
      (TlsState.takePlaintext (plainTls [] chunk)).2 = plainTls [] [] := by
    cases chunk <;> exact ⟨rfl, rfl⟩
  have tls : pumped.control.tls = plainTls [] chunk := kept.tls
  rw [← tls] at taken
  refine ⟨_, ⟨before, pumped, _, ran, rfl, taken.1⟩, ?_⟩
  exact ⟨taken.2, kept.empty, kept.next, kept.steady, kept.arrivals⟩

private theorem hears_seesPush (chunks : List Bytes) :
    ∀ {next : UInt32} {self : Session Unit}, Hears [] [] next (datagramsOf next chunks) self →
      SeesPush plainEngine self chunks := by
  induction chunks with
  | nil => exact fun hears => hears.arrivals
  | cons chunk rest inductionHypothesis =>
      intro next self hears
      rcases hears_round hears with ⟨after, round, onward⟩
      exact ⟨after, round, inductionHypothesis onward⟩

private theorem hears_requested {next : UInt32} {arrivals : List Arrival} {self : Session Unit}
    (hears : Hears [] [] next arrivals self) :
    ∃ asked, Requested plainEngine self asked ∧ Hears [] [] next arrivals asked := by
  have request : "PUSH_REQUEST".toUTF8.toList ++ [0] ≠ [] := by simp
  rcases (hears_tls (run_write request)).ends hears with ⟨⟨⟩, written, ran, kept⟩
  rcases hears_flushTls.ends kept with ⟨⟨⟩, asked, flushed, onward⟩
  exact ⟨asked, ⟨written, ran, flushed⟩, onward⟩

private theorem hears_seesKeys {secrets : ClientSecrets} (chunks : List Bytes) :
    ∀ {next : UInt32} {self : Session Unit} (buffer : Bytes),
      Hears [] [] next (datagramsOf next chunks) self →
      SeesKeys plainEngine secrets self buffer chunks := by
  induction chunks with
  | nil => exact fun _ hears => hears.arrivals
  | cons chunk rest inductionHypothesis =>
      intro next self buffer hears
      rcases hears_round hears with ⟨after, round, onward⟩
      refine ⟨after, round, ?_⟩
      rcases serverRandoms (buffer ++ chunk) with (- | randoms) | failure | - | -
      · exact inductionHypothesis (buffer ++ chunk) onward
      · have seeded : Hears [] [] (next + 1) (datagramsOf (next + 1) rest)
            (seedWith secrets randoms after) :=
          ⟨onward.tls, onward.empty, onward.next, onward.steady, onward.arrivals⟩
        rcases hears_requested seeded with ⟨asked, requested, kept⟩
        exact ⟨asked, requested, hears_seesPush rest kept⟩
      all_goals trivial

private theorem keyExchangePayload_ok (profile : Profile) (secrets : ClientSecrets) :
    ∃ payload, keyExchangePayload profile secrets = .ok payload ∧ payload ≠ [] := by
  have fits (out : Bytes) {value : String} (short : value.toUTF8.toList.length ≤ 65535) :
      writeString out value =
        .ok (out ++ u16ToBe (UInt16.ofNat value.toUTF8.toList.length) ++ value.toUTF8.toList) :=
    if_neg (Nat.not_lt.mpr short)
  have options : (optionsString profile).toUTF8.toList.length ≤ 65535 := by
    rcases profile with ⟨cipher, auth⟩
    cases cipher <;> cases auth <;> decide +kernel
  rw [keyExchangePayload, fits _ options]
  simp only [Outcome.ok_bind]
  rw [fits _ (by decide +kernel)]
  simp only [Outcome.ok_bind]
  rw [fits _ (by decide +kernel)]
  simp only [Outcome.ok_bind]
  rw [fits _ (by decide +kernel)]
  refine ⟨_, rfl, ?_⟩
  simp [u16ToBe]

/-- A session that the server's plaintext reaches in these chunks. -/
def plainSession (chunks : List Bytes) : Session Unit :=
  let control := Control.start () (Vector.replicate 8 1) (Vector.replicate 8 2) 0 .aes256Gcm .sha1
  connected { control with tls := plainTls [] [] } (datagramsOf 1 chunks) []

theorem sees_plainSession (profile : Profile) (secrets : ClientSecrets) (chunks : List Bytes) :
    Sees plainEngine profile secrets (plainSession chunks) chunks := by
  have hears : Hears [] [] 1 (datagramsOf 1 chunks) (plainSession chunks) :=
    ⟨rfl, by rfl, rfl, rfl, rfl⟩
  rcases keyExchangePayload_ok profile secrets with ⟨payload, built, some⟩
  rcases (hears_tls (run_write some)).ends hears with ⟨⟨⟩, written, wrote, kept⟩
  rcases hears_takeOutbound.ends kept with ⟨outbound, taken, took, kept⟩
  rcases (hears_sendControlChunks outbound).ends kept with ⟨⟨⟩, sent, sending, kept⟩
  exact ⟨sent, ⟨payload, written, outbound, taken, built, wrote, took, sending⟩,
    hears_seesKeys chunks [] kept⟩

private theorem agree_of_some {left right : Outcome Error (Randoms × Outcome Error Bytes)}
    (same : (do let (randoms, reply) ← left; return (some randoms, reply) :
        Outcome Error (Option Randoms × Outcome Error Bytes)) =
      do let (randoms, reply) ← right; return (some randoms, reply)) : left = right := by
  rcases left with ⟨randoms, reply⟩ | failure | - | - <;>
    rcases right with ⟨randoms', reply'⟩ | failure' | - | - <;> cases same <;> rfl

/-- Two ways of cutting the server's plaintext lead to the same outcome, whatever
the TLS sessions, exactly if no message stands behind the key material. -/
theorem negotiate_agree_iff (profile : Profile) (secrets : ClientSecrets) (stream : Bytes) :
    (∀ {σ τ : Type} (engine : Engine σ) (engine' : Engine τ) (self : Session σ)
        (self' : Session τ) (chunks chunks' : List Bytes),
      Sees engine profile secrets self chunks → Sees engine' profile secrets self' chunks' →
      chunks.flatten = stream → chunks'.flatten = stream →
      negotiate engine profile secrets self = negotiate engine' profile secrets self') ↔
      Separate stream := by
  rw [← negotiateChunks_agree_iff]
  constructor
  · intro agree chunks chunks' same same'
    have equal := agree plainEngine plainEngine (plainSession chunks) (plainSession chunks')
      chunks chunks' (sees_plainSession ..) (sees_plainSession ..) same same'
    rw [negotiate_eq (sees_plainSession profile secrets chunks),
      negotiate_eq (sees_plainSession profile secrets chunks')] at equal
    exact agree_of_some equal
  · intro agree σ τ engine engine' self self' chunks chunks' sees sees' same same'
    rw [negotiate_eq sees, negotiate_eq sees', agree chunks chunks' same same']

/-- The server's key material, and right behind it that it refuses the client. -/
def refused : Bytes :=
  u32ToBe 0 ++ [2] ++ List.replicate 32 7 ++ List.replicate 32 9 ++ authFailed ++ [0]

def drawn : ClientSecrets where
  preMaster := Vector.replicate 48 1
  random1 := Vector.replicate 32 2
  random2 := Vector.replicate 32 3

/-- In one chunk the refusal is lost, in two it is found. -/
theorem not_negotiate_agree_refused :
    ¬ ∀ {σ τ : Type} (engine : Engine σ) (engine' : Engine τ) (self : Session σ)
        (self' : Session τ) (chunks chunks' : List Bytes),
      Sees engine ⟨.aes256Gcm, .sha1⟩ drawn self chunks →
      Sees engine' ⟨.aes256Gcm, .sha1⟩ drawn self' chunks' →
      chunks.flatten = refused → chunks'.flatten = refused →
      negotiate engine ⟨.aes256Gcm, .sha1⟩ drawn self =
        negotiate engine' ⟨.aes256Gcm, .sha1⟩ drawn self' := by
  intro agree
  let parts := [refused.take keyMessageLen, refused.drop keyMessageLen]
  have equal := agree plainEngine plainEngine (plainSession [refused]) (plainSession parts)
    [refused] parts (sees_plainSession ..) (sees_plainSession ..) (by simp) (by simp [parts])
  rw [negotiate_eq (sees_plainSession _ _ [refused]),
    negotiate_eq (sees_plainSession _ _ parts)] at equal
  have whole : negotiateChunks [] [refused] =
      .ok ((Vector.replicate 32 7, Vector.replicate 32 9), .pending) := by decide +kernel
  have split : negotiateChunks [] parts =
      .ok ((Vector.replicate 32 7, Vector.replicate 32 9), .error .auth) := by decide +kernel
  rw [whole, split] at equal
  exact absurd (agree_of_some equal) (by decide)

end Session

end Unroxy.OpenVpn
