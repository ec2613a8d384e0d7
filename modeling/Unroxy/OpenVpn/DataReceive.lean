import Unroxy.OpenVpn.DataSend

/-!
Owns what `recv_data` delivers.

Delivery depends on two things only, the data packets that decrypt and the
replay window; `handleControl_returns` is the frame lemma that says so of the
control packets in between. `Progress` is the invariant of the loop: the window
and the deliveries are those of the arrivals consumed so far.

Does not own what the control packets do to the TLS session.
-/

namespace Unroxy.OpenVpn

open Unroxy.Lib

/-! ### Decryption comes back -/

namespace DataCipher

variable (crypto : Crypto) (self : DataCipher)

private theorem aead_returned : self.aead.Returned := by
  unfold aead
  split
  · split <;> trivial
  · split <;> trivial
  · trivial

private theorem cbc_returned (iv : Bytes) : (self.cbc iv).Returned := by
  unfold DataCipher.cbc
  split
  · split <;> trivial
  · split <;> trivial

/-- No slice of `decrypt` is out of range on the header of a data packet. -/
theorem decrypt_returned {header : Bytes} (headed : 4 ≤ header.length) (body : Bytes) :
    (self.decrypt crypto header body).Returned := by
  unfold decrypt
  split
  case isTrue =>
    unfold decryptAead
    split
    case isTrue => trivial
    case isFalse long =>
      rw [if_neg (by omega), sliceFrom_of_le (by omega)]
      obtain ⟨packetId, word⟩ := u32FromBe_isSome
        (show (header.drop (header.length - 4)).length = 4 by rw [List.length_drop]; omega)
      simp only [Outcome.ofChecked_ok, Outcome.ok_bind, word, tagLast]
      rw [sliceFrom_of_le (by omega), slice_of_le (by omega) (by omega)]
      refine Outcome.Returned.bind trivial fun _ _ => ?_
      apply Outcome.Returned.bind (aead_returned self)
      intro _ _
      exact Outcome.Returned.bind (Outcome.ofOption_returned _ _) fun _ _ => trivial
  case isFalse cbc =>
    rw [Bool.not_eq_true] at cbc
    unfold decryptCbc
    dsimp only
    split
    case isTrue => trivial
    case isFalse long =>
      rw [slice_of_le (Nat.zero_le _) (by omega), sliceFrom_of_le (by omega)]
      simp only [Outcome.ofChecked_ok, Outcome.ok_bind]
      rw [slice_of_le (Nat.zero_le _) (by rw [List.length_drop]; omega),
        sliceFrom_of_le (by rw [List.length_drop]; omega),
        slice_of_le (Nat.zero_le _) (self.mac_length cbc)]
      simp only [Outcome.ofChecked_ok, Outcome.ok_bind]
      split
      case isTrue => trivial
      case isFalse =>
        apply Outcome.Returned.bind (cbc_returned self _)
        intro _ _
        apply Outcome.Returned.bind (Outcome.ofOption_returned _ _)
        intro plaintext _
        split
        case isTrue => trivial
        case isFalse enough =>
          obtain ⟨packetId, word⟩ := u32FromBe_isSome
            (show ((plaintext.drop 0).take (4 - 0)).length = 4 by
              rw [List.length_take, List.drop_zero]; omega)
          rw [slice_of_le (Nat.zero_le _) (by omega), sliceFrom_of_le (by omega)]
          simp only [Outcome.ofChecked_ok, Outcome.ok_bind, word]
          trivial

end DataCipher

namespace Session

variable {σ : Type} {crypto : Crypto} {engine : Engine σ}

/-! ### The control packets in between -/

/-- What `recv_data` reads of the state. -/
def Frame (keys : Keys) (replay : ReplayWindow) (arrivals : List Arrival) (self : Session σ) :
    Prop :=
  self.control.keys = some keys ∧ self.control.replay = replay ∧ self.arrivals = arrivals

section Frame

variable {keys : Keys} {replay : ReplayWindow} {arrivals : List Arrival}

private theorem update_returns {change : Control σ → Control σ}
    (sameKeys : ∀ control, (change control).keys = control.keys)
    (sameReplay : ∀ control, (change control).replay = control.replay) :
    Task.Returns (Frame keys replay arrivals) (update change) :=
  Task.Returns.modify fun _ held =>
    ⟨(sameKeys _).trans held.1, (sameReplay _).trans held.2.1, held.2.2⟩

private theorem feed_returns {invariant : Session σ → Prop} (payload : Bytes)
    (kept : ∀ self after, invariant self →
      invariant { self with control := { self.control with tls := after } }) :
    Task.Returns invariant (tls (TlsState.feed engine payload)) := by
  refine Task.Returns.zoom (Task.Returns.bind (Task.Returns.gets _) fun state => ?_) kept
  split
  · exact Task.Returns.modify fun _ _ => trivial
  · exact Task.Returns.bind (Task.Returns.modify fun _ _ => trivial)
      fun _ => Task.Returns.modify fun _ _ => trivial
  · exact Task.Returns.throw _

private theorem drive_returns :
    Task.Returns (Frame keys replay arrivals) (tls (TlsState.drive engine)) := by
  refine Task.Returns.zoom (Task.Returns.bind (Task.Returns.gets _) fun state => ?_)
    fun _ _ held => held
  split
  · exact Task.Returns.modify fun _ _ => trivial
  · dsimp only
    split
    · exact Task.Returns.bind (Task.Returns.modify fun _ _ => trivial)
        fun _ => Task.Returns.modify fun _ _ => trivial
    · exact Task.Returns.modify fun _ _ => trivial
    · exact Task.Returns.bind (Task.Returns.modify fun _ _ => trivial)
        fun _ => Task.Returns.throw _
    · exact Task.Returns.bind (Task.Returns.modify fun _ _ => trivial)
        fun _ => Task.Returns.throw _

private theorem sendRaw_returns (datagram : Bytes) :
    Task.Returns (Frame keys replay arrivals) (sendRaw datagram : Act σ Unit) := by
  apply Task.Returns.bind (Task.Returns.gets _)
  intro self
  refine Task.Returns.bind (Task.Returns.modify fun _ held => held) fun _ => ?_
  split
  · exact Task.Returns.bind (Task.Returns.modify fun _ held => held) fun _ => Task.Returns.throw _
  · exact Task.Returns.modify fun _ held => held

theorem sendAck_returns (packetId : UInt32) :
    Task.Returns (Frame keys replay arrivals) (sendAck packetId : Act σ Unit) := by
  refine Task.Returns.bind (update_returns (fun control => ?_) fun control => ?_) fun _ =>
    Task.Returns.bind (Task.Returns.gets _) fun self => sendRaw_returns _
  · unfold recordAck
    split <;> rfl
  · unfold recordAck
    split <;> rfl

private theorem sendControl_returns (payload : Bytes) :
    Task.Returns (Frame keys replay arrivals) (sendControl payload : Act σ Unit) := by
  apply Task.Returns.bind (Task.Returns.gets _)
  intro self
  exact Task.Returns.bind (update_returns (fun _ => rfl) fun _ => rfl) fun _ => sendRaw_returns _

private theorem sendControlChunks_returns (data : Bytes) :
    Task.Returns (Frame keys replay arrivals) (sendControlChunks data : Act σ Unit) := by
  refine Task.Triple.loop (fun _ => Frame keys replay arrivals)
    (fun offset _ => data.length - offset) (fun _ _ => Nat.sub_le _ _) fun offset bound => ?_
  split
  case isTrue more =>
    have shorter : data.length - min (offset + maxControlPayload) data.length <
        data.length - offset := by
      unfold maxControlPayload
      omega
    intro self held
    refine Task.Triple.bind (sendControl_returns _) (fun _ => ?_) self held.1
    exact fun reached kept => ⟨kept, held.2 ▸ shorter⟩
  case isFalse => exact fun self held => held.1

private theorem flushTls_returns :
    Task.Returns (Frame keys replay arrivals) (flushTls : Act σ Unit) := by
  refine Task.Returns.bind (Task.Returns.bind (Task.Returns.gets _) fun self => ?_) fun bytes => ?_
  · refine Task.Returns.bind (update_returns (fun _ => rfl) fun _ => rfl) fun _ => ?_
    exact Task.Returns.bind (Task.Returns.modify fun _ held => held) fun _ => Task.Returns.pure _
  · split
    · exact Task.Returns.pure _
    · exact sendControlChunks_returns bytes

/-- Every turn takes one packet out of the reorder buffer. -/
private theorem drainReorder_returns :
    Task.Returns (Frame keys replay arrivals) (drainReorder engine) := by
  refine Task.Triple.loop (fun _ => Frame keys replay arrivals)
    (fun _ self => self.control.reorder.size) (fun _ _ => le_rfl) fun _ bound => ?_
  have got : Task.Triple (fun self : Session σ => Frame keys replay arrivals self ∧
        self.control.reorder.size = bound) (Task.gets Session.control : Act σ (Control σ))
      (fun control self => (Frame keys replay arrivals self ∧ self.control = control) ∧
        control.reorder.size = bound)
      (fun stop self => (∃ failure, stop = .error failure) ∧ Frame keys replay arrivals self) :=
    fun self held => ⟨⟨held.1, rfl⟩, held.2⟩
  apply Task.Triple.bind got
  intro control
  split
  case h_1 => exact fun self held => held.1.1
  case h_2 payload found =>
    let Smaller (self : Session σ) : Prop :=
      Frame keys replay arrivals self ∧ self.control.reorder.size < bound
    have present : control.recvNext ∈ control.reorder := by
      rw [Std.TreeMap.mem_iff_isSome_getElem?, found]
      rfl
    have erased : Task.Triple (fun self : Session σ => (Frame keys replay arrivals self ∧
          self.control = control) ∧ control.reorder.size = bound)
        (update fun control' => { control' with
          reorder := control'.reorder.erase control.recvNext })
        (fun _ => Smaller)
        (fun stop self => (∃ failure, stop = .error failure) ∧ Frame keys replay arrivals self) := by
      rintro self ⟨⟨held, rfl⟩, size⟩
      refine ⟨held, ?_⟩
      change (self.control.reorder.erase self.control.recvNext).size < bound
      have nonempty := Std.TreeMap.isEmpty_eq_false_of_contains present
      rw [Std.TreeMap.isEmpty_eq_size_eq_zero, beq_eq_false_iff_ne] at nonempty
      rw [Std.TreeMap.size_erase, if_pos (Std.TreeMap.contains_iff_mem.mpr present)]
      omega
    have stopped (stop : Task.Stop Error) (self : Session σ)
        (held : (∃ failure, stop = .error failure) ∧ Smaller self) :
        (∃ failure, stop = .error failure) ∧ Frame keys replay arrivals self :=
      ⟨held.1, held.2.1⟩
    have fed : Task.Returns Smaller (tls (TlsState.feed engine payload)) :=
      feed_returns payload fun _ _ held => held
    have counted : Task.Returns Smaller (update fun control : Control σ =>
        { control with recvNext := control.recvNext + 1 }) :=
      Task.Returns.modify fun _ held => held
    apply Task.Triple.bind erased
    intro _
    refine Task.Triple.bind (fed.weaken (fun _ held => held) (fun _ _ held => held) stopped)
      fun _ => ?_
    refine Task.Triple.bind (counted.weaken (fun _ held => held) (fun _ _ held => held) stopped)
      fun _ => ?_
    exact fun self held => held

theorem acceptControl_returns (packetId : UInt32) (payload : Bytes) :
    Task.Returns (Frame keys replay arrivals) (acceptControl engine packetId payload) := by
  apply Task.Returns.bind (Task.Returns.gets _)
  intro self
  split
  · exact Task.Returns.pure _
  · split
    · split
      · exact update_returns (fun _ => rfl) fun _ => rfl
      · exact Task.Returns.pure _
    · apply Task.Returns.bind (feed_returns payload fun _ _ held => held)
      intro _
      exact Task.Returns.bind (update_returns (fun _ => rfl) fun _ => rfl)
        fun _ => drainReorder_returns

/-- A control packet comes back and touches nothing `recv_data` reads. -/
theorem handleControl_returns (packet : Packet) :
    Task.Returns (Frame keys replay arrivals) (handleControl engine packet) := by
  apply Task.Returns.bind (sendAck_returns _)
  intro _
  apply Task.Returns.bind (acceptControl_returns _ _)
  intro _
  exact Task.Returns.bind drive_returns fun _ => flushTls_returns

end Frame

/-! ### What should be delivered -/

/-- The data packet an arrival carries. -/
def dataPacket : Arrival → Option Packet
  | .datagram raw _ =>
      match Packet.parse raw with
      | .ok (some packet) => if IsData packet.opcode then some packet else none
      | _ => none
  | _ => none

/-- Counter and plaintext of a data packet that `decrypt` accepts. -/
def opened (crypto : Crypto) (cipher : DataCipher) (arrival : Arrival) : Option (UInt32 × Bytes) :=
  match dataPacket arrival with
  | none => none
  | some packet =>
      match cipher.decrypt crypto packet.header packet.payload with
      | .ok result => some result
      | _ => none

/-- A data packet that `decrypt` rejects. -/
def Rejected (crypto : Crypto) (cipher : DataCipher) (arrival : Arrival) : Prop :=
  (dataPacket arrival).isSome ∧ opened crypto cipher arrival = none

instance (crypto : Crypto) (cipher : DataCipher) :
    DecidablePred (Rejected crypto cipher) := fun arrival => by
  unfold Rejected
  infer_instance

/-- The packets whose counter is fresh when its turn comes. -/
def freshOnly : ReplayWindow → List (UInt32 × Bytes) → List (UInt32 × Bytes)
  | _, [] => []
  | window, packet :: rest =>
      (if (window.accept packet.1).1 then [packet] else []) ++
        freshOnly (window.accept packet.1).2 rest

theorem freshOnly_append (window : ReplayWindow) (packets later : List (UInt32 × Bytes)) :
    freshOnly window (packets ++ later) =
      freshOnly window packets ++ freshOnly (window.acceptAll (packets.map Prod.fst)) later := by
  induction packets generalizing window with
  | nil => rfl
  | cons packet rest inductionHypothesis =>
      rw [List.cons_append, freshOnly, freshOnly, inductionHypothesis, List.append_assoc]
      rfl

theorem freshOnly_counters (window : ReplayWindow) (packets : List (UInt32 × Bytes)) :
    (freshOnly window packets).map Prod.fst =
      (window.acceptedIds (packets.map Prod.fst)).reverse := by
  induction packets generalizing window with
  | nil => rfl
  | cons packet rest inductionHypothesis =>
      rw [freshOnly, List.map_append, inductionHypothesis, List.map_cons,
        ReplayWindow.acceptedIds, List.reverse_append]
      congr 1
      split <;> rfl

/-! ### One call -/

/-- The arrivals consumed since `origin`, with the window and the deliveries they
lead to. -/
def Progress (crypto : Crypto) (keys : Keys) (origin : Session σ) (delivered : List Bytes)
    (self : Session σ) : Prop :=
  ∃ consumed, origin.arrivals = consumed ++ self.arrivals ∧ self.control.keys = some keys ∧
    self.control.replay = origin.control.replay.acceptAll
      ((consumed.filterMap (opened crypto keys.decrypt)).map Prod.fst) ∧
    (freshOnly origin.control.replay (consumed.filterMap (opened crypto keys.decrypt))).map
      Prod.snd = delivered

/-- An arrival that is no data packet `decrypt` accepts changes nothing. -/
private theorem Progress.skip {keys : Keys} {origin before after : Session σ}
    {delivered : List Bytes} {arrival : Arrival} {rest : List Arrival}
    (progress : Progress crypto keys origin delivered before)
    (next : before.arrivals = arrival :: rest)
    (frame : Frame keys before.control.replay rest after)
    (nothing : opened crypto keys.decrypt arrival = none) :
    Progress crypto keys origin delivered after := by
  rcases progress with ⟨consumed, arrivals, -, replay, deliveries⟩
  refine ⟨consumed ++ [arrival], ?_, frame.1, ?_, ?_⟩
  · rw [arrivals, next, frame.2.2, List.append_assoc, List.singleton_append]
  · rw [frame.2.1, replay]
    simp [nothing]
  · rw [← deliveries]
    simp [nothing]

/-- A data packet `decrypt` accepts moves the window and is delivered if it is
fresh. -/
private theorem Progress.open {keys : Keys} {origin before after : Session σ}
    {delivered : List Bytes} {arrival : Arrival} {rest : List Arrival} {counter : UInt32}
    {plaintext : Bytes}
    (progress : Progress crypto keys origin delivered before)
    (next : before.arrivals = arrival :: rest)
    (frame : Frame keys (before.control.replay.accept counter).2 rest after)
    (accepted : opened crypto keys.decrypt arrival = some (counter, plaintext)) :
    Progress crypto keys origin
      (delivered ++ if (before.control.replay.accept counter).1 then [plaintext] else []) after := by
  rcases progress with ⟨consumed, arrivals, -, replay, deliveries⟩
  refine ⟨consumed ++ [arrival], ?_, frame.1, ?_, ?_⟩
  · rw [arrivals, next, frame.2.2, List.append_assoc, List.singleton_append]
  · rw [frame.2.1, replay]
    simp [accepted, ReplayWindow.acceptAll]
  · rw [← deliveries, List.filterMap_append, freshOnly_append, List.map_append, ← replay]
    congr 1
    simp only [List.filterMap_cons, accepted, List.filterMap_nil, freshOnly, List.append_nil]
    split <;> rfl

/-- What a turn or a call that stops without a value leaves behind. -/
def Stopped (crypto : Crypto) (keys : Keys) (origin : Session σ) (stop : Task.Stop Error)
    (self : Session σ) : Prop :=
  Progress crypto keys origin [] self ∧
    match stop with
    | .error _ => self.arrivals.length < origin.arrivals.length
    | .panic => False
    | .pending => self.arrivals = []

private theorem Progress.length_le {keys : Keys} {origin self : Session σ} {delivered : List Bytes}
    (progress : Progress crypto keys origin delivered self) :
    self.arrivals.length ≤ origin.arrivals.length := by
  rcases progress with ⟨consumed, arrivals, -⟩
  rw [arrivals, List.length_append]
  exact Nat.le_add_left _ _

private theorem Progress.shorter {keys : Keys} {origin before : Session σ}
    {delivered : List Bytes} {arrival : Arrival} {rest : List Arrival}
    (progress : Progress crypto keys origin delivered before)
    (next : before.arrivals = arrival :: rest) : rest.length < origin.arrivals.length := by
  have bound := progress.length_le
  rw [next, List.length_cons] at bound
  exact bound

/-- What a turn that ends with a value leaves behind. -/
def Turned (crypto : Crypto) (keys : Keys) (origin : Session σ) (rest : List Arrival)
    (result : Unit ⊕ Option Bytes) (self : Session σ) : Prop :=
  self.arrivals = rest ∧ match result with
    | .inl () => Progress crypto keys origin [] self
    | .inr value => Progress crypto keys origin value.toList self

/-- A fresh data packet is returned, a replayed one is not; one that does not
decrypt is an error and changes nothing. -/
private theorem acceptData_spec {keys : Keys} {replay : ReplayWindow} {rest : List Arrival}
    {packet : Packet} (headed : 4 ≤ packet.header.length) :
    Task.Triple (Frame keys replay rest) (acceptData crypto keys packet : Act σ (Option Bytes))
      (fun value self => ∃ counter plaintext,
        keys.decrypt.decrypt crypto packet.header packet.payload = .ok (counter, plaintext) ∧
          Frame keys (replay.accept counter).2 rest self ∧
          value = if (replay.accept counter).1 then some plaintext else none)
      (fun stop self => (∃ failure, stop = .error failure ∧
        keys.decrypt.decrypt crypto packet.header packet.payload = .error failure) ∧
          Frame keys replay rest self) := by
  rintro self ⟨present, rfl, rfl⟩
  have returned := keys.decrypt.decrypt_returned crypto headed packet.payload
  simp only [acceptData, update, Task.run_bind, Task.run_lift, Task.run_gets, Task.run_modify,
    Task.run_pure]
  cases decrypted : keys.decrypt.decrypt crypto packet.header packet.payload with
  | ok result => exact ⟨result.1, result.2, rfl, ⟨present, rfl, rfl⟩, rfl⟩
  | error failure => exact ⟨⟨failure, rfl, rfl⟩, present, rfl, rfl⟩
  | panic =>
      rw [decrypted] at returned
      exact returned.elim
  | pending =>
      rw [decrypted] at returned
      exact returned.elim

section Turn

variable {keys : Keys} {origin before : Session σ} {raw : Bytes} {overdue : Bool}
  {rest : List Arrival} {packet : Packet}

/-- A control or reset packet, and then the next turn. -/
private theorem passOver_spec {task : Act σ Unit}
    (returns : Task.Returns (Frame keys before.control.replay rest) task)
    (progress : Progress crypto keys origin [] before)
    (next : before.arrivals = .datagram raw overdue :: rest)
    (nothing : opened crypto keys.decrypt (.datagram raw overdue) = none) :
    Task.Triple (Frame keys before.control.replay rest) (do task; return .inl () : Act σ _)
      (Turned crypto keys origin rest) (Stopped crypto keys origin) := by
  have shorter := progress.shorter next
  have stopped (stop : Task.Stop Error) (self : Session σ)
      (held : (∃ failure, stop = .error failure) ∧ Frame keys before.control.replay rest self) :
      Stopped crypto keys origin stop self := by
    rcases held with ⟨⟨failure, rfl⟩, frame⟩
    exact ⟨progress.skip next frame nothing, by rw [frame.2.2]; exact shorter⟩
  refine Task.Triple.bind (returns.weaken (fun _ held => held) (fun _ _ held => held) stopped)
    fun _ => ?_
  exact fun self frame => ⟨frame.2.2, progress.skip next frame nothing⟩

private theorem handlePacket_spec (progress : Progress crypto keys origin [] before)
    (next : before.arrivals = .datagram raw overdue :: rest)
    (parsed : Packet.parse raw = .ok (some packet)) :
    Task.Triple (Frame keys before.control.replay rest) (handlePacket crypto engine packet)
      (Turned crypto keys origin rest) (Stopped crypto keys origin) := by
  have shorter := progress.shorter next
  have carried : dataPacket (.datagram raw overdue) =
      if IsData packet.opcode then some packet else none := by
    simp only [dataPacket, parsed]
  unfold handlePacket
  split
  case isTrue data =>
    rw [if_pos data] at carried
    have got : Task.Triple (Frame keys before.control.replay rest)
        (Task.gets Session.control : Act σ (Control σ))
        (fun control self => Frame keys before.control.replay rest self ∧
          control.keys = some keys) (Stopped crypto keys origin) :=
      fun self frame => ⟨frame, frame.1⟩
    apply Task.Triple.bind got
    intro control
    rintro self ⟨frame, present⟩
    rw [present]
    have headed := Packet.parse_data_header parsed data
    have stopped (stop : Task.Stop Error) (self : Session σ)
        (held : (∃ failure, stop = .error failure ∧
          keys.decrypt.decrypt crypto packet.header packet.payload = .error failure) ∧
            Frame keys before.control.replay rest self) : Stopped crypto keys origin stop self := by
      rcases held with ⟨⟨failure, rfl, rejected⟩, frame⟩
      refine ⟨progress.skip next frame ?_, by rw [frame.2.2]; exact shorter⟩
      simp only [opened, carried, rejected]
    refine Task.Triple.bind ((acceptData_spec headed).weaken (fun _ held => held)
      (fun _ _ held => held) stopped) (fun value => ?_) self frame
    rintro after ⟨counter, plaintext, decrypted, frame, rfl⟩
    have accepted : opened crypto keys.decrypt (.datagram raw overdue) =
        some (counter, plaintext) := by
      simp only [opened, carried, decrypted]
    have delivered := progress.open next frame accepted
    cases fresh : (before.control.replay.accept counter).1 with
    | true =>
        rw [fresh] at delivered
        exact ⟨frame.2.2, delivered⟩
    | false =>
        rw [fresh] at delivered
        exact ⟨frame.2.2, delivered⟩
  case isFalse notData =>
    have nothing : opened crypto keys.decrypt (.datagram raw overdue) = none := by
      simp only [opened, carried, if_neg notData]
    split
    · exact passOver_spec (handleControl_returns packet) progress next nothing
    · split
      · exact passOver_spec (sendAck_returns packet.packetId) progress next nothing
      · exact passOver_spec (Task.Returns.pure ()) progress next nothing

end Turn

/-- Every datagram still to come is one on which `Packet::parse` returns. -/
def Parses (self : Session σ) : Prop :=
  ∀ raw overdue, .datagram raw overdue ∈ self.arrivals → ∃ parsed, Packet.parse raw = .ok parsed

/-- One call consumes arrivals, at least one if there is any, and delivers what
they carry. -/
theorem recvData_spec (crypto : Crypto) (engine : Engine σ) {keys : Keys} {origin : Session σ}
    (parses : Parses origin) :
    Task.Triple (Progress crypto keys origin []) (recvData crypto engine)
      (fun value self => Progress crypto keys origin value.toList self ∧
        self.arrivals.length < origin.arrivals.length)
      (Stopped crypto keys origin) := by
  refine Task.Triple.loop (fun _ => Progress crypto keys origin [])
    (fun _ self => self.arrivals.length) (fun _ _ => le_rfl) fun _ bound => ?_
  rintro before ⟨progress, rfl⟩
  rcases arrivals : before.arrivals with _ | ⟨arrival, rest⟩
  · simp only [deadlinePassed, recvPacket, Task.run_bind, Task.run_gets, id, arrivals,
      Task.run_pure, Bool.false_eq_true, if_false]
    exact ⟨progress, arrivals⟩
  · have shorter := progress.shorter arrivals
    have present : before.control.keys = some keys := progress.choose_spec.2.1
    cases arrival with
    | expired =>
        simp only [deadlinePassed, Task.run_bind, Task.run_gets, Task.run_modify, id, arrivals,
          Task.run_pure, if_true]
        exact ⟨progress.skip arrivals ⟨present, rfl, rfl⟩ rfl, shorter⟩
    | failed =>
        simp only [deadlinePassed, recvPacket, Task.run_bind, Task.run_gets, Task.run_modify, id,
          arrivals, Task.run_pure, Bool.false_eq_true, if_false]
        exact ⟨progress.skip arrivals ⟨present, rfl, rfl⟩ rfl, shorter⟩
    | silent overdue =>
        simp only [deadlinePassed, recvPacket, Task.run_bind, Task.run_gets, Task.run_modify, id,
          arrivals, Task.run_pure, Bool.false_eq_true, if_false]
        exact ⟨progress.skip arrivals ⟨present, rfl, rfl⟩ rfl, shorter⟩
    | datagram raw overdue =>
        have member : .datagram raw overdue ∈ origin.arrivals := by
          rcases progress with ⟨consumed, split, -⟩
          rw [split, arrivals]
          simp
        rcases parses raw overdue member with ⟨parsed, ran⟩
        simp only [deadlinePassed, recvPacket, Task.run_bind, Task.run_gets, Task.run_modify, id,
          arrivals, Task.run_pure, Bool.false_eq_true, if_false, ran, Task.run_lift,
          Outcome.ofChecked_ok]
        cases parsed with
        | none =>
            have nothing : opened crypto keys.decrypt (.datagram raw overdue) = none := by
              simp only [opened, dataPacket, ran]
            exact ⟨progress.skip arrivals ⟨present, rfl, rfl⟩ nothing, shorter⟩
        | some packet =>
            have turned : Task.Triple _ (handlePacket crypto engine packet) _ _ :=
              handlePacket_spec progress arrivals ran
            refine turned.weaken (fun _ held => held) (fun result self held => ?_)
              (fun _ _ held => held) _ ⟨present, rfl, rfl⟩
            cases result with
            | inl _ => exact ⟨held.2, by rw [held.1, List.length_cons]; omega⟩
            | inr value => exact ⟨held.2, by rw [held.1]; exact shorter⟩

/-! ### Successive calls -/

/-- The results of this many calls of `recv_data`, one after the other. -/
def recvCalls (crypto : Crypto) (engine : Engine σ) :
    Nat → Session σ → List (Outcome Error (Option Bytes)) × Session σ
  | 0, self => ([], self)
  | calls + 1, self =>
      let (outcome, after) := recvData crypto engine self
      let (outcomes, final) := recvCalls crypto engine calls after
      (outcome :: outcomes, final)

/-- The plaintext a call returned, if it did. -/
def plaintextOf : Outcome Error (Option Bytes) → Option Bytes
  | .ok (some plaintext) => some plaintext
  | _ => none

private theorem Progress.refl {keys : Keys} {self : Session σ}
    (present : self.control.keys = some keys) : Progress crypto keys self [] self :=
  ⟨[], rfl, present, rfl, rfl⟩

private theorem Progress.trans {keys : Keys} {origin between final : Session σ}
    {delivered later : List Bytes} (first : Progress crypto keys origin delivered between)
    (second : Progress crypto keys between later final) :
    Progress crypto keys origin (delivered ++ later) final := by
  rcases first with ⟨consumed, arrivals, -, replay, deliveries⟩
  rcases second with ⟨consumed', arrivals', present, replay', deliveries'⟩
  refine ⟨consumed ++ consumed', ?_, present, ?_, ?_⟩
  · rw [arrivals, arrivals', List.append_assoc]
  · rw [replay', replay, List.filterMap_append, List.map_append, ReplayWindow.acceptAll,
      ReplayWindow.acceptAll, ReplayWindow.acceptAll, List.foldl_append]
  · rw [List.filterMap_append, freshOnly_append, List.map_append, deliveries, ← replay,
      deliveries']

private theorem Progress.parses {keys : Keys} {origin self : Session σ} {delivered : List Bytes}
    (progress : Progress crypto keys origin delivered self) (parses : Parses origin) :
    Parses self := by
  rcases progress with ⟨consumed, arrivals, -⟩
  intro raw overdue member
  apply parses raw overdue
  rw [arrivals]
  exact List.mem_append_right _ member

/-- What one call does, by its result. -/
private theorem recvData_call (crypto : Crypto) (engine : Engine σ) {keys : Keys}
    {self : Session σ}
    (present : self.control.keys = some keys) (parses : Parses self) :
    Progress crypto keys self (plaintextOf (recvData crypto engine self).1).toList
        (recvData crypto engine self).2 ∧
      (recvData crypto engine self).1 ≠ .panic ∧
      ((recvData crypto engine self).2.arrivals.length < self.arrivals.length ∨
        (recvData crypto engine self).2.arrivals = []) := by
  have call := recvData_spec crypto engine parses self (Progress.refl present)
  rcases run : recvData crypto engine self with ⟨outcome, after⟩
  rw [run] at call
  cases outcome with
  | ok value =>
      refine ⟨?_, nofun, .inl call.2⟩
      cases value with
      | none => exact call.1
      | some plaintext => exact call.1
  | error failure => exact ⟨call.1, nofun, .inl call.2⟩
  | panic => exact call.2.elim
  | pending => exact ⟨call.1, nofun, .inr call.2⟩

theorem recvCalls_progress (crypto : Crypto) (engine : Engine σ) {keys : Keys} (calls : Nat) :
    ∀ {self : Session σ}, self.control.keys = some keys → Parses self →
      Progress crypto keys self ((recvCalls crypto engine calls self).1.filterMap plaintextOf)
          (recvCalls crypto engine calls self).2 ∧
        (∀ outcome ∈ (recvCalls crypto engine calls self).1, outcome ≠ .panic) ∧
        (self.arrivals.length ≤ calls → (recvCalls crypto engine calls self).2.arrivals = []) := by
  induction calls with
  | zero =>
      intro self present parses
      exact ⟨Progress.refl present, nofun,
        fun none => List.eq_nil_of_length_eq_zero (Nat.le_zero.mp none)⟩
  | succ calls inductionHypothesis =>
      intro self present parses
      rcases recvData_call crypto engine present parses with ⟨progress, noPanic, fewer⟩
      obtain ⟨later, noPanics, consumed⟩ :=
        inductionHypothesis progress.choose_spec.2.1 (progress.parses parses)
      refine ⟨?_, ?_, fun enough => consumed ?_⟩
      · have both := progress.trans later
        rw [recvCalls, List.filterMap_cons]
        cases delivered : plaintextOf (recvData crypto engine self).1 with
        | none =>
            rw [delivered] at both
            exact both
        | some plaintext =>
            rw [delivered] at both
            exact both
      · intro outcome member
        rcases List.mem_cons.mp member with rfl | inLater
        · exact noPanic
        · exact noPanics outcome inLater
      · rcases fewer with shorter | empty
        · omega
        · rw [empty]
          exact Nat.zero_le _

/-- Once everything has arrived, the deliveries and the window are those of all
arrivals. -/
private theorem recvCalls_all (crypto : Crypto) (engine : Engine σ) {self : Session σ} {keys : Keys}
    (present : self.control.keys = some keys) (parses : Parses self) {calls : Nat}
    (enough : self.arrivals.length ≤ calls) :
    (recvCalls crypto engine calls self).1.filterMap plaintextOf =
        (freshOnly self.control.replay
          (self.arrivals.filterMap (opened crypto keys.decrypt))).map Prod.snd ∧
      (recvCalls crypto engine calls self).2.control.replay = self.control.replay.acceptAll
        ((self.arrivals.filterMap (opened crypto keys.decrypt)).map Prod.fst) := by
  obtain ⟨⟨consumed, arrivals, -, replay, deliveries⟩, -, exhausted⟩ :=
    recvCalls_progress crypto engine calls present parses
  rw [exhausted enough, List.append_nil] at arrivals
  rw [arrivals]
  exact ⟨deliveries.symm, replay⟩

/-- The session whose peer does not send what `decrypt` rejects. -/
def withoutRejected (crypto : Crypto) (keys : Keys) (self : Session σ) : Session σ :=
  { self with
    arrivals := self.arrivals.filter fun arrival => ¬ Rejected crypto keys.decrypt arrival }

private theorem filterMap_withoutRejected (crypto : Crypto) (keys : Keys) (self : Session σ) :
    (withoutRejected crypto keys self).arrivals.filterMap (opened crypto keys.decrypt) =
      self.arrivals.filterMap (opened crypto keys.decrypt) := by
  rw [withoutRejected, List.filterMap_filter]
  apply List.filterMap_congr
  intro arrival _
  by_cases rejected : Rejected crypto keys.decrypt arrival
  · simp [rejected, rejected.2]
  · simp [rejected]

/-- The calls of `recv_data` return, in arrival order, the plaintexts of the
data packets that decrypt and are fresh, each counter once, and the packets that
do not decrypt make no difference. -/
theorem recvCalls_delivers (crypto : Crypto) (engine : Engine σ) {self : Session σ} {keys : Keys}
    (present : self.control.keys = some keys) (parses : Parses self) {earlier : List UInt32}
    (window : self.control.replay = ReplayWindow.new.acceptAll earlier) :
    (∀ calls, Progress crypto keys self
          ((recvCalls crypto engine calls self).1.filterMap plaintextOf)
          (recvCalls crypto engine calls self).2 ∧
        (∀ outcome ∈ (recvCalls crypto engine calls self).1, outcome ≠ .panic) ∧
        (self.arrivals.length ≤ calls → (recvCalls crypto engine calls self).2.arrivals = [])) ∧
      ((freshOnly self.control.replay (self.arrivals.filterMap
        (opened crypto keys.decrypt))).map Prod.fst ++
          ReplayWindow.new.acceptedIds earlier).Nodup ∧
      ∀ calls, self.arrivals.length ≤ calls →
        (recvCalls crypto engine calls (withoutRejected crypto keys self)).1.filterMap plaintextOf =
            (recvCalls crypto engine calls self).1.filterMap plaintextOf ∧
          (recvCalls crypto engine calls (withoutRejected crypto keys self)).2.control.replay =
            (recvCalls crypto engine calls self).2.control.replay := by
  refine ⟨fun calls => recvCalls_progress crypto engine calls present parses, ?_, ?_⟩
  · have distinct := ReplayWindow.acceptedIds_nodup
      (ReplayWindow.acceptAll_records ReplayWindow.new_records earlier)
      (ReplayWindow.acceptedIds_nodup ReplayWindow.new_records List.nodup_nil earlier)
      ((self.arrivals.filterMap (opened crypto keys.decrypt)).map Prod.fst)
    rw [List.append_nil] at distinct
    rw [freshOnly_counters, window]
    exact ((List.reverse_perm _).append_right _).nodup_iff.mpr distinct
  · intro calls enough
    have stillParses : Parses (withoutRejected crypto keys self) := fun raw overdue member =>
      parses raw overdue (List.mem_of_mem_filter member)
    have stillEnough : (withoutRejected crypto keys self).arrivals.length ≤ calls :=
      le_trans (List.length_filter_le _ _) enough
    have all := recvCalls_all crypto engine present parses enough
    have without := recvCalls_all crypto engine
      (show (withoutRejected crypto keys self).control.keys = some keys from present)
      stillParses stillEnough
    rw [filterMap_withoutRejected] at without
    exact ⟨without.1.trans all.1.symm, without.2.trans all.2.symm⟩

end Session

namespace TestVector

open Session

/-- The packet of `gcm_roundtrip_with_packet_id_in_aad`, twice, and then with
one bit of its tag flipped. -/
def received : List Arrival :=
  [.datagram (gcmHeader ++ gcmTag ++ gcmCiphertext) false,
    .datagram (gcmHeader ++ gcmTag ++ gcmCiphertext) false,
    .datagram (gcmHeader ++ [187] ++ gcmTag.tail ++ gcmCiphertext) false]

/-- A TLS session with nothing to say. -/
def idle : Engine Unit where
  handshake _ memory := (.wouldBlock, (), memory)
  read _ memory := ([], (), memory)
  write _ memory _ := (none, (), memory)

theorem parses_received : Parses (session gcmCipher received) := by
  intro raw overdue member
  simp only [session, received, List.mem_cons, Arrival.datagram.injEq, List.not_mem_nil,
    or_false] at member
  rcases member with ⟨rfl, -⟩ | ⟨rfl, -⟩ | ⟨rfl, -⟩ <;> exact ⟨_, rfl⟩

theorem recvCalls_delivers_gcm :
    (recvCalls crypto idle 3 (session gcmCipher received)).1.filterMap plaintextOf = [payload] ∧
      (recvCalls crypto idle 3 (withoutRejected crypto ⟨gcmCipher, gcmCipher⟩
          (session gcmCipher received))).1.filterMap plaintextOf =
        (recvCalls crypto idle 3 (session gcmCipher received)).1.filterMap plaintextOf := by
  have window : (session gcmCipher received).control.replay = ReplayWindow.new.acceptAll [] := rfl
  obtain ⟨-, -, deleted⟩ := recvCalls_delivers crypto idle
    (show (session gcmCipher received).control.keys = some ⟨gcmCipher, gcmCipher⟩ from rfl)
    parses_received window
  exact ⟨by decide, (deleted 3 (by decide)).1⟩

end TestVector

end Unroxy.OpenVpn
