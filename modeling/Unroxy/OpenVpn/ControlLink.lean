import Unroxy.OpenVpn.ControlCalls
import Unroxy.OpenVpn.TlsPipe

/-!
Owns the control channel between two ends, from the bytes one TLS session
writes to the bytes the other reads.

A `ControlLink` is two sessions, each over its own TLS library, and a run any
interleaving of their calls. The network keeps every datagram: a call may find
on its socket the datagrams the other end has sent so far, in any order, late,
repeatedly or not at all, and between them whatever is no control packet.

`Hears` is the invariant of the receiving side: TLS was fed the payloads in
front of the counter, and what waits for its turn is the other end's.

Does not own what a resend does to the numbers.
-/

namespace Unroxy.OpenVpn

open Unroxy.Lib

namespace TlsState

variable {σ : Type} {library : TlsLibrary σ}

/-- `Flow`, whatever the plaintext was. -/
def Flowing (fed taken : Bytes) (tls : TlsState (Recorded σ)) : Prop :=
  ∃ got wrote, Flow fed taken got wrote tls

variable {fed taken : Bytes}

private theorem Flowing.triple {α : Type} {task : Task (TlsState (Recorded σ)) Error α}
    {later : Bytes} (kept : ∀ got wrote, ∃ more, Task.Triple (Flow fed taken got wrote) task
      (fun _ => Flow later taken got more) fun _ => Flow fed taken got wrote) :
    Task.Triple (Flowing fed taken) task (fun _ => Flowing later taken)
      fun _ => Flowing fed taken := by
  rintro tls ⟨got, wrote, flow⟩
  obtain ⟨more, kept⟩ := kept got wrote
  have weak : Task.Triple (Flow fed taken got wrote) task (fun _ => Flowing later taken)
      fun _ => Flowing fed taken :=
    kept.weaken (fun _ held => held) (fun _ _ held => ⟨got, more, held⟩)
      fun _ _ held => ⟨got, wrote, held⟩
  exact weak tls flow

theorem flowing_feed (data : Bytes) : Task.Triple (Flowing fed taken) (feed library.engine data)
    (fun _ => Flowing (fed ++ data) taken) fun _ => Flowing fed taken :=
  Flowing.triple fun _ wrote => ⟨wrote, flow_feed data⟩

theorem flowing_drive : Task.Preserves (Flowing fed taken) (drive library.engine) :=
  Flowing.triple fun _ wrote => ⟨wrote, flow_drive⟩

theorem flowing_write (data : Bytes) :
    Task.Preserves (Flowing fed taken) (write library.engine data) :=
  Flowing.triple fun _ wrote => ⟨wrote ++ data, flow_write data⟩

end TlsState

open Session TlsState

/-- The control channel between two ends. -/
structure ControlLink (σ τ : Type) where
  near : Session (Recorded σ)
  far : Session (Recorded τ)

namespace ControlLink

/-! ### The receiving side -/

section Receiving

variable {σ : Type} {library : TlsLibrary σ} {payloads : List Bytes}

/-- The packet with these payloads, numbered from 1. -/
def Genuine (payloads : List Bytes) (packetId : UInt32) (payload : Bytes) : Prop :=
  ∃ position, packetId.toNat = position + 1 ∧ payloads[position]? = some payload

/-- TLS was fed the payloads in front of the counter and `ahead` more. -/
structure Hears (payloads : List Bytes) (ahead : Nat) (session : Session (Recorded σ)) : Prop where
  positive : 0 < session.control.recvNext.toNat
  within : session.control.recvNext.toNat - 1 + ahead ≤ payloads.length
  flow : Flowing (payloads.take (session.control.recvNext.toNat - 1 + ahead)).flatten
    (taken session.history) session.control.tls
  held : ∀ packetId payload, session.control.reorder[packetId]? = some payload →
    Genuine payloads packetId payload

/-- The control packets still to come are genuine. -/
def Awaits (payloads : List Bytes) (self : Session (Recorded σ)) : Prop :=
  ∀ raw overdue, .datagram raw overdue ∈ self.arrivals →
    ∀ packetId payload, controlPayload raw = some (packetId, payload) →
      Genuine payloads packetId payload

/-- More payloads leave those heard as they were. -/
theorem Hears.mono {more : List Bytes} {self : Session (Recorded σ)} (hears : Hears payloads 0 self)
    (longer : payloads <+: more) : Hears more 0 self := by
  obtain ⟨rest, rfl⟩ := longer
  have within := hears.within
  refine ⟨hears.positive, ?_, ?_, fun packetId payload found => ?_⟩
  · rw [List.length_append]
    omega
  · rw [List.take_append_of_le_length within]
    exact hears.flow
  · obtain ⟨position, same, there⟩ := hears.held packetId payload found
    obtain ⟨below, -⟩ := List.getElem?_eq_some_iff.mp there
    exact ⟨position, same, by rw [List.getElem?_append_left below, there]⟩

private theorem hears_tls {α : Type} {ahead : Nat} {task : Task (TlsState (Recorded σ)) Error α}
    (kept : ∀ fed taken, Task.Preserves (Flowing fed taken) task) :
    Task.Preserves (Hears payloads ahead) (tls task) := by
  intro self hears
  have whole : Task.Triple (fun state => state = self) (tls task)
      (fun _ => Hears payloads ahead) fun _ => Hears payloads ahead :=
    Task.Triple.zoom (kept (payloads.take (self.control.recvNext.toNat - 1 + ahead)).flatten
        (taken self.history)) (fun _ same => same ▸ hears.flow)
      (fun _ _ _ same flow => same ▸ ⟨hears.positive, hears.within, flow, hears.held⟩)
      fun _ _ _ same flow => same ▸ ⟨hears.positive, hears.within, flow, hears.held⟩
  exact whole self rfl

/-- The payload whose turn it is goes to TLS, or TLS is gone and takes nothing. -/
private theorem hears_feed (payload : Bytes) :
    Task.Triple
      (fun self => Hears payloads 0 self ∧ Genuine payloads self.control.recvNext payload)
      (tls (TlsState.feed library.engine payload)) (fun _ => Hears payloads 1)
      fun _ => Hears payloads 0 := by
  rintro self ⟨hears, position, same, found⟩
  have index : self.control.recvNext.toNat - 1 + 0 = position := by omega
  have next : self.control.recvNext.toNat - 1 + 1 = position + 1 := by omega
  obtain ⟨below, -⟩ := List.getElem?_eq_some_iff.mp found
  have longer : (payloads.take position).flatten ++ payload =
      (payloads.take (position + 1)).flatten := by
    rw [List.take_add_one, found, List.flatten_append, Option.toList_some, List.flatten_singleton]
  have fed : Task.Triple (Flowing (payloads.take position).flatten (taken self.history))
      (TlsState.feed library.engine payload)
      (fun _ => Flowing (payloads.take (position + 1)).flatten (taken self.history))
      fun _ => Flowing (payloads.take position).flatten (taken self.history) := by
    rw [← longer]
    exact flowing_feed payload
  have flow := hears.flow
  rw [index] at flow
  have whole : Task.Triple (fun state => state = self)
      (tls (TlsState.feed library.engine payload)) (fun _ => Hears payloads 1)
      fun _ => Hears payloads 0 := by
    refine Task.Triple.zoom fed (fun _ equal => equal ▸ flow) ?_ ?_
    · rintro _ part _ rfl flow
      exact ⟨hears.positive, by rw [next]; exact below, by rw [next]; exact flow, hears.held⟩
    · rintro _ part _ rfl flow
      exact ⟨hears.positive, hears.within, by rw [index]; exact flow, hears.held⟩
  exact whole self rfl

/-- The counter catches up. -/
private theorem hears_next (few : payloads.length < 2 ^ 32 - 1) :
    Task.Triple (Hears payloads 1)
      (update fun control => { control with recvNext := control.recvNext + 1 } :
        Act (Recorded σ) Unit)
      (fun _ => Hears payloads 0) fun _ => Hears payloads 0 := by
  intro self hears
  have positive := hears.positive
  have within := hears.within
  have next : (self.control.recvNext + 1).toNat = self.control.recvNext.toNat + 1 := by
    rw [UInt32.toNat_add]
    exact Nat.mod_eq_of_lt (by simp only [UInt32.toNat_one]; omega)
  have index : (self.control.recvNext + 1).toNat - 1 + 0 =
      self.control.recvNext.toNat - 1 + 1 := by omega
  show Hears payloads 0 { self with
    control := { self.control with recvNext := self.control.recvNext + 1 } }
  exact ⟨by rw [next]; omega, by rw [index]; exact within, by rw [index]; exact hears.flow,
    hears.held⟩

/-- A packet whose turn it is: TLS first and then the counter. -/
private theorem hears_due {α : Type} (few : payloads.length < 2 ^ 32 - 1) (payload : Bytes)
    {next : Act (Recorded σ) α} (later : Task.Preserves (Hears payloads 0) next) :
    Task.Triple
      (fun self => Hears payloads 0 self ∧ Genuine payloads self.control.recvNext payload)
      (do
        tls (TlsState.feed library.engine payload)
        update fun control => { control with recvNext := control.recvNext + 1 }
        next)
      (fun _ => Hears payloads 0) fun _ => Hears payloads 0 :=
  Task.Triple.bind (hears_feed payload) fun _ => Task.Triple.bind (hears_next few) fun _ => later

private theorem hears_drainReorder (few : payloads.length < 2 ^ 32 - 1) :
    Task.Preserves (Hears payloads 0) (drainReorder library.engine) := by
  refine Task.Preserves.loop (fun _ => ?_) ()
  intro self hears
  rw [Task.run_bind_ok (Task.run_gets _ _)]
  rcases lookup : self.control.reorder[self.control.recvNext]? with _ | payload
  · dsimp only
    exact hears
  · have erased : Hears payloads 0 { self with
        control := { self.control with
                     reorder := self.control.reorder.erase self.control.recvNext } } := by
      refine ⟨hears.positive, hears.within, hears.flow, fun packetId waiting found => ?_⟩
      rw [Std.TreeMap.getElem?_erase] at found
      split at found
      · cases found
      · exact hears.held packetId waiting found
    dsimp only
    rw [update, Task.run_bind_ok (Task.run_modify _ _)]
    exact hears_due few payload (Task.Preserves.pure (Sum.inl ())) _
      ⟨erased, hears.held _ _ lookup⟩

theorem hears_acceptControl (few : payloads.length < 2 ^ 32 - 1) {packetId : UInt32}
    {payload : Bytes} (genuine : Genuine payloads packetId payload) :
    Task.Preserves (Hears payloads 0) (acceptControl library.engine packetId payload) := by
  intro self hears
  rw [acceptControl, Task.run_bind_ok (Task.run_gets _ _)]
  by_cases behind : packetId < self.control.recvNext
  · rw [if_pos behind]
    exact hears
  · rw [if_neg behind]
    by_cases ahead : packetId > self.control.recvNext
    · rw [if_pos ahead]
      by_cases room : self.control.reorder.size < 32
      · rw [if_pos room]
        refine ⟨hears.positive, hears.within, hears.flow, fun other waiting found => ?_⟩
        change (self.control.reorder.insert packetId payload)[other]? = some waiting at found
        rw [Std.TreeMap.getElem?_insert] at found
        split at found
        case isTrue equal =>
          cases found
          exact Std.LawfulEqCmp.eq_of_compare equal ▸ genuine
        case isFalse => exact hears.held other waiting found
      · rw [if_neg room]
        exact hears
    · rw [if_neg ahead]
      have due : packetId = self.control.recvNext :=
        UInt32.le_antisymm (UInt32.not_lt.mp ahead) (UInt32.not_lt.mp behind)
      exact hears_due few payload (hears_drainReorder few) self ⟨hears, due ▸ genuine⟩

theorem survives_hears (few : payloads.length < 2 ^ 32 - 1) :
    Survives library.engine (Genuine payloads)
      (fun self : Session (Recorded σ) => Hears payloads 0 self ∧ Awaits payloads self) where
  script := by
    rintro self arrivals faults overdue ⟨hears, awaits⟩ shorter
    exact ⟨⟨hears.positive, hears.within, hears.flow, hears.held⟩,
      fun raw late among => awaits raw late (shorter.subset among)⟩
  event := by
    rintro self event ⟨hears, awaits⟩ silent
    refine ⟨⟨hears.positive, hears.within, ?_, hears.held⟩, awaits⟩
    rw [taken_append, silent, List.append_nil]
    exact hears.flow
  sending := by
    rintro self acked nextPacketId lastPayload ⟨hears, awaits⟩
    exact ⟨⟨hears.positive, hears.within, hears.flow, hears.held⟩, awaits⟩
  arrived := by
    rintro self raw overdue packet ⟨-, awaits⟩ among parsed control
    refine awaits raw overdue among _ _ ?_
    rw [controlPayload, parsed]
    exact if_pos control
  accepts := by
    intro packetId payload genuine
    refine (hears_acceptControl few genuine).and ?_
    exact preserves_acceptControl (fun _ => Task.Preserves.zoom fun _ _ held => held)
      (fun _ _ => Task.Preserves.modify fun _ held => held) _ _
  drives := (hears_tls fun _ _ => flowing_drive).and (Task.Preserves.zoom fun _ _ held => held)
  writes := fun data =>
    (hears_tls fun _ _ => flowing_write data).and (Task.Preserves.zoom fun _ _ held => held)
  takes := by
    rintro self ⟨hears, awaits⟩
    obtain ⟨got, wrote, flow⟩ := hears.flow
    refine ⟨⟨hears.positive, hears.within, ⟨got, wrote, ?_⟩, hears.held⟩, awaits⟩
    rw [taken_append, show taken [.took _] = _ from List.append_nil _]
    exact flow_takeOutbound flow
  reads := by
    rintro self ⟨hears, awaits⟩
    obtain ⟨got, wrote, flow⟩ := hears.flow
    exact ⟨⟨hears.positive, hears.within, ⟨_, wrote, flow_takePlaintext flow⟩, hears.held⟩, awaits⟩
  data := by
    rintro self keys seed sendCounter replay ⟨hears, awaits⟩
    exact ⟨⟨hears.positive, hears.within, hears.flow, hears.held⟩, awaits⟩

end Receiving

/-! ### The sending side -/

section Sending

variable {σ : Type} {library : TlsLibrary σ}

/-- The history grows, and TLS has written what was taken from it and what
still waits. -/
structure Carries (past : List Event) (session : Session (Recorded σ)) : Prop where
  grown : past <+: session.history
  flow : ∃ fed, Flowing fed (taken session.history) session.control.tls

private theorem carries_tls {α : Type} {past : List Event}
    {task : Task (TlsState (Recorded σ)) Error α}
    (kept : ∀ fed taken, Task.Triple (Flowing fed taken) task
      (fun _ tls => ∃ fed, Flowing fed taken tls) fun _ tls => ∃ fed, Flowing fed taken tls) :
    Task.Preserves (Carries past) (tls task) := by
  rintro self ⟨grown, fed, flow⟩
  have whole : Task.Triple (fun state => state = self) (tls task)
      (fun _ => Carries past) fun _ => Carries past :=
    Task.Triple.zoom (kept fed (taken self.history)) (fun _ same => same ▸ flow)
      (fun _ _ _ same flow => same ▸ ⟨grown, flow⟩) fun _ _ _ same flow => same ▸ ⟨grown, flow⟩
  exact whole self rfl

private theorem flowing_any {α : Type} {fed taken later : Bytes}
    {task : Task (TlsState (Recorded σ)) Error α}
    (kept : Task.Triple (Flowing fed taken) task (fun _ => Flowing later taken)
      fun _ => Flowing fed taken) :
    Task.Triple (Flowing fed taken) task (fun _ tls => ∃ fed, Flowing fed taken tls)
      fun _ tls => ∃ fed, Flowing fed taken tls :=
  kept.weaken (fun _ held => held) (fun _ _ held => ⟨later, held⟩) fun _ _ held => ⟨fed, held⟩

theorem survives_carries (past : List Event) :
    Survives library.engine (fun _ _ => True)
      (Carries past : Session (Recorded σ) → Prop) where
  script := fun _ _ _ _ carries _ => ⟨carries.grown, carries.flow⟩
  event := by
    rintro self event ⟨grown, flow⟩ silent
    refine ⟨grown.trans (List.prefix_append _ _), ?_⟩
    rw [taken_append, silent, List.append_nil]
    exact flow
  sending := fun _ _ _ _ carries => ⟨carries.grown, carries.flow⟩
  arrived := fun _ _ _ _ _ _ _ _ => trivial
  accepts := fun _ _ _ => preserves_acceptControl
    (fun payload => carries_tls fun _ _ => flowing_any (flowing_feed payload))
    (fun change received => Task.Preserves.modify fun self carries => by
      obtain ⟨recvNext, reorder, same⟩ := received self.control
      exact ⟨carries.grown, by rw [same]; exact carries.flow⟩) _ _
  drives := carries_tls fun _ _ => flowing_any flowing_drive
  writes := fun data => carries_tls fun _ _ => flowing_any (flowing_write data)
  takes := by
    rintro self ⟨grown, fed, got, wrote, flow⟩
    refine ⟨grown.trans (List.prefix_append _ _), fed, got, wrote, ?_⟩
    rw [taken_append, show taken [.took _] = _ from List.append_nil _]
    exact flow_takeOutbound flow
  reads := by
    rintro self ⟨grown, fed, got, wrote, flow⟩
    exact ⟨grown, fed, _, wrote, flow_takePlaintext flow⟩
  data := fun _ _ _ _ _ carries => ⟨carries.grown, carries.flow⟩

end Sending

/-! ### Calls at the two ends -/

section Calls

variable {σ τ : Type}

inductive Side where
  | near
  | far
deriving DecidableEq, Repr

/-- A call at one end, with the waits and the sends it will have. -/
structure Call where
  side : Side
  work : Work
  arrivals : List Arrival
  faults : List Bool

/-- One end's part of a call. -/
def perform (crypto : Crypto) (library : TlsLibrary σ) (session : Session (Recorded σ))
    (call : Call) : Session (Recorded σ) :=
  call.work.run crypto library.engine
    { session with arrivals := call.arrivals, faults := call.faults }

def call (crypto : Crypto) (near : TlsLibrary σ) (far : TlsLibrary τ) (self : ControlLink σ τ)
    (call : Call) : ControlLink σ τ :=
  match call.side with
  | .near => { self with near := perform crypto near self.near call }
  | .far => { self with far := perform crypto far self.far call }

/-- Two ends that have had each other's reset, which is packet 0. -/
def start (near : σ) (far : τ) (nearId farId : SessionId) (cipher : Cipher) (auth : Auth) :
    ControlLink σ τ where
  near := connected (Control.start (TlsLibrary.fresh near) nearId farId 0 cipher auth) [] []
  far := connected (Control.start (TlsLibrary.fresh far) farId nearId 0 cipher auth) [] []

/-- No datagram but one of this history, unless it is no control packet. -/
def From (history : List Event) : Arrival → Prop
  | .datagram raw _ => .sent raw ∈ history ∨ controlPayload raw = none
  | _ => True

instance (history : List Event) : DecidablePred (From history)
  | .datagram _ _ => inferInstanceAs (Decidable (_ ∨ _))
  | .expired => .isTrue trivial
  | .failed => .isTrue trivial
  | .silent _ => .isTrue trivial

/-- What the other end has done so far. -/
def beyond (self : ControlLink σ τ) : Side → List Event
  | .near => self.far.history
  | .far => self.near.history

/-- The network forges no control packet. -/
def Honest (self : ControlLink σ τ) (call : Call) : Prop :=
  ∀ arrival ∈ call.arrivals, From (self.beyond call.side) arrival

instance (self : ControlLink σ τ) (call : Call) : Decidable (Honest self call) :=
  inferInstanceAs (Decidable (∀ arrival ∈ call.arrivals, _))

/-- What one end has heard of the other, as long as nothing was resent and no
control packet lost there. -/
def Heard (session : Session (Recorded σ)) (history : List Event) : Prop :=
  ∀ payloads, Calm history → controls history = numbered payloads →
    payloads.length < 2 ^ 32 - 1 → Hears payloads 0 session

theorem Heard.perform {library : TlsLibrary σ} {self : Session (Recorded σ)}
    {history : List Event} (heard : Heard self history) (crypto : Crypto) {call : Call}
    (honest : ∀ arrival ∈ call.arrivals, From history arrival) :
    Heard (perform crypto library self call) history := by
  intro payloads calm packets few
  have hears := heard payloads calm packets few
  have awaits : Awaits payloads
      { self with arrivals := call.arrivals, faults := call.faults } := by
    intro raw overdue among packetId payload found
    rcases honest _ among with sent | foreign
    · have carried : (packetId, payload) ∈ controls history :=
        List.mem_filterMap.mpr ⟨_, sent, found⟩
      rw [packets] at carried
      exact (mem_numbered (by omega)).mp carried
    · rw [foreign] at found
      cases found
  have entered : Hears payloads 0
      { self with arrivals := call.arrivals, faults := call.faults } :=
    ⟨hears.positive, hears.within, hears.flow, hears.held⟩
  exact ((survives_hears few).run crypto call.work ⟨entered, awaits⟩).1

private theorem numbered_payloads (payloads : List Bytes) :
    (numbered payloads).map Prod.snd = payloads := by
  apply List.ext_getElem
  · simp [numbered]
  · intro position _ _
    simp [numbered]

/-- What was heard of a shorter history holds of a longer one. -/
theorem Heard.mono {self : Session (Recorded σ)} {writer : Session (Recorded τ)}
    {later : List Event} (heard : Heard self writer.history) (streams : Streams [] writer)
    (grown : writer.history <+: later) : Heard self later := by
  intro payloads calm packets few
  have calmBefore : Calm writer.history := fun event among => calm event (grown.subset among)
  obtain ⟨before, packetsBefore, -, -⟩ := streams calmBefore
  have longer : before <+: payloads := by
    have shorter : controls writer.history <+: controls later := grown.filterMap _
    rw [packetsBefore, packets] at shorter
    have shorter := shorter.map Prod.snd
    rwa [numbered_payloads, numbered_payloads] at shorter
  have fewBefore : before.length < 2 ^ 32 - 1 := lt_of_le_of_lt longer.length_le few
  exact (heard before calmBefore packetsBefore fewBefore).mono longer

/-! ### Every run -/

/-- The invariant of a link. -/
structure Sound (link : ControlLink σ τ) : Prop where
  nearStreams : Streams [] link.near
  farStreams : Streams [] link.far
  nearFlow : ∃ fed, Flowing fed (taken link.near.history) link.near.control.tls
  farFlow : ∃ fed, Flowing fed (taken link.far.history) link.far.control.tls
  nearHeard : Heard link.near link.far.history
  farHeard : Heard link.far link.near.history

private theorem heard_connected (session : σ) (sessionId remote : SessionId) (cipher : Cipher)
    (auth : Auth) (history : List Event) :
    Heard (connected (Control.start (TlsLibrary.fresh session) sessionId remote 0 cipher auth)
      [] []) history := by
  intro payloads _ _ _
  refine ⟨show 0 < (0 + 1 : UInt32).toNat by decide, Nat.zero_le _,
    ⟨[], [], flow_start session⟩, fun packetId payload found => ?_⟩
  change (∅ : Std.TreeMap UInt32 Bytes)[packetId]? = some payload at found
  rw [Std.TreeMap.getElem?_emptyc] at found
  cases found

theorem sound_start (near : σ) (far : τ) (nearId farId : SessionId) (cipher : Cipher)
    (auth : Auth) : Sound (start near far nearId farId cipher auth) where
  nearStreams := fun _ => ⟨[], rfl, rfl, rfl⟩
  farStreams := fun _ => ⟨[], rfl, rfl, rfl⟩
  nearFlow := ⟨[], [], [], flow_start near⟩
  farFlow := ⟨[], [], [], flow_start far⟩
  nearHeard := heard_connected _ _ _ _ _ _
  farHeard := heard_connected _ _ _ _ _ _

/-- What a call does to the end it is made at. -/
theorem perform_spec (crypto : Crypto) (library : TlsLibrary σ) {self : Session (Recorded σ)}
    (streams : Streams [] self)
    (flow : ∃ fed, Flowing fed (taken self.history) self.control.tls) (call : Call) :
    Streams [] (perform crypto library self call) ∧
      Carries self.history (perform crypto library self call) := by
  have entered : Streams [] { self with arrivals := call.arrivals, faults := call.faults } :=
    streams
  have carries : Carries self.history
      { self with arrivals := call.arrivals, faults := call.faults } :=
    ⟨List.prefix_rfl, flow⟩
  exact ⟨streams_work crypto library.engine call.work entered,
    (survives_carries self.history).run crypto call.work carries⟩

theorem sound_call (crypto : Crypto) (near : TlsLibrary σ) (far : TlsLibrary τ)
    (self : ControlLink σ τ) (step : Call) (sound : self.Sound) (honest : self.Honest step) :
    (self.call crypto near far step).Sound := by
  unfold ControlLink.call
  unfold Honest at honest
  cases side : step.side with
  | near =>
      rw [side] at honest
      obtain ⟨streams, carries⟩ := perform_spec crypto near sound.nearStreams sound.nearFlow step
      exact {
        nearStreams := streams
        farStreams := sound.farStreams
        nearFlow := carries.flow
        farFlow := sound.farFlow
        nearHeard := sound.nearHeard.perform crypto honest
        farHeard := sound.farHeard.mono sound.nearStreams carries.grown }
  | far =>
      rw [side] at honest
      obtain ⟨streams, carries⟩ := perform_spec crypto far sound.farStreams sound.farFlow step
      exact {
        nearStreams := sound.nearStreams
        farStreams := streams
        nearFlow := sound.nearFlow
        farFlow := carries.flow
        nearHeard := sound.nearHeard.mono sound.farStreams carries.grown
        farHeard := sound.farHeard.perform crypto honest }

/-- As long as the writer neither resent nor lost a control packet, what the reader's
TLS was given is a beginning of what the writer's TLS has written, and all but
what waits in the writer's stream once the counters agree. -/
def Delivers (reader : Session (Recorded σ)) (writer : Session (Recorded τ)) : Prop :=
  Calm writer.history → (controls writer.history).length < 2 ^ 32 - 1 →
    ∀ session memory written waiting, reader.control.tls.current = some (session, memory) →
      writer.control.tls.current = some (written, waiting) →
      session.read ++ memory.inbound <+: written.written ∧
        (reader.control.recvNext = writer.control.nextPacketId →
          session.read ++ memory.inbound ++ waiting.outbound = written.written)

theorem Heard.delivers {reader : Session (Recorded σ)} {writer : Session (Recorded τ)}
    (heard : Heard reader writer.history) (streams : Streams [] writer)
    (flow : ∃ fed, Flowing fed (taken writer.history) writer.control.tls) :
    Delivers reader writer := by
  intro calm few session memory written waiting there behind
  obtain ⟨payloads, packets, next, stream⟩ := streams calm
  have length : payloads.length < 2 ^ 32 - 1 := by
    rw [packets, numbered, List.length_mapIdx] at few
    exact few
  have hears := heard payloads calm packets length
  obtain ⟨got, wrote, flows⟩ := hears.flow
  obtain ⟨fed, got', wrote', writes⟩ := flow
  have inbound := flows.inbound session memory there
  have outbound := writes.outbound written waiting behind
  rw [List.append_nil] at stream
  have whole : payloads.flatten ++ waiting.outbound = written.written := by
    rw [stream, outbound]
  refine ⟨?_, fun agree => ?_⟩
  · rw [inbound, ← whole]
    refine List.IsPrefix.trans ?_ (List.prefix_append _ _)
    conv_rhs => rw [← List.take_append_drop (reader.control.recvNext.toNat - 1 + 0) payloads,
      List.flatten_append]
    exact List.prefix_append _ _
  · have all : reader.control.recvNext.toNat - 1 + 0 = payloads.length := by
      rw [agree, next, UInt32.toNat_ofNat', Nat.mod_eq_of_lt (by omega)]
      omega
    rw [inbound, all, List.take_length, whole]

/-- The control channel carries the TLS stream of each end to the other, in
every interleaving of calls at the two ends and whatever the network drops,
repeats, delays and reorders, with any TLS. -/
theorem delivers_run (crypto : Crypto) (near : TlsLibrary σ) (far : TlsLibrary τ) (nearTls : σ)
    (farTls : τ) (nearId farId : SessionId) (cipher : Cipher) (auth : Auth) (calls : List Call)
    (honest : Along (call crypto near far) Honest
      (start nearTls farTls nearId farId cipher auth) calls) :
    let link := run (call crypto near far) (start nearTls farTls nearId farId cipher auth) calls
    Delivers link.near link.far ∧ Delivers link.far link.near := by
  have sound : Sound (run (call crypto near far)
      (start nearTls farTls nearId farId cipher auth) calls) :=
    run_invariant (sound_call crypto near far) calls (sound_start _ _ _ _ _ _) honest
  exact ⟨sound.nearHeard.delivers sound.farStreams sound.farFlow,
    sound.farHeard.delivers sound.nearStreams sound.nearFlow⟩

end Calls

/-! ### A record on its way -/

/-- A TLS library that writes its ClientHello and then reads what comes. -/
def helloLibrary : TlsLibrary Bool where
  handshake started :=
    if started then .read 64 64 fun _ => .done (.wouldBlock, true)
    else .write clientHello fun _ => .done (.wouldBlock, true)
  read started := .done ([], started)
  write started _ := .done (none, started)

def nearId : SessionId := Vector.replicate 8 1
def farId : SessionId := Vector.replicate 8 2

/-- The first control packet of the near end. -/
def helloPacket : Bytes :=
  (pControlV1 <<< 3) :: (nearId.toList ++ encodeAcks [0] farId) ++ u32ToBe 1 ++ clientHello

/-- The near end sends its record. The far end gets it twice, and a stray
datagram before it. -/
def helloCalls : List Call :=
  [⟨.near, .handshake .driveTls, [.expired], []⟩,
    ⟨.far, .handshake .pump,
      [.datagram [0xff] false, .datagram helloPacket false, .datagram helloPacket false], []⟩,
    ⟨.far, .handshake .pump, [.datagram helloPacket true, .silent true], []⟩]

/-- No cipher is reached in the handshake. -/
def noCrypto : Crypto where
  gcmSeal _ _ _ _ := none
  gcmOpen _ _ _ _ := none
  cbcEncrypt _ _ message := message
  cbcDecrypt _ _ _ := none
  hmac _ _ _ := []
  hmacMd5 _ _ := []
  hmacSha1 _ _ := []

def helloLink : ControlLink Bool Bool :=
  run (call noCrypto helloLibrary helloLibrary)
    (start false true nearId farId .aes256Gcm .sha1) helloCalls

theorem delivers_run_hello :
    Delivers helloLink.far helloLink.near ∧ Calm helloLink.near.history ∧
      (helloLink.far.control.tls.current.map fun current => current.1.read ++ current.2.inbound) =
        some clientHello :=
  ⟨(delivers_run noCrypto helloLibrary helloLibrary false true nearId farId .aes256Gcm .sha1
    helloCalls (by decide +kernel)).2, by decide +kernel, by decide +kernel⟩

end ControlLink

end Unroxy.OpenVpn
