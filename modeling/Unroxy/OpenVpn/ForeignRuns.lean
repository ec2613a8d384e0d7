import Unroxy.OpenVpn.ForeignPackets

/-!
Owns the comparison of two runs of a session, one of which is handed packets of
another session as well.

The runs are of the whole control channel: an inserted packet is acknowledged, and
TLS is driven and flushed behind it. A TLS that does nothing when it is driven with
nothing new is assumed.

Does not own what the acknowledgements say on the wire.
-/

namespace Unroxy.OpenVpn

open Unroxy.Lib

/-- Driving TLS with nothing new changes nothing. -/
def Engine.Quiet {σ : Type} (engine : Engine σ) : Prop :=
  ∀ state : TlsState σ, (state.settle engine).settle engine = state.settle engine

/-- A packet, and which sends of the call that handles it fail. -/
structure Delivery extends Session.PacketArrival where
  faults : List Bool

/-- A session whose TLS has nothing left to do, and the payloads it was handed. -/
structure SettledSession {σ : Type} (engine : Engine σ) where
  session : Session σ
  fed : List Bytes
  settled : session.control.tls.settle engine = session.control.tls

namespace SettledSession

variable {σ : Type} {engine : Engine σ}

def intake (self : SettledSession engine) : Intake := self.session.intake self.fed

/-- The session with the sends of the next call. -/
def facing (self : SettledSession engine) (delivery : Delivery) : Session σ :=
  { self.session with faults := delivery.faults }

/-- The packet as this session hears it. -/
def heardBy (self : SettledSession engine) (delivery : Delivery) : Heard :=
  (self.facing delivery).heardBy delivery.toPacketArrival

/-- What the packet makes the session hand to TLS. -/
def feeds (self : SettledSession engine) (delivery : Delivery) : List Bytes :=
  (self.intake.handle (self.heardBy delivery)).fed.drop self.fed.length

/-- A call on the session: TLS is handed what `accept_control` feeds, and is driven
and flushed. -/
theorem hear_spec (crypto : Crypto) (self : SettledSession engine) (delivery : Delivery) :
    ((self.facing delivery).hear crypto engine delivery.toPacketArrival).intake
        (self.fed ++ self.feeds delivery) = self.intake.handle (self.heardBy delivery) ∧
      ((self.facing delivery).hear crypto engine delivery.toPacketArrival).control.tls =
        (TlsState.feedAll engine (self.feeds delivery) self.session.control.tls).2.settle
          engine := by
  obtain ⟨feeds, step, -, took⟩ :=
    (self.facing delivery).hear_intake crypto engine delivery.toPacketArrival self.fed
  have same : self.feeds delivery = feeds := by
    have whole : self.fed ++ feeds = (self.intake.handle (self.heardBy delivery)).fed :=
      congrArg Intake.fed step
    rw [SettledSession.feeds, ← whole, List.drop_left]
  rw [same]
  refine ⟨step, ?_⟩
  rcases took with driven | ⟨rfl, idle⟩
  · exact driven
  · -- Nothing was fed, so driving would have changed nothing.
    exact idle.trans self.settled.symm

/-- The session once a call has dealt with the packet. -/
def hear (crypto : Crypto) (quiet : engine.Quiet) (self : SettledSession engine)
    (delivery : Delivery) : SettledSession engine where
  session := (self.facing delivery).hear crypto engine delivery.toPacketArrival
  fed := self.fed ++ self.feeds delivery
  settled := by
    rw [(self.hear_spec crypto delivery).2]
    exact quiet _

@[simp] theorem intake_hear (crypto : Crypto) (quiet : engine.Quiet)
    (self : SettledSession engine) (delivery : Delivery) :
    (self.hear crypto quiet delivery).intake = self.intake.handle (self.heardBy delivery) :=
  (self.hear_spec crypto delivery).1

/-- The same receiving side and the same TLS. The sending side, which every packet
moves, may differ. -/
structure Alike (left right : SettledSession engine) : Prop where
  intake : Intake.Same left.intake right.intake
  tls : left.session.control.tls = right.session.control.tls

theorem alike_equivalence : Equivalence (@Alike σ engine) where
  refl _ := ⟨Intake.same_equivalence.refl _, rfl⟩
  symm alike := ⟨Intake.same_equivalence.symm alike.intake, alike.tls.symm⟩
  trans first second :=
    ⟨Intake.same_equivalence.trans first.intake second.intake, first.tls.trans second.tls⟩

theorem Alike.hear {left right : SettledSession engine} (alike : Alike left right)
    (crypto : Crypto) (quiet : engine.Quiet) (delivery : Delivery) :
    Alike (left.hear crypto quiet delivery) (right.hear crypto quiet delivery) := by
  have heard : left.heardBy delivery = right.heardBy delivery := by
    have isOpen : decide left.session.control.tls.Open =
        decide right.session.control.tls.Open := by
      rw [alike.tls]
    exact congrArg (Heard.mk delivery.caller delivery.packet (!delivery.faults.headD false)) isOpen
  have stepped : Intake.Same (left.intake.handle (left.heardBy delivery))
      (right.intake.handle (right.heardBy delivery)) := by
    rw [heard]
    exact alike.intake.handle _
  have fed : left.fed = right.fed := alike.intake.fed
  have feeds : left.feeds delivery = right.feeds delivery := by
    rw [SettledSession.feeds, SettledSession.feeds, stepped.fed, fed]
  constructor
  · rw [intake_hear, intake_hear]
    exact stepped
  · exact ((left.hear_spec crypto delivery).2.trans (by rw [feeds, alike.tls])).trans
      (right.hear_spec crypto delivery).2.symm

/-- An inert packet leaves TLS alone too: it hands it nothing. -/
theorem alike_hear_of_inert (crypto : Crypto) (quiet : engine.Quiet)
    (self : SettledSession engine) (delivery : Delivery)
    (inert : self.intake.Inert (self.heardBy delivery)) :
    Alike (self.hear crypto quiet delivery) self := by
  have same := (Intake.same_handle_iff self.intake (self.heardBy delivery)).mpr inert
  have none_fed : self.feeds delivery = [] := by
    rw [SettledSession.feeds, same.fed]
    exact List.drop_length
  constructor
  · rw [intake_hear]
    exact same
  · have took := (self.hear_spec crypto delivery).2
    rw [none_fed] at took
    exact took.trans self.settled

/-- Whatever session they come from, packets inserted into a run of `pump` and
`recv_data` are not noticed on the receiving side at any point exactly if each of them
is inert when it comes. -/
theorem insertion_unnoticed_iff (crypto : Crypto) (quiet : engine.Quiet)
    (self : SettledSession engine) (entries : List (Marked Delivery)) :
    (∀ done, done <+: entries →
      Intake.Same (run (hear crypto quiet) self (everything done)).intake
        (run (hear crypto quiet) self (original done)).intake) ↔
      Along (fun self (entry : Marked Delivery) => self.hear crypto quiet entry.action)
        (fun self entry => entry.inserted = true →
          self.intake.Inert (self.heardBy entry.action)) self entries := by
  have observation : Equivalence fun left right : SettledSession engine =>
      Intake.Same left.intake right.intake :=
    ⟨fun _ => Intake.same_equivalence.refl _, Intake.same_equivalence.symm,
      Intake.same_equivalence.trans⟩
  refine insertions_iff alike_equivalence observation Alike.intake
    (fun delivery alike => alike.hear crypto quiet delivery)
    (alike_hear_of_inert crypto quiet) (fun self delivery unseen => ?_) entries
    (alike_equivalence.refl self)
  rw [intake_hear] at unseen
  exact (Intake.same_handle_iff _ _).mp unseen

/-- A TLS that waits for the server is one that is assumed. -/
theorem quiet_waitingEngine : Session.waitingEngine.Quiet := by
  rintro ⟨handshake, stream, plaintext, offset, pending⟩
  cases handshake with
  | none =>
      cases stream with
      | none => rfl
      | some current =>
          simp only [TlsState.settle, TlsState.drive, TlsState.pump, Session.waitingEngine,
            List.flatten_nil, List.append_nil]
          rfl
  | some current =>
      obtain ⟨started, memory⟩ := current
      cases started <;> rfl

end SettledSession

end Unroxy.OpenVpn
