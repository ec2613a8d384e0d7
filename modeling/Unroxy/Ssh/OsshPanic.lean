import Unroxy.Ssh.OsshDecode
import Unroxy.Ssh.OsshFraming
import Unroxy.Ssh.OsshLoops

/-!
Owns when the state machines of an `OsshStream` panic, over runs of calls.

`process_read` takes whatever arrives. `process_write` reads the sixth byte of a
packet before it has made sure that there is one, so a packet of five bytes is
too short for it.
-/

namespace Unroxy.Ssh

open Unroxy.Lib

namespace OsshStream

variable {self after : OsshStream}

/-! ### Runs -/

/-- What the reading side has is left alone. -/
theorem processWrite_reading (ran : self.processWrite = .ok after) :
    after.rstate = self.rstate ∧ after.kexPrefix = self.kexPrefix := by
  rw [processWrite_eq] at ran
  rcases drained : writer.drain (some (self.wstate, self.c2s)) self.wbuf with
    ⟨output, - | ⟨wstate, c2s⟩, left⟩
  · rw [drained] at ran
    cases ran
  · rw [drained] at ran
    cases ran
    exact ⟨rfl, rfl⟩

private theorem Begun.of_same (begun : self.Begun) (rstate : after.rstate = self.rstate)
    (kexPrefix : after.kexPrefix = self.kexPrefix) : after.Begun := by
  intro header remaining held
  rw [rstate]
  exact begun header remaining (kexPrefix ▸ held)

theorem Begun.flushed (begun : self.Begun) (flushed : Flushed self after) : after.Begun := by
  apply begun.of_same
  · rw [flushed.same]
  · rw [flushed.same]

theorem Begun.pollWrite (begun : self.Begun) {buf : Bytes}
    {answer : Poll (Except IoError Nat)} (ran : self.pollWrite buf = .ok (answer, after)) :
    after.Begun := by
  rcases flush : self.flushOut with ⟨- | result, between⟩
  · rw [pollWrite_pending flush] at ran
    cases ran
    exact begun.flushed (flushOut_flushed flush)
  · have first := begun.flushed (flushOut_flushed flush)
    rw [pollWrite_ready flush] at ran
    cases processed : processWrite { between with wbuf := between.wbuf ++ buf } with
    | error failure =>
        rw [processed] at ran
        cases ran
    | ok written =>
        have same := processWrite_reading processed
        have second := first.of_same same.1 same.2
        rw [processed] at ran
        cases ran
        exact second.flushed (flushOut_flushed rfl)

end OsshStream

/-- What is called. The inner stream answers a `poll_flush` or a `poll_shutdown`
of its own like this. -/
inductive Call where
  | write (buf : Bytes)
  | read (size : Nat)
  | flush (answer : Poll (Except IoError Unit))
  | shutdown (answer : Poll (Except IoError Unit))
deriving DecidableEq, Repr

namespace Call

/-- A call, unless there has been a panic. -/
def step (state : Checked OsshStream) (call : Call) : Checked OsshStream := do
  let self ← state
  match call with
  | .write buf => return (← self.pollWrite buf).2
  | .read size => return (← self.pollRead size).2
  | .flush answer => return (self.pollFlush answer).2
  | .shutdown answer => return (self.pollShutdown answer).2

/-- The call does not bring `process_write` to a packet of five bytes. -/
def Bearable (state : Checked OsshStream) : Call → Prop
  | .write buf => ∀ self, state = .ok self →
      self.flushOut.1 = .pending ∨ ¬ TooShort self.wstate (self.wbuf ++ buf)
  | .read _ | .flush _ | .shutdown _ => True

private theorem flushThen_begun {self : OsshStream} (begun : self.Begun)
    (answer : Poll (Except IoError Unit)) : (self.flushThen answer).2.Begun := by
  rw [OsshStream.flushThen]
  rcases flushed : self.flushOut with ⟨- | (failure | done), after⟩
  · exact begun.flushed (OsshStream.flushOut_flushed flushed)
  · exact begun.flushed (OsshStream.flushOut_flushed flushed)
  · exact begun.flushed (OsshStream.flushOut_flushed flushed)

private theorem step_begun (state : Checked OsshStream) (call : Call)
    (begun : ∀ self, state = .ok self → self.Begun) :
    ∀ self, step state call = .ok self → self.Begun := by
  intro after ran
  cases state with
  | error failure => cases ran
  | ok self =>
      have before := begun self rfl
      cases call with
      | write buf =>
          change (self.pollWrite buf >>= fun result => pure result.2) = _ at ran
          rcases bind_ok ran with ⟨result, written, ran⟩
          cases ran
          exact before.pollWrite written
      | read size =>
          rcases OsshStream.pollRead_read before size with ⟨poll, last, polled, read⟩
          change (self.pollRead size >>= fun result => pure result.2) = _ at ran
          rw [polled] at ran
          cases ran
          exact read.begun
      | flush answer =>
          cases ran
          exact flushThen_begun before answer
      | shutdown answer =>
          cases ran
          exact flushThen_begun before answer

private theorem step_ok_iff (state : Checked OsshStream) (call : Call)
    (begun : ∀ self, state = .ok self → self.Begun) (alive : ∃ self, state = .ok self) :
    (∃ after, step state call = .ok after) ↔ Bearable state call := by
  rcases alive with ⟨self, rfl⟩
  cases call with
  | write buf =>
      have written := self.pollWrite_ok_iff buf
      constructor
      · rintro ⟨after, ran⟩ self' same
        cases same
        change (self.pollWrite buf >>= fun result => pure result.2) = _ at ran
        rcases bind_ok ran with ⟨result, called, _⟩
        exact written.mp ⟨result, called⟩
      · intro bearable
        rcases written.mpr (bearable self rfl) with ⟨result, ran⟩
        refine ⟨result.2, ?_⟩
        change (self.pollWrite buf >>= fun result => pure result.2) = _
        rw [ran]
        rfl
  | read size =>
      rcases OsshStream.pollRead_read (begun self rfl) size with ⟨poll, last, polled, _⟩
      refine ⟨fun _ => trivial, fun _ => ⟨last, ?_⟩⟩
      change (self.pollRead size >>= fun result => pure result.2) = _
      rw [polled]
      rfl
  | flush answer => exact ⟨fun _ => trivial, fun _ => ⟨_, rfl⟩⟩
  | shutdown answer => exact ⟨fun _ => trivial, fun _ => ⟨_, rfl⟩⟩

end Call

/-- The loops always come to an end, and a run of calls, whatever is written,
whatever arrives and whatever the inner stream answers, stays clear of panics if
and only if no call brings `process_write` to a packet of five bytes. -/
theorem ossh_never_panics_iff (sha1 : Sha1) (inner : InnerStream) (keyword : String)
    (seed : Vector UInt8 seedLength) (padding : Bytes) (calls : List Call) :
    (∀ self : OsshStream, self.Ends) ∧
      ((∀ done, done <+: calls → ∃ reached,
          run Call.step (.ok (OsshStream.new sha1 inner keyword seed padding)) done =
            .ok reached) ↔
        Along Call.step Call.Bearable (.ok (OsshStream.new sha1 inner keyword seed padding))
          calls) := by
  refine ⟨OsshStream.ends, ?_⟩
  let alive (state : Checked OsshStream) : Prop := ∃ reached, state = .ok reached
  refine @always_iff_along _ _ _ _ _ alive Call.step_begun Call.step_ok_iff calls _ ?_ ⟨_, rfl⟩
  intro self same header remaining held
  cases same
  cases held

/-- An identification line and the packet `00 00 00 01 00`. -/
def fiveBytePacket : Bytes := [83, 83, 72, 45, 50, 46, 48, 45, 120, 13, 10, 0, 0, 0, 1, 0]

theorem fiveBytePacket_panics :
    run Call.step (.ok (OsshStream.new Sha1.digest ⟨[], [.takes 100], []⟩ "key"
      (Vector.replicate 16 5) [])) [.write fiveBytePacket] = .error .outOfRange := by
  let origin := OsshStream.new Sha1.digest ⟨[], [.takes 100], []⟩ "key" (Vector.replicate 16 5) []
  have size : origin.wout.length = 24 := OsshStream.new_wout_length _ _ _ _ _
  have short : TooShort origin.wstate (origin.wbuf ++ fiveBytePacket) :=
    .line (show findCrlf _ = some 9 from rfl) (.here 0 [])
  have ready : origin.flushOut.1 ≠ .pending := by
    rcases @OsshStream.flushOut_takes origin 100 [] rfl (by decide) (by omega)
      (List.length_pos_iff.mp (by omega)) with ⟨after, flushed, _⟩
    rw [flushed]
    exact fun waits => nomatch waits
  change (origin.pollWrite fiveBytePacket >>= fun result => pure result.2) = _
  cases written : origin.pollWrite fiveBytePacket with
  | error failure =>
      cases failure
      rfl
  | ok result =>
      rcases (origin.pollWrite_ok_iff fiveBytePacket).mp ⟨result, written⟩ with waits | alive
      · exact absurd waits ready
      · exact absurd short alive

end Unroxy.Ssh
