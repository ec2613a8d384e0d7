import Unroxy.Ssh.OsshFraming

/-!
Owns what a `poll_write` that fails leaves behind.

`poll_write` flushes, takes the buffer, encrypts what is complete and flushes
again. It gives up only if the first flush is still waiting. An error of the
second flush is returned when the buffer has been taken already
(`RefusesAgain`), so a caller that offers it once more sends it twice.
-/

namespace Unroxy.Ssh

open Unroxy.Lib

/-- With so many bytes before it, a flush ends in an error. -/
inductive Refuses : Nat → List WriteAnswer → Prop where
  | here {waiting : Nat} (present : 0 < waiting) {answer : WriteAnswer} (refusal : ¬ answer.Willing)
      (rest : List WriteAnswer) : Refuses waiting (answer :: rest)
  | takes {waiting limit : Nat} (present : 0 < waiting) (positive : 0 < limit)
      {rest : List WriteAnswer} (later : Refuses (waiting - limit) rest) :
      Refuses waiting (.takes limit :: rest)

/-- With so many bytes before it, a flush comes to an end, in an error or not,
and the next one, which finds `fresh` bytes more, ends in an error. -/
inductive RefusesAgain (fresh : Nat) : Nat → List WriteAnswer → Prop where
  | flushed {answers : List WriteAnswer} (later : Refuses fresh answers) :
      RefusesAgain fresh 0 answers
  | refused {waiting : Nat} (present : 0 < waiting) {answer : WriteAnswer}
      (refusal : ¬ answer.Willing) {rest : List WriteAnswer}
      (later : Refuses (waiting + fresh) rest) : RefusesAgain fresh waiting (answer :: rest)
  | takes {waiting limit : Nat} (present : 0 < waiting) (positive : 0 < limit)
      {rest : List WriteAnswer} (later : RefusesAgain fresh (waiting - limit) rest) :
      RefusesAgain fresh waiting (.takes limit :: rest)

theorem not_refuses_zero {answers : List WriteAnswer} : ¬ Refuses 0 answers := by
  intro refuses
  cases refuses with
  | here present => exact Nat.lt_irrefl 0 present
  | takes present => exact Nat.lt_irrefl 0 present

private theorem takes_willing (limit : Nat) : (WriteAnswer.takes limit).Willing ↔ ¬ limit = 0 :=
  Nat.pos_iff_ne_zero

theorem refuses_cons {waiting : Nat} (present : 0 < waiting) (answer : WriteAnswer)
    (rest : List WriteAnswer) :
    Refuses waiting (answer :: rest) ↔
      match answer with
      | .pending => False
      | .fails => True
      | .takes limit => if limit = 0 then True else Refuses (waiting - limit) rest := by
  constructor
  · intro refuses
    cases refuses with
    | here _ refusal =>
        cases answer with
        | pending => exact refusal trivial
        | fails => trivial
        | takes limit =>
            rw [takes_willing, not_not] at refusal
            simp [refusal]
    | takes _ positive later => simpa [Nat.ne_of_gt positive] using later
  · intro refused
    cases answer with
    | pending => exact refused.elim
    | fails => exact .here present id rest
    | takes limit =>
        by_cases zero : limit = 0
        · exact .here present (by rwa [takes_willing, not_not]) rest
        · exact .takes present (Nat.pos_of_ne_zero zero) (by simpa [zero] using refused)

theorem refusesAgain_zero {fresh : Nat} {answers : List WriteAnswer} :
    RefusesAgain fresh 0 answers ↔ Refuses fresh answers := by
  constructor
  · intro again
    cases again with
    | flushed later => exact later
    | refused present => exact absurd present (Nat.lt_irrefl 0)
    | takes present => exact absurd present (Nat.lt_irrefl 0)
  · exact .flushed

theorem refusesAgain_cons {fresh waiting : Nat} (present : 0 < waiting) (answer : WriteAnswer)
    (rest : List WriteAnswer) :
    RefusesAgain fresh waiting (answer :: rest) ↔
      match answer with
      | .pending => False
      | .fails => Refuses (waiting + fresh) rest
      | .takes limit =>
          if limit = 0 then Refuses (waiting + fresh) rest
          else RefusesAgain fresh (waiting - limit) rest := by
  constructor
  · intro again
    cases again with
    | flushed => exact absurd present (Nat.lt_irrefl 0)
    | refused _ refusal later =>
        cases answer with
        | pending => exact absurd trivial refusal
        | fails => exact later
        | takes limit =>
            rw [takes_willing, not_not] at refusal
            simpa [refusal] using later
    | takes _ positive later => simpa [Nat.ne_of_gt positive] using later
  · intro refused
    cases answer with
    | pending => exact refused.elim
    | fails => exact .refused present id refused
    | takes limit =>
        by_cases zero : limit = 0
        · exact .refused present (by rwa [takes_willing, not_not]) (by simpa [zero] using refused)
        · exact .takes present (Nat.pos_of_ne_zero zero) (by simpa [zero] using refused)

/-- What is to be sent is what it was, and so is what has been. -/
structure Untouched (before after : OsshStream) : Prop where
  wbuf : after.wbuf = before.wbuf
  wstate : after.wstate = before.wstate
  c2s : after.c2s = before.c2s
  wire : after.inner.received ++ after.wout = before.inner.received ++ before.wout

theorem Untouched.trans {first second third : OsshStream}
    (before : Untouched first second) (behind : Untouched second third) : Untouched first third :=
  ⟨behind.wbuf.trans before.wbuf, behind.wstate.trans before.wstate, behind.c2s.trans before.c2s,
    behind.wire.trans before.wire⟩

theorem untouched_of_flushed {self after : OsshStream} (flushed : OsshStream.Flushed self after) :
    Untouched self after := by
  refine ⟨?_, ?_, ?_, flushed.wire⟩
  · rw [flushed.same]
  · rw [flushed.same]
  · rw [flushed.same]

/-- `Pending` or an error. -/
def Poll.Failed {α : Type} : Poll (Except IoError α) → Prop
  | .ready (.ok _) => False
  | .ready (.error _) | .pending => True

namespace OsshStream

variable {self : OsshStream}

/-! ### Flushing -/

/-- What is left when the inner stream takes some of it. -/
private theorem left_length (limit : Nat) :
    (self.wout.drop (min limit self.wout.length)).length = self.wout.length - limit := by
  rw [List.length_drop]
  omega

/-- When a flush ends in an error. -/
theorem flushOn_error_iff (answers : List WriteAnswer) :
    ∀ self : OsshStream, (∃ failure, (flushOn answers self).1 = .ready (.error failure)) ↔
      Refuses self.wout.length answers := by
  induction answers with
  | nil =>
      intro self
      constructor
      · rintro ⟨failure, failed⟩
        rw [flushOn] at failed
        split at failed <;> cases failed
      · intro refuses
        cases refuses
  | cons answer rest inductionHypothesis =>
      intro self
      by_cases empty : self.wout = []
      case pos =>
        rw [flushOn_empty empty, empty]
        constructor
        · rintro ⟨failure, failed⟩
          cases failed
        · exact fun refuses => absurd refuses not_refuses_zero
      case neg =>
        rw [flushOn_cons empty, refuses_cons (List.length_pos_iff.mpr empty)]
        cases answer with
        | pending => simp
        | fails => simp
        | takes limit =>
            dsimp only
            split
            case isTrue => simp
            case isFalse positive =>
              rw [inductionHypothesis]
              dsimp only
              rw [left_length]

/-- When a flush comes to an end and the next one ends in an error. -/
theorem flushOn_again_iff (fresh : Nat) (answers : List WriteAnswer) :
    ∀ self : OsshStream,
      (∃ result, (flushOn answers self).1 = .ready result ∧
        Refuses ((flushOn answers self).2.wout.length + fresh)
          (flushOn answers self).2.inner.writes) ↔
      RefusesAgain fresh self.wout.length answers := by
  induction answers with
  | nil =>
      intro self
      constructor
      · rintro ⟨result, ended, refuses⟩
        rw [flushOn] at ended refuses
        cases refuses
      · intro again
        generalize self.wout.length = waiting at again
        cases again with
        | flushed later => cases later
  | cons answer rest inductionHypothesis =>
      intro self
      by_cases empty : self.wout = []
      case pos =>
        rw [flushOn_empty empty, empty, List.length_nil, refusesAgain_zero]
        change (∃ result, _ ∧ Refuses (self.wout.length + fresh) (answer :: rest)) ↔ _
        simp [empty]
      case neg =>
        rw [flushOn_cons empty, refusesAgain_cons (List.length_pos_iff.mpr empty)]
        cases answer with
        | pending => simp
        | fails => simp [answered]
        | takes limit =>
            dsimp only
            split
            case isTrue => simp [answered]
            case isFalse positive =>
              rw [inductionHypothesis]
              dsimp only
              rw [left_length]

/-! ### A `poll_write` that fails -/

theorem processWrite_sends {count : Nat} (sends : Sends self.wstate self.wbuf count) :
    ∃ output wstate c2s, self.processWrite = .ok { self with
        wstate, c2s, wbuf := self.wbuf.drop count, wout := self.wout ++ output } ∧
      output.length = count := by
  rcases sends.drain self.c2s with ⟨output, ⟨wstate, c2s⟩, drained, size⟩
  refine ⟨output, wstate, c2s, ?_, size⟩
  rw [processWrite_eq, drained]
  rfl

/-- Nothing is complete. -/
theorem processWrite_idle (sends : Sends self.wstate self.wbuf 0) :
    self.processWrite = .ok self := by
  have idle : writer.drain (some (self.wstate, self.c2s)) self.wbuf =
      ([], some (self.wstate, self.c2s), self.wbuf) := by
    generalize self.wstate = wstate, self.wbuf = wbuf, zero : 0 = count at sends
    cases sends with
    | noLine missing =>
        apply Transducer.drain_none (writer.next_eq_none.mpr _)
        change (findCrlf wbuf).map (· + 2) = none
        rw [missing]
        rfl
    | line => omega
    | noPacket missing => exact Transducer.drain_none (writer.next_eq_none.mpr missing)
    | packet packet =>
        have size := packet.bytes_length
        omega
    | newkeys packet =>
        have size := packet.bytes_length
        omega
    | done =>
        rw [List.length_eq_zero_iff.mp zero.symm, writer_drain_done]
  rw [processWrite_eq, idle, settle, List.append_nil]

/-- What a `poll_write` does that gets beyond its first flush. -/
private theorem pollWrite_sends {between : OsshStream} {result : Except IoError Unit}
    (flush : self.flushOut = (.ready result, between)) {buf : Bytes} {count : Nat}
    (sends : Sends self.wstate (self.wbuf ++ buf) count) :
    ∃ written output, processWrite { between with wbuf := between.wbuf ++ buf } = .ok written ∧
      self.pollWrite buf =
        .ok (accepted buf.length written.flushOut.1, written.flushOut.2) ∧
      output.length = count ∧ written.inner = between.inner ∧
      written.wout = between.wout ++ output ∧ written.wbuf = (self.wbuf ++ buf).drop count := by
  have same := (flushOut_flushed flush).same
  have fields : between.wstate = self.wstate ∧ between.wbuf = self.wbuf := by
    rw [same]
    exact ⟨rfl, rfl⟩
  have held : Sends { between with wbuf := between.wbuf ++ buf }.wstate
      (between.wbuf ++ buf) count := by
    change Sends between.wstate _ _
    rw [fields.1, fields.2]
    exact sends
  rcases processWrite_sends held with ⟨output, wstate, c2s, ran, size⟩
  refine ⟨_, output, ran, ?_, size, rfl, rfl, ?_⟩
  · rw [pollWrite_ready flush, ran]
    rfl
  · change (between.wbuf ++ buf).drop count = _
    rw [fields.2]

private theorem accepted_failed_iff (count : Nat) (poll : Poll (Except IoError Unit)) :
    (accepted count poll).Failed ↔ ∃ failure, poll = .ready (.error failure) := by
  rcases poll with - | (failure | value)
  · refine ⟨fun failed => failed.elim, ?_⟩
    rintro ⟨failure, same⟩
    cases same
  · exact ⟨fun _ => ⟨failure, rfl⟩, fun _ => trivial⟩
  · refine ⟨fun failed => failed.elim, ?_⟩
    rintro ⟨failure, same⟩
    cases same

/-- An error of the second flush leaves everything as it was only if there was
nothing to take. -/
private theorem refused_untouched_iff {between written : OsshStream} {buf output : Bytes}
    {result : Except IoError Unit} (flush : self.flushOut = (.ready result, between))
    (ran : processWrite { between with wbuf := between.wbuf ++ buf } = .ok written)
    (sends : Sends self.wstate (self.wbuf ++ buf) output.length)
    (inner : written.inner = between.inner) (wout : written.wout = between.wout ++ output)
    (wbuf : written.wbuf = (self.wbuf ++ buf).drop output.length) :
    Untouched self written.flushOut.2 ↔ buf = [] ∧ Sends self.wstate self.wbuf 0 := by
  have first := untouched_of_flushed (flushOut_flushed flush)
  have second := untouched_of_flushed (@flushOut_flushed written _ _ rfl)
  constructor
  · intro untouched
    have wire := second.wire.symm.trans untouched.wire
    rw [inner, wout, ← List.append_assoc, first.wire] at wire
    have nothing : output = [] := List.append_right_eq_self.mp wire
    have left := second.wbuf.symm.trans untouched.wbuf
    rw [wbuf, nothing, List.length_nil, List.drop_zero] at left
    have empty : buf = [] := List.append_right_eq_self.mp left
    rw [nothing, empty, List.append_nil] at sends
    exact ⟨empty, sends⟩
  · rintro ⟨rfl, idle⟩
    have still : Sends between.wstate between.wbuf 0 := by
      rw [first.wstate, first.wbuf]
      exact idle
    rw [List.append_nil, processWrite_idle still, Except.ok.injEq] at ran
    rw [← ran] at second ⊢
    exact first.trans second

/-- A `poll_write` that ends in `Pending` or in an error has left alone what is
to be sent, if and only if no second flush of it is refused or there was nothing
to take. -/
theorem pollWrite_untouched_iff (self : OsshStream) (buf : Bytes) :
    (∀ answer after, self.pollWrite buf = .ok (answer, after) → answer.Failed →
      Untouched self after) ↔
      (∀ fresh, Sends self.wstate (self.wbuf ++ buf) fresh →
        ¬ RefusesAgain fresh self.wout.length self.inner.writes) ∨
      (buf = [] ∧ Sends self.wstate self.wbuf 0) := by
  have again := fun fresh => flushOn_again_iff fresh self.inner.writes self
  change ∀ fresh, (∃ result, self.flushOut.1 = .ready result ∧
    Refuses (self.flushOut.2.wout.length + fresh) self.flushOut.2.inner.writes) ↔ _ at again
  rcases flush : self.flushOut with ⟨- | result, between⟩
  · -- The first flush is waiting.
    apply iff_of_true
    · intro answer after called _
      rw [pollWrite_pending flush] at called
      cases called
      exact untouched_of_flushed (flushOut_flushed flush)
    · refine .inl fun fresh _ refuses => ?_
      rcases (again fresh).mpr refuses with ⟨result, ended, _⟩
      rw [flush] at ended
      cases ended
  · rcases tooShort_or_sends self.wstate (self.wbuf ++ buf) with short | ⟨count, sends⟩
    · -- There is a panic.
      apply iff_of_true
      · intro answer after called _
        rcases (self.pollWrite_ok_iff buf).mp ⟨_, called⟩ with waits | alive
        · rw [flush] at waits
          cases waits
        · exact absurd short alive
      · exact .inl fun fresh sends _ => short.not_sends sends
    · rcases pollWrite_sends flush sends with ⟨written, output, ran, called, rfl, inner, wout, wbuf⟩
      have failed := accepted_failed_iff buf.length written.flushOut.1
      have refused := flushOn_error_iff written.inner.writes written
      change (∃ failure, written.flushOut.1 = _) ↔ _ at refused
      rw [refused, inner, wout, List.length_append] at failed
      have second := again output.length
      rw [flush] at second
      by_cases refuses : Refuses (between.wout.length + output.length) between.inner.writes
      · -- The second flush ends in an error.
        have reached := second.mp ⟨result, rfl, refuses⟩
        rw [or_iff_right fun never => never _ sends reached,
          ← refused_untouched_iff flush ran sends inner wout wbuf]
        constructor
        · intro clean
          exact clean _ _ called (failed.mpr refuses)
        · intro untouched answer after called' _
          rw [called] at called'
          cases called'
          exact untouched
      · apply iff_of_true
        · intro answer after called' failure
          rw [called] at called'
          cases called'
          exact absurd (failed.mp failure) refuses
        · refine .inl fun fresh other reached => ?_
          rw [other.unique sends] at reached
          rcases second.mpr reached with ⟨_, _, refuses'⟩
          exact refuses refuses'

end OsshStream

/-- `SSH-2.0-x` and a CRLF. -/
def identLine : Bytes := [83, 83, 72, 45, 50, 46, 48, 45, 120, 13, 10]

/-- The inner stream takes the preamble and refuses the line behind it. -/
theorem refused_line_taken :
    ∃ failure after,
      (OsshStream.new Sha1.digest ⟨[], [.takes 100, .fails], []⟩ "key" (Vector.replicate 16 5)
        []).pollWrite identLine = .ok (.ready (.error failure), after) ∧
      after.wstate ≠ (OsshStream.new Sha1.digest ⟨[], [.takes 100, .fails], []⟩ "key"
        (Vector.replicate 16 5) []).wstate := by
  let origin := OsshStream.new Sha1.digest ⟨[], [.takes 100, .fails], []⟩ "key"
    (Vector.replicate 16 5) []
  have preamble : origin.wout.length = 24 := OsshStream.new_wout_length _ _ _ _ _
  rcases @OsshStream.flushOut_takes origin 100 [.fails] rfl (by decide) (by omega)
    (List.length_pos_iff.mp (by omega)) with ⟨between, flush, empty, writes⟩
  have first := untouched_of_flushed (OsshStream.flushOut_flushed flush)
  have line : writer.drain (some (.ident, origin.c2s)) identLine =
      ((origin.c2s.apply identLine).1, some (.kex, (origin.c2s.apply identLine).2), []) := by
    have found : findCrlf identLine = some 9 := rfl
    rw [drain_found found]
    change (_ ++ (writer.drain _ []).1, (writer.drain _ []).2) = _
    rw [Transducer.drain_none (Transducer.next_nil writer _), List.append_nil]
    rfl
  let written : OsshStream := { between with
    wstate := .kex
    c2s := (origin.c2s.apply identLine).2
    wbuf := []
    wout := between.wout ++ (origin.c2s.apply identLine).1 }
  have ran : OsshStream.processWrite { between with wbuf := between.wbuf ++ identLine } =
      .ok written := by
    rw [OsshStream.processWrite_eq]
    dsimp only
    rw [first.wstate, first.c2s, first.wbuf]
    change OsshStream.settle _ (writer.drain (some (.ident, origin.c2s)) identLine) = _
    rw [line]
    rfl
  have waiting : written.wout ≠ [] := by
    rw [← List.length_pos_iff]
    change 0 < (between.wout ++ (origin.c2s.apply identLine).1).length
    rw [empty, List.nil_append, Rc4.apply_length]
    decide
  have refused : written.flushOut = (.ready (.error .inner), written.answered []) := by
    change OsshStream.flushOn between.inner.writes written = _
    rw [writes, OsshStream.flushOn_cons waiting]
  refine ⟨.inner, written.answered [], ?_, ?_⟩
  · change origin.pollWrite identLine = _
    rw [OsshStream.pollWrite_ready flush, ran]
    dsimp only [Except.map]
    rw [refused]
    rfl
  · exact fun same => nomatch same

end Unroxy.Ssh
