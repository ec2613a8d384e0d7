import Unroxy.Ssh.OsshRead

/-!
Owns what a reader gets from an `OsshStream`, whatever bytes arrive.

`decoder` is `reader` with one unit more: it drops the beginning of a packet
whose length field is not acceptable, as the code does, and goes on behind it.
What is in `rbuf` and what the decoder will make of the rest of the stream are
the same bytes at any time (`toCome`).
-/

namespace Unroxy.Ssh

open Unroxy.Lib

/-! ### The machine -/

def decodeAhead : Reader → Bytes → Option Nat
  | (.kex, _), input => if 5 ≤ input.length then some 5 else none
  | state, input => readAhead state input

def decodeUnit : Reader → Bytes → Bytes × Reader
  | (.kex, s2c), header =>
      if (headerLength (s2c.apply header).1).isSome then readUnit (.kex, s2c) header
      else ([], .kex, (s2c.apply header).2)
  | state, input => readUnit state input

def decoder : Transducer Reader UInt8 UInt8 where
  ahead := decodeAhead
  act := decodeUnit
  within := by
    intro state input size found
    match state with
    | (.kex, s2c) =>
        rw [decodeAhead] at found
        split at found
        · next five =>
            cases found
            exact ⟨by decide, five⟩
        · cases found
    | (.ident line, s2c) =>
        have same : reader.ahead (.ident line, s2c) input = some size := found
        exact reader.within same
    | (.packet header remaining, s2c) =>
        have same : reader.ahead (.packet header remaining, s2c) input = some size := found
        exact reader.within same
    | (.done, s2c) =>
        have same : reader.ahead (.done, s2c) input = some size := found
        exact reader.within same
  stable := by
    intro state input size found more
    match state with
    | (.kex, s2c) =>
        rw [decodeAhead] at found ⊢
        split at found
        · next five =>
            rw [List.length_append, if_pos (Nat.le_add_right_of_le five), found]
        · cases found
    | (.ident line, s2c) =>
        have same : reader.ahead (.ident line, s2c) input = some size := found
        exact reader.stable same more
    | (.packet header remaining, s2c) =>
        have same : reader.ahead (.packet header remaining, s2c) input = some size := found
        exact reader.stable same more
    | (.done, s2c) =>
        have same : reader.ahead (.done, s2c) input = some size := found
        exact reader.stable same more

/-- On streams that `reader` drains the two are the same. -/
theorem reader_extends_decoder : reader.Extends decoder := by
  intro state input result turn
  match state with
  | (.ident line, s2c) => exact turn
  | (.packet header remaining, s2c) => exact turn
  | (.done, s2c) => exact turn
  | (.kex, s2c) =>
      rw [Transducer.next, Option.map_eq_some_iff] at turn
      rcases turn with ⟨size, found, acts⟩
      change readAhead (.kex, s2c) input = some size at found
      rw [readAhead] at found
      split at found
      · next fits =>
          cases found
          have ahead : decoder.ahead (.kex, s2c) input = some 5 := if_pos fits.1
          have same : decoder.act (.kex, s2c) (input.take 5) = reader.act (.kex, s2c)
            (input.take 5) := if_pos fits.2
          rw [Transducer.next_of_ahead ahead, same, acts]
      · cases found

theorem decoder_drain_done (s2c : Rc4) (input : Bytes) :
    decoder.drain (.done, s2c) input = (input, (.done, s2c), []) :=
  Transducer.drain_passes (fun _ _ => rfl) (fun _ => rfl) input

/-- The beginning of a packet that is dropped. -/
theorem decoder_drain_corrupt {s2c : Rc4} {input : Bytes} (five : 5 ≤ input.length)
    (corrupt : headerLength (s2c.apply (input.take 5)).1 = none) :
    decoder.drain (.kex, s2c) input =
      decoder.drain (.kex, (s2c.apply (input.take 5)).2) (input.drop 5) := by
  have ahead : decoder.ahead (.kex, s2c) input = some 5 := if_pos five
  have acts : decoder.act (.kex, s2c) (input.take 5) =
      ([], .kex, (s2c.apply (input.take 5)).2) := if_neg (by rw [corrupt]; decide)
  have turn := Transducer.next_of_ahead ahead
  rw [acts] at turn
  rw [Transducer.drain_some turn]
  rfl

namespace OsshStream

variable {self after : OsshStream}

/-- What is in `rbuf`, and what the decoder will make of the input that is there
and of this. -/
def toCome (self : OsshStream) (future : Bytes) : Bytes :=
  self.rbuf ++ (decoder.drain (self.mode, self.s2c) (self.rin ++ future)).1

/-! ### Turns -/

theorem Follows.toCome_eq (follows : self.Follows after) (future : Bytes) :
    after.toCome future = self.toCome future := by
  rcases follows.output with ⟨output, reached, put⟩
  have drained := (reached.extended reader_extends_decoder).drain future
  rw [toCome, toCome, drained, put, List.append_assoc]

theorem Skipped.toCome_eq (skipped : self.Skipped after) (future : Bytes) :
    after.toCome future = self.toCome future := by
  have five := skipped.five
  have corrupt := skipped.corrupt
  have before : self.mode = .kex := by rw [OsshStream.mode, skipped.kex, skipped.idle]
  have behind : after.mode = .kex := by
    rw [skipped.same, OsshStream.mode, skipped.kex, skipped.idle]
  have front : (self.rin ++ future).take 5 = self.rin.take 5 :=
    List.take_append_of_le_length five
  have long : 5 ≤ (self.rin ++ future).length := by
    rw [List.length_append]
    exact Nat.le_add_right_of_le five
  rw [← front] at corrupt
  rw [toCome, toCome, before, behind, skipped.same, decoder_drain_corrupt long corrupt, front,
    List.drop_append_of_le_length five]

theorem Skipped.begun (skipped : self.Skipped after) : after.Begun := by
  intro header remaining held
  rw [skipped.same] at held
  change self.kexPrefix = _ at held
  rw [skipped.idle] at held
  cases held

theorem Skipped.shorter (skipped : self.Skipped after) : after.rin.length < self.rin.length := by
  have five := skipped.five
  rw [skipped.same]
  change (self.rin.drop 5).length < _
  rw [List.length_drop]
  omega

theorem Follows.notLonger (follows : self.Follows after) :
    after.rin.length ≤ self.rin.length := by
  rcases follows.output with ⟨output, reached, _⟩
  exact reached.notLonger

/-- What `process_read` does with any bytes. -/
structure Decoded (before after : OsshStream) : Prop where
  begun : after.Begun
  inner : after.inner = before.inner
  toCome : ∀ future, after.toCome future = before.toCome future
  notLonger : after.rin.length ≤ before.rin.length
  settled : after.rbuf ≠ [] ∨ after.rstate = .done ∨ after.Lacking ∨
    after.rin.length < before.rin.length

private theorem readTurns_decoded (fuel : Nat) :
    ∀ {self : OsshStream}, self.Begun → self.rin.length < fuel →
      ∃ after, readTurns fuel self = .ok after ∧ self.Decoded after := by
  induction fuel with
  | zero => exact fun _ none => absurd none (Nat.not_lt_zero _)
  | succ fuel inductionHypothesis =>
      intro self begun enough
      rcases readTurn_turned begun with ⟨again, between, ran, turned⟩
      rw [readTurns, ran]
      change ∃ after, (if again then readTurns fuel between else .ok between : Checked _) =
        .ok after ∧ _
      cases turned with
      | skips skipped =>
          refine ⟨between, rfl, skipped.begun, by rw [skipped.same], skipped.toCome_eq,
            Nat.le_of_lt skipped.shorter, .inr (.inr (.inr skipped.shorter))⟩
      | stops follows rests =>
          refine ⟨between, rfl, follows.begun, follows.inner, follows.toCome_eq,
            follows.notLonger, ?_⟩
          rcases rests with full | done | lacking
          · exact .inl full
          · exact .inr (.inl done)
          · exact .inr (.inr (.inl lacking))
      | goesOn follows shorter =>
          rcases inductionHypothesis follows.begun (by omega) with ⟨after, later, decoded⟩
          have notLonger := decoded.notLonger
          refine ⟨after, later, decoded.begun, decoded.inner.trans follows.inner, ?_, by omega,
            .inr (.inr (.inr (by omega)))⟩
          intro future
          rw [decoded.toCome, follows.toCome_eq]

/-- `process_read` does not panic. -/
theorem processRead_decoded (begun : self.Begun) :
    ∃ after, self.processRead = .ok after ∧ self.Decoded after :=
  readTurns_decoded _ begun (by omega)

/-! ### Calls of `poll_read` -/

/-- What is to come of everything that arrives. -/
def outstanding (self : OsshStream) : Bytes := self.toCome (arriving self.inner.reads)

/-- How much is to be done before nothing is to come. -/
def work (self : OsshStream) : Nat :=
  self.inner.reads.length + (self.rin.length + (arriving self.inner.reads).length)

theorem Lacking.decoder_ahead (lacking : self.Lacking) :
    decoder.ahead (self.mode, self.s2c) self.rin = none := by
  rcases lacking with ⟨short, stuck⟩
  generalize self.mode = mode at short stuck ⊢
  cases mode with
  | ident line => exact stuck
  | kex => exact if_neg (Nat.not_le.mpr (short rfl))
  | packet header remaining => exact stuck
  | done => exact stuck

/-- Nothing is to come where `process_read` has no more to do. -/
private theorem outstanding_eq_nil (empty : self.rbuf = [])
    (clear : ¬ (self.rstate = .done ∧ self.rin ≠ [])) (silent : self.inner.reads = [])
    (rests : self.rstate = .done ∨ self.Lacking) : self.outstanding = [] := by
  have stuck : decoder.next (self.mode, self.s2c) self.rin = none := by
    rcases rests with done | lacking
    · have nothing : self.rin = [] := by
        by_contra more
        exact clear ⟨done, more⟩
      rw [nothing]
      exact Transducer.next_nil decoder _
    · exact decoder.next_eq_none.mpr lacking.decoder_ahead
  rw [outstanding, toCome, silent, empty, arriving, List.flatMap_nil, List.append_nil,
    Transducer.drain_none stuck]
  rfl

/-- What a `poll_read` does with any bytes. -/
structure Read (size : Nat) (before : OsshStream) (poll : Poll (Except IoError Bytes))
    (after : OsshStream) : Prop where
  begun : after.Begun
  outstanding : poll.put ++ after.outstanding = before.outstanding
  notMore : after.work ≤ before.work
  moves : 0 < size → poll.put ≠ [] ∨ after.work < before.work ∨ before.outstanding = []

private theorem Decoded.work_le (decoded : self.Decoded after) : after.work ≤ self.work := by
  have notLonger := decoded.notLonger
  rw [work, work, decoded.inner]
  omega

private theorem Decoded.returned {ready : OsshStream} (decoded : self.Decoded ready) {size : Nat}
    {poll : Poll (Except IoError Bytes)} (returned : Returned size ready poll after) :
    self.Read size poll after := by
  have same : ready.outstanding = self.outstanding := by
    rw [OsshStream.outstanding, decoded.toCome, decoded.inner, OsshStream.outstanding]
  have notMore := decoded.work_le
  cases returned with
  | handsOut full =>
      refine ⟨decoded.begun, ?_, notMore, ?_⟩
      · rw [← same]
        change ready.rbuf.take _ ++ (ready.rbuf.drop _ ++ _) = ready.rbuf ++ _
        rw [← List.append_assoc, List.take_append_drop]
        rfl
      · intro positive
        refine .inl fun none => ?_
        rcases List.take_eq_nil_iff.mp none with zero | empty
        · have present := List.length_pos_iff.mpr full
          omega
        · exact full empty
  | waits empty clear silent =>
      refine ⟨decoded.begun, same, notMore, fun _ => .inr ?_⟩
      rcases decoded.settled with full | done | lacking | shorter
      · exact absurd empty full
      · exact .inr (same ▸ outstanding_eq_nil empty clear silent (.inl done))
      · exact .inr (same ▸ outstanding_eq_nil empty clear silent (.inr lacking))
      · refine .inl ?_
        rw [work, work, decoded.inner]
        omega
  | @answers empty answer reads script nothing poll put =>
      have fewer : reads.length < ready.inner.reads.length := by
        rw [script]
        exact Nat.lt_succ_self _
      have arrives : arriving ready.inner.reads = arriving reads := by
        rw [script, arriving, List.flatMap_cons, nothing]
        rfl
      have less : OsshStream.work { ready with inner := { ready.inner with reads } } <
          ready.work := by
        rw [work, work, arrives]
        dsimp only
        omega
      refine ⟨decoded.begun, ?_, by omega, fun _ => .inr (.inl (by omega))⟩
      rw [put, ← same, OsshStream.outstanding, OsshStream.outstanding, arrives]
      rfl

private theorem WentOn.decoded {ready between : OsshStream} (begun : ready.Begun)
    (wentOn : WentOn ready between) :
    between.Begun ∧ between.outstanding = ready.outstanding ∧ between.work ≤ ready.work := by
  cases wentOn with
  | clears empty done more =>
      have cleared : OsshStream.mode { ready with rbuf := ready.rbuf ++ ready.rin, rin := [] } =
          .done := mode_done done
      refine ⟨begun, ?_, ?_⟩
      · rw [OsshStream.outstanding, OsshStream.outstanding, toCome, toCome, cleared,
          mode_done done, decoder_drain_done, decoder_drain_done]
        exact List.append_assoc _ _ _
      · rw [work, work]
        dsimp only [List.length_nil]
        omega
  | @receives empty piece reads script =>
      have arrives : arriving ready.inner.reads = piece.val ++ arriving reads := by
        rw [script, arriving, List.flatMap_cons]
        rfl
      refine ⟨begun, ?_, ?_⟩
      · rw [OsshStream.outstanding, OsshStream.outstanding, toCome, toCome, arrives,
          ← List.append_assoc]
        rfl
      · rw [work, work, arrives, script, List.length_append, List.length_cons]
        dsimp only
        rw [List.length_append]
        omega

/-- `poll_read` does not panic. -/
theorem pollRead_read (begun : self.Begun) (size : Nat) :
    ∃ poll after, self.pollRead size = .ok (poll, after) ∧ self.Read size poll after := by
  let starts (stream : OsshStream) : Prop :=
    stream.Begun ∧ stream.outstanding = self.outstanding ∧ stream.work ≤ self.work
  refine @pollRead_rule self size starts _ ?_ ?_
  · rintro stream ⟨begun, same, notMore⟩
    rcases processRead_decoded begun with ⟨ready, ran, decoded⟩
    refine ⟨ready, ran, decoded.inner, ?_, ?_⟩
    · intro poll after returned
      have read := decoded.returned returned
      refine ⟨read.begun, read.outstanding.trans same, Nat.le_trans read.notMore notMore, ?_⟩
      intro positive
      rcases read.moves positive with put | less | nothing
      · exact .inl put
      · exact .inr (.inl (Nat.lt_of_lt_of_le less notMore))
      · exact .inr (.inr (same ▸ nothing))
    · intro between wentOn
      rcases WentOn.decoded decoded.begun wentOn with ⟨begun', same', notMore'⟩
      refine ⟨begun', ?_, ?_⟩
      · rw [same', OsshStream.outstanding, decoded.toCome, decoded.inner]
        exact same
      · exact Nat.le_trans notMore' (Nat.le_trans decoded.work_le notMore)
  · exact ⟨begun, rfl, Nat.le_refl _⟩

/-- Whatever the sizes of the buffers, they are filled with the beginning of what
is to come. -/
theorem readAll_outstanding (sizes : List Nat) :
    ∀ {self : OsshStream}, self.Begun → ∃ returned after,
      self.readAll sizes = .ok (returned, after) ∧ returned ++ after.outstanding =
        self.outstanding := by
  induction sizes with
  | nil => exact fun {self} _ => ⟨[], self, rfl, rfl⟩
  | cons size sizes inductionHypothesis =>
      intro self begun
      rcases pollRead_read begun size with ⟨poll, between, polled, read⟩
      rcases inductionHypothesis read.begun with ⟨more, after, later, sum⟩
      refine ⟨poll.put ++ more, after, ?_, ?_⟩
      · rw [readAll, polled]
        change (readAll between sizes >>= fun result => pure (poll.put ++ result.1, result.2)) = _
        rw [later]
        rfl
      · rw [List.append_assoc, sum, read.outstanding]

/-- Enough calls return all of it. -/
theorem readAll_whole (begun : self.Begun) :
    ∃ sizes after, self.readAll sizes = .ok (self.outstanding, after) := by
  induction size : self.work + self.outstanding.length using Nat.strongRecOn
    generalizing self with
  | _ total inductionHypothesis =>
      rcases pollRead_read begun 1 with ⟨poll, between, polled, read⟩
      have sum := congrArg List.length read.outstanding
      have notMore := read.notMore
      rw [List.length_append] at sum
      have go (less : between.work + between.outstanding.length < total) :
          ∃ sizes after, self.readAll sizes = .ok (self.outstanding, after) := by
        rcases inductionHypothesis _ less read.begun rfl with ⟨sizes, after, later⟩
        refine ⟨1 :: sizes, after, ?_⟩
        rw [readAll, polled]
        change (readAll between sizes >>= fun result => pure (poll.put ++ result.1, result.2)) = _
        rw [later, ← read.outstanding]
        rfl
      rcases read.moves Nat.one_pos with put | less | nothing
      · have present := List.length_pos_iff.mpr put
        exact go (by omega)
      · exact go (by omega)
      · exact ⟨[], self, by rw [nothing]; rfl⟩

/-- What is returned is bounded by what is to come, and by nothing less. -/
theorem readAll_within_iff (begun : self.Begun) (limit : Bytes) :
    (∀ sizes returned after, self.readAll sizes = .ok (returned, after) → returned <+: limit) ↔
      self.outstanding <+: limit := by
  constructor
  · intro within
    rcases readAll_whole begun with ⟨sizes, after, read⟩
    exact within sizes _ after read
  · intro within sizes returned after read
    rcases readAll_outstanding sizes begun with ⟨returned', after', read', sum⟩
    rw [read, Except.ok.injEq, Prod.mk.injEq] at read'
    rw [read'.1]
    exact List.IsPrefix.trans ⟨_, sum⟩ within

end OsshStream

end Unroxy.Ssh
