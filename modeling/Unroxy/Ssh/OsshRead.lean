import Unroxy.Ssh.OsshWrite

/-!
Owns what a reader gets from an `OsshStream`.

`reader` is the machine behind `process_read`: its units are single bytes of the
lines before the key exchange, then the two parts of a packet, then single bytes
again. The code does not drain it at once but stops where it has something to
hand out, so the invariant is about what is still to come: what was returned,
what is in `rbuf` and what the machine will make of the rest of the stream add
up to the same bytes at any time.
-/

namespace Unroxy.Ssh

open Unroxy.Lib

/-! ### Packets -/

/-- The length field of a packet that starts like this, if it is acceptable. -/
def headerLength (header : Bytes) : Option Nat :=
  match u32FromBe (header.take 4) with
  | none => none
  | some length =>
      if 1 ≤ length.toNat ∧ length.toNat ≤ maxPacket then some length.toNat else none

theorem headerLength_bounds {header : Bytes} {length : Nat}
    (read : headerLength header = some length) : 1 ≤ length ∧ length ≤ maxPacket := by
  unfold headerLength at read
  split at read
  · cases read
  · split at read
    · next valid =>
        rw [Option.some.injEq] at read
        exact read ▸ valid
    · cases read

/-- What `normalize_packet` makes of a packet. -/
def normalized (packet : Bytes) : Bytes :=
  plainPacket ((packet.drop 5).take
    (((u32FromBe (packet.take 4)).getD 0).toNat - ((packet.getD 4 0).toNat + 1)))

theorem normalizePacket_eq {packet : Bytes} (five : 5 ≤ packet.length) :
    normalizePacket packet = .ok (normalized packet) := by
  obtain ⟨length, read, field⟩ := OsshStream.lengthField_eq (Nat.le_trans (by decide) five)
  have padding : index packet 4 = .ok (packet.getD 4 0) := by
    rw [index_of_lt (by omega), List.getD_eq_getElem?_getD, List.getElem?_eq_getElem (by omega)]
    rfl
  have payload : slice packet 5
      (min (5 + (length.toNat - ((packet.getD 4 0).toNat + 1))) packet.length) =
      .ok ((packet.drop 5).take (length.toNat - ((packet.getD 4 0).toNat + 1))) := by
    rw [slice_of_le (by omega) (Nat.min_le_right _ _), Except.ok.injEq, List.take_eq_take_iff,
      List.length_drop]
    omega
  rw [normalizePacket, field]
  change (do
    let paddingLength := (← index packet 4).toNat
    let payload ← slice packet 5 (min (5 + (length.toNat - (paddingLength + 1))) packet.length)
    return plainPacket payload) = _
  rw [padding]
  change (do
    let payload ← slice packet 5
      (min (5 + (length.toNat - ((packet.getD 4 0).toNat + 1))) packet.length)
    return plainPacket payload) = _
  rw [payload, normalized, read]
  rfl

/-! ### The machine behind `process_read` -/

inductive ReadMode where
  /-- In a line, of which this much has been read. -/
  | ident (line : Bytes)
  | kex
  /-- In a packet, behind its decrypted beginning. -/
  | packet (header : Bytes) (remaining : Nat)
  | done

abbrev Reader := ReadMode × Rc4

def readAhead : Reader → Bytes → Option Nat
  | (.ident _, _), input => if input.isEmpty then none else some 1
  | (.kex, s2c), input =>
      if 5 ≤ input.length ∧ (headerLength (s2c.apply (input.take 5)).1).isSome then some 5 else none
  | (.packet _ remaining, _), input =>
      if 0 < remaining ∧ remaining ≤ input.length then some remaining else none
  | (.done, _), input => if input.isEmpty then none else some 1

/-- A line that has grown by a byte. -/
def readLine (line : Bytes) (s2c : Rc4) : Bytes × Reader :=
  if line.length > maxLine then ([], .ident [], s2c)
  else if crlf.isSuffixOf line then
    if sshMark.isPrefixOf line then (line, .kex, s2c) else ([], .ident [], s2c)
  else ([], .ident line, s2c)

/-- A packet that is complete. -/
def readPacket (packet : Bytes) (s2c : Rc4) : Bytes × Reader :=
  (normalized packet, if packet[5]? = some msgNewkeys then .done else .kex, s2c)

def readUnit : Reader → Bytes → Bytes × Reader
  | (.ident line, s2c), byte => readLine (line ++ (s2c.apply byte).1) (s2c.apply byte).2
  | (.kex, s2c), header =>
      match headerLength (s2c.apply header).1 with
      | none => ([], .kex, s2c)
      | some length =>
          if length = 1 then readPacket (s2c.apply header).1 (s2c.apply header).2
          else ([], .packet (s2c.apply header).1 (length - 1), (s2c.apply header).2)
  | (.packet header _, s2c), rest => readPacket (header ++ (s2c.apply rest).1) (s2c.apply rest).2
  | (.done, s2c), bytes => (bytes, .done, s2c)

def reader : Transducer Reader UInt8 UInt8 where
  ahead := readAhead
  act := readUnit
  within := by
    intro state input size found
    match state with
    | (.ident _, _) => exact Transducer.within_one found
    | (.kex, s2c) =>
        rw [readAhead] at found
        split at found
        · next fits =>
            cases found
            exact ⟨by decide, fits.1⟩
        · cases found
    | (.packet header remaining, s2c) =>
        rw [readAhead] at found
        split at found
        · next fits =>
            cases found
            exact fits
        · cases found
    | (.done, _) => exact Transducer.within_one found
  stable := by
    intro state input size found more
    match state with
    | (.ident _, _) => exact Transducer.stable_one found more
    | (.kex, s2c) =>
        rw [readAhead] at found ⊢
        split at found
        · next fits =>
            rw [List.length_append, List.take_append_of_le_length fits.1,
              if_pos ⟨Nat.le_add_right_of_le fits.1, fits.2⟩, found]
        · cases found
    | (.packet header remaining, s2c) =>
        rw [readAhead] at found ⊢
        split at found
        · next fits =>
            rw [List.length_append, if_pos ⟨fits.1, Nat.le_add_right_of_le fits.2⟩, found]
        · cases found
    | (.done, _) => exact Transducer.stable_one found more

namespace OsshStream

/-- Where the machine is. -/
def mode (self : OsshStream) : ReadMode :=
  match self.rstate with
  | .ident => .ident self.rline
  | .done => .done
  | .kex =>
      match self.kexPrefix with
      | none => .kex
      | some (header, remaining) => .packet header remaining

theorem mode_done {self : OsshStream} (done : self.rstate = .done) : self.mode = .done := by
  rw [mode, done]

/-- What is in `kex_prefix` is the beginning of a packet that goes on. -/
def Begun (self : OsshStream) : Prop :=
  ∀ header remaining, self.kexPrefix = some (header, remaining) →
    self.rstate = .kex ∧ header.length = 5 ∧ 0 < remaining

/-- With this input still to come, the machine will put this out and leave
nothing. -/
structure Facing (future output : Bytes) (stream : OsshStream) : Prop where
  begun : ∀ header remaining, stream.kexPrefix = some (header, remaining) →
    stream.rstate = .kex ∧ header.length = 5 ∧ 0 < remaining
  drained : ∃ last, reader.drain (stream.mode, stream.s2c) (stream.rin ++ future) =
    (output, last, [])

/-- Without more input the code has nothing to do. -/
def Resting (self : OsshStream) : Prop :=
  self.rbuf ≠ [] ∨ self.rstate = .done ∨ reader.ahead (self.mode, self.s2c) self.rin = none

/-! ### Turns of `process_read` -/

/-- The code has done what the machine does. -/
structure Follows (before after : OsshStream) : Prop where
  begun : after.Begun
  inner : after.inner = before.inner
  output : ∃ output, reader.Reaches (before.mode, before.s2c) before.rin output
      (after.mode, after.s2c) after.rin ∧
    after.rbuf = before.rbuf ++ output

/-- The length field of the next packet is not acceptable, and the beginning of
the packet has been dropped. -/
structure Skipped (before after : OsshStream) : Prop where
  kex : before.rstate = .kex
  idle : before.kexPrefix = none
  five : 5 ≤ before.rin.length
  corrupt : headerLength (before.s2c.apply (before.rin.take 5)).1 = none
  same : after = { before with
    rin := before.rin.drop 5, s2c := (before.s2c.apply (before.rin.take 5)).2 }

/-- There is no unit to take, be its length field acceptable or not. -/
def Lacking (self : OsshStream) : Prop :=
  (self.mode = .kex → self.rin.length < 5) ∧
    reader.ahead (self.mode, self.s2c) self.rin = none

/-- What a turn of the loop does, and whether the loop goes on. -/
inductive Turned (before : OsshStream) : Bool → OsshStream → Prop where
  | goesOn {after : OsshStream} (follows : before.Follows after)
      (shorter : after.rin.length < before.rin.length) : Turned before true after
  | stops {after : OsshStream} (follows : before.Follows after)
      (rests : after.rbuf ≠ [] ∨ after.rstate = .done ∨ after.Lacking) : Turned before false after
  | skips {after : OsshStream} (skipped : before.Skipped after) : Turned before false after

variable {future output : Bytes} {self after : OsshStream}

theorem Follows.refl (begun : self.Begun) : self.Follows self :=
  ⟨begun, rfl, [], .here _ _, (List.append_nil _).symm⟩

theorem Follows.trans {between : OsshStream} (first : self.Follows between)
    (second : between.Follows after) : self.Follows after := by
  rcases first.output with ⟨output, reached, put⟩
  rcases second.output with ⟨more, reached', put'⟩
  refine ⟨second.begun, second.inner.trans first.inner, output ++ more, reached.trans reached', ?_⟩
  rw [put', put, List.append_assoc]

/-- A turn of the machine. -/
private theorem Follows.one {size : Nat}
    (found : reader.ahead (self.mode, self.s2c) self.rin = some size) {output : Bytes}
    (acts : reader.act (self.mode, self.s2c) (self.rin.take size) =
      (output, after.mode, after.s2c))
    (rest : after.rin = self.rin.drop size) (begun : after.Begun)
    (inner : after.inner = self.inner) (rbuf : after.rbuf = self.rbuf ++ output) :
    self.Follows after := by
  refine ⟨begun, inner, output, ?_, rbuf⟩
  rw [rest]
  exact .one found acts

private theorem readIdent_turned (begun : self.Begun) (ident : self.rstate = .ident) :
    ∃ again after, self.readTurn = .ok (again, after) ∧ self.Turned again after := by
  have mode : self.mode = .ident self.rline := by rw [OsshStream.mode, ident]
  have idle : self.kexPrefix = none := by
    cases held : self.kexPrefix with
    | none => rfl
    | some found =>
        have state := (begun found.1 found.2 held).1
        rw [ident] at state
        cases state
  cases input : self.rin with
  | nil =>
      refine ⟨false, self, ?_, .stops (.refl begun) (.inr (.inr ⟨?_, ?_⟩))⟩
      · rw [readTurn, ident, input]
        rfl
      · intro kex
        rw [mode] at kex
        cases kex
      · rw [mode, input]
        rfl
  | cons byte rest =>
      have found : reader.ahead (self.mode, self.s2c) self.rin = some 1 := by
        rw [mode, input]
        rfl
      have acts : reader.act (self.mode, self.s2c) (self.rin.take 1) =
          readLine (self.rline ++ (self.s2c.apply [byte]).1) (self.s2c.apply [byte]).2 := by
        rw [mode, input]
        rfl
      have begun' {stream : OsshStream} (same : stream.kexPrefix = self.kexPrefix) :
          stream.Begun := by
        intro header remaining held
        rw [same, idle] at held
        cases held
      have drop : rest = self.rin.drop 1 := by rw [input]; rfl
      have less : rest.length < self.rin.length := by rw [input]; exact Nat.lt_succ_self _
      rw [readLine] at acts
      rw [readTurn, ident, input]
      dsimp only
      split at acts
      case isTrue long =>
        rw [if_pos long]
        refine ⟨true, _, rfl, .goesOn ?_ less⟩
        exact .one found acts drop (begun' rfl) rfl (List.append_nil _).symm
      case isFalse short =>
        rw [if_neg short]
        split at acts
        case isFalse goesOn =>
          rw [if_neg goesOn]
          refine ⟨true, _, rfl, .goesOn ?_ less⟩
          exact .one found acts drop (begun' rfl) rfl (List.append_nil _).symm
        case isTrue ends =>
          rw [if_pos ends]
          split at acts
          case isFalse other =>
            rw [if_neg other]
            refine ⟨true, _, rfl, .goesOn ?_ less⟩
            exact .one found acts drop (begun' rfl) rfl (List.append_nil _).symm
          case isTrue ssh =>
            rw [if_pos ssh]
            refine ⟨false, _, rfl, .stops (.one found ?_ drop (begun' rfl) rfl rfl) (.inl ?_)⟩
            · rw [acts, OsshStream.mode]
              dsimp only
              rw [idle]
            · rw [← List.length_pos_iff, List.length_append, List.length_append, Rc4.apply_length]
              exact Nat.lt_of_lt_of_le Nat.one_pos (by simp only [List.length_singleton]; omega)

/-- A packet is complete. -/
private theorem readPacket_turned (kex : self.rstate = .kex)
    {size : Nat} (found : reader.ahead (self.mode, self.s2c) self.rin = some size)
    {packet : Bytes} {s2c : Rc4}
    (acts : reader.act (self.mode, self.s2c) (self.rin.take size) = readPacket packet s2c) :
    let base := { self with
      kexPrefix := none
      rin := self.rin.drop size
      s2c
      rbuf := self.rbuf ++ normalized packet }
    ∃ again after,
      (if packet[5]? = some msgNewkeys then .ok (false, { base with rstate := .done })
        else .ok (true, base) : Checked (Bool × OsshStream)) = .ok (again, after) ∧
      self.Turned again after := by
  have bounds := reader.within found
  have less : (self.rin.drop size).length < self.rin.length := by
    rw [List.length_drop]
    omega
  dsimp only
  rw [readPacket] at acts
  split at acts
  case isTrue newkeys =>
    rw [if_pos newkeys]
    refine ⟨false, _, rfl, .stops (.one found acts rfl ?_ rfl rfl) (.inr (.inl rfl))⟩
    intro header remaining held
    cases held
  case isFalse other =>
    rw [if_neg other]
    refine ⟨true, _, rfl, .goesOn (.one found ?_ rfl ?_ rfl rfl) less⟩
    · rw [acts, OsshStream.mode]
      dsimp only
      rw [kex]
    · intro header remaining held
      cases held

private theorem readRest_turned (begun : self.Begun) {header : Bytes} {remaining : Nat}
    (held : self.kexPrefix = some (header, remaining)) :
    ∃ again after, self.readRest header remaining = .ok (again, after) ∧
      self.Turned again after := by
  rcases begun header remaining held with ⟨kex, five, positive⟩
  have mode : self.mode = .packet header remaining := by rw [OsshStream.mode, kex, held]
  rcases Nat.lt_or_ge self.rin.length remaining with short | enough
  · have same : { self with kexPrefix := some (header, remaining) } = self := by rw [← held]
    refine ⟨false, self, ?_, .stops (.refl begun) (.inr (.inr ⟨?_, ?_⟩))⟩
    · rw [readRest, if_pos short, same]
      rfl
    · intro between
      rw [mode] at between
      cases between
    · rw [mode]
      exact if_neg fun fits => Nat.not_le.mpr short fits.2
  · have found : reader.ahead (self.mode, self.s2c) self.rin = some remaining := by
      rw [mode]
      exact if_pos ⟨positive, enough⟩
    have acts : reader.act (self.mode, self.s2c) (self.rin.take remaining) =
        readPacket (header ++ (self.s2c.apply (self.rin.take remaining)).1)
          (self.s2c.apply (self.rin.take remaining)).2 := by
      rw [mode]
      rfl
    have whole : 5 ≤ (header ++ (self.s2c.apply (self.rin.take remaining)).1).length := by
      rw [List.length_append, five]
      exact Nat.le_add_right _ _
    rw [readRest, if_neg (Nat.not_lt.mpr enough)]
    dsimp only
    rw [normalizePacket_eq whole]
    exact readPacket_turned kex found acts

/-- The beginning of a packet is there, with an acceptable length field. -/
private theorem readHeader_turned (kex : self.rstate = .kex)
    (idle : self.kexPrefix = none) (five : 5 ≤ self.rin.length) {length : Nat}
    (valid : headerLength (self.s2c.apply (self.rin.take 5)).1 = some length) :
    ∃ again after,
      { self with
        rin := self.rin.drop 5
        s2c := (self.s2c.apply (self.rin.take 5)).2 }.readRest
        (self.s2c.apply (self.rin.take 5)).1 (length - 1) = .ok (again, after) ∧
      self.Turned again after := by
  have mode : self.mode = .kex := by rw [OsshStream.mode, kex, idle]
  have size : (self.s2c.apply (self.rin.take 5)).1.length = 5 := by
    rw [Rc4.apply_length, List.length_take]
    omega
  have bounds := headerLength_bounds valid
  have found : reader.ahead (self.mode, self.s2c) self.rin = some 5 := by
    rw [mode]
    exact if_pos ⟨five, by rw [valid]; rfl⟩
  have acts : reader.act (self.mode, self.s2c) (self.rin.take 5) =
      if length = 1 then
        readPacket (self.s2c.apply (self.rin.take 5)).1 (self.s2c.apply (self.rin.take 5)).2
      else
        ([], .packet (self.s2c.apply (self.rin.take 5)).1 (length - 1),
          (self.s2c.apply (self.rin.take 5)).2) := by
    rw [mode]
    change readUnit (.kex, self.s2c) (self.rin.take 5) = _
    rw [readUnit, valid]
  by_cases one : length = 1
  · -- The packet is its beginning.
    rw [if_pos one] at acts
    rw [one, readRest, if_neg (Nat.not_lt_zero _)]
    simp only [Nat.sub_self, List.take_zero, Rc4.apply_nil, List.append_nil, List.drop_zero]
    rw [normalizePacket_eq (Nat.le_of_eq size.symm)]
    exact readPacket_turned kex found acts
  · rw [if_neg one] at acts
    let begun : OsshStream := { self with
      rin := self.rin.drop 5
      s2c := (self.s2c.apply (self.rin.take 5)).2
      kexPrefix := some ((self.s2c.apply (self.rin.take 5)).1, length - 1) }
    have begunMode : begun.mode = .packet (self.s2c.apply (self.rin.take 5)).1 (length - 1) := by
      rw [OsshStream.mode]
      dsimp only [begun]
      rw [kex]
    have begunHeld : begun.Begun := by
      intro header remaining held
      cases held
      exact ⟨kex, size, by omega⟩
    have first : self.Follows begun := by
      refine .one found ?_ rfl begunHeld rfl (List.append_nil _).symm
      rw [acts, begunMode]
    have less : begun.rin.length < self.rin.length := by
      change (self.rin.drop 5).length < _
      rw [List.length_drop]
      omega
    rcases readRest_turned begunHeld rfl with ⟨again, after, ran, turned⟩
    refine ⟨again, after, ran, ?_⟩
    cases turned with
    | goesOn follows shorter => exact .goesOn (first.trans follows) (Nat.lt_trans shorter less)
    | stops follows rests => exact .stops (first.trans follows) rests
    | skips skipped =>
        have held := skipped.idle
        cases held

/-- A turn of `process_read`. -/
theorem readTurn_turned (begun : self.Begun) :
    ∃ again after, self.readTurn = .ok (again, after) ∧ self.Turned again after := by
  cases state : self.rstate with
  | ident => exact readIdent_turned begun state
  | done =>
      refine ⟨false, self, ?_, .stops (.refl begun) (.inr (.inl state))⟩
      rw [readTurn, state]
      rfl
  | kex =>
      cases held : self.kexPrefix with
      | some found =>
          rcases readRest_turned begun held with ⟨again, after, ran, turned⟩
          refine ⟨again, after, ?_, turned⟩
          rw [readTurn, state, held]
          exact ran
      | none =>
          rcases Nat.lt_or_ge self.rin.length 5 with short | five
          · refine ⟨false, self, ?_, .stops (.refl begun) (.inr (.inr ⟨fun _ => short, ?_⟩))⟩
            · rw [readTurn, state, held]
              exact if_pos short
            · rw [OsshStream.mode, state, held]
              exact if_neg fun fits => Nat.not_le.mpr short fits.1
          · have size : 4 ≤ (self.s2c.apply (self.rin.take 5)).1.length := by
              rw [Rc4.apply_length, List.length_take]
              omega
            rcases lengthField_eq size with ⟨length, read, field⟩
            rw [readTurn, state, held]
            dsimp only
            rw [if_neg (Nat.not_lt.mpr five), field]
            change ∃ again after, (if ¬ (1 ≤ length.toNat ∧ length.toNat ≤ maxPacket) then _
              else _ : Checked _) = _ ∧ _
            by_cases valid : 1 ≤ length.toNat ∧ length.toNat ≤ maxPacket
            · have measured : headerLength (self.s2c.apply (self.rin.take 5)).1 =
                  some length.toNat := by
                rw [headerLength, read]
                exact if_pos valid
              rcases readHeader_turned state held five measured with ⟨again, after, ran, turned⟩
              refine ⟨again, after, ?_, turned⟩
              rw [state, held] at ran
              rw [if_neg (not_not.mpr valid)]
              exact ran
            · have measured : headerLength (self.s2c.apply (self.rin.take 5)).1 = none := by
                rw [headerLength, read]
                exact if_neg valid
              refine ⟨false, _, if_pos valid, .skips ⟨state, held, five, measured, ?_⟩⟩
              rw [state, held]

/-! ### Streams that are drained -/

/-- What a turn of the code does, and a whole loop of them. -/
structure Advances (future output : Bytes) (before after : OsshStream) : Prop where
  inner : after.inner = before.inner
  output : ∃ output', Facing future output' after ∧ after.rbuf ++ output' = before.rbuf ++ output

private theorem Facing.advances (facing : Facing future output self)
    (follows : self.Follows after) : Advances future output self after := by
  rcases follows.output with ⟨out, reached, put⟩
  rcases facing.drained with ⟨last, drained⟩
  rw [reached.drain] at drained
  rcases later : reader.drain (after.mode, after.s2c) (after.rin ++ future) with
    ⟨output', last', left⟩
  rw [later] at drained
  cases drained
  refine ⟨follows.inner, output', ⟨follows.begun, last, later⟩, ?_⟩
  rw [put, List.append_assoc]

/-- The machine would leave the packet. -/
private theorem Facing.not_skipped (facing : Facing future output self) :
    ¬ self.Skipped after := by
  intro skipped
  have five := skipped.five
  have stuck : reader.ahead (self.mode, self.s2c) (self.rin ++ future) = none := by
    rw [OsshStream.mode, skipped.kex, skipped.idle]
    change (if 5 ≤ _ ∧ (headerLength (self.s2c.apply ((self.rin ++ future).take 5)).1).isSome
      then some 5 else none) = none
    rw [List.take_append_of_le_length five, skipped.corrupt]
    exact if_neg fun fits => Bool.false_ne_true fits.2
  rcases facing.drained with ⟨last, drained⟩
  rw [Transducer.drain_none (reader.next_eq_none.mpr stuck)] at drained
  have nothing := congrArg (fun result => result.2.2.length) drained
  simp only [List.length_append, List.length_nil] at nothing
  omega

/-- All the turns there are. -/
private theorem readTurns_advances (fuel : Nat) :
    ∀ {output : Bytes} {self : OsshStream}, Facing future output self →
      self.rin.length < fuel →
      ∃ after, readTurns fuel self = .ok after ∧ Advances future output self after ∧
        Resting after := by
  induction fuel with
  | zero => exact fun _ none => absurd none (Nat.not_lt_zero _)
  | succ fuel inductionHypothesis =>
      intro output self facing enough
      rcases readTurn_turned facing.begun with ⟨again, between, ran, turned⟩
      rw [readTurns, ran]
      change ∃ after, (if again then readTurns fuel between else .ok between : Checked _) =
        .ok after ∧ _
      cases turned with
      | skips skipped => exact absurd skipped facing.not_skipped
      | stops follows rests =>
          refine ⟨between, rfl, facing.advances follows, ?_⟩
          rcases rests with full | done | lacking
          · exact .inl full
          · exact .inr (.inl done)
          · exact .inr (.inr lacking.2)
      | goesOn follows less =>
          have first := facing.advances follows
          rcases first.output with ⟨output', facing', same⟩
          rcases inductionHypothesis facing' (by omega) with ⟨after, later, advances, rests⟩
          rcases advances.output with ⟨last, reached, sum⟩
          exact ⟨after, later, ⟨advances.inner.trans first.inner, last, reached,
            sum.trans same⟩, rests⟩

private theorem processRead_advances (facing : Facing future output self) :
    ∃ after, self.processRead = .ok after ∧ Advances future output self after ∧ Resting after :=
  readTurns_advances _ facing (by omega)

end OsshStream

/-- In the clear every byte passes. -/
theorem reader_drain_done (s2c : Rc4) (input : Bytes) :
    reader.drain (.done, s2c) input = (input, (.done, s2c), []) :=
  Transducer.drain_passes (fun _ _ => rfl) (fun _ => rfl) input

/-! ### Reading -/

/-- What an answer brings. -/
def ReadAnswer.bytes : ReadAnswer → Bytes
  | .delivers piece => piece.val
  | .pending | .fails => []

/-- What these answers bring. -/
def arriving (reads : List ReadAnswer) : Bytes := reads.flatMap ReadAnswer.bytes

/-- What a `poll_read` put into the buffer. -/
def Poll.put : Poll (Except IoError Bytes) → Bytes
  | .ready (.ok bytes) => bytes
  | .ready (.error _) | .pending => []

namespace OsshStream

variable {later output : Bytes} {self after : OsshStream}

/-- What `poll_read` returns behind `process_read`. -/
inductive Returned (size : Nat) (ready : OsshStream) :
    Poll (Except IoError Bytes) → OsshStream → Prop where
  | handsOut (full : ready.rbuf ≠ []) :
      Returned size ready (.ready (.ok (ready.rbuf.take (min size ready.rbuf.length))))
        { ready with rbuf := ready.rbuf.drop (min size ready.rbuf.length) }
  | waits (empty : ready.rbuf = []) (clear : ¬ (ready.rstate = .done ∧ ready.rin ≠ []))
      (silent : ready.inner.reads = []) : Returned size ready .pending ready
  | answers (empty : ready.rbuf = []) {answer : ReadAnswer} {reads : List ReadAnswer}
      (script : ready.inner.reads = answer :: reads) (nothing : answer.bytes = [])
      {poll : Poll (Except IoError Bytes)} (put : poll.put = []) :
      Returned size ready poll { ready with inner := { ready.inner with reads } }

/-- How the loop of `poll_read` goes on behind `process_read`. -/
inductive WentOn (ready : OsshStream) : OsshStream → Prop where
  | clears (empty : ready.rbuf = []) (done : ready.rstate = .done) (more : ready.rin ≠ []) :
      WentOn ready { ready with rbuf := ready.rbuf ++ ready.rin, rin := [] }
  | receives (empty : ready.rbuf = []) {piece : { bytes : Bytes // bytes.length ≤ readSize }}
      {reads : List ReadAnswer} (script : ready.inner.reads = .delivers piece :: reads) :
      WentOn ready { ready with
        inner := { ready.inner with reads }, rin := ready.rin ++ piece.val }

/-- A turn of the loop of `poll_read`. -/
theorem readPolls_turn {ready : OsshStream} (ran : self.processRead = .ok ready) (size fuel : Nat) :
    (∃ poll after, readPolls size (fuel + 1) self = .ok (poll, after) ∧
      Returned size ready poll after) ∨
    ∃ between, readPolls size (fuel + 1) self = readPolls size fuel between ∧
      WentOn ready between := by
  rw [readPolls, ran]
  change (∃ poll after, (if ¬ ready.rbuf.isEmpty then _ else _ : Checked _) = _ ∧ _) ∨
    ∃ between, (if ¬ ready.rbuf.isEmpty then _ else _ : Checked _) = _ ∧ _
  by_cases empty : ready.rbuf = []
  case neg =>
    rw [if_pos (by simpa using empty)]
    exact .inl ⟨_, _, rfl, .handsOut empty⟩
  case pos =>
    rw [if_neg (by simpa using empty)]
    by_cases clear : ready.rstate = .done ∧ ready.rin ≠ []
    case pos =>
      rw [if_pos (by simpa using clear)]
      exact .inr ⟨_, rfl, .clears empty clear.1 clear.2⟩
    case neg =>
      rw [if_neg (by simpa using clear)]
      cases script : ready.inner.reads with
      | nil => exact .inl ⟨_, _, rfl, .waits empty clear script⟩
      | cons answer reads =>
          cases answer with
          | pending => exact .inl ⟨_, _, rfl, .answers empty script rfl rfl⟩
          | fails => exact .inl ⟨_, _, rfl, .answers empty script rfl rfl⟩
          | delivers piece =>
              dsimp only
              by_cases closed : piece.val = []
              case pos =>
                rw [if_pos (by simpa using closed)]
                exact .inl ⟨_, _, rfl, .answers empty script closed rfl⟩
              case neg =>
                rw [if_neg (by simpa using closed)]
                exact .inr ⟨_, rfl, .receives empty script⟩

theorem processRead_done (done : self.rstate = .done) : self.processRead = .ok self := by
  have turn : self.readTurn = .ok (false, self) := by
    rw [readTurn, done]
    rfl
  rw [processRead, readTurns, turn]
  rfl

private theorem readPolls_rule (fuel : Nat) {size : Nat} {starts : OsshStream → Prop}
    {ends : Poll (Except IoError Bytes) → OsshStream → Prop}
    (turn : ∀ self, starts self → ∃ ready, self.processRead = .ok ready ∧
      ready.inner = self.inner ∧
      (∀ poll after, Returned size ready poll after → ends poll after) ∧
      ∀ between, WentOn ready between → starts between) :
    ∀ {self : OsshStream}, starts self →
      self.inner.reads.length + 2 ≤ fuel ∨ (self.rbuf ≠ [] ∧ self.rstate = .done ∧ 0 < fuel) →
      ∃ poll after, readPolls size fuel self = .ok (poll, after) ∧ ends poll after := by
  induction fuel with
  | zero =>
      intro self _ enough
      rcases enough with enough | last
      · exact absurd enough (Nat.not_succ_le_zero _)
      · exact absurd last.2.2 (Nat.lt_irrefl 0)
  | succ fuel inductionHypothesis =>
      intro self started enough
      rcases turn self started with ⟨ready, ran, inner, returns, goesOn⟩
      rcases readPolls_turn ran size fuel with
        ⟨poll, after, read, returned⟩ | ⟨between, read, wentOn⟩
      · exact ⟨poll, after, read, returns poll after returned⟩
      · have fuelLeft : between.inner.reads.length + 2 ≤ fuel ∨
            (between.rbuf ≠ [] ∧ between.rstate = .done ∧ 0 < fuel) := by
          rcases enough with enough | ⟨full, done, _⟩
          · rw [← inner] at enough
            cases wentOn with
            | clears empty done more =>
                refine .inr ⟨?_, done, by omega⟩
                rw [empty]
                exact more
            | receives empty script =>
                rw [script, List.length_cons] at enough
                exact .inl (by dsimp only; omega)
          · rw [processRead_done done, Except.ok.injEq] at ran
            subst ran
            cases wentOn with
            | clears empty => exact absurd empty full
            | receives empty => exact absurd empty full
        rw [read]
        exact inductionHypothesis (goesOn between wentOn) fuelLeft

/-- A call of `poll_read`, by what holds at the beginning of every turn of its
loop. -/
theorem pollRead_rule {size : Nat} {starts : OsshStream → Prop}
    {ends : Poll (Except IoError Bytes) → OsshStream → Prop}
    (turn : ∀ self, starts self → ∃ ready, self.processRead = .ok ready ∧
      ready.inner = self.inner ∧
      (∀ poll after, Returned size ready poll after → ends poll after) ∧
      ∀ between, WentOn ready between → starts between)
    (started : starts self) :
    ∃ poll after, self.pollRead size = .ok (poll, after) ∧ ends poll after :=
  readPolls_rule _ turn started (.inl (Nat.le_refl _))

/-- What a `poll_read` does: nothing of what was to come is lost. -/
private structure Polled (later output : Bytes) (size : Nat) (before : OsshStream)
    (poll : Poll (Except IoError Bytes)) (after : OsshStream) : Prop where
  fewer : after.inner.reads.length ≤ before.inner.reads.length
  output : ∃ output', Facing (arriving after.inner.reads ++ later) output' after ∧
    poll.put ++ (after.rbuf ++ output') = before.rbuf ++ output ∧
    (later = [] → 0 < size → poll.put ≠ [] ∨
      after.inner.reads.length < before.inner.reads.length ∨ after.rbuf ++ output' = [])

/-- Nothing is to come any more. -/
private theorem Facing.exhausted (facing : Facing [] output self) (rests : Resting self)
    (empty : self.rbuf = []) (clear : ¬ (self.rstate = .done ∧ self.rin ≠ [])) : output = [] := by
  rcases facing.drained with ⟨last, drained⟩
  rw [List.append_nil] at drained
  rcases rests with full | done | stuck
  · exact absurd empty full
  · have nothing : self.rin = [] := by
      by_contra more
      exact clear ⟨done, more⟩
    rw [nothing, Transducer.drain_none (Transducer.next_nil reader _)] at drained
    exact (Prod.mk.inj drained).1.symm
  · rw [Transducer.drain_none (reader.next_eq_none.mpr stuck)] at drained
    exact (Prod.mk.inj drained).1.symm

/-- What is returned is what was to come. -/
private theorem Advances.returned {before : OsshStream}
    (advances : Advances (arriving before.inner.reads ++ later) output before self)
    (rests : Resting self) {size : Nat} {poll : Poll (Except IoError Bytes)}
    (returned : Returned size self poll after) : Polled later output size before poll after := by
  rcases advances.output with ⟨output', facing, same⟩
  have reads : self.inner.reads = before.inner.reads := by rw [advances.inner]
  rw [← reads] at facing
  cases returned with
  | handsOut full =>
      refine ⟨Nat.le_of_eq (congrArg List.length reads), output',
        ⟨facing.begun, facing.drained⟩, ?_, ?_⟩
      · rw [← same, ← List.append_assoc]
        exact congrArg (· ++ output') (List.take_append_drop _ _)
      · intro _ positive
        refine .inl fun none => ?_
        rcases List.take_eq_nil_iff.mp none with zero | empty
        · have present := List.length_pos_iff.mpr full
          omega
        · exact full empty
  | waits empty clear silent =>
      refine ⟨Nat.le_of_eq (congrArg List.length reads), output', facing, same, ?_⟩
      intro last _
      rw [silent, last] at facing
      rw [empty, facing.exhausted rests empty clear]
      exact .inr (.inr rfl)
  | answers empty script nothing put =>
      have fewer := congrArg List.length reads
      rw [script, List.length_cons] at fewer
      rw [script, arriving, List.flatMap_cons, nothing] at facing
      refine ⟨by dsimp only; omega, output', ⟨facing.begun, facing.drained⟩, ?_, ?_⟩
      · rw [put]
        exact same
      · intro _ _
        refine .inr (.inl ?_)
        dsimp only
        omega

/-- What is to come stays the same when the loop goes on. -/
private theorem Facing.wentOn {ready between : OsshStream}
    (facing : Facing (arriving ready.inner.reads ++ later) output ready)
    (wentOn : WentOn ready between) :
    ∃ output', Facing (arriving between.inner.reads ++ later) output' between ∧
      between.rbuf ++ output' = ready.rbuf ++ output := by
  rcases facing.drained with ⟨last, drained⟩
  cases wentOn with
  | clears empty done more =>
      have cleared : OsshStream.mode { ready with rbuf := ready.rbuf ++ ready.rin, rin := [] } =
          .done := mode_done done
      rw [mode_done done, reader_drain_done] at drained
      refine ⟨arriving ready.inner.reads ++ later, ⟨facing.begun, (.done, ready.s2c), ?_⟩, ?_⟩
      · rw [cleared]
        exact reader_drain_done _ _
      · rw [← (Prod.mk.inj drained).1]
        exact List.append_assoc _ _ _
  | receives empty script =>
      rw [script, arriving, List.flatMap_cons, List.append_assoc] at drained
      refine ⟨output, ⟨facing.begun, last, ?_⟩, rfl⟩
      rw [← drained]
      exact congrArg (reader.drain _) (List.append_assoc _ _ _)

/-- A call of `poll_read`. -/
private theorem pollRead_polled
    (facing : Facing (arriving self.inner.reads ++ later) output self) (size : Nat) :
    ∃ poll after, self.pollRead size = .ok (poll, after) ∧
      Polled later output size self poll after := by
  let starts (stream : OsshStream) : Prop :=
    stream.inner.reads.length ≤ self.inner.reads.length ∧
    ∃ output', Facing (arriving stream.inner.reads ++ later) output' stream ∧
      stream.rbuf ++ output' = self.rbuf ++ output
  refine @pollRead_rule self size starts _ ?_ ?_
  · rintro stream ⟨fewer, output', facing', same⟩
    rcases processRead_advances facing' with ⟨ready, ran, advances, rests⟩
    refine ⟨ready, ran, advances.inner, ?_, ?_⟩
    · intro poll after returned
      have polled := advances.returned rests returned
      rcases polled.output with ⟨last, reached, sum, goesOn⟩
      refine ⟨Nat.le_trans polled.fewer fewer, last, reached, sum.trans same, ?_⟩
      intro whole positive
      rcases goesOn whole positive with put | less | nothing
      · exact .inl put
      · exact .inr (.inl (Nat.lt_of_lt_of_le less fewer))
      · exact .inr (.inr nothing)
    · intro between wentOn
      rcases advances.output with ⟨last, reached, sum⟩
      rw [← advances.inner] at reached
      rcases reached.wentOn wentOn with ⟨last', reached', sum'⟩
      refine ⟨?_, last', reached', sum'.trans (sum.trans same)⟩
      rw [← advances.inner] at fewer
      cases wentOn with
      | clears => exact fewer
      | receives empty script =>
          rw [script, List.length_cons] at fewer
          exact Nat.le_of_succ_le fewer
  · exact ⟨Nat.le_refl _, output, facing, rfl⟩

/-- Calls of `poll_read` with buffers of these sizes: what is put into them. -/
def readAll (self : OsshStream) : List Nat → Checked (Bytes × OsshStream)
  | [] => return ([], self)
  | size :: sizes => do
      let (poll, self) ← self.pollRead size
      let (more, self) ← readAll self sizes
      return (poll.put ++ more, self)

/-- What is put into the buffers is the beginning of what is to come, and all of
it after enough calls. -/
theorem readAll_facing (sizes : List Nat) :
    ∀ {output : Bytes} {self : OsshStream},
      Facing (arriving self.inner.reads ++ later) output self →
      ∃ returned after, self.readAll sizes = .ok (returned, after) ∧
        returned <+: self.rbuf ++ output ∧
        (later = [] →
          self.inner.reads.length + (self.rbuf ++ output).length ≤ sizes.countP (0 < ·) →
          returned = self.rbuf ++ output) := by
  induction sizes with
  | nil =>
      intro output self facing
      refine ⟨[], self, rfl, List.nil_prefix, fun _ enough => ?_⟩
      rw [List.countP_nil] at enough
      exact (List.length_eq_zero_iff.mp (by omega)).symm
  | cons size sizes inductionHypothesis =>
      intro output self facing
      rcases pollRead_polled facing size with ⟨poll, between, polled, spec⟩
      rcases spec.output with ⟨output', facing', same, goesOn⟩
      rcases inductionHypothesis facing' with ⟨more, after, read, starts, whole⟩
      refine ⟨poll.put ++ more, after, ?_, ?_, fun last enough => ?_⟩
      · rw [readAll, polled]
        change (readAll between sizes >>= fun result => pure (poll.put ++ result.1, result.2)) = _
        rw [read]
        rfl
      · rw [← same]
        exact (List.prefix_append_right_inj _).mpr starts
      · rw [← same] at enough ⊢
        rw [List.append_right_inj]
        have fewer := spec.fewer
        have sum := @List.length_append _ poll.put (between.rbuf ++ output')
        rw [List.countP_cons] at enough
        by_cases positive : 0 < size
        case neg =>
          rw [if_neg (by simpa using positive)] at enough
          exact whole last (by omega)
        case pos =>
          rw [if_pos (by simpa using positive)] at enough
          rcases goesOn last positive with put | less | nothing
          · have present := List.length_pos_iff.mpr put
            exact whole last (by omega)
          · exact whole last (by omega)
          · rw [nothing] at starts ⊢
            exact List.prefix_nil.mp starts

end OsshStream

end Unroxy.Ssh
