import Unroxy.Lib.Loop
import Unroxy.Ssh.OsshWrite

/-!
Owns that the loops of an `OsshStream` come to an end.

The turns of the loops are written here with every `split_to` and every index
checked. From any state and with any bytes before them the loops stop by
themselves, with what the model returns.
-/

namespace Unroxy.Ssh

open Unroxy.Lib

/-! ### Turns, checked -/

/-- `BytesMut::split_to`. -/
def splitTo (bytes : Bytes) (count : Nat) : Checked (Bytes × Bytes) :=
  if count ≤ bytes.length then .ok (bytes.take count, bytes.drop count) else .error .outOfRange

theorem splitTo_of_le {bytes : Bytes} {count : Nat} (within : count ≤ bytes.length) :
    splitTo bytes count = .ok (bytes.take count, bytes.drop count) :=
  if_pos within

namespace OsshStream

/-- The part of `process_write` that is about the identification line. -/
def writeLine (self : OsshStream) : Checked OsshStream :=
  match self.wstate, findCrlf self.wbuf with
  | .ident, some index => do
      let (line, wbuf) ← splitTo self.wbuf (index + 2)
      let (line, c2s) := self.c2s.apply line
      return { self with wbuf, c2s, wout := self.wout ++ line, wstate := .kex }
  | _, _ => return self

/-- A turn of the loop of `process_write`: whether the loop goes on. -/
def writeTurn (self : OsshStream) : Checked (Bool × OsshStream) := do
  if self.wbuf.length < 5 then
    return (false, self)
  else
    let packetLength ← lengthField self.wbuf
    if ¬ (1 ≤ packetLength ∧ packetLength ≤ maxPacket) then
      return (false, self)
    else
      let total := packetLength + 4
      if self.wbuf.length < total then
        return (false, self)
      else
        let (packet, wbuf) ← splitTo self.wbuf total
        let kind ← index packet 5
        let (packet, c2s) := self.c2s.apply packet
        let self := { self with wbuf, c2s, wout := self.wout ++ packet }
        if kind = msgNewkeys then
          return (false, { self with wstate := .done })
        else
          return (true, self)

/-- The end of a turn of `process_read` in the key exchange. -/
def bodyRest (self : OsshStream) (header : Bytes) (remaining : Nat) :
    Checked (Bool × OsshStream) := do
  if self.rin.length < remaining then
    return (false, { self with kexPrefix := some (header, remaining) })
  else
    let (rest, rin) ← splitTo self.rin remaining
    let (rest, s2c) := self.s2c.apply rest
    let packet := header ++ rest
    let normalized ← normalizePacket packet
    let self := { self with kexPrefix := none, rin, s2c, rbuf := self.rbuf ++ normalized }
    if packet[5]? = some msgNewkeys then
      return (false, { self with rstate := .done })
    else
      return (true, self)

/-- A turn of the loop of `process_read`: whether the loop goes on. -/
def bodyTurn (self : OsshStream) : Checked (Bool × OsshStream) :=
  match self.rstate with
  | .ident => do
      if self.rin.isEmpty then
        return (false, self)
      else
        let byte ← index self.rin 0
        let (_, rin) ← splitTo self.rin 1
        let (plain, s2c) := self.s2c.apply [byte]
        let rline := self.rline ++ plain
        let self := { self with rin, s2c, rline }
        if rline.length > maxLine then
          return (true, { self with rline := [] })
        else if crlf.isSuffixOf rline then
          if sshMark.isPrefixOf rline then
            return (false, { self with rbuf := self.rbuf ++ rline, rline := [], rstate := .kex })
          else
            return (true, { self with rline := [] })
        else
          return (true, self)
  | .kex =>
      match self.kexPrefix with
      | some (header, remaining) => self.bodyRest header remaining
      | none => do
          if self.rin.length < 5 then
            return (false, self)
          else
            let (header, rin) ← splitTo self.rin 5
            let (header, s2c) := self.s2c.apply header
            let self := { self with rin, s2c }
            let packetLength ← lengthField header
            if ¬ (1 ≤ packetLength ∧ packetLength ≤ maxPacket) then
              return (false, self)
            else
              self.bodyRest header (packetLength - 1)
  | .done => return (false, self)

/-- A turn of the loop of `normalize_packet`. -/
def padTurn (payloadLen newPadding : Nat) : Checked (Bool × Nat) :=
  if (payloadLen + 1 + newPadding + 4) % 8 = 0 then .ok (false, newPadding)
  else .ok (true, newPadding + 1)

/-! ### The loops -/

variable {self after : OsshStream}

theorem writeLine_eq (self : OsshStream) : self.writeLine = .ok self.writeIdent := by
  rw [writeLine, writeIdent]
  cases self.wstate with
  | ident =>
      cases found : findCrlf self.wbuf with
      | none => rfl
      | some position =>
          dsimp only
          rw [splitTo_of_le (findCrlf_le found)]
          rfl
  | kex => rfl
  | done => rfl

theorem writeKex_eq (fuel : Nat) : ∀ self : OsshStream, writeKex fuel self =
    iterate writeTurn fuel self := by
  induction fuel with
  | zero => exact fun _ => rfl
  | succ fuel inductionHypothesis =>
      intro self
      rw [writeKex, iterate, writeTurn]
      split
      case isTrue => rfl
      case isFalse enough =>
        cases field : lengthField self.wbuf with
        | error failure => rfl
        | ok length =>
            dsimp only [bind, Except.bind]
            split
            case isTrue => rfl
            case isFalse valid =>
              split
              case isTrue => rfl
              case isFalse whole =>
                rw [splitTo_of_le (Nat.not_lt.mp whole)]
                dsimp only
                cases index (self.wbuf.take (length + 4)) 5 with
                | error failure => rfl
                | ok kind =>
                    dsimp only
                    split
                    case isTrue => rfl
                    case isFalse => exact inductionHypothesis _

theorem bodyRest_eq (self : OsshStream) (header : Bytes) (remaining : Nat) :
    self.bodyRest header remaining = self.readRest header remaining := by
  rw [bodyRest, readRest]
  split
  case isTrue => rfl
  case isFalse enough =>
    rw [splitTo_of_le (Nat.not_lt.mp enough)]
    rfl

theorem bodyTurn_eq (self : OsshStream) : self.bodyTurn = self.readTurn := by
  rw [bodyTurn, readTurn]
  cases self.rstate with
  | ident =>
      dsimp only
      cases input : self.rin with
      | nil => rfl
      | cons byte rest => rfl
  | kex =>
      dsimp only
      cases self.kexPrefix with
      | some held => exact bodyRest_eq self held.1 held.2
      | none =>
          dsimp only
          split
          case isTrue => rfl
          case isFalse five =>
            rw [splitTo_of_le (Nat.not_lt.mp five)]
            simp only [bodyRest_eq]
            rfl
  | done => rfl

theorem readTurns_eq (fuel : Nat) : ∀ self : OsshStream, readTurns fuel self =
    iterate bodyTurn fuel self := by
  induction fuel with
  | zero => exact fun _ => rfl
  | succ fuel inductionHypothesis =>
      intro self
      rw [readTurns, iterate, bodyTurn_eq]
      cases self.readTurn with
      | error failure => rfl
      | ok result =>
          rcases result with ⟨again, after⟩
          cases again with
          | false => rfl
          | true => exact inductionHypothesis after

theorem writeTurn_measured : Measured writeTurn fun self => self.wbuf.length where
  lowers := by
    intro self after ran
    rw [writeTurn] at ran
    split at ran
    case isTrue => cases ran
    case isFalse enough =>
      rcases bind_ok ran with ⟨length, field, ran⟩
      split at ran
      case isTrue => cases ran
      case isFalse valid =>
        dsimp only at ran
        split at ran
        case isTrue => cases ran
        case isFalse whole =>
          rcases bind_ok ran with ⟨⟨packet, wbuf⟩, parts, ran⟩
          rcases bind_ok ran with ⟨kind, read, ran⟩
          rw [splitTo_of_le (Nat.not_lt.mp whole)] at parts
          cases parts
          dsimp only at ran
          split at ran
          case isTrue => cases ran
          case isFalse =>
            cases ran
            change (self.wbuf.drop (length + 4)).length < _
            rw [List.length_drop]
            omega
  idle := by
    intro self nothing
    rw [writeTurn, if_pos (by omega)]
    rfl

/-- What `process_read` has before it: the bytes, and the packet it is in. -/
def ahead (self : OsshStream) : Nat :=
  self.rin.length + if self.kexPrefix.isSome then 1 else 0

private theorem readRest_shorter {header : Bytes} {remaining : Nat}
    (ran : self.readRest header remaining = .ok (true, after)) :
    after.kexPrefix = none ∧ after.rin.length ≤ self.rin.length := by
  rw [readRest] at ran
  split at ran
  case isTrue => cases ran
  case isFalse enough =>
    rcases bind_ok ran with ⟨packet, normalizes, ran⟩
    dsimp only at ran
    split at ran
    case isTrue => cases ran
    case isFalse =>
      cases ran
      refine ⟨rfl, ?_⟩
      change (self.rin.drop remaining).length ≤ _
      rw [List.length_drop]
      exact Nat.sub_le _ _

/-- In a line a byte is taken. -/
private theorem readIdent_lowers (ident : self.rstate = .ident)
    (ran : self.readTurn = .ok (true, after)) : after.ahead < self.ahead := by
  rw [readTurn, ident] at ran
  cases input : self.rin with
  | nil =>
      rw [input] at ran
      cases ran
  | cons byte rest =>
      rw [input] at ran
      dsimp only at ran
      have less : after.rin = rest ∧ after.kexPrefix = self.kexPrefix := by
        split at ran
        · cases ran
          exact ⟨rfl, rfl⟩
        · split at ran
          · split at ran
            · cases ran
            · cases ran
              exact ⟨rfl, rfl⟩
          · cases ran
            exact ⟨rfl, rfl⟩
      rw [ahead, ahead, less.1, less.2, input, List.length_cons]
      omega

/-- In the key exchange the packet ends, and its beginning is taken if it has not
been. -/
private theorem readKex_lowers (kex : self.rstate = .kex)
    (ran : self.readTurn = .ok (true, after)) : after.ahead < self.ahead := by
  rw [readTurn, kex] at ran
  cases held : self.kexPrefix with
  | some begun =>
      rw [held] at ran
      have less := readRest_shorter ran
      rw [ahead, ahead, less.1, held]
      simp
      omega
  | none =>
      rw [held] at ran
      dsimp only at ran
      split at ran
      case isTrue => cases ran
      case isFalse five =>
        rcases bind_ok ran with ⟨length, field, ran⟩
        split at ran
        case isTrue => cases ran
        case isFalse =>
          have less := readRest_shorter ran
          have shorter : (self.rin.drop 5).length < self.rin.length := by
            rw [List.length_drop]
            omega
          rw [ahead, ahead, less.1, held]
          exact Nat.lt_of_le_of_lt less.2 shorter

theorem bodyTurn_measured : Measured bodyTurn ahead where
  lowers := by
    intro self after ran
    rw [bodyTurn_eq] at ran
    cases state : self.rstate with
    | ident => exact readIdent_lowers state ran
    | kex => exact readKex_lowers state ran
    | done =>
        rw [readTurn, state] at ran
        cases ran
  idle := by
    intro self nothing
    rw [ahead] at nothing
    have empty : self.rin = [] := List.length_eq_zero_iff.mp (by omega)
    have idle : self.kexPrefix = none := by
      cases held : self.kexPrefix with
      | none => rfl
      | some begun =>
          rw [held] at nothing
          simp at nothing
    rw [bodyTurn_eq, readTurn]
    cases self.rstate with
    | ident =>
        rw [empty]
        rfl
    | kex =>
        dsimp only
        rw [idle]
        dsimp only
        rw [if_pos (by rw [empty]; decide)]
        rfl
    | done => rfl

theorem padTurn_measured (payloadLen : Nat) :
    Measured (padTurn payloadLen) fun newPadding =>
      (8 - (payloadLen + 1 + newPadding + 4) % 8) % 8 where
  lowers := by
    intro newPadding after ran
    rw [padTurn] at ran
    split at ran
    case isTrue => cases ran
    case isFalse uneven =>
      cases ran
      omega
  idle := by
    intro newPadding even
    exact if_pos (by omega)

theorem growPadding_eq (payloadLen fuel : Nat) :
    ∀ newPadding, .ok (growPadding payloadLen fuel newPadding) =
      iterate (padTurn payloadLen) fuel newPadding := by
  induction fuel with
  | zero => exact fun _ => rfl
  | succ fuel inductionHypothesis =>
      intro newPadding
      rw [growPadding, iterate, padTurn]
      split
      case isTrue => rfl
      case isFalse => exact inductionHypothesis _

/-- The loops of `process_write`, `process_read` and `normalize_packet` come to
an end from this state. -/
structure Ends (self : OsshStream) : Prop where
  line : self.writeLine = .ok self.writeIdent
  write : Loop writeTurn self.writeIdent
    (writeKex self.writeIdent.wbuf.length self.writeIdent)
  read : Loop bodyTurn self self.processRead
  pad : ∀ payloadLen, Loop (padTurn payloadLen) 4 (.ok (growPadding payloadLen 8 4))

theorem ends (self : OsshStream) : self.Ends where
  line := self.writeLine_eq
  write := by
    rw [writeKex_eq]
    exact loop_iterate writeTurn_measured _ (Nat.le_refl _)
  read := by
    rw [processRead, readTurns_eq]
    refine loop_iterate bodyTurn_measured _ ?_
    rw [ahead]
    split <;> omega
  pad := by
    intro payloadLen
    rw [growPadding_eq]
    exact loop_iterate (padTurn_measured payloadLen) _ (by omega)

end OsshStream

end Unroxy.Ssh
