import Unroxy.Lib.Run
import Unroxy.Lib.Transducer
import Unroxy.Ssh.Ossh

/-!
Owns what an `OsshStream` puts on the wire.

`writer` is the machine behind `process_write`: its units are the identification
line, the packets of the key exchange and then single bytes. `processWrite_eq`
says that the code drains it, so the wire does not depend on how the client's
bytes are cut into `poll_write` calls, and `wire_eq` says what is on it.
-/

namespace Unroxy.Ssh

open Unroxy.Lib

/-! ### Units -/

theorem findCrlf_le {input : Bytes} {position : Nat} (found : findCrlf input = some position) :
    position + 2 ≤ input.length := by
  induction input using findCrlf.induct generalizing position with
  | case1 rest =>
      rw [findCrlf, Option.some.injEq] at found
      simp [← found]
  | case2 byte rest other inductionHypothesis =>
      rw [findCrlf, Option.map_eq_some_iff] at found
      · rcases found with ⟨earlier, found, rfl⟩
        have := inductionHypothesis found
        simp only [List.length_cons]
        omega
      · exact other
  | case3 => cases found

theorem findCrlf_append {input : Bytes} {position : Nat} (found : findCrlf input = some position)
    (more : Bytes) : findCrlf (input ++ more) = some position := by
  induction input using findCrlf.induct generalizing position with
  | case1 rest =>
      rw [← found]
      rfl
  | case2 byte rest other inductionHypothesis =>
      rw [findCrlf, Option.map_eq_some_iff] at found
      · rcases found with ⟨earlier, found, rfl⟩
        have later := inductionHypothesis found
        have other' : ∀ behind, byte = 13 → rest ++ more = 10 :: behind → False := by
          intro behind first second
          cases rest with
          | nil => cases found
          | cons head tail =>
              rw [List.cons_append, List.cons.injEq] at second
              exact other tail first (second.1 ▸ rfl)
        rw [List.cons_append, findCrlf, later]
        · rfl
        · exact other'
      · exact other
  | case3 => cases found

/-- How long the packet at the front is, if all of it is there. -/
def packetAhead (input : Bytes) : Option Nat :=
  if input.length < 5 then
    none
  else
    match u32FromBe (input.take 4) with
    | none => none
    | some length =>
        if 1 ≤ length.toNat ∧ length.toNat ≤ maxPacket ∧ length.toNat + 4 ≤ input.length then
          some (length.toNat + 4)
        else
          none

theorem packetAhead_le {input : Bytes} {total : Nat} (found : packetAhead input = some total) :
    5 ≤ total ∧ total ≤ input.length := by
  unfold packetAhead at found
  split at found
  · cases found
  · split at found
    · cases found
    · split at found
      · next fits =>
          rw [Option.some.injEq] at found
          omega
      · cases found

theorem packetAhead_append {input : Bytes} {total : Nat} (found : packetAhead input = some total)
    (more : Bytes) : packetAhead (input ++ more) = some total := by
  have bounds := packetAhead_le found
  unfold packetAhead at found ⊢
  rw [if_neg (by omega)] at found
  rw [List.length_append, if_neg (by omega), List.take_append_of_le_length (by omega)]
  split at found
  · cases found
  · split at found
    · next fits => rw [if_pos (by omega), found]
    · cases found

/-! ### The machine behind `process_write` -/

/-- The state of the writing side; `none` after a panic. -/
abbrev Writer := Option (WriteState × Rc4)

def writeAhead : Writer → Bytes → Option Nat
  | none, _ => none
  | some (.ident, _), input => (findCrlf input).map (· + 2)
  | some (.kex, _), input => packetAhead input
  | some (.done, _), input => if input.isEmpty then none else some 1

def writeUnit : Writer → Bytes → Bytes × Writer
  | none, _ => ([], none)
  | some (.ident, c2s), line => ((c2s.apply line).1, some (.kex, (c2s.apply line).2))
  | some (.kex, c2s), packet =>
      match packet[5]? with
      | none => ([], none)
      | some kind =>
          ((c2s.apply packet).1,
            some (if kind = msgNewkeys then .done else .kex, (c2s.apply packet).2))
  | some (.done, c2s), bytes => (bytes, some (.done, c2s))

def writer : Transducer Writer UInt8 UInt8 where
  ahead := writeAhead
  act := writeUnit
  within := by
    intro state input size found
    match state with
    | some (.ident, c2s) =>
        rw [writeAhead, Option.map_eq_some_iff] at found
        rcases found with ⟨position, found, rfl⟩
        exact ⟨Nat.succ_pos _, findCrlf_le found⟩
    | some (.kex, c2s) =>
        have bounds := packetAhead_le found
        omega
    | some (.done, c2s) => exact Transducer.within_one found
  stable := by
    intro state input size found more
    match state with
    | some (.ident, c2s) =>
        rw [writeAhead, Option.map_eq_some_iff] at found ⊢
        rcases found with ⟨position, found, rfl⟩
        exact ⟨position, findCrlf_append found more, rfl⟩
    | some (.kex, c2s) => exact packetAhead_append found more
    | some (.done, c2s) => exact Transducer.stable_one found more

/-- In the clear every byte passes. -/
theorem writer_drain_done (c2s : Rc4) (input : Bytes) :
    writer.drain (some (.done, c2s)) input = (input, some (.done, c2s), []) :=
  Transducer.drain_passes (fun _ _ => rfl) (fun _ => rfl) input

namespace OsshStream

theorem lengthField_eq {packet : Bytes} (four : 4 ≤ packet.length) :
    ∃ length, u32FromBe (packet.take 4) = some length ∧
      lengthField packet = .ok length.toNat := by
  obtain ⟨length, read⟩ := @u32FromBe_isSome (packet.take 4) (by simp [four])
  refine ⟨length, read, ?_⟩
  rw [lengthField, slice_of_le (Nat.zero_le _) four]
  dsimp only [bind, Except.bind, Nat.sub_zero]
  rw [List.drop_zero, read]
  rfl

/-- A packet has gone from `wbuf` to the wire. -/
private def encrypted (self : OsshStream) (total : Nat) : OsshStream :=
  { self with
    wbuf := self.wbuf.drop total
    c2s := (self.c2s.apply (self.wbuf.take total)).2
    wout := self.wout ++ (self.c2s.apply (self.wbuf.take total)).1 }

private theorem writeKex_succ (fuel : Nat) (self : OsshStream) :
    writeKex (fuel + 1) self =
      match packetAhead self.wbuf with
      | none => .ok self
      | some total =>
          (index (self.wbuf.take total) 5).bind fun kind =>
            if kind = msgNewkeys then .ok { self.encrypted total with wstate := .done }
            else writeKex fuel (self.encrypted total) := by
  rw [writeKex, packetAhead]
  rcases Nat.lt_or_ge self.wbuf.length 5 with short | enough
  · rw [if_pos short, if_pos short]
    rfl
  · obtain ⟨length, read, field⟩ := lengthField_eq (Nat.le_trans (by decide) enough)
    rw [if_neg (Nat.not_lt.mpr enough), if_neg (Nat.not_lt.mpr enough), field, read]
    change (if ¬ (1 ≤ length.toNat ∧ length.toNat ≤ maxPacket) then _ else _ : Checked _) = _
    dsimp only
    split
    case isTrue invalid =>
      rw [if_neg fun fits => invalid ⟨fits.1, fits.2.1⟩]
      rfl
    case isFalse valid =>
      have bounds := not_not.mp valid
      rcases Nat.lt_or_ge self.wbuf.length (length.toNat + 4) with part | whole
      · rw [if_pos part, if_neg fun fits => Nat.not_le.mpr part fits.2.2]
        rfl
      · rw [if_neg (Nat.not_lt.mpr whole), if_pos ⟨bounds.1, bounds.2, whole⟩]
        rfl

/-- The stream once the machine has done this to `wbuf`. -/
def settle (self : OsshStream) : Bytes × Writer × Bytes → Checked OsshStream
  | (_, none, _) => .error .outOfRange
  | (output, some (wstate, c2s), left) =>
      .ok { self with wstate, c2s, wbuf := left, wout := self.wout ++ output }

private theorem settle_after {self later : OsshStream} {output : Bytes}
    (same : later = { self with
      wstate := later.wstate, c2s := later.c2s, wbuf := later.wbuf,
      wout := self.wout ++ output }) (result : Bytes × Writer × Bytes) :
    later.settle result = self.settle (output ++ result.1, result.2) := by
  rcases result with ⟨more, - | ⟨wstate, c2s⟩, left⟩
  · rfl
  · rw [settle, settle, same]
    dsimp only
    rw [List.append_assoc]

private theorem writeDone_settle {self : OsshStream} (done : self.wstate = .done) :
    .ok self.writeDone = self.settle (writer.drain (some (.done, self.c2s)) self.wbuf) := by
  rcases self with ⟨inner, c2s, s2c, wstate, wbuf, wout, rest⟩
  cases done
  rw [writer_drain_done, settle, writeDone]
  cases wbuf with
  | nil => simp
  | cons byte more => rfl

/-- No packet is complete. -/
private theorem settle_stuck {self : OsshStream} (kex : self.wstate = .kex)
    (stuck : packetAhead self.wbuf = none) :
    .ok self.writeDone = self.settle (writer.drain (some (.kex, self.c2s)) self.wbuf) := by
  have stops : writer.next (some (.kex, self.c2s)) self.wbuf = none :=
    writer.next_eq_none.mpr stuck
  rcases self with ⟨inner, c2s, s2c, wstate, wbuf, wout, rest⟩
  cases kex
  rw [Transducer.drain_none stops, settle, writeDone, List.append_nil]
  rfl

private theorem writeKex_settle (fuel : Nat) :
    ∀ {self : OsshStream}, self.wstate = .kex → self.wbuf.length ≤ fuel →
      (writeKex fuel self).map writeDone =
        self.settle (writer.drain (some (.kex, self.c2s)) self.wbuf) := by
  induction fuel with
  | zero =>
      intro self kex nothing
      have stuck : packetAhead self.wbuf = none := if_pos (by omega)
      exact settle_stuck kex stuck
  | succ fuel inductionHypothesis =>
      intro self kex enough
      rw [writeKex_succ]
      cases ahead : packetAhead self.wbuf with
      | none => exact settle_stuck kex ahead
      | some total =>
          have bounds := packetAhead_le ahead
          have found : writer.ahead (some (.kex, self.c2s)) self.wbuf = some total := ahead
          have turn := Transducer.next_of_ahead found
          change writer.next _ _ = some ((writeUnit (some (.kex, self.c2s)) _).1,
            (writeUnit (some (.kex, self.c2s)) _).2, _) at turn
          dsimp only
          rw [writeUnit] at turn
          rw [index]
          cases read : (self.wbuf.take total)[5]? with
          | none =>
              rw [read] at turn
              rw [Transducer.drain_some turn, Transducer.drain_none rfl]
              rfl
          | some kind =>
              rw [read] at turn
              rw [Transducer.drain_some turn, ← @settle_after self (self.encrypted total) _ rfl]
              dsimp only [Except.bind]
              by_cases newkeys : kind = msgNewkeys
              · rw [if_pos newkeys, if_pos newkeys]
                have done := @writeDone_settle { self.encrypted total with wstate := .done } rfl
                exact done
              · rw [if_neg newkeys, if_neg newkeys]
                refine inductionHypothesis kex ?_
                change (self.wbuf.drop total).length ≤ fuel
                rw [List.length_drop]
                omega

/-- `process_write` drains the machine. -/
theorem processWrite_eq (self : OsshStream) :
    self.processWrite = self.settle (writer.drain (some (self.wstate, self.c2s)) self.wbuf) := by
  have kexed {self : OsshStream} (kex : self.wstate = .kex) :
      (do let self ← if self.wstate = .kex then writeKex self.wbuf.length self else pure self
          return self.writeDone) =
        self.settle (writer.drain (some (.kex, self.c2s)) self.wbuf) := by
    rw [if_pos kex, ← writeKex_settle self.wbuf.length kex (Nat.le_refl _)]
    cases writeKex self.wbuf.length self <;> rfl
  cases state : self.wstate with
  | ident =>
      cases found : findCrlf self.wbuf with
      | none =>
          have stops : writer.next (some (.ident, self.c2s)) self.wbuf = none := by
            rw [writer.next_eq_none]
            change (findCrlf self.wbuf).map (· + 2) = none
            rw [found]
            rfl
          have same : self.writeIdent = self := by rw [writeIdent, state, found]
          rcases self with ⟨inner, c2s, s2c, wstate, wbuf, wout, rest⟩
          cases state
          rw [processWrite, same, Transducer.drain_none stops, settle, List.append_nil]
          rfl
      | some position =>
          have ahead : writer.ahead (some (.ident, self.c2s)) self.wbuf = some (position + 2) := by
            change (findCrlf self.wbuf).map (· + 2) = _
            rw [found]
            rfl
          have line : self.writeIdent = { self with
              wbuf := self.wbuf.drop (position + 2)
              c2s := (self.c2s.apply (self.wbuf.take (position + 2))).2
              wout := self.wout ++ (self.c2s.apply (self.wbuf.take (position + 2))).1
              wstate := .kex } := by
            rw [writeIdent, state, found]
          rw [Transducer.drain_some (Transducer.next_of_ahead ahead), processWrite, line]
          rw [kexed rfl]
          exact @settle_after self _ _ rfl _
  | kex =>
      have same : self.writeIdent = self := by rw [writeIdent, state]
      rw [processWrite, same]
      exact kexed state
  | done =>
      have same : self.writeIdent = self := by rw [writeIdent, state]
      rw [processWrite, same, ← writeDone_settle state, if_neg (by rw [state]; decide)]
      rfl

end OsshStream

/-! ### What a client writes -/

/-- An SSH packet by what stands behind its length field. -/
structure SshPacket where
  body : Bytes
  long : 2 ≤ body.length
  short : body.length ≤ maxPacket

namespace SshPacket

def bytes (self : SshPacket) : Bytes :=
  u32ToBe (UInt32.ofNat self.body.length) ++ self.body

/-- The byte behind the padding length. -/
def kind (self : SshPacket) : UInt8 := self.body.getD 1 0

theorem bytes_length (self : SshPacket) : self.bytes.length = self.body.length + 4 := by
  rw [bytes, List.length_append, u32ToBe_length, Nat.add_comm]

theorem toNat_length (self : SshPacket) :
    (UInt32.ofNat self.body.length).toNat = self.body.length := by
  have short := self.short
  apply UInt32.toNat_ofNat_of_lt'
  unfold maxPacket at short
  exact Nat.lt_of_le_of_lt short (by decide)

theorem u32FromBe_bytes (self : SshPacket) :
    u32FromBe (self.bytes.take 4) = some (UInt32.ofNat self.body.length) := by
  have head : self.bytes.take 4 = u32ToBe (UInt32.ofNat self.body.length) :=
    List.take_left' rfl
  rw [head, u32FromBe_toBe]

theorem packetAhead_bytes (self : SshPacket) :
    packetAhead self.bytes = some self.bytes.length := by
  have size := self.bytes_length
  have long := self.long
  rw [packetAhead, if_neg (by omega), self.u32FromBe_bytes]
  dsimp only
  rw [self.toNat_length, if_pos ⟨by omega, self.short, Nat.le_of_eq size.symm⟩, size]

theorem getElem?_bytes (self : SshPacket) : self.bytes[5]? = some self.kind := by
  have long := self.long
  rw [bytes, List.getElem?_append_right (by simp), u32ToBe_length, kind, List.getD_eq_getElem?_getD,
    List.getElem?_eq_getElem (by omega)]
  rfl

/-- What the machine makes of a packet. -/
theorem act_bytes (self : SshPacket) (c2s : Rc4) :
    writer.act (some (.kex, c2s)) self.bytes =
      ((c2s.apply self.bytes).1,
        some (if self.kind = msgNewkeys then .done else .kex, (c2s.apply self.bytes).2)) := by
  change writeUnit (some (.kex, c2s)) self.bytes = _
  rw [writeUnit, self.getElem?_bytes]

end SshPacket

/-- A client's stream: its identification line, the packets of the key exchange
up to NEWKEYS, and what it sends then. -/
structure ClientStream where
  line : Bytes
  terminated : findCrlf line = some (line.length - 2)
  packets : List SshPacket
  ordinary : ∀ packet ∈ packets, packet.kind ≠ msgNewkeys
  newkeys : SshPacket
  last : newkeys.kind = msgNewkeys
  trailing : Bytes

namespace ClientStream

/-- The packets as they are in the stream. -/
def exchange (self : ClientStream) : List Bytes :=
  (self.packets ++ [self.newkeys]).map SshPacket.bytes

/-- What is encrypted, unit by unit. -/
def units (self : ClientStream) : List Bytes := self.line :: self.exchange

def bytes (self : ClientStream) : Bytes := self.units.flatten ++ self.trailing

end ClientStream

/-- The machine on the beginning of a key exchange. -/
private theorem drain_exchange {newkeys : SshPacket} (last : newkeys.kind = msgNewkeys)
    (trailing : Bytes) (packets : List SshPacket) :
    ∀ (c2s : Rc4) (count : Nat), (∀ packet ∈ packets, packet.kind ≠ msgNewkeys) →
      let units := (packets ++ [newkeys]).map SshPacket.bytes
      ∃ state left, writer.drain (some (.kex, c2s)) ((units.flatten ++ trailing).take count) =
        ((c2s.apply (complete units count)).1 ++ trailing.take (count - units.flatten.length),
          some state, left) := by
  induction packets with
  | nil =>
      intro c2s count _
      have whole : writer.ahead (some (.kex, c2s)) newkeys.bytes = some newkeys.bytes.length :=
        newkeys.packetAhead_bytes
      have act := newkeys.act_bytes c2s
      rw [if_pos last] at act
      simp only [List.nil_append, List.map_cons, List.map_nil, List.flatten_singleton]
      rw [Transducer.drain_take whole, complete, complete]
      split
      case isTrue enough => exact ⟨_, _, by rw [act, writer_drain_done, List.append_nil]⟩
      case isFalse short =>
        refine ⟨(.kex, c2s), newkeys.bytes.take count, ?_⟩
        rw [Nat.sub_eq_zero_of_le (Nat.le_of_not_le short)]
        rfl
  | cons packet rest inductionHypothesis =>
      intro c2s count ordinary
      have whole : writer.ahead (some (.kex, c2s)) packet.bytes = some packet.bytes.length :=
        packet.packetAhead_bytes
      have act := packet.act_bytes c2s
      rw [if_neg (ordinary packet List.mem_cons_self)] at act
      rcases inductionHypothesis (c2s.apply packet.bytes).2 (count - packet.bytes.length)
        fun other member => ordinary other (List.mem_cons_of_mem _ member) with
        ⟨state, left, drained⟩
      simp only [List.cons_append, List.map_cons, List.flatten_cons, List.append_assoc]
      rw [Transducer.drain_take whole, complete, List.length_append, ← Nat.sub_sub]
      split
      case isTrue enough =>
        refine ⟨state, left, ?_⟩
        rw [act]
        dsimp only at drained ⊢
        rw [drained, Rc4.apply_append, List.append_assoc]
      case isFalse short =>
        refine ⟨(.kex, c2s), packet.bytes.take count, ?_⟩
        rw [Nat.sub_eq_zero_of_le (Nat.le_of_not_le short), Nat.zero_sub]
        rfl

/-- The machine on the beginning of a client's stream. -/
theorem ClientStream.drain (client : ClientStream) (c2s : Rc4) (count : Nat) :
    ∃ state left, writer.drain (some (.ident, c2s)) (client.bytes.take count) =
      ((c2s.apply (complete client.units count)).1 ++
          client.trailing.take (count - client.units.flatten.length),
        some state, left) := by
  have bounds := findCrlf_le client.terminated
  have whole : writer.ahead (some (.ident, c2s)) client.line = some client.line.length := by
    change (findCrlf client.line).map (· + 2) = _
    rw [client.terminated, Option.map_some, Nat.sub_add_cancel (by omega)]
  rcases drain_exchange client.last client.trailing client.packets (c2s.apply client.line).2
    (count - client.line.length) client.ordinary with ⟨state, left, drained⟩
  change writer.drain _ ((client.exchange.flatten ++ client.trailing).take _) = _ at drained
  rw [ClientStream.bytes, units, List.flatten_cons, List.append_assoc, Transducer.drain_take whole,
    complete, List.length_append, ← Nat.sub_sub]
  split
  case isTrue enough =>
    refine ⟨state, left, ?_⟩
    change ((c2s.apply client.line).1 ++ (writer.drain (some (.kex, _)) _).1,
      (writer.drain (some (.kex, _)) _).2) = _
    rw [drained, Rc4.apply_append, List.append_assoc]
    rfl
  case isFalse short =>
    refine ⟨(.ident, c2s), client.line.take count, ?_⟩
    rw [Nat.sub_eq_zero_of_le (Nat.le_of_not_le short), Nat.zero_sub]
    rfl

/-! ### Flushing -/

/-- The inner stream takes some of what it is offered, or asks to wait. -/
def WriteAnswer.Willing : WriteAnswer → Prop
  | .pending => True
  | .takes limit => 0 < limit
  | .fails => False

instance : DecidablePred WriteAnswer.Willing
  | .pending => .isTrue trivial
  | .takes limit => inferInstanceAs (Decidable (0 < limit))
  | .fails => .isFalse id

namespace OsshStream

/-- A flush that has something to offer. -/
theorem flushOn_cons {self : OsshStream} (waiting : self.wout ≠ []) (answer : WriteAnswer)
    (rest : List WriteAnswer) :
    flushOn (answer :: rest) self =
      match answer with
      | .pending => (.pending, self.answered rest)
      | .fails => (.ready (.error .inner), self.answered rest)
      | .takes limit =>
          if limit = 0 then (.ready (.error .writeZero), self.answered rest)
          else flushOn rest { self with
            inner := { self.inner with
              received := self.inner.received ++ self.wout.take (min limit self.wout.length) }
            wout := self.wout.drop (min limit self.wout.length) } := by
  have present := List.length_pos_iff.mpr waiting
  have full : ¬ self.wout.isEmpty = true := by simpa using waiting
  cases answer with
  | pending => rw [flushOn, if_neg full]
  | fails => rw [flushOn, if_neg full]
  | takes limit =>
      have same : min limit self.wout.length = 0 ↔ limit = 0 := by omega
      rw [flushOn, if_neg full]
      simp only [same]

theorem flushOn_empty {self : OsshStream} (empty : self.wout = []) (answers : List WriteAnswer) :
    flushOn answers self = (.ready (.ok ()), self.answered answers) := by
  have nothing : self.wout.isEmpty = true := by rw [empty]; rfl
  cases answers with
  | nil => rw [flushOn, if_pos nothing]
  | cons answer rest => cases answer <;> rw [flushOn, if_pos nothing]

/-- An inner stream that takes everything at once. -/
theorem flushOut_takes {self : OsshStream} {limit : Nat} {rest : List WriteAnswer}
    (writes : self.inner.writes = .takes limit :: rest) (positive : 0 < limit)
    (enough : self.wout.length ≤ limit) (waiting : self.wout ≠ []) :
    ∃ after, self.flushOut = (.ready (.ok ()), after) ∧ after.wout = [] ∧
      after.inner.writes = rest := by
  rw [flushOut, writes, flushOn_cons waiting]
  dsimp only
  rw [if_neg (Nat.ne_of_gt positive), Nat.min_eq_right enough, List.drop_length,
    flushOn_empty rfl]
  exact ⟨_, rfl, rfl, rfl⟩

/-- `after` is `before` with some of `wout` handed over. -/
structure Flushed (before after : OsshStream) : Prop where
  same : after = { before with inner := after.inner, wout := after.wout }
  wire : after.inner.received ++ after.wout = before.inner.received ++ before.wout

theorem flushOn_flushed (answers : List WriteAnswer) :
    ∀ self : OsshStream, Flushed self (flushOn answers self).2 ∧
      (flushOn answers self).2.inner.writes <:+ answers := by
  induction answers with
  | nil =>
      intro self
      exact ⟨⟨rfl, rfl⟩, List.suffix_refl _⟩
  | cons answer rest inductionHypothesis =>
      intro self
      cases answer with
      | pending =>
          rw [flushOn]
          split
          · exact ⟨⟨rfl, rfl⟩, List.suffix_refl _⟩
          · exact ⟨⟨rfl, rfl⟩, List.suffix_cons _ _⟩
      | fails =>
          rw [flushOn]
          split
          · exact ⟨⟨rfl, rfl⟩, List.suffix_refl _⟩
          · exact ⟨⟨rfl, rfl⟩, List.suffix_cons _ _⟩
      | takes limit =>
          rw [flushOn]
          split
          · exact ⟨⟨rfl, rfl⟩, List.suffix_refl _⟩
          · dsimp only
            split
            · exact ⟨⟨rfl, rfl⟩, List.suffix_cons _ _⟩
            · rcases inductionHypothesis { self with
                inner := { self.inner with
                           received := self.inner.received ++
                             self.wout.take (min limit self.wout.length) }
                wout := self.wout.drop (min limit self.wout.length) } with ⟨flushed, suffix⟩
              refine ⟨⟨flushed.same, flushed.wire.trans ?_⟩, suffix.trans (List.suffix_cons _ _)⟩
              dsimp only
              rw [List.append_assoc, List.take_append_drop]

theorem flushOut_flushed {self after : OsshStream} {poll : Poll (Except IoError Unit)}
    (flush : self.flushOut = (poll, after)) : Flushed self after := by
  have flushed := (flushOn_flushed self.inner.writes self).1
  change Flushed self self.flushOut.2 at flushed
  rw [flush] at flushed
  exact flushed

private theorem flushOn_ne_error (answers : List WriteAnswer) :
    ∀ self : OsshStream, (∀ answer ∈ answers, answer.Willing) →
      ∀ failure, (flushOn answers self).1 ≠ .ready (.error failure) := by
  induction answers with
  | nil =>
      intro self _ failure failed
      rw [flushOn] at failed
      split at failed <;> cases failed
  | cons answer rest inductionHypothesis =>
      intro self willing failure failed
      have here := willing answer List.mem_cons_self
      cases answer with
      | pending =>
          rw [flushOn] at failed
          split at failed <;> cases failed
      | fails => exact here
      | takes limit =>
          rw [flushOn] at failed
          split at failed
          case isTrue => cases failed
          case isFalse some =>
            have count : ¬ min limit self.wout.length = 0 := by
              have positive : 0 < limit := here
              have present : 0 < self.wout.length := by
                rw [List.length_pos_iff]
                intro empty
                rw [empty] at some
                exact some rfl
              omega
            dsimp only at failed
            rw [if_neg count] at failed
            exact inductionHypothesis _ (fun answer member =>
              willing answer (List.mem_cons_of_mem _ member)) failure failed

theorem pollWrite_pending {self after : OsshStream}
    (flush : self.flushOut = (.pending, after)) (buf : Bytes) :
    self.pollWrite buf = .ok (.pending, after) := by
  rw [pollWrite, flush]
  rfl

/-- What `poll_write` returns, by its last flush. -/
def accepted (count : Nat) : Poll (Except IoError Unit) → Poll (Except IoError Nat)
  | .ready (.error failure) => .ready (.error failure)
  | .ready (.ok ()) | .pending => .ready (.ok count)

theorem pollWrite_ready {self between : OsshStream} {result : Except IoError Unit}
    (flush : self.flushOut = (.ready result, between)) (buf : Bytes) :
    self.pollWrite buf = (processWrite { between with wbuf := between.wbuf ++ buf }).map
      fun written => (accepted buf.length written.flushOut.1, written.flushOut.2) := by
  rw [pollWrite, flush]
  cases processed : processWrite { between with wbuf := between.wbuf ++ buf } with
  | error failure =>
      dsimp only
      rw [processed]
      rfl
  | ok written =>
      dsimp only
      rw [processed]
      dsimp only [bind, Except.bind, Except.map]
      rcases written.flushOut with ⟨- | (failure | -), after⟩
      · rfl
      · rfl
      · rfl

private theorem accepted_willing {self : OsshStream}
    (willing : ∀ answer ∈ self.inner.writes, answer.Willing) (count : Nat) :
    accepted count self.flushOut.1 = .ready (.ok count) := by
  have fine := flushOn_ne_error self.inner.writes self willing
  rcases flush : self.flushOut with ⟨- | (failure | -), after⟩
  · rfl
  · exact absurd (congrArg Prod.fst flush) (fine failure)
  · rfl

theorem new_wout_length (sha1 : Sha1) (inner : InnerStream) (keyword : String)
    (seed : Vector UInt8 seedLength) (padding : Bytes) :
    (OsshStream.new sha1 inner keyword seed padding).wout.length =
      seedLength + (4 + 4 + padding.length) := by
  have preamble : (OsshStream.new sha1 inner keyword seed padding).wout =
      seed.toList ++ ((Rc4.new (deriveKey sha1 seed keyword.toUTF8.toList
        "client_to_server".toUTF8.toList).toList).apply
        (u32ToBe magic ++ u32ToBe (UInt32.ofNat padding.length) ++ padding)).1 := rfl
  rw [preamble, List.length_append, Rc4.apply_length, List.length_append, List.length_append,
    u32ToBe_length, u32ToBe_length, Vector.length_toList]

end OsshStream

/-! ### A client at work -/

/-- What the client calls. It offers the next bytes of its stream, as many as it
likes; `answer` is the inner stream's own. -/
inductive WriteCall where
  | write (size : Nat)
  | flush (answer : Poll (Except IoError Unit))
  | shutdown (answer : Poll (Except IoError Unit))
deriving DecidableEq, Repr

/-- A stream whose client has got rid of `sent` bytes. -/
structure ClientRun where
  stream : OsshStream
  sent : Nat

namespace ClientRun

def step (client : ClientStream) (self : ClientRun) : WriteCall → Checked ClientRun
  | .write size => do
      match ← self.stream.pollWrite ((client.bytes.drop self.sent).take size) with
      | (.ready (.ok count), stream) => return { stream, sent := self.sent + count }
      | (_, stream) => return { self with stream }
  | .flush answer => return { self with stream := (self.stream.pollFlush answer).2 }
  | .shutdown answer => return { self with stream := (self.stream.pollShutdown answer).2 }

def steps (client : ClientStream) (self : ClientRun) (calls : List WriteCall) :
    Checked ClientRun :=
  calls.foldlM (step client) self

/-- The machine, started where `origin` stands, has drained what was sent. -/
private structure Carries (client : ClientStream) (origin : OsshStream) (run : ClientRun) :
    Prop where
  willing : ∀ answer ∈ run.stream.inner.writes, answer.Willing
  wire : ∃ output, writer.drain (some (.ident, origin.c2s)) (client.bytes.take run.sent) =
      (output, some (run.stream.wstate, run.stream.c2s), run.stream.wbuf) ∧
    run.stream.inner.received ++ run.stream.wout = origin.inner.received ++ origin.wout ++ output

variable {client : ClientStream} {origin : OsshStream}

private theorem Carries.flush {run : ClientRun} (carries : Carries client origin run) :
    Carries client origin { run with stream := run.stream.flushOut.2 } := by
  rcases OsshStream.flushOn_flushed run.stream.inner.writes run.stream with ⟨flushed, suffix⟩
  rcases carries.wire with ⟨output, drained, wire⟩
  refine ⟨fun answer member => carries.willing answer (suffix.subset member), output, ?_,
    flushed.wire.trans wire⟩
  change writer.drain _ _ = (_, some (run.stream.flushOut.2.wstate, _), _)
  rw [OsshStream.flushOut, flushed.same]
  exact drained

private theorem take_append_next (bytes : Bytes) (sent size : Nat) :
    bytes.take sent ++ (bytes.drop sent).take size =
      bytes.take (sent + ((bytes.drop sent).take size).length) := by
  rw [List.take_add, List.length_take, ← List.take_eq_take_min]

/-- A `poll_write` that goes through drains what it is given too. -/
private theorem Carries.process {run : ClientRun} (carries : Carries client origin run)
    (size : Nat) :
    ∃ stream, OsshStream.processWrite { run.stream with
        wbuf := run.stream.wbuf ++ (client.bytes.drop run.sent).take size } = .ok stream ∧
      Carries client origin
        ⟨stream, run.sent + ((client.bytes.drop run.sent).take size).length⟩ := by
  rcases carries.wire with ⟨output, drained, wire⟩
  have appended := @Transducer.drain_append _ _ _ writer (some (.ident, origin.c2s))
    (client.bytes.take run.sent) ((client.bytes.drop run.sent).take size)
  rw [take_append_next, drained] at appended
  dsimp only at appended
  -- the bytes are a client's, so the machine does not panic on them
  rcases client.drain origin.c2s (run.sent + ((client.bytes.drop run.sent).take size).length) with
    ⟨⟨wstate, c2s⟩, left, alive⟩
  rw [alive, Prod.mk.injEq] at appended
  rcases appended with ⟨sum, reached⟩
  rw [OsshStream.processWrite_eq]
  rcases more : writer.drain (some (run.stream.wstate, run.stream.c2s))
    (run.stream.wbuf ++ (client.bytes.drop run.sent).take size) with ⟨output', state', left'⟩
  rw [more] at sum reached
  cases reached
  refine ⟨_, rfl, carries.willing, output ++ output', ?_, ?_⟩
  · rw [alive, sum]
  · change run.stream.inner.received ++ (run.stream.wout ++ output') = _
    rw [← List.append_assoc, wire, List.append_assoc]

private theorem Carries.write {run : ClientRun} (carries : Carries client origin run)
    (size : Nat) : ∃ after, run.step client (.write size) = .ok after ∧
      Carries client origin after := by
  have first := carries.flush
  rcases flush : run.stream.flushOut with ⟨- | result, stream⟩
  · rw [flush] at first
    refine ⟨_, ?_, first⟩
    rw [step, OsshStream.pollWrite_pending flush]
    rfl
  · rw [flush] at first
    rcases first.process size with ⟨processed, taken, second⟩
    refine ⟨_, ?_, second.flush⟩
    rw [step, OsshStream.pollWrite_ready flush, taken]
    dsimp only [bind, Except.bind, Except.map]
    rw [OsshStream.accepted_willing second.willing]
    rfl

private theorem carries_step {run : ClientRun} (carries : Carries client origin run)
    (call : WriteCall) : ∃ after, run.step client call = .ok after ∧
      Carries client origin after := by
  have flushed (answer : Poll (Except IoError Unit)) :
      (run.stream.flushThen answer).2 = run.stream.flushOut.2 := by
    rw [OsshStream.flushThen]
    rcases run.stream.flushOut with ⟨- | (- | -), after⟩ <;> rfl
  cases call with
  | write size => exact carries.write size
  | flush answer =>
      refine ⟨_, rfl, ?_⟩
      rw [OsshStream.pollFlush, flushed]
      exact carries.flush
  | shutdown answer =>
      refine ⟨_, rfl, ?_⟩
      rw [OsshStream.pollShutdown, flushed]
      exact carries.flush

private theorem carries_steps (calls : List WriteCall) :
    ∀ {run : ClientRun}, Carries client origin run →
      ∃ reached, run.steps client calls = .ok reached ∧ Carries client origin reached := by
  induction calls with
  | nil => exact fun carries => ⟨_, rfl, carries⟩
  | cons call rest inductionHypothesis =>
      intro run carries
      rcases carries_step carries call with ⟨after, taken, carries⟩
      rcases inductionHypothesis carries with ⟨reached, later, carries⟩
      refine ⟨reached, ?_, carries⟩
      rw [steps, List.foldlM_cons, taken]
      exact later

end ClientRun

/-- Whatever the client's calls and the inner stream's answers, the wire is the
preamble, the encrypted units that are complete and the bytes behind NEWKEYS. -/
theorem wire_transparent (sha1 : Sha1) (keyword : String) (seed : Vector UInt8 seedLength)
    (padding : Bytes) (client : ClientStream) {writes : List WriteAnswer}
    (willing : ∀ answer ∈ writes, answer.Willing) (reads : List ReadAnswer)
    (calls : List WriteCall) :
    ∃ reached, ClientRun.steps client
        ⟨OsshStream.new sha1 ⟨[], writes, reads⟩ keyword seed padding, 0⟩ calls = .ok reached ∧
      reached.stream.inner.received ++ reached.stream.wout =
        seed.toList ++
          ((Rc4.new (deriveKey sha1 seed keyword.toUTF8.toList
            "client_to_server".toUTF8.toList).toList).apply
            (u32ToBe magic ++ u32ToBe (UInt32.ofNat padding.length) ++ padding ++
              complete client.units reached.sent)).1 ++
          client.trailing.take (reached.sent - client.units.flatten.length) := by
  let origin := OsshStream.new sha1 ⟨[], writes, reads⟩ keyword seed padding
  have start : ClientRun.Carries client origin ⟨origin, 0⟩ := by
    refine ⟨willing, [], ?_, (List.append_nil _).symm⟩
    exact Transducer.drain_none rfl
  rcases ClientRun.carries_steps calls start with ⟨reached, taken, carries⟩
  refine ⟨reached, taken, ?_⟩
  rcases carries.wire with ⟨output, drained, wire⟩
  rcases client.drain origin.c2s reached.sent with ⟨state, left, spec⟩
  rw [spec, Prod.mk.injEq] at drained
  have received : origin.inner.received = [] := rfl
  have preamble : origin.wout = seed.toList ++ ((Rc4.new (deriveKey sha1 seed
      keyword.toUTF8.toList "client_to_server".toUTF8.toList).toList).apply
      (u32ToBe magic ++ u32ToBe (UInt32.ofNat padding.length) ++ padding)).1 := rfl
  have c2s : origin.c2s = ((Rc4.new (deriveKey sha1 seed keyword.toUTF8.toList
      "client_to_server".toUTF8.toList).toList).apply
      (u32ToBe magic ++ u32ToBe (UInt32.ofNat padding.length) ++ padding)).2 := rfl
  rw [wire, ← drained.1, received, preamble, c2s,
    Rc4.apply_append _ _ (complete client.units reached.sent)]
  simp only [List.append_assoc, List.nil_append]

/-- A short key exchange. -/
def shortClient : ClientStream where
  line := [83, 83, 72, 45, 50, 46, 48, 45, 120, 13, 10]
  terminated := by decide
  packets := [⟨[4, 20, 0, 0, 0, 0], by decide, by decide⟩]
  ordinary := by
    intro packet member
    rw [List.mem_singleton.mp member]
    decide
  newkeys := ⟨[4, 21, 0, 0, 0, 0], by decide, by decide⟩
  last := by decide
  trailing := [1, 2, 3]

/-- The line is cut between CR and LF, and the inner stream takes few bytes at a
time. -/
theorem wire_transparent_short :
    ∃ reached, ClientRun.steps shortClient
        ⟨OsshStream.new Sha1.digest ⟨[], [.takes 7, .pending, .takes 1, .takes 1000], []⟩ "key"
          (Vector.replicate 16 5) [6, 7], 0⟩
        [.write 10, .flush .pending, .write 10, .write 2, .write 100] = .ok reached ∧
      reached.stream.inner.received ++ reached.stream.wout =
        (Vector.replicate 16 (5 : UInt8)).toList ++
          ((Rc4.new (deriveKey Sha1.digest (Vector.replicate 16 5) "key".toUTF8.toList
            "client_to_server".toUTF8.toList).toList).apply
            (u32ToBe magic ++ u32ToBe (UInt32.ofNat [(6 : UInt8), 7].length) ++ [6, 7] ++
              complete shortClient.units reached.sent)).1 ++
          shortClient.trailing.take (reached.sent - shortClient.units.flatten.length) := by
  exact wire_transparent Sha1.digest "key" (Vector.replicate 16 5) [6, 7] shortClient (by decide)
    [] [.write 10, .flush .pending, .write 10, .write 2, .write 100]

end Unroxy.Ssh
