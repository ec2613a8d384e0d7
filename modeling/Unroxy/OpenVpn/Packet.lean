import Unroxy.OpenVpn.Config

/-!
Owns the packet layouts of `openvpn/control.rs`: `Packet::parse`,
`reset_packet`, `data_header` and `encode_acks`.

`Grammar` is the wire grammar in its own terms, by concatenation. `parse` is the
code, with every index and slice checked. `parse_of_shape` says what the code
does on a packet that is long enough to hold an ack count; everything about the
non-data opcodes goes through it.
-/

namespace Unroxy.OpenVpn

open Unroxy.Lib

def pControlHardResetClientV2 : UInt8 := 7
def pControlHardResetServerV2 : UInt8 := 8
def pControlV1 : UInt8 := 4
def pAckV1 : UInt8 := 5
def pDataV1 : UInt8 := 6
def pDataV2 : UInt8 := 9

def sidSize : Nat := 8
def maxAcks : Nat := 4

/-- `[u8; SID_SIZE]`. -/
abbrev SessionId := Vector UInt8 sidSize

structure Packet where
  opcode : UInt8
  sessionId : Bytes
  packetId : UInt32
  header : Bytes
  payload : Bytes
deriving DecidableEq, Repr

def IsData (opcode : UInt8) : Prop := opcode = pDataV1 ∨ opcode = pDataV2

instance (opcode : UInt8) : Decidable (IsData opcode) := by
  unfold IsData
  infer_instance

/-- `header_len` of a data packet, without the packet id. -/
def linkHeaderLen (opcode : UInt8) : Nat := if opcode = pDataV2 then 4 else 1

namespace Packet

/-! ### The parser of the code -/

def parse (raw : Bytes) : Checked (Option Packet) :=
  if raw.isEmpty then
    return none
  else do
    let byte ← index raw 0
    let opcode := byte >>> 3
    if IsData opcode then
      let headerLen := linkHeaderLen opcode
      if raw.length < headerLen + 4 then
        return none
      else
        let header ← slice raw 0 (headerLen + 4)
        let payload ← sliceFrom raw (headerLen + 4)
        return some { opcode, sessionId := [], packetId := 0, header, payload }
    else if raw.length < 1 + sidSize + 1 then
      return none
    else
      let sessionId ← slice raw 1 (1 + sidSize)
      let count := (← index raw (1 + sidSize)).toNat
      let offset := 1 + sidSize + 1
      if raw.length < offset + count * 4 then
        return none
      else
        let offset := offset + count * 4
        -- The session id behind the acks is skipped without a length check.
        let offset := if count > 0 then offset + sidSize else offset
        if opcode = pAckV1 then
          let payload ← sliceFrom raw offset
          return some { opcode, sessionId, packetId := 0, header := [], payload }
        else if raw.length < offset + 4 then
          return none
        else
          match u32FromBe (← slice raw offset (offset + 4)) with
          | none => return none
          | some packetId =>
              let payload ← sliceFrom raw (offset + 4)
              return some { opcode, sessionId, packetId, header := [], payload }

/-! ### The wire grammar -/

/-- Bytes between the ack count and what follows the ack block. -/
def ackBlockLen (count : UInt8) : Nat :=
  count.toNat * 4 + if count.toNat > 0 then sidSize else 0

/-- The packets of the wire, each with the fields it carries. -/
inductive Grammar : Bytes → Packet → Prop where
  | data (byte : UInt8) (rest payload : Bytes)
      (opcode : IsData (byte >>> 3))
      (length : (byte :: rest).length = linkHeaderLen (byte >>> 3) + 4) :
      Grammar (byte :: rest ++ payload)
        { opcode := byte >>> 3, sessionId := [], packetId := 0,
          header := byte :: rest, payload }
  | ack (byte count : UInt8) (sessionId acks payload : Bytes)
      (opcode : byte >>> 3 = pAckV1)
      (session : sessionId.length = sidSize)
      (block : acks.length = ackBlockLen count) :
      Grammar (byte :: (sessionId ++ count :: (acks ++ payload)))
        { opcode := pAckV1, sessionId, packetId := 0, header := [], payload }
  | control (byte count : UInt8) (sessionId acks payload : Bytes) (packetId : UInt32)
      (notData : ¬ IsData (byte >>> 3)) (notAck : byte >>> 3 ≠ pAckV1)
      (session : sessionId.length = sidSize)
      (block : acks.length = ackBlockLen count) :
      Grammar (byte :: (sessionId ++ count :: (acks ++ (u32ToBe packetId ++ payload))))
        { opcode := byte >>> 3, sessionId, packetId, header := [], payload }

/-- An ACK that announces acks and holds them, but ends before the eight bytes
of the session id behind them. -/
def AckCutShort (raw : Bytes) : Prop :=
  ∃ (byte count : UInt8) (sessionId rest : Bytes),
    raw = byte :: (sessionId ++ count :: rest) ∧ byte >>> 3 = pAckV1 ∧
      sessionId.length = sidSize ∧ count.toNat * 4 ≤ rest.length ∧
      rest.length < ackBlockLen count

/-! ### What the code does, shape by shape -/

theorem parse_data_short {byte : UInt8} {rest : Bytes} (opcode : IsData (byte >>> 3))
    (short : (byte :: rest).length < linkHeaderLen (byte >>> 3) + 4) :
    parse (byte :: rest) = .ok none := by
  simp only [parse, List.isEmpty_cons, Bool.false_eq_true, ↓reduceIte,
    index_of_lt (show 0 < (byte :: rest).length by simp), List.getElem_cons_zero, opcode,
    short, bind, Except.bind, pure, Except.pure]

theorem parse_data {byte : UInt8} {rest payload : Bytes} (opcode : IsData (byte >>> 3))
    (length : (byte :: rest).length = linkHeaderLen (byte >>> 3) + 4) :
    parse (byte :: rest ++ payload) = .ok (some
      { opcode := byte >>> 3, sessionId := [], packetId := 0,
        header := byte :: rest, payload }) := by
  have long : linkHeaderLen (byte >>> 3) + 4 ≤ (byte :: (rest ++ payload)).length := by
    rw [← length]
    simp
  have head : (byte :: (rest ++ payload)).take (linkHeaderLen (byte >>> 3) + 4) =
      byte :: rest := by
    rw [← length, ← List.cons_append, List.take_left]
  have tail : (byte :: (rest ++ payload)).drop (linkHeaderLen (byte >>> 3) + 4) = payload := by
    rw [← length, ← List.cons_append, List.drop_left]
  simp only [parse, List.cons_append, List.isEmpty_cons, Bool.false_eq_true, ↓reduceIte,
    index_of_lt (show 0 < (byte :: (rest ++ payload)).length by simp), List.getElem_cons_zero,
    opcode, Nat.not_lt.mpr long, slice_of_le (Nat.zero_le _) long, sliceFrom_of_le long,
    List.drop_zero, Nat.sub_zero, head, tail, bind, Except.bind, pure, Except.pure]

theorem parse_short {byte : UInt8} {rest : Bytes} (notData : ¬ IsData (byte >>> 3))
    (short : rest.length < sidSize + 1) : parse (byte :: rest) = .ok none := by
  have short' : (byte :: rest).length < 1 + sidSize + 1 := by
    simp only [List.length_cons]
    omega
  simp only [parse, List.isEmpty_cons, Bool.false_eq_true, ↓reduceIte,
    index_of_lt (show 0 < (byte :: rest).length by simp), List.getElem_cons_zero, notData,
    short', bind, Except.bind, pure, Except.pure]

/-- What `parse` makes of the bytes behind the ack count. -/
def parseAcks (opcode count : UInt8) (sessionId rest : Bytes) : Checked (Option Packet) :=
  if rest.length < count.toNat * 4 then
    .ok none
  else if opcode = pAckV1 then
    (sliceFrom rest (ackBlockLen count)).map fun payload =>
      some { opcode, sessionId, packetId := 0, header := [], payload }
  else if rest.length < ackBlockLen count + 4 then
    .ok none
  else
    .ok ((u32FromBe ((rest.drop (ackBlockLen count)).take 4)).map fun packetId =>
      { opcode, sessionId, packetId, header := [],
        payload := rest.drop (ackBlockLen count + 4) })

theorem parse_of_shape {byte count : UInt8} {sessionId rest : Bytes}
    (notData : ¬ IsData (byte >>> 3)) (session : sessionId.length = sidSize) :
    parse (byte :: (sessionId ++ count :: rest)) =
      parseAcks (byte >>> 3) count sessionId rest := by
  set raw := byte :: (sessionId ++ count :: rest) with rawDef
  have length : raw.length = 1 + sidSize + 1 + rest.length := by
    simp only [rawDef, List.length_cons, List.length_append, session]
    omega
  have first : index raw 0 = .ok byte := index_of_lt (by rw [length]; omega)
  have sid : slice raw 1 (1 + sidSize) = .ok sessionId := by
    rw [slice_of_le (by omega) (by rw [length]; omega)]
    simp [rawDef, ← session]
  have counted : index raw (1 + sidSize) = .ok count := by
    rw [index_of_lt (by rw [length]; omega)]
    simp [rawDef, ← session, Nat.add_comm 1]
  have dropped (k : Nat) : raw.drop (1 + sidSize + 1 + k) = rest.drop k := by
    have shape : raw = (byte :: (sessionId ++ [count])) ++ rest := by simp [rawDef]
    have headLength : (byte :: (sessionId ++ [count])).length = 1 + sidSize + 1 := by
      simp only [List.length_cons, List.length_append, List.length_nil, session]
      omega
    rw [shape, ← headLength, List.drop_length_add_append]
  have notEmpty : raw.isEmpty = false := rfl
  have longEnough : ¬ raw.length < 1 + sidSize + 1 := by rw [length]; omega
  have acksHeld : raw.length < 1 + sidSize + 1 + count.toNat * 4 ↔
      rest.length < count.toNat * 4 := by rw [length]; omega
  have offset : (if count.toNat > 0 then 1 + sidSize + 1 + count.toNat * 4 + sidSize
      else 1 + sidSize + 1 + count.toNat * 4) = 1 + sidSize + 1 + ackBlockLen count := by
    unfold ackBlockLen
    split <;> omega
  have payloadFrom (k : Nat) : sliceFrom raw (1 + sidSize + 1 + k) = sliceFrom rest k := by
    by_cases within : k ≤ rest.length
    · rw [sliceFrom_of_le within, sliceFrom_of_le (by rw [length]; omega), dropped]
    · rw [sliceFrom_of_gt (by rw [length]; omega), sliceFrom_of_gt (by omega)]
  simp only [parse, notEmpty, Bool.false_eq_true, ↓reduceIte, first, notData, longEnough, sid,
    counted, acksHeld, offset, bind, Except.bind, pure, Except.pure]
  unfold parseAcks
  split_ifs with acksShort isAck idShort idShort' idShort'
  · rfl
  · rw [payloadFrom]
    cases sliceFrom rest (ackBlockLen count) <;> rfl
  · rfl
  · exact absurd idShort (by rw [length]; omega)
  · exact absurd idShort' (by rw [length] at idShort; omega)
  · have idSlice : slice raw (1 + sidSize + 1 + ackBlockLen count)
        (1 + sidSize + 1 + ackBlockLen count + 4) =
        .ok ((rest.drop (ackBlockLen count)).take 4) := by
      rw [slice_of_le (by omega) (by rw [length]; omega), dropped]
      simp
    have tail : sliceFrom raw (1 + sidSize + 1 + ackBlockLen count + 4) =
        .ok (rest.drop (ackBlockLen count + 4)) := by
      rw [Nat.add_assoc _ _ 4, payloadFrom, sliceFrom_of_le (by omega)]
    obtain ⟨packetId, decoded⟩ := u32FromBe_isSome
      (show ((rest.drop (ackBlockLen count)).take 4).length = 4 by simp; omega)
    simp only [idSlice, decoded, tail, Option.map_some]

/-- A byte string that is long enough splits at its ack count. -/
theorem exists_shape {tail : Bytes} (long : sidSize + 1 ≤ tail.length) :
    ∃ (sessionId : Bytes) (count : UInt8) (rest : Bytes),
      tail = sessionId ++ count :: rest ∧ sessionId.length = sidSize := by
  refine ⟨tail.take sidSize, tail[sidSize], tail.drop (sidSize + 1), ?_, by simp; omega⟩
  rw [← List.drop_eq_getElem_cons, List.take_append_drop]

/-- Two splits at the ack count agree. -/
theorem shape_unique {left right : Bytes} {leftCount rightCount : UInt8}
    {leftRest rightRest : Bytes} (leftLength : left.length = sidSize)
    (rightLength : right.length = sidSize)
    (same : left ++ leftCount :: leftRest = right ++ rightCount :: rightRest) :
    left = right ∧ leftCount = rightCount ∧ leftRest = rightRest := by
  rcases List.append_inj same (leftLength.trans rightLength.symm) with ⟨sids, tails⟩
  exact ⟨sids, (List.cons.inj tails).1, (List.cons.inj tails).2⟩

/-- The grammar of the non-data packets, read at the ack count. -/
theorem grammar_of_shape {byte count : UInt8} {sessionId rest : Bytes} {packet : Packet}
    (notData : ¬ IsData (byte >>> 3)) (session : sessionId.length = sidSize) :
    Grammar (byte :: (sessionId ++ count :: rest)) packet ↔
      ackBlockLen count ≤ rest.length ∧
        if byte >>> 3 = pAckV1 then
          packet =
            { opcode := pAckV1, sessionId, packetId := 0, header := [],
              payload := rest.drop (ackBlockLen count) }
        else
          ∃ packetId payload,
            rest.drop (ackBlockLen count) = u32ToBe packetId ++ payload ∧
            packet = { opcode := byte >>> 3, sessionId, packetId, header := [], payload } := by
  constructor
  · intro grammar
    generalize rawEq : byte :: (sessionId ++ count :: rest) = raw at grammar
    cases grammar with
    | data byte' rest' payload opcode length =>
        rcases List.cons.inj rawEq with ⟨rfl, -⟩
        exact absurd opcode notData
    | ack byte' count' sessionId' acks payload opcode session' block =>
        rcases List.cons.inj rawEq with ⟨rfl, tails⟩
        rcases shape_unique session session' tails with ⟨rfl, rfl, rfl⟩
        rw [if_pos opcode, ← block, List.drop_left]
        exact ⟨by simp, rfl⟩
    | control byte' count' sessionId' acks payload packetId notData' notAck session' block =>
        rcases List.cons.inj rawEq with ⟨rfl, tails⟩
        rcases shape_unique session session' tails with ⟨rfl, rfl, rfl⟩
        rw [if_neg notAck, ← block, List.drop_left]
        exact ⟨by simp, packetId, payload, rfl, rfl⟩
  · rintro ⟨block, fields⟩
    have split : rest = rest.take (ackBlockLen count) ++ rest.drop (ackBlockLen count) :=
      (List.take_append_drop _ _).symm
    have blockLength : (rest.take (ackBlockLen count)).length = ackBlockLen count := by
      simp [block]
    by_cases isAck : byte >>> 3 = pAckV1
    · rw [if_pos isAck] at fields
      subst fields
      rw [split]
      have grammar := Grammar.ack byte count sessionId (rest.take (ackBlockLen count))
        (rest.drop (ackBlockLen count)) isAck session blockLength
      simpa using grammar
    · rw [if_neg isAck] at fields
      rcases fields with ⟨packetId, payload, tail, rfl⟩
      rw [split, tail]
      exact Grammar.control byte count sessionId (rest.take (ackBlockLen count)) payload packetId
        notData isAck session blockLength

/-! ### Totality and exactness -/

/-- `parse` returns on `raw`, and what it returns is what the grammar says. -/
def ParsesExactly (raw : Bytes) : Prop :=
  ∃ result, parse raw = .ok result ∧ ∀ packet, result = some packet ↔ Grammar raw packet

/-- A data packet is its header and a payload. -/
private theorem grammar_of_data {byte : UInt8} {rest : Bytes} {packet : Packet}
    (opcode : IsData (byte >>> 3)) (grammar : Grammar (byte :: rest) packet) :
    ∃ header payload, rest = header ++ payload ∧
      (byte :: header).length = linkHeaderLen (byte >>> 3) + 4 ∧
      packet = { opcode := byte >>> 3, sessionId := [], packetId := 0,
                 header := byte :: header, payload } := by
  generalize rawEq : byte :: rest = raw at grammar
  cases grammar with
  | data byte' header payload opcode' length =>
      rcases List.cons.inj rawEq with ⟨rfl, rfl⟩
      exact ⟨header, payload, rfl, length, rfl⟩
  | ack byte' count sessionId acks payload isAck session block =>
      rcases List.cons.inj rawEq with ⟨rfl, -⟩
      rw [isAck] at opcode
      exact absurd opcode (by decide)
  | control byte' count sessionId acks payload packetId notData notAck session block =>
      rcases List.cons.inj rawEq with ⟨rfl, -⟩
      exact absurd opcode notData

private theorem parsesExactly_data {byte : UInt8} {rest : Bytes} (opcode : IsData (byte >>> 3)) :
    ParsesExactly (byte :: rest) := by
  by_cases short : (byte :: rest).length < linkHeaderLen (byte >>> 3) + 4
  · refine ⟨none, parse_data_short opcode short, fun packet => ?_⟩
    refine ⟨fun absurdity => by simp at absurdity, fun grammar => ?_⟩
    obtain ⟨header, payload, rfl, length, -⟩ := grammar_of_data opcode grammar
    simp only [List.length_cons, List.length_append] at short length
    omega
  · obtain ⟨headerLen, headerLenEq⟩ : ∃ k, linkHeaderLen (byte >>> 3) + 4 = k + 1 := ⟨_, rfl⟩
    have long : headerLen ≤ rest.length := by
      simp only [List.length_cons] at short
      omega
    have headerLength : (byte :: rest.take headerLen).length =
        linkHeaderLen (byte >>> 3) + 4 := by
      simp [headerLenEq, long]
    have shape : byte :: rest = byte :: rest.take headerLen ++ rest.drop headerLen := by simp
    rw [shape]
    refine ⟨_, parse_data opcode headerLength, fun packet => ⟨?_, fun grammar => ?_⟩⟩
    · intro same
      obtain rfl := Option.some.inj same
      exact Grammar.data byte _ _ opcode headerLength
    · obtain ⟨header, payload, parts, length, rfl⟩ := grammar_of_data opcode grammar
      obtain ⟨heads, rests⟩ := List.append_inj parts (by
        simp only [List.length_cons] at length headerLength
        omega)
      rw [heads, rests]

private theorem parsesExactly_shape {byte count : UInt8} {sessionId rest : Bytes}
    (notData : ¬ IsData (byte >>> 3)) (session : sessionId.length = sidSize) :
    ParsesExactly (byte :: (sessionId ++ count :: rest)) ↔
      ¬ (byte >>> 3 = pAckV1 ∧ count.toNat * 4 ≤ rest.length ∧
        rest.length < ackBlockLen count) := by
  have blockMin : count.toNat * 4 ≤ ackBlockLen count := Nat.le_add_right _ _
  unfold ParsesExactly
  rw [parse_of_shape notData session]
  simp only [grammar_of_shape notData session]
  unfold parseAcks
  by_cases acksShort : rest.length < count.toNat * 4
  · rw [if_pos acksShort]
    refine iff_of_true ⟨none, rfl, fun packet => ?_⟩ (fun cut => by omega)
    exact iff_of_false (by simp) (fun held => by omega)
  rw [if_neg acksShort]
  by_cases isAck : byte >>> 3 = pAckV1
  · simp only [isAck, ↓reduceIte, true_and]
    by_cases held : ackBlockLen count ≤ rest.length
    · rw [sliceFrom_of_le held]
      refine iff_of_true ⟨_, rfl, fun packet => ?_⟩ (fun cut => by omega)
      simp only [held, true_and, Option.some.injEq]
      exact eq_comm
    · rw [sliceFrom_of_gt (by omega)]
      exact iff_of_false (by simp [Except.map]) (fun kept => kept ⟨by omega, by omega⟩)
  · simp only [isAck, ↓reduceIte, false_and, not_false_eq_true, iff_true]
    by_cases idShort : rest.length < ackBlockLen count + 4
    · rw [if_pos idShort]
      refine ⟨none, rfl, fun packet => iff_of_false (by simp) ?_⟩
      rintro ⟨-, packetId, payload, tail, -⟩
      have lengths := congrArg List.length tail
      simp only [List.length_drop, List.length_append, u32ToBe_length] at lengths
      omega
    · rw [if_neg idShort]
      refine ⟨_, rfl, fun packet => ?_⟩
      obtain ⟨packetId, decoded⟩ := u32FromBe_isSome
        (show ((rest.drop (ackBlockLen count)).take 4).length = 4 by simp; omega)
      have encoded := u32FromBe_eq_some.mp decoded
      have tail : rest.drop (ackBlockLen count) =
          u32ToBe packetId ++ rest.drop (ackBlockLen count + 4) := by
        rw [← encoded, ← List.drop_drop, List.take_append_drop]
      rw [decoded, tail]
      simp only [Option.map_some, Option.some.injEq]
      constructor
      · rintro rfl
        exact ⟨by omega, packetId, _, rfl, rfl⟩
      · rintro ⟨-, packetId', payload, same, rfl⟩
        rcases List.append_inj same (by simp) with ⟨ids, payloads⟩
        rw [u32ToBe_injective ids, payloads]

/-- `parse` returns, and accepts exactly the grammar, on every byte string but
an ACK cut short. -/
theorem parsesExactly_iff (raw : Bytes) : ParsesExactly raw ↔ ¬ AckCutShort raw := by
  cases raw with
  | nil =>
      refine iff_of_true ⟨none, rfl, fun packet => iff_of_false (by simp) ?_⟩ ?_
      · intro grammar
        cases grammar
      · rintro ⟨byte, count, sessionId, rest, shape, -⟩
        simp at shape
  | cons byte rest =>
      by_cases opcode : IsData (byte >>> 3)
      · apply iff_of_true (parsesExactly_data opcode)
        rintro ⟨byte', count, sessionId, rest', shape, isAck, -⟩
        rcases List.cons.inj shape with ⟨rfl, -⟩
        rw [isAck] at opcode
        exact absurd opcode (by decide)
      · by_cases short : rest.length < sidSize + 1
        · refine iff_of_true ⟨none, parse_short opcode short, fun packet => ?_⟩ ?_
          · refine iff_of_false (by simp) (fun grammar => ?_)
            generalize rawEq : byte :: rest = raw at grammar
            cases grammar with
            | data byte' rest' payload opcode' length =>
                rcases List.cons.inj rawEq with ⟨rfl, -⟩
                exact opcode opcode'
            | ack byte' count sessionId acks payload isAck session block =>
                rcases List.cons.inj rawEq with ⟨-, rfl⟩
                simp only [List.length_append, List.length_cons, session] at short
                omega
            | control byte' count sessionId acks payload packetId notData notAck session block =>
                rcases List.cons.inj rawEq with ⟨-, rfl⟩
                simp only [List.length_append, List.length_cons, session] at short
                omega
          · rintro ⟨byte', count, sessionId, rest', shape, -, session, -⟩
            rcases List.cons.inj shape with ⟨-, rfl⟩
            simp only [List.length_append, List.length_cons, session] at short
            omega
        · rcases exists_shape (Nat.not_lt.mp short) with ⟨sessionId, count, tail, rfl, session⟩
          rw [parsesExactly_shape opcode session]
          refine not_congr ⟨fun cut => ?_, ?_⟩
          · exact ⟨byte, count, sessionId, tail, rfl, cut.1, session, cut.2⟩
          · rintro ⟨byte', count', sessionId', rest', shape, isAck, session', cut⟩
            rcases List.cons.inj shape with ⟨rfl, tails⟩
            rcases shape_unique session session' tails with ⟨-, rfl, rfl⟩
            exact ⟨isAck, cut⟩

/-- An ACK of one packet id without the session id behind it: the slice
`raw[22..]` of fourteen bytes is out of range. -/
theorem not_parsesExactly_bare_ack :
    ¬ ParsesExactly [0x28, 9, 9, 9, 9, 9, 9, 9, 9, 1, 0, 0, 0, 5] := by
  rintro ⟨result, parsed, -⟩
  have panics : parse [0x28, 9, 9, 9, 9, 9, 9, 9, 9, 1, 0, 0, 0, 5] = .error .outOfRange := by
    decide
  rw [panics] at parsed
  simp at parsed

/-! ### The header of a data packet -/

private theorem parseAcks_opcode {opcode count : UInt8} {sessionId rest : Bytes} {packet : Packet}
    (parsed : parseAcks opcode count sessionId rest = .ok (some packet)) :
    packet.opcode = opcode := by
  unfold parseAcks at parsed
  split at parsed
  · cases parsed
  · split at parsed
    · cases found : sliceFrom rest (ackBlockLen count) with
      | ok payload =>
          rw [found] at parsed
          cases parsed
          rfl
      | error failure =>
          rw [found] at parsed
          cases parsed
    · split at parsed
      · cases parsed
      · rcases Option.map_eq_some_iff.mp (Except.ok.inj parsed) with ⟨packetId, -, rfl⟩
        rfl

private theorem parseAcks_sessionId {opcode count : UInt8} {sessionId rest : Bytes} {packet : Packet}
    (parsed : parseAcks opcode count sessionId rest = .ok (some packet)) :
    packet.sessionId = sessionId := by
  unfold parseAcks at parsed
  split at parsed
  · cases parsed
  · split at parsed
    · cases found : sliceFrom rest (ackBlockLen count) with
      | ok payload =>
          rw [found] at parsed
          cases parsed
          rfl
      | error failure =>
          rw [found] at parsed
          cases parsed
    · split at parsed
      · cases parsed
      · rcases Option.map_eq_some_iff.mp (Except.ok.inj parsed) with ⟨packetId, -, rfl⟩
        rfl

/-- A data packet has a header, which ends in its packet id. -/
theorem parse_data_header {raw : Bytes} {packet : Packet} (parsed : parse raw = .ok (some packet))
    (data : IsData packet.opcode) : 4 ≤ packet.header.length := by
  cases raw with
  | nil => cases parsed
  | cons byte tail =>
      by_cases opcode : IsData (byte >>> 3)
      · rcases (parsesExactly_data opcode : ParsesExactly (byte :: tail)) with ⟨result, ran, fields⟩
        cases ran.symm.trans parsed
        have grammar := (fields packet).mp rfl
        generalize byte :: tail = raw at grammar
        cases grammar with
        | data byte' rest payload opcode' length =>
            change 4 ≤ (byte' :: rest).length
            omega
        | ack byte' count sessionId acks payload isAck session block =>
            exact absurd data (show ¬ IsData pAckV1 by decide)
        | control byte' count sessionId acks payload packetId notData notAck session block =>
            exact absurd data notData
      · by_cases long : sidSize + 1 ≤ tail.length
        · rcases exists_shape long with ⟨sessionId, count, rest, rfl, session⟩
          rw [parse_of_shape opcode session] at parsed
          rw [parseAcks_opcode parsed] at data
          exact absurd data opcode
        · rw [parse_short opcode (by omega)] at parsed
          cases parsed

/-- Every packet but a data packet has a whole session id. -/
theorem parse_sessionId {raw : Bytes} {packet : Packet} (parsed : parse raw = .ok (some packet))
    (other : ¬ IsData packet.opcode) : packet.sessionId.length = sidSize := by
  cases raw with
  | nil => cases parsed
  | cons byte tail =>
      by_cases opcode : IsData (byte >>> 3)
      · rcases (parsesExactly_data opcode : ParsesExactly (byte :: tail)) with ⟨result, ran, fields⟩
        cases ran.symm.trans parsed
        have grammar := (fields packet).mp rfl
        generalize byte :: tail = raw at grammar
        cases grammar with
        | data byte' rest payload opcode' length => exact absurd opcode' other
        | ack byte' count sessionId acks payload isAck session block => exact session
        | control byte' count sessionId acks payload packetId notData notAck session block =>
            exact session
      · by_cases long : sidSize + 1 ≤ tail.length
        · rcases exists_shape long with ⟨sessionId, count, rest, rfl, session⟩
          rw [parse_of_shape opcode session] at parsed
          rw [parseAcks_sessionId parsed]
          exact session
        · rw [parse_short opcode (by omega)] at parsed
          cases parsed

end Packet

/-! ### Packets the client builds -/

def resetPacket (sessionId : SessionId) : Bytes :=
  (pControlHardResetClientV2 <<< 3) :: sessionId.toList ++ [0] ++ u32ToBe 0

def dataHeader (cipher : Cipher) (keyId : UInt8) (peerId : PeerId) : Bytes :=
  if cipher.isAead then
    ((pDataV2 <<< 3) ||| (keyId &&& 0x07)) :: (u32ToBe peerId.id).drop 1
  else
    [(pDataV1 <<< 3) ||| (keyId &&& 0x07)]

def encodeAcks (packetIds : List UInt32) (remoteSessionId : SessionId) : Bytes :=
  let count := min packetIds.length maxAcks
  UInt8.ofNat count :: (packetIds.take count).flatMap u32ToBe ++
    if count > 0 then remoteSessionId.toList else []

/-- An ack block is a count byte and as many bytes as the count announces. -/
theorem encodeAcks_shape (packetIds : List UInt32) (remoteSessionId : SessionId) :
    ∃ count acks, encodeAcks packetIds remoteSessionId = count :: acks ∧
      acks.length = Packet.ackBlockLen count := by
  refine ⟨_, _, List.cons_append, ?_⟩
  have small : min packetIds.length maxAcks ≤ 4 := Nat.min_le_right _ _
  have countValue : (UInt8.ofNat (min packetIds.length maxAcks)).toNat =
      min packetIds.length maxAcks := by
    rw [UInt8.toNat_ofNat']
    omega
  have idBytes (ids : List UInt32) : (ids.flatMap u32ToBe).length = ids.length * 4 := by
    induction ids with
    | nil => rfl
    | cons head tail inductionHypothesis =>
        simp only [List.flatMap_cons, List.length_append, inductionHypothesis, u32ToBe_length,
          List.length_cons]
        omega
  rw [Packet.ackBlockLen, countValue, List.length_append, idBytes, List.length_take,
    Nat.min_eq_left (Nat.min_le_left _ _)]
  congr 1
  split <;> simp

/-- A packet with an ack block, a packet id and a payload is read back. -/
theorem Packet.parse_control {byte : UInt8} {sessionId : SessionId} {acks payload : Bytes}
    {count : UInt8} {packetId : UInt32} (notData : ¬ IsData (byte >>> 3))
    (notAck : byte >>> 3 ≠ pAckV1) (block : acks.length = ackBlockLen count) :
    parse (byte :: (sessionId.toList ++ count :: (acks ++ (u32ToBe packetId ++ payload)))) =
      .ok (some { opcode := byte >>> 3, sessionId := sessionId.toList, packetId,
                  header := [], payload }) := by
  have acksHeld : count.toNat * 4 ≤ acks.length := by
    rw [block]
    exact Nat.le_add_right _ _
  have long : ¬ (acks ++ (u32ToBe packetId ++ payload)).length < count.toNat * 4 := by
    simp only [List.length_append]
    omega
  have held : ¬ (acks ++ (u32ToBe packetId ++ payload)).length < acks.length + 4 := by
    simp only [List.length_append, u32ToBe_length]
    omega
  rw [parse_of_shape notData (by simp), parseAcks, if_neg long, if_neg notAck, ← block,
    if_neg held, List.drop_left, List.drop_length_add_append]
  have idBytes : (u32ToBe packetId ++ payload).take 4 = u32ToBe packetId := by
    rw [← u32ToBe_length packetId, List.take_left]
  have tail : (u32ToBe packetId ++ payload).drop 4 = payload := by
    rw [← u32ToBe_length packetId, List.drop_left]
  rw [idBytes, tail, u32FromBe_toBe]
  rfl

/-- An ACK is read back with no packet id and what follows its ack block. -/
theorem Packet.parse_ack {byte : UInt8} {sessionId : SessionId} {acks payload : Bytes}
    {count : UInt8} (isAck : byte >>> 3 = pAckV1) (block : acks.length = ackBlockLen count) :
    parse (byte :: (sessionId.toList ++ count :: (acks ++ payload))) =
      .ok (some { opcode := byte >>> 3, sessionId := sessionId.toList, packetId := 0,
                  header := [], payload }) := by
  have acksHeld : count.toNat * 4 ≤ acks.length := by
    rw [block]
    exact Nat.le_add_right _ _
  have long : ¬ (acks ++ payload).length < count.toNat * 4 := by
    simp only [List.length_append]
    omega
  have notData : ¬ IsData (byte >>> 3) := by
    rw [isAck]
    decide
  rw [parse_of_shape notData (by simp), parseAcks, if_neg long, if_pos isAck, ← block,
    sliceFrom_of_le (by simp), List.drop_left]
  rfl

end Unroxy.OpenVpn
