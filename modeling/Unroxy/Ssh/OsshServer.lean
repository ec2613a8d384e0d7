import Unroxy.Ssh.OsshRead

/-!
Owns what a reader gets of an SSH server behind an `OsshStream`.

The machine of the reading side drops the lines before the identification,
hands the identification on, normalizes the packets and lets everything behind
NEWKEYS pass, and the code hands out what the machine does.
-/

namespace Unroxy.Ssh

open Unroxy.Lib

/-! ### Lines -/

/-- A CRLF has one at its place or before it. -/
private theorem findCrlf_le_of_crlf (start rest : Bytes) :
    ∃ position ≤ start.length, findCrlf (start ++ (crlf ++ rest)) = some position := by
  induction start with
  | nil => exact ⟨0, Nat.le_refl _, rfl⟩
  | cons byte more inductionHypothesis =>
      rcases inductionHypothesis with ⟨position, within, found⟩
      rw [List.cons_append]
      unfold findCrlf
      split
      · exact ⟨0, Nat.zero_le _, rfl⟩
      · next tail same =>
          cases same
          exact ⟨position + 1, Nat.succ_le_succ within, by rw [found]; rfl⟩
      · next same => cases same

private theorem findCrlf_drop {input : Bytes} {position : Nat}
    (found : findCrlf input = some position) : ∃ rest, input.drop position = crlf ++ rest := by
  induction input using findCrlf.induct generalizing position with
  | case1 rest =>
      rw [findCrlf, Option.some.injEq] at found
      exact ⟨rest, by rw [← found]; rfl⟩
  | case2 byte rest other inductionHypothesis =>
      rw [findCrlf, Option.map_eq_some_iff] at found
      · rcases found with ⟨earlier, found, rfl⟩
        exact inductionHypothesis found
      · exact other
  | case3 => cases found

/-- A line of at most `MAX_LINE` bytes, with its CRLF. -/
structure ServerLine where
  bytes : Bytes
  terminated : findCrlf bytes = some (bytes.length - 2)
  short : bytes.length ≤ maxLine

namespace ServerLine

theorem crlf_suffix (self : ServerLine) : crlf <:+ self.bytes := by
  rcases findCrlf_drop self.terminated with ⟨rest, ends⟩
  have bounds := findCrlf_le self.terminated
  have size := congrArg List.length ends
  simp only [List.length_drop, List.length_append, crlf, List.length_cons] at size
  have nothing : rest = [] := List.length_eq_zero_iff.mp (by simp at size; omega)
  rw [nothing, List.append_nil] at ends
  exact ends ▸ List.drop_suffix _ _

/-- The CRLF is the only one. -/
theorem not_crlf_suffix (self : ServerLine) {start rest : Bytes}
    (split : self.bytes = start ++ rest) (goesOn : rest ≠ []) : ¬ crlf <:+ start := by
  intro ends
  rcases ends with ⟨before, rfl⟩
  rcases findCrlf_le_of_crlf before rest with ⟨position, within, found⟩
  have terminated := self.terminated
  have more := List.length_pos_iff.mpr goesOn
  rw [split, List.append_assoc, found, Option.some.injEq, List.length_append] at terminated
  simp only [List.length_append, crlf, List.length_cons, List.length_nil] at terminated
  omega

end ServerLine

/-- The machine in a line, of which `rest` is still to come. -/
private theorem drain_line (line : ServerLine) (input : Bytes) (rest : Bytes) :
    ∀ (s2c : Rc4) (start : Bytes), line.bytes = start ++ rest → rest ≠ [] →
      reader.drain (.ident start, s2c) ((s2c.apply rest).1 ++ input) =
        let read := readLine line.bytes (s2c.apply rest).2
        (read.1 ++ (reader.drain read.2 input).1, (reader.drain read.2 input).2) := by
  induction rest with
  | nil => exact fun _ _ _ goesOn => absurd rfl goesOn
  | cons byte rest inductionHypothesis =>
      intro s2c start split _
      have pieces := s2c.apply_append [byte] rest
      rw [List.singleton_append] at pieces
      have one : (s2c.apply [byte]).1.length = 1 := s2c.apply_length [byte]
      have found : reader.ahead (.ident start, s2c) (s2c.apply [byte]).1 = some 1 := rfl
      have acts : reader.act (.ident start, s2c) ((s2c.apply [byte]).1.take 1) =
          readLine (start ++ [byte]) (s2c.apply [byte]).2 := by
        rw [List.take_of_length_le (Nat.le_of_eq one)]
        change readLine (start ++ (s2c.apply (s2c.apply [byte]).1).1)
          (s2c.apply (s2c.apply [byte]).1).2 = _
        rw [s2c.apply_apply]
      rw [pieces, List.append_assoc, Transducer.drain_ahead found, acts,
        List.drop_of_length_le (Nat.le_of_eq one), List.nil_append]
      cases rest with
      | nil =>
          rw [Rc4.apply_nil, ← split]
          rfl
      | cons next rest =>
          have split' : line.bytes = start ++ [byte] ++ next :: rest := by
            rw [split, List.append_assoc, List.singleton_append]
          have going := line.not_crlf_suffix split' (List.cons_ne_nil _ _)
          have size : (start ++ [byte]).length ≤ maxLine := by
            refine Nat.le_trans ?_ line.short
            rw [split']
            exact (List.prefix_append _ _).length_le
          have later := inductionHypothesis (s2c.apply [byte]).2 (start ++ [byte]) split'
            (List.cons_ne_nil _ _)
          rw [readLine, if_neg (Nat.not_lt.mpr size),
            if_neg (fun ends => going (List.isSuffixOf_iff_suffix.mp ends))]
          exact later

/-- The machine on a line. -/
theorem drain_serverLine (line : ServerLine) (s2c : Rc4) (input : Bytes) :
    reader.drain (.ident [], s2c) ((s2c.apply line.bytes).1 ++ input) =
      let read : Bytes × Reader :=
        if sshMark.isPrefixOf line.bytes then (line.bytes, .kex, (s2c.apply line.bytes).2)
        else ([], .ident [], (s2c.apply line.bytes).2)
      (read.1 ++ (reader.drain read.2 input).1, (reader.drain read.2 input).2) := by
  have bounds := findCrlf_le line.terminated
  have goesOn : line.bytes ≠ [] := List.length_pos_iff.mp (by omega)
  rw [drain_line line input line.bytes s2c [] rfl goesOn, readLine,
    if_neg (Nat.not_lt.mpr line.short),
    if_pos (List.isSuffixOf_iff_suffix.mpr line.crlf_suffix)]

/-! ### The key exchange -/

/-- The machine on a packet. -/
theorem drain_packet (packet : SshPacket) (s2c : Rc4) (input : Bytes) :
    reader.drain (.kex, s2c) ((s2c.apply packet.bytes).1 ++ input) =
      let state : Reader :=
        (if packet.kind = msgNewkeys then .done else .kex, (s2c.apply packet.bytes).2)
      (normalized packet.bytes ++ (reader.drain state input).1, (reader.drain state input).2) := by
  have long := packet.long
  have size := packet.bytes_length
  have kind := packet.getElem?_bytes
  have length : headerLength (packet.bytes.take 5) = some packet.body.length := by
    rw [headerLength, List.take_take, Nat.min_eq_left (by decide), packet.u32FromBe_bytes]
    dsimp only
    rw [packet.toNat_length]
    exact if_pos ⟨by omega, packet.short⟩
  obtain ⟨header, rest, split, five, behind⟩ : ∃ header rest, packet.bytes = header ++ rest ∧
      header.length = 5 ∧ rest.length = packet.body.length - 1 := by
    refine ⟨packet.bytes.take 5, packet.bytes.drop 5, (List.take_append_drop _ _).symm, ?_, ?_⟩
    · rw [List.length_take]
      omega
    · rw [List.length_drop]
      omega
  rw [split, List.take_left' five] at length
  rw [split] at kind
  have pieces := s2c.apply_append header rest
  -- The beginning
  have found : reader.ahead (.kex, s2c) (s2c.apply header).1 = some 5 := by
    refine if_pos ⟨Nat.le_of_eq (by rw [Rc4.apply_length, five]), ?_⟩
    rw [List.take_of_length_le (by rw [Rc4.apply_length, five]), Rc4.apply_apply, length]
    rfl
  have acts : reader.act (.kex, s2c) ((s2c.apply header).1.take 5) =
      ([], .packet header (packet.body.length - 1), (s2c.apply header).2) := by
    rw [List.take_of_length_le (by rw [Rc4.apply_length, five])]
    change readUnit (.kex, s2c) (s2c.apply header).1 = _
    rw [readUnit, Rc4.apply_apply, length]
    exact if_neg (by omega)
  -- The rest
  have found' : reader.ahead (.packet header (packet.body.length - 1), (s2c.apply header).2)
      ((s2c.apply header).2.apply rest).1 = some (packet.body.length - 1) := by
    refine if_pos ⟨by omega, Nat.le_of_eq ?_⟩
    rw [Rc4.apply_length, behind]
  have acts' : reader.act (.packet header (packet.body.length - 1), (s2c.apply header).2)
      (((s2c.apply header).2.apply rest).1.take (packet.body.length - 1)) =
        (normalized packet.bytes, if packet.kind = msgNewkeys then .done else .kex,
          (s2c.apply packet.bytes).2) := by
    rw [List.take_of_length_le (Nat.le_of_eq (by rw [Rc4.apply_length, behind]))]
    change readPacket (header ++ ((s2c.apply header).2.apply
      ((s2c.apply header).2.apply rest).1).1) ((s2c.apply header).2.apply
      ((s2c.apply header).2.apply rest).1).2 = _
    rw [Rc4.apply_apply, readPacket, kind, split, pieces]
    simp only [Option.some.injEq]
  rw [split, pieces]
  rw [split, pieces] at acts'
  rw [List.append_assoc, Transducer.drain_ahead found, acts,
    List.drop_of_length_le (Nat.le_of_eq (by rw [Rc4.apply_length, five])), List.nil_append,
    List.nil_append, Transducer.drain_ahead found', acts',
    List.drop_of_length_le (Nat.le_of_eq (by rw [Rc4.apply_length, behind])), List.nil_append]

/-! ### The stream -/

/-- A server's stream: lines of its own, its identification line, the packets of
the key exchange up to NEWKEYS, whatever their padding, and what it sends then. -/
structure ServerStream where
  lines : List ServerLine
  other : ∀ line ∈ lines, ¬ sshMark <+: line.bytes
  ident : ServerLine
  ssh : sshMark <+: ident.bytes
  packets : List SshPacket
  ordinary : ∀ packet ∈ packets, packet.kind ≠ msgNewkeys
  newkeys : SshPacket
  last : newkeys.kind = msgNewkeys
  trailing : Bytes

namespace ServerStream

/-- The packets as they are in the stream. -/
def exchange (self : ServerStream) : List Bytes :=
  (self.packets ++ [self.newkeys]).map SshPacket.bytes

/-- What is on the wire, with this state of the server's cipher. -/
def wire (self : ServerStream) (s2c : Rc4) : Bytes :=
  (s2c.apply ((self.lines.map ServerLine.bytes).flatten ++
    (self.ident.bytes ++ self.exchange.flatten))).1 ++ self.trailing

end ServerStream

/-- The machine drops the lines before the identification. -/
private theorem drain_lines (lines : List ServerLine) :
    ∀ (s2c : Rc4) (hidden clear : Bytes), (∀ line ∈ lines, ¬ sshMark <+: line.bytes) →
      ∃ s2c', reader.drain (.ident [], s2c)
          ((s2c.apply ((lines.map ServerLine.bytes).flatten ++ hidden)).1 ++ clear) =
        reader.drain (.ident [], s2c') ((s2c'.apply hidden).1 ++ clear) := by
  induction lines with
  | nil => exact fun s2c _ _ _ => ⟨s2c, rfl⟩
  | cons line lines inductionHypothesis =>
      intro s2c hidden clear other
      have plain : ¬ sshMark.isPrefixOf line.bytes :=
        fun starts => other line List.mem_cons_self (List.isPrefixOf_iff_prefix.mp starts)
      rcases inductionHypothesis (s2c.apply line.bytes).2 hidden clear
        fun line member => other line (List.mem_cons_of_mem _ member) with ⟨s2c', drained⟩
      refine ⟨s2c', ?_⟩
      rw [List.map_cons, List.flatten_cons, List.append_assoc, Rc4.apply_append,
        List.append_assoc, drain_serverLine, if_neg plain]
      exact drained

/-- The machine on a key exchange and what comes then. -/
private theorem drain_serverExchange {newkeys : SshPacket} (last : newkeys.kind = msgNewkeys)
    (trailing : Bytes) (packets : List SshPacket) :
    ∀ s2c : Rc4, (∀ packet ∈ packets, packet.kind ≠ msgNewkeys) →
      let units := (packets ++ [newkeys]).map SshPacket.bytes
      ∃ state, reader.drain (.kex, s2c) ((s2c.apply units.flatten).1 ++ trailing) =
        ((units.map normalized).flatten ++ trailing, state, []) := by
  induction packets with
  | nil =>
      intro s2c _
      refine ⟨(.done, (s2c.apply newkeys.bytes).2), ?_⟩
      simp only [List.nil_append, List.map_cons, List.map_nil, List.flatten_singleton]
      rw [drain_packet, if_pos last]
      dsimp only
      rw [reader_drain_done]
  | cons packet packets inductionHypothesis =>
      intro s2c ordinary
      rcases inductionHypothesis (s2c.apply packet.bytes).2
        fun other member => ordinary other (List.mem_cons_of_mem _ member) with ⟨state, drained⟩
      refine ⟨state, ?_⟩
      simp only [List.cons_append, List.map_cons, List.flatten_cons]
      rw [Rc4.apply_append, List.append_assoc, drain_packet,
        if_neg (ordinary packet List.mem_cons_self)]
      dsimp only at drained ⊢
      rw [drained, List.append_assoc]

namespace ServerStream

/-- What a reader is to get. -/
def plain (self : ServerStream) : Bytes :=
  self.ident.bytes ++ (self.exchange.map normalized).flatten ++ self.trailing

private theorem drain_wire (server : ServerStream) (s2c : Rc4) :
    ∃ state, reader.drain (.ident [], s2c) (server.wire s2c) = (server.plain, state, []) := by
  have ssh := List.isPrefixOf_iff_prefix.mpr server.ssh
  rcases drain_lines server.lines s2c (server.ident.bytes ++ server.exchange.flatten)
    server.trailing server.other with ⟨s2c', dropped⟩
  rcases drain_serverExchange server.last server.trailing server.packets
    (s2c'.apply server.ident.bytes).2 server.ordinary with ⟨state, drained⟩
  refine ⟨state, ?_⟩
  rw [wire, dropped, Rc4.apply_append, List.append_assoc, drain_serverLine, if_pos ssh]
  change (server.ident.bytes ++ (reader.drain (.kex, _) (_ ++ server.trailing)).1,
    (reader.drain (.kex, _) (_ ++ server.trailing)).2) = _
  change reader.drain (.kex, _) ((Rc4.apply _ server.exchange.flatten).1 ++ server.trailing) =
    ((server.exchange.map normalized).flatten ++ server.trailing, state, []) at drained
  rw [drained, plain, List.append_assoc]

/-- `normalize_packet` takes every packet. -/
private theorem exchange_normalized (server : ServerStream) :
    server.exchange.mapM normalizePacket = .ok (server.exchange.map normalized) := by
  have each : ∀ packets : List SshPacket, (packets.map SshPacket.bytes).mapM normalizePacket =
      .ok ((packets.map SshPacket.bytes).map normalized) := by
    intro packets
    induction packets with
    | nil => rfl
    | cons packet packets inductionHypothesis =>
        have five : 5 ≤ packet.bytes.length := by
          have long := packet.long
          have size := packet.bytes_length
          omega
        rw [List.map_cons, List.mapM_cons, normalizePacket_eq five, inductionHypothesis]
        rfl
  exact each _

end ServerStream

/-- However a server's stream arrives and whatever the sizes of the reader's
buffers, they are filled with the beginning of the identification line, the
normalized packets and the bytes behind NEWKEYS, and with all of it when all has
arrived and there are enough calls. -/
theorem reads_transparent (sha1 : Sha1) (keyword : String) (seed : Vector UInt8 seedLength)
    (padding : Bytes) (server : ServerStream) {reads : List ReadAnswer} {later : Bytes}
    (arrived : arriving reads ++ later =
      server.wire (Rc4.new (deriveKey sha1 seed keyword.toUTF8.toList
        "server_to_client".toUTF8.toList).toList))
    (writes : List WriteAnswer) (sizes : List Nat) :
    ∃ packets returned after, server.exchange.mapM normalizePacket = .ok packets ∧
      (OsshStream.new sha1 ⟨[], writes, reads⟩ keyword seed padding).readAll sizes =
        .ok (returned, after) ∧
      returned <+: server.ident.bytes ++ packets.flatten ++ server.trailing ∧
      (later = [] →
        reads.length + (server.ident.bytes ++ packets.flatten ++ server.trailing).length ≤
          sizes.countP (0 < ·) →
        returned = server.ident.bytes ++ packets.flatten ++ server.trailing) := by
  let origin := OsshStream.new sha1 ⟨[], writes, reads⟩ keyword seed padding
  have facing : origin.Facing (arriving origin.inner.reads ++ later) server.plain := by
    refine ⟨fun header remaining held => ?_, ?_⟩
    · cases held
    · change ∃ last, reader.drain (.ident [], origin.s2c) (arriving reads ++ later) = _
      rw [arrived]
      exact server.drain_wire _
  rcases OsshStream.readAll_facing sizes facing with ⟨returned, after, read, starts, whole⟩
  exact ⟨_, returned, after, server.exchange_normalized, read, starts, whole⟩

/-- A line to drop, and a short key exchange. -/
def shortServer : ServerStream where
  lines := [⟨[104, 105, 13, 10], by decide, by decide⟩]
  other := by
    intro line member
    rw [List.mem_singleton.mp member]
    decide
  ident := ⟨[83, 83, 72, 45, 50, 13, 10], by decide, by decide⟩
  ssh := by decide
  packets := [⟨[5, 20, 7, 1, 2, 3, 4, 5], by decide, by decide⟩]
  ordinary := by
    intro packet member
    rw [List.mem_singleton.mp member]
    decide
  newkeys := ⟨[4, 21, 9, 9, 9, 9], by decide, by decide⟩
  last := by decide
  trailing := [1, 2, 3]

/-- Its stream in two pieces. -/
def shortReads (s2c : Rc4) : List ReadAnswer :=
  have size : (shortServer.wire s2c).length ≤ readSize := by
    rw [ServerStream.wire, List.length_append, Rc4.apply_length]
    decide
  [.delivers ⟨(shortServer.wire s2c).take 13, Nat.le_trans (List.length_take_le' _ _) size⟩,
    .pending,
    .delivers ⟨(shortServer.wire s2c).drop 13,
      Nat.le_trans (List.drop_sublist _ _).length_le size⟩]

/-- The reader takes a byte at a time. -/
theorem reads_transparent_short :
    ∃ returned after,
      (OsshStream.new Sha1.digest
        ⟨[], [], shortReads (Rc4.new (deriveKey Sha1.digest (Vector.replicate 16 5)
          "key".toUTF8.toList "server_to_client".toUTF8.toList).toList)⟩
        "key" (Vector.replicate 16 5) []).readAll (List.replicate 60 1) = .ok (returned, after) ∧
      returned = [83, 83, 72, 45, 50, 13, 10] ++
        [0, 0, 0, 12, 9, 20, 7, 0, 0, 0, 0, 0, 0, 0, 0, 0] ++
        [0, 0, 0, 12, 10, 21, 0, 0, 0, 0, 0, 0, 0, 0, 0, 0] ++ [1, 2, 3] := by
  have arrived (s2c : Rc4) : arriving (shortReads s2c) ++ [] = shortServer.wire s2c := by
    change (shortServer.wire s2c).take 13 ++ ([] ++ ((shortServer.wire s2c).drop 13 ++ [])) ++ [] =
      shortServer.wire s2c
    rw [List.nil_append, List.append_nil, List.append_nil, List.take_append_drop]
  rcases reads_transparent Sha1.digest "key" (Vector.replicate 16 5) [] shortServer (arrived _) []
    (List.replicate 60 1) with ⟨packets, returned, after, taken, read, -, whole⟩
  have found : shortServer.exchange.mapM normalizePacket =
      .ok [[0, 0, 0, 12, 9, 20, 7, 0, 0, 0, 0, 0, 0, 0, 0, 0],
        [0, 0, 0, 12, 10, 21, 0, 0, 0, 0, 0, 0, 0, 0, 0, 0]] := by decide
  cases found.symm.trans taken
  exact ⟨returned, after, read, whole rfl (by decide)⟩

end Unroxy.Ssh
