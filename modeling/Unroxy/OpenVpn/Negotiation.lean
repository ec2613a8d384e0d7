import Unroxy.OpenVpn.Control

/-!
Owns what `exchange_keys` and `push_request` compute from the chunks the server's
plaintext comes in.

Each of the two loops collects chunks in a buffer of its own. The chunk that
completes the key exchange is dropped with all that stands behind the key
material in it, so the outcome is the same for every way of cutting the stream
only if no message stands there.

Does not own the loops themselves; `NegotiationRun` shows that they compute
`negotiateChunks`.
-/

namespace Unroxy.OpenVpn

open Unroxy.Lib

namespace Session

abbrev Randoms := Vector UInt8 32 × Vector UInt8 32

def pushReply : Bytes := "PUSH_REPLY".toUTF8.toList

def authFailed : Bytes := "AUTH_FAILED".toUTF8.toList

/-- The length of the server's key material with what stands before it. -/
def keyMessageLen : Nat := 5 + keySourceServerLen

/-! ### The loops on chunks -/

def pushChunks : Bytes → List Bytes → Outcome Error Bytes
  | _, [] => .pending
  | buffer, chunk :: rest =>
      match takeMessage (buffer ++ chunk) pushReply with
      | some (reply, _) => .ok reply
      | none =>
          match takeMessage (buffer ++ chunk) authFailed with
          | some _ => .error .auth
          | none => pushChunks (buffer ++ chunk) rest

/-- The server's randoms, and what `push_request` then returns. -/
def negotiateChunks : Bytes → List Bytes → Outcome Error (Randoms × Outcome Error Bytes)
  | _, [] => .pending
  | buffer, chunk :: rest => do
      match ← serverRandoms (buffer ++ chunk) with
      | none => negotiateChunks (buffer ++ chunk) rest
      | some randoms => return (randoms, pushChunks [] rest)

/-! ### Messages in a stream -/

private theorem take_eq_marker_iff (marker bytes : Bytes) :
    bytes.take marker.length = marker ↔ marker <+: bytes := by
  rw [List.prefix_iff_eq_take, eq_comm]

/-- A message is there if the marker is, with a zero byte somewhere behind its
start. -/
theorem takeMessage_isSome_iff (buffer marker : Bytes) :
    (takeMessage buffer marker).isSome ↔
      ∃ start, marker <+: buffer.drop start ∧ 0 ∈ buffer.drop start := by
  unfold takeMessage
  simp only [take_eq_marker_iff]
  constructor
  · intro found
    split at found
    case h_1 => cases found
    case h_2 start first =>
      split at found
      case h_1 => cases found
      case h_2 offset zero =>
        have some : ((buffer.drop start).findIdx? (· = 0)).isSome = true := by
          rw [zero]
          rfl
        rw [List.findIdx?_isSome, List.any_eq_true] at some
        rcases some with ⟨byte, present, isZero⟩
        have marked := List.find?_some first
        exact ⟨start, of_decide_eq_true marked, of_decide_eq_true isZero ▸ present⟩
  · rintro ⟨start, marked, zero⟩
    have within : start < buffer.length + 1 - marker.length := by
      have fits := marked.length_le
      have more := List.length_pos_of_mem zero
      rw [List.length_drop] at fits more
      omega
    cases first : (List.range (buffer.length + 1 - marker.length)).find? fun start =>
        decide (marker <+: buffer.drop start) with
    | none =>
        have never := List.find?_eq_none.mp first start (List.mem_range.mpr within)
        exact absurd (decide_eq_true marked) never
    | some earliest =>
        have before : earliest ≤ start := by
          by_contra later
          have not := (List.find?_range_eq_some.mp first).2.2 start (Nat.lt_of_not_le later)
          simp [marked] at not
        have present : 0 ∈ buffer.drop earliest := by
          rw [← Nat.add_sub_of_le before, ← List.drop_drop] at zero
          exact List.mem_of_mem_drop zero
        have some : ((buffer.drop earliest).findIdx? (· = 0)).isSome = true := by
          rw [List.findIdx?_isSome, List.any_eq_true]
          exact ⟨0, present, rfl⟩
        rcases Option.isSome_iff_exists.mp some with ⟨offset, zeroAt⟩
        simp only [zeroAt, Option.isSome_some]

/-- A message of a part of a stream is one of the stream. -/
theorem takeMessage_none_of_infix {part stream marker : Bytes} (inside : part <:+: stream)
    (none : takeMessage stream marker = none) : takeMessage part marker = .none := by
  rw [← Option.not_isSome_iff_eq_none, takeMessage_isSome_iff] at none ⊢
  rintro ⟨start, marked, zero⟩
  rcases inside with ⟨before, behind, rfl⟩
  have moved : (before ++ part ++ behind).drop (before.length + start) =
      part.drop start ++ behind.drop (start - part.length) := by
    rw [List.append_assoc, ← List.drop_drop, List.drop_left, List.drop_append]
  refine none ⟨before.length + start, ?_, ?_⟩
  · rw [moved]
    exact marked.trans (List.prefix_append _ _)
  · rw [moved]
    exact List.mem_append_left _ zero

/-- A stream without messages leaves `push_request` waiting. -/
private theorem pushChunks_quiet {stream : Bytes} (noReply : takeMessage stream pushReply = none)
    (noFailure : takeMessage stream authFailed = none) (chunks : List Bytes) :
    ∀ buffer : Bytes, buffer ++ chunks.flatten <:+: stream →
      pushChunks buffer chunks = .pending := by
  induction chunks with
  | nil => exact fun _ _ => rfl
  | cons chunk rest inductionHypothesis =>
      intro buffer inside
      rw [List.flatten_cons, ← List.append_assoc] at inside
      have part : buffer ++ chunk <:+: stream := by
        refine List.IsInfix.trans ?_ inside
        exact (List.prefix_append _ _).isInfix
      rw [pushChunks, takeMessage_none_of_infix part noReply,
        takeMessage_none_of_infix part noFailure]
      exact inductionHypothesis _ inside

/-! ### The key message -/

private theorem serverRandoms_short {buffer : Bytes} (short : buffer.length < keyMessageLen) :
    serverRandoms buffer = .ok none := by
  unfold serverRandoms
  exact if_pos short

private theorem serverRandoms_full {buffer : Bytes} (full : keyMessageLen ≤ buffer.length) :
    serverRandoms buffer =
      if buffer.getD 4 0 ≠ 2 then
        .error (.control ("key method " ++ toString (buffer.getD 4 0).toNat))
      else
        .ok (some (Vector.ofFn fun i => buffer.getD (5 + i) 0,
          Vector.ofFn fun i => buffer.getD (5 + 32 + i) 0)) := by
  unfold serverRandoms
  exact if_neg (Nat.not_lt.mpr full)

/-- What the first chunks decide about the key exchange stays decided. -/
private theorem serverRandoms_append {buffer : Bytes} (full : keyMessageLen ≤ buffer.length)
    (more : Bytes) : serverRandoms (buffer ++ more) = serverRandoms buffer := by
  have same (position : Nat) (inside : position < keyMessageLen) :
      (buffer ++ more).getD position 0 = buffer.getD position 0 := by
    rw [List.getD_eq_getElem?_getD, List.getD_eq_getElem?_getD,
      List.getElem?_append_left (by omega)]
  have longer : keyMessageLen ≤ (buffer ++ more).length := by
    rw [List.length_append]
    omega
  have first : (fun i : Fin 32 => (buffer ++ more).getD (5 + i) 0) =
      fun i : Fin 32 => buffer.getD (5 + i) 0 := by
    funext i
    apply same
    unfold keyMessageLen keySourceServerLen
    omega
  have second : (fun i : Fin 32 => (buffer ++ more).getD (5 + 32 + i) 0) =
      fun i : Fin 32 => buffer.getD (5 + 32 + i) 0 := by
    funext i
    apply same
    unfold keyMessageLen keySourceServerLen
    omega
  rw [serverRandoms_full full, serverRandoms_full longer, same 4 (by decide), first, second]

/-! ### Ways of cutting a stream -/

/-- No message stands behind the key material. -/
def Separate (stream : Bytes) : Prop :=
  stream.length < keyMessageLen ∨ stream.getD 4 0 ≠ 2 ∨
    (takeMessage (stream.drop keyMessageLen) pushReply = none ∧
      takeMessage (stream.drop keyMessageLen) authFailed = none)

/-- The outcome of a stream without a message. -/
def quietOutcome (stream : Bytes) : Outcome Error (Randoms × Outcome Error Bytes) := do
  match ← serverRandoms stream with
  | none => .pending
  | some randoms => return (randoms, .pending)

private theorem negotiateChunks_separate {stream : Bytes} (separate : Separate stream)
    (chunks : List Bytes) :
    ∀ buffer : Bytes, buffer.length < keyMessageLen → buffer ++ chunks.flatten = stream →
      negotiateChunks buffer chunks = quietOutcome stream := by
  induction chunks with
  | nil =>
      intro buffer short same
      rw [List.flatten_nil, List.append_nil] at same
      rw [← same, quietOutcome, serverRandoms_short short]
      rfl
  | cons chunk rest inductionHypothesis =>
      intro buffer short same
      rw [List.flatten_cons, ← List.append_assoc] at same
      rw [negotiateChunks]
      rcases Nat.lt_or_ge (buffer ++ chunk).length keyMessageLen with incomplete | full
      · rw [serverRandoms_short incomplete]
        exact inductionHypothesis _ incomplete same
      · -- the exchange ends here; what follows is a part of what stands behind it
        have decided := serverRandoms_append full rest.flatten
        rw [same] at decided
        rw [quietOutcome, ← decided, decided, serverRandoms_full full]
        split
        case isTrue => rfl
        case isFalse method =>
          have behind : [] ++ rest.flatten <:+: stream.drop keyMessageLen := by
            rw [← same, List.drop_append_of_le_length full]
            exact (List.suffix_append _ _).isInfix
          have quiet : pushChunks [] rest = .pending := by
            rcases separate with short | other | ⟨noReply, noFailure⟩
            · rw [← same, List.length_append] at short
              omega
            · have inside : 4 < (buffer ++ chunk).length := Nat.lt_of_lt_of_le (by decide) full
              rw [← same, List.getD_eq_getElem?_getD, List.getElem?_append_left inside,
                ← List.getD_eq_getElem?_getD] at other
              exact absurd other method
            · exact pushChunks_quiet noReply noFailure rest [] behind
          change Outcome.ok (_, pushChunks [] rest) = .ok (_, .pending)
          rw [quiet]

/-- A message in one chunk ends `push_request`. -/
private theorem pushChunks_message {chunk : Bytes}
    (message : takeMessage chunk pushReply = none → takeMessage chunk authFailed ≠ none) :
    pushChunks [] [chunk] ≠ .pending := by
  rw [pushChunks, List.nil_append]
  cases reply : takeMessage chunk pushReply with
  | some found =>
      intro pending
      cases pending
  | none =>
      cases failure : takeMessage chunk authFailed with
      | some found =>
      intro pending
      cases pending
      | none => exact absurd failure (message reply)

/-- Every way of cutting the stream leads to the same outcome exactly if no
message stands behind the key material. -/
theorem negotiateChunks_agree_iff (stream : Bytes) :
    (∀ chunks chunks' : List Bytes, chunks.flatten = stream → chunks'.flatten = stream →
      negotiateChunks [] chunks = negotiateChunks [] chunks') ↔ Separate stream := by
  constructor
  · intro agree
    by_contra mixed
    simp only [Separate, not_or, not_and, Nat.not_lt, not_not] at mixed
    rcases mixed with ⟨full, method, message⟩
    have headFull : keyMessageLen ≤ (stream.take keyMessageLen).length := by
      rw [List.length_take]
      omega
    obtain ⟨randoms, complete⟩ : ∃ randoms, serverRandoms stream = .ok (some randoms) :=
      ⟨_, by rw [serverRandoms_full full, if_neg (not_not.mpr method)]⟩
    have decided := serverRandoms_append headFull (stream.drop keyMessageLen)
    rw [List.take_append_drop, complete] at decided
    have whole : negotiateChunks [] [stream] = .ok (randoms, .pending) := by
      rw [negotiateChunks, List.nil_append, complete]
      rfl
    have parts : negotiateChunks [] [stream.take keyMessageLen, stream.drop keyMessageLen] =
        .ok (randoms, pushChunks [] [stream.drop keyMessageLen]) := by
      rw [negotiateChunks, List.nil_append, ← decided]
      rfl
    have same := agree [stream] [stream.take keyMessageLen, stream.drop keyMessageLen]
      (by simp) (by simp)
    rw [whole, parts, Outcome.ok.injEq, Prod.mk.injEq] at same
    exact pushChunks_message message same.2.symm
  · intro separate chunks chunks' same same'
    rw [negotiateChunks_separate separate chunks [] (by decide) same,
      negotiateChunks_separate separate chunks' [] (by decide) same']

end Session

end Unroxy.OpenVpn
