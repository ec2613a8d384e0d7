import Unroxy.Lib.Reorder
import Unroxy.OpenVpn.ControlStream

/-!
Owns the receiving side of the control channel: which payloads
`accept_control` hands to TLS, and in which order.

`Mirrors` relates the code's counter and map to the receiver of
`Unroxy.Lib.Reorder`; `acceptControl_spec` says that a call is one step of that
receiver and feeds TLS exactly the packets the step delivers. What holds of
every run is then read off the receiver.
-/

namespace Unroxy.OpenVpn

open Unroxy.Lib

/-- The bound on `reorder`. -/
abbrev reorderLimit : Nat := 32

namespace TlsState

variable {σ : Type}

/-- `feed` does not fail. -/
def Open (state : TlsState σ) : Prop := state.handshake.isSome ∨ state.stream.isSome

instance (state : TlsState σ) : Decidable (Open state) := inferInstanceAs (Decidable (_ ∨ _))

/-- Feed these payloads, one call each. -/
def feedAll (engine : Engine σ) : List Bytes → Task (TlsState σ) Error Unit
  | [] => pure ()
  | payload :: rest => do
      feed engine payload
      feedAll engine rest

theorem feed_open (engine : Engine σ) {state : TlsState σ} (isOpen : state.Open)
    (payload : Bytes) :
    ∃ after, feed engine payload state = (.ok (), after) ∧ after.Open := by
  rcases handshake : state.handshake with - | ⟨session, memory⟩
  · rcases stream : state.stream with - | ⟨session, memory⟩
    · simp [Open, handshake, stream] at isOpen
    · simp only [feed, pump, Task.run_bind, Task.run_gets, id, handshake, stream, Task.run_modify]
      exact ⟨_, rfl, .inr rfl⟩
  · simp only [feed, Task.run_bind, Task.run_gets, id, handshake, Task.run_modify]
    exact ⟨_, rfl, .inl rfl⟩

theorem feedAll_append {engine : Engine σ} {first between : TlsState σ} (payloads : List Bytes)
    (later : List Bytes) (done : feedAll engine payloads first = (.ok (), between)) :
    feedAll engine (payloads ++ later) first = feedAll engine later between := by
  induction payloads generalizing first with
  | nil =>
      cases done
      rfl
  | cons payload rest inductionHypothesis =>
      rcases Task.of_bind_ok done with ⟨_, reached, fed, done⟩
      rw [List.cons_append, feedAll, Task.run_bind_ok fed]
      exact inductionHypothesis done

end TlsState

namespace Session

variable {σ : Type} {engine : Engine σ}

/-! ### The map and the receiver -/

/-- The code's counter and map are those of the receiver. -/
structure Mirrors (receiver : Reorder reorderLimit) (control : Control σ) : Prop where
  next : control.recvNext.toNat = receiver.next
  held : ∀ id, id ∈ control.reorder ↔ id.toNat ∈ receiver.held
  size : control.reorder.size = receiver.held.card
  words : ∀ id ∈ receiver.held, id < 2 ^ 32

/-- The payloads under these packet ids, in order. -/
def payloadsOf (payload : UInt32 → Bytes) (first last : Nat) : List Bytes :=
  (List.range' first (last - first)).map fun id => payload (UInt32.ofNat id)

theorem payloadsOf_self (payload : UInt32 → Bytes) (first : Nat) :
    payloadsOf payload first first = [] := by
  rw [payloadsOf, Nat.sub_self]
  rfl

theorem payloadsOf_succ (payload : UInt32 → Bytes) {first last : Nat} (ordered : first ≤ last) :
    payloadsOf payload first (last + 1) =
      payloadsOf payload first last ++ [payload (UInt32.ofNat last)] := by
  rw [payloadsOf, Nat.succ_sub ordered, List.range'_1_concat, List.map_append,
    Nat.add_sub_of_le ordered]
  rfl

theorem payloadsOf_cons (payload : UInt32 → Bytes) {first last : Nat} (ordered : first < last) :
    payloadsOf payload first last =
      payload (UInt32.ofNat first) :: payloadsOf payload (first + 1) last := by
  rw [payloadsOf, show last - first = (last - (first + 1)) + 1 by omega, List.range'_succ]
  rfl

/-- The session with another TLS state, counter and map. -/
def received (self : Session σ) (tls : TlsState σ) (recvNext : UInt32)
    (reorder : Std.TreeMap UInt32 Bytes) : Session σ :=
  { self with control := { self.control with tls, recvNext, reorder } }

/-- The loop of `accept_control` under way from `origin`: the packets up to the
counter have been fed and are gone from the map. -/
structure Draining (engine : Engine σ) (payload : UInt32 → Bytes) (origin : Session σ)
    (held : Finset Nat) (session : Session σ) : Prop where
  frame : session = origin.received session.control.tls session.control.recvNext session.control.reorder
  ordered : origin.control.recvNext.toNat ≤ session.control.recvNext.toNat
  within : session.control.recvNext.toNat ≤ Reorder.gap held origin.control.recvNext.toNat
  entry : ∀ id, session.control.reorder[id]? =
    if session.control.recvNext.toNat ≤ id.toNat ∧ id.toNat ∈ held then some (payload id) else none
  size : session.control.reorder.size = (held.filter (session.control.recvNext.toNat ≤ ·)).card
  fed : TlsState.feedAll engine (payloadsOf payload origin.control.recvNext.toNat
    session.control.recvNext.toNat) origin.control.tls = (.ok (), session.control.tls)
  isOpen : session.control.tls.Open

private theorem filter_le_eq_insert {held : Finset Nat} {next : Nat} (present : next ∈ held) :
    held.filter (next ≤ ·) = insert next (held.filter (next + 1 ≤ ·)) := by
  ext id
  simp only [Finset.mem_filter, Finset.mem_insert]
  constructor
  · rintro ⟨found, atLeast⟩
    rcases Nat.eq_or_lt_of_le atLeast with rfl | later
    · exact .inl rfl
    · exact .inr ⟨found, later⟩
  · rintro (rfl | ⟨found, later⟩)
    · exact ⟨present, le_rfl⟩
    · exact ⟨found, by omega⟩

/-- What is taken out of the buffer makes it smaller. -/
theorem size_erase_of_entry {reorder : Std.TreeMap UInt32 Bytes} {id : UInt32} {payload : Bytes}
    (entry : reorder[id]? = some payload) : (reorder.erase id).size + 1 = reorder.size := by
  have present : id ∈ reorder := by
    rw [Std.TreeMap.mem_iff_isSome_getElem?, entry]
    rfl
  have nonempty := Std.TreeMap.isEmpty_eq_false_of_contains present
  rw [Std.TreeMap.isEmpty_eq_size_eq_zero, beq_eq_false_iff_ne] at nonempty
  rw [Std.TreeMap.size_erase, if_pos (Std.TreeMap.contains_iff_mem.mpr present)]
  omega

/-- A turn of the loop takes the packet whose turn it is, or finds none. -/
private theorem Draining.turn {payload : UInt32 → Bytes} {origin : Session σ} {held : Finset Nat}
    (reachable : Reorder.gap held origin.control.recvNext.toNat < 2 ^ 32) {self : Session σ}
    (draining : Draining engine payload origin held self) :
    (self.control.reorder[self.control.recvNext]? = none ∧
        self.control.recvNext.toNat = Reorder.gap held origin.control.recvNext.toNat) ∨
      ∃ tls, self.control.reorder[self.control.recvNext]? =
          some (payload self.control.recvNext) ∧
        TlsState.feed engine (payload self.control.recvNext) self.control.tls = (.ok (), tls) ∧
        Draining engine payload origin held (self.received tls (self.control.recvNext + 1)
          (self.control.reorder.erase self.control.recvNext)) ∧
        (self.control.reorder.erase self.control.recvNext).size < self.control.reorder.size := by
  have entry := draining.entry self.control.recvNext
  by_cases present : self.control.recvNext.toNat ∈ held
  case neg =>
    rw [if_neg fun both => present both.2] at entry
    refine .inl ⟨entry, Nat.le_antisymm draining.within ?_⟩
    by_contra early
    exact present (Reorder.mem_of_lt_gap draining.ordered (Nat.lt_of_not_le early))
  case pos =>
    rw [if_pos ⟨le_rfl, present⟩] at entry
    have below : self.control.recvNext.toNat <
        Reorder.gap held origin.control.recvNext.toNat := by
      apply Nat.lt_of_le_of_ne draining.within
      intro same
      exact Reorder.gap_notMem held origin.control.recvNext.toNat (same ▸ present)
    have succ : (self.control.recvNext + 1).toNat = self.control.recvNext.toNat + 1 := by
      rw [UInt32.toNat_add]
      exact Nat.mod_eq_of_lt (by simp only [UInt32.toNat_one]; omega)
    have smaller := size_erase_of_entry entry
    rcases TlsState.feed_open engine draining.isOpen (payload self.control.recvNext) with
      ⟨tls, fed, isOpen⟩
    refine .inr ⟨tls, entry, fed, ?_, by omega⟩
    exact {
      frame := by
        rw [draining.frame]
        rfl
      ordered := by
        change _ ≤ (self.control.recvNext + 1).toNat
        have := draining.ordered
        omega
      within := by
        change (self.control.recvNext + 1).toNat ≤ _
        omega
      entry := by
        intro id
        change (self.control.reorder.erase self.control.recvNext)[id]? =
          if (self.control.recvNext + 1).toNat ≤ id.toNat ∧ id.toNat ∈ held then _ else none
        rw [Std.TreeMap.getElem?_erase, draining.entry id, succ]
        by_cases same : self.control.recvNext = id
        · subst same
          rw [if_pos Std.ReflCmp.compare_self, if_neg fun both => by omega]
        · have notSame : self.control.recvNext.toNat ≠ id.toNat := fun equal =>
            same (UInt32.toNat_inj.mp equal)
          rw [if_neg fun equal => same (Std.LawfulEqCmp.eq_of_compare equal)]
          exact if_congr (and_congr_left' (by omega)) rfl rfl
      size := by
        change (self.control.reorder.erase self.control.recvNext).size =
          (held.filter ((self.control.recvNext + 1).toNat ≤ ·)).card
        have size := draining.size
        rw [filter_le_eq_insert present, Finset.card_insert_of_notMem (by simp)] at size
        rw [succ]
        omega
      fed := by
        change TlsState.feedAll engine (payloadsOf payload _ (self.control.recvNext + 1).toNat) _ =
          (.ok (), tls)
        rw [succ, payloadsOf_succ payload draining.ordered, UInt32.ofNat_toNat]
        rw [TlsState.feedAll_append _ _ draining.fed, TlsState.feedAll, Task.run_bind_ok fed]
        rfl
      isOpen := isOpen }

/-- The loop feeds everything up to the first number that is not held. -/
private theorem drainReorder_spec {payload : UInt32 → Bytes} {origin : Session σ}
    {held : Finset Nat}
    (reachable : Reorder.gap held origin.control.recvNext.toNat < 2 ^ 32) :
    Task.Triple (Draining engine payload origin held) (drainReorder engine)
      (fun _ self => Draining engine payload origin held self ∧
        self.control.recvNext.toNat = Reorder.gap held origin.control.recvNext.toNat)
      (fun _ _ => False) := by
  refine Task.Triple.loop (fun _ => Draining engine payload origin held)
    (fun _ self => self.control.reorder.size) (fun _ _ => le_rfl) fun _ bound => ?_
  rintro self ⟨draining, rfl⟩
  simp only [Task.run_bind, Task.run_gets]
  rcases draining.turn reachable with ⟨missing, atGap⟩ | ⟨tls', found, fed, next, smaller⟩
  · rw [missing]
    exact ⟨draining, atGap⟩
  · rw [found]
    simp only [update, tls, Task.zoom, Task.run_bind, Task.run_modify, Task.run_pure, fed]
    exact ⟨next, smaller⟩

/-! ### One packet -/

/-- What one call of `accept_control` leaves behind: the receiver's step, and TLS
fed with the packets it delivers. -/
structure Accepted (engine : Engine σ) (payload : UInt32 → Bytes)
    (receiver after : Reorder reorderLimit) (before session : Session σ) : Prop where
  frame : session = before.received session.control.tls session.control.recvNext
    session.control.reorder
  mirrors : Mirrors after session.control
  entry : ∀ id, id.toNat ∈ after.held → session.control.reorder[id]? = some (payload id)
  fed : TlsState.feedAll engine (payloadsOf payload receiver.next after.next)
    before.control.tls = (.ok (), session.control.tls)
  isOpen : session.control.tls.Open

/-- Nothing is fed while the receiver stands still. -/
private theorem Accepted.unchanged {payload : UInt32 → Bytes} {receiver : Reorder reorderLimit}
    {self : Session σ} (mirrors : Mirrors receiver self.control)
    (entry : ∀ id, id.toNat ∈ receiver.held → self.control.reorder[id]? = some (payload id))
    (isOpen : self.control.tls.Open) : Accepted engine payload receiver receiver self self where
  frame := rfl
  mirrors := mirrors
  entry := entry
  fed := by
    rw [payloadsOf_self]
    rfl
  isOpen := isOpen

/-- A packet put into the map is held by the receiver. -/
private theorem Mirrors.insert {receiver : Reorder reorderLimit} {control : Control σ}
    (mirrors : Mirrors receiver control) {packetId : UInt32}
    (ahead : receiver.next < packetId.toNat) (room : receiver.held.card < reorderLimit)
    (payload : Bytes) :
    Mirrors (receiver.accept packetId.toNat)
      { control with reorder := control.reorder.insert packetId payload } := by
  obtain ⟨next, held⟩ := Reorder.accept_room ahead room
  exact {
    next := mirrors.next.trans next.symm
    held := by
      intro id
      rw [Std.TreeMap.mem_insert, held, Finset.mem_insert, mirrors.held,
        Std.LawfulEqCmp.compare_eq_iff_eq, UInt32.toNat_inj, eq_comm]
    size := by
      rw [Std.TreeMap.size_insert, held, mirrors.size]
      by_cases present : packetId ∈ control.reorder
      · rw [if_pos (Std.TreeMap.contains_iff_mem.mpr present),
          Finset.insert_eq_of_mem ((mirrors.held packetId).mp present)]
      · rw [if_neg fun contained => present (Std.TreeMap.contains_iff_mem.mp contained),
          Finset.card_insert_of_notMem fun found => present ((mirrors.held packetId).mpr found)]
    words := by
      intro id found
      rw [held, Finset.mem_insert] at found
      rcases found with rfl | found
      · exact packetId.toNat_lt
      · exact mirrors.words id found }

private theorem Accepted.insert {payload : UInt32 → Bytes} {receiver : Reorder reorderLimit}
    {self : Session σ} (mirrors : Mirrors receiver self.control)
    (entry : ∀ id, id.toNat ∈ receiver.held → self.control.reorder[id]? = some (payload id))
    (isOpen : self.control.tls.Open) {packetId : UInt32} (ahead : receiver.next < packetId.toNat)
    (room : receiver.held.card < reorderLimit) :
    Accepted engine payload receiver (receiver.accept packetId.toNat) self
      (self.received self.control.tls self.control.recvNext
        (self.control.reorder.insert packetId (payload packetId))) := by
  obtain ⟨next, held⟩ := Reorder.accept_room ahead room
  exact {
    frame := rfl
    mirrors := mirrors.insert ahead room (payload packetId)
    entry := by
      intro id found
      change (self.control.reorder.insert packetId (payload packetId))[id]? = _
      rw [held, Finset.mem_insert] at found
      rw [Std.TreeMap.getElem?_insert]
      by_cases same : packetId = id
      · subst same
        rw [if_pos Std.ReflCmp.compare_self]
      · rw [if_neg fun equal => same (Std.LawfulEqCmp.eq_of_compare equal)]
        exact entry id (found.resolve_left fun equal => same (UInt32.toNat_inj.mp equal).symm)
    fed := by
      rw [next, payloadsOf_self]
      rfl
    isOpen := isOpen }

/-- The loop starts behind the packet whose turn it was. -/
private theorem Draining.begin {payload : UInt32 → Bytes} {receiver : Reorder reorderLimit}
    {self : Session σ} (mirrors : Mirrors receiver self.control)
    (entry : ∀ id, id.toNat ∈ receiver.held → self.control.reorder[id]? = some (payload id))
    {fed : TlsState σ} (isOpen : fed.Open)
    (succ : (self.control.recvNext + 1).toNat = receiver.next + 1) :
    Draining engine payload
      (self.received fed (self.control.recvNext + 1) self.control.reorder) receiver.held
      (self.received fed (self.control.recvNext + 1) self.control.reorder) where
  frame := rfl
  ordered := le_rfl
  within := Reorder.le_gap _ _
  entry := by
    intro id
    change self.control.reorder[id]? =
      if (self.control.recvNext + 1).toNat ≤ id.toNat ∧ id.toNat ∈ receiver.held then _ else none
    split
    case isTrue found => exact entry id found.2
    case isFalse missing =>
      have notHeld : id.toNat ∉ receiver.held := fun found =>
        missing ⟨succ ▸ receiver.above _ found, found⟩
      rw [← mirrors.held, Std.TreeMap.mem_iff_isSome_getElem?] at notHeld
      exact Option.not_isSome_iff_eq_none.mp notHeld
  size := by
    change self.control.reorder.size =
      (receiver.held.filter ((self.control.recvNext + 1).toNat ≤ ·)).card
    rw [Finset.filter_true_of_mem fun id found => succ ▸ receiver.above id found, mirrors.size]
  fed := by
    rw [payloadsOf_self]
    rfl
  isOpen := isOpen

private theorem filter_gap_le (held : Finset Nat) (first : Nat) :
    held.filter (Reorder.gap held first ≤ ·) = held.filter (Reorder.gap held first < ·) := by
  apply Finset.filter_congr
  intro id found
  have notGap : Reorder.gap held first ≠ id := fun same =>
    Reorder.gap_notMem held first (same ▸ found)
  omega

/-- The packet whose turn it was and the loop behind it are one step. -/
private theorem Draining.accepted {payload : UInt32 → Bytes} {receiver : Reorder reorderLimit}
    {self after : Session σ} {fed : TlsState σ} (mirrors : Mirrors receiver self.control)
    (due : TlsState.feed engine (payload self.control.recvNext) self.control.tls = (.ok (), fed))
    (succ : (self.control.recvNext + 1).toNat = receiver.next + 1)
    (draining : Draining engine payload
      (self.received fed (self.control.recvNext + 1) self.control.reorder) receiver.held after)
    (done : after.control.recvNext.toNat = Reorder.gap receiver.held (receiver.next + 1)) :
    Accepted engine payload receiver (receiver.accept receiver.next) self after := by
  obtain ⟨next, held⟩ := receiver.accept_due
  have entry (id : UInt32) : after.control.reorder[id]? =
      if id.toNat ∈ (receiver.accept receiver.next).held then some (payload id) else none := by
    rw [draining.entry id, done]
    apply if_congr _ rfl rfl
    rw [held, ← filter_gap_le, Finset.mem_filter, and_comm]
  exact {
    frame := draining.frame
    mirrors := {
      next := done.trans next.symm
      held := by
        intro id
        rw [Std.TreeMap.mem_iff_isSome_getElem?, entry id]
        split
        case isTrue found => exact iff_of_true rfl found
        case isFalse missing => exact iff_of_false Bool.false_ne_true missing
      size := by
        rw [draining.size, done, held, filter_gap_le]
      words := by
        intro id found
        rw [held, Finset.mem_filter] at found
        exact mirrors.words id found.1 }
    entry := by
      intro id found
      rw [entry id, if_pos found]
    fed := by
      have beyond := Reorder.le_gap receiver.held (receiver.next + 1)
      have later := draining.fed
      change TlsState.feedAll engine (payloadsOf payload (self.control.recvNext + 1).toNat
        after.control.recvNext.toNat) fed = _ at later
      rw [succ, done] at later
      rw [next, payloadsOf_cons payload (by omega), ← mirrors.next, UInt32.ofNat_toNat,
        TlsState.feedAll, Task.run_bind_ok due, mirrors.next]
      exact later
    isOpen := draining.isOpen }

/-- A call of `accept_control` is one step of the receiver. -/
theorem acceptControl_spec (engine : Engine σ) {payload : UInt32 → Bytes}
    {receiver : Reorder reorderLimit} {self : Session σ} (mirrors : Mirrors receiver self.control)
    (entry : ∀ id, id.toNat ∈ receiver.held → self.control.reorder[id]? = some (payload id))
    (isOpen : self.control.tls.Open) {packetId : UInt32}
    (reachable : (receiver.accept packetId.toNat).next < 2 ^ 32) :
    ∃ after, acceptControl engine packetId (payload packetId) self = (.ok (), after) ∧
      Accepted engine payload receiver (receiver.accept packetId.toNat) self after := by
  simp only [acceptControl, Task.run_bind, Task.run_gets]
  rcases Nat.lt_trichotomy packetId.toNat receiver.next with behind | due | ahead
  · rw [if_pos (UInt32.lt_iff_toNat_lt.mpr (mirrors.next ▸ behind)),
      Reorder.accept_behind behind]
    exact ⟨self, rfl, Accepted.unchanged mirrors entry isOpen⟩
  · have same : packetId = self.control.recvNext :=
      UInt32.toNat_inj.mp (due.trans mirrors.next.symm)
    subst same
    rw [due, receiver.accept_due.1] at reachable
    have beyond := Reorder.le_gap receiver.held (receiver.next + 1)
    have succ : (self.control.recvNext + 1).toNat = receiver.next + 1 := by
      rw [UInt32.toNat_add, mirrors.next]
      exact Nat.mod_eq_of_lt (by simp only [UInt32.toNat_one]; omega)
    rcases TlsState.feed_open engine isOpen (payload self.control.recvNext) with
      ⟨fed, fedFirst, fedOpen⟩
    let origin := self.received fed (self.control.recvNext + 1) self.control.reorder
    have start : Draining engine payload origin receiver.held origin :=
      Draining.begin mirrors entry fedOpen succ
    have fits : Reorder.gap receiver.held origin.control.recvNext.toNat < 2 ^ 32 := by
      change Reorder.gap receiver.held (self.control.recvNext + 1).toNat < 2 ^ 32
      rw [succ]
      exact reachable
    rcases (drainReorder_spec fits).ends start with ⟨_, after, run, draining, done⟩
    change after.control.recvNext.toNat =
      Reorder.gap receiver.held (self.control.recvNext + 1).toNat at done
    rw [succ] at done
    refine ⟨after, ?_, due ▸ draining.accepted mirrors fedFirst succ done⟩
    rw [if_neg (UInt32.lt_irrefl _), if_neg (UInt32.lt_irrefl _)]
    simp only [tls, Task.zoom, update, Task.run_bind, Task.run_modify, fedFirst]
    exact run
  · rw [if_neg fun behind => by rw [UInt32.lt_iff_toNat_lt, mirrors.next] at behind; omega,
      if_pos (UInt32.lt_iff_toNat_lt.mpr (mirrors.next ▸ ahead))]
    rw [mirrors.size]
    split
    case isTrue room => exact ⟨_, rfl, Accepted.insert mirrors entry isOpen ahead room⟩
    case isFalse full =>
      rw [Reorder.accept_full ahead (Nat.not_lt.mp full)]
      exact ⟨self, rfl, Accepted.unchanged mirrors entry isOpen⟩

/-- Whatever the payloads, a call moves the counter and the map as the receiver
does. Only a packet whose turn it is needs TLS. -/
theorem acceptControl_mirrors (engine : Engine σ) {receiver : Reorder reorderLimit}
    {self : Session σ} (mirrors : Mirrors receiver self.control) {packetId : UInt32}
    (isOpen : packetId = self.control.recvNext → self.control.tls.Open)
    (reachable : (receiver.accept packetId.toNat).next < 2 ^ 32) (payload : Bytes) :
    ∃ after, acceptControl engine packetId payload self = (.ok (), after) ∧
      after = self.received after.control.tls after.control.recvNext after.control.reorder ∧
      Mirrors (receiver.accept packetId.toNat) after.control := by
  by_cases due : packetId = self.control.recvNext
  case pos =>
    let payloads (id : UInt32) : Bytes :=
      if id = packetId then payload else (self.control.reorder[id]?).getD []
    have entry (id : UInt32) (found : id.toNat ∈ receiver.held) :
        self.control.reorder[id]? = some (payloads id) := by
      have later : id ≠ packetId := by
        rintro rfl
        have ahead := receiver.above _ found
        rw [due, mirrors.next] at ahead
        exact Nat.lt_irrefl _ ahead
      have present := (mirrors.held id).mpr found
      rw [Std.TreeMap.mem_iff_isSome_getElem?] at present
      rcases Option.isSome_iff_exists.mp present with ⟨stored, lookup⟩
      simp only [payloads, if_neg later, lookup, Option.getD_some]
    have same : payloads packetId = payload := if_pos rfl
    rcases acceptControl_spec engine mirrors entry (isOpen due) reachable with
      ⟨after, ran, accepted⟩
    rw [same] at ran
    exact ⟨after, ran, accepted.frame, accepted.mirrors⟩
  case neg =>
    have notDue : packetId.toNat ≠ receiver.next := fun equal =>
      due (UInt32.toNat_inj.mp (equal.trans mirrors.next.symm))
    simp only [acceptControl, Task.run_bind, Task.run_gets]
    rcases Nat.lt_or_gt_of_ne notDue with behind | ahead
    · rw [if_pos (UInt32.lt_iff_toNat_lt.mpr (mirrors.next ▸ behind)),
        Reorder.accept_behind behind]
      exact ⟨self, rfl, rfl, mirrors⟩
    · rw [if_neg fun behind => by rw [UInt32.lt_iff_toNat_lt, mirrors.next] at behind; omega,
        if_pos (UInt32.lt_iff_toNat_lt.mpr (mirrors.next ▸ ahead)), mirrors.size]
      split
      case isTrue room => exact ⟨_, rfl, rfl, mirrors.insert ahead room payload⟩
      case isFalse full =>
        rw [Reorder.accept_full ahead (Nat.not_lt.mp full)]
        exact ⟨self, rfl, rfl, mirrors⟩

/-! ### Runs of `accept_control` -/

theorem payloadsOf_append (payload : UInt32 → Bytes) {first between last : Nat}
    (ordered : first ≤ between) (within : between ≤ last) :
    payloadsOf payload first between ++ payloadsOf payload between last =
      payloadsOf payload first last := by
  rw [payloadsOf, payloadsOf, payloadsOf, ← List.map_append,
    show last - first = (between - first) + (last - between) by omega, ← List.range'_append_1,
    Nat.add_sub_of_le ordered]

private theorem Accepted.trans {payload : UInt32 → Bytes}
    {receiver between after : Reorder reorderLimit} {self middle last : Session σ}
    (ordered : receiver.next ≤ between.next) (within : between.next ≤ after.next)
    (first : Accepted engine payload receiver between self middle)
    (second : Accepted engine payload between after middle last) :
    Accepted engine payload receiver after self last where
  frame := by
    rw [second.frame, first.frame]
    rfl
  mirrors := second.mirrors
  entry := second.entry
  fed := by
    rw [← payloadsOf_append payload ordered within, TlsState.feedAll_append _ _ first.fed]
    exact second.fed
  isOpen := second.isOpen

/-- These calls, one after the other. -/
def acceptAll (engine : Engine σ) : List (UInt32 × Bytes) → Act σ Unit
  | [] => pure ()
  | call :: rest => do
      acceptControl engine call.1 call.2
      acceptAll engine rest

/-- A new packet that finds `reorder` full. -/
def Drops (self : Session σ) (packetId : UInt32) : Prop :=
  self.control.recvNext < packetId ∧ reorderLimit ≤ self.control.reorder.size ∧
    packetId ∉ self.control.reorder

/-- No call drops a new packet. -/
def KeepsAll (engine : Engine σ) (self : Session σ) (calls : List (UInt32 × Bytes)) : Prop :=
  Along (fun self call => (acceptControl engine call.1 call.2 self).2)
    (fun self call => ¬ self.Drops call.1) self calls

private theorem Mirrors.drops_iff {receiver : Reorder reorderLimit} {self : Session σ}
    (mirrors : Mirrors receiver self.control) (packetId : UInt32) :
    self.Drops packetId ↔ receiver.Drops packetId.toNat := by
  rw [Drops, Reorder.Drops, UInt32.lt_iff_toNat_lt, mirrors.next, mirrors.size, mirrors.held]

def ids (calls : List (UInt32 × Bytes)) : List Nat := calls.map fun call => call.1.toNat

/-- The calls are as many steps of the receiver. -/
theorem acceptAll_spec (engine : Engine σ) (payload : UInt32 → Bytes) {first : Nat}
    (started : first ≤ 2 ^ 32 - 1) (calls : List (UInt32 × Bytes)) :
    ∀ {receiver : Reorder reorderLimit} {self : Session σ} {arrived : Set Nat},
      Mirrors receiver self.control →
      (∀ id, id.toNat ∈ receiver.held → self.control.reorder[id]? = some (payload id)) →
      self.control.tls.Open → receiver.Tracks first arrived →
      (∀ id ∈ arrived, id < 2 ^ 32 - 1) →
      (∀ call ∈ calls, call.2 = payload call.1 ∧ call.1.toNat < 2 ^ 32 - 1) →
      ∃ after, acceptAll engine calls self = (.ok (), after) ∧
        Accepted engine payload receiver (receiver.acceptAll (ids calls)) self after ∧
        receiver.next ≤ (receiver.acceptAll (ids calls)).next ∧
        (KeepsAll engine self calls →
          Along Reorder.accept (fun state id => ¬ state.Drops id) receiver (ids calls)) := by
  induction calls with
  | nil =>
      intro receiver self arrived mirrors entry isOpen _ _ _
      exact ⟨self, rfl, Accepted.unchanged mirrors entry isOpen, le_rfl, fun _ => trivial⟩
  | cons call rest inductionHypothesis =>
      intro receiver self arrived mirrors entry isOpen tracks below consistent
      rcases consistent call List.mem_cons_self with ⟨samePayload, callBelow⟩
      have step := tracks.accept call.1.toNat
      have stepBelow : ∀ id ∈ insert call.1.toNat arrived, id < 2 ^ 32 - 1 := by
        intro id found
        rcases found with rfl | found
        · exact callBelow
        · exact below id found
      have reachable : (receiver.accept call.1.toNat).next < 2 ^ 32 := by
        have := step.next_le started stepBelow
        omega
      rcases acceptControl_spec engine mirrors entry isOpen reachable with ⟨middle, ran, accepted⟩
      rw [← samePayload] at ran
      rcases inductionHypothesis accepted.mirrors accepted.entry accepted.isOpen step stepBelow
        (fun later found => consistent later (List.mem_cons_of_mem _ found)) with
        ⟨after, ranRest, acceptedRest, ordered, kept⟩
      have ordered' := receiver.next_le_accept call.1.toNat
      refine ⟨after, ?_, accepted.trans ordered' ordered acceptedRest, Nat.le_trans ordered' ordered,
        fun keeps => ?_⟩
      · rw [acceptAll, Task.run_bind_ok ran]
        exact ranRest
      · refine ⟨fun drops => keeps.1 ((mirrors.drops_iff call.1).mpr drops), kept ?_⟩
        have later : KeepsAll engine (acceptControl engine call.1 call.2 self).2 rest := keeps.2
        rw [ran] at later
        exact later

/-- In-order, exactly-once delivery of the packets of `calls`, from `self` to
`after`. -/
structure InOrder (engine : Engine σ) (payload : UInt32 → Bytes) (calls : List (UInt32 × Bytes))
    (before after : Session σ) : Prop where
  ordered : before.control.recvNext ≤ after.control.recvNext
  /-- TLS was fed with the payloads from the first counter to the last, in order. -/
  fed : TlsState.feedAll engine (payloadsOf payload before.control.recvNext.toNat
    after.control.recvNext.toNat) before.control.tls = (.ok (), after.control.tls)
  arrived : ∀ id, before.control.recvNext ≤ id → id < after.control.recvNext →
    ∃ call ∈ calls, call.1 = id
  held : ∀ id ∈ after.control.reorder, after.control.recvNext < id ∧
    after.control.reorder[id]? = some (payload id) ∧ ∃ call ∈ calls, call.1 = id
  bounded : after.control.reorder.size ≤ reorderLimit
  least : KeepsAll engine before calls →
    IsLeast {id : Nat | before.control.recvNext.toNat ≤ id ∧ ∀ call ∈ calls, call.1.toNat ≠ id}
      after.control.recvNext.toNat

theorem mem_ids {calls : List (UInt32 × Bytes)} {id : Nat} :
    id ∈ ids calls ↔ ∃ call ∈ calls, call.1.toNat = id := List.mem_map

theorem mirrors_empty {control : Control σ} (empty : control.reorder.isEmpty = true) :
    Mirrors (.start control.recvNext.toNat) control where
  next := rfl
  held := fun id => iff_of_false (Std.TreeMap.not_mem_of_isEmpty empty) (Finset.notMem_empty _)
  size := by
    rw [Std.TreeMap.isEmpty_eq_size_eq_zero, beq_iff_eq] at empty
    exact empty
  words := fun _ found => absurd found (Finset.notMem_empty _)

/-- From an empty buffer, whatever arrives in whatever order. -/
theorem acceptAll_inOrder {self : Session σ} (empty : self.control.reorder.isEmpty = true)
    (isOpen : self.control.tls.Open) {payload : UInt32 → Bytes} {calls : List (UInt32 × Bytes)}
    (consistent : ∀ call ∈ calls, call.2 = payload call.1)
    (below : ∀ call ∈ calls, call.1.toNat < 2 ^ 32 - 1) :
    ∃ after, acceptAll engine calls self = (.ok (), after) ∧
      InOrder engine payload calls self after := by
  have started : self.control.recvNext.toNat ≤ 2 ^ 32 - 1 := by
    have := self.control.recvNext.toNat_lt
    omega
  have tracks : Reorder.Tracks self.control.recvNext.toNat ∅
      (.start self.control.recvNext.toNat : Reorder reorderLimit) := Reorder.tracks_start _
  rcases acceptAll_spec engine payload started calls (mirrors_empty empty)
    (fun _ found => absurd found (Finset.notMem_empty _)) isOpen tracks
    (fun _ found => absurd found (Set.notMem_empty _))
    (fun call found => ⟨consistent call found, below call found⟩) with
    ⟨after, ran, accepted, ordered, kept⟩
  have reached := tracks.acceptAll (ids calls)
  rw [Set.empty_union] at reached
  refine ⟨after, ran, ?_⟩
  have next := accepted.mirrors.next
  exact {
    ordered := by
      rw [UInt32.le_iff_toNat_le, next]
      exact ordered
    fed := by
      rw [next]
      exact accepted.fed
    arrived := by
      intro id from_first below
      rw [UInt32.le_iff_toNat_le] at from_first
      rw [UInt32.lt_iff_toNat_lt, next] at below
      rcases mem_ids.mp (reached.delivered id.toNat from_first below) with ⟨call, found, same⟩
      exact ⟨call, found, UInt32.toNat_inj.mp same⟩
    held := by
      intro id found
      have inside := (accepted.mirrors.held id).mp found
      rcases mem_ids.mp (reached.held id.toNat inside) with ⟨call, arrived, same⟩
      refine ⟨?_, accepted.entry id inside, call, arrived, UInt32.toNat_inj.mp same⟩
      rw [UInt32.lt_iff_toNat_lt, next]
      exact Reorder.above _ _ inside
    bounded := by
      rw [accepted.mirrors.size]
      exact Reorder.bounded _
    least := by
      intro keeps
      have least := Reorder.next_isLeast reached (by
        simpa using (Reorder.complete_start self.control.recvNext.toNat).acceptAll (ids calls)
          (kept keeps))
      rw [next]
      have same : {id : Nat | self.control.recvNext.toNat ≤ id ∧
          ∀ call ∈ calls, call.1.toNat ≠ id} =
          {id | self.control.recvNext.toNat ≤ id ∧ id ∉ {id | id ∈ ids calls}} := by
        ext id
        simp [mem_ids]
      rw [same]
      exact least }

/-- A control whose handshake waits for the server's records, from packet 1 on. -/
def waiting : Session Bool :=
  connected (Control.start false (Vector.replicate 8 1) (Vector.replicate 8 2) 0 .aes256Gcm .sha1)
    [] []

/-- Packets 1, 2 and 3 out of order and one of them twice, and packet 6 early. -/
theorem acceptAll_inOrder_waiting :
    ∃ after, acceptAll waitingEngine [(2, [20]), (6, [60]), (1, [10]), (2, [20]), (3, [30])]
        waiting = (.ok (), after) ∧
      InOrder waitingEngine (fun id => [UInt8.ofNat (10 * id.toNat)])
        [(2, [20]), (6, [60]), (1, [10]), (2, [20]), (3, [30])] waiting after :=
  acceptAll_inOrder (by decide) (by decide) (by decide) (by decide)

end Session

end Unroxy.OpenVpn
