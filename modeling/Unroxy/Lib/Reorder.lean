import Mathlib.Data.Finset.Card
import Mathlib.Data.Finset.Interval
import Mathlib.Order.Interval.Finset.Nat
import Unroxy.Lib.Run

/-!
Owns in-order delivery from a bounded reorder buffer.

A receiver delivers numbered packets in order. A packet ahead of its turn is
held as long as there is room, and dropped otherwise; one behind its turn is a
duplicate. The payloads play no part: packets are their numbers.

`Tracks` says that nothing is delivered or held that has not arrived, and holds
of every run. `Complete` says that everything that has arrived is delivered or
held, and holds of the runs in which nothing new is dropped.

Does not own any encoding of the numbers.
-/

namespace Unroxy.Lib

/-- The next number to be delivered and the numbers held for later. -/
structure Reorder (capacity : Nat) where
  next : Nat
  held : Finset Nat
  above : ∀ id ∈ held, next < id
  bounded : held.card ≤ capacity

namespace Reorder

variable {capacity : Nat}

def start (next : Nat) : Reorder capacity where
  next := next
  held := ∅
  above := fun _ found => absurd found (Finset.notMem_empty _)
  bounded := Nat.zero_le _

/-! ### The first number that is not held -/

theorem exists_gap (held : Finset Nat) (first : Nat) : ∃ id, first ≤ id ∧ id ∉ held := by
  refine ⟨first + held.sup id + 1, by omega, fun found => ?_⟩
  have bound : id (first + held.sup id + 1) ≤ held.sup id := Finset.le_sup found
  simp only [id] at bound
  omega

def gap (held : Finset Nat) (first : Nat) : Nat := Nat.find (exists_gap held first)

theorem le_gap (held : Finset Nat) (first : Nat) : first ≤ gap held first :=
  (Nat.find_spec (exists_gap held first)).1

theorem gap_notMem (held : Finset Nat) (first : Nat) : gap held first ∉ held :=
  (Nat.find_spec (exists_gap held first)).2

theorem mem_of_lt_gap {held : Finset Nat} {first id : Nat} (from_first : first ≤ id)
    (below : id < gap held first) : id ∈ held := by
  by_contra missing
  exact Nat.find_min (exists_gap held first) below ⟨from_first, missing⟩

/-! ### One packet -/

/-- A packet whose turn it is is delivered with all that follow it in the
buffer. -/
def accept (self : Reorder capacity) (id : Nat) : Reorder capacity :=
  if id < self.next then
    self
  else if ahead : self.next < id then
    if room : self.held.card < capacity then
      { next := self.next
        held := insert id self.held
        above := by
          intro other found
          rcases Finset.mem_insert.mp found with rfl | found
          · exact ahead
          · exact self.above other found
        bounded := Nat.le_trans (Finset.card_insert_le id self.held) room }
    else
      self
  else
    { next := gap self.held (self.next + 1)
      held := self.held.filter (gap self.held (self.next + 1) < ·)
      above := fun _ found => (Finset.mem_filter.mp found).2
      bounded := Nat.le_trans (Finset.card_filter_le _ _) self.bounded }

/-- A new packet that finds no room. -/
def Drops (self : Reorder capacity) (id : Nat) : Prop :=
  self.next < id ∧ capacity ≤ self.held.card ∧ id ∉ self.held

theorem accept_behind {self : Reorder capacity} {id : Nat} (behind : id < self.next) :
    self.accept id = self := by
  rw [accept, if_pos behind]

theorem accept_full {self : Reorder capacity} {id : Nat} (ahead : self.next < id)
    (full : capacity ≤ self.held.card) : self.accept id = self := by
  rw [accept, if_neg (by omega), dif_pos ahead, dif_neg (Nat.not_lt.mpr full)]

theorem accept_room {self : Reorder capacity} {id : Nat} (ahead : self.next < id)
    (room : self.held.card < capacity) :
    (self.accept id).next = self.next ∧ (self.accept id).held = insert id self.held := by
  rw [accept, if_neg (by omega), dif_pos ahead, dif_pos room]
  exact ⟨rfl, rfl⟩

theorem accept_due (self : Reorder capacity) :
    (self.accept self.next).next = gap self.held (self.next + 1) ∧
      (self.accept self.next).held =
        self.held.filter (gap self.held (self.next + 1) < ·) := by
  rw [accept, if_neg (Nat.lt_irrefl _), dif_neg (Nat.lt_irrefl _)]
  exact ⟨rfl, rfl⟩

/-- All a packet can do: nothing, wait, or be delivered. -/
theorem accept_cases (self : Reorder capacity) (id : Nat) :
    (self.accept id = self ∧ (id < self.next ∨ self.next < id ∧ capacity ≤ self.held.card)) ∨
      ((self.accept id).next = self.next ∧ (self.accept id).held = insert id self.held) ∨
      ((self.accept id).next = gap self.held (self.next + 1) ∧
        (self.accept id).held = self.held.filter (gap self.held (self.next + 1) < ·) ∧
        id = self.next) := by
  rcases Nat.lt_trichotomy id self.next with behind | rfl | ahead
  · exact .inl ⟨accept_behind behind, .inl behind⟩
  · exact .inr (.inr ⟨self.accept_due.1, self.accept_due.2, rfl⟩)
  · rcases Nat.lt_or_ge self.held.card capacity with room | full
    · exact .inr (.inl (accept_room ahead room))
    · exact .inl ⟨accept_full ahead full, .inr ⟨ahead, full⟩⟩

/-! ### What has arrived -/

/-- Everything delivered since `first`, and everything held, has arrived. -/
structure Tracks (first : Nat) (arrived : Set Nat) (state : Reorder capacity) : Prop where
  ordered : first ≤ state.next
  held : ∀ id ∈ state.held, id ∈ arrived
  delivered : ∀ id, first ≤ id → id < state.next → id ∈ arrived

/-- Everything that has arrived is delivered or held. -/
def Complete (first : Nat) (arrived : Set Nat) (self : Reorder capacity) : Prop :=
  ∀ id ∈ arrived, first ≤ id → id < self.next ∨ id ∈ self.held

variable {first : Nat} {arrived : Set Nat} {self : Reorder capacity}

theorem Tracks.accept (tracks : Tracks first arrived self) (id : Nat) :
    Tracks first (insert id arrived) (self.accept id) := by
  rcases self.accept_cases id with ⟨same, -⟩ | ⟨next, held⟩ | ⟨next, held, rfl⟩
  · rw [same]
    exact {
      ordered := tracks.ordered
      held := fun other found => .inr (tracks.held other found)
      delivered := fun other from_first below => .inr (tracks.delivered other from_first below) }
  · refine ⟨next ▸ tracks.ordered, fun other found => ?_, fun other from_first below => ?_⟩
    · rw [held, Finset.mem_insert] at found
      exact found.imp_right (tracks.held other)
    · exact .inr (tracks.delivered other from_first (next ▸ below))
  · have beyond := le_gap self.held (self.next + 1)
    have ordered := tracks.ordered
    refine ⟨by omega, fun other found => ?_, fun other from_first below => ?_⟩
    · rw [held, Finset.mem_filter] at found
      exact .inr (tracks.held other found.1)
    · -- what is delivered now came before, is the packet itself, or was held
      rw [next] at below
      rcases Nat.lt_trichotomy other self.next with earlier | rfl | later
      · exact .inr (tracks.delivered other from_first earlier)
      · exact .inl rfl
      · exact .inr (tracks.held other (mem_of_lt_gap later below))

theorem Complete.accept (complete : Complete first arrived self) {id : Nat}
    (kept : ¬ self.Drops id) : Complete first (insert id arrived) (self.accept id) := by
  intro other found from_first
  rcases self.accept_cases id with ⟨same, why⟩ | ⟨next, held⟩ | ⟨next, held, rfl⟩
  · rw [same]
    rcases found with rfl | found
    · rcases why with behind | ⟨ahead, full⟩
      · exact .inl behind
      · by_contra lost
        exact kept ⟨ahead, full, fun present => lost (.inr present)⟩
    · exact complete other found from_first
  · rw [next, held]
    rcases found with rfl | found
    · exact .inr (Finset.mem_insert_self _ _)
    · exact (complete other found from_first).imp_right (Finset.mem_insert_of_mem)
  · have beyond := le_gap self.held (self.next + 1)
    rw [next, held, Finset.mem_filter]
    rcases found with rfl | found
    · exact .inl (by omega)
    · rcases complete other found from_first with earlier | present
      · exact .inl (by omega)
      · have notGap : other ≠ gap self.held (self.next + 1) := fun same =>
          gap_notMem self.held (self.next + 1) (same ▸ present)
        rcases Nat.lt_or_ge other (gap self.held (self.next + 1)) with below | atLeast
        · exact .inl below
        · exact .inr ⟨present, by omega⟩

theorem next_le_accept (self : Reorder capacity) (id : Nat) :
    self.next ≤ (self.accept id).next := by
  rcases self.accept_cases id with ⟨same, -⟩ | ⟨next, -⟩ | ⟨next, -⟩
  · rw [same]
  · rw [next]
  · rw [next]
    have beyond := le_gap self.held (self.next + 1)
    omega

/-- The next packet lies within any bound on what can arrive. -/
theorem Tracks.next_le {bound : Nat} (tracks : Tracks first arrived self)
    (started : first ≤ bound) (below : ∀ id ∈ arrived, id < bound) : self.next ≤ bound := by
  by_contra beyond
  exact absurd (below bound (tracks.delivered bound started (Nat.lt_of_not_le beyond)))
    (Nat.lt_irrefl _)

/-- With nothing lost, the next packet is the first that has not arrived. -/
theorem next_isLeast (tracks : Tracks first arrived self)
    (complete : Complete first arrived self) :
    IsLeast {id | first ≤ id ∧ id ∉ arrived} self.next := by
  constructor
  · refine ⟨tracks.ordered, fun found => ?_⟩
    rcases complete self.next found tracks.ordered with below | present
    · exact absurd below (Nat.lt_irrefl _)
    · exact absurd (self.above _ present) (Nat.lt_irrefl _)
  · intro id missing
    by_contra earlier
    exact missing.2 (tracks.delivered id missing.1 (Nat.lt_of_not_le earlier))

/-! ### Runs -/

def acceptAll (self : Reorder capacity) (ids : List Nat) : Reorder capacity :=
  run Reorder.accept self ids

private theorem insert_union_mem (arrived : Set Nat) (id : Nat) (rest : List Nat) :
    insert id arrived ∪ {other | other ∈ rest} = arrived ∪ {other | other ∈ id :: rest} := by
  ext other
  simp only [Set.mem_union, Set.mem_insert_iff, Set.mem_ofPred_eq, List.mem_cons]
  tauto

theorem Tracks.acceptAll (tracks : Tracks first arrived self) (ids : List Nat) :
    Tracks first (arrived ∪ {id | id ∈ ids}) (self.acceptAll ids) := by
  induction ids generalizing self arrived with
  | nil => simpa [Reorder.acceptAll, run] using tracks
  | cons id rest inductionHypothesis =>
      have later := inductionHypothesis (tracks.accept id)
      rw [insert_union_mem] at later
      exact later

theorem Complete.acceptAll (complete : Complete first arrived self) (ids : List Nat)
    (kept : Along Reorder.accept (fun state id => ¬ state.Drops id) self ids) :
    Complete first (arrived ∪ {id | id ∈ ids}) (self.acceptAll ids) := by
  induction ids generalizing self arrived with
  | nil => simpa [Reorder.acceptAll, run] using complete
  | cons id rest inductionHypothesis =>
      have later := inductionHypothesis (complete.accept kept.1) kept.2
      rw [insert_union_mem] at later
      exact later

/-! ### A window no larger than the buffer -/

/-- Among `capacity + 1` consecutive numbers one is due, so the others fit. -/
theorem Tracks.not_drops {count : Nat} (small : count ≤ capacity + 1)
    (tracks : Tracks first arrived self) {id : Nat}
    (window : ∀ other ∈ insert id arrived, other < first + count) : ¬ self.Drops id := by
  rintro ⟨ahead, full, new⟩
  have inside : insert id self.held ⊆ Finset.Ioo self.next (first + count) := by
    intro other found
    rw [Finset.mem_Ioo]
    rcases Finset.mem_insert.mp found with rfl | found
    · exact ⟨ahead, window other (.inl rfl)⟩
    · exact ⟨self.above other found, window other (.inr (tracks.held other found))⟩
  have counted := Finset.card_le_card inside
  rw [Finset.card_insert_of_notMem new, Nat.card_Ioo] at counted
  have ordered := tracks.ordered
  omega

theorem along_of_window {count : Nat} (small : count ≤ capacity + 1) (ids : List Nat)
    (tracks : Tracks first arrived self) (before : ∀ other ∈ arrived, other < first + count)
    (inside : ∀ id ∈ ids, id < first + count) :
    Along Reorder.accept (fun state id => ¬ state.Drops id) self ids := by
  induction ids generalizing self arrived with
  | nil => trivial
  | cons id rest inductionHypothesis =>
      have window : ∀ other ∈ insert id arrived, other < first + count := by
        intro other found
        rcases found with rfl | found
        · exact inside other List.mem_cons_self
        · exact before other found
      refine ⟨tracks.not_drops small window, inductionHypothesis (tracks.accept id) window ?_⟩
      exact fun other found => inside other (List.mem_cons_of_mem _ found)

theorem tracks_start (first : Nat) : Tracks first ∅ (start first : Reorder capacity) where
  ordered := le_rfl
  held := fun _ found => absurd found (Finset.notMem_empty _)
  delivered := fun _ from_first below => absurd below (Nat.not_lt.mpr from_first)

theorem complete_start (first : Nat) : Complete first ∅ (start first : Reorder capacity) :=
  fun _ found => absurd found (Set.notMem_empty _)

/-- Whatever the order and however often, `capacity + 1` consecutive packets are
all delivered. -/
theorem acceptAll_window {count : Nat} (small : count ≤ capacity + 1) {ids : List Nat}
    (inside : ∀ id ∈ ids, first ≤ id ∧ id < first + count)
    (all : ∀ id, first ≤ id → id < first + count → id ∈ ids) :
    ((start first : Reorder capacity).acceptAll ids).next = first + count ∧
      ((start first : Reorder capacity).acceptAll ids).held = ∅ := by
  have kept := along_of_window small ids (tracks_start first)
    (fun other found => absurd found (Set.notMem_empty _)) fun id found => (inside id found).2
  have tracks := Tracks.acceptAll
    (tracks_start first : Tracks first ∅ (start first : Reorder capacity)) ids
  have least := next_isLeast tracks ((complete_start first).acceptAll ids kept)
  simp only [Set.empty_union] at tracks least
  have last : ((start first : Reorder capacity).acceptAll ids).next = first + count := by
    apply Nat.le_antisymm
    · apply least.2
      refine ⟨Nat.le_add_right _ _, fun found => ?_⟩
      exact absurd (inside _ found).2 (Nat.lt_irrefl _)
    · by_contra short
      exact least.1.2 (all _ least.1.1 (Nat.lt_of_not_le short))
  refine ⟨last, Finset.eq_empty_of_forall_notMem fun id found => ?_⟩
  have ahead := Reorder.above _ id found
  have below := (inside id (tracks.held id found)).2
  omega

end Reorder

end Unroxy.Lib
