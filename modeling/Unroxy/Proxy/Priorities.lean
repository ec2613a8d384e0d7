import Unroxy.Proxy.Rotation

/-!
Owns the order of the candidates by priority.

`filtered` sorts what it collects and then rotates the whole of it, so that the
pool's own counter decides whether the order survives. The counters of the
children do not matter: their lists are sorted again.
-/

namespace Unroxy.Proxy

open Unroxy.Lib.Rotation

variable {τ : Type}

/-- The proxies of one protocol. -/
def Proxies.restrict (self : Proxies τ) (protocol : Option Protocol) : Proxies τ :=
  ⟨self.localCandidates protocol, self.distinct.sublist (List.filter_sublist.map _)⟩

namespace ProxyPool

def rotation : ProxyPool τ → UInt64
  | .node _ rotation _ => rotation

mutual

/-- The tree with the proxies of one protocol only. -/
def restrict (protocol : Option Protocol) : ProxyPool τ → ProxyPool τ
  | .node proxies rotation children =>
      .node (proxies.restrict protocol) rotation (restrictAll protocol children)

def restrictAll (protocol : Option Protocol) : List (ProxyPool τ) → List (ProxyPool τ)
  | [] => []
  | child :: rest => child.restrict protocol :: restrictAll protocol rest

end

/-- The proxies of the tree that pass the filter, each key once, in no order that
depends on a counter. -/
def matching (pool : ProxyPool τ) (protocol : Option Protocol) : List (PoolProxy τ) :=
  (pool.restrict protocol).all

/-- The candidates are the matching proxies, by priority. -/
structure Ordered (pool : ProxyPool τ) (protocol : Option Protocol) : Prop where
  perm : (pool.filtered protocol).1.Perm (pool.matching protocol)
  sorted : (pool.filtered protocol).1.Pairwise fun left right => left.priority ≤ right.priority

mutual

/-- Filtering while collecting is collecting in the restricted tree. -/
theorem filtered_restrict (protocol : Option Protocol) :
    ∀ pool : ProxyPool τ, (pool.filtered protocol).1 = (pool.restrict protocol).candidates.1
  | .node proxies rotation children => by
      have collected := collect_restrict protocol (proxies.localCandidates protocol) children
      rw [restrict, candidates, filtered, filtered, localCandidates_none]
      dsimp only [Proxies.restrict]
      rw [collected]
      split
      · rfl
      · rfl

theorem collect_restrict (protocol : Option Protocol) (ready : List (Candidate τ)) :
    ∀ children : List (ProxyPool τ),
      (collect protocol ready children).1 = (collect none ready (restrictAll protocol children)).1
  | [] => by
      rw [restrictAll, collect, collect]
  | child :: rest => by
      rw [restrictAll, collect, collect]
      dsimp only
      rw [collect_restrict protocol _ rest, filtered_restrict protocol child]
      rfl

end

theorem filtered_perm (pool : ProxyPool τ) (protocol : Option Protocol) :
    (pool.filtered protocol).1.Perm (pool.matching protocol) := by
  rw [filtered_restrict]
  exact candidates_perm _

theorem sortByPriority_sorted (ready : List (Candidate τ)) :
    (sortByPriority ready).Pairwise fun left right => left.priority ≤ right.priority := by
  have total : Std.Total fun left right : Candidate τ => left.priority ≤ right.priority :=
    ⟨fun left right => Nat.le_total left.priority right.priority⟩
  have trans : IsTrans (Candidate τ) fun left right => left.priority ≤ right.priority :=
    ⟨fun _ _ _ first second => Nat.le_trans first second⟩
  exact List.pairwise_insertionSort _ ready

/-- `filtered` rotates a sorted list by the pool's own counter. -/
theorem filtered_eq_rotate (pool : ProxyPool τ) (protocol : Option Protocol) :
    ∃ ordered : List (Candidate τ), ordered.Perm (pool.matching protocol) ∧
      ordered.Pairwise (fun left right => left.priority ≤ right.priority) ∧
      (pool.filtered protocol).1 =
        ordered.rotate (pool.rotation.toNat % (pool.matching protocol).length) := by
  have same := pool.filtered_perm protocol
  obtain ⟨proxies, rotation, children⟩ := pool
  generalize matched : (ProxyPool.node proxies rotation children).matching protocol = all at same
  rw [filtered] at same ⊢
  dsimp only at same ⊢
  have sorted := sortByPriority_sorted
    (collect protocol (proxies.localCandidates protocol) children).1
  generalize sortByPriority (collect protocol (proxies.localCandidates protocol) children).1 =
    ordered at same sorted ⊢
  refine ⟨ordered, ?_, sorted, ?_⟩
  · split at same
    · exact (List.rotate_perm ordered _).symm.trans same
    · exact same
  · split at same
    · next many =>
        have length : ordered.length = all.length := by
          rw [← List.length_rotate ordered, same.length_eq]
        rw [if_pos many, ← length]
        rfl
    · next few =>
        have length : ordered.length = all.length := same.length_eq
        rw [if_neg few, ← length]
        cases ordered with
        | nil => rfl
        | cons only rest =>
            have alone : rest = [] := by
              rw [List.length_cons] at few
              exact List.length_eq_zero_iff.mp (by omega)
            rw [alone, List.rotate_singleton]

/-! ### When the order survives -/

/-- The candidates are in the order of their priorities exactly if the pool's own
counter is a multiple of their number, or they all have the same priority. -/
theorem filtered_ordered_iff (pool : ProxyPool τ) (protocol : Option Protocol) :
    pool.Ordered protocol ↔
      pool.rotation.toNat % (pool.matching protocol).length = 0 ∨
        EqualPriority (pool.matching protocol) := by
  obtain ⟨ordered, perm, sorted, rotated⟩ := pool.filtered_eq_rotate protocol
  have survives : pool.Ordered protocol ↔
      (ordered.rotate (pool.rotation.toNat % (pool.matching protocol).length)).Pairwise
        fun left right => left.priority ≤ right.priority := by
    constructor
    · intro kept
      rw [← rotated]
      exact kept.sorted
    · intro kept
      rw [← rotated] at kept
      exact ⟨pool.filtered_perm protocol, kept⟩
  have equal_iff : (∀ left ∈ ordered, ∀ right ∈ ordered, left.priority = right.priority) ↔
      EqualPriority (pool.matching protocol) := by
    simp only [EqualPriority, perm.mem_iff]
  rcases Nat.eq_zero_or_pos (pool.matching protocol).length with none | some
  · have nothing := List.length_eq_zero_iff.mp none
    have empty : ordered = [] := List.length_eq_zero_iff.mp (perm.length_eq.trans none)
    rw [survives, empty, nothing]
    simp [EqualPriority]
  · have inside : pool.rotation.toNat % (pool.matching protocol).length < ordered.length := by
      rw [perm.length_eq]
      exact Nat.mod_lt _ some
    rw [survives, pairwise_rotate_iff sorted inside, equal_iff]

/-- A pool with a proxy of priority 0 and one of priority 1, on its second call. -/
def twoPriorities : ProxyPool Unit :=
  .node ((Proxies.empty.push ⟨"first", (), 0, .ssh⟩).push ⟨"second", (), 1, .ssh⟩) 1 []

theorem not_filtered_ordered_second_call :
    ¬ ∀ (pool : ProxyPool Unit) (protocol : Option Protocol), pool.Ordered protocol := by
  intro ordered
  have sorted := (ordered twoPriorities none).sorted
  revert sorted
  decide

end ProxyPool

end Unroxy.Proxy
