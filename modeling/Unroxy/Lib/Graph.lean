import Mathlib.Data.Finset.Card
import Mathlib.Logic.Relation
import Mathlib.Order.Monotone.Basic

/-!
Owns directed graphs with finitely many edges: the nodes below `size` have
successors, the others have none.

A search of bounded depth that finds nothing new in one more step never does, so
depth `size` is enough. Without cycles the number of nodes below a node goes
down along every edge, and so does the depth of what is to be searched.

Does not own what is at a node.
-/

namespace Unroxy.Lib

/-- Successors, for the nodes below `size`. -/
structure Graph where
  size : Nat
  next : Nat → List Nat
  outside : ∀ node, size ≤ node → next node = []

namespace Graph

open scoped Classical

variable (graph : Graph)

def Edge (node successor : Nat) : Prop := successor ∈ graph.next node

/-- No node is below itself. -/
def Acyclic : Prop := ∀ node, ¬ Relation.TransGen graph.Edge node node

/-! ### What a search finds -/

variable (target : Nat → Prop)

/-- A target is at the node, or fewer than `depth` steps below it. -/
def Finds : Nat → Nat → Prop
  | 0, _ => False
  | depth + 1, node => target node ∨ ∃ successor ∈ graph.next node, Finds depth successor

variable {graph target}

theorem Finds.succ {depth : Nat} : ∀ {node : Nat},
    graph.Finds target depth node → graph.Finds target (depth + 1) node := by
  induction depth with
  | zero => exact fun impossible => impossible.elim
  | succ depth inductionHypothesis =>
      intro node found
      rcases found with here | ⟨successor, edge, below⟩
      · exact .inl here
      · exact .inr ⟨successor, edge, inductionHypothesis below⟩

theorem Finds.mono {shallow deep : Nat} (deeper : shallow ≤ deep) {node : Nat}
    (found : graph.Finds target shallow node) : graph.Finds target deep node := by
  induction deeper with
  | refl => exact found
  | step _ inductionHypothesis => exact inductionHypothesis.succ

theorem Finds.inside (inside : ∀ node, target node → node < graph.size) {depth node : Nat}
    (found : graph.Finds target depth node) : node < graph.size := by
  cases depth with
  | zero => exact found.elim
  | succ depth =>
      rcases found with here | ⟨successor, edge, _⟩
      · exact inside node here
      · by_contra outside
        rw [graph.outside node (Nat.not_lt.mp outside)] at edge
        cases edge

/-- The nodes from which a search of this depth finds a target. -/
private noncomputable def finders (graph : Graph) (target : Nat → Prop) (depth : Nat) :
    Finset Nat :=
  (Finset.range graph.size).filter (graph.Finds target depth)

private theorem mem_finders (inside : ∀ node, target node → node < graph.size) {depth node : Nat} :
    node ∈ finders graph target depth ↔ graph.Finds target depth node := by
  rw [finders, Finset.mem_filter, Finset.mem_range]
  exact ⟨And.right, fun found => ⟨found.inside inside, found⟩⟩

private theorem finders_mono : Monotone (finders graph target) := by
  intro shallow deep deeper node member
  rw [finders, Finset.mem_filter] at member ⊢
  exact ⟨member.1, member.2.mono deeper⟩

/-- Two depths that find the same are followed by two that do. -/
private theorem finders_succ (inside : ∀ node, target node → node < graph.size) {depth : Nat}
    (same : finders graph target depth = finders graph target (depth + 1)) :
    finders graph target (depth + 1) = finders graph target (depth + 2) := by
  ext node
  rw [mem_finders inside, mem_finders inside]
  constructor
  · exact Finds.succ
  · intro found
    rcases found with here | ⟨successor, edge, below⟩
    · exact .inl here
    · rw [← mem_finders inside, ← same, mem_finders inside] at below
      exact .inr ⟨successor, edge, below⟩

/-- As many steps as there are nodes are enough. -/
theorem finds_of_size_le (inside : ∀ node, target node → node < graph.size) {depth : Nat}
    (deep : graph.size ≤ depth) (node : Nat) :
    graph.Finds target depth node ↔ graph.Finds target graph.size node := by
  have bounded (depth : Nat) : (finders graph target depth).card ≤ graph.size := by
    rw [finders]
    exact (Finset.card_filter_le _ _).trans (Nat.le_of_eq (Finset.card_range _))
  have subset (shallow deep : Nat) (deeper : shallow ≤ deep) :
      finders graph target shallow ⊆ finders graph target deep := finders_mono deeper
  have stable : (finders graph target depth).card = (finders graph target graph.size).card := by
    apply Nat.stabilises_of_monotone _ bounded _ deep
    · exact fun shallow deep deeper => Finset.card_le_card (subset shallow deep deeper)
    · intro depth same
      have equal := Finset.eq_of_subset_of_card_le (subset depth (depth + 1) (Nat.le_succ depth))
        (Nat.le_of_eq same.symm)
      rw [finders_succ inside equal]
  have equal := Finset.eq_of_subset_of_card_le (subset graph.size depth deep)
    (Nat.le_of_eq stable)
  rw [← mem_finders inside, ← mem_finders inside, equal]

/-! ### Graphs without cycles -/

/-- How many nodes there are at or below a node. -/
noncomputable def rank (graph : Graph) (node : Nat) : Nat :=
  ((Finset.range graph.size).filter (Relation.ReflTransGen graph.Edge node)).card

theorem rank_le (graph : Graph) (node : Nat) : graph.rank node ≤ graph.size :=
  (Finset.card_filter_le _ _).trans (Nat.le_of_eq (Finset.card_range _))

theorem rank_lt (acyclic : graph.Acyclic) {node successor : Nat}
    (edge : successor ∈ graph.next node) : graph.rank successor < graph.rank node := by
  have inside : node < graph.size := by
    by_contra outside
    rw [graph.outside node (Nat.not_lt.mp outside)] at edge
    cases edge
  apply Finset.card_lt_card
  rw [Finset.ssubset_iff_of_subset]
  · refine ⟨node, Finset.mem_filter.mpr ⟨Finset.mem_range.mpr inside, .refl⟩, ?_⟩
    intro back
    exact acyclic node (.head' edge (Finset.mem_filter.mp back).2)
  · intro below member
    obtain ⟨known, reaches⟩ := Finset.mem_filter.mp member
    exact Finset.mem_filter.mpr ⟨known, .head edge reaches⟩

theorem acyclic_of_lt (down : ∀ node successor, successor ∈ graph.next node → successor < node) :
    graph.Acyclic := by
  have below {node later : Nat} (reaches : Relation.TransGen graph.Edge node later) :
      later < node := by
    induction reaches with
    | single edge => exact down _ _ edge
    | tail _ edge inductionHypothesis => exact Nat.lt_trans (down _ _ edge) inductionHypothesis
  exact fun node back => Nat.lt_irrefl node (below back)

/-- A function of the depth that looks at a node and at its successors one less
deep does not change beyond the rank of the node. -/
theorem eq_of_rank_le {α : Type} (acyclic : graph.Acyclic) {value : Nat → Nat → α}
    (unfolds : ∀ first second node,
      (∀ successor ∈ graph.next node, value first successor = value second successor) →
        value (first + 1) node = value (second + 1) node)
    (outside : ∀ depth node, graph.size ≤ node → value depth node = value 0 node) :
    ∀ bound node, graph.rank node ≤ bound → ∀ depth, bound ≤ depth →
      value depth node = value bound node := by
  intro bound
  induction bound with
  | zero =>
      intro node low depth _
      apply outside
      by_contra inside
      have itself : node ∈ (Finset.range graph.size).filter
          (Relation.ReflTransGen graph.Edge node) :=
        Finset.mem_filter.mpr ⟨Finset.mem_range.mpr (Nat.not_le.mp inside), .refl⟩
      have positive := Finset.card_pos.mpr ⟨node, itself⟩
      rw [rank] at low
      omega
  | succ bound inductionHypothesis =>
      intro node low depth deep
      obtain ⟨less, rfl⟩ := Nat.exists_eq_add_of_le' (Nat.le_trans (Nat.succ_pos bound) deep)
      apply unfolds
      intro successor edge
      have lower := rank_lt acyclic edge
      exact inductionHypothesis successor (by omega) less (by omega)

end Graph

end Unroxy.Lib
