import Unroxy.Lib.Graph
import Unroxy.Proxy.Pools

/-!
Owns what is below a pool: the pools and their children as a graph.

Which keys a pool has is decided by its own proxies and by the keys its children
have, whatever the graph looks like. What it returns for them is too, unless a
pool is below itself; there `filtered` and `all` do not return.

Does not own who links pools.
-/

namespace Unroxy.Proxy.Pools

open Unroxy.Lib

variable {τ : Type}

/-- The children of the pools. -/
def graph (self : Pools τ) : Graph where
  size := self.size
  next pool := (self.get pool).children
  outside := by
    intro pool unknown
    rw [self.get_of_size_le unknown]
    rfl

/-- No pool is below itself. -/
def Acyclic (self : Pools τ) : Prop := self.graph.Acyclic

/-- Pools that are only linked to older ones. -/
theorem acyclic_of_older {self : Pools τ}
    (older : ∀ pool < self.size, ∀ child ∈ (self.get pool).children, child < pool) :
    self.Acyclic := by
  apply Graph.acyclic_of_lt
  intro pool child edge
  by_cases known : pool < self.size
  · exact older pool known child edge
  · have empty : self.graph.next pool = [] := self.graph.outside pool (Nat.not_lt.mp known)
    rw [empty] at edge
    cases edge

/-- The keys of a pool and of what is below it. -/
def keys (self : Pools τ) (pool : PoolId) : List String :=
  (self.view pool).all.map PoolProxy.key

/-- The keys of the pool's own proxies. -/
def ownKeys (self : Pools τ) (pool : PoolId) : List String :=
  (self.get pool).proxies.list.map PoolProxy.key

variable (self : Pools τ)

theorem contains_iff (pool : PoolId) (key : String) :
    self.contains pool key ↔ key ∈ self.keys pool := by
  rw [contains, ProxyPool.contains, List.any_eq_true, keys, List.mem_map]
  simp only [decide_eq_true_eq]

theorem mem_keys_candidates (pool : PoolId) (key : String) :
    key ∈ (self.candidates pool).map PoolProxy.key ↔ key ∈ self.keys pool :=
  ((ProxyPool.candidates_perm (self.view pool)).map _).mem_iff

private theorem mem_keys_tree (key : String) (depth : Nat) : ∀ pool : PoolId,
    key ∈ (self.tree depth pool).all.map PoolProxy.key ↔
      self.graph.Finds (fun node => key ∈ self.ownKeys node) depth pool := by
  induction depth with
  | zero =>
      intro pool
      rw [tree, ProxyPool.all, ProxyPool.collectAll]
      exact iff_of_false List.not_mem_nil id
  | succ depth inductionHypothesis =>
      intro pool
      rw [tree, ProxyPool.all, ProxyPool.mem_keys_collectAll]
      apply or_congr Iff.rfl
      constructor
      · rintro ⟨below, member, found⟩
        obtain ⟨child, edge, rfl⟩ := List.mem_map.mp member
        exact ⟨child, edge, (inductionHypothesis child).mp found⟩
      · rintro ⟨child, edge, found⟩
        exact ⟨_, List.mem_map_of_mem edge, (inductionHypothesis child).mpr found⟩

/-! ### Links -/

@[simp] theorem size_addChild (pool child : PoolId) :
    (self.addChild pool child).size = self.size := by
  rw [addChild, Arena.size_modify]

theorem proxies_addChild (pool child other : PoolId) :
    ((self.addChild pool child).get other).proxies = (self.get other).proxies := by
  by_cases known : pool < self.size
  · by_cases here : pool = other
    · subst here
      rw [addChild, Arena.get_modify_self _ _ known]
      split <;> rfl
    · rw [addChild, Arena.get_modify_of_ne _ _ here]
  · by_cases here : pool = other
    · subst here
      have unknown : self.size ≤ pool := Nat.not_lt.mp known
      rw [self.get_of_size_le unknown, Arena.get_of_size_le]
      rwa [size_addChild]
    · rw [addChild, Arena.get_modify_of_ne _ _ here]

theorem mem_children_addChild {pool : PoolId} (known : pool < self.size)
    (child other below : PoolId) :
    below ∈ ((self.addChild pool child).get other).children ↔
      below ∈ (self.get other).children ∨ (other = pool ∧ below = child) := by
  by_cases here : pool = other
  · subst here
    rw [addChild, Arena.get_modify_self _ _ known]
    split
    · next present =>
        constructor
        · exact .inl
        · rintro (old | ⟨_, rfl⟩)
          · exact old
          · exact present
    · simp
  · rw [addChild, Arena.get_modify_of_ne _ _ here]
    simp [Ne.symm here]

/-! ### Keys -/

/-- A pool has its own keys and those of its children. -/
theorem mem_keys (pool : PoolId) (key : String) :
    key ∈ self.keys pool ↔ key ∈ self.ownKeys pool ∨
      ∃ child ∈ (self.get pool).children, key ∈ self.keys child := by
  have inside (node : PoolId) (own : key ∈ self.ownKeys node) : node < self.graph.size := by
    by_contra outside
    rw [ownKeys, self.get_of_size_le (Nat.not_lt.mp outside)] at own
    cases own
  have enough (node : PoolId) : key ∈ self.keys node ↔
      self.graph.Finds (fun node => key ∈ self.ownKeys node) self.size node := by
    rw [keys, view, mem_keys_tree]
    exact Graph.finds_of_size_le inside (Nat.le_succ self.size) node
  have unfolded : key ∈ self.keys pool ↔ key ∈ self.ownKeys pool ∨
      ∃ child ∈ (self.get pool).children,
        self.graph.Finds (fun node => key ∈ self.ownKeys node) self.size child := by
    rw [keys, view, mem_keys_tree]
    exact Iff.rfl
  rw [unfolded]
  simp only [enough]

/-- Without cycles a pool's view is made of those of its children, as the source
recurses. -/
theorem view_eq (acyclic : self.Acyclic) (pool : PoolId) :
    self.view pool = .node (self.get pool).proxies (self.get pool).rotation
      ((self.get pool).children.map self.view) := by
  have unfolds (first second : Nat) (node : PoolId)
      (same : ∀ child ∈ self.graph.next node, self.tree first child = self.tree second child) :
      self.tree (first + 1) node = self.tree (second + 1) node := by
    rw [tree, tree]
    exact congrArg _ (List.map_congr_left same)
  have outside (depth : Nat) (node : PoolId) (unknown : self.graph.size ≤ node) :
      self.tree depth node = self.tree 0 node := by
    cases depth with
    | zero => rfl
    | succ depth =>
        have empty : self.get node = default := self.get_of_size_le unknown
        simp only [tree, empty]
        rfl
  have stable (node : PoolId) (depth : Nat) (deep : self.size ≤ depth) :
      self.tree depth node = self.tree self.size node :=
    Graph.eq_of_rank_le acyclic unfolds outside self.size node (self.graph.rank_le node) depth deep
  rw [view, tree]
  apply congrArg
  apply List.map_congr_left
  intro child _
  exact (stable child (self.size + 1) (Nat.le_succ _)).symm

end Unroxy.Proxy.Pools
