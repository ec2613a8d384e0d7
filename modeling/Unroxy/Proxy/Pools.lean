import Unroxy.Lib.Arena
import Unroxy.Proxy.Pool

/-!
Owns pools as the process shares them: an `Arc<ProxyPool>` is a `PoolId`.

`view` is the tree below a pool, so what a pool answers is what `Proxy.Pool` says
about its view. A pool that several parents have is in the view of each of them.

Does not own who makes which pool.
-/

namespace Unroxy.Proxy

open Unroxy.Lib

abbrev PoolId := Nat

structure PoolCell (τ : Type) where
  proxies : Proxies τ
  rotation : UInt64
  children : List PoolId
deriving DecidableEq, Repr

abbrev Pools (τ : Type) := Arena (PoolCell τ)

variable {τ : Type}

instance : Inhabited (PoolCell τ) := ⟨⟨.empty, 0, []⟩⟩

namespace Pools

/-- `ProxyPool::new`. -/
def new (self : Pools τ) (proxies : Proxies τ) : PoolId × Pools τ := self.alloc ⟨proxies, 0, []⟩

def push (self : Pools τ) (pool : PoolId) (proxy : PoolProxy τ) : Pools τ :=
  self.modify pool fun cell => { cell with proxies := cell.proxies.push proxy }

def remove (self : Pools τ) (pool : PoolId) (key : String) : Pools τ :=
  self.modify pool fun cell => { cell with proxies := cell.proxies.remove key }

def addChild (self : Pools τ) (pool child : PoolId) : Pools τ :=
  self.modify pool fun cell =>
    if child ∈ cell.children then cell else { cell with children := cell.children ++ [child] }

/-- The pools down to this depth. -/
def tree (self : Pools τ) : Nat → PoolId → ProxyPool τ
  | 0, _ => .node .empty 0 []
  | depth + 1, pool =>
      let cell := self.get pool
      .node cell.proxies cell.rotation (cell.children.map (tree self depth))

/-- All the pools below a pool; a chain of children has each pool once. -/
def view (self : Pools τ) (pool : PoolId) : ProxyPool τ := self.tree (self.size + 1) pool

def candidates (self : Pools τ) (pool : PoolId) : List (Candidate τ) :=
  (self.view pool).candidates.1

def candidatesFor (self : Pools τ) (protocol : Protocol) (pool : PoolId) : List (Candidate τ) :=
  ((self.view pool).filtered (some protocol)).1

def contains (self : Pools τ) (pool : PoolId) (key : String) : Bool :=
  (self.view pool).contains key

/-- A pool without children. -/
def leaf (self : Pools τ) (pool : PoolId) : ProxyPool τ :=
  .node (self.get pool).proxies (self.get pool).rotation []

variable (self : Pools τ)

private theorem tree_of_leaf {pool : PoolId} (childless : (self.get pool).children = [])
    (depth : Nat) : self.tree (depth + 1) pool = self.leaf pool := by
  rw [tree, leaf, childless, List.map_nil]

theorem view_of_leaf {pool : PoolId} (childless : (self.get pool).children = []) :
    self.view pool = self.leaf pool :=
  self.tree_of_leaf childless self.size

/-- A pool whose children have none. -/
theorem view_of_leaves {pool : PoolId} (known : pool < self.size)
    (childless : ∀ child ∈ (self.get pool).children, (self.get child).children = []) :
    self.view pool = .node (self.get pool).proxies (self.get pool).rotation
      ((self.get pool).children.map self.leaf) := by
  obtain ⟨depth, size⟩ := Nat.exists_eq_add_one.mpr (Nat.zero_lt_of_lt known)
  have leaves : (self.get pool).children.map (self.tree (depth + 1)) =
      (self.get pool).children.map self.leaf := by
    apply List.map_congr_left
    intro child member
    exact self.tree_of_leaf (childless child member) depth
  rw [view, size, tree, leaves]

theorem mem_candidates (pool : PoolId) (candidate : Candidate τ) :
    candidate ∈ self.candidates pool ↔ candidate ∈ (self.view pool).all :=
  (ProxyPool.candidates_perm _).mem_iff

theorem leaf_all (pool : PoolId) : (self.leaf pool).all = (self.get pool).proxies.list := by
  rw [leaf, ProxyPool.all, ProxyPool.collectAll]

end Pools

end Unroxy.Proxy
