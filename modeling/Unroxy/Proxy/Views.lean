import Unroxy.Lib.Run
import Unroxy.Proxy.PoolGraph

/-!
Owns that a pool gives one answer to all who ask: `candidates`, `candidates_for`,
`contains`, `count`, `tunnel_count` and `usable_count`.

`filtered` removes duplicates among the proxies of one protocol, in the order of
lists that were sorted and rotated below; `all` removes them before anyone looks
at a protocol. `Pools.filtered` runs on the shared pools and advances their
counters, so a pool that is met twice is rotated twice.

Does not own which of the candidates is chosen.
-/

namespace Unroxy.Proxy

open Unroxy.Lib

variable {τ : Type}

/-- The filter of `local`. -/
def wants (protocol : Option Protocol) (proxy : PoolProxy τ) : Bool :=
  protocol.all fun wanted => proxy.protocol = wanted

namespace ProxyPool

/-- Duplicates may be removed before or after filtering, if they pass together. -/
theorem foldl_pushNew_filter {ready known more all : List (PoolProxy τ)} {keep : PoolProxy τ → Bool}
    (same : ready.Perm (known.filter keep)) (moreSame : more.Perm (all.filter keep))
    (distinct : (all.map PoolProxy.key).Nodup)
    (agree : ∀ old ∈ known, ∀ new ∈ all, old.key = new.key → keep old = keep new) :
    (more.foldl pushNew ready).Perm ((all.foldl pushNew known).filter keep) := by
  have moreDistinct : (more.map PoolProxy.key).Nodup :=
    (moreSame.map _).nodup_iff.mpr (distinct.sublist (List.filter_sublist.map _))
  have passes : (all.filter keep).filter (isNew (known.filter keep)) =
      (all.filter (isNew known)).filter keep := by
    rw [List.filter_filter, List.filter_filter]
    apply List.filter_congr
    intro new member
    cases kept : keep new with
    | false => rw [Bool.and_false, Bool.false_and]
    | true =>
        rw [Bool.and_true, Bool.true_and, isNew, isNew, List.all_filter, Bool.eq_iff_iff,
          List.all_eq_true, List.all_eq_true]
        apply forall₂_congr
        intro old oldMember
        by_cases equal : old.key = new.key
        · simp [agree old oldMember new member equal, kept]
        · simp [equal]
  rw [foldl_pushNew moreDistinct, foldl_pushNew distinct, List.filter_append, isNew_congr same,
    ← passes]
  exact same.append (moreSame.filter _)

theorem mem_collectAll {proxy : PoolProxy τ} (children : List (ProxyPool τ)) :
    ∀ known : List (PoolProxy τ), proxy ∈ collectAll known children →
      proxy ∈ known ∨ ∃ child ∈ children, proxy ∈ child.all := by
  induction children with
  | nil =>
      intro known member
      rw [collectAll] at member
      exact .inl member
  | cons child rest inductionHypothesis =>
      intro known member
      rw [collectAll, foldl_pushNew (all_distinct child)] at member
      rcases inductionHypothesis _ member with merged | ⟨later, isLater, found⟩
      · rcases List.mem_append.mp merged with old | new
        · exact .inl old
        · exact .inr ⟨child, List.mem_cons_self, List.mem_of_mem_filter new⟩
      · exact .inr ⟨later, List.mem_cons_of_mem _ isLater, found⟩

end ProxyPool

namespace Pools

/-! ### `filtered` on shared pools -/

/-- The counter of a pool gets this value. -/
def spin (self : Pools τ) (pool : PoolId) (rotation : UInt64) : Pools τ :=
  self.modify pool fun cell => { cell with rotation }

/-- The loop of `filtered` over the children. -/
def collectChildren (ask : Pools τ → PoolId → List (Candidate τ) × Pools τ) :
    List PoolId → List (Candidate τ) → Pools τ → List (Candidate τ) × Pools τ
  | [], ready, self => (ready, self)
  | child :: rest, ready, self =>
      let (more, self) := ask self child
      collectChildren ask rest (more.foldl ProxyPool.pushNew ready) self

/-- `filtered` of pools down to this depth. -/
def filteredBelow (protocol : Option Protocol) :
    Nat → Pools τ → PoolId → List (Candidate τ) × Pools τ
  | 0, self, _ => ([], self)
  | depth + 1, self, pool =>
      let cell := self.get pool
      let (ready, self) := collectChildren (filteredBelow protocol depth) cell.children
        (cell.proxies.localCandidates protocol) self
      let ready := ProxyPool.sortByPriority ready
      if ready.length > 1 then
        -- The children were asked first, and one of them may have come back here.
        let rotation := (self.get pool).rotation
        (ready.rotate (rotation.toNat % ready.length), self.spin pool (rotation + 1))
      else
        (ready, self)

/-- `candidates`, and `candidates_for` of a protocol, with the counters advanced. -/
def filtered (self : Pools τ) (protocol : Option Protocol) (pool : PoolId) :
    List (Candidate τ) × Pools τ :=
  filteredBelow protocol (self.size + 1) self pool

/-- The pools differ in their counters only. -/
def SameProxies (left right : Pools τ) : Prop :=
  ∀ pool, (right.get pool).proxies = (left.get pool).proxies ∧
    (right.get pool).children = (left.get pool).children

theorem SameProxies.spin {left right : Pools τ} (same : SameProxies left right) (pool : PoolId)
    (rotation : UInt64) : SameProxies left (right.spin pool rotation) := by
  intro other
  rw [Pools.spin]
  by_cases here : pool = other
  · subst here
    by_cases known : pool < right.size
    · rw [right.get_modify_self _ known]
      exact same pool
    · have unknown : (right.modify pool fun cell => { cell with rotation }).size ≤ pool := by
        rw [Arena.size_modify]
        exact Nat.not_lt.mp known
      rw [Arena.get_of_size_le _ unknown, ← right.get_of_size_le (Nat.not_lt.mp known)]
      exact same pool
  · rw [right.get_modify_of_ne _ here]
    exact same other

/-- The pool is this one or below it. -/
def Below (self : Pools τ) : PoolId → PoolId → Prop := Relation.ReflTransGen self.graph.Edge

theorem below_of_mem_all (self : Pools τ) {proxy : PoolProxy τ} (depth : Nat) :
    ∀ pool : PoolId, proxy ∈ (self.tree depth pool).all →
      ∃ source, self.Below pool source ∧ proxy ∈ (self.get source).proxies.list := by
  induction depth with
  | zero =>
      intro pool member
      rw [tree, ProxyPool.all, ProxyPool.collectAll] at member
      cases member
  | succ depth inductionHypothesis =>
      intro pool member
      rw [tree, ProxyPool.all] at member
      rcases ProxyPool.mem_collectAll _ _ member with own | ⟨below, isChild, found⟩
      · exact ⟨pool, .refl, own⟩
      · obtain ⟨child, edge, rfl⟩ := List.mem_map.mp isChild
        obtain ⟨source, reaches, there⟩ := inductionHypothesis child found
        exact ⟨source, .head edge reaches, there⟩

/-- Proxies below the pool that have one key pass the filter together. -/
def Agree (self : Pools τ) (protocol : Option Protocol) (pool : PoolId) : Prop :=
  ∀ first second, self.Below pool first → self.Below pool second →
    ∀ left ∈ (self.get first).proxies.list, ∀ right ∈ (self.get second).proxies.list,
      left.key = right.key → wants protocol left = wants protocol right

theorem agree_none (self : Pools τ) (pool : PoolId) : self.Agree none pool := by
  intro _ _ _ _ _ _ _ _ _
  rfl

theorem Agree.child {self : Pools τ} {protocol : Option Protocol} {pool child : PoolId}
    (agree : self.Agree protocol pool) (edge : child ∈ (self.get pool).children) :
    self.Agree protocol child :=
  fun first second firstBelow secondBelow =>
    agree first second (.head edge firstBelow) (.head edge secondBelow)

variable {original : Pools τ} {protocol : Option Protocol}

/-- The loop over the children, if each of them is asked rightly. -/
theorem collectChildren_perm {ask : Pools τ → PoolId → List (Candidate τ) × Pools τ} {depth : Nat}
    {pool : PoolId} (agree : original.Agree protocol pool) (children : List PoolId)
    (edges : children ⊆ (original.get pool).children)
    (asked : ∀ child ∈ children, ∀ self, SameProxies original self →
      (ask self child).1.Perm ((original.tree depth child).all.filter (wants protocol)) ∧
        SameProxies original (ask self child).2) :
    ∀ (ready known : List (PoolProxy τ)) (self : Pools τ),
      ready.Perm (known.filter (wants protocol)) →
      (∀ proxy ∈ known, ∃ source, original.Below pool source ∧
        proxy ∈ (original.get source).proxies.list) →
      SameProxies original self →
      (collectChildren ask children ready self).1.Perm
          ((ProxyPool.collectAll known (children.map (original.tree depth))).filter
            (wants protocol)) ∧
        SameProxies original (collectChildren ask children ready self).2 := by
  induction children with
  | nil =>
      intro ready known self same _ kept
      rw [collectChildren, List.map_nil, ProxyPool.collectAll]
      exact ⟨same, kept⟩
  | cons child rest inductionHypothesis =>
      intro ready known self same sources kept
      obtain ⟨edge, restEdges⟩ := List.cons_subset.mp edges
      obtain ⟨here, later⟩ := List.forall_mem_cons.mp asked
      obtain ⟨childPerm, childKept⟩ := here self kept
      have childSources : ∀ proxy ∈ (original.tree depth child).all,
          ∃ source, original.Below pool source ∧ proxy ∈ (original.get source).proxies.list := by
        intro proxy member
        obtain ⟨source, below, there⟩ := original.below_of_mem_all depth child member
        exact ⟨source, .head edge below, there⟩
      have distinct := ProxyPool.all_distinct (original.tree depth child)
      have merged := ProxyPool.foldl_pushNew_filter same childPerm distinct (by
        intro old oldMember new newMember equal
        obtain ⟨first, firstBelow, left⟩ := sources old oldMember
        obtain ⟨second, secondBelow, right⟩ := childSources new newMember
        exact agree first second firstBelow secondBelow old left new right equal)
      rw [collectChildren, List.map_cons, ProxyPool.collectAll]
      apply inductionHypothesis restEdges later _ _ _ merged _ childKept
      intro proxy member
      rw [ProxyPool.foldl_pushNew distinct] at member
      rcases List.mem_append.mp member with old | new
      · exact sources proxy old
      · exact childSources proxy (List.mem_of_mem_filter new)

/-- `filtered` returns what `all` does that passes, in some order, and changes
counters only. -/
theorem filteredBelow_perm (depth : Nat) : ∀ (self : Pools τ) (pool : PoolId),
    SameProxies original self → original.Agree protocol pool →
    (filteredBelow protocol depth self pool).1.Perm
        ((original.tree depth pool).all.filter (wants protocol)) ∧
      SameProxies original (filteredBelow protocol depth self pool).2 := by
  induction depth with
  | zero =>
      intro self pool kept _
      rw [filteredBelow, tree, ProxyPool.all, ProxyPool.collectAll]
      exact ⟨.nil, kept⟩
  | succ depth inductionHypothesis =>
      intro self pool kept agree
      obtain ⟨sameProxies, sameChildren⟩ := kept pool
      obtain ⟨collected, collectedKept⟩ := collectChildren_perm agree
        (original.get pool).children (List.Subset.refl _)
        (fun child edge self kept => inductionHypothesis self child kept (agree.child edge))
        _ (original.get pool).proxies.list self (List.Perm.refl _)
        (fun proxy member => ⟨pool, .refl, member⟩) kept
      have sorted := (List.perm_insertionSort
        (fun left right : PoolProxy τ => left.priority ≤ right.priority) _).trans collected
      rw [filteredBelow, sameProxies, sameChildren, tree, ProxyPool.all]
      dsimp only
      split
      · exact ⟨(List.rotate_perm _ _).trans sorted, collectedKept.spin pool _⟩
      · exact ⟨sorted, collectedKept⟩

/-- Entries below the pool that have one key have one protocol. -/
def Uniform (self : Pools τ) (pool : PoolId) : Prop :=
  ∀ first second, self.Below pool first → self.Below pool second →
    ∀ left ∈ (self.get first).proxies.list, ∀ right ∈ (self.get second).proxies.list,
      left.key = right.key → left.protocol = right.protocol

/-- It is enough to look at the pools there are. -/
theorem uniform_of_lt {self : Pools τ}
    (same : ∀ first < self.size, ∀ second < self.size,
      ∀ left ∈ (self.get first).proxies.list, ∀ right ∈ (self.get second).proxies.list,
        left.key = right.key → left.protocol = right.protocol) (pool : PoolId) :
    self.Uniform pool := by
  have known {place : PoolId} {proxy : PoolProxy τ}
      (member : proxy ∈ (self.get place).proxies.list) : place < self.size := by
    by_contra unknown
    rw [self.get_of_size_le (Nat.not_lt.mp unknown)] at member
    cases member
  intro first second _ _ left leftMember right rightMember
  exact same first (known leftMember) second (known rightMember) left leftMember right rightMember

theorem Uniform.agree {self : Pools τ} {pool : PoolId} (uniform : self.Uniform pool)
    (protocol : Option Protocol) : self.Agree protocol pool := by
  intro first second firstBelow secondBelow left leftMember right rightMember equal
  rw [wants, wants,
    uniform first second firstBelow secondBelow left leftMember right rightMember equal]

theorem candidates_perm (self : Pools τ) (pool : PoolId) :
    (self.filtered none pool).1.Perm (self.view pool).all := by
  have perm := (filteredBelow_perm (self.size + 1) self pool (fun _ => ⟨rfl, rfl⟩)
    (self.agree_none pool)).1
  have everything : (self.view pool).all.filter (wants none) = (self.view pool).all :=
    List.filter_eq_self.mpr fun _ _ => rfl
  rw [← everything]
  exact perm

theorem candidatesFor_perm (self : Pools τ) {pool : PoolId} (uniform : self.Uniform pool)
    (protocol : Protocol) :
    (self.filtered (some protocol) pool).1.Perm
      ((self.view pool).all.filter fun proxy => proxy.protocol = protocol) :=
  (filteredBelow_perm (self.size + 1) self pool (fun _ => ⟨rfl, rfl⟩)
    (uniform.agree (some protocol))).1

end Pools

/-! ### Pools as they are built -/

/-- What can happen to pools. A counter is wherever earlier calls have brought it. -/
inductive PoolStep (τ : Type) where
  | new (proxies : Proxies τ)
  | push (pool : PoolId) (proxy : PoolProxy τ)
  | remove (pool : PoolId) (key : String)
  | addChild (pool child : PoolId)
  | spin (pool : PoolId) (rotation : UInt64)
deriving DecidableEq, Repr

namespace Pools

def step (self : Pools τ) : PoolStep τ → Pools τ
  | .new proxies => (self.new proxies).2
  | .push pool proxy => self.push pool proxy
  | .remove pool key => self.remove pool key
  | .addChild pool child => self.addChild pool child
  | .spin pool rotation => self.spin pool rotation

/-- What the views of one pool have in common. -/
structure ViewsAgree (pools : Pools τ) (pool : PoolId) (targetPool activeTunnels : τ → Nat) :
    Prop where
  /-- The answers are those of the source's recursion. -/
  unfolds : pools.view pool = .node (pools.get pool).proxies (pools.get pool).rotation
    ((pools.get pool).children.map pools.view)
  localDistinct : ∀ other, (pools.ownKeys other).Nodup
  candidates : (pools.filtered none pool).1.Perm (pools.view pool).all
  distinct : ((pools.filtered none pool).1.map PoolProxy.key).Nodup
  candidatesFor : ∀ protocol, (pools.filtered (some protocol) pool).1.Perm
    ((pools.view pool).all.filter fun proxy => proxy.protocol = protocol)
  contains : ∀ key, pools.contains pool key ↔
    ∃ candidate ∈ (pools.filtered none pool).1, candidate.key = key
  count : (pools.view pool).count = (pools.filtered none pool).1.length
  tunnelCount : (pools.view pool).tunnelCount targetPool =
    ((pools.filtered none pool).1.map fun candidate => targetPool candidate.tunnel).sum
  usableCount : (pools.view pool).usableCount activeTunnels =
    ((pools.filtered none pool).1.map fun candidate => activeTunnels candidate.tunnel).sum

/-- Whatever was done to the pools, the views of each of them agree. -/
theorem views_agree (steps : List (PoolStep τ)) (pool : PoolId)
    (acyclic : (run step .empty steps).Acyclic) (uniform : (run step .empty steps).Uniform pool)
    (targetPool activeTunnels : τ → Nat) :
    (run step .empty steps).ViewsAgree pool targetPool activeTunnels := by
  have perm := (run step .empty steps).candidates_perm pool
  refine
    { unfolds := view_eq _ acyclic pool
      localDistinct := fun other => ((run step .empty steps).get other).proxies.distinct
      candidates := perm
      distinct := (perm.map _).nodup_iff.mpr (ProxyPool.all_distinct _)
      candidatesFor := candidatesFor_perm _ uniform
      contains := ?_
      count := perm.length_eq.symm
      tunnelCount := (perm.map _).sum_nat.symm
      usableCount := (perm.map _).sum_nat.symm }
  intro key
  rw [contains_iff, keys, ← (perm.map _).mem_iff, List.mem_map]

/-- Two pools, one the other's child, with one proxy each and a counter that is
about to wrap. -/
def sampleSteps : List (PoolStep Nat) :=
  [.new (Proxies.empty.push ⟨"ssh://US", 3, 0, .ssh⟩),
    .new (Proxies.empty.push ⟨"openvpn://a", 1, 0, .vpn⟩), .addChild 1 0, .spin 1 (-1)]

theorem views_agree_sample :
    (run step .empty sampleSteps).ViewsAgree 1 (fun tunnel => tunnel) (fun _ => 1) :=
  views_agree sampleSteps 1 (acyclic_of_older (by decide)) (uniform_of_lt (by decide) 1) _ _

end Pools

end Unroxy.Proxy
