import Mathlib.Algebra.GroupWithZero.Nat
import Mathlib.Data.List.Rotate
import Mathlib.Data.List.Sort

/-!
Owns `ProxyPool` of `proxy/pool.rs`.

A pool is a tree: each pool has its own proxies, its own rotation counter and
its children, and `filtered` advances every counter it passes. The tunnel type
is a parameter. A pool that is a child in two places is not a tree; there the
second parent is another caller of it.

Does not own what a tunnel does.
-/

namespace Unroxy.Proxy

inductive Protocol where
  | ssh
  | vpn
deriving DecidableEq, Repr

/-- `PoolProxy`, and `Candidate` with the same four fields. -/
structure PoolProxy (τ : Type) where
  key : String
  tunnel : τ
  priority : Nat
  protocol : Protocol
deriving DecidableEq, Repr

abbrev Candidate := PoolProxy

/-- The proxies of one pool. `new` is given at most one and `push` refuses a key
that is there. -/
structure Proxies (τ : Type) where
  list : List (PoolProxy τ)
  distinct : (list.map PoolProxy.key).Nodup
deriving DecidableEq, Repr

inductive ProxyPool (τ : Type) where
  | node (proxies : Proxies τ) (rotation : UInt64) (children : List (ProxyPool τ))

variable {τ : Type}

namespace Proxies

def empty : Proxies τ := ⟨[], List.nodup_nil⟩

def push (self : Proxies τ) (proxy : PoolProxy τ) : Proxies τ :=
  if present : proxy.key ∈ self.list.map PoolProxy.key then
    self
  else
    ⟨self.list ++ [proxy], by
      rw [List.map_append, List.map_singleton]
      exact List.nodup_append_comm.mp (List.nodup_cons.mpr ⟨present, self.distinct⟩)⟩

def remove (self : Proxies τ) (key : String) : Proxies τ :=
  ⟨self.list.filter fun proxy => proxy.key ≠ key,
    self.distinct.sublist (List.filter_sublist.map _)⟩

/-- `local`. -/
def localCandidates (self : Proxies τ) (protocol : Option Protocol) : List (Candidate τ) :=
  self.list.filter fun proxy => protocol.all fun wanted => proxy.protocol = wanted

end Proxies

namespace ProxyPool

/-- One turn of the inner loop of `filtered` and `all`. -/
def pushNew (ready : List (Candidate τ)) (candidate : Candidate τ) : List (Candidate τ) :=
  if ready.any fun known => known.key = candidate.key then ready else ready ++ [candidate]

/-- `sort_by_key`, which is stable. -/
def sortByPriority (ready : List (Candidate τ)) : List (Candidate τ) :=
  ready.insertionSort fun left right => left.priority ≤ right.priority

mutual

/-- `filtered`: the candidates, and the pool with its counters advanced. -/
def filtered (protocol : Option Protocol) : ProxyPool τ → List (Candidate τ) × ProxyPool τ
  | .node proxies rotation children =>
      let (ready, children) := collect protocol (proxies.localCandidates protocol) children
      let ready := sortByPriority ready
      if ready.length > 1 then
        let offset := rotation.toNat % ready.length
        (ready.rotate offset, .node proxies (rotation + 1) children)
      else
        (ready, .node proxies rotation children)

/-- The loop of `filtered` over the children. -/
def collect (protocol : Option Protocol) (ready : List (Candidate τ)) :
    List (ProxyPool τ) → List (Candidate τ) × List (ProxyPool τ)
  | [] => (ready, [])
  | child :: rest =>
      let (more, child) := filtered protocol child
      let (ready, rest) := collect protocol (more.foldl pushNew ready) rest
      (ready, child :: rest)

end

mutual

/-- `all`: the proxies of the pool and of its children, each key once. -/
def all : ProxyPool τ → List (PoolProxy τ)
  | .node proxies _ children => collectAll proxies.list children

/-- The loop of `all` over the children. -/
def collectAll (proxies : List (PoolProxy τ)) : List (ProxyPool τ) → List (PoolProxy τ)
  | [] => proxies
  | child :: rest => collectAll (child.all.foldl pushNew proxies) rest

end

def push (proxy : PoolProxy τ) : ProxyPool τ → ProxyPool τ
  | .node proxies rotation children => .node (proxies.push proxy) rotation children

def remove (key : String) : ProxyPool τ → ProxyPool τ
  | .node proxies rotation children => .node (proxies.remove key) rotation children

def candidates (self : ProxyPool τ) : List (Candidate τ) × ProxyPool τ := self.filtered none

def count (self : ProxyPool τ) : Nat := self.all.length

def contains (self : ProxyPool τ) (key : String) : Bool := self.all.any fun proxy => proxy.key = key

/-- `tunnel_count`, with the tunnels' `target_pool`. -/
def tunnelCount (targetPool : τ → Nat) (self : ProxyPool τ) : Nat :=
  (self.all.map fun proxy => targetPool proxy.tunnel).sum

/-- `usable_count`, with what the tunnels' `active_tunnels` return. -/
def usableCount (activeTunnels : τ → Nat) (self : ProxyPool τ) : Nat :=
  (self.all.map fun proxy => activeTunnels proxy.tunnel).sum

/-! ### Candidates are the proxies, in some order -/

/-- No entry of `known` has this key. -/
def isNew (known : List (PoolProxy τ)) (proxy : PoolProxy τ) : Bool :=
  known.all fun other => other.key ≠ proxy.key

theorem isNew_congr {known other : List (PoolProxy τ)} (same : known.Perm other) :
    isNew known = isNew other :=
  funext fun _ => same.all_eq

private theorem pushNew_eq (known : List (PoolProxy τ)) (proxy : PoolProxy τ) :
    pushNew known proxy = if isNew known proxy then known ++ [proxy] else known := by
  have present : (known.any fun other => other.key = proxy.key) = !isNew known proxy := by
    rw [List.any_eq_not_all_not]
    simp [isNew]
  rw [pushNew, present]
  cases isNew known proxy <;> rfl

private theorem isNew_append (known : List (PoolProxy τ)) (last proxy : PoolProxy τ) :
    isNew (known ++ [last]) proxy = (isNew known proxy && decide (last.key ≠ proxy.key)) := by
  simp [isNew]

/-- Pushing what is new, one by one, appends what is new. -/
theorem foldl_pushNew {more : List (PoolProxy τ)} (distinct : (more.map PoolProxy.key).Nodup) :
    ∀ known : List (PoolProxy τ), more.foldl pushNew known = known ++ more.filter (isNew known) := by
  induction more with
  | nil => exact fun known => (List.append_nil known).symm
  | cons proxy rest inductionHypothesis =>
      intro known
      obtain ⟨absent, restDistinct⟩ := List.nodup_cons.mp distinct
      rw [List.foldl_cons, inductionHypothesis restDistinct]
      cases fresh : isNew known proxy with
      | true =>
          have others : rest.filter (isNew (known ++ [proxy])) = rest.filter (isNew known) := by
            apply List.filter_congr
            intro other member
            have different : proxy.key ≠ other.key := fun same =>
              absent (same ▸ List.mem_map_of_mem member)
            rw [isNew_append, decide_eq_true different, Bool.and_true]
          rw [pushNew_eq, fresh, if_pos rfl, others, List.filter_cons_of_pos fresh,
            List.append_assoc, List.singleton_append]
      | false =>
          rw [pushNew_eq, fresh, if_neg Bool.false_ne_true,
            List.filter_cons_of_neg (by simp [fresh])]

/-- Appending what is new keeps the keys distinct. -/
theorem append_new_distinct {known more : List (PoolProxy τ)}
    (knownDistinct : (known.map PoolProxy.key).Nodup)
    (moreDistinct : (more.map PoolProxy.key).Nodup) :
    ((known ++ more.filter (isNew known)).map PoolProxy.key).Nodup := by
  rw [List.map_append, List.nodup_append]
  refine ⟨knownDistinct, moreDistinct.sublist (List.filter_sublist.map _), ?_⟩
  intro key inKnown other inMore same
  obtain ⟨proxy, member, rfl⟩ := List.mem_map.mp inMore
  obtain ⟨earlier, earlierMember, rfl⟩ := List.mem_map.mp inKnown
  have fresh := (List.mem_filter.mp member).2
  rw [isNew, List.all_eq_true] at fresh
  exact of_decide_eq_true (fresh earlier earlierMember) same

mutual

theorem all_distinct : ∀ pool : ProxyPool τ, (pool.all.map PoolProxy.key).Nodup
  | .node proxies _ children => by
      rw [all]
      exact collectAll_distinct proxies.distinct children

theorem collectAll_distinct {known : List (PoolProxy τ)}
    (distinct : (known.map PoolProxy.key).Nodup) :
    ∀ children : List (ProxyPool τ), ((collectAll known children).map PoolProxy.key).Nodup
  | [] => by
      rw [collectAll]
      exact distinct
  | child :: rest => by
      rw [collectAll, foldl_pushNew (all_distinct child)]
      exact collectAll_distinct (append_new_distinct distinct (all_distinct child)) rest

end

theorem localCandidates_none (proxies : Proxies τ) :
    proxies.localCandidates none = proxies.list := by
  simp [Proxies.localCandidates]

mutual

/-- `candidates` returns what `all` does, sorted and rotated. -/
theorem candidates_perm : ∀ pool : ProxyPool τ, pool.candidates.1.Perm pool.all
  | .node proxies rotation children => by
      have collected := collect_perm (List.Perm.refl proxies.list) children
      have sorted := (List.perm_insertionSort
        (fun left right : PoolProxy τ => left.priority ≤ right.priority) _).trans collected
      rw [candidates, filtered, localCandidates_none, all]
      dsimp only
      split
      · exact (List.rotate_perm _ _).trans sorted
      · exact sorted

theorem collect_perm {ready known : List (PoolProxy τ)} (same : ready.Perm known) :
    ∀ children : List (ProxyPool τ),
      (collect none ready children).1.Perm (collectAll known children)
  | [] => by
      rw [collect, collectAll]
      exact same
  | child :: rest => by
      have childPerm := candidates_perm child
      have childDistinct : (child.candidates.1.map PoolProxy.key).Nodup :=
        (childPerm.map _).nodup_iff.mpr (all_distinct child)
      have merged : (child.candidates.1.foldl pushNew ready).Perm
          (child.all.foldl pushNew known) := by
        rw [foldl_pushNew childDistinct, foldl_pushNew (all_distinct child), isNew_congr same]
        exact same.append (childPerm.filter _)
      rw [collect, collectAll]
      exact collect_perm merged rest

end

/-! ### Which proxies the children add -/

private theorem isNew_of_notMem {known : List (PoolProxy τ)} {proxy : PoolProxy τ}
    (unknown : proxy.key ∉ known.map PoolProxy.key) : isNew known proxy := by
  rw [isNew, List.all_eq_true]
  intro other member
  exact decide_eq_true fun same => unknown (same ▸ List.mem_map_of_mem member)

theorem mem_keys_append_new (known more : List (PoolProxy τ)) (key : String) :
    key ∈ (known ++ more.filter (isNew known)).map PoolProxy.key ↔
      key ∈ known.map PoolProxy.key ∨ key ∈ more.map PoolProxy.key := by
  rw [List.map_append, List.mem_append]
  constructor
  · intro member
    exact member.imp_right fun new => (List.filter_sublist.map _).subset new
  · intro member
    by_cases old : key ∈ known.map PoolProxy.key
    · exact .inl old
    · obtain ⟨proxy, present, rfl⟩ := List.mem_map.mp (member.resolve_left old)
      exact .inr (List.mem_map_of_mem (List.mem_filter.mpr ⟨present, isNew_of_notMem old⟩))

/-- The keys are those of all the pools. -/
theorem mem_keys_collectAll (children : List (ProxyPool τ)) (key : String) :
    ∀ known : List (PoolProxy τ), key ∈ (collectAll known children).map PoolProxy.key ↔
      key ∈ known.map PoolProxy.key ∨ ∃ child ∈ children, key ∈ child.all.map PoolProxy.key := by
  induction children with
  | nil =>
      intro known
      rw [collectAll]
      simp
  | cons child rest inductionHypothesis =>
      intro known
      rw [collectAll, inductionHypothesis, foldl_pushNew (all_distinct child),
        mem_keys_append_new, List.exists_mem_cons_iff, or_assoc]

theorem subset_collectAll (children : List (ProxyPool τ)) :
    ∀ known : List (PoolProxy τ), known ⊆ collectAll known children := by
  induction children with
  | nil =>
      intro known
      rw [collectAll]
      exact List.Subset.refl known
  | cons child rest inductionHypothesis =>
      intro known
      rw [collectAll, foldl_pushNew (all_distinct child)]
      exact List.Subset.trans (List.subset_append_left _ _) (inductionHypothesis _)

/-- Of several proxies with one key the first counts. -/
theorem mem_collectAll_of_first {child : ProxyPool τ} {proxy : PoolProxy τ}
    (member : proxy ∈ child.all) (after before : List (ProxyPool τ)) :
    ∀ known : List (PoolProxy τ), proxy.key ∉ known.map PoolProxy.key →
      (∀ earlier ∈ before, proxy.key ∉ earlier.all.map PoolProxy.key) →
      proxy ∈ collectAll known (before ++ child :: after) := by
  induction before with
  | nil =>
      intro known unknown _
      rw [List.nil_append, collectAll, foldl_pushNew (all_distinct child)]
      apply subset_collectAll
      exact List.mem_append_right _ (List.mem_filter.mpr ⟨member, isNew_of_notMem unknown⟩)
  | cons earlier before inductionHypothesis =>
      intro known unknown first
      rw [List.cons_append, collectAll, foldl_pushNew (all_distinct earlier)]
      apply inductionHypothesis
      · rw [mem_keys_append_new, not_or]
        exact ⟨unknown, first earlier List.mem_cons_self⟩
      · intro other otherMember
        exact first other (List.mem_cons_of_mem _ otherMember)

/-! ### Asking for candidates keeps the proxies -/

theorem collect_snd (protocol : Option Protocol) (ready : List (Candidate τ))
    (children : List (ProxyPool τ)) :
    (collect protocol ready children).2 = children.map fun child => (child.filtered protocol).2 := by
  induction children generalizing ready with
  | nil => rw [collect, List.map_nil]
  | cons child rest inductionHypothesis =>
      rw [collect, List.map_cons]
      exact congrArg _ (inductionHypothesis _)

/-- Only the counters change. -/
theorem filtered_snd (protocol : Option Protocol) (proxies : Proxies τ) (rotation : UInt64)
    (children : List (ProxyPool τ)) :
    ∃ next, (filtered protocol (.node proxies rotation children)).2 =
      .node proxies next (children.map fun child => (child.filtered protocol).2) := by
  rw [filtered]
  dsimp only
  rw [collect_snd]
  split
  · exact ⟨rotation + 1, rfl⟩
  · exact ⟨rotation, rfl⟩

mutual

theorem filtered_all (protocol : Option Protocol) :
    ∀ pool : ProxyPool τ, (pool.filtered protocol).2.all = pool.all
  | .node proxies rotation children => by
      obtain ⟨next, same⟩ := filtered_snd protocol proxies rotation children
      rw [same, all, all]
      exact filtered_collectAll protocol proxies.list children

theorem filtered_collectAll (protocol : Option Protocol) (known : List (PoolProxy τ)) :
    ∀ children : List (ProxyPool τ),
      collectAll known (children.map fun child => (child.filtered protocol).2) =
        collectAll known children
  | [] => rfl
  | child :: rest => by
      rw [List.map_cons, collectAll, collectAll, filtered_all protocol child, filtered_collectAll]

end

theorem candidates_distinct (pool : ProxyPool τ) :
    (pool.candidates.1.map PoolProxy.key).Nodup :=
  ((candidates_perm pool).map _).nodup_iff.mpr (all_distinct pool)

theorem candidates_length (pool : ProxyPool τ) : pool.candidates.1.length = pool.count :=
  (candidates_perm pool).length_eq

end ProxyPool

end Unroxy.Proxy
