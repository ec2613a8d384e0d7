import Unroxy.Proxy.Isolation
import Unroxy.Proxy.Merging

/-!
Owns what stays when the regions change and the pools are asked for exits: a name
leads to the region it led to, with its merged pool and all that was given to it.

Does not own the requests that go on meanwhile.
-/

namespace Unroxy.Proxy

open Unroxy.Lib

variable {τ φ : Type}

/-! ### Counters -/

namespace Pools

/-- At most the counters differ. -/
structure Spun (before after : Pools τ) : Prop where
  size : after.size = before.size
  same : SameProxies before after

theorem Spun.refl (self : Pools τ) : Spun self self := ⟨rfl, fun _ => ⟨rfl, rfl⟩⟩

theorem Spun.spin {before after : Pools τ} (spun : Spun before after) (pool : PoolId)
    (rotation : UInt64) : Spun before (after.spin pool rotation) where
  size := by rw [Pools.spin, Arena.size_modify, spun.size]
  same := spun.same.spin pool rotation

variable {original : Pools τ} {protocol : Option Protocol}

/-- The pools are left as they are but for the counters, and what is found is below
the pool. -/
def Finds (original : Pools τ) (pool : PoolId) (found : List (Candidate τ) × Pools τ) : Prop :=
  Spun original found.2 ∧ ∀ proxy ∈ found.1, original.Has pool proxy

theorem Has.parent {pool child : PoolId} {proxy : PoolProxy τ} (has : original.Has child proxy)
    (edge : child ∈ (original.get pool).children) : original.Has pool proxy := by
  obtain ⟨source, below, there⟩ := has
  exact ⟨source, .head edge below, there⟩

theorem collectChildren_finds {ask : Pools τ → PoolId → List (Candidate τ) × Pools τ}
    {pool : PoolId} (children : List PoolId)
    (edges : children ⊆ (original.get pool).children)
    (asked : ∀ child ∈ children, ∀ self, Spun original self →
      original.Finds child (ask self child)) :
    ∀ (ready : List (Candidate τ)) (self : Pools τ), original.Finds pool (ready, self) →
      original.Finds pool (collectChildren ask children ready self) := by
  induction children with
  | nil => exact fun _ _ found => found
  | cons child rest inductionHypothesis =>
      intro ready self found
      obtain ⟨edge, restEdges⟩ := List.cons_subset.mp edges
      obtain ⟨here, later⟩ := List.forall_mem_cons.mp asked
      obtain ⟨spun, more⟩ := here self found.1
      rw [collectChildren]
      apply inductionHypothesis restEdges later
      refine ⟨spun, fun proxy member => ?_⟩
      rcases ProxyPool.mem_foldl_pushNew _ _ member with old | new
      · exact found.2 proxy old
      · exact (more proxy new).parent edge

theorem filteredBelow_finds (depth : Nat) : ∀ (self : Pools τ) (pool : PoolId),
    Spun original self → original.Finds pool (filteredBelow protocol depth self pool) := by
  induction depth with
  | zero => exact fun self pool spun => ⟨spun, fun _ absent => absurd absent List.not_mem_nil⟩
  | succ depth inductionHypothesis =>
      intro self pool spun
      obtain ⟨sameProxies, sameChildren⟩ := spun.same pool
      have own : original.Finds pool
          (((self.get pool).proxies.localCandidates protocol), self) := by
        refine ⟨spun, fun proxy member => ?_⟩
        rw [sameProxies] at member
        exact ⟨pool, .refl, List.mem_of_mem_filter member⟩
      have collected := collectChildren_finds (self.get pool).children
        (by rw [sameChildren]; exact List.Subset.refl _)
        (fun child _ later laterSpun => inductionHypothesis later child laterSpun) _ self own
      rw [filteredBelow]
      dsimp only
      split
      · refine ⟨collected.1.spin pool _, fun proxy member => ?_⟩
        rw [List.mem_rotate, ProxyPool.sortByPriority, List.mem_insertionSort] at member
        exact collected.2 proxy member
      · refine ⟨collected.1, fun proxy member => ?_⟩
        rw [ProxyPool.sortByPriority, List.mem_insertionSort] at member
        exact collected.2 proxy member

theorem filtered_finds (self : Pools τ) (protocol : Option Protocol) (pool : PoolId) :
    self.Finds pool (self.filtered protocol pool) :=
  filteredBelow_finds (self.size + 1) self pool (.refl self)

end Pools

namespace RegionTable

theorem Sound.spun {self : RegionTable τ φ} (sound : self.Sound) {pools : Pools τ}
    (spun : Pools.Spun self.pools pools) : Sound { self with pools } :=
  { sound with
    known := by
      intro id known
      change _ < pools.size
      rw [spun.size]
      exact sound.known id known
    bare := by
      intro id known
      change (pools.get _).proxies = .empty
      rw [(spun.same _).1]
      exact sound.bare id known
    linked := by
      intro id known pool member
      change pool ∈ (pools.get _).children
      rw [(spun.same _).2]
      exact sound.linked id known pool member }

theorem Traced.spun {self : RegionTable τ φ} (traced : self.Traced) {pools : Pools τ}
    (spun : Pools.Spun self.pools pools) : Traced { self with pools } := by
  refine traced.frame rfl (List.Subset.refl _) (List.Subset.refl _) traced.giftsKnown ?_
  intro id known
  exact (spun.same _).2

/-! ### What stays -/

/-- Beside what grows: regions keep their merged pool, and what was added and given
stays. -/
structure Keeps (before after : RegionTable τ φ) : Prop where
  grows : Grows before after
  merged : ∀ id < before.regions.size, (after.region id).merged = (before.region id).merged
  added : before.added ⊆ after.added
  gifts : before.gifts ⊆ after.gifts

theorem Keeps.refl (self : RegionTable τ φ) : Keeps self self where
  grows := .refl self
  merged _ _ := rfl
  added := List.Subset.refl _
  gifts := List.Subset.refl _

theorem Keeps.of_same {before after : RegionTable τ φ} (regions : after.regions = before.regions)
    (listed : before.listed <+: after.listed) (added : before.added ⊆ after.added)
    (gifts : before.gifts ⊆ after.gifts) : Keeps before after where
  grows := .frame regions listed
  merged id _ := by rw [region, region, regions]
  added := added
  gifts := gifts

theorem Keeps.trans {first second third : RegionTable τ φ} (before : Keeps first second)
    (after : Keeps second third) : Keeps first third where
  grows := before.grows.trans after.grows
  merged id known := by
    rw [after.merged id (Nat.lt_of_lt_of_le known before.grows.size), before.merged id known]
  added := List.Subset.trans before.added after.added
  gifts := List.Subset.trans before.gifts after.gifts

theorem keeps_give (self : RegionTable τ φ) {id : RegionId} (known : id < self.regions.size)
    (protocol : Protocol) (pool : PoolId) (forward : Option φ) :
    Keeps self (self.give id protocol pool forward) where
  grows := grows_give known protocol pool forward
  merged other _ := merged_give known protocol pool forward other
  added := List.Subset.refl _
  gifts := List.Subset.refl _

theorem keeps_giveAll (self : RegionTable τ φ) {id : RegionId} (known : id < self.regions.size)
    (variants : List (Variant φ)) : Keeps self (self.giveAll id variants) := by
  have kept (table : RegionTable τ φ) (before : Keeps self table) (variant : Variant φ)
      (_ : variant ∈ variants) :
      Keeps self (table.give id variant.protocol variant.pool variant.forward) :=
    before.trans (table.keeps_give (Nat.lt_of_lt_of_le known before.grows.size) _ _ _)
  exact giveAll_induction variants kept (.refl self)

theorem keeps_step {self : RegionTable τ φ} (sound : self.Sound) (action : RegionStep τ φ) :
    Keeps self (self.step action) := by
  have taken := taken_step sound action
  generalize self.step action = later at taken ⊢
  cases taken with
  | untouched same =>
      apply Keeps.of_same same.regions
      · rw [same.listed]
      · rw [same.added]
        exact List.Subset.refl _
      · rw [same.gifts]
        exact List.Subset.refl _
  | newRegion name username =>
      exact
        { grows := grows_newRegion self name username
          merged := fun id known => by rw [self.region_newRegion_of_lt name username known]
          added := List.Subset.refl _
          gifts := List.Subset.refl _ }
  | @add id known protocol pool forward =>
      have given := self.keeps_give known protocol pool forward
      exact given.trans (.of_same rfl List.prefix_rfl (List.Subset.refl _)
        (List.subset_append_left _ _))
  | @addRegion id known =>
      rcases addRegion_cases sound known with ⟨_, added⟩ | ⟨existing, found, added⟩
      · rw [added]
        exact .of_same rfl (List.prefix_append _ _) (List.subset_append_left _ _)
          (List.Subset.refl _)
      · rw [added]
        have recorded : Keeps self { self with added := self.added ++ [id] } :=
          .of_same rfl List.prefix_rfl (List.subset_append_left _ _) (List.Subset.refl _)
        exact recorded.trans
          (keeps_giveAll { self with added := self.added ++ [id] } (sound.existingKnown found) _)

end RegionTable

end Unroxy.Proxy
