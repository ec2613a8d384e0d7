import Unroxy.Proxy.Regions

/-!
Owns where everything a region has comes from: every pool below its merged pool
and every forward of its variants was given to it, or to a region of its name
that the proxy was given.

Does not own what is still in a pool.
-/

namespace Unroxy.Proxy.RegionTable

open Unroxy.Lib

variable {τ φ : Type}

/-- A gift to this region, or to one of its name that the proxy was given. -/
def Under (self : RegionTable τ φ) (id : RegionId) (gift : Gift φ) : Prop :=
  (gift.region = id ∨ gift.region ∈ self.added) ∧
    eqIgnoreAsciiCase (self.region gift.region).username (self.region id).username

structure Traced (table : RegionTable τ φ) : Prop where
  giftsKnown : ∀ gift ∈ table.gifts, gift.region < table.regions.size
  pool : ∀ id < table.regions.size, ∀ pool ∈ table.children id,
    ∃ gift ∈ table.gifts, table.Under id gift ∧ gift.pool = pool
  forward : ∀ id < table.regions.size, ∀ variant ∈ (table.region id).variants,
    ∀ forward, variant.forward = some forward →
      ∃ gift ∈ table.gifts, table.Under id gift ∧ gift.forward = some forward

theorem traced_give {self : RegionTable τ φ} (sound : self.Sound) (traced : self.Traced)
    {id : RegionId} (known : id < self.regions.size) (protocol : Protocol) {pool : PoolId}
    {forward : Option φ}
    (poolTraced : ∃ gift ∈ self.gifts, self.Under id gift ∧ gift.pool = pool)
    (forwardTraced : ∀ value, forward = some value →
      ∃ gift ∈ self.gifts, self.Under id gift ∧ gift.forward = some value) :
    (self.give id protocol pool forward).Traced := by
  have under {other : RegionId} {gift : Gift φ} (before : self.Under other gift) :
      (self.give id protocol pool forward).Under other gift := by
    refine ⟨before.1, ?_⟩
    rw [username_give known, username_give known]
    exact before.2
  constructor
  · intro gift member
    rw [size_give]
    exact traced.giftsKnown gift member
  · intro other otherKnown below child
    rw [size_give] at otherKnown
    rw [mem_children_give known protocol pool forward sound otherKnown] at child
    rcases child with old | ⟨rfl, rfl⟩
    · obtain ⟨gift, member, before, isPool⟩ := traced.pool other otherKnown below old
      exact ⟨gift, member, under before, isPool⟩
    · obtain ⟨gift, member, before, isPool⟩ := poolTraced
      exact ⟨gift, member, under before, isPool⟩
  · intro other otherKnown variant isVariant value set
    rw [size_give] at otherKnown
    have source : ∃ gift ∈ self.gifts, self.Under other gift ∧ gift.forward = some value := by
      by_cases here : id = other
      · subst here
        rw [region_give_self known] at isVariant
        rcases Region.add_forwards variant isVariant with same | ⟨old, oldMember, same⟩
        · exact forwardTraced value (same ▸ set)
        · exact traced.forward id known old oldMember value (same ▸ set)
      · rw [region_give_of_ne _ _ _ here] at isVariant
        exact traced.forward other otherKnown variant isVariant value set
    obtain ⟨gift, member, before, isForward⟩ := source
    exact ⟨gift, member, under before, isForward⟩

/-- Regions stay, and so do the pools below their merged pools. -/
theorem Traced.frame {self later : RegionTable τ φ} (traced : self.Traced)
    (regions : later.regions = self.regions) (added : self.added ⊆ later.added)
    (gifts : self.gifts ⊆ later.gifts)
    (giftsKnown : ∀ gift ∈ later.gifts, gift.region < self.regions.size)
    (children : ∀ id < self.regions.size, later.children id = self.children id) :
    later.Traced := by
  have same (id : RegionId) : later.region id = self.region id := by
    rw [region, regions, region]
  have under {id : RegionId} {gift : Gift φ} (before : self.Under id gift) :
      later.Under id gift := by
    refine ⟨before.1.imp_right fun isAdded => added isAdded, ?_⟩
    rw [same, same]
    exact before.2
  constructor
  · intro gift member
    rw [regions]
    exact giftsKnown gift member
  · intro id known pool child
    rw [regions] at known
    rw [children id known] at child
    obtain ⟨gift, member, before, isPool⟩ := traced.pool id known pool child
    exact ⟨gift, gifts member, under before, isPool⟩
  · intro id known variant isVariant value set
    rw [regions] at known
    rw [same] at isVariant
    obtain ⟨gift, member, before, isForward⟩ :=
      traced.forward id known variant isVariant value set
    exact ⟨gift, gifts member, under before, isForward⟩

theorem traced_giveAll {self : RegionTable τ φ} (sound : self.Sound) (traced : self.Traced)
    {id : RegionId} (known : id < self.regions.size) (variants : List (Variant φ))
    (sources : ∀ variant ∈ variants,
      (∃ gift ∈ self.gifts, self.Under id gift ∧ gift.pool = variant.pool) ∧
      ∀ value, variant.forward = some value →
        ∃ gift ∈ self.gifts, self.Under id gift ∧ gift.forward = some value) :
    (self.giveAll id variants).Traced := by
  induction variants generalizing self with
  | nil => exact traced
  | cons variant rest inductionHypothesis =>
      have first := sources variant List.mem_cons_self
      have under {gift : Gift φ} (before : self.Under id gift) :
          (self.give id variant.protocol variant.pool variant.forward).Under id gift := by
        refine ⟨before.1, ?_⟩
        rw [username_give known, username_give known]
        exact before.2
      rw [giveAll, List.foldl_cons, ← giveAll]
      apply inductionHypothesis
      · exact sound_give known _ _ _ sound
      · exact traced_give sound traced known _ first.1 first.2
      · rw [size_give]
        exact known
      · intro other member
        have later := sources other (List.mem_cons_of_mem _ member)
        constructor
        · obtain ⟨gift, isGift, before, isPool⟩ := later.1
          exact ⟨gift, isGift, under before, isPool⟩
        · intro value set
          obtain ⟨gift, isGift, before, isForward⟩ := later.2 value set
          exact ⟨gift, isGift, under before, isForward⟩

theorem traced_newRegion {self : RegionTable τ φ} (sound : self.Sound) (traced : self.Traced)
    (name username : String) : (self.newRegion name username).Traced := by
  have old {id : RegionId} (known : id < self.regions.size) :=
    self.region_newRegion_of_lt name username known
  have new := self.region_newRegion_size name username
  have split {id : RegionId} (known : id < (self.newRegion name username).regions.size) :
      id < self.regions.size ∨ id = self.regions.size := by
    rw [size_newRegion] at known
    exact Nat.lt_succ_iff_lt_or_eq.mp known
  have under {id : RegionId} (known : id < self.regions.size) {gift : Gift φ}
      (member : gift ∈ self.gifts) (before : self.Under id gift) :
      (self.newRegion name username).Under id gift := by
    refine ⟨before.1, ?_⟩
    rw [old known, old (traced.giftsKnown gift member)]
    exact before.2
  constructor
  · intro gift member
    rw [size_newRegion]
    exact Nat.lt_succ_of_lt (traced.giftsKnown gift member)
  · intro id known pool child
    rcases split known with isOld | rfl
    · rw [children, old isOld] at child
      change pool ∈ ((self.pools.alloc _).2.get _).children at child
      rw [self.pools.get_alloc_of_lt _ (sound.known id isOld)] at child
      obtain ⟨gift, member, before, isPool⟩ := traced.pool id isOld pool child
      exact ⟨gift, member, under isOld member before, isPool⟩
    · rw [children, new] at child
      change pool ∈ ((self.pools.alloc _).2.get self.pools.size).children at child
      rw [self.pools.get_alloc_size] at child
      cases child
  · intro id known variant isVariant value set
    rcases split known with isOld | rfl
    · rw [old isOld] at isVariant
      obtain ⟨gift, member, before, isForward⟩ :=
        traced.forward id isOld variant isVariant value set
      exact ⟨gift, member, under isOld member before, isForward⟩
    · rw [new] at isVariant
      cases isVariant

theorem traced_add {self : RegionTable τ φ} (sound : self.Sound) (traced : self.Traced)
    {id : RegionId} (known : id < self.regions.size) (protocol : Protocol) (pool : PoolId)
    (forward : Option φ) :
    Traced { self.give id protocol pool forward with
      gifts := self.gifts ++ [{ region := id, protocol, pool, forward }] } := by
  let gift : Gift φ := { region := id, protocol, pool, forward }
  let recorded : RegionTable τ φ := { self with gifts := self.gifts ++ [gift] }
  have recordedSound : recorded.Sound := { sound with }
  have recordedTraced : recorded.Traced := by
    refine traced.frame rfl (List.Subset.refl _) (List.subset_append_left _ _) ?_ fun _ _ => rfl
    intro other member
    rcases List.mem_append.mp member with old | new
    · exact traced.giftsKnown other old
    · rw [List.mem_singleton.mp new]
      exact known
  have isGift : gift ∈ recorded.gifts := List.mem_append_right _ List.mem_cons_self
  have isUnder : recorded.Under id gift := ⟨.inl rfl, eqIgnoreAsciiCase_refl _⟩
  exact traced_give recordedSound recordedTraced known protocol ⟨gift, isGift, isUnder, rfl⟩
    fun value set => ⟨gift, isGift, isUnder, set⟩

/-- What a merged region has came to it, and it is one of that name. -/
theorem traced_addRegion {self : RegionTable τ φ} (sound : self.Sound) (traced : self.Traced)
    {id : RegionId} (known : id < self.regions.size) : (self.addRegion id).Traced := by
  have recorded : Traced { self with added := self.added ++ [id] } :=
    traced.frame rfl (List.subset_append_left _ _) (List.Subset.refl _) traced.giftsKnown
      fun _ _ => rfl
  rcases addRegion_cases sound known with ⟨_, added⟩ | ⟨existing, found, added⟩
  · rw [added]
    exact recorded.frame rfl (List.Subset.refl _) (List.Subset.refl _) traced.giftsKnown
      fun _ _ => rfl
  · have under {gift : Gift φ} (before : self.Under id gift) :
        Under { self with added := self.added ++ [id] } existing gift := by
      constructor
      · refine .inr (List.mem_append.mpr ?_)
        rcases before.1 with rfl | isAdded
        · exact .inr List.mem_cons_self
        · exact .inl isAdded
      · exact eqIgnoreAsciiCase_trans before.2
          (eqIgnoreAsciiCase_symm (existing_username found))
    rw [added]
    apply traced_giveAll (sound.record known found) recorded (sound.existingKnown found)
    intro variant isVariant
    constructor
    · have child := sound.linked id known variant.pool (List.mem_map_of_mem isVariant)
      obtain ⟨gift, member, before, isPool⟩ := traced.pool id known variant.pool child
      exact ⟨gift, member, under before, isPool⟩
    · intro value set
      obtain ⟨gift, member, before, isForward⟩ :=
        traced.forward id known variant isVariant value set
      exact ⟨gift, member, under before, isForward⟩

theorem traced_step {self : RegionTable τ φ} (sound : self.Sound) (traced : self.Traced)
    (action : RegionStep τ φ) : (self.step action).Traced := by
  have taken := taken_step sound action
  generalize self.step action = later at taken ⊢
  cases taken with
  | untouched same =>
      apply traced.frame same.regions
      · rw [same.added]
        exact List.Subset.refl _
      · rw [same.gifts]
        exact List.Subset.refl _
      · rw [same.gifts]
        exact traced.giftsKnown
      · exact fun _ known => same.children known
  | newRegion name username => exact traced_newRegion sound traced name username
  | add known protocol pool forward =>
      exact traced_add sound traced known protocol pool forward
  | addRegion known => exact traced_addRegion sound traced known

theorem traced_run (defaultForward : Option φ) (steps : List (RegionStep τ φ)) :
    (run step (new defaultForward) steps).Traced := by
  have kept (table : RegionTable τ φ) (action : RegionStep τ φ)
      (held : table.Sound ∧ table.Traced) :
      (table.step action).Sound ∧ (table.step action).Traced :=
    ⟨sound_step held.1 action, traced_step held.1 held.2 action⟩
  have start : (new defaultForward : RegionTable τ φ).Traced := by
    constructor
    · exact fun _ member => absurd member List.not_mem_nil
    · exact fun _ known => absurd known (Nat.not_lt_zero _)
    · exact fun _ known => absurd known (Nat.not_lt_zero _)
  exact (run_always kept steps ⟨sound_new defaultForward, start⟩).2

end Unroxy.Proxy.RegionTable
