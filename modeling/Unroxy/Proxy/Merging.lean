import Unroxy.Proxy.Provenance

/-!
Owns that regions of one name become one region: what its merged pool has, and
what the pools of its protocols have.

A region takes every pool into its merged pool, but keeps only the first of each
protocol as that protocol's pool. Two pools under one protocol are therefore seen
together, and only one of them alone.

Does not own which region a request is for.
-/

namespace Unroxy.Proxy.RegionTable

open Unroxy.Lib

variable {τ φ : Type}

/-- The keys of the candidates of `Region::pool`. -/
def candidateKeys (self : RegionTable τ φ) (id : RegionId) (protocol : Option Protocol) :
    List String :=
  let (pool, pools) := (self.region id).pool self.pools protocol
  (pools.candidates pool).map PoolProxy.key

theorem mem_candidateKeys_none (self : RegionTable τ φ) (id : RegionId) (key : String) :
    key ∈ self.candidateKeys id none ↔ key ∈ self.pools.keys (self.region id).merged :=
  self.pools.mem_keys_candidates _ key

/-- A protocol the region does not have leads to a pool without keys. -/
theorem mem_candidateKeys_some (self : RegionTable τ φ) (id : RegionId) (protocol : Protocol)
    (key : String) :
    key ∈ self.candidateKeys id (some protocol) ↔
      ∃ variant, ((self.region id).variants.find? fun variant => variant.protocol = protocol) =
        some variant ∧ key ∈ self.pools.keys variant.pool := by
  rw [candidateKeys]
  cases found : (self.region id).variants.find? fun variant => variant.protocol = protocol with
  | some variant =>
      have pooled : (self.region id).pool self.pools (some protocol) =
          (variant.pool, self.pools) := by
        simp only [Region.pool, found]
      rw [pooled]
      dsimp only
      rw [Pools.mem_keys_candidates]
      simp
  | none =>
      have pooled : (self.region id).pool self.pools (some protocol) =
          self.pools.new .empty := by
        simp only [Region.pool, found]
      have fresh : (self.pools.new .empty).2.get self.pools.size = ⟨.empty, 0, []⟩ :=
        self.pools.get_alloc_size _
      have place : (self.pools.new .empty).1 = self.pools.size := rfl
      rw [pooled]
      dsimp only
      rw [Pools.mem_keys_candidates, Pools.mem_keys, Pools.ownKeys, place, fresh]
      simp [Proxies.empty]

theorem exists_mem_candidateKeys {self : RegionTable τ φ} (sound : self.Sound) {id : RegionId}
    (known : id < self.regions.size) (key : String) :
    (∃ protocol, key ∈ self.candidateKeys id (some protocol)) ↔
      ∃ pool ∈ (self.region id).variants.map Variant.pool, key ∈ self.pools.keys pool := by
  constructor
  · rintro ⟨protocol, member⟩
    obtain ⟨variant, found, inPool⟩ := (self.mem_candidateKeys_some id protocol key).mp member
    exact ⟨variant.pool, List.mem_map_of_mem (List.mem_of_find?_eq_some found), inPool⟩
  · rintro ⟨pool, isVariant, inPool⟩
    obtain ⟨variant, member, rfl⟩ := List.mem_map.mp isVariant
    refine ⟨variant.protocol, (self.mem_candidateKeys_some id variant.protocol key).mpr ?_⟩
    exact ⟨variant, Region.find?_of_mem (sound.protocols id known) member, inPool⟩

/-! ### What the table keeps -/

/-- Regions keep their names and the forwards they have, and stored regions their
places. -/
structure Grows (before after : RegionTable τ φ) : Prop where
  size : before.regions.size ≤ after.regions.size
  username : ∀ id < before.regions.size,
    (after.region id).username = (before.region id).username
  forward : ∀ id < before.regions.size, ∀ protocol kept,
    (before.region id).forward (some protocol) = some kept →
      (after.region id).forward (some protocol) = some kept
  listed : before.listed <+: after.listed

theorem Grows.refl (self : RegionTable τ φ) : Grows self self where
  size := Nat.le_refl _
  username := fun _ _ => rfl
  forward := fun _ _ _ _ found => found
  listed := List.prefix_rfl

theorem Grows.trans {first second third : RegionTable τ φ} (left : Grows first second)
    (right : Grows second third) : Grows first third where
  size := Nat.le_trans left.size right.size
  username := by
    intro id known
    rw [right.username id (Nat.lt_of_lt_of_le known left.size), left.username id known]
  forward := by
    intro id known protocol kept found
    exact right.forward id (Nat.lt_of_lt_of_le known left.size) protocol kept
      (left.forward id known protocol kept found)
  listed := left.listed.trans right.listed

/-- Regions stay as they are. -/
theorem Grows.frame {before after : RegionTable τ φ} (regions : after.regions = before.regions)
    (listed : before.listed <+: after.listed) : Grows before after := by
  have same (id : RegionId) : after.region id = before.region id := by
    rw [region, regions, region]
  constructor
  · rw [regions]
  · intro id _
    rw [same]
  · intro id _ protocol kept found
    rw [same]
    exact found
  · exact listed

theorem grows_give {self : RegionTable τ φ} {id : RegionId} (known : id < self.regions.size)
    (protocol : Protocol) (pool : PoolId) (forward : Option φ) :
    Grows self (self.give id protocol pool forward) where
  size := by rw [size_give]
  username := fun other _ => username_give known protocol pool forward other
  forward := by
    intro other _ wanted kept found
    by_cases here : id = other
    · subst here
      rw [region_give_self known]
      exact Region.add_forward found _ _ _ _
    · rw [region_give_of_ne protocol pool forward here]
      exact found
  listed := List.prefix_rfl

theorem grows_giveAll {self : RegionTable τ φ} {id : RegionId} (known : id < self.regions.size)
    (variants : List (Variant φ)) : Grows self (self.giveAll id variants) := by
  refine giveAll_induction variants ?_ (Grows.refl self)
  intro table grown variant _
  exact grown.trans (grows_give (Nat.lt_of_lt_of_le known grown.size) _ _ _)

theorem grows_newRegion (self : RegionTable τ φ) (name username : String) :
    Grows self (self.newRegion name username) where
  size := by
    rw [size_newRegion]
    exact Nat.le_succ _
  username := by
    intro id known
    rw [region_newRegion_of_lt self name username known]
  forward := by
    intro id known protocol kept found
    rw [region_newRegion_of_lt self name username known]
    exact found
  listed := List.prefix_rfl

theorem grows_addRegion {self : RegionTable τ φ} (sound : self.Sound) {id : RegionId}
    (known : id < self.regions.size) : Grows self (self.addRegion id) := by
  rcases addRegion_cases sound known with ⟨_, added⟩ | ⟨existing, found, added⟩
  · rw [added]
    exact Grows.frame rfl (List.prefix_append _ _)
  · let recorded : RegionTable τ φ := { self with added := self.added ++ [id] }
    have existingKnown : existing < recorded.regions.size := sound.existingKnown found
    have first : Grows self recorded := Grows.frame rfl List.prefix_rfl
    rw [added]
    exact first.trans (grows_giveAll existingKnown _)

theorem grows_step {self : RegionTable τ φ} (sound : self.Sound) (action : RegionStep τ φ) :
    Grows self (self.step action) := by
  have taken := taken_step sound action
  generalize self.step action = later at taken ⊢
  cases taken with
  | untouched same =>
      apply Grows.frame same.regions
      rw [same.listed]
  | newRegion name username => exact grows_newRegion self name username
  | add known protocol pool forward =>
      exact (grows_give known protocol pool forward).trans (Grows.frame rfl List.prefix_rfl)
  | addRegion known => exact grows_addRegion sound known

theorem grows_run {self : RegionTable τ φ} (sound : self.Sound) (steps : List (RegionStep τ φ)) :
    Grows self (run step self steps) := by
  induction steps generalizing self with
  | nil => exact Grows.refl self
  | cons action rest inductionHypothesis =>
      exact (grows_step sound action).trans (inductionHypothesis (sound_step sound action))

/-- A region that was found is found again. -/
theorem Grows.lookup {before after : RegionTable τ φ} (grown : Grows before after)
    (sound : before.Sound) {username : String} {id : RegionId}
    (found : before.lookup username = some id) : after.lookup username = some id := by
  have username_eq {other : RegionId} (member : other ∈ before.listed) :
      (after.region other).username = (before.region other).username :=
    grown.username other (sound.listedKnown member)
  obtain ⟨later, listed⟩ := grown.listed
  rw [RegionTable.lookup] at found ⊢
  split at found
  · cases found
  · next named =>
      obtain ⟨isName, earlier, rest, split, others⟩ := List.find?_eq_some_iff_append.mp found
      rw [if_neg named, existing, List.find?_eq_some_iff_append]
      refine ⟨?_, earlier, rest ++ later, ?_, ?_⟩
      · rw [username_eq (List.mem_of_find?_eq_some found)]
        exact isName
      · rw [← listed, split, List.append_assoc, List.cons_append]
      · intro other member
        rw [username_eq (split ▸ List.mem_append_left _ member)]
        exact others other member

/-! ### What the region of a name has -/

/-- Regions come with a name and with at most one pool for each protocol, and one
whose pools went to another region gets no more. -/
def Orderly (self : RegionTable τ φ) : RegionStep τ φ → Prop
  | .add id protocol _ _ =>
      (id ∈ self.added → id ∈ self.listed) ∧
        ∀ gift ∈ self.gifts, ¬ (gift.region = id ∧ gift.protocol = protocol)
  | .addRegion id => ¬ (self.region id).username.isEmpty
  | _ => True

instance (self : RegionTable τ φ) : ∀ action, Decidable (self.Orderly action)
  | .newPool _ => .isTrue trivial
  | .push .. => .isTrue trivial
  | .remove .. => .isTrue trivial
  | .addChild .. => .isTrue trivial
  | .newRegion .. => .isTrue trivial
  | .add id protocol _ _ =>
      inferInstanceAs (Decidable ((id ∈ self.added → id ∈ self.listed) ∧
        ∀ gift ∈ self.gifts, ¬ (gift.region = id ∧ gift.protocol = protocol)))
  | .addRegion id => inferInstanceAs (Decidable (¬ (self.region id).username.isEmpty))
  | .setProtocolRoute .. => .isTrue trivial

structure Merged (table : RegionTable τ φ) : Prop where
  own : ∀ gift ∈ table.gifts, gift.region ∉ table.added →
    gift.pool ∈ (table.region gift.region).variants.map Variant.pool
  ownProtocols : ∀ id, id ∉ table.added → ∀ protocol ∈ (table.region id).protocols,
    ∃ gift ∈ table.gifts, gift.region = id ∧ gift.protocol = protocol
  taken : ∀ gift ∈ table.gifts, gift.region ∈ table.added → ∀ id ∈ table.listed,
    eqIgnoreAsciiCase (table.region gift.region).username (table.region id).username →
      gift.pool ∈ table.children id
  named : ∀ id ∈ table.added, ¬ (table.region id).username.isEmpty

theorem Merged.untouched {self later : RegionTable τ φ} (merged : self.Merged)
    (sound : self.Sound) (same : Untouched self later) : later.Merged := by
  constructor
  · simp only [same.gifts, same.added, same.region]
    exact merged.own
  · simp only [same.gifts, same.added, same.region]
    exact merged.ownProtocols
  · simp only [same.gifts, same.added, same.listed, same.region]
    intro gift member isAdded id isListed sameName
    rw [same.children (sound.listedKnown isListed)]
    exact merged.taken gift member isAdded id isListed sameName
  · simp only [same.added, same.region]
    exact merged.named

theorem merged_newRegion {self : RegionTable τ φ} (sound : self.Sound) (traced : self.Traced)
    (merged : self.Merged) (name username : String) :
    (self.newRegion name username).Merged := by
  have old {id : RegionId} (known : id < self.regions.size) :=
    self.region_newRegion_of_lt name username known
  constructor
  · intro gift member isOwn
    rw [old (traced.giftsKnown gift member)]
    exact merged.own gift member isOwn
  · intro id isOwn protocol isProtocol
    rcases Nat.lt_trichotomy id self.regions.size with known | rfl | unknown
    · rw [old known] at isProtocol
      exact merged.ownProtocols id isOwn protocol isProtocol
    · rw [region_newRegion_size] at isProtocol
      cases isProtocol
    · have outside : (self.newRegion name username).regions.size ≤ id := by
        rw [size_newRegion]
        exact unknown
      rw [region, Arena.get_of_size_le _ outside] at isProtocol
      cases isProtocol
  · intro gift member isAdded id isListed
    rw [old (traced.giftsKnown gift member), old (sound.listedKnown isListed), children,
      old (sound.listedKnown isListed)]
    change _ → gift.pool ∈ ((self.pools.alloc _).2.get _).children
    rw [self.pools.get_alloc_of_lt _ (sound.known id (sound.listedKnown isListed))]
    exact merged.taken gift member isAdded id isListed
  · intro id isAdded
    rw [old (sound.addedKnown id isAdded)]
    exact merged.named id isAdded

/-- A region that is not stored takes the pool under its protocol, which is new,
and a stored region takes it into its merged pool. -/
theorem merged_add {self : RegionTable τ φ} (sound : self.Sound) (merged : self.Merged)
    {id : RegionId} (known : id < self.regions.size) (protocol : Protocol) (pool : PoolId)
    (forward : Option φ) (stored : id ∈ self.added → id ∈ self.listed)
    (first : ∀ gift ∈ self.gifts, ¬ (gift.region = id ∧ gift.protocol = protocol)) :
    Merged { self.give id protocol pool forward with
      gifts := self.gifts ++ [{ region := id, protocol, pool, forward }] } := by
  let gift : Gift φ := { region := id, protocol, pool, forward }
  let later : RegionTable τ φ :=
    { self.give id protocol pool forward with gifts := self.gifts ++ [gift] }
  have username (other : RegionId) :
      (later.region other).username = (self.region other).username :=
    username_give known protocol pool forward other
  have here : later.region id = ((self.region id).add self.pools protocol pool forward).1 :=
    region_give_self known protocol pool forward
  have away {other : RegionId} (different : id ≠ other) : later.region other = self.region other :=
    region_give_of_ne protocol pool forward different
  have children {other : RegionId} (isListed : other ∈ self.listed) (below : PoolId) :
      below ∈ later.children other ↔
        below ∈ self.children other ∨ (other = id ∧ below = pool) :=
    mem_children_give known protocol pool forward sound
      (sound.listedKnown isListed) below
  change later.Merged
  constructor
  · intro other member isOwn
    rcases List.mem_append.mp member with old | new
    · have held := merged.own other old isOwn
      by_cases isHere : id = other.region
      · rw [← isHere] at held ⊢
        rw [here, Region.mem_add_pools]
        exact .inl held
      · rw [away isHere]
        exact held
    · rw [List.mem_singleton.mp new] at isOwn ⊢
      change pool ∈ (later.region id).variants.map Variant.pool
      rw [here, Region.mem_add_pools]
      refine .inr ⟨?_, rfl⟩
      intro present
      obtain ⟨earlier, isGift, same⟩ := merged.ownProtocols id isOwn protocol present
      exact first earlier isGift same
  · intro other isOwn wanted isProtocol
    by_cases isHere : id = other
    · subst isHere
      rw [here] at isProtocol
      rcases Region.mem_add_protocols.mp isProtocol with old | rfl
      · obtain ⟨earlier, isGift, same⟩ := merged.ownProtocols id isOwn wanted old
        exact ⟨earlier, List.mem_append_left _ isGift, same⟩
      · exact ⟨gift, List.mem_append_right _ List.mem_cons_self, rfl, rfl⟩
    · rw [away isHere] at isProtocol
      obtain ⟨earlier, isGift, same⟩ := merged.ownProtocols other isOwn wanted isProtocol
      exact ⟨earlier, List.mem_append_left _ isGift, same⟩
  · intro other member isAdded kept isListed sameName
    rw [username, username] at sameName
    rw [children isListed]
    rcases List.mem_append.mp member with old | new
    · exact .inl (merged.taken other old isAdded kept isListed sameName)
    · rw [List.mem_singleton.mp new] at isAdded sameName ⊢
      refine .inr ⟨?_, rfl⟩
      exact sound.listed_unique isListed (stored isAdded) (eqIgnoreAsciiCase_symm sameName)
  · intro other isAdded
    rw [username]
    exact merged.named other isAdded

/-- A region under a new name is stored. -/
private theorem merged_store {self : RegionTable τ φ} (sound : self.Sound) (merged : self.Merged)
    {id : RegionId} (known : id < self.regions.size)
    (named : ¬ (self.region id).username.isEmpty)
    (unknown : self.existing (self.region id).username = none) :
    Merged { self with listed := self.listed ++ [id], added := self.added ++ [id] } := by
  have different {other : RegionId} (isListed : other ∈ self.listed) :
      ¬ eqIgnoreAsciiCase (self.region other).username (self.region id).username :=
    List.find?_eq_none.mp unknown other isListed
  have differentAdded {other : RegionId} (isAdded : other ∈ self.added) :
      ¬ eqIgnoreAsciiCase (self.region other).username (self.region id).username := by
    intro sameName
    obtain ⟨kept, isListed, keptName⟩ := sound.stored other isAdded
    exact different isListed (eqIgnoreAsciiCase_trans (eqIgnoreAsciiCase_symm keptName) sameName)
  constructor
  · intro gift member isOwn
    exact merged.own gift member fun isAdded => isOwn (List.mem_append_left _ isAdded)
  · intro other isOwn
    exact merged.ownProtocols other fun isAdded => isOwn (List.mem_append_left _ isAdded)
  · intro gift member isAdded kept isListed sameName
    rcases List.mem_append.mp isAdded with oldAdded | new
    · rcases List.mem_append.mp isListed with oldListed | newListed
      · exact merged.taken gift member oldAdded kept oldListed sameName
      · rw [List.mem_singleton.mp newListed] at sameName
        exact absurd sameName (differentAdded oldAdded)
    · have isRegion : gift.region = id := List.mem_singleton.mp new
      rw [isRegion] at sameName
      rcases List.mem_append.mp isListed with oldListed | newListed
      · exact absurd (eqIgnoreAsciiCase_symm sameName) (different oldListed)
      · have isOwn : gift.region ∉ self.added := by
          rw [isRegion]
          exact fun oldAdded => differentAdded oldAdded (eqIgnoreAsciiCase_refl _)
        have held := merged.own gift member isOwn
        rw [isRegion] at held
        rw [List.mem_singleton.mp newListed]
        exact sound.linked id known gift.pool held
  · intro other isAdded
    rcases List.mem_append.mp isAdded with oldAdded | new
    · exact merged.named other oldAdded
    · rw [List.mem_singleton.mp new]
      exact named

/-- The stored region of its name takes all its pools. -/
private theorem merged_take {self : RegionTable τ φ} (sound : self.Sound) (merged : self.Merged)
    {id existing : RegionId} (known : id < self.regions.size)
    (named : ¬ (self.region id).username.isEmpty)
    (found : self.existing (self.region id).username = some existing) :
    Merged (giveAll { self with added := self.added ++ [id] } existing
      (self.region id).variants) := by
  let recorded : RegionTable τ φ := { self with added := self.added ++ [id] }
  have recordedSound : recorded.Sound := sound.record known found
  have existingListed : existing ∈ self.listed := List.mem_of_find?_eq_some found
  have existingKnown : existing < recorded.regions.size := sound.existingKnown found
  have username (other : RegionId) :
      ((recorded.giveAll existing (self.region id).variants).region other).username =
        (self.region other).username :=
    username_giveAll existingKnown _ other
  obtain ⟨listed, added, gifts⟩ :
      (recorded.giveAll existing (self.region id).variants).listed = self.listed ∧
        (recorded.giveAll existing (self.region id).variants).added = self.added ++ [id] ∧
        (recorded.giveAll existing (self.region id).variants).gifts = self.gifts :=
    lists_giveAll _
  constructor
  · intro gift member isOwn
    rw [gifts] at member
    rw [added] at isOwn
    apply pools_subset_giveAll existingKnown
    exact merged.own gift member fun isAdded => isOwn (List.mem_append_left _ isAdded)
  · intro other isOwn
    rw [added] at isOwn
    have isOld : other ∉ self.added := fun isAdded => isOwn (List.mem_append_left _ isAdded)
    have different : existing ≠ other := by
      rintro rfl
      exact isOld (sound.listedAdded existing existingListed)
    rw [region_giveAll_of_ne _ different, gifts]
    exact merged.ownProtocols other isOld
  · intro gift member isAdded kept isListed sameName
    rw [gifts] at member
    rw [added] at isAdded
    rw [listed] at isListed
    rw [username, username] at sameName
    rw [mem_children_giveAll existingKnown recordedSound
      (sound.listedKnown isListed)]
    by_cases oldAdded : gift.region ∈ self.added
    · exact .inl (merged.taken gift member oldAdded kept isListed sameName)
    · have isRegion : gift.region = id := by
        rcases List.mem_append.mp isAdded with old | new
        · exact absurd old oldAdded
        · exact List.mem_singleton.mp new
      have held := merged.own gift member oldAdded
      rw [isRegion] at held sameName
      have keptExisting := eqIgnoreAsciiCase_trans (existing_username found) sameName
      exact .inr ⟨sound.listed_unique isListed existingListed
        (eqIgnoreAsciiCase_symm keptExisting), held⟩
  · intro other isAdded
    rw [added] at isAdded
    rw [username]
    rcases List.mem_append.mp isAdded with oldAdded | new
    · exact merged.named other oldAdded
    · rw [List.mem_singleton.mp new]
      exact named

theorem merged_addRegion {self : RegionTable τ φ} (sound : self.Sound) (merged : self.Merged)
    {id : RegionId} (known : id < self.regions.size)
    (named : ¬ (self.region id).username.isEmpty) : (self.addRegion id).Merged := by
  rcases addRegion_cases sound known with ⟨unknown, added⟩ | ⟨existing, found, added⟩
  · rw [added]
    exact merged_store sound merged known named unknown
  · rw [added]
    exact merged_take sound merged known named found

theorem merged_step {self : RegionTable τ φ} (sound : self.Sound) (traced : self.Traced)
    (merged : self.Merged) {action : RegionStep τ φ} (orderly : self.Orderly action) :
    (self.step action).Merged := by
  have taken := taken_step sound action
  generalize self.step action = later at taken ⊢
  cases taken with
  | untouched same => exact merged.untouched sound same
  | newRegion name username => exact merged_newRegion sound traced merged name username
  | add known protocol pool forward =>
      exact merged_add sound merged known protocol pool forward orderly.1 orderly.2
  | addRegion known => exact merged_addRegion sound merged known orderly

theorem merged_run (defaultForward : Option φ) {steps : List (RegionStep τ φ)}
    (orderly : Along step Orderly (new defaultForward) steps) :
    (run step (new defaultForward) steps).Merged := by
  have kept (table : RegionTable τ φ) (action : RegionStep τ φ)
      (held : table.Sound ∧ table.Traced ∧ table.Merged) (allowed : table.Orderly action) :
      (table.step action).Sound ∧ (table.step action).Traced ∧ (table.step action).Merged :=
    ⟨sound_step held.1 action, traced_step held.1 held.2.1 action,
      merged_step held.1 held.2.1 held.2.2 allowed⟩
  have start : (new defaultForward : RegionTable τ φ).Merged := by
    constructor
    · exact fun _ member => absurd member List.not_mem_nil
    · exact fun _ _ _ member => absurd member List.not_mem_nil
    · exact fun _ member => absurd member List.not_mem_nil
    · exact fun _ member => absurd member List.not_mem_nil
  exact (run_invariant kept steps ⟨sound_new defaultForward, traced_run defaultForward [], start⟩
    orderly).2.2

/-- The stored region of a name has the keys of every pool that was given to a
region of that name which the proxy was given. -/
theorem mem_lookup_keys {self : RegionTable τ φ} (sound : self.Sound) (traced : self.Traced)
    (merged : self.Merged) {username : String} {id : RegionId}
    (found : self.lookup username = some id) (key : String) :
    key ∈ self.candidateKeys id none ↔
      ∃ gift ∈ self.gifts, gift.region ∈ self.added ∧
        eqIgnoreAsciiCase (self.region gift.region).username username ∧
        key ∈ self.pools.keys gift.pool := by
  have isExisting := existing_of_lookup found
  have isListed : id ∈ self.listed := List.mem_of_find?_eq_some isExisting
  have isAdded := sound.listedAdded id isListed
  have isName := existing_username isExisting
  rw [mem_candidateKeys_none, mem_merged_keys sound (sound.addedKnown id isAdded)]
  constructor
  · rintro ⟨pool, child, member⟩
    obtain ⟨gift, isGift, under, rfl⟩ :=
      traced.pool id (sound.addedKnown id isAdded) pool child
    refine ⟨gift, isGift, ?_, eqIgnoreAsciiCase_trans under.2 isName, member⟩
    rcases under.1 with here | other
    · rw [here]
      exact isAdded
    · exact other
  · rintro ⟨gift, isGift, giftAdded, giftName, member⟩
    refine ⟨gift.pool, merged.taken gift isGift giftAdded id isListed ?_, member⟩
    exact eqIgnoreAsciiCase_trans giftName (eqIgnoreAsciiCase_symm isName)

/-- Regions of one name become one region and nothing is lost, however the
registrations and the changes of pools are ordered. -/
theorem regions_merge (defaultForward : Option φ) (steps later : List (RegionStep τ φ))
    (orderly : Along step Orderly (new defaultForward) (steps ++ later)) :
    let table := run step (new defaultForward) steps
    let after := run step (new defaultForward) (steps ++ later)
    (table.proxy.regions.map Region.username).Pairwise
        (fun left right => ¬ eqIgnoreAsciiCase left right) ∧
      (∀ username, table.proxy.region username = (table.lookup username).map table.region) ∧
      (∀ username other, eqIgnoreAsciiCase username other →
        table.lookup username = table.lookup other) ∧
      (∀ id ∈ table.added, ∃ kept, table.lookup (table.region id).username = some kept) ∧
      (∀ username id, table.lookup username = some id → after.lookup username = some id) ∧
      (∀ id < table.regions.size, ∀ protocol forward,
        (table.region id).forward (some protocol) = some forward →
          (after.region id).forward (some protocol) = some forward) ∧
      ∀ username id, table.lookup username = some id → ∀ key,
        key ∈ table.candidateKeys id none ↔
          ∃ gift ∈ table.gifts, gift.region ∈ table.added ∧
            eqIgnoreAsciiCase (table.region gift.region).username username ∧
            key ∈ table.pools.keys gift.pool := by
  intro table after
  have sound : table.Sound := sound_run defaultForward steps
  have merged : table.Merged := merged_run defaultForward orderly.left
  have grown : Grows table after := by
    change Grows table (run step (new defaultForward) (steps ++ later))
    rw [run_append]
    exact grows_run sound later
  refine ⟨?_, table.proxy_region, fun _ _ => table.lookup_of_eqIgnoreAsciiCase, ?_,
    fun _ _ => grown.lookup sound, grown.forward, ?_⟩
  · rw [proxy, List.map_map]
    exact List.pairwise_map.mpr sound.names
  · intro id isAdded
    obtain ⟨kept, isListed, sameName⟩ := sound.stored id isAdded
    rw [lookup, if_neg (merged.named id isAdded), existing, ← Option.isSome_iff_exists,
      List.find?_isSome]
    exact ⟨kept, isListed, eqIgnoreAsciiCase_symm sameName⟩
  · intro username id found
    exact mem_lookup_keys sound (traced_run defaultForward steps) merged found

/-- One name in two spellings, first with SSH and then with VPN. -/
def twoSpellings : List (RegionStep Nat String) :=
  [.newPool (Proxies.empty.push ⟨"ssh://US", 3, 0, .ssh⟩), .newRegion "US" "US",
    .add 0 .ssh 1 (some "ssh"), .addRegion 0, .newPool .empty, .newRegion "us" "us",
    .add 1 .vpn 3 (some "vpn"), .addRegion 1, .push 3 ⟨"openvpn://a", 1, 0, .vpn⟩]

theorem regions_merge_spellings :
    Along step Orderly (new none) (twoSpellings ++ [.remove 1 "ssh://US", .addRegion 1]) ∧
      "openvpn://a" ∈ (run step (new none) twoSpellings).candidateKeys 0 none := by
  have orderly :
      Along step Orderly (new none) (twoSpellings ++ [.remove 1 "ssh://US", .addRegion 1]) := by
    decide
  have keys := (regions_merge none twoSpellings _ orderly).2.2.2.2.2.2
  refine ⟨orderly, (keys "Us" 0 (by decide) "openvpn://a").mpr ?_⟩
  exact ⟨⟨1, .vpn, 3, some "vpn"⟩, by decide⟩

/-! ### What the protocols of a region have -/

/-- The merged view of a region is the union of its protocols' views exactly if
every pool that came under a protocol the region already had brings no key that
is in none of its protocols' pools. -/
theorem merged_keys_iff (defaultForward : Option φ) (steps : List (RegionStep τ φ))
    (id : RegionId) (known : id < (run step (new defaultForward) steps).regions.size) :
    let table := run step (new defaultForward) steps
    (∀ key, key ∈ table.candidateKeys id none ↔
        ∃ protocol, key ∈ table.candidateKeys id (some protocol)) ↔
      ∀ pool ∈ table.children id, pool ∉ (table.region id).variants.map Variant.pool →
        ∀ key ∈ table.pools.keys pool,
          ∃ first ∈ (table.region id).variants.map Variant.pool, key ∈ table.pools.keys first := by
  intro table
  have sound : table.Sound := sound_run defaultForward steps
  simp only [mem_candidateKeys_none, mem_merged_keys sound known,
    exists_mem_candidateKeys sound known]
  constructor
  · intro agree pool child _ key member
    exact (agree key).mp ⟨pool, child, member⟩
  · intro covered key
    constructor
    · rintro ⟨pool, child, member⟩
      by_cases first : pool ∈ (table.region id).variants.map Variant.pool
      · exact ⟨pool, first, member⟩
      · exact covered pool child first key member
    · rintro ⟨pool, first, member⟩
      exact ⟨pool, sound.linked id known pool first, member⟩

theorem merged_keys_spellings :
    let table := run step (new none) twoSpellings
    0 < table.regions.size ∧ ∀ key, key ∈ table.candidateKeys 0 none ↔
      ∃ protocol, key ∈ table.candidateKeys 0 (some protocol) :=
  ⟨by decide, (merged_keys_iff none twoSpellings 0 (by decide)).mpr (by decide)⟩

/-- Every pool has only proxies of the protocol it was given under. -/
def OwnProtocol (self : RegionTable τ φ) : Prop :=
  ∀ gift ∈ self.gifts, ∀ candidate ∈ self.pools.candidates gift.pool,
    candidate.protocol = gift.protocol

instance (self : RegionTable τ φ) : Decidable self.OwnProtocol :=
  inferInstanceAs (Decidable (∀ gift ∈ self.gifts, ∀ candidate ∈ _, _))

/-- A region with two pools of SSH exits. -/
def twoPools : List (RegionStep Nat String) :=
  [.newPool (Proxies.empty.push ⟨"ssh://a", 3, 0, .ssh⟩),
    .newPool (Proxies.empty.push ⟨"ssh://b", 3, 0, .ssh⟩), .newRegion "US" "US",
    .add 0 .ssh 1 none, .add 0 .ssh 2 none, .addRegion 0]

/-- The second pool is for those who name no protocol only. -/
theorem not_merged_keys_two_pools :
    ¬ ∀ (steps : List (RegionStep Nat String)) (id : RegionId),
      let table := run step (new none) steps
      Along step (fun table action => (table.step action).OwnProtocol) (new none) steps →
        id < table.regions.size →
          ∀ key, key ∈ table.candidateKeys id none ↔
            ∃ protocol, key ∈ table.candidateKeys id (some protocol) := by
  intro agree
  obtain ⟨protocol, member⟩ :=
    (agree twoPools 0 (by decide) (by decide) "ssh://b").mp (by decide)
  cases protocol with
  | ssh =>
      revert member
      decide
  | vpn =>
      revert member
      decide

end Unroxy.Proxy.RegionTable
