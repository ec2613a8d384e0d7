import Mathlib.Data.List.Pairwise
import Unroxy.Lib.Run
import Unroxy.Proxy.PoolGraph
import Unroxy.Proxy.Server

/-!
Owns regions as the process shares them: an `Arc<Region>` is a `RegionId`, and
whoever has one may add to the region before or after `add_region` has it.

`gifts` and `added` record what was given to which region and which regions were
given to the proxy; no modelled function reads them. `proxy` is what the lookups
of `Proxy.Server` see at a moment.

A region's merged pool is its own: what is handed out by `pool(None)` is read.

Does not own the requests.
-/

namespace Unroxy.Proxy

open Unroxy.Lib

variable {τ φ : Type}

/-! ### What `Region::add` does to the variants -/

namespace Region

/-- Only the forwards of the variants change. -/
private theorem setForward_map {β : Type} {project : Variant φ → β}
    (blind : ∀ variant forward, project { variant with forward } = project variant)
    (protocol : Protocol) (forward : Option φ) (variants : List (Variant φ)) :
    (setForward protocol forward variants).map project = variants.map project := by
  induction variants with
  | nil => rfl
  | cons variant rest inductionHypothesis =>
      rw [setForward]
      split
      · rw [List.map_cons, List.map_cons]
        split
        · rw [blind]
        · rfl
      · rw [List.map_cons, List.map_cons, inductionHypothesis]

theorem setForward_protocols (protocol : Protocol) (forward : Option φ)
    (variants : List (Variant φ)) :
    (setForward protocol forward variants).map Variant.protocol =
      variants.map Variant.protocol :=
  setForward_map (fun _ _ => rfl) protocol forward variants

theorem setForward_pools (protocol : Protocol) (forward : Option φ)
    (variants : List (Variant φ)) :
    (setForward protocol forward variants).map Variant.pool = variants.map Variant.pool :=
  setForward_map (fun _ _ => rfl) protocol forward variants

theorem setForward_forwards (protocol : Protocol) (forward : Option φ)
    (variants : List (Variant φ)) :
    ∀ later ∈ setForward protocol forward variants,
      later.forward = forward ∨ ∃ variant ∈ variants, later.forward = variant.forward := by
  induction variants with
  | nil => exact fun _ member => absurd member List.not_mem_nil
  | cons variant rest inductionHypothesis =>
      intro later member
      rw [setForward] at member
      split at member
      · rcases List.mem_cons.mp member with rfl | old
        · split
          · exact .inl rfl
          · exact .inr ⟨variant, List.mem_cons_self, rfl⟩
        · exact .inr ⟨later, List.mem_cons_of_mem _ old, rfl⟩
      · rcases List.mem_cons.mp member with rfl | changed
        · exact .inr ⟨later, List.mem_cons_self, rfl⟩
        · rcases inductionHypothesis later changed with set | ⟨old, oldMember, same⟩
          · exact .inl set
          · exact .inr ⟨old, List.mem_cons_of_mem _ oldMember, same⟩

/-- A forward that is set stays. -/
theorem find?_setForward {protocol wanted : Protocol} {forward : Option φ} {kept : φ}
    {variants : List (Variant φ)}
    (found : (variants.find? fun variant => variant.protocol = wanted).bind Variant.forward =
      some kept) :
    ((setForward protocol forward variants).find? fun variant =>
      variant.protocol = wanted).bind Variant.forward = some kept := by
  induction variants with
  | nil => exact found
  | cons variant rest inductionHypothesis =>
      rw [setForward]
      by_cases isWanted : variant.protocol = wanted
      · rw [List.find?_cons_of_pos (by simpa using isWanted)] at found
        have set : variant.forward.isNone = false := by
          rw [show variant.forward = some kept from found]
          rfl
        split
        · rw [set, if_neg Bool.false_ne_true, List.find?_cons_of_pos (by simpa using isWanted)]
          exact found
        · rw [List.find?_cons_of_pos (by simpa using isWanted)]
          exact found
      · rw [List.find?_cons_of_neg (by simpa using isWanted)] at found
        split
        · rw [List.find?_cons_of_neg]
          · exact found
          · split <;> simpa using isWanted
        · rw [List.find?_cons_of_neg (by simpa using isWanted)]
          exact inductionHypothesis found

/-- The protocol is known and at most its forward is set, or the variant is new. -/
theorem add_cases (region : Region φ) (pools : Pools τ) (protocol : Protocol) (pool : PoolId)
    (forward : Option φ) :
    (protocol ∈ region.protocols ∧ (region.add pools protocol pool forward).1 =
      { region with variants := setForward protocol forward region.variants }) ∨
    (protocol ∉ region.protocols ∧ (region.add pools protocol pool forward).1 =
      { region with variants := region.variants ++ [{ protocol, pool, forward }] }) := by
  unfold add protocols
  dsimp only
  split
  · next variant found =>
      have isVariant := List.mem_of_find?_eq_some found
      have isProtocol : variant.protocol = protocol := by
        simpa using List.find?_some found
      exact .inl ⟨List.mem_map.mpr ⟨variant, isVariant, isProtocol⟩, rfl⟩
  · next absent =>
      refine .inr ⟨?_, rfl⟩
      intro member
      obtain ⟨variant, isVariant, isProtocol⟩ := List.mem_map.mp member
      exact absurd isProtocol (by simpa using List.find?_eq_none.mp absent variant isVariant)

theorem add_protocols_nodup {region : Region φ} (distinct : region.protocols.Nodup)
    (pools : Pools τ) (protocol : Protocol) (pool : PoolId) (forward : Option φ) :
    (region.add pools protocol pool forward).1.protocols.Nodup := by
  rcases region.add_cases pools protocol pool forward with ⟨_, same⟩ | ⟨absent, same⟩
  · rw [same, protocols, setForward_protocols]
    exact distinct
  · rw [same, protocols, List.map_append, List.map_singleton]
    exact List.nodup_append_comm.mp (List.nodup_cons.mpr ⟨absent, distinct⟩)

/-- Pools of variants stay, and a pool under a new protocol is one. -/
theorem mem_add_pools (region : Region φ) (pools : Pools τ) (protocol : Protocol) (pool : PoolId)
    (forward : Option φ) (other : PoolId) :
    other ∈ (region.add pools protocol pool forward).1.variants.map Variant.pool ↔
      other ∈ region.variants.map Variant.pool ∨ (protocol ∉ region.protocols ∧ other = pool) := by
  rcases region.add_cases pools protocol pool forward with ⟨present, same⟩ | ⟨absent, same⟩
  · rw [same, setForward_pools]
    simp [present]
  · rw [same, List.map_append, List.map_singleton, List.mem_append, List.mem_singleton]
    simp [absent]

theorem mem_add_protocols {region : Region φ} {pools : Pools τ} {protocol wanted : Protocol}
    {pool : PoolId} {forward : Option φ} :
    wanted ∈ (region.add pools protocol pool forward).1.protocols ↔
      wanted ∈ region.protocols ∨ wanted = protocol := by
  rcases region.add_cases pools protocol pool forward with ⟨present, same⟩ | ⟨_, same⟩
  · rw [same, protocols, setForward_protocols]
    constructor
    · exact .inl
    · rintro (old | rfl)
      · exact old
      · exact present
  · rw [same, protocols, List.map_append, List.map_singleton, List.mem_append,
      List.mem_singleton]
    rfl

theorem add_forwards {region : Region φ} {pools : Pools τ} {protocol : Protocol} {pool : PoolId}
    {forward : Option φ} :
    ∀ later ∈ (region.add pools protocol pool forward).1.variants,
      later.forward = forward ∨ ∃ variant ∈ region.variants, later.forward = variant.forward := by
  rcases region.add_cases pools protocol pool forward with ⟨_, same⟩ | ⟨_, same⟩
  · rw [same]
    exact setForward_forwards protocol forward region.variants
  · rw [same]
    intro later member
    rcases List.mem_append.mp member with old | new
    · exact .inr ⟨later, old, rfl⟩
    · rw [List.mem_singleton.mp new]
      exact .inl rfl

theorem add_forward {region : Region φ} {wanted : Protocol} {kept : φ}
    (found : region.forward (some wanted) = some kept) (pools : Pools τ) (protocol : Protocol)
    (pool : PoolId) (forward : Option φ) :
    (region.add pools protocol pool forward).1.forward (some wanted) = some kept := by
  rcases region.add_cases pools protocol pool forward with ⟨_, same⟩ | ⟨_, same⟩
  · rw [same]
    exact find?_setForward found
  · rw [same, Region.forward, List.find?_append]
    cases first : region.variants.find? fun variant => variant.protocol = wanted with
    | none =>
        rw [Region.forward, first] at found
        cases found
    | some variant =>
        rw [Region.forward, first] at found
        exact found

/-- With one variant for each protocol, a variant is found by its protocol. -/
theorem find?_of_mem {region : Region φ} (distinct : region.protocols.Nodup)
    {variant : Variant φ} (member : variant ∈ region.variants) :
    (region.variants.find? fun other => other.protocol = variant.protocol) = some variant := by
  obtain ⟨before, after, split⟩ := List.append_of_mem member
  rw [protocols, split, List.map_append, List.map_cons, List.nodup_middle] at distinct
  rw [split, List.find?_append, List.find?_eq_none.mpr, Option.none_or,
    List.find?_cons_of_pos (by simp)]
  intro earlier earlierMember
  have different : earlier.protocol ≠ variant.protocol := by
    intro same
    apply (List.nodup_cons.mp distinct).1
    rw [← same]
    exact List.mem_append_left _ (List.mem_map_of_mem earlierMember)
  simpa using different

end Region

namespace Proxy

/-- Merging gives the variants one by one. -/
theorem merge_eq {region : Region φ} (distinct : region.protocols.Nodup) (existing : Region φ)
    (pools : Pools τ) :
    merge existing pools region = region.variants.foldl
      (fun state variant =>
        state.1.add state.2 variant.protocol variant.pool variant.forward) (existing, pools) := by
  rw [merge, Region.protocols, List.foldl_map]
  apply List.foldl_ext
  intro state variant member
  have found := Region.find?_of_mem distinct member
  simp only [Region.pool, Region.forward, found, Option.bind_some]

end Proxy

/-! ### Regions by reference -/

abbrev RegionId := Nat

instance : Inhabited (Region φ) := ⟨{ name := "", username := "", variants := [], merged := 0 }⟩

/-- A call of `Region::add` from outside. -/
structure Gift (φ : Type) where
  region : RegionId
  protocol : Protocol
  pool : PoolId
  forward : Option φ
deriving DecidableEq, Repr

structure RegionTable (τ φ : Type) where
  pools : Pools τ
  regions : Arena (Region φ)
  /-- `regions` of the `Proxy`. -/
  listed : List RegionId
  defaultPool : PoolId
  defaultForward : Option φ
  protocolPools : List (Protocol × PoolId)
  protocolForwards : List (Protocol × φ)
  gifts : List (Gift φ)
  added : List RegionId
deriving DecidableEq, Repr

inductive RegionStep (τ φ : Type) where
  | newPool (proxies : Proxies τ)
  | push (pool : PoolId) (proxy : PoolProxy τ)
  | remove (pool : PoolId) (key : String)
  | addChild (pool child : PoolId)
  | newRegion (name username : String)
  | add (region : RegionId) (protocol : Protocol) (pool : PoolId) (forward : Option φ)
  | addRegion (region : RegionId)
  | setProtocolRoute (protocol : Protocol) (pool : PoolId) (forward : φ)
deriving DecidableEq, Repr

namespace RegionTable

/-- A `Proxy` with an empty default pool. -/
def new (defaultForward : Option φ) : RegionTable τ φ :=
  let (defaultPool, pools) := Pools.new .empty .empty
  { pools
    regions := .empty
    listed := []
    defaultPool
    defaultForward
    protocolPools := []
    protocolForwards := []
    gifts := []
    added := [] }

def region (self : RegionTable τ φ) (id : RegionId) : Region φ := self.regions.get id

/-- What the proxy holds at this moment. -/
def proxy (self : RegionTable τ φ) : Proxy φ where
  defaultPool := self.defaultPool
  defaultForward := self.defaultForward
  protocolPools := self.protocolPools
  protocolForwards := self.protocolForwards
  regions := self.listed.map self.region

/-- The pool is some region's merged pool. -/
def isMerged (self : RegionTable τ φ) (pool : PoolId) : Bool :=
  self.regions.cells.any fun region => region.merged = pool

/-- `Region::add` on a shared region. -/
def give (self : RegionTable τ φ) (id : RegionId) (protocol : Protocol) (pool : PoolId)
    (forward : Option φ) : RegionTable τ φ :=
  let (region, pools) := (self.region id).add self.pools protocol pool forward
  { self with pools, regions := self.regions.modify id fun _ => region }

def newRegion (self : RegionTable τ φ) (name username : String) : RegionTable τ φ :=
  let (region, pools) := Region.new self.pools name username
  { self with pools, regions := (self.regions.alloc region).2 }

/-- The region under this name, ignoring case. -/
def existing (self : RegionTable τ φ) (username : String) : Option RegionId :=
  self.listed.find? fun id => eqIgnoreAsciiCase (self.region id).username username

def addRegion (self : RegionTable τ φ) (id : RegionId) : RegionTable τ φ :=
  match self.existing (self.region id).username with
  | none => { self with listed := self.listed ++ [id], added := self.added ++ [id] }
  | some existing =>
      let (region, pools) := Proxy.merge (self.region existing) self.pools (self.region id)
      { self with
        pools
        regions := self.regions.modify existing fun _ => region
        added := self.added ++ [id] }

def setProtocolRoute (self : RegionTable τ φ) (protocol : Protocol) (pool : PoolId) (forward : φ) :
    RegionTable τ φ :=
  let proxy := self.proxy.setProtocolRoute protocol pool forward
  { self with
    protocolPools := proxy.protocolPools
    protocolForwards := proxy.protocolForwards }

/-- One call. A reference that was never given out changes nothing. -/
def step (self : RegionTable τ φ) : RegionStep τ φ → RegionTable τ φ
  | .newPool proxies => { self with pools := (self.pools.new proxies).2 }
  | .push pool proxy =>
      if self.isMerged pool then self else { self with pools := self.pools.push pool proxy }
  | .remove pool key =>
      if self.isMerged pool then self else { self with pools := self.pools.remove pool key }
  | .addChild pool child =>
      if self.isMerged pool ∨ self.pools.size ≤ child then self
      else { self with pools := self.pools.addChild pool child }
  | .newRegion name username => self.newRegion name username
  | .add id protocol pool forward =>
      if id < self.regions.size ∧ pool < self.pools.size then
        { self.give id protocol pool forward with
          gifts := self.gifts ++ [{ region := id, protocol, pool, forward }] }
      else self
  | .addRegion id => if id < self.regions.size then self.addRegion id else self
  | .setProtocolRoute protocol pool forward => self.setProtocolRoute protocol pool forward

/-! ### What a gift changes -/

/-- The pools below the merged pool of a region. -/
def children (self : RegionTable τ φ) (id : RegionId) : List PoolId :=
  (self.pools.get (self.region id).merged).children

/-- Every region has a merged pool of its own, which has no proxies and is linked
to the pools of the variants. -/
structure Sound (table : RegionTable τ φ) : Prop where
  known : ∀ id < table.regions.size, (table.region id).merged < table.pools.size
  apart : ∀ id < table.regions.size, ∀ other < table.regions.size,
    (table.region id).merged = (table.region other).merged → id = other
  bare : ∀ id < table.regions.size, (table.pools.get (table.region id).merged).proxies = .empty
  linked : ∀ id < table.regions.size, ∀ pool ∈ (table.region id).variants.map Variant.pool,
    pool ∈ table.children id
  protocols : ∀ id < table.regions.size, (table.region id).protocols.Nodup
  addedKnown : ∀ id ∈ table.added, id < table.regions.size
  listedAdded : ∀ id ∈ table.listed, id ∈ table.added
  names : table.listed.Pairwise fun left right =>
    ¬ eqIgnoreAsciiCase (table.region left).username (table.region right).username
  stored : ∀ id ∈ table.added, ∃ kept ∈ table.listed,
    eqIgnoreAsciiCase (table.region id).username (table.region kept).username

theorem Sound.listedKnown {table : RegionTable τ φ} (sound : table.Sound) {id : RegionId}
    (isListed : id ∈ table.listed) : id < table.regions.size :=
  sound.addedKnown id (sound.listedAdded id isListed)

section Give

variable {self : RegionTable τ φ} {id : RegionId} (known : id < self.regions.size)
  (protocol : Protocol) (pool : PoolId) (forward : Option φ)

include known

theorem region_give_self : (self.give id protocol pool forward).region id =
    ((self.region id).add self.pools protocol pool forward).1 :=
  self.regions.get_modify_self _ known

omit known in
theorem region_give_of_ne {other : RegionId} (different : id ≠ other) :
    (self.give id protocol pool forward).region other = self.region other :=
  self.regions.get_modify_of_ne _ different

theorem username_give (other : RegionId) :
    ((self.give id protocol pool forward).region other).username =
      (self.region other).username := by
  by_cases here : id = other
  · subst here
    rw [region_give_self known]
    rfl
  · rw [region_give_of_ne protocol pool forward here]

theorem merged_give (other : RegionId) :
    ((self.give id protocol pool forward).region other).merged =
      (self.region other).merged := by
  by_cases here : id = other
  · subst here
    rw [region_give_self known]
    rfl
  · rw [region_give_of_ne protocol pool forward here]

omit known in
theorem size_give : (self.give id protocol pool forward).regions.size = self.regions.size :=
  self.regions.size_modify ..

theorem mem_children_give (sound : self.Sound) {other : RegionId}
    (otherKnown : other < self.regions.size) (below : PoolId) :
    below ∈ (self.give id protocol pool forward).children other ↔
      below ∈ self.children other ∨ (other = id ∧ below = pool) := by
  rw [children, merged_give known]
  change below ∈ ((self.pools.addChild (self.region id).merged pool).get _).children ↔ _
  rw [Pools.mem_children_addChild _ (sound.known id known)]
  apply or_congr Iff.rfl
  constructor
  · rintro ⟨same, isPool⟩
    exact ⟨sound.apart other otherKnown id known same, isPool⟩
  · rintro ⟨rfl, isPool⟩
    exact ⟨rfl, isPool⟩

theorem sound_give (sound : self.Sound) : (self.give id protocol pool forward).Sound where
  known := by
    intro other otherKnown
    rw [size_give] at otherKnown
    rw [merged_give known]
    change _ < (self.pools.addChild _ pool).size
    rw [Pools.size_addChild]
    exact sound.known other otherKnown
  apart := by
    intro first firstKnown second secondKnown same
    rw [size_give] at firstKnown secondKnown
    rw [merged_give known, merged_give known] at same
    exact sound.apart first firstKnown second secondKnown same
  bare := by
    intro other otherKnown
    rw [size_give] at otherKnown
    rw [merged_give known]
    change ((self.pools.addChild _ pool).get _).proxies = _
    rw [Pools.proxies_addChild]
    exact sound.bare other otherKnown
  linked := by
    intro other otherKnown linkedPool member
    rw [size_give] at otherKnown
    rw [mem_children_give known protocol pool forward sound otherKnown]
    by_cases here : id = other
    · subst here
      rw [region_give_self known, Region.mem_add_pools] at member
      rcases member with old | ⟨_, isPool⟩
      · exact .inl (sound.linked id otherKnown linkedPool old)
      · exact .inr ⟨rfl, isPool⟩
    · rw [region_give_of_ne protocol pool forward here] at member
      exact .inl (sound.linked other otherKnown linkedPool member)
  protocols := by
    intro other otherKnown
    rw [size_give] at otherKnown
    by_cases here : id = other
    · subst here
      rw [region_give_self known]
      exact Region.add_protocols_nodup (sound.protocols id otherKnown) _ _ _ _
    · rw [region_give_of_ne protocol pool forward here]
      exact sound.protocols other otherKnown
  addedKnown := by
    intro other member
    rw [size_give]
    exact sound.addedKnown other member
  listedAdded := sound.listedAdded
  names := by
    simp only [username_give known]
    exact sound.names
  stored := by
    simp only [username_give known]
    exact sound.stored

end Give

/-- All these variants go to one region. -/
def giveAll (self : RegionTable τ φ) (id : RegionId) (variants : List (Variant φ)) :
    RegionTable τ φ :=
  variants.foldl (fun table variant =>
    table.give id variant.protocol variant.pool variant.forward) self

private theorem giveAll_eq {id : RegionId} (variants : List (Variant φ)) :
    ∀ self : RegionTable τ φ, id < self.regions.size →
      self.giveAll id variants =
        let (region, pools) := variants.foldl (fun state variant =>
          state.1.add state.2 variant.protocol variant.pool variant.forward)
          (self.region id, self.pools)
        { self with pools, regions := self.regions.modify id fun _ => region } := by
  induction variants with
  | nil =>
      intro self known
      dsimp only [giveAll, List.foldl_nil]
      rw [region, self.regions.modify_get known]
  | cons variant rest inductionHypothesis =>
      intro self known
      have later := inductionHypothesis
        (self.give id variant.protocol variant.pool variant.forward) (by rwa [size_give])
      rw [region_give_self known] at later
      rw [giveAll, List.foldl_cons, List.foldl_cons, ← giveAll, later]
      dsimp only [give]
      rw [Arena.modify_modify]

/-- `add_region` appends the region, or gives its variants to the one of that name. -/
theorem addRegion_cases {self : RegionTable τ φ} (sound : self.Sound) {id : RegionId}
    (known : id < self.regions.size) :
    (self.existing (self.region id).username = none ∧ self.addRegion id =
      { self with listed := self.listed ++ [id], added := self.added ++ [id] }) ∨
    ∃ existing, self.existing (self.region id).username = some existing ∧
      self.addRegion id =
        giveAll { self with added := self.added ++ [id] } existing (self.region id).variants := by
  unfold addRegion
  cases found : self.existing (self.region id).username with
  | none => exact .inl ⟨rfl, rfl⟩
  | some existing =>
      have listed := List.mem_of_find?_eq_some found
      have existingKnown := sound.listedKnown listed
      refine .inr ⟨existing, rfl, ?_⟩
      have given := giveAll_eq (self.region id).variants
        { self with added := self.added ++ [id] } existingKnown
      rw [given]
      dsimp only
      rw [Proxy.merge_eq (sound.protocols id known)]
      rfl

/-- What a gift keeps holds after all of them. -/
theorem giveAll_induction {good : RegionTable τ φ → Prop} {id : RegionId}
    (variants : List (Variant φ))
    (kept : ∀ table, good table → ∀ variant ∈ variants,
      good (table.give id variant.protocol variant.pool variant.forward))
    {self : RegionTable τ φ} (start : good self) : good (self.giveAll id variants) := by
  induction variants generalizing self with
  | nil => exact start
  | cons variant rest inductionHypothesis =>
      rw [giveAll, List.foldl_cons, ← giveAll]
      apply inductionHypothesis
      · intro table held other member
        exact kept table held other (List.mem_cons_of_mem _ member)
      · exact kept self start variant List.mem_cons_self

/-! ### What a call does -/

/-- No region is touched, and no merged pool. -/
structure Untouched (before after : RegionTable τ φ) : Prop where
  regions : after.regions = before.regions
  listed : after.listed = before.listed
  added : after.added = before.added
  gifts : after.gifts = before.gifts
  grows : before.pools.size ≤ after.pools.size
  merged : ∀ id < before.regions.size,
    after.pools.get (before.region id).merged = before.pools.get (before.region id).merged

theorem Untouched.refl (self : RegionTable τ φ) : Untouched self self :=
  ⟨rfl, rfl, rfl, rfl, Nat.le_refl _, fun _ _ => rfl⟩

theorem Untouched.region {before after : RegionTable τ φ} (same : Untouched before after)
    (id : RegionId) : after.region id = before.region id := by
  rw [RegionTable.region, same.regions, RegionTable.region]

theorem Untouched.children {before after : RegionTable τ φ} (same : Untouched before after)
    {id : RegionId} (known : id < before.regions.size) :
    after.children id = before.children id := by
  rw [RegionTable.children, same.region, same.merged id known, RegionTable.children]

theorem ne_merged {self : RegionTable τ φ} {pool : PoolId} (other : ¬ self.isMerged pool)
    {id : RegionId} (known : id < self.regions.size) : pool ≠ (self.region id).merged := by
  intro same
  apply other
  have inside : id < self.regions.cells.length := known
  rw [isMerged, List.any_eq_true]
  refine ⟨self.region id, ?_, by simp [same]⟩
  rw [region, Arena.get, List.getD_eq_getElem?_getD, List.getElem?_eq_getElem inside,
    Option.getD_some]
  exact List.getElem_mem inside

/-- A pool of someone else changes. -/
theorem untouched_modify {self : RegionTable τ φ} {pool : PoolId} (other : ¬ self.isMerged pool)
    (change : PoolCell τ → PoolCell τ) :
    Untouched self { self with pools := self.pools.modify pool change } where
  regions := rfl
  listed := rfl
  added := rfl
  gifts := rfl
  grows := by rw [Arena.size_modify]
  merged := fun _ known => self.pools.get_modify_of_ne change (ne_merged other known)

/-- What a call leads to. -/
inductive Taken (self : RegionTable τ φ) : RegionStep τ φ → RegionTable τ φ → Prop where
  | untouched {action : RegionStep τ φ} {later : RegionTable τ φ} (same : Untouched self later) :
      Taken self action later
  | newRegion (name username : String) :
      Taken self (.newRegion name username) (self.newRegion name username)
  | add {id : RegionId} (known : id < self.regions.size) (protocol : Protocol) (pool : PoolId)
      (forward : Option φ) :
      Taken self (.add id protocol pool forward)
        { self.give id protocol pool forward with
          gifts := self.gifts ++ [{ region := id, protocol, pool, forward }] }
  | addRegion {id : RegionId} (known : id < self.regions.size) :
      Taken self (.addRegion id) (self.addRegion id)

theorem taken_step {self : RegionTable τ φ} (sound : self.Sound) (action : RegionStep τ φ) :
    Taken self action (self.step action) := by
  cases action with
  | newPool proxies =>
      refine .untouched ⟨rfl, rfl, rfl, rfl, ?_, ?_⟩
      · change self.pools.size ≤ Arena.size (self.pools.alloc _).2
        rw [Arena.size_alloc]
        exact Nat.le_succ _
      · intro id known
        exact self.pools.get_alloc_of_lt _ (sound.known id known)
  | push pool proxy =>
      rw [step]
      split
      · exact .untouched (.refl self)
      · next other => exact .untouched (untouched_modify other _)
  | remove pool key =>
      rw [step]
      split
      · exact .untouched (.refl self)
      · next other => exact .untouched (untouched_modify other _)
  | addChild pool child =>
      rw [step]
      split
      · exact .untouched (.refl self)
      · next other => exact .untouched (untouched_modify (not_or.mp other).1 _)
  | newRegion name username => exact .newRegion name username
  | add id protocol pool forward =>
      rw [step]
      split
      · next known => exact .add known.1 protocol pool forward
      · exact .untouched (.refl self)
  | addRegion id =>
      rw [step]
      split
      · next known => exact .addRegion known
      · exact .untouched (.refl self)
  | setProtocolRoute protocol pool forward =>
      exact .untouched ⟨rfl, rfl, rfl, rfl, Nat.le_refl _, fun _ _ => rfl⟩

/-! ### Every call keeps the table sound -/

theorem Sound.untouched {self later : RegionTable τ φ} (sound : self.Sound)
    (same : Untouched self later) : later.Sound := by
  constructor
  case known =>
    intro id known
    rw [same.regions] at known
    rw [same.region]
    exact Nat.lt_of_lt_of_le (sound.known id known) same.grows
  case apart =>
    simp only [same.regions, same.region]
    exact sound.apart
  case bare =>
    intro id known
    rw [same.regions] at known
    rw [same.region, same.merged id known]
    exact sound.bare id known
  case linked =>
    intro id known pool member
    rw [same.regions] at known
    rw [same.region] at member
    rw [same.children known]
    exact sound.linked id known pool member
  case protocols =>
    simp only [same.regions, same.region]
    exact sound.protocols
  case addedKnown =>
    simp only [same.added, same.regions]
    exact sound.addedKnown
  case listedAdded =>
    simp only [same.listed, same.added]
    exact sound.listedAdded
  case names =>
    simp only [same.listed, same.region]
    exact sound.names
  case stored =>
    simp only [same.added, same.listed, same.region]
    exact sound.stored

section NewRegion

variable (self : RegionTable τ φ) (name username : String)

theorem region_newRegion_of_lt {id : RegionId} (known : id < self.regions.size) :
    (self.newRegion name username).region id = self.region id :=
  self.regions.get_alloc_of_lt _ known

theorem region_newRegion_size : (self.newRegion name username).region self.regions.size =
    { name, username, variants := [], merged := self.pools.size } :=
  self.regions.get_alloc_size _

theorem size_newRegion :
    (self.newRegion name username).regions.size = self.regions.size + 1 :=
  self.regions.size_alloc _

theorem pools_newRegion :
    (self.newRegion name username).pools = (self.pools.new .empty).2 := rfl

end NewRegion

theorem sound_newRegion {self : RegionTable τ φ} (sound : self.Sound) (name username : String) :
    (self.newRegion name username).Sound := by
  have old {id : RegionId} (known : id < self.regions.size) :=
    self.region_newRegion_of_lt name username known
  have new := self.region_newRegion_size name username
  have oldPool {id : RegionId} (known : id < self.regions.size) :
      (self.newRegion name username).pools.get (self.region id).merged =
        self.pools.get (self.region id).merged :=
    self.pools.get_alloc_of_lt _ (sound.known id known)
  have split {id : RegionId} (known : id < (self.newRegion name username).regions.size) :
      id < self.regions.size ∨ id = self.regions.size := by
    rw [size_newRegion] at known
    exact Nat.lt_succ_iff_lt_or_eq.mp known
  have merged {id : RegionId} (known : id < self.regions.size) :
      (self.region id).merged ≠ self.pools.size := Nat.ne_of_lt (sound.known id known)
  constructor
  case known =>
    intro id known
    rw [pools_newRegion, Pools.new, Arena.size_alloc]
    rcases split known with isOld | rfl
    · rw [old isOld]
      exact Nat.lt_succ_of_lt (sound.known id isOld)
    · rw [new]
      exact Nat.lt_succ_self _
  case apart =>
    intro first firstKnown second secondKnown same
    rcases split firstKnown with firstOld | rfl
    · rcases split secondKnown with secondOld | rfl
      · rw [old firstOld, old secondOld] at same
        exact sound.apart first firstOld second secondOld same
      · rw [old firstOld, new] at same
        exact absurd same (merged firstOld)
    · rcases split secondKnown with secondOld | rfl
      · rw [old secondOld, new] at same
        exact absurd same.symm (merged secondOld)
      · rfl
  case bare =>
    intro id known
    rcases split known with isOld | rfl
    · rw [old isOld, oldPool isOld]
      exact sound.bare id isOld
    · rw [new]
      exact congrArg PoolCell.proxies (self.pools.get_alloc_size _)
  case linked =>
    intro id known pool member
    rcases split known with isOld | rfl
    · rw [children, old isOld, oldPool isOld]
      rw [old isOld] at member
      exact sound.linked id isOld pool member
    · rw [new] at member
      cases member
  case protocols =>
    intro id known
    rcases split known with isOld | rfl
    · rw [old isOld]
      exact sound.protocols id isOld
    · rw [new]
      exact List.nodup_nil
  case addedKnown =>
    intro id member
    rw [size_newRegion]
    exact Nat.lt_succ_of_lt (sound.addedKnown id member)
  case listedAdded => exact sound.listedAdded
  case names =>
    apply sound.names.imp_of_mem
    intro left right leftMember rightMember
    rw [old (sound.listedKnown leftMember),
      old (sound.listedKnown rightMember)]
    exact fun different => different
  case stored =>
    intro id isAdded
    obtain ⟨kept, isListed, sameName⟩ := sound.stored id isAdded
    refine ⟨kept, isListed, ?_⟩
    rw [old (sound.addedKnown id isAdded),
      old (sound.listedKnown isListed)]
    exact sameName

theorem existing_username {self : RegionTable τ φ} {username : String} {id : RegionId}
    (found : self.existing username = some id) :
    eqIgnoreAsciiCase (self.region id).username username := by
  have isName := List.find?_some found
  exact isName

/-- The proxy was given a region of a name it has. -/
theorem Sound.record {self : RegionTable τ φ} (sound : self.Sound) {id existing : RegionId}
    (known : id < self.regions.size)
    (found : self.existing (self.region id).username = some existing) :
    Sound { self with added := self.added ++ [id] } :=
  { sound with
    addedKnown := by
      intro other member
      rcases List.mem_append.mp member with old | new
      · exact sound.addedKnown other old
      · rw [List.mem_singleton.mp new]
        exact known
    listedAdded := fun other member => List.mem_append_left _ (sound.listedAdded other member)
    stored := by
      intro other member
      rcases List.mem_append.mp member with old | new
      · exact sound.stored other old
      · rw [List.mem_singleton.mp new]
        exact ⟨existing, List.mem_of_find?_eq_some found,
          eqIgnoreAsciiCase_symm (existing_username found)⟩ }

/-- The proxy was given a region of a name it does not have. -/
theorem Sound.store {self : RegionTable τ φ} (sound : self.Sound) {id : RegionId}
    (known : id < self.regions.size)
    (unknown : self.existing (self.region id).username = none) :
    Sound { self with listed := self.listed ++ [id], added := self.added ++ [id] } :=
  { sound with
    addedKnown := by
      intro other member
      rcases List.mem_append.mp member with old | new
      · exact sound.addedKnown other old
      · rw [List.mem_singleton.mp new]
        exact known
    listedAdded := by
      intro other member
      rcases List.mem_append.mp member with old | new
      · exact List.mem_append_left _ (sound.listedAdded other old)
      · exact List.mem_append_right _ new
    names := by
      refine List.pairwise_append.mpr ⟨sound.names, List.pairwise_singleton _ _, ?_⟩
      intro left leftMember right rightMember
      rw [List.mem_singleton.mp rightMember]
      exact List.find?_eq_none.mp unknown left leftMember
    stored := by
      intro other member
      rcases List.mem_append.mp member with old | new
      · obtain ⟨kept, isListed, sameName⟩ := sound.stored other old
        exact ⟨kept, List.mem_append_left _ isListed, sameName⟩
      · exact ⟨other, List.mem_append_right _ new, eqIgnoreAsciiCase_refl _⟩ }

theorem Sound.existingKnown {self : RegionTable τ φ} (sound : self.Sound) {username : String}
    {id : RegionId} (found : self.existing username = some id) : id < self.regions.size :=
  sound.listedKnown (List.mem_of_find?_eq_some found)

theorem sound_giveAll {self : RegionTable τ φ} (sound : self.Sound) {id : RegionId}
    (known : id < self.regions.size) (variants : List (Variant φ)) :
    (self.giveAll id variants).Sound := by
  have kept (table : RegionTable τ φ) (held : table.Sound ∧ id < table.regions.size)
      (variant : Variant φ) (_ : variant ∈ variants) :
      (table.give id variant.protocol variant.pool variant.forward).Sound ∧
        id < (table.give id variant.protocol variant.pool variant.forward).regions.size :=
    ⟨sound_give held.2 _ _ _ held.1, by rw [size_give]; exact held.2⟩
  exact (giveAll_induction variants kept ⟨sound, known⟩).1

theorem sound_addRegion {self : RegionTable τ φ} (sound : self.Sound) {id : RegionId}
    (known : id < self.regions.size) : (self.addRegion id).Sound := by
  rcases addRegion_cases sound known with ⟨unknown, added⟩ | ⟨existing, found, added⟩
  · rw [added]
    exact sound.store known unknown
  · rw [added]
    exact sound_giveAll (sound.record known found) (sound.existingKnown found) _

theorem sound_step {self : RegionTable τ φ} (sound : self.Sound) (action : RegionStep τ φ) :
    (self.step action).Sound := by
  have taken := taken_step sound action
  generalize self.step action = later at taken ⊢
  cases taken with
  | untouched same => exact sound.untouched same
  | newRegion name username => exact sound_newRegion sound name username
  | add known protocol pool forward =>
      exact { sound_give known protocol pool forward sound with }
  | addRegion known => exact sound_addRegion sound known

theorem sound_new (defaultForward : Option φ) :
    (new defaultForward : RegionTable τ φ).Sound where
  known := fun _ known => absurd known (Nat.not_lt_zero _)
  apart := fun _ known => absurd known (Nat.not_lt_zero _)
  bare := fun _ known => absurd known (Nat.not_lt_zero _)
  linked := fun _ known => absurd known (Nat.not_lt_zero _)
  protocols := fun _ known => absurd known (Nat.not_lt_zero _)
  addedKnown := fun _ member => absurd member List.not_mem_nil
  listedAdded := fun _ member => absurd member List.not_mem_nil
  names := List.Pairwise.nil
  stored := fun _ member => absurd member List.not_mem_nil

theorem sound_run (defaultForward : Option φ) (steps : List (RegionStep τ φ)) :
    (run step (new defaultForward) steps).Sound := by
  apply run_always
  · exact fun _ action sound => sound_step sound action
  · exact sound_new defaultForward

/-- No two stored regions have one name. -/
theorem Sound.listed_unique {self : RegionTable τ φ} (sound : self.Sound) {left right : RegionId}
    (leftListed : left ∈ self.listed) (rightListed : right ∈ self.listed)
    (same : eqIgnoreAsciiCase (self.region left).username (self.region right).username) :
    left = right := by
  by_contra different
  have symmetric : Std.Symm fun first second : RegionId =>
      ¬ eqIgnoreAsciiCase (self.region first).username (self.region second).username :=
    ⟨fun _ _ apart reversed => apart (eqIgnoreAsciiCase_symm reversed)⟩
  exact sound.names.forall leftListed rightListed different same

/-- The keys of a region are those of the pools below its merged pool. -/
theorem mem_merged_keys {self : RegionTable τ φ} (sound : self.Sound) {id : RegionId}
    (known : id < self.regions.size) (key : String) :
    key ∈ self.pools.keys (self.region id).merged ↔
      ∃ pool ∈ self.children id, key ∈ self.pools.keys pool := by
  have empty : self.pools.ownKeys (self.region id).merged = [] := by
    rw [Pools.ownKeys, sound.bare id known]
    rfl
  rw [Pools.mem_keys, empty]
  exact or_iff_right List.not_mem_nil

/-! ### Which region a name leads to -/

/-- `Proxy::region`, with the reference it returns. -/
def lookup (self : RegionTable τ φ) (username : String) : Option RegionId :=
  if username.isEmpty then none else self.existing username

theorem proxy_region (self : RegionTable τ φ) (username : String) :
    self.proxy.region username = (self.lookup username).map self.region := by
  rw [Proxy.region, lookup]
  split
  · rfl
  · rw [proxy, List.find?_map]
    rfl

theorem isEmpty_of_eqIgnoreAsciiCase {left right : String} (same : eqIgnoreAsciiCase left right) :
    left.isEmpty = right.isEmpty := by
  have lengths := congrArg List.length (of_decide_eq_true same)
  rw [asciiLower, asciiLower, List.length_map, List.length_map, String.length_toList,
    String.length_toList] at lengths
  rw [Bool.eq_iff_iff, String.isEmpty_iff, String.isEmpty_iff, ← String.length_eq_zero_iff,
    ← String.length_eq_zero_iff, lengths]

theorem lookup_of_eqIgnoreAsciiCase (self : RegionTable τ φ) {left right : String}
    (same : eqIgnoreAsciiCase left right) : self.lookup left = self.lookup right := by
  have lower : asciiLower left = asciiLower right := of_decide_eq_true same
  simp only [lookup, existing, eqIgnoreAsciiCase, isEmpty_of_eqIgnoreAsciiCase same, lower]

theorem existing_of_lookup {self : RegionTable τ φ} {username : String} {id : RegionId}
    (found : self.lookup username = some id) : self.existing username = some id := by
  rw [lookup] at found
  split at found
  · cases found
  · exact found

/-! ### The proxy at a moment -/

/-- `add_region` on regions that are read from references. -/
private theorem addTo_map (pools : Pools τ) (entry : Region φ) (read : RegionId → Region φ)
    (ids : List RegionId) (distinct : ids.Nodup) :
    Proxy.addTo pools entry (ids.map read) =
      match ids.find? fun id => eqIgnoreAsciiCase (read id).username entry.username with
      | none => (ids.map read ++ [entry], pools)
      | some existing =>
          (ids.map fun id =>
            if id = existing then (Proxy.merge (read existing) pools entry).1 else read id,
            (Proxy.merge (read existing) pools entry).2) := by
  induction ids with
  | nil => rfl
  | cons first rest inductionHypothesis =>
      obtain ⟨apart, restDistinct⟩ := List.nodup_cons.mp distinct
      rw [List.map_cons, Proxy.addTo]
      by_cases same : eqIgnoreAsciiCase (read first).username entry.username
      · have others : (rest.map fun id =>
            if id = first then (Proxy.merge (read first) pools entry).1 else read id) =
            rest.map read := by
          apply List.map_congr_left
          intro id member
          rw [if_neg]
          rintro rfl
          exact apart member
        rw [if_pos same, List.find?_cons_of_pos (by exact same)]
        simp [others]
      · rw [if_neg same, List.find?_cons_of_neg (by exact same), inductionHypothesis restDistinct]
        cases found : rest.find? fun id =>
            eqIgnoreAsciiCase (read id).username entry.username with
        | none => rfl
        | some existing =>
            have different : first ≠ existing := by
              rintro rfl
              exact apart (List.mem_of_find?_eq_some found)
            simp [different]

/-- What the proxy has after `add_region` on references is what it has after
`add_region` on what they refer to. -/
theorem proxy_addRegion {self : RegionTable τ φ} (sound : self.Sound) (id : RegionId) :
    self.proxy.addRegion self.pools (self.region id) =
      ((self.addRegion id).proxy, (self.addRegion id).pools) := by
  have distinct : self.listed.Nodup := by
    apply sound.names.imp
    rintro left right different rfl
    exact different (eqIgnoreAsciiCase_refl _)
  have added := addTo_map self.pools (self.region id) self.region self.listed distinct
  have regions : self.proxy.regions = self.listed.map self.region := rfl
  unfold Proxy.addRegion addRegion
  cases found : self.existing (self.region id).username with
  | none =>
      rw [existing] at found
      rw [found] at added
      rw [regions, added]
      simp [proxy, region]
  | some kept =>
      have known : kept < self.regions.size := sound.existingKnown found
      have read (other : RegionId) :
          (self.regions.modify kept fun _ =>
            (Proxy.merge (self.region kept) self.pools (self.region id)).1).get other =
          if other = kept then (Proxy.merge (self.region kept) self.pools (self.region id)).1
          else self.region other := by
        split
        · next same => rw [same, self.regions.get_modify_self _ known]
        · next different => exact self.regions.get_modify_of_ne _ (Ne.symm different)
      rw [existing] at found
      rw [found] at added
      rw [regions, added]
      dsimp only [proxy]
      rw [List.map_congr_left fun other _ => (read other).symm]
      rfl

/-! ### What all gifts of a merge change -/

section GiveAll

variable {self : RegionTable τ φ} {id : RegionId}

theorem username_giveAll (known : id < self.regions.size) (variants : List (Variant φ))
    (other : RegionId) :
    ((self.giveAll id variants).region other).username = (self.region other).username := by
  have kept (table : RegionTable τ φ)
      (held : id < table.regions.size ∧
        (table.region other).username = (self.region other).username)
      (variant : Variant φ) (_ : variant ∈ variants) :
      id < (table.give id variant.protocol variant.pool variant.forward).regions.size ∧
        ((table.give id variant.protocol variant.pool variant.forward).region other).username =
          (self.region other).username :=
    ⟨by rw [size_give]; exact held.1, by rw [username_give held.1]; exact held.2⟩
  exact (giveAll_induction variants kept ⟨known, rfl⟩).2

theorem region_giveAll_of_ne (variants : List (Variant φ)) {other : RegionId}
    (different : id ≠ other) : (self.giveAll id variants).region other = self.region other := by
  have kept (table : RegionTable τ φ) (held : table.region other = self.region other)
      (variant : Variant φ) (_ : variant ∈ variants) :
      (table.give id variant.protocol variant.pool variant.forward).region other =
        self.region other := by
    rw [region_give_of_ne _ _ _ different, held]
  exact giveAll_induction variants kept rfl

/-- The lists of the table are not touched. -/
theorem lists_giveAll (variants : List (Variant φ)) :
    (self.giveAll id variants).listed = self.listed ∧
      (self.giveAll id variants).added = self.added ∧
      (self.giveAll id variants).gifts = self.gifts := by
  have kept (table : RegionTable τ φ)
      (held : table.listed = self.listed ∧ table.added = self.added ∧ table.gifts = self.gifts)
      (variant : Variant φ) (_ : variant ∈ variants) :
      (table.give id variant.protocol variant.pool variant.forward).listed = self.listed ∧
        (table.give id variant.protocol variant.pool variant.forward).added = self.added ∧
        (table.give id variant.protocol variant.pool variant.forward).gifts = self.gifts := held
  exact giveAll_induction variants kept ⟨rfl, rfl, rfl⟩

theorem mem_children_giveAll (known : id < self.regions.size) (sound : self.Sound)
    {other : RegionId} (otherKnown : other < self.regions.size) (below : PoolId)
    (variants : List (Variant φ)) :
    below ∈ (self.giveAll id variants).children other ↔
      below ∈ self.children other ∨ (other = id ∧ below ∈ variants.map Variant.pool) := by
  induction variants generalizing self with
  | nil => simp [giveAll]
  | cons variant rest inductionHypothesis =>
      have given := sound_give known variant.protocol variant.pool variant.forward sound
      rw [giveAll, List.foldl_cons, ← giveAll,
        inductionHypothesis (by rwa [size_give]) given (by rwa [size_give]),
        mem_children_give known variant.protocol variant.pool variant.forward sound otherKnown,
        List.map_cons, List.mem_cons]
      tauto

/-- The pools of variants stay. -/
theorem pools_subset_giveAll (known : id < self.regions.size) (variants : List (Variant φ))
    (other : RegionId) :
    (self.region other).variants.map Variant.pool ⊆
      ((self.giveAll id variants).region other).variants.map Variant.pool := by
  have kept (table : RegionTable τ φ)
      (held : id < table.regions.size ∧ (self.region other).variants.map Variant.pool ⊆
        (table.region other).variants.map Variant.pool)
      (variant : Variant φ) (_ : variant ∈ variants) :
      id < (table.give id variant.protocol variant.pool variant.forward).regions.size ∧
        (self.region other).variants.map Variant.pool ⊆
          ((table.give id variant.protocol variant.pool variant.forward).region
            other).variants.map Variant.pool := by
    refine ⟨by rw [size_give]; exact held.1, ?_⟩
    by_cases here : id = other
    · subst here
      rw [region_give_self held.1]
      intro pool member
      exact (Region.mem_add_pools ..).mpr (.inl (held.2 member))
    · rw [region_give_of_ne _ _ _ here]
      exact held.2
  exact (giveAll_induction variants kept ⟨known, fun _ member => member⟩).2

end GiveAll

end RegionTable

end Unroxy.Proxy
