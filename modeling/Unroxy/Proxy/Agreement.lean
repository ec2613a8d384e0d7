import Unroxy.Proxy.Registry

/-!
Owns which exits a request may leave by, for plain HTTP and for `CONNECT`.

Plain HTTP goes through a forward, which is bound to one pool of a region: the
first over SSH, or the first. `CONNECT` takes the merged pool, which has all of
them.
-/

namespace Unroxy.Proxy

open Unroxy.Lib

variable {τ : Type}

/-! ### The preferred registration -/

/-- Nothing before the preferred one has its protocol. -/
theorem preferred_split {registered : List Registration} {chosen : Registration}
    (found : preferred registered = some chosen) :
    ∃ before after, registered = before ++ chosen :: after ∧
      ∀ earlier ∈ before, earlier.protocol ≠ chosen.protocol := by
  rw [preferred, Option.or_eq_some_iff] at found
  rcases found with first | ⟨_, head⟩
  · rw [List.find?_eq_some_iff_append] at first
    rcases first with ⟨ssh, before, after, split, others⟩
    refine ⟨before, after, split, fun earlier member => ?_⟩
    have other := others earlier member
    rw [of_decide_eq_true ssh]
    simpa using other
  · cases registered with
    | nil => cases head
    | cons first rest =>
        cases head
        exact ⟨[], rest, rfl, fun _ member => absurd member List.not_mem_nil⟩

theorem mem_of_preferred {registered : List Registration} {chosen : Registration}
    (found : preferred registered = some chosen) : chosen ∈ registered := by
  rcases preferred_split found with ⟨before, after, rfl, -⟩
  exact List.mem_append_right _ List.mem_cons_self

theorem preferred_of_ne_nil {registered : List Registration} (present : registered ≠ []) :
    ∃ chosen, preferred registered = some chosen := by
  rw [← Option.isSome_iff_exists, preferred, Option.isSome_or, Bool.or_eq_true]
  right
  rw [List.isSome_head?]
  simpa using present

/-- Keys over two protocols differ. -/
theorem scheme_append_ne {left right : Protocol} (different : left ≠ right) (name other : String) :
    left.scheme ++ name ≠ right.scheme ++ other := by
  intro same
  have texts := congrArg String.toList same
  cases left with
  | ssh =>
      cases right with
      | ssh => exact different rfl
      | vpn => simp [Protocol.scheme] at texts
  | vpn =>
      cases right with
      | ssh => simp [Protocol.scheme] at texts
      | vpn => exact different rfl

/-- Every proxy of the preferred pool is below the merged one. -/
private theorem preferred_subset {pools : Pools τ} {registered : List Registration}
    (holds : ∀ registration ∈ registered, Holds pools registration) {chosen : Registration}
    (found : preferred registered = some chosen) :
    (pools.get chosen.pool).proxies.list ⊆
      ProxyPool.collectAll [] ((registered.map Registration.pool).map pools.leaf) := by
  intro proxy member
  rcases preferred_split found with ⟨before, after, split, others⟩
  rw [split, List.map_append, List.map_append, List.map_cons, List.map_cons]
  apply ProxyPool.mem_collectAll_of_first
  · rw [Pools.leaf_all]
    exact member
  · exact List.not_mem_nil
  · intro earlier earlierMember
    obtain ⟨registration, inBefore, rfl⟩ : ∃ registration ∈ before,
        pools.leaf registration.pool = earlier := by
      simpa using earlierMember
    rw [Pools.leaf_all, List.mem_map]
    intro ⟨other, otherMember, same⟩
    have inside : registration ∈ registered := by
      rw [split]
      exact List.mem_append_left _ inBefore
    have chosenInside : chosen ∈ registered := by
      rw [split]
      exact List.mem_append_right _ List.mem_cons_self
    rcases (holds registration inside).scheme other otherMember with ⟨name, key⟩
    rcases (holds chosen chosenInside).scheme proxy member with ⟨name', key'⟩
    exact scheme_append_ne (others registration inBefore) name name'
      (key ▸ key' ▸ same)

/-- Every proxy of these pools has its key in the preferred one. -/
def Covered (pools : Pools τ) (registered : List Registration) : Prop :=
  ∀ chosen ∈ preferred registered, ∀ other ∈ registered,
    ∀ proxy ∈ (pools.get other.pool).proxies.list,
      proxy.key ∈ (pools.get chosen.pool).proxies.list.map PoolProxy.key

instance (pools : Pools τ) (registered : List Registration) :
    Decidable (Covered pools registered) :=
  inferInstanceAs (Decidable (∀ chosen ∈ preferred registered, ∀ other ∈ registered,
    ∀ proxy ∈ (pools.get other.pool).proxies.list,
      proxy.key ∈ (pools.get chosen.pool).proxies.list.map PoolProxy.key))

/-- The preferred pool against all of them. -/
private theorem collectAll_subset_iff {pools : Pools τ} {registered : List Registration}
    (holds : ∀ registration ∈ registered, Holds pools registration) {chosen : Registration}
    (found : preferred registered = some chosen) :
    ProxyPool.collectAll [] ((registered.map Registration.pool).map pools.leaf) ⊆
        (pools.get chosen.pool).proxies.list ↔
      Covered pools registered := by
  have distinct := @ProxyPool.collectAll_distinct τ [] List.nodup_nil
    ((registered.map Registration.pool).map pools.leaf)
  have keys := ProxyPool.mem_keys_collectAll ((registered.map Registration.pool).map pools.leaf)
  constructor
  · intro subset chosen' found' other member proxy present
    cases found'.symm.trans found
    have inside : proxy.key ∈ (ProxyPool.collectAll []
        ((registered.map Registration.pool).map pools.leaf)).map PoolProxy.key := by
      rw [keys]
      refine .inr ⟨pools.leaf other.pool, List.mem_map_of_mem (List.mem_map_of_mem member), ?_⟩
      rw [Pools.leaf_all]
      exact List.mem_map_of_mem present
    exact (List.map_subset _ subset) inside
  · intro covered proxy member
    -- The proxy of the preferred pool with this key is below the merged one too.
    have inside : proxy.key ∈ (ProxyPool.collectAll []
        ((registered.map Registration.pool).map pools.leaf)).map PoolProxy.key :=
      List.mem_map_of_mem member
    rw [keys] at inside
    rcases inside with none | ⟨child, childMember, inChild⟩
    · cases none
    · obtain ⟨other, otherMember, rfl⟩ : ∃ other ∈ registered, pools.leaf other.pool = child := by
        simpa using childMember
      rw [Pools.leaf_all, List.mem_map] at inChild
      rcases inChild with ⟨twin, twinMember, same⟩
      have represented := covered chosen found other otherMember twin twinMember
      rw [List.mem_map] at represented
      rcases represented with ⟨original, originalMember, equal⟩
      have first := preferred_subset holds found originalMember
      rw [← List.inj_on_of_nodup_map distinct first member (equal.trans same)]
      exact originalMember

/-! ### What the two choose from -/

theorem named_congr {name other : String} (same : eqIgnoreAsciiCase name other)
    (registered : List Registration) : named name registered = named other registered := by
  rw [eqIgnoreAsciiCase_iff] at same
  apply List.filter_congr
  intro registration _
  rw [eqIgnoreAsciiCase, eqIgnoreAsciiCase, same]

/-- The registrations a request with this username is for; without one it is for
no region. -/
def registeredFor (username : String) (registered : List Registration) : List Registration :=
  if username.isEmpty then [] else named username registered

namespace Provider

variable {provider : Provider τ RotatingTransport}

/-- Without a region both take the primaries. -/
private theorem Consistent.region_none (consistent : provider.Consistent) {username : String}
    (unknown : provider.handler.region username = none) :
    registeredFor username provider.registered = [] ∧
      provider.handler.forwardFor username none = some ⟨provider.primaries, none⟩ ∧
      provider.handler.poolFor provider.pools username none =
        (provider.primaries, provider.pools) := by
  refine ⟨?_, ?_, ?_⟩
  · rw [registeredFor]
    split
    case isTrue => rfl
    case isFalse present =>
      rw [Proxy.region, if_neg present, List.find?_eq_none] at unknown
      rw [named, List.filter_eq_nil_iff]
      intro registration member same
      rcases consistent.complete registration member with ⟨region, inside, equal⟩
      rw [eqIgnoreAsciiCase_iff] at same equal
      exact unknown region inside (eqIgnoreAsciiCase_iff.mpr (equal.trans same.symm))
  · rw [Proxy.forwardFor, unknown]
    exact consistent.defaultForward
  · rw [Proxy.poolFor, unknown]
    exact congrArg (·, provider.pools) consistent.defaultPool

/-- Below a merged pool are the pools registered under its name. -/
private theorem Consistent.view_merged (consistent : provider.Consistent)
    {region : Region RotatingTransport} (member : region ∈ provider.handler.regions) :
    provider.pools.view region.merged = .node .empty 0
      (((named region.username provider.registered).map Registration.pool).map
        provider.pools.leaf) := by
  have cell := (consistent.grouped region member).merged
  rw [Pools.view_of_leaves _ (consistent.mergedKnown member), cell]
  intro child inside
  rw [cell] at inside
  rcases List.mem_map.mp inside with ⟨registration, registered, rfl⟩
  exact (consistent.holds registration (List.mem_of_mem_filter registered)).childless

/-- With a region the one takes the preferred pool and the other all of them. -/
private theorem Consistent.region_some (consistent : provider.Consistent) {username : String}
    {region : Region RotatingTransport}
    (found : provider.handler.region username = some region) :
    region ∈ provider.handler.regions ∧
      named region.username provider.registered = registeredFor username provider.registered ∧
      provider.handler.poolFor provider.pools username none = (region.merged, provider.pools) ∧
      ∃ chosen, preferred (registeredFor username provider.registered) = some chosen ∧
        provider.handler.forwardFor username none = some ⟨chosen.pool, none⟩ := by
  have lookup := found
  rw [Proxy.region] at lookup
  split at lookup
  · cases lookup
  · next present =>
      have member := List.mem_of_find?_eq_some lookup
      have same := List.find?_some lookup
      have grouped := consistent.grouped region member
      have own : named region.username provider.registered =
          registeredFor username provider.registered := by
        rw [registeredFor, if_neg present]
        exact named_congr same _
      obtain ⟨chosen, first⟩ := preferred_of_ne_nil (own ▸ grouped.present)
      refine ⟨member, own, ?_, chosen, first, ?_⟩
      · rw [Proxy.poolFor, found]
        rfl
      · rw [Proxy.forwardFor, found, Option.bind_some, grouped.forward, own, first]
        rfl

end Provider

/-- The exits of a plain request are among those of a `CONNECT` with the same
username, and they are the same exactly if every proxy registered for it has its
key in the preferred pool. -/
theorem forwardFor_candidates (calls : List (Call τ)) (username : String) :
    let provider := Provider.run wreqFactory calls
    let (pool, pools) := provider.handler.poolFor provider.pools username none
    ∃ forward, provider.handler.forwardFor username none = some forward ∧
      forward.candidates provider.pools ⊆ pools.candidates pool ∧
      ((∀ candidate, candidate ∈ forward.candidates provider.pools ↔
          candidate ∈ pools.candidates pool) ↔
        Covered provider.pools (registeredFor username provider.registered)) := by
  intro provider
  have consistent : provider.Consistent := Provider.consistent_run calls
  cases found : provider.handler.region username with
  | none =>
      rcases consistent.region_none found with ⟨nothing, forward, pool⟩
      rw [pool, nothing]
      refine ⟨⟨provider.primaries, none⟩, forward, List.Subset.refl _, ?_⟩
      constructor
      · intro _ chosen impossible
        cases impossible
      · intro _ candidate
        exact Iff.rfl
  | some region =>
      rcases consistent.region_some found with ⟨member, own, pool, chosen, first, forward⟩
      have holds : ∀ registration ∈ registeredFor username provider.registered,
          Holds provider.pools registration := by
        intro registration inside
        rw [← own] at inside
        exact consistent.holds registration (List.mem_of_mem_filter inside)
      have plain (candidate : Candidate τ) :
          candidate ∈ RotatingTransport.candidates ⟨chosen.pool, none⟩ provider.pools ↔
            candidate ∈ (provider.pools.get chosen.pool).proxies.list := by
        change candidate ∈ provider.pools.candidates chosen.pool ↔ _
        rw [Pools.mem_candidates,
          Pools.view_of_leaf _ (holds chosen (mem_of_preferred first)).childless, Pools.leaf_all]
      have tunnel (candidate : Candidate τ) :
          candidate ∈ provider.pools.candidates region.merged ↔
            candidate ∈ ProxyPool.collectAll []
              (((registeredFor username provider.registered).map Registration.pool).map
                provider.pools.leaf) := by
        rw [Pools.mem_candidates, consistent.view_merged member, own, ProxyPool.all]
        rfl
      rw [pool]
      refine ⟨⟨chosen.pool, none⟩, forward, ?_, ?_⟩
      · intro candidate inside
        rw [tunnel]
        exact preferred_subset holds first ((plain candidate).mp inside)
      · rw [← collectAll_subset_iff holds first]
        constructor
        · intro agree candidate inside
          exact (plain candidate).mp ((agree candidate).mpr ((tunnel candidate).mpr inside))
        · intro subset candidate
          rw [plain, tunnel]
          exact ⟨fun inside => preferred_subset holds first inside, fun inside => subset inside⟩

-- A VPN exit that is not there does not count.
example :
    let provider : Provider Nat RotatingTransport := Provider.run wreqFactory
      [.attach [(⟨"vpn-us", "US", 1⟩, false)], .add "US" 2]
    Covered provider.pools (registeredFor "us" provider.registered) := by decide

/-- A region over both protocols: the VPN exit is for `CONNECT` only. -/
theorem not_forwardFor_candidates_both :
    ¬ ∀ (calls : List (Call Nat)) (username : String),
      let provider := Provider.run wreqFactory calls
      let (pool, pools) := provider.handler.poolFor provider.pools username none
      ∃ forward, provider.handler.forwardFor username none = some forward ∧
        ∀ candidate, candidate ∈ forward.candidates provider.pools ↔
          candidate ∈ pools.candidates pool := by
  intro agree
  rcases agree [.attach [(⟨"vpn-us", "US", 1⟩, true)], .add "US" 2] "us" with
    ⟨forward, found, same⟩
  have ssh : (Provider.run wreqFactory [.attach [((⟨"vpn-us", "US", 1⟩ : VpnAccount Nat), true)],
      .add "US" 2]).handler.forwardFor "us" none = some ⟨3, none⟩ := by decide
  cases found.symm.trans ssh
  have absent := (same ⟨"openvpn://vpn-us", 1, 0, .vpn⟩).mpr (by decide)
  revert absent
  decide

end Unroxy.Proxy
