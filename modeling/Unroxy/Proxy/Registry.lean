import Unroxy.Proxy.Provider

/-!
Owns what the regions of a proxy are: the registrations, grouped by name.

`Consistent` says that a region has, of the registrations under its name, the
first of each protocol as its variants and all of them below its merged pool.
Every call keeps it, and what `forward_for` and `pool_for` choose from is read
off it.
-/

namespace Unroxy.Proxy

open Unroxy.Lib

variable {τ : Type}

/-! ### Registrations -/

/-- The registrations under this name, whatever its case. -/
def named (name : String) (registered : List Registration) : List Registration :=
  registered.filter fun registration => eqIgnoreAsciiCase name registration.region

/-- A registration whose protocol is not there yet comes last. -/
def keepFirst (known : List Registration) (registration : Registration) : List Registration :=
  if known.any fun earlier => earlier.protocol = registration.protocol then known
  else known ++ [registration]

/-- The first registration of each protocol. -/
def firsts (registered : List Registration) : List Registration := registered.foldl keepFirst []

/-- The first over SSH, or the first. -/
def preferred (registered : List Registration) : Option Registration :=
  (registered.find? fun registration => registration.protocol = .ssh).or registered.head?

theorem firsts_append (registered : List Registration) (last : Registration) :
    firsts (registered ++ [last]) = keepFirst (firsts registered) last := by
  rw [firsts, List.foldl_append]
  rfl

/-- The first of a protocol is kept. -/
theorem find?_firsts (protocol : Protocol) (registered : List Registration) :
    ((firsts registered).find? fun registration => registration.protocol = protocol) =
      registered.find? fun registration => registration.protocol = protocol := by
  induction registered using List.reverseRecOn with
  | nil => rfl
  | append_singleton registered last inductionHypothesis =>
      rw [firsts_append, keepFirst, List.find?_append, ← inductionHypothesis]
      split
      case isFalse unknown => rw [List.find?_append]
      case isTrue known =>
        by_cases same : last.protocol = protocol
        · rw [List.any_eq_true] at known
          rcases known with ⟨earlier, member, equal⟩
          cases found : (firsts registered).find? fun registration =>
              registration.protocol = protocol with
          | some first => rfl
          | none =>
              rw [List.find?_eq_none] at found
              exact absurd (decide_eq_true ((of_decide_eq_true equal).trans same))
                (found earlier member)
        · rw [List.find?_singleton, if_neg (by simpa using same), Option.or_none]

theorem head?_firsts (registered : List Registration) :
    (firsts registered).head? = registered.head? := by
  induction registered using List.reverseRecOn with
  | nil => rfl
  | append_singleton registered last inductionHypothesis =>
      rw [firsts_append, keepFirst, List.head?_append, ← inductionHypothesis]
      split
      case isFalse unknown => rw [List.head?_append]
      case isTrue known =>
        cases empty : firsts registered with
        | nil =>
            rw [empty] at known
            cases known
        | cons first rest => rfl

/-! ### What the pools of a registration are -/

/-- How the keys over a protocol start. -/
def Protocol.scheme : Protocol → String
  | .ssh => "ssh://"
  | .vpn => "openvpn://"

/-- The pool of a registration has proxies of its protocol and no children. -/
structure Holds (pools : Pools τ) (registration : Registration) : Prop where
  childless : (pools.get registration.pool).children = []
  protocol : ∀ proxy ∈ (pools.get registration.pool).proxies.list,
    proxy.protocol = registration.protocol
  scheme : ∀ proxy ∈ (pools.get registration.pool).proxies.list,
    ∃ name, proxy.key = registration.protocol.scheme ++ name

theorem Holds.congr {pools others : Pools τ} {registration : Registration}
    (holds : Holds pools registration)
    (same : others.get registration.pool = pools.get registration.pool) :
    Holds others registration := by
  refine ⟨?_, ?_, ?_⟩
  · rw [same]
    exact holds.childless
  · rw [same]
    exact holds.protocol
  · rw [same]
    exact holds.scheme

/-- Only the proxies of the pool change. -/
theorem Holds.modify {pools : Pools τ} {registration : Registration}
    (holds : Holds pools registration) (known : registration.pool < pools.size)
    (change : Proxies τ → Proxies τ)
    (protocol : ∀ proxy ∈ (change (pools.get registration.pool).proxies).list,
      proxy.protocol = registration.protocol)
    (scheme : ∀ proxy ∈ (change (pools.get registration.pool).proxies).list,
      ∃ name, proxy.key = registration.protocol.scheme ++ name) :
    Holds (pools.modify registration.pool fun cell =>
      { cell with proxies := change cell.proxies }) registration := by
  have changed := pools.get_modify_self
    (fun cell => { cell with proxies := change cell.proxies }) known
  refine ⟨?_, ?_, ?_⟩
  · rw [changed]
    exact holds.childless
  · rw [changed]
    exact protocol
  · rw [changed]
    exact scheme

/-- The variant a registration leads to. -/
def Registration.variant (registration : Registration) : Variant RotatingTransport where
  protocol := registration.protocol
  pool := registration.pool
  forward := some ⟨registration.pool, none⟩

/-- A region has what was registered under its name. -/
structure Grouped (pools : Pools τ) (registered : List Registration)
    (region : Region RotatingTransport) : Prop where
  present : named region.username registered ≠ []
  variants : region.variants =
    (firsts (named region.username registered)).map Registration.variant
  merged : pools.get region.merged =
    ⟨.empty, 0, (named region.username registered).map Registration.pool⟩

private theorem find?_variants (protocol : Protocol) (registered : List Registration) :
    (((firsts registered).map Registration.variant).find? fun variant =>
        variant.protocol = protocol) =
      (registered.find? fun registration => registration.protocol = protocol).map
        Registration.variant := by
  rw [List.find?_map, ← find?_firsts]
  rfl

/-- Without a protocol the forward is that of the preferred registration. -/
theorem Grouped.forward {pools : Pools τ} {registered : List Registration}
    {region : Region RotatingTransport} (grouped : Grouped pools registered region) :
    region.forward none = (preferred (named region.username registered)).map fun chosen =>
      ⟨chosen.pool, none⟩ := by
  rw [Region.forward, grouped.variants, find?_variants, List.head?_map, head?_firsts,
    ← Option.map_or, ← preferred]
  cases preferred (named region.username registered) <;> rfl

/-! ### A region grows -/

theorem named_append_same {name : String} {last : Registration}
    (same : eqIgnoreAsciiCase name last.region) (registered : List Registration) :
    named name (registered ++ [last]) = named name registered ++ [last] := by
  simp [named, same]

theorem named_append_other {name : String} {last : Registration}
    (other : ¬ eqIgnoreAsciiCase name last.region) (registered : List Registration) :
    named name (registered ++ [last]) = named name registered := by
  simp [named, other]

theorem eqIgnoreAsciiCase_iff {left right : String} :
    eqIgnoreAsciiCase left right ↔ asciiLower left = asciiLower right :=
  decide_eq_true_iff

/-- A variant keeps the forward it has. -/
private theorem setForward_variants (protocol : Protocol) (forward : Option RotatingTransport)
    (registered : List Registration) :
    Region.setForward protocol forward (registered.map Registration.variant) =
      registered.map Registration.variant := by
  induction registered with
  | nil => rfl
  | cons first rest inductionHypothesis =>
      rw [List.map_cons, Region.setForward, inductionHypothesis]
      split <;> rfl

/-- `Region::add` keeps the first of each protocol. -/
private theorem add_variants {region : Region RotatingTransport} {known : List Registration}
    (variants : region.variants = known.map Registration.variant) (last : Registration)
    (pools : Pools τ) :
    (region.add pools last.protocol last.pool (some ⟨last.pool, none⟩)).1 =
      { region with variants := (keepFirst known last).map Registration.variant } := by
  have lookup : ((known.map Registration.variant).find? fun variant =>
      variant.protocol = last.protocol) =
      (known.find? fun earlier => earlier.protocol = last.protocol).map Registration.variant := by
    rw [List.find?_map]
    rfl
  rw [Region.add, variants, lookup, keepFirst]
  cases found : known.find? fun earlier => earlier.protocol = last.protocol with
  | some first =>
      have present : known.any fun earlier => earlier.protocol = last.protocol := by
        rw [List.any_eq_true]
        refine ⟨first, List.mem_of_find?_eq_some found, ?_⟩
        have equal := List.find?_some found
        exact equal
      rw [if_pos present]
      exact congrArg (fun variants => { region with variants }) (setForward_variants _ _ _)
  | none =>
      have absent : ¬ known.any fun earlier => earlier.protocol = last.protocol := by
        rw [List.any_eq_true]
        intro ⟨earlier, member, equal⟩
        exact List.find?_eq_none.mp found earlier member equal
      rw [if_neg absent, List.map_append]
      rfl

namespace Grouped

variable {pools others : Pools τ} {registered : List Registration}
  {region : Region RotatingTransport} {last : Registration}

/-- A registration under the name of the region. -/
theorem add (grouped : Grouped pools registered region)
    (merged : others.get region.merged = pools.get region.merged)
    (known : region.merged < others.size)
    (same : eqIgnoreAsciiCase region.username last.region)
    (new : last.pool ∉ registered.map Registration.pool) :
    Grouped (others.addChild region.merged last.pool) (registered ++ [last])
      (region.add others last.protocol last.pool (some ⟨last.pool, none⟩)).1 := by
  rw [add_variants grouped.variants]
  refine ⟨?_, ?_, ?_⟩
  · dsimp only
    rw [named_append_same same]
    exact List.append_ne_nil_of_right_ne_nil _ (List.cons_ne_nil _ _)
  · dsimp only
    rw [named_append_same same, firsts_append]
  · have unknown : last.pool ∉ (named region.username registered).map Registration.pool :=
      fun member => new ((List.filter_sublist.map _).subset member)
    dsimp only
    rw [Pools.addChild, Arena.get_modify_self _ _ known, merged, grouped.merged,
      named_append_same same]
    dsimp only
    rw [if_neg unknown, List.map_append]
    rfl

/-- A registration under another name. -/
theorem other (grouped : Grouped pools registered region)
    (merged : others.get region.merged = pools.get region.merged)
    (different : ¬ eqIgnoreAsciiCase region.username last.region) :
    Grouped others (registered ++ [last]) region := by
  refine ⟨?_, ?_, ?_⟩
  · rw [named_append_other different]
    exact grouped.present
  · rw [named_append_other different]
    exact grouped.variants
  · rw [named_append_other different, merged]
    exact grouped.merged

end Grouped

/-! ### A provider -/

namespace Provider

/-- The pools that something refers to. -/
def ids {φ : Type} (self : Provider τ φ) : List PoolId :=
  self.primaries ::
    (self.registered.map Registration.pool ++ self.handler.regions.map Region.merged)

structure Consistent (provider : Provider τ RotatingTransport) : Prop where
  known : ∀ pool ∈ provider.ids, pool < provider.pools.size
  distinct : provider.ids.Nodup
  names : provider.handler.regions.Pairwise fun left right =>
    ¬ eqIgnoreAsciiCase left.username right.username
  complete : ∀ registration ∈ provider.registered,
    ∃ region ∈ provider.handler.regions, eqIgnoreAsciiCase region.username registration.region
  grouped : ∀ region ∈ provider.handler.regions, Grouped provider.pools provider.registered region
  holds : ∀ registration ∈ provider.registered, Holds provider.pools registration
  primary : (provider.pools.get provider.primaries).children = []
  defaultPool : provider.handler.defaultPool = provider.primaries
  defaultForward : provider.handler.defaultForward = some ⟨provider.primaries, none⟩
  supervised : ∀ task ∈ provider.supervised, ∀ entry ∈ task.pools,
    ∃ registration ∈ provider.registered, registration.protocol = .vpn ∧
      registration.pool = entry.2

theorem consistent_new : (new wreqFactory : Provider τ RotatingTransport).Consistent where
  known := by
    intro pool member
    rw [List.mem_singleton.mp member]
    exact Nat.one_pos
  distinct := List.nodup_singleton _
  names := List.Pairwise.nil
  complete _ member := absurd member List.not_mem_nil
  grouped _ member := absurd member List.not_mem_nil
  holds _ member := absurd member List.not_mem_nil
  primary := rfl
  defaultPool := rfl
  defaultForward := rfl
  supervised _ member := absurd member List.not_mem_nil

variable {provider : Provider τ RotatingTransport}

/-- The pools of registrations are apart from the others. -/
private theorem Consistent.apart (consistent : provider.Consistent) :
    (∀ registration ∈ provider.registered, provider.primaries ≠ registration.pool) ∧
      (∀ region ∈ provider.handler.regions, provider.primaries ≠ region.merged) ∧
      ∀ registration ∈ provider.registered, ∀ region ∈ provider.handler.regions,
        registration.pool ≠ region.merged := by
  have distinct := consistent.distinct
  rw [ids, List.nodup_cons, List.nodup_append] at distinct
  refine ⟨?_, ?_, ?_⟩
  · intro registration member equal
    exact distinct.1 (List.mem_append_left _ (equal ▸ List.mem_map_of_mem member))
  · intro region member equal
    exact distinct.1 (List.mem_append_right _ (equal ▸ List.mem_map_of_mem member))
  · intro registration member region inside
    exact distinct.2.2.2 _ (List.mem_map_of_mem member) _ (List.mem_map_of_mem inside)

private theorem Consistent.primariesKnown (consistent : provider.Consistent) :
    provider.primaries < provider.pools.size :=
  consistent.known _ List.mem_cons_self

private theorem Consistent.registeredKnown (consistent : provider.Consistent)
    {registration : Registration} (member : registration ∈ provider.registered) :
    registration.pool < provider.pools.size :=
  consistent.known _ (List.mem_cons_of_mem _ (List.mem_append_left _ (List.mem_map_of_mem member)))

theorem Consistent.mergedKnown (consistent : provider.Consistent)
    {region : Region RotatingTransport} (member : region ∈ provider.handler.regions) :
    region.merged < provider.pools.size :=
  consistent.known _ (List.mem_cons_of_mem _ (List.mem_append_right _ (List.mem_map_of_mem member)))

/-- Only the proxies of some pools change. -/
private theorem Consistent.contents (consistent : provider.Consistent) {pools : Pools τ}
    (grows : provider.pools.size ≤ pools.size)
    (merged : ∀ region ∈ provider.handler.regions,
      pools.get region.merged = provider.pools.get region.merged)
    (holds : ∀ registration ∈ provider.registered, Holds pools registration)
    (primary : (pools.get provider.primaries).children = []) :
    Consistent { provider with pools } :=
  { consistent with
    known := fun pool member => Nat.lt_of_lt_of_le (consistent.known pool member) grows
    grouped := fun region member =>
      have grouped := consistent.grouped region member
      ⟨grouped.present, grouped.variants, (merged region member).trans grouped.merged⟩
    holds
    primary }

/-- There are more pools. -/
theorem Consistent.extend (consistent : provider.Consistent) {pools : Pools τ}
    (grows : provider.pools.size ≤ pools.size)
    (same : ∀ pool < provider.pools.size, pools.get pool = provider.pools.get pool) :
    Consistent { provider with pools } := by
  apply consistent.contents grows
  · intro region member
    exact same _ (consistent.mergedKnown member)
  · intro registration member
    exact (consistent.holds registration member).congr (same _ (consistent.registeredKnown member))
  · rw [same _ consistent.primariesKnown]
    exact consistent.primary

/-- The proxies of a registered pool change. -/
private theorem Consistent.modify (consistent : provider.Consistent) {registration : Registration}
    (member : registration ∈ provider.registered) (change : Proxies τ → Proxies τ)
    (protocol : ∀ proxy ∈ (change (provider.pools.get registration.pool).proxies).list,
      proxy.protocol = registration.protocol)
    (scheme : ∀ proxy ∈ (change (provider.pools.get registration.pool).proxies).list,
      ∃ name, proxy.key = registration.protocol.scheme ++ name) :
    Consistent { provider with
      pools := provider.pools.modify registration.pool fun cell =>
        { cell with proxies := change cell.proxies } } := by
  apply consistent.contents
  · rw [Arena.size_modify]
  · intro region inside
    exact Arena.get_modify_of_ne _ _ (consistent.apart.2.2 registration member region inside)
  · intro other otherMember
    by_cases same : registration.pool = other.pool
    case neg =>
      exact (consistent.holds other otherMember).congr (Arena.get_modify_of_ne _ _ same)
    case pos =>
      have distinct := (List.nodup_append.mp (List.nodup_cons.mp consistent.distinct).2).1
      rw [← List.inj_on_of_nodup_map distinct member otherMember same]
      exact (consistent.holds registration member).modify (consistent.registeredKnown member)
        change protocol scheme
  · rw [Arena.get_modify_of_ne _ _ (consistent.apart.1 registration member).symm]
    exact consistent.primary

/-! ### A registration -/

/-- The region that `register` makes. -/
private def entry (pools : Pools τ) (last : Registration) : Region RotatingTransport where
  name := last.region
  username := last.region
  variants := [last.variant]
  merged := pools.size

/-- The pools with the merged one of that region. -/
private def opened (pools : Pools τ) (last : Registration) : Pools τ :=
  Pools.addChild (pools.new .empty).2 pools.size last.pool

private theorem size_opened (pools : Pools τ) (last : Registration) :
    (opened pools last).size = pools.size + 1 := by
  simp [opened, Pools.addChild, Pools.new]

private theorem get_opened_size (pools : Pools τ) (last : Registration) :
    (opened pools last).get pools.size = ⟨.empty, 0, [last.pool]⟩ := by
  rw [opened, Pools.addChild, Arena.get_modify_self _ _ (by simp [Pools.new]), Pools.new,
    Arena.get_alloc_size]
  rfl

private theorem get_opened_of_lt (pools : Pools τ) (last : Registration) {pool : PoolId}
    (old : pool < pools.size) : (opened pools last).get pool = pools.get pool := by
  rw [opened, Pools.addChild, Arena.get_modify_of_ne _ _ (Nat.ne_of_gt old), Pools.new,
    Arena.get_alloc_of_lt _ _ old]

private theorem register_eq (self : Provider τ RotatingTransport) (last : Registration) :
    register wreqFactory self last.protocol last.region last.pool =
      { self with
        pools := (Proxy.addTo (opened self.pools last) (entry self.pools last)
          self.handler.regions).2
        handler := { self.handler with
          regions := (Proxy.addTo (opened self.pools last) (entry self.pools last)
            self.handler.regions).1 }
        registered := self.registered ++ [last] } := rfl

private theorem merge_entry (existing : Region RotatingTransport) (pools others : Pools τ)
    (last : Registration) :
    Proxy.merge existing others (entry pools last) =
      existing.add others last.protocol last.pool (some ⟨last.pool, none⟩) := by
  rcases last with ⟨region, - | -, pool⟩ <;> rfl

/-- What a registration does to the rest. -/
structure Registers (before : Provider τ RotatingTransport) (last : Registration)
    (after : Provider τ RotatingTransport) : Prop where
  consistent : after.Consistent
  registered : after.registered = before.registered ++ [last]
  supervised : after.supervised = before.supervised
  grows : before.pools.size ≤ after.pools.size
  ids : ∀ pool ∈ after.ids, pool ∈ before.ids ∨ pool = last.pool ∨ before.pools.size ≤ pool
  others : ∀ pool < before.pools.size, pool ∉ before.handler.regions.map Region.merged →
    after.pools.get pool = before.pools.get pool

private theorem ids_perm (primaries pool : PoolId) (registered merged more : List PoolId) :
    (primaries :: ((registered ++ [pool]) ++ (merged ++ more))).Perm
      ((pool :: primaries :: (registered ++ merged)) ++ more) := by
  rw [List.perm_iff_count]
  intro other
  simp only [List.count_cons, List.count_append, List.count_nil]
  omega

/-- The facts a registration leaves to its two cases. -/
private theorem Consistent.registers (consistent : provider.Consistent) {last : Registration}
    {pools : Pools τ} {regions : List (Region RotatingTransport)} {more : List PoolId}
    (known : last.pool < provider.pools.size) (new : last.pool ∉ provider.ids)
    (holds : Holds provider.pools last)
    (merged : regions.map Region.merged = provider.handler.regions.map Region.merged ++ more)
    (moreDistinct : more.Nodup)
    (moreNew : ∀ pool ∈ more, provider.pools.size ≤ pool ∧ pool < pools.size)
    (grows : provider.pools.size ≤ pools.size)
    (others : ∀ pool < provider.pools.size, pool ∉ provider.handler.regions.map Region.merged →
      pools.get pool = provider.pools.get pool)
    (names : regions.Pairwise fun left right => ¬ eqIgnoreAsciiCase left.username right.username)
    (complete : ∀ registration ∈ provider.registered ++ [last],
      ∃ region ∈ regions, eqIgnoreAsciiCase region.username registration.region)
    (grouped : ∀ region ∈ regions, Grouped pools (provider.registered ++ [last]) region) :
    Registers provider last { provider with
      pools
      handler := { provider.handler with regions }
      registered := provider.registered ++ [last] } := by
  have perm := ids_perm provider.primaries last.pool
    (provider.registered.map Registration.pool) (provider.handler.regions.map Region.merged) more
  have same : ids { provider with
      pools
      handler := { provider.handler with regions }
      registered := provider.registered ++ [last] } =
      provider.primaries :: ((provider.registered.map Registration.pool ++ [last.pool]) ++
        (provider.handler.regions.map Region.merged ++ more)) := by
    rw [ids, ← merged, List.map_append]
    rfl
  have member (pool : PoolId) : pool ∈ ids { provider with
      pools
      handler := { provider.handler with regions }
      registered := provider.registered ++ [last] } ↔
      (pool = last.pool ∨ pool ∈ provider.ids) ∨ pool ∈ more := by
    rw [same, perm.mem_iff, List.mem_append, List.mem_cons]
    rfl
  rcases consistent.apart with ⟨-, primariesApart, registeredApart⟩
  have primarySame : pools.get provider.primaries = provider.pools.get provider.primaries := by
    refine others _ consistent.primariesKnown fun inside => ?_
    rcases List.mem_map.mp inside with ⟨region, member, equal⟩
    exact primariesApart region member equal.symm
  have lastSame : pools.get last.pool = provider.pools.get last.pool :=
    others _ known fun inside => new (List.mem_cons_of_mem _ (List.mem_append_right _ inside))
  refine ⟨?_, rfl, rfl, grows, ?_, others⟩
  · refine
      { known := ?_, distinct := ?_, names, complete, grouped, holds := ?_, primary := ?_,
        defaultPool := consistent.defaultPool, defaultForward := consistent.defaultForward,
        supervised := ?_ }
    · intro pool inside
      rcases (member pool).mp inside with (rfl | old) | fresh
      · exact Nat.lt_of_lt_of_le known grows
      · exact Nat.lt_of_lt_of_le (consistent.known pool old) grows
      · exact (moreNew pool fresh).2
    · rw [same, perm.nodup_iff, List.nodup_append]
      refine ⟨List.nodup_cons.mpr ⟨new, consistent.distinct⟩, moreDistinct, ?_⟩
      intro pool old other fresh
      have late := (moreNew other fresh).1
      rcases List.mem_cons.mp old with isLast | older
      · exact Nat.ne_of_lt (Nat.lt_of_lt_of_le (isLast ▸ known) late)
      · exact Nat.ne_of_lt (Nat.lt_of_lt_of_le (consistent.known pool older) late)
    · intro registration inside
      rcases List.mem_append.mp inside with old | isLast
      · have early := consistent.registeredKnown old
        refine (consistent.holds registration old).congr (others _ early fun merged => ?_)
        rcases List.mem_map.mp merged with ⟨region, member, equal⟩
        exact registeredApart registration old region member equal.symm
      · rw [List.mem_singleton.mp isLast]
        exact holds.congr lastSame
    · change (pools.get provider.primaries).children = []
      rw [primarySame]
      exact consistent.primary
    · intro task inside entry entryMember
      rcases consistent.supervised task inside entry entryMember with ⟨registration, old, facts⟩
      exact ⟨registration, List.mem_append_left _ old, facts⟩
  · intro pool inside
    rcases (member pool).mp inside with (isLast | old) | fresh
    · exact .inr (.inl isLast)
    · exact .inl old
    · exact .inr (.inr (moreNew pool fresh).1)

/-- Nothing has this name yet. -/
private theorem Consistent.opens (consistent : provider.Consistent) {last : Registration}
    (known : last.pool < provider.pools.size) (new : last.pool ∉ provider.ids)
    (holds : Holds provider.pools last)
    (unknown : ∀ region ∈ provider.handler.regions,
      ¬ eqIgnoreAsciiCase region.username last.region) :
    Registers provider last { provider with
      pools := opened provider.pools last
      handler := { provider.handler with
        regions := provider.handler.regions ++ [entry provider.pools last] }
      registered := provider.registered ++ [last] } := by
  have itself : eqIgnoreAsciiCase last.region last.region := eqIgnoreAsciiCase_iff.mpr rfl
  have nothing : named last.region provider.registered = [] := by
    rw [named, List.filter_eq_nil_iff]
    intro registration member same
    rcases consistent.complete registration member with ⟨region, inside, equal⟩
    rw [eqIgnoreAsciiCase_iff] at same equal
    exact unknown region inside (eqIgnoreAsciiCase_iff.mpr (equal.trans same.symm))
  have merged : (provider.handler.regions ++ [entry provider.pools last]).map Region.merged =
      provider.handler.regions.map Region.merged ++ [provider.pools.size] := List.map_append
  refine consistent.registers known new holds merged (List.nodup_singleton _) ?_ ?_ ?_ ?_ ?_ ?_
  · intro pool fresh
    rw [List.mem_singleton.mp fresh, size_opened]
    exact ⟨Nat.le_refl _, Nat.lt_succ_self _⟩
  · rw [size_opened]
    exact Nat.le_succ _
  · intro pool old _
    exact get_opened_of_lt _ _ old
  · rw [List.pairwise_append]
    refine ⟨consistent.names, List.pairwise_singleton _ _, ?_⟩
    intro region member other isEntry
    rw [List.mem_singleton.mp isEntry]
    exact unknown region member
  · intro registration inside
    rcases List.mem_append.mp inside with old | isLast
    · rcases consistent.complete registration old with ⟨region, member, equal⟩
      exact ⟨region, List.mem_append_left _ member, equal⟩
    · rw [List.mem_singleton.mp isLast]
      exact ⟨entry provider.pools last, List.mem_append_right _ (List.mem_singleton_self _), itself⟩
  · intro region inside
    rcases List.mem_append.mp inside with old | isEntry
    · exact (consistent.grouped region old).other
        (get_opened_of_lt _ _ (consistent.mergedKnown old)) (unknown region old)
    · rw [List.mem_singleton.mp isEntry]
      refine ⟨?_, ?_, ?_⟩
      · change named last.region _ ≠ []
        rw [named_append_same itself]
        exact List.append_ne_nil_of_right_ne_nil _ (List.cons_ne_nil _ _)
      · change [last.variant] = (firsts (named last.region _)).map _
        rw [named_append_same itself, nothing]
        rfl
      · change (opened provider.pools last).get provider.pools.size =
          ⟨.empty, 0, (named last.region _).map _⟩
        rw [get_opened_size, named_append_same itself, nothing]
        rfl

/-- A region has this name. -/
private theorem Consistent.joins (consistent : provider.Consistent) {last : Registration}
    (known : last.pool < provider.pools.size) (new : last.pool ∉ provider.ids)
    (holds : Holds provider.pools last) {before after : List (Region RotatingTransport)}
    {current : Region RotatingTransport}
    (split : provider.handler.regions = before ++ current :: after)
    (same : eqIgnoreAsciiCase current.username last.region) :
    Registers provider last { provider with
      pools := (opened provider.pools last).addChild current.merged last.pool
      handler := { provider.handler with
        regions := before ++ (current.add (opened provider.pools last) last.protocol last.pool
          (some ⟨last.pool, none⟩)).1 :: after }
      registered := provider.registered ++ [last] } := by
  have inside : current ∈ provider.handler.regions := by
    rw [split]
    exact List.mem_append_right _ List.mem_cons_self
  have newPool : last.pool ∉ provider.registered.map Registration.pool :=
    fun member => new (List.mem_cons_of_mem _ (List.mem_append_left _ member))
  have size : ((opened provider.pools last).addChild current.merged last.pool).size =
      provider.pools.size + 1 := by
    rw [Pools.addChild, Arena.size_modify, size_opened]
  have get {pool : PoolId} (old : pool < provider.pools.size) (apart : current.merged ≠ pool) :
      ((opened provider.pools last).addChild current.merged last.pool).get pool =
        provider.pools.get pool := by
    rw [Pools.addChild, Arena.get_modify_of_ne _ _ apart, get_opened_of_lt _ _ old]
  -- The other regions have other names and other pools.
  have front : provider.handler.regions.Perm (current :: (before ++ after)) := by
    rw [split]
    exact List.perm_middle
  have apart : ∀ region ∈ before ++ after, current.merged ≠ region.merged := by
    have distinct := (List.nodup_append.mp (List.nodup_cons.mp consistent.distinct).2).2.1
    rw [(front.map Region.merged).nodup_iff, List.map_cons, List.nodup_cons] at distinct
    intro region member equal
    exact distinct.1 (equal ▸ List.mem_map_of_mem member)
  have different : ∀ region ∈ before ++ after,
      ¬ eqIgnoreAsciiCase region.username last.region := by
    have names := consistent.names
    rw [front.pairwise_iff, List.pairwise_cons] at names
    · intro region member equal
      rw [eqIgnoreAsciiCase_iff] at same equal
      exact names.1 region member (eqIgnoreAsciiCase_iff.mpr (same.trans equal.symm))
    · intro left right unequal equal
      rw [eqIgnoreAsciiCase_iff] at equal
      exact unequal (eqIgnoreAsciiCase_iff.mpr equal.symm)
  have merged : (before ++ (current.add (opened provider.pools last) last.protocol last.pool
      (some ⟨last.pool, none⟩)).1 :: after).map Region.merged =
      provider.handler.regions.map Region.merged ++ [] := by
    rw [List.append_nil, split, List.map_append, List.map_append]
    rfl
  have usernames : (before ++ (current.add (opened provider.pools last) last.protocol last.pool
      (some ⟨last.pool, none⟩)).1 :: after).map Region.username =
      provider.handler.regions.map Region.username := by
    rw [split, List.map_append, List.map_append]
    rfl
  refine consistent.registers known new holds merged List.nodup_nil ?_ ?_ ?_ ?_ ?_ ?_
  · intro pool fresh
    cases fresh
  · rw [size]
    exact Nat.le_succ _
  · intro pool old unmerged
    refine get old fun equal => unmerged ?_
    rw [← equal]
    exact List.mem_map_of_mem inside
  · refine (List.pairwise_map (R := fun left right => ¬ eqIgnoreAsciiCase left right)).mp ?_
    rw [usernames]
    exact List.pairwise_map.mpr consistent.names
  · intro registration member
    have found : ∃ username ∈ provider.handler.regions.map Region.username,
        eqIgnoreAsciiCase username registration.region := by
      rcases List.mem_append.mp member with old | isLast
      · rcases consistent.complete registration old with ⟨region, regionMember, equal⟩
        exact ⟨region.username, List.mem_map_of_mem regionMember, equal⟩
      · rw [List.mem_singleton.mp isLast]
        exact ⟨current.username, List.mem_map_of_mem inside, same⟩
    rw [← usernames] at found
    rcases found with ⟨username, usernameMember, equal⟩
    rcases List.mem_map.mp usernameMember with ⟨region, regionMember, rfl⟩
    exact ⟨region, regionMember, equal⟩
  · intro region member
    rcases List.mem_cons.mp (List.perm_middle.mem_iff.mp member) with isCurrent | other
    · rw [isCurrent]
      refine (consistent.grouped current inside).add
        (get_opened_of_lt _ _ (consistent.mergedKnown inside)) ?_ same newPool
      rw [size_opened]
      exact Nat.lt_succ_of_lt (consistent.mergedKnown inside)
    · have old := front.mem_iff.mpr (List.mem_cons_of_mem current other)
      exact (consistent.grouped region old).other
        (get (consistent.mergedKnown old) (apart region other)) (different region other)

/-- A pool that nothing refers to is registered. -/
theorem Consistent.register (consistent : provider.Consistent) {last : Registration}
    (known : last.pool < provider.pools.size) (new : last.pool ∉ provider.ids)
    (holds : Holds provider.pools last) :
    Registers provider last
      (register wreqFactory provider last.protocol last.region last.pool) := by
  rw [register_eq]
  rcases Proxy.addTo_cases (opened provider.pools last) (entry provider.pools last)
    provider.handler.regions with ⟨unknown, added⟩ | ⟨before, current, after, split, same, added⟩
  · rw [added]
    exact consistent.opens known new holds unknown
  · rw [added, merge_entry]
    exact consistent.joins known new holds split same

/-! ### The calls -/

private theorem Consistent.pushPrimary (consistent : provider.Consistent) (proxy : PoolProxy τ) :
    Consistent { provider with pools := provider.pools.push provider.primaries proxy } := by
  apply consistent.contents
  · rw [Pools.push, Arena.size_modify]
  · intro region inside
    exact Arena.get_modify_of_ne _ _ (consistent.apart.2.1 region inside)
  · intro registration member
    refine (consistent.holds registration member).congr (Arena.get_modify_of_ne _ _ ?_)
    exact consistent.apart.1 registration member
  · rw [Pools.push, Arena.get_modify_self _ _ consistent.primariesKnown]
    exact consistent.primary

theorem Consistent.add (consistent : provider.Consistent) (region : String) (tunnel : τ) :
    (provider.add wreqFactory region tunnel).Consistent := by
  let proxy : PoolProxy τ := { key := "ssh://" ++ region, tunnel, priority := 0, protocol := .ssh }
  let base : Provider τ RotatingTransport :=
    { provider with pools := (provider.pools.new (Proxies.empty.push proxy)).2 }
  let last : Registration := { region, protocol := .ssh, pool := provider.pools.size }
  have size : base.pools.size = provider.pools.size + 1 := Arena.size_alloc _ _
  have extended : base.Consistent := by
    apply consistent.extend
    · exact Nat.le_of_lt (Nat.lt_of_lt_of_le (Nat.lt_succ_self _) (Nat.le_of_eq size.symm))
    · intro pool old
      exact Arena.get_alloc_of_lt _ _ old
  have cell : base.pools.get last.pool = ⟨Proxies.empty.push proxy, 0, []⟩ :=
    Arena.get_alloc_size _ _
  have only : ∀ other ∈ (base.pools.get last.pool).proxies.list, other = proxy := by
    intro other member
    rw [cell] at member
    exact List.mem_singleton.mp member
  have holds : Holds base.pools last := by
    refine ⟨?_, ?_, ?_⟩
    · rw [cell]
    · intro other member
      rw [only other member]
    · intro other member
      rw [only other member]
      exact ⟨region, rfl⟩
  have new : last.pool ∉ base.ids := fun member => Nat.lt_irrefl _ (consistent.known _ member)
  have registered := (extended.register (size ▸ Nat.lt_succ_self _) new holds).consistent
  exact registered.pushPrimary proxy

/-- The first loop of `attach` makes pools of its own. -/
private structure Sorted (origin : Pools τ) (regions : List (String × PoolId)) (pools : Pools τ) :
    Prop where
  grows : origin.size ≤ pools.size
  same : ∀ pool < origin.size, pools.get pool = origin.get pool
  distinct : (regions.map Prod.snd).Nodup
  new : ∀ entry ∈ regions, origin.size ≤ entry.2 ∧ entry.2 < pools.size
  holds : ∀ entry ∈ regions, Holds pools ⟨entry.1, .vpn, entry.2⟩

variable {origin pools : Pools τ} {regions : List (String × PoolId)}

/-- A region gets its pool. -/
private theorem Sorted.insert (sorted : Sorted origin regions pools) (region : String) :
    Sorted origin (insert region pools.size regions) (pools.new .empty).2 := by
  have perm := List.perm_orderedInsert
    (fun left right : String × PoolId => left.1 ≤ right.1) (region, pools.size) regions
  have size : Arena.size (pools.new .empty).2 = pools.size + 1 := Arena.size_alloc _ _
  refine ⟨?_, ?_, ?_, ?_, ?_⟩
  · rw [size]
    exact Nat.le_succ_of_le sorted.grows
  · intro pool old
    rw [← sorted.same pool old]
    exact Arena.get_alloc_of_lt _ _ (Nat.lt_of_lt_of_le old sorted.grows)
  · rw [Provider.insert, (perm.map Prod.snd).nodup_iff, List.map_cons, List.nodup_cons]
    refine ⟨fun member => ?_, sorted.distinct⟩
    rcases List.mem_map.mp member with ⟨entry, inside, equal⟩
    exact Nat.ne_of_lt (sorted.new entry inside).2 equal
  · intro entry member
    rw [size]
    rcases List.mem_cons.mp (perm.mem_iff.mp member) with rfl | old
    · exact ⟨sorted.grows, Nat.lt_succ_self _⟩
    · exact ⟨(sorted.new entry old).1, Nat.lt_succ_of_lt (sorted.new entry old).2⟩
  · intro entry member
    rcases List.mem_cons.mp (perm.mem_iff.mp member) with rfl | old
    · have cell : Arena.get (pools.new .empty).2 pools.size = ⟨.empty, 0, []⟩ :=
        Arena.get_alloc_size _ _
      refine ⟨?_, ?_, ?_⟩
      · rw [cell]
      · rw [cell]
        exact fun _ none => absurd none List.not_mem_nil
      · rw [cell]
        exact fun _ none => absurd none List.not_mem_nil
    · exact (sorted.holds entry old).congr (Arena.get_alloc_of_lt _ _ (sorted.new entry old).2)

/-- An account is pushed into a pool. -/
private theorem Holds.push {registration : Registration} (holds : Holds pools registration)
    (vpn : registration.protocol = .vpn) (account : VpnAccount τ) :
    ∀ proxy ∈ ((pools.get registration.pool).proxies.push (proxyFor account)).list,
      proxy.protocol = registration.protocol ∧
        ∃ name, proxy.key = registration.protocol.scheme ++ name := by
  intro proxy member
  rw [Proxies.push] at member
  split at member
  · exact ⟨holds.protocol proxy member, holds.scheme proxy member⟩
  · rcases List.mem_append.mp member with old | isNew
    · exact ⟨holds.protocol proxy old, holds.scheme proxy old⟩
    · rw [List.mem_singleton.mp isNew, vpn]
      exact ⟨rfl, account.name, rfl⟩

private theorem Sorted.push (sorted : Sorted origin regions pools) {entry : String × PoolId}
    (member : entry ∈ regions) (account : VpnAccount τ) :
    Sorted origin regions (pools.push entry.2 (proxyFor account)) := by
  have bounds := sorted.new entry member
  refine ⟨?_, ?_, sorted.distinct, ?_, ?_⟩
  · rw [Pools.push, Arena.size_modify]
    exact sorted.grows
  · intro pool old
    rw [← sorted.same pool old]
    exact Arena.get_modify_of_ne _ _ (Nat.ne_of_gt (Nat.lt_of_lt_of_le old bounds.1))
  · intro other inside
    rw [Pools.push, Arena.size_modify]
    exact sorted.new other inside
  · intro other inside
    by_cases same : entry.2 = other.2
    case neg => exact (sorted.holds other inside).congr (Arena.get_modify_of_ne _ _ same)
    case pos =>
      have pushed := Holds.push (sorted.holds entry member) rfl account
      rw [← List.inj_on_of_nodup_map sorted.distinct member inside same]
      exact (sorted.holds entry member).modify bounds.2 (fun proxies => proxies.push _)
        (fun proxy inPool => (pushed proxy inPool).1) fun proxy inPool => (pushed proxy inPool).2

theorem mem_of_lookup {region : String} {pool : PoolId}
    (found : regions.lookup region = some pool) : (region, pool) ∈ regions := by
  rw [List.lookup_eq_some_iff] at found
  rcases found with ⟨before, after, split, -⟩
  rw [split]
  exact List.mem_append_right _ List.mem_cons_self

/-- A turn of the loop. -/
private theorem Sorted.sort (sorted : Sorted origin regions pools)
    (account : VpnAccount τ × Bool) :
    Sorted origin (sort (regions, pools) account).1 (sort (regions, pools) account).2 := by
  rcases account with ⟨account, ready⟩
  rw [Provider.sort]
  cases found : regions.lookup account.region with
  | some pool =>
      cases ready with
      | true => exact sorted.push (mem_of_lookup found) account
      | false => exact sorted
  | none =>
      have opened := sorted.insert account.region
      have member : (account.region, pools.size) ∈
          Provider.insert account.region pools.size regions :=
        (List.perm_orderedInsert _ _ _).mem_iff.mpr List.mem_cons_self
      cases ready with
      | true => exact opened.push member account
      | false => exact opened

private theorem Sorted.sortAll (accounts : List (VpnAccount τ × Bool)) :
    ∀ {state : List (String × PoolId) × Pools τ}, Sorted origin state.1 state.2 →
      Sorted origin (accounts.foldl Provider.sort state).1
        (accounts.foldl Provider.sort state).2 := by
  induction accounts with
  | nil => exact fun sorted => sorted
  | cons account rest inductionHypothesis =>
      intro state sorted
      exact inductionHypothesis (sorted.sort account)

/-- The second loop of `attach`: these pools are registered. -/
private theorem Consistent.registerAll (regions : List (String × PoolId)) :
    ∀ {provider : Provider τ RotatingTransport}, provider.Consistent →
      (regions.map Prod.snd).Nodup →
      (∀ entry ∈ regions, entry.2 < provider.pools.size ∧ entry.2 ∉ provider.ids ∧
        Holds provider.pools ⟨entry.1, .vpn, entry.2⟩) →
      let reached := regions.foldl (fun provider (region, pool) =>
        Provider.register wreqFactory provider .vpn region pool) provider
      reached.Consistent ∧ reached.supervised = provider.supervised ∧
        reached.registered = provider.registered ++
          regions.map fun entry => ⟨entry.1, .vpn, entry.2⟩ := by
  induction regions with
  | nil => exact fun consistent _ _ => ⟨consistent, rfl, (List.append_nil _).symm⟩
  | cons first rest inductionHypothesis =>
      intro provider consistent distinct fresh
      rw [List.map_cons, List.nodup_cons] at distinct
      rcases fresh first List.mem_cons_self with ⟨known, new, holds⟩
      have registers := consistent.register known new holds
      have others : ∀ entry ∈ rest,
          entry.2 < (Provider.register wreqFactory provider .vpn first.1 first.2).pools.size ∧
            entry.2 ∉ (Provider.register wreqFactory provider .vpn first.1 first.2).ids ∧
            Holds (Provider.register wreqFactory provider .vpn first.1 first.2).pools
              ⟨entry.1, .vpn, entry.2⟩ := by
        intro entry member
        rcases fresh entry (List.mem_cons_of_mem _ member) with ⟨entryKnown, entryNew, entryHolds⟩
        refine ⟨Nat.lt_of_lt_of_le entryKnown registers.grows, fun inside => ?_, ?_⟩
        · rcases registers.ids _ inside with old | isFirst | late
          · exact entryNew old
          · have equal : entry.2 = first.2 := isFirst
            exact distinct.1 (equal ▸ List.mem_map_of_mem member)
          · exact Nat.not_le.mpr entryKnown late
        · refine entryHolds.congr (registers.others _ entryKnown fun inside => entryNew ?_)
          exact List.mem_cons_of_mem _ (List.mem_append_right _ inside)
      rcases inductionHypothesis registers.consistent distinct.2 others with
        ⟨reached, supervised, registered⟩
      refine ⟨reached, supervised.trans registers.supervised, registered.trans ?_⟩
      rw [registers.registered, List.append_assoc]
      rfl

theorem Consistent.attach (consistent : provider.Consistent)
    (accounts : List (VpnAccount τ × Bool)) :
    (provider.attach wreqFactory accounts).Consistent := by
  have start : Sorted provider.pools [] provider.pools := by
    refine ⟨Nat.le_refl _, fun _ _ => rfl, List.nodup_nil, ?_, ?_⟩
    · exact fun _ none => absurd none List.not_mem_nil
    · exact fun _ none => absurd none List.not_mem_nil
  have sorted := @Sorted.sortAll τ provider.pools accounts ([], provider.pools) start
  have extended := consistent.extend sorted.grows sorted.same
  rcases extended.registerAll _ sorted.distinct fun entry member =>
    ⟨(sorted.new entry member).2,
      fun inside => Nat.not_le.mpr (consistent.known _ inside) (sorted.new entry member).1,
      sorted.holds entry member⟩ with ⟨reached, supervised, registered⟩
  refine { reached with supervised := ?_ }
  intro task member entry inside
  change task ∈ _ ++ [_] at member
  rcases List.mem_append.mp member with old | isNew
  · exact reached.supervised task old entry inside
  · rw [List.mem_singleton.mp isNew] at inside
    refine ⟨⟨entry.1, .vpn, entry.2⟩, registered ▸ List.mem_append_right _ ?_, rfl, rfl⟩
    exact List.mem_map_of_mem inside

/-- A turn of `supervise`. -/
private theorem Consistent.superviseAccount (consistent : provider.Consistent)
    (vpn : ∀ entry ∈ regions, ∃ registration ∈ provider.registered,
      registration.protocol = .vpn ∧ registration.pool = entry.2)
    (account : VpnAccount τ × Bool) :
    Consistent { provider with
      pools := superviseAccount regions provider.pools account } := by
  rcases account with ⟨account, ready⟩
  rw [Provider.superviseAccount]
  cases found : regions.lookup account.region with
  | none => exact consistent
  | some pool =>
      rcases vpn _ (mem_of_lookup found) with ⟨registration, member, protocol, rfl⟩
      have holds := consistent.holds registration member
      cases ready with
      | true =>
          cases present : provider.pools.contains registration.pool ("openvpn://" ++ account.name)
          · have pushed := Holds.push holds protocol account
            dsimp only
            rw [present]
            refine consistent.modify member (fun proxies => proxies.push _) ?_ ?_
            · exact fun proxy inside => (pushed proxy inside).1
            · exact fun proxy inside => (pushed proxy inside).2
          · dsimp only
            rw [present]
            exact consistent
      | false =>
          cases present : provider.pools.contains registration.pool ("openvpn://" ++ account.name)
          · dsimp only
            rw [present]
            exact consistent
          · dsimp only
            rw [present]
            refine consistent.modify member (fun proxies => proxies.remove _) ?_ ?_
            · exact fun proxy inside => holds.protocol proxy (List.mem_of_mem_filter inside)
            · exact fun proxy inside => holds.scheme proxy (List.mem_of_mem_filter inside)

theorem Consistent.supervise (consistent : provider.Consistent) (task : Nat) (ready : List Bool) :
    (provider.supervise task ready).Consistent := by
  rw [Provider.supervise]
  cases found : provider.supervised[task]? with
  | none => exact consistent
  | some task =>
      have vpn := consistent.supervised task (List.mem_of_getElem? found)
      have turns (accounts : List (VpnAccount τ × Bool)) : ∀ pools : Pools τ,
          Consistent { provider with pools } →
          Consistent { provider with
            pools := accounts.foldl (Provider.superviseAccount task.pools) pools } := by
        induction accounts with
        | nil => exact fun _ consistent => consistent
        | cons account rest inductionHypothesis =>
            intro pools consistent
            exact inductionHypothesis _ (consistent.superviseAccount vpn account)
      exact turns _ provider.pools consistent

theorem consistent_step (consistent : provider.Consistent) (call : Call τ) :
    (provider.step wreqFactory call).Consistent := by
  cases call with
  | add region tunnel => exact consistent.add region tunnel
  | attach accounts => exact consistent.attach accounts
  | supervise task ready => exact consistent.supervise task ready

theorem consistent_run (calls : List (Call τ)) :
    (run wreqFactory calls : Provider τ RotatingTransport).Consistent := by
  have kept (provider : Provider τ RotatingTransport) (call : Call τ)
      (consistent : provider.Consistent) : (provider.step wreqFactory call).Consistent :=
    consistent_step consistent call
  exact run_always kept calls consistent_new

end Provider

end Unroxy.Proxy
