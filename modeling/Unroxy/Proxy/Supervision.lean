import Unroxy.Proxy.Registry

/-!
Owns what one pass of `supervise` of `vpn/mod.rs` does to the pools of the regions.

On the pool of its region a turn does what `settle` does to the entries: the pool
has no children, so `contains` asks about these entries only. A pass is a
`settle` for each account, and the pools of different regions are different.

Does not own what makes an account ready.
-/

namespace Unroxy.Proxy

open Unroxy.Lib

variable {τ : Type}

theorem proxyFor_key_injective {left right : VpnAccount τ}
    (same : (proxyFor left).key = (proxyFor right).key) : left.name = right.name :=
  (String.append_right_inj "openvpn://").mp same

/-! ### The entries of one pool -/

namespace Proxies

def keys (self : Proxies τ) : List String := self.list.map PoolProxy.key

/-- The entry of an account is there if the account is ready. -/
def settle (self : Proxies τ) (account : VpnAccount τ × Bool) : Proxies τ :=
  if account.2 then self.push (proxyFor account.1) else self.remove (proxyFor account.1).key

theorem ext {left right : Proxies τ} (same : left.list = right.list) : left = right := by
  cases left
  cases right
  cases same
  rfl

theorem push_of_mem {self : Proxies τ} {proxy : PoolProxy τ} (present : proxy.key ∈ self.keys) :
    self.push proxy = self :=
  dif_pos present

theorem list_push_of_notMem {self : Proxies τ} {proxy : PoolProxy τ}
    (absent : proxy.key ∉ self.keys) : (self.push proxy).list = self.list ++ [proxy] :=
  congrArg Proxies.list (dif_neg absent)

theorem remove_of_notMem {self : Proxies τ} {key : String} (absent : key ∉ self.keys) :
    self.remove key = self := by
  apply ext
  apply List.filter_eq_self.mpr
  intro proxy member
  apply decide_eq_true
  intro same
  exact absent (same ▸ List.mem_map_of_mem member)

theorem mem_keys_settle (self : Proxies τ) (account : VpnAccount τ × Bool) (key : String) :
    key ∈ (self.settle account).keys ↔
      if key = (proxyFor account.1).key then account.2 = true else key ∈ self.keys := by
  unfold settle
  cases account.2 with
  | true =>
      by_cases present : (proxyFor account.1).key ∈ self.keys
      · rw [if_pos rfl, push_of_mem present]
        split
        · next same =>
            rw [same]
            exact ⟨fun _ => rfl, fun _ => present⟩
        · rfl
      · rw [if_pos rfl, keys, list_push_of_notMem present, List.map_append, List.mem_append,
          List.map_singleton, List.mem_singleton]
        split
        · next same => exact ⟨fun _ => rfl, fun _ => .inr same⟩
        · next different => exact ⟨fun member => member.resolve_right different, .inl⟩
  | false =>
      rw [if_neg Bool.false_ne_true]
      unfold keys remove
      simp only [List.mem_map, List.mem_filter, decide_eq_true_eq]
      split
      · next same =>
          constructor
          · rintro ⟨proxy, ⟨-, different⟩, equal⟩
            exact absurd (equal.trans same) different
          · intro impossible
            cases impossible
      · next different =>
          constructor
          · rintro ⟨proxy, ⟨member, -⟩, equal⟩
            exact ⟨proxy, member, equal⟩
          · rintro ⟨proxy, member, equal⟩
            exact ⟨proxy, ⟨member, fun same => different (equal.symm.trans same)⟩, equal⟩

/-- Entries with other keys stay as they are, in their order. -/
theorem filter_settle (self : Proxies τ) (account : VpnAccount τ × Bool)
    {keep : PoolProxy τ → Bool}
    (others : ∀ proxy, proxy.key = (proxyFor account.1).key → keep proxy = false) :
    (self.settle account).list.filter keep = self.list.filter keep := by
  unfold settle
  cases account.2 with
  | true =>
      rw [if_pos rfl]
      by_cases present : (proxyFor account.1).key ∈ self.keys
      · rw [push_of_mem present]
      · rw [list_push_of_notMem present, List.filter_append, List.filter_singleton,
          others _ rfl, cond_false, List.append_nil]
  | false =>
      rw [if_neg Bool.false_ne_true, remove, List.filter_filter]
      apply List.filter_congr
      intro proxy member
      by_cases same : proxy.key = (proxyFor account.1).key
      · rw [others proxy same, Bool.false_and]
      · rw [decide_eq_true same, Bool.and_true]

/-- Nothing is to be done where the entry says what the account says. -/
theorem settle_of_settled {self : Proxies τ} {account : VpnAccount τ × Bool}
    (settled : (proxyFor account.1).key ∈ self.keys ↔ account.2 = true) :
    self.settle account = self := by
  unfold settle
  cases ready : account.2 with
  | true => exact push_of_mem (settled.mpr ready)
  | false =>
      apply remove_of_notMem
      intro present
      rw [settled.mp present] at ready
      cases ready

/-! ### A pass over the accounts of one pool -/

theorem mem_keys_settleAll_of_apart (accounts : List (VpnAccount τ × Bool)) {key : String}
    (apart : ∀ account ∈ accounts, key ≠ (proxyFor account.1).key) (self : Proxies τ) :
    key ∈ (accounts.foldl settle self).keys ↔ key ∈ self.keys := by
  induction accounts generalizing self with
  | nil => exact Iff.rfl
  | cons account rest inductionHypothesis =>
      rw [List.foldl_cons,
        inductionHypothesis (fun other member => apart other (List.mem_cons_of_mem _ member)),
        mem_keys_settle, if_neg (apart account List.mem_cons_self)]

/-- Later accounts leave the entry of an earlier one alone. -/
theorem mem_keys_settleAll {accounts : List (VpnAccount τ × Bool)}
    (names : (accounts.map fun account => account.1.name).Nodup)
    {account : VpnAccount τ × Bool} (member : account ∈ accounts) (self : Proxies τ) :
    (proxyFor account.1).key ∈ (accounts.foldl settle self).keys ↔ account.2 = true := by
  induction accounts generalizing self with
  | nil => cases member
  | cons first rest inductionHypothesis =>
      rw [List.map_cons, List.nodup_cons] at names
      rw [List.foldl_cons]
      rcases List.mem_cons.mp member with rfl | later
      · rw [mem_keys_settleAll_of_apart, mem_keys_settle, if_pos rfl]
        intro other otherMember same
        apply names.1
        rw [proxyFor_key_injective same]
        exact List.mem_map.mpr ⟨other, otherMember, rfl⟩
      · exact inductionHypothesis names.2 later (self.settle first)

theorem filter_settleAll (accounts : List (VpnAccount τ × Bool)) {keep : PoolProxy τ → Bool}
    (others : ∀ account ∈ accounts, ∀ proxy, proxy.key = (proxyFor account.1).key →
      keep proxy = false) (self : Proxies τ) :
    (accounts.foldl settle self).list.filter keep = self.list.filter keep := by
  induction accounts generalizing self with
  | nil => rfl
  | cons account rest inductionHypothesis =>
      rw [List.foldl_cons,
        inductionHypothesis (fun other member => others other (List.mem_cons_of_mem _ member)),
        filter_settle self account (others account List.mem_cons_self)]

end Proxies

/-! ### The pools of the regions -/

/-- These pools are those, with other entries and counters. -/
structure SameShape (pools others : Pools τ) : Prop where
  size : others.size = pools.size
  children : ∀ pool, (others.get pool).children = (pools.get pool).children

/-- The pools a task of `supervise` has: one for each region of its accounts,
without children. -/
structure Supervised.Wired (task : Supervised τ) (pools : Pools τ) : Prop where
  regions : (task.pools.map Prod.fst).Nodup
  distinct : (task.pools.map Prod.snd).Nodup
  covered : ∀ account ∈ task.accounts, ∃ pool, task.pools.lookup account.region = some pool
  known : ∀ entry ∈ task.pools, entry.2 < pools.size
  childless : ∀ entry ∈ task.pools, (pools.get entry.2).children = []

theorem SameShape.trans {pools others last : Pools τ} (first : SameShape pools others)
    (second : SameShape others last) : SameShape pools last where
  size := second.size.trans first.size
  children := fun pool => (second.children pool).trans (first.children pool)

theorem Supervised.Wired.shape {task : Supervised τ} {pools others : Pools τ}
    (wired : task.Wired pools) (shape : SameShape pools others) : task.Wired others where
  regions := wired.regions
  distinct := wired.distinct
  covered := wired.covered
  known := by
    intro entry member
    rw [shape.size]
    exact wired.known entry member
  childless := by
    intro entry member
    rw [shape.children]
    exact wired.childless entry member

namespace Provider

variable {task : Supervised τ} {pools : Pools τ}

theorem contains_leaf {pool : PoolId} (childless : (pools.get pool).children = [])
    (key : String) : pools.contains pool key = true ↔ key ∈ (pools.get pool).proxies.keys := by
  rw [Pools.contains, pools.view_of_leaf childless, ProxyPool.contains, pools.leaf_all,
    List.any_eq_true]
  simp [Proxies.keys]

/-- Where the entry says what the account says, a turn does nothing. -/
theorem superviseAccount_of_settled {account : VpnAccount τ} {ready : Bool} {pool : PoolId}
    (found : task.pools.lookup account.region = some pool)
    (childless : (pools.get pool).children = [])
    (settled : (proxyFor account).key ∈ (pools.get pool).proxies.keys ↔ ready = true) :
    superviseAccount task.pools pools (account, ready) = pools := by
  have present : pools.contains pool ("openvpn://" ++ account.name) = ready := by
    rw [Bool.eq_iff_iff, contains_leaf childless]
    exact settled
  unfold superviseAccount
  dsimp only
  rw [found]
  dsimp only
  rw [present]
  cases ready with
  | true => rfl
  | false => rfl

/-- Otherwise the turn settles the account. -/
theorem superviseAccount_of_unsettled {account : VpnAccount τ} {ready : Bool} {pool : PoolId}
    (found : task.pools.lookup account.region = some pool)
    (childless : (pools.get pool).children = [])
    (unsettled : ¬ ((proxyFor account).key ∈ (pools.get pool).proxies.keys ↔ ready = true)) :
    superviseAccount task.pools pools (account, ready) =
      pools.modify pool fun cell =>
        { cell with proxies := cell.proxies.settle (account, ready) } := by
  have present : pools.contains pool ("openvpn://" ++ account.name) = !ready := by
    rw [← contains_leaf childless] at unsettled
    change ¬ (pools.contains pool ("openvpn://" ++ account.name) = true ↔ _) at unsettled
    cases answer : pools.contains pool ("openvpn://" ++ account.name) with
    | true =>
        cases ready with
        | true => exact absurd (by simp [answer]) unsettled
        | false => rfl
    | false =>
        cases ready with
        | true => rfl
        | false => exact absurd (by simp [answer]) unsettled
  unfold superviseAccount
  dsimp only
  rw [found]
  dsimp only
  rw [present]
  cases ready with
  | true => rfl
  | false => rfl

/-- A turn settles the account in the pool of its region, and leaves the others. -/
theorem get_superviseAccount_settle (wired : task.Wired pools) (account : VpnAccount τ × Bool)
    (pool : PoolId) :
    (superviseAccount task.pools pools account).get pool =
      if task.pools.lookup account.1.region = some pool then
        { pools.get pool with proxies := (pools.get pool).proxies.settle account }
      else pools.get pool := by
  obtain ⟨account, ready⟩ := account
  cases found : task.pools.lookup account.region with
  | none =>
      unfold superviseAccount
      dsimp only
      rw [found]
      rfl
  | some own =>
      have entry : (account.region, own) ∈ task.pools := mem_of_lookup found
      have childless := wired.childless _ entry
      by_cases settled : (proxyFor account).key ∈ (pools.get own).proxies.keys ↔ ready = true
      · rw [superviseAccount_of_settled found childless settled]
        split
        · next same =>
            cases same
            rw [Proxies.settle_of_settled settled]
        · rfl
      · rw [superviseAccount_of_unsettled found childless settled]
        split
        · next same =>
            cases same
            exact Arena.get_modify_self _ _ (wired.known _ entry)
        · next different =>
            exact Arena.get_modify_of_ne _ _ fun same => different (congrArg some same)

theorem superviseAccount_shape (wired : task.Wired pools) (account : VpnAccount τ × Bool) :
    SameShape pools (superviseAccount task.pools pools account) where
  size := by
    unfold superviseAccount
    split
    · rfl
    · dsimp only
      split
      · exact Arena.size_modify ..
      · exact Arena.size_modify ..
      · rfl
  children := by
    intro pool
    rw [get_superviseAccount_settle wired account pool]
    split
    · rfl
    · rfl

/-- A pass settles the accounts of a pool's region, one after the other. -/
theorem get_superviseAll (accounts : List (VpnAccount τ × Bool)) (pool : PoolId)
    (wired : task.Wired pools) :
    SameShape pools (accounts.foldl (superviseAccount task.pools) pools) ∧
    ((accounts.foldl (superviseAccount task.pools) pools).get pool).proxies =
      (accounts.filter fun account =>
        task.pools.lookup account.1.region = some pool).foldl Proxies.settle
          (pools.get pool).proxies := by
  induction accounts generalizing pools with
  | nil => exact ⟨⟨rfl, fun _ => rfl⟩, rfl⟩
  | cons account rest inductionHypothesis =>
      have shape := superviseAccount_shape wired account
      obtain ⟨restShape, proxies⟩ := inductionHypothesis (wired.shape shape)
      refine ⟨shape.trans restShape, ?_⟩
      rw [List.foldl_cons, proxies, get_superviseAccount_settle wired account pool,
        List.filter_cons]
      by_cases own : task.pools.lookup account.1.region = some pool
      · rw [if_pos own, if_pos (decide_eq_true own), List.foldl_cons]
      · rw [if_neg own, if_neg (by simpa using own)]

theorem superviseAll_of_settled {regions : List (String × PoolId)}
    {accounts : List (VpnAccount τ × Bool)}
    (settled : ∀ account ∈ accounts, superviseAccount regions pools account = pools) :
    accounts.foldl (superviseAccount regions) pools = pools := by
  induction accounts with
  | nil => rfl
  | cons account rest inductionHypothesis =>
      rw [List.foldl_cons, settled account List.mem_cons_self]
      exact inductionHypothesis fun other member => settled other (List.mem_cons_of_mem _ member)

/-! ### What `attach` hands to `supervise` -/

/-- The regions so far have names and pools of their own. -/
structure Allotted (regions : List (String × PoolId)) (pools : Pools τ) : Prop where
  names : (regions.map Prod.fst).Nodup
  distinct : (regions.map Prod.snd).Nodup
  known : ∀ entry ∈ regions, entry.2 < pools.size

/-- A turn of the first loop of `attach` finds or makes the account's region. -/
theorem Allotted.sort {regions : List (String × PoolId)} (allotted : Allotted regions pools)
    (account : VpnAccount τ × Bool) :
    Allotted (sort (regions, pools) account).1 (sort (regions, pools) account).2 ∧
      account.1.region ∈ (sort (regions, pools) account).1.map Prod.fst ∧
      regions.map Prod.fst ⊆ (sort (regions, pools) account).1.map Prod.fst := by
  obtain ⟨account, ready⟩ := account
  have pushed : ∀ (pools : Pools τ) (pool : PoolId), Arena.size
      (if ready then pools.push pool (proxyFor account) else pools) = pools.size := by
    intro pools pool
    split
    · exact Arena.size_modify ..
    · rfl
  unfold Provider.sort
  dsimp only
  cases found : regions.lookup account.region with
  | some pool =>
      have here : account.region ∈ regions.map Prod.fst :=
        List.mem_map_of_mem (mem_of_lookup found)
      refine ⟨⟨allotted.names, allotted.distinct, ?_⟩, here, List.Subset.refl _⟩
      intro entry member
      rw [pushed]
      exact allotted.known entry member
  | none =>
      have perm := List.perm_orderedInsert
        (fun left right : String × PoolId => left.1 ≤ right.1) (account.region, pools.size) regions
      have size : Arena.size (pools.new .empty).2 = pools.size + 1 := Arena.size_alloc _ _
      have unknown : account.region ∉ regions.map Prod.fst := by
        intro member
        obtain ⟨entry, inside, same⟩ := List.mem_map.mp member
        have different := List.lookup_eq_none_iff.mp found entry inside
        simp [same] at different
      have unused : pools.size ∉ regions.map Prod.snd := by
        intro member
        obtain ⟨entry, inside, same⟩ := List.mem_map.mp member
        exact Nat.ne_of_lt (allotted.known entry inside) same
      refine ⟨⟨?_, ?_, ?_⟩, ?_, ?_⟩
      · exact (perm.map Prod.fst).nodup_iff.mpr (List.nodup_cons.mpr ⟨unknown, allotted.names⟩)
      · exact (perm.map Prod.snd).nodup_iff.mpr (List.nodup_cons.mpr ⟨unused, allotted.distinct⟩)
      · intro entry member
        rw [pushed, size]
        rcases List.mem_cons.mp (perm.mem_iff.mp member) with rfl | old
        · exact Nat.lt_succ_self _
        · exact Nat.lt_succ_of_lt (allotted.known entry old)
      · exact (perm.map Prod.fst).mem_iff.mpr List.mem_cons_self
      · intro region member
        exact (perm.map Prod.fst).mem_iff.mpr (List.mem_cons_of_mem _ member)

theorem Allotted.sortAll (accounts : List (VpnAccount τ × Bool))
    (state : List (String × PoolId) × Pools τ) (allotted : Allotted state.1 state.2) :
    Allotted (accounts.foldl Provider.sort state).1 (accounts.foldl Provider.sort state).2 ∧
      (∀ account ∈ accounts,
        account.1.region ∈ (accounts.foldl Provider.sort state).1.map Prod.fst) ∧
      state.1.map Prod.fst ⊆ (accounts.foldl Provider.sort state).1.map Prod.fst := by
  induction accounts generalizing state with
  | nil => exact ⟨allotted, fun _ member => absurd member List.not_mem_nil, List.Subset.refl _⟩
  | cons account rest inductionHypothesis =>
      obtain ⟨next, here, kept⟩ := allotted.sort account
      obtain ⟨last, later, keptLater⟩ := inductionHypothesis _ next
      refine ⟨last, ?_, List.Subset.trans kept keptLater⟩
      intro other member
      rcases List.mem_cons.mp member with rfl | old
      · exact keptLater here
      · exact later other old

/-- What of `Wired` is about the task alone. -/
structure Placed (task : Supervised τ) : Prop where
  regions : (task.pools.map Prod.fst).Nodup
  distinct : (task.pools.map Prod.snd).Nodup
  covered : ∀ account ∈ task.accounts, ∃ pool, task.pools.lookup account.region = some pool

theorem supervised_register (provider : Provider τ RotatingTransport) (protocol : Protocol)
    (region : String) (pool : PoolId) :
    (register wreqFactory provider protocol region pool).supervised = provider.supervised := rfl

theorem supervised_registerAll (regions : List (String × PoolId))
    (provider : Provider τ RotatingTransport) :
    (regions.foldl (fun provider (region, pool) =>
      register wreqFactory provider .vpn region pool) provider).supervised =
        provider.supervised := by
  induction regions generalizing provider with
  | nil => rfl
  | cons entry rest inductionHypothesis =>
      rw [List.foldl_cons, inductionHypothesis]
      exact supervised_register provider .vpn entry.1 entry.2

theorem placed_attach (accounts : List (VpnAccount τ × Bool)) (pools : Pools τ) :
    Placed { accounts := accounts.map Prod.fst
             pools := (accounts.foldl Provider.sort ([], pools)).1 } := by
  have start : Allotted ([] : List (String × PoolId)) pools :=
    ⟨List.nodup_nil, List.nodup_nil, fun _ member => absurd member List.not_mem_nil⟩
  obtain ⟨allotted, here, -⟩ := Allotted.sortAll accounts ([], pools) start
  refine ⟨allotted.names, allotted.distinct, ?_⟩
  intro account member
  obtain ⟨given, inside, rfl⟩ := List.mem_map.mp member
  obtain ⟨entry, found, same⟩ := List.mem_map.mp (here given inside)
  apply Option.isSome_iff_exists.mp
  apply List.lookup_isSome_iff.mpr
  exact ⟨entry, found, by simp [same]⟩

theorem placed_step {provider : Provider τ RotatingTransport}
    (placed : ∀ task ∈ provider.supervised, Placed task) (call : Call τ) :
    ∀ task ∈ (provider.step wreqFactory call).supervised, Placed task := by
  cases call with
  | add region tunnel => exact placed
  | attach accounts =>
      intro task member
      change task ∈ Provider.supervised (List.foldl _ _ _) ++ [_] at member
      rw [supervised_registerAll] at member
      rcases List.mem_append.mp member with old | new
      · exact placed task old
      · rw [List.mem_singleton.mp new]
        exact placed_attach accounts provider.pools
  | supervise task ready =>
      change ∀ other ∈ (provider.supervise task ready).supervised, _
      unfold supervise
      split
      · exact placed
      · exact placed

/-- The tasks of a provider have the pools they need. -/
theorem wired_run (calls : List (Call τ)) {task : Supervised τ}
    (member : task ∈ (run wreqFactory calls : Provider τ RotatingTransport).supervised) :
    task.Wired (run wreqFactory calls : Provider τ RotatingTransport).pools := by
  have consistent := consistent_run (τ := τ) calls
  have kept : ∀ (provider : Provider τ RotatingTransport) (call : Call τ),
      (∀ task ∈ provider.supervised, Placed task) →
      ∀ task ∈ (provider.step wreqFactory call).supervised, Placed task :=
    fun _ call placed => placed_step placed call
  have placed : Placed task :=
    run_always kept calls (fun _ none => absurd none List.not_mem_nil) task member
  refine ⟨placed.regions, placed.distinct, placed.covered, ?_, ?_⟩
  · intro entry inside
    obtain ⟨registration, registered, -, same⟩ := consistent.supervised task member entry inside
    rw [← same]
    exact consistent.known _ (List.mem_cons_of_mem _
      (List.mem_append_left _ (List.mem_map_of_mem registered)))
  · intro entry inside
    obtain ⟨registration, registered, -, same⟩ := consistent.supervised task member entry inside
    rw [← same]
    exact (consistent.holds registration registered).childless

/-! ### One pass -/

/-- The entry belongs to no account of this region. -/
def foreign (task : Supervised τ) (region : String) (proxy : PoolProxy τ) : Bool :=
  task.accounts.all fun account =>
    decide (account.region ≠ region) || decide ((proxyFor account).key ≠ proxy.key)

theorem region_of_lookup (wired : task.Wired pools) {entry : String × PoolId}
    (member : entry ∈ task.pools) {region : String}
    (found : task.pools.lookup region = some entry.2) : region = entry.1 :=
  congrArg Prod.fst
    (List.inj_on_of_nodup_map wired.distinct (mem_of_lookup found) member rfl)

/-- The accounts with their answers. -/
def answers (task : Supervised τ) (ready : VpnAccount τ → Bool) : List (VpnAccount τ × Bool) :=
  task.accounts.map fun account => (account, ready account)

/-- What `supervise` does in a pass with these answers. -/
def pass (task : Supervised τ) (ready : VpnAccount τ → Bool) (pools : Pools τ) : Pools τ :=
  (answers task ready).foldl (superviseAccount task.pools) pools

theorem supervise_pass {provider : Provider τ RotatingTransport} {index : Nat}
    (attached : provider.supervised[index]? = some task) (ready : VpnAccount τ → Bool) :
    provider.supervise index (task.accounts.map ready) =
      { provider with pools := pass task ready provider.pools } := by
  have zipped : task.accounts.zip (task.accounts.map ready) = answers task ready := by
    have mapped := @List.zip_map' _ _ _ id ready task.accounts
    rwa [List.map_id] at mapped
  unfold supervise
  rw [attached]
  dsimp only
  rw [zipped]
  rfl

theorem pass_settled (wired : task.Wired pools)
    (names : (task.accounts.map VpnAccount.name).Nodup) (ready : VpnAccount τ → Bool)
    {account : VpnAccount τ} (member : account ∈ task.accounts) :
    ∃ pool, task.pools.lookup account.region = some pool ∧
      ((proxyFor account).key ∈ ((pass task ready pools).get pool).proxies.keys ↔
        ready account = true) := by
  obtain ⟨pool, found⟩ := wired.covered account member
  refine ⟨pool, found, ?_⟩
  rw [pass, (get_superviseAll (answers task ready) pool wired).2]
  have own : (account, ready account) ∈ (answers task ready).filter fun account =>
      task.pools.lookup account.1.region = some pool :=
    List.mem_filter.mpr ⟨List.mem_map_of_mem member, decide_eq_true found⟩
  have distinct : (((answers task ready).filter fun account =>
      task.pools.lookup account.1.region = some pool).map fun account => account.1.name).Nodup := by
    refine List.Nodup.sublist (List.filter_sublist.map _) ?_
    rw [answers, List.map_map]
    exact names
  exact Proxies.mem_keys_settleAll distinct own _

/-- The entries of others stay as they are, in their order. -/
theorem pass_foreign {task : Supervised τ} {pools : Pools τ} (wired : task.Wired pools)
    (ready : VpnAccount τ → Bool) {entry : String × PoolId} (member : entry ∈ task.pools) :
    ((pass task ready pools).get entry.2).proxies.list.filter (foreign task entry.1) =
      (pools.get entry.2).proxies.list.filter (foreign task entry.1) := by
  rw [pass, (get_superviseAll (answers task ready) entry.2 wired).2]
  apply Proxies.filter_settleAll
  intro answer inside proxy sameKey
  obtain ⟨answered, lookedUp⟩ := List.mem_filter.mp inside
  obtain ⟨account, accountMember, rfl⟩ := List.mem_map.mp answered
  have region := region_of_lookup wired member (of_decide_eq_true lookedUp)
  apply Bool.eq_false_iff.mpr
  intro others
  rcases (Bool.or_eq_true _ _).mp (List.all_eq_true.mp others account accountMember) with
    elsewhere | different
  · exact of_decide_eq_true elsewhere region
  · exact of_decide_eq_true different sameKey.symm

/-- A second pass with the same answers finds nothing to do. -/
theorem pass_pass {task : Supervised τ} {pools : Pools τ} (wired : task.Wired pools)
    (names : (task.accounts.map VpnAccount.name).Nodup) (ready : VpnAccount τ → Bool) :
    pass task ready (pass task ready pools) = pass task ready pools := by
  have wiredAfter := wired.shape (get_superviseAll (answers task ready) 0 wired).1
  apply superviseAll_of_settled
  intro answer answered
  obtain ⟨account, member, rfl⟩ := List.mem_map.mp answered
  obtain ⟨pool, found, agrees⟩ := pass_settled wired names ready member
  exact superviseAccount_of_settled found (wiredAfter.childless _ (mem_of_lookup found)) agrees

/-- A pass puts the entry of an account into the pool of its region exactly if the
account is ready. No key is there twice, the entries of others are as before, and
a second pass changes nothing. -/
theorem supervise_synchronises {calls : List (Call τ)} {index : Nat} {task : Supervised τ}
    (attached : (run wreqFactory calls : Provider τ RotatingTransport).supervised[index]? =
      some task)
    (names : (task.accounts.map VpnAccount.name).Nodup)
    {pools : Pools τ} (shape : SameShape (run wreqFactory calls : Provider τ _).pools pools)
    (ready : VpnAccount τ → Bool) {provider passed : Provider τ RotatingTransport}
    (before : provider = { run wreqFactory calls with pools })
    (after : passed = provider.supervise index (task.accounts.map ready)) :
    (∀ account ∈ task.accounts, ∃ pool, task.pools.lookup account.region = some pool ∧
      ((proxyFor account).key ∈ (passed.pools.get pool).proxies.keys ↔ ready account = true)) ∧
    (∀ pool, (passed.pools.get pool).proxies.keys.Nodup) ∧
    (∀ entry ∈ task.pools,
      (passed.pools.get entry.2).proxies.list.filter (foreign task entry.1) =
        (provider.pools.get entry.2).proxies.list.filter (foreign task entry.1)) ∧
    passed.supervise index (task.accounts.map ready) = passed := by
  have wired : task.Wired pools :=
    (wired_run calls (List.mem_of_getElem? attached)).shape shape
  have attachedHere : provider.supervised[index]? = some task := by
    rw [before]
    exact attached
  have same : provider.pools = pools := by rw [before]
  rw [supervise_pass attachedHere, same] at after
  have poolsAfter : passed.pools = pass task ready pools := by rw [after]
  have attachedAfter : passed.supervised[index]? = some task := by
    rw [after]
    exact attachedHere
  have again : passed.supervise index (task.accounts.map ready) = passed := by
    rw [supervise_pass attachedAfter, poolsAfter, pass_pass wired names ready, ← poolsAfter]
  rw [poolsAfter, same]
  exact ⟨fun _ member => pass_settled wired names ready member, fun pool => Proxies.distinct _,
    fun _ member => pass_foreign wired ready member, again⟩

/-- Two accounts of one region, of which the first was ready at `attach`. -/
def twoAccounts : Supervised Nat where
  accounts := [⟨"a", "UN", 1⟩, ⟨"b", "UN", 2⟩]
  pools := [("UN", 1)]

def twoAttached : List (Call Nat) :=
  [.attach [(⟨"a", "UN", 1⟩, true), (⟨"b", "UN", 2⟩, false)]]

/-- In the next pass the second is ready instead. -/
theorem supervise_synchronises_two :
    (run wreqFactory twoAttached : Provider Nat RotatingTransport).supervised[0]? =
        some twoAccounts ∧
      ((run wreqFactory twoAttached : Provider Nat RotatingTransport).supervise 0
        [false, true]).supervise 0 [false, true] =
          (run wreqFactory twoAttached).supervise 0 [false, true] :=
  have attached : (run wreqFactory twoAttached : Provider Nat RotatingTransport).supervised[0]? =
      some twoAccounts := by decide
  ⟨attached, (supervise_synchronises attached (by decide) ⟨rfl, fun _ => rfl⟩
    (fun account => account.tunnel == 2) rfl rfl).2.2.2⟩

end Provider

end Unroxy.Proxy
