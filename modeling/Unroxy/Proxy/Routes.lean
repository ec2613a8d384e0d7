import Unroxy.Proxy.Registry

/-!
Owns `build` of `config.rs` and what the routes of the protocols lead to.

`build` attaches the VPN accounts, starts the SSH regions and then makes a route
for each protocol. The passes of `supervise` come between all of this and after.

Does not own the routes of regions.
-/

namespace Unroxy.Proxy

open Unroxy.Lib

variable {τ φ : Type}

/-! ### `build` -/

/-- An account of `ssh/account.rs`; only its region is read here. -/
structure SshAccount where
  region : String
deriving DecidableEq, Repr

namespace SshAccount

/-- A turn of the loop of `group_by_region`, over the entries of a `BTreeMap`. -/
def group (grouped : List (String × List SshAccount)) (account : SshAccount) :
    List (String × List SshAccount) :=
  if account.region.isEmpty then grouped
  else
    match grouped.lookup account.region with
    | some _ => grouped.map fun entry =>
        if entry.1 = account.region then (entry.1, entry.2 ++ [account]) else entry
    | none => grouped.orderedInsert (fun left right => left.1 ≤ right.1)
        (account.region, [account])

def groupByRegion (accounts : List SshAccount) : List (String × List SshAccount) :=
  accounts.foldl group []

end SshAccount

/-- What happens to a provider while it is built and afterwards. -/
inductive Setup (τ : Type) where
  | call (call : Call τ)
  | route (protocol : Protocol)
deriving DecidableEq, Repr

/-- Not a pass of `supervise`, which is a task of its own. -/
def Setup.built : Setup τ → Bool
  | .call (.supervise ..) => false
  | _ => true

namespace Provider

/-- A turn of the last loop of `build`. -/
def route (factory : ForwardFactory φ) (self : Provider τ φ) (protocol : Protocol) :
    Provider τ φ :=
  let (pool, pools) := self.pools.new .empty
  match factory.protocolForward protocol pool with
  | some forward =>
      { self with pools, handler := self.handler.setProtocolRoute protocol pool forward }
  | none => { self with pools }

def setup (factory : ForwardFactory φ) (self : Provider τ φ) : Setup τ → Provider τ φ
  | .call call => self.step factory call
  | .route protocol => self.route factory protocol

/-- `start`: the regions for which `run_region` returned a tunnel. -/
def start (accounts : List SshAccount) (runRegion : String → Nat → Option τ) : List (Setup τ) :=
  (SshAccount.groupByRegion accounts).filterMap fun (region, accounts) =>
    (runRegion region accounts.length).map fun tunnel => .call (.add region tunnel)

/-- `build`, step by step. -/
def build (vpn : List (VpnAccount τ × Bool)) (ssh : List SshAccount)
    (runRegion : String → Nat → Option τ) : List (Setup τ) :=
  .call (.attach vpn) :: start ssh runRegion ++ [.route .ssh, .route .vpn]

/-- The route of the protocol chooses from all its proxies that a region has, and
from no others. -/
def Covers (provider : Provider τ RotatingTransport) (protocol : Protocol) : Prop :=
  ∃ forward, provider.handler.forwardFor "" (some protocol) = some forward ∧
    (∀ region ∈ provider.handler.regions,
      ∀ candidate ∈ provider.pools.candidates (region.pool provider.pools none).1,
        candidate.protocol = protocol → candidate ∈ forward.candidates provider.pools) ∧
    ∀ candidate ∈ forward.candidates provider.pools, candidate.protocol = protocol

/-! ### A route's pool stays empty -/

/-- A pool that nothing refers to, with nothing in it. -/
structure Spare (provider : Provider τ φ) (pool : PoolId) : Prop where
  known : pool < provider.pools.size
  apart : pool ∉ provider.ids
  bare : provider.pools.get pool = ⟨.empty, 0, []⟩

/-- The protocol has a route, and it leads to a spare pool. -/
def Routed (provider : Provider τ RotatingTransport) (protocol : Protocol) : Prop :=
  ∃ pool, provider.Spare pool ∧
    (provider.handler.protocolForwards.find? fun known => known.1 = protocol) =
      some (protocol, ⟨pool, some protocol⟩)

theorem candidates_of_spare {provider : Provider τ φ} {pool : PoolId} (spare : provider.Spare pool)
    (protocol : Protocol) :
    RotatingTransport.candidates ⟨pool, some protocol⟩ provider.pools = [] := by
  have leaf : provider.pools.view pool = .node .empty 0 [] := by
    rw [Pools.view_of_leaf _ (by rw [spare.bare]), Pools.leaf, spare.bare]
  rw [RotatingTransport.candidates]
  dsimp only
  rw [Pools.candidatesFor, leaf]
  rfl

theorem Routed.covers_iff_absent {provider : Provider τ RotatingTransport} {protocol : Protocol}
    (routed : provider.Routed protocol) :
    provider.Covers protocol ↔
      ∀ region ∈ provider.handler.regions,
        ∀ candidate ∈ provider.pools.candidates (region.pool provider.pools none).1,
          candidate.protocol ≠ protocol := by
  obtain ⟨pool, spare, found⟩ := routed
  have route : provider.handler.forwardFor "" (some protocol) = some ⟨pool, some protocol⟩ := by
    change (provider.handler.protocolForwards.find? _).map Prod.snd = _
    rw [found]
    rfl
  have nothing := candidates_of_spare spare protocol
  constructor
  · rintro ⟨forward, chosen, covered, _⟩ region isRegion candidate member same
    rw [route] at chosen
    have inside := covered region isRegion candidate member same
    rw [← Option.some.inj chosen, nothing] at inside
    cases inside
  · intro absent
    refine ⟨_, route, ?_, ?_⟩
    · intro region isRegion candidate member same
      exact absurd same (absent region isRegion candidate member)
    · rw [nothing]
      exact fun _ member => absurd member List.not_mem_nil

/-- A turn of `supervise` leaves the pools alone that it has no entry for. -/
theorem get_superviseAccount {regions : List (String × PoolId)} {pool : PoolId}
    (apart : ∀ entry ∈ regions, entry.2 ≠ pool) (pools : Pools τ)
    (account : VpnAccount τ × Bool) :
    (superviseAccount regions pools account).get pool = pools.get pool ∧
      (superviseAccount regions pools account).size = pools.size := by
  rw [superviseAccount]
  split
  · exact ⟨rfl, rfl⟩
  · next other found =>
      have different := apart _ (mem_of_lookup found)
      dsimp only
      split
      · exact ⟨Arena.get_modify_of_ne _ _ different, Arena.size_modify ..⟩
      · exact ⟨Arena.get_modify_of_ne _ _ different, Arena.size_modify ..⟩
      · exact ⟨rfl, rfl⟩

theorem get_superviseAccounts {regions : List (String × PoolId)} {pool : PoolId}
    (apart : ∀ entry ∈ regions, entry.2 ≠ pool) (accounts : List (VpnAccount τ × Bool)) :
    ∀ pools : Pools τ,
      (accounts.foldl (superviseAccount regions) pools).get pool = pools.get pool ∧
        (accounts.foldl (superviseAccount regions) pools).size = pools.size := by
  induction accounts with
  | nil => exact fun _ => ⟨rfl, rfl⟩
  | cons account rest inductionHypothesis =>
      intro pools
      obtain ⟨cell, size⟩ := get_superviseAccount apart pools account
      obtain ⟨restCell, restSize⟩ := inductionHypothesis (superviseAccount regions pools account)
      exact ⟨restCell.trans cell, restSize.trans size⟩

section Kept

variable {provider : Provider τ RotatingTransport}

/-- The pools of `supervise` are registered, so a spare pool is none of them. -/
theorem Spare.supervise {pool : PoolId} (spare : provider.Spare pool)
    (consistent : provider.Consistent) (task : Nat) (ready : List Bool) :
    (provider.supervise task ready).Spare pool := by
  rw [Provider.supervise]
  split
  · exact spare
  · next accounts regions found =>
      have apart : ∀ entry ∈ regions, entry.2 ≠ pool := by
        rintro entry member rfl
        obtain ⟨registration, registered, _, same⟩ :=
          consistent.supervised _ (List.mem_of_getElem? found) entry member
        apply spare.apart
        rw [← same]
        exact List.mem_cons_of_mem _ (List.mem_append_left _ (List.mem_map_of_mem registered))
      obtain ⟨cell, size⟩ :=
        get_superviseAccounts apart (accounts.zip ready) provider.pools
      constructor
      · change pool < Arena.size (List.foldl _ _ _)
        rw [size]
        exact spare.known
      · exact spare.apart
      · change Arena.get (List.foldl _ _ _) pool = _
        rw [cell]
        exact spare.bare

theorem handler_supervise (task : Nat) (ready : List Bool) :
    (provider.supervise task ready).handler = provider.handler := by
  rw [Provider.supervise]
  split
  · rfl
  · rfl

theorem Routed.supervise {protocol : Protocol} (routed : provider.Routed protocol)
    (consistent : provider.Consistent) (task : Nat) (ready : List Bool) :
    (provider.supervise task ready).Routed protocol := by
  obtain ⟨pool, spare, found⟩ := routed
  refine ⟨pool, spare.supervise consistent task ready, ?_⟩
  rw [handler_supervise]
  exact found

theorem ids_route (protocol : Protocol) : (provider.route wreqFactory protocol).ids = provider.ids :=
  rfl

theorem consistent_route (consistent : provider.Consistent) (protocol : Protocol) :
    (provider.route wreqFactory protocol).Consistent := by
  have extended : Consistent { provider with pools := (provider.pools.new .empty).2 } := by
    apply consistent.extend
    · rw [Pools.new, Arena.size_alloc]
      exact Nat.le_succ _
    · exact fun pool known => Arena.get_alloc_of_lt _ _ known
  exact { extended with }

/-- The new route leads to a pool of its own. -/
theorem routed_route (consistent : provider.Consistent) (protocol : Protocol) :
    (provider.route wreqFactory protocol).Routed protocol := by
  refine ⟨provider.pools.size, ⟨?_, ?_, ?_⟩, ?_⟩
  · change provider.pools.size < Arena.size (provider.pools.alloc _).2
    rw [Arena.size_alloc]
    exact Nat.lt_succ_self _
  · rw [ids_route]
    exact fun member => Nat.lt_irrefl _ (consistent.known _ member)
  · exact Arena.get_alloc_size _ _
  · change ((provider.handler.protocolForwards.filter _ ++ [_]).find? _) = _
    rw [List.find?_append, List.find?_filter, List.find?_eq_none.mpr]
    · simp
    · simp

/-- The route of another protocol changes nothing. -/
theorem Routed.route {protocol other : Protocol} (routed : provider.Routed protocol)
    (different : other ≠ protocol) : (provider.route wreqFactory other).Routed protocol := by
  obtain ⟨pool, spare, found⟩ := routed
  refine ⟨pool, ⟨?_, ?_, ?_⟩, ?_⟩
  · change pool < Arena.size (provider.pools.alloc _).2
    rw [Arena.size_alloc]
    exact Nat.lt_succ_of_lt spare.known
  · rw [ids_route]
    exact spare.apart
  · change Arena.get (provider.pools.alloc _).2 pool = _
    rw [Arena.get_alloc_of_lt _ _ spare.known]
    exact spare.bare
  · change ((provider.handler.protocolForwards.filter _ ++ [_]).find? _) = _
    have passes (known : Protocol × RotatingTransport) (isProtocol : known.1 = protocol) :
        known.1 ≠ other := by
      rw [isProtocol]
      exact different.symm
    have kept : ((provider.handler.protocolForwards.filter fun known => known.1 ≠ other).find?
        fun known => known.1 = protocol) = some (protocol, ⟨pool, some protocol⟩) := by
      rw [List.find?_filter, ← found]
      congr 1
      funext known
      simp only [decide_eq_true_eq, decide_eq_decide]
      exact ⟨fun both => both.2, fun isProtocol => ⟨passes known isProtocol, isProtocol⟩⟩
    rw [List.find?_append, kept]
    rfl

/-- Passes of `supervise` and routes keep a route that is there and make those
that are not. -/
theorem routed_setup {protocol : Protocol} (steps : List (Setup τ)) :
    ∀ {provider : Provider τ RotatingTransport}, provider.Consistent →
      (∀ action ∈ steps, action.built → ∃ other, action = .route other) →
      (provider.Routed protocol ∨ .route protocol ∈ steps) →
      (Lib.run (setup wreqFactory) provider steps).Routed protocol := by
  induction steps with
  | nil =>
      intro provider _ _ routed
      exact routed.resolve_right List.not_mem_nil
  | cons action rest inductionHypothesis =>
      intro provider consistent only routed
      have onlyRest (later : Setup τ) (member : later ∈ rest) :=
        only later (List.mem_cons_of_mem _ member)
      match action with
      | .call (.supervise task ready) =>
          apply inductionHypothesis (consistent.supervise task ready) onlyRest
          rcases routed with before | later
          · exact .inl (before.supervise consistent task ready)
          · exact .inr (List.mem_of_ne_of_mem (by simp) later)
      | .route other =>
          apply inductionHypothesis (consistent_route consistent other) onlyRest
          by_cases same : other = protocol
          · subst same
            exact .inl (routed_route consistent other)
          · rcases routed with before | later
            · exact .inl (before.route same)
            · exact .inr (List.mem_of_ne_of_mem (by simpa using Ne.symm same) later)
      | .call (.add region tunnel) =>
          obtain ⟨other, isRoute⟩ := only _ List.mem_cons_self rfl
          cases isRoute
      | .call (.attach accounts) =>
          obtain ⟨other, isRoute⟩ := only _ List.mem_cons_self rfl
          cases isRoute

end Kept

theorem consistent_setup (steps : List (Setup τ)) :
    (Lib.run (setup wreqFactory) (new wreqFactory) steps).Consistent := by
  have kept (provider : Provider τ RotatingTransport) (action : Setup τ)
      (consistent : provider.Consistent) : (provider.setup wreqFactory action).Consistent := by
    cases action with
    | call call => exact consistent_step consistent call
    | route protocol => exact consistent_route consistent protocol
  exact run_always kept steps consistent_new

/-- However passes of `supervise` come between and after the steps of `build`, the
route of a protocol covers it exactly as long as no region has a proxy of it. -/
theorem covers_iff (vpn : List (VpnAccount τ × Bool)) (ssh : List SshAccount)
    (runRegion : String → Nat → Option τ) (steps : List (Setup τ))
    (built : steps.filter Setup.built = build vpn ssh runRegion) (protocol : Protocol) :
    let provider := Lib.run (setup wreqFactory) (new wreqFactory) steps
    provider.Covers protocol ↔
      ∀ region ∈ provider.handler.regions,
        ∀ candidate ∈ provider.pools.candidates (region.pool provider.pools none).1,
          candidate.protocol ≠ protocol := by
  intro provider
  obtain ⟨before, after, rfl, _, routes⟩ := List.filter_eq_append_iff.mp built
  apply Routed.covers_iff_absent
  change (Lib.run (setup wreqFactory) (new wreqFactory) (before ++ after)).Routed protocol
  rw [run_append]
  apply routed_setup after (consistent_setup before)
  · intro action member isBuilt
    have isRoute : action ∈ [Setup.route .ssh, .route .vpn] := by
      rw [← routes]
      exact List.mem_filter.mpr ⟨member, isBuilt⟩
    rcases List.mem_cons.mp isRoute with isSsh | isVpn
    · exact ⟨.ssh, isSsh⟩
    · exact ⟨.vpn, List.mem_singleton.mp isVpn⟩
  · have made : Setup.route protocol ∈ after.filter Setup.built := by
      rw [routes]
      cases protocol with
      | ssh => exact List.mem_cons_self
      | vpn => exact List.mem_cons_of_mem _ List.mem_cons_self
    exact .inr (List.mem_of_mem_filter made)

/-- One SSH region, which starts, and a VPN account that stays down. -/
def vpnDown : List (Setup Nat) :=
  build [(⟨"vpn-us", "US", 1⟩, false)] [⟨"US"⟩, ⟨""⟩] (fun _ count => some count) ++
    [Setup.call (.supervise 0 [false])]

theorem covers_vpn_down :
    vpnDown.filter Setup.built = build [(⟨"vpn-us", "US", 1⟩, false)] [⟨"US"⟩, ⟨""⟩]
        (fun _ count => some count) ∧
      (Lib.run (setup wreqFactory) (new wreqFactory) vpnDown).Covers .vpn := by
  have built : vpnDown.filter Setup.built =
      build [(⟨"vpn-us", "US", 1⟩, false)] [⟨"US"⟩, ⟨""⟩] (fun _ count => some count) := by
    decide
  exact ⟨built, (covers_iff _ _ _ vpnDown built .vpn).mpr (by decide)⟩

/-- A region that started is not on the route of SSH. -/
theorem not_covers_ssh :
    ¬ ∀ (vpn : List (VpnAccount Nat × Bool)) (ssh : List SshAccount)
      (runRegion : String → Nat → Option Nat) (steps : List (Setup Nat)),
      steps.filter Setup.built = build vpn ssh runRegion → ∀ protocol,
        (Lib.run (setup wreqFactory) (new wreqFactory) steps).Covers protocol := by
  intro covers
  obtain ⟨forward, chosen, covered, _⟩ :=
    covers [(⟨"vpn-us", "US", 1⟩, false)] [⟨"US"⟩, ⟨""⟩] (fun _ count => some count) vpnDown
      (by decide) .ssh
  have route : (Lib.run (setup wreqFactory) (new wreqFactory) vpnDown).handler.forwardFor ""
      (some .ssh) = some ⟨5, some .ssh⟩ := by
    decide
  cases chosen.symm.trans route
  have absent := covered _ (List.mem_of_head? rfl) ⟨"ssh://US", 1, 0, .ssh⟩ (by decide) rfl
  revert absent
  decide

end Provider

end Unroxy.Proxy
