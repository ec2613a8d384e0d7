import Mathlib.Data.List.Sort
import Unroxy.Lib.Run
import Unroxy.Proxy.Server

/-!
Owns how regions come into the proxy: `Provider` of `proxy/provider.rs`, `attach`
and `supervise` of `vpn/mod.rs`, and the `WreqFactory` of `forward.rs`.

`registered` records what was registered, in order; no modelled function reads
it. `supervise` is a task of its own, here a pass of it at any time.

Does not own the SSH and VPN tunnels.
-/

namespace Unroxy.Proxy

variable {τ φ : Type}

structure ForwardFactory (φ : Type) where
  regionForward : String → PoolId → Option φ
  protocolForward : Protocol → PoolId → Option φ
  defaultForward : PoolId → Option φ

/-- `RotatingTransport`, all that a `WreqForward` has. -/
structure RotatingTransport where
  pool : PoolId
  protocol : Option Protocol
deriving DecidableEq, Repr

/-- The candidates `ready_candidate` chooses from. -/
def RotatingTransport.candidates (self : RotatingTransport) (pools : Pools τ) :
    List (Candidate τ) :=
  match self.protocol with
  | some protocol => pools.candidatesFor protocol self.pool
  | none => pools.candidates self.pool

/-- `WreqFactory`. -/
def wreqFactory : ForwardFactory RotatingTransport where
  regionForward _ pool := some ⟨pool, none⟩
  protocolForward protocol pool := some ⟨pool, some protocol⟩
  defaultForward pool := some ⟨pool, none⟩

/-- An account of `vpn/provider.rs` as `attach` and `supervise` see it. -/
structure VpnAccount (τ : Type) where
  name : String
  region : String
  tunnel : τ
deriving DecidableEq, Repr

def proxyFor (account : VpnAccount τ) : PoolProxy τ where
  key := "openvpn://" ++ account.name
  tunnel := account.tunnel
  priority := 0
  protocol := .vpn

/-- What the task of `supervise` has. -/
structure Supervised (τ : Type) where
  accounts : List (VpnAccount τ)
  pools : List (String × PoolId)
deriving DecidableEq, Repr

/-- A pool under a name. -/
structure Registration where
  region : String
  protocol : Protocol
  pool : PoolId
deriving DecidableEq, Repr

/-- The state of a `Provider` and of what was attached to its proxy. -/
structure Provider (τ φ : Type) where
  pools : Pools τ
  handler : Proxy φ
  primaries : PoolId
  supervised : List (Supervised τ)
  registered : List Registration
deriving DecidableEq, Repr

namespace Provider

variable (factory : ForwardFactory φ)

def new : Provider τ φ :=
  let (primaries, pools) := Pools.new .empty .empty
  { pools
    handler := .new primaries (factory.defaultForward primaries)
    primaries
    supervised := []
    registered := [] }

/-- A region with one pool, as `add` and `attach` make it. -/
def register (self : Provider τ φ) (protocol : Protocol) (region : String) (pool : PoolId) :
    Provider τ φ :=
  let forward := factory.regionForward region pool
  let (entry, pools) := Region.new self.pools region region
  let (entry, pools) := entry.add pools protocol pool forward
  let (handler, pools) := self.handler.addRegion pools entry
  { self with
    pools
    handler
    registered := self.registered ++ [{ region, protocol, pool }] }

def add (self : Provider τ φ) (region : String) (tunnel : τ) : Provider τ φ :=
  let proxy : PoolProxy τ := { key := "ssh://" ++ region, tunnel, priority := 0, protocol := .ssh }
  let (pool, pools) := self.pools.new (Proxies.empty.push proxy)
  let self := register factory { self with pools } .ssh region pool
  { self with pools := self.pools.push self.primaries proxy }

/-- `BTreeMap::insert` of a key that is not there. -/
def insert (region : String) (pool : PoolId) (regions : List (String × PoolId)) :
    List (String × PoolId) :=
  regions.orderedInsert (fun left right => left.1 ≤ right.1) (region, pool)

/-- A turn of the first loop of `attach`, with the answer of `bridge_ready`. -/
def sort (state : List (String × PoolId) × Pools τ) (account : VpnAccount τ × Bool) :
    List (String × PoolId) × Pools τ :=
  let (regions, pools) := state
  let (pool, regions, pools) :=
    match regions.lookup account.1.region with
    | some pool => (pool, regions, pools)
    | none =>
        let (pool, pools) := pools.new .empty
        (pool, insert account.1.region pool regions, pools)
  (regions, if account.2 then pools.push pool (proxyFor account.1) else pools)

/-- `Vpn::attach` of these accounts, each with the answer of `bridge_ready`. -/
def attach (self : Provider τ φ) (accounts : List (VpnAccount τ × Bool)) : Provider τ φ :=
  let (regions, pools) := accounts.foldl sort ([], self.pools)
  let self := regions.foldl (fun self (region, pool) => register factory self .vpn region pool)
    { self with pools }
  { self with
    supervised := self.supervised ++ [{ accounts := accounts.map Prod.fst, pools := regions }] }

/-- A turn of the inner loop of `supervise`. -/
def superviseAccount (regions : List (String × PoolId)) (pools : Pools τ)
    (account : VpnAccount τ × Bool) : Pools τ :=
  match regions.lookup account.1.region with
  | none => pools
  | some pool =>
      let key := "openvpn://" ++ account.1.name
      match account.2, pools.contains pool key with
      | true, false => pools.push pool (proxyFor account.1)
      | false, true => pools.remove pool key
      | _, _ => pools

/-- A pass of the `task`-th `supervise`, as far as there are answers of
`bridge_ready`. -/
def supervise (self : Provider τ φ) (task : Nat) (ready : List Bool) : Provider τ φ :=
  match self.supervised[task]? with
  | none => self
  | some { accounts, pools } =>
      { self with pools := (accounts.zip ready).foldl (superviseAccount pools) self.pools }

end Provider

/-- What happens to a provider. -/
inductive Call (τ : Type) where
  | add (region : String) (tunnel : τ)
  | attach (accounts : List (VpnAccount τ × Bool))
  | supervise (task : Nat) (ready : List Bool)
deriving DecidableEq, Repr

namespace Provider

def step (factory : ForwardFactory φ) (self : Provider τ φ) : Call τ → Provider τ φ
  | .add region tunnel => self.add factory region tunnel
  | .attach accounts => self.attach factory accounts
  | .supervise task ready => self.supervise task ready

/-- A provider after these calls. -/
def run (factory : ForwardFactory φ) (calls : List (Call τ)) : Provider τ φ :=
  Lib.run (step factory) (new factory) calls

end Provider

end Unroxy.Proxy
