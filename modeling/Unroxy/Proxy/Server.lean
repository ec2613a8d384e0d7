import Unroxy.Proxy.Pools

/-!
Owns `Region` and `Proxy` of `proxy/server.rs`: which pool and which forward a
name and a protocol lead to.

The type of forwards is a parameter. Pools are shared by reference, so an
operation that makes or links a pool takes the pools and returns them.

Does not own how a request is parsed.
-/

namespace Unroxy.Proxy

variable {τ φ : Type}

/-- The name with its ASCII letters in lower case. -/
def asciiLower (text : String) : List Char := text.toList.map Char.toLower

def eqIgnoreAsciiCase (left right : String) : Bool := asciiLower left = asciiLower right

theorem eqIgnoreAsciiCase_refl (name : String) : eqIgnoreAsciiCase name name :=
  decide_eq_true rfl

theorem eqIgnoreAsciiCase_symm {left right : String} (same : eqIgnoreAsciiCase left right) :
    eqIgnoreAsciiCase right left :=
  decide_eq_true (of_decide_eq_true same).symm

theorem eqIgnoreAsciiCase_trans {left middle right : String}
    (first : eqIgnoreAsciiCase left middle) (second : eqIgnoreAsciiCase middle right) :
    eqIgnoreAsciiCase left right :=
  decide_eq_true ((of_decide_eq_true first).trans (of_decide_eq_true second))

structure Variant (φ : Type) where
  protocol : Protocol
  pool : PoolId
  forward : Option φ
deriving DecidableEq, Repr

structure Region (φ : Type) where
  name : String
  username : String
  variants : List (Variant φ)
  merged : PoolId
deriving DecidableEq, Repr

namespace Region

def new (pools : Pools τ) (name username : String) : Region φ × Pools τ :=
  let (merged, pools) := pools.new .empty
  ({ name, username, variants := [], merged }, pools)

/-- The first variant of a protocol gets the forward if it has none. -/
def setForward (protocol : Protocol) (forward : Option φ) : List (Variant φ) → List (Variant φ)
  | [] => []
  | variant :: rest =>
      if variant.protocol = protocol then
        (if variant.forward.isNone then { variant with forward } else variant) :: rest
      else
        variant :: setForward protocol forward rest

def add (self : Region φ) (pools : Pools τ) (protocol : Protocol) (pool : PoolId)
    (forward : Option φ) : Region φ × Pools τ :=
  let variants :=
    match self.variants.find? fun variant => variant.protocol = protocol with
    | some _ => setForward protocol forward self.variants
    | none => self.variants ++ [{ protocol, pool, forward }]
  ({ self with variants }, pools.addChild self.merged pool)

/-- A protocol the region does not have leads to a new pool. -/
def pool (self : Region φ) (pools : Pools τ) : Option Protocol → PoolId × Pools τ
  | some wanted =>
      match self.variants.find? fun variant => variant.protocol = wanted with
      | some variant => (variant.pool, pools)
      | none => pools.new .empty
  | none => (self.merged, pools)

def forward (self : Region φ) : Option Protocol → Option φ
  | some wanted =>
      (self.variants.find? fun variant => variant.protocol = wanted).bind Variant.forward
  | none =>
      ((self.variants.find? fun variant => variant.protocol = .ssh).or self.variants.head?).bind
        Variant.forward

def protocols (self : Region φ) : List Protocol := self.variants.map Variant.protocol

end Region

structure Proxy (φ : Type) where
  defaultPool : PoolId
  defaultForward : Option φ
  protocolPools : List (Protocol × PoolId)
  protocolForwards : List (Protocol × φ)
  regions : List (Region φ)
deriving DecidableEq, Repr

namespace Proxy

def new (defaultPool : PoolId) (defaultForward : Option φ) : Proxy φ where
  defaultPool
  defaultForward
  protocolPools := []
  protocolForwards := []
  regions := []

def setProtocolRoute (self : Proxy φ) (protocol : Protocol) (pool : PoolId) (forward : φ) :
    Proxy φ :=
  { self with
    protocolPools := (self.protocolPools.filter fun known => known.1 ≠ protocol) ++
      [(protocol, pool)]
    protocolForwards := (self.protocolForwards.filter fun known => known.1 ≠ protocol) ++
      [(protocol, forward)] }

/-- The variants of a region go to one that exists. -/
def merge (existing : Region φ) (pools : Pools τ) (region : Region φ) : Region φ × Pools τ :=
  region.protocols.foldl
    (fun (existing, pools) protocol =>
      let (pool, pools) := region.pool pools (some protocol)
      existing.add pools protocol pool (region.forward (some protocol)))
    (existing, pools)

/-- `add_region` on the regions there are: the first of that name takes the
variants, or the region comes last. -/
def addTo (pools : Pools τ) (region : Region φ) : List (Region φ) → List (Region φ) × Pools τ
  | [] => ([region], pools)
  | current :: rest =>
      if eqIgnoreAsciiCase current.username region.username then
        let (existing, pools) := merge current pools region
        (existing :: rest, pools)
      else
        let (rest, pools) := addTo pools region rest
        (current :: rest, pools)

theorem addTo_cases (pools : Pools τ) (region : Region φ) (regions : List (Region φ)) :
    ((∀ current ∈ regions, ¬ eqIgnoreAsciiCase current.username region.username) ∧
      addTo pools region regions = (regions ++ [region], pools)) ∨
    ∃ before current after, regions = before ++ current :: after ∧
      eqIgnoreAsciiCase current.username region.username ∧
      addTo pools region regions =
        (before ++ (merge current pools region).1 :: after, (merge current pools region).2) := by
  induction regions with
  | nil => exact .inl ⟨fun _ member => absurd member List.not_mem_nil, rfl⟩
  | cons first rest inductionHypothesis =>
      rw [addTo]
      by_cases same : eqIgnoreAsciiCase first.username region.username
      case pos =>
        rw [if_pos same]
        exact .inr ⟨[], first, rest, rfl, same, rfl⟩
      case neg =>
        rw [if_neg same]
        rcases inductionHypothesis with
          ⟨others, added⟩ | ⟨before, current, after, split, same', added⟩
        · rw [added]
          exact .inl ⟨List.forall_mem_cons.mpr ⟨same, others⟩, rfl⟩
        · rw [added]
          exact .inr ⟨first :: before, current, after, congrArg (first :: ·) split, same', rfl⟩

def addRegion (self : Proxy φ) (pools : Pools τ) (region : Region φ) : Proxy φ × Pools τ :=
  let (regions, pools) := addTo pools region self.regions
  ({ self with regions }, pools)

def region (self : Proxy φ) (username : String) : Option (Region φ) :=
  if username.isEmpty then none
  else self.regions.find? fun region => eqIgnoreAsciiCase region.username username

def forwardFor (self : Proxy φ) (username : String) (protocol : Option Protocol) : Option φ :=
  match (self.region username).bind fun region => region.forward protocol with
  | some forward => some forward
  | none =>
      match protocol with
      | some protocol =>
          (self.protocolForwards.find? fun known => known.1 = protocol).map Prod.snd
      | none => self.defaultForward

def poolFor (self : Proxy φ) (pools : Pools τ) (username : String) (protocol : Option Protocol) :
    PoolId × Pools τ :=
  match self.region username with
  | some region => region.pool pools protocol
  | none =>
      match protocol with
      | some protocol =>
          match self.protocolPools.find? fun known => known.1 = protocol with
          | some (_, pool) => (pool, pools)
          | none => pools.new .empty
      | none => (self.defaultPool, pools)

end Proxy

end Unroxy.Proxy
