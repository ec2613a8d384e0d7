import Unroxy.Proxy.Provenance
import Unroxy.Proxy.Provider
import Unroxy.Proxy.Views

/-!
Owns which exits a request that names a region can be served by, in every state
of the regions.

A request is here what `handle_connect`, `absolute` and `rewrite` of
`proxy/server.rs` make of it: a name, and for a rewritten path a protocol.

Does not own how a request is parsed, and which of its candidates it gets.
-/

namespace Unroxy.Proxy

open Unroxy.Lib

variable {τ φ : Type}

/-! ### Candidates are proxies below the pool -/

namespace ProxyPool

theorem mem_foldl_pushNew {proxy : PoolProxy τ} (more : List (PoolProxy τ)) :
    ∀ ready : List (PoolProxy τ), proxy ∈ more.foldl pushNew ready →
      proxy ∈ ready ∨ proxy ∈ more := by
  induction more with
  | nil => exact fun _ member => .inl member
  | cons first rest inductionHypothesis =>
      intro ready member
      rcases inductionHypothesis _ member with before | later
      · rw [pushNew] at before
        split at before
        · exact .inl before
        · rcases List.mem_append.mp before with old | new
          · exact .inl old
          · rw [List.mem_singleton.mp new]
            exact .inr List.mem_cons_self
      · exact .inr (List.mem_cons_of_mem _ later)

theorem mem_collect {protocol : Option Protocol} {proxy : PoolProxy τ}
    (children : List (ProxyPool τ)) :
    ∀ ready : List (PoolProxy τ), proxy ∈ (collect protocol ready children).1 →
      proxy ∈ ready ∨ ∃ child ∈ children, proxy ∈ (child.filtered protocol).1 := by
  induction children with
  | nil =>
      intro ready member
      rw [collect] at member
      exact .inl member
  | cons child rest inductionHypothesis =>
      intro ready member
      rw [collect] at member
      rcases inductionHypothesis _ member with merged | ⟨later, isLater, found⟩
      · rcases mem_foldl_pushNew _ _ merged with old | new
        · exact .inl old
        · exact .inr ⟨child, List.mem_cons_self, new⟩
      · exact .inr ⟨later, List.mem_cons_of_mem _ isLater, found⟩

theorem mem_filtered {protocol : Option Protocol} {proxy : PoolProxy τ} {proxies : Proxies τ}
    {rotation : UInt64} {children : List (ProxyPool τ)}
    (member : proxy ∈ (filtered protocol (.node proxies rotation children)).1) :
    proxy ∈ proxies.list ∨ ∃ child ∈ children, proxy ∈ (child.filtered protocol).1 := by
  have collected :
      proxy ∈ (collect protocol (proxies.localCandidates protocol) children).1 := by
    rw [filtered] at member
    dsimp only at member
    split at member
    · rw [List.mem_rotate, sortByPriority, List.mem_insertionSort] at member
      exact member
    · rw [sortByPriority, List.mem_insertionSort] at member
      exact member
  rcases mem_collect children _ collected with own | below
  · exact .inl (List.mem_of_mem_filter own)
  · exact .inr below

end ProxyPool

namespace Pools

/-- The proxy is in the pool or in one below it. -/
def Has (self : Pools τ) (pool : PoolId) (proxy : PoolProxy τ) : Prop :=
  ∃ source, self.Below pool source ∧ proxy ∈ (self.get source).proxies.list

theorem has_of_filtered (self : Pools τ) {protocol : Option Protocol} {proxy : PoolProxy τ}
    (depth : Nat) : ∀ pool : PoolId, proxy ∈ ((self.tree depth pool).filtered protocol).1 →
      self.Has pool proxy := by
  induction depth with
  | zero =>
      intro pool member
      rcases ProxyPool.mem_filtered member with own | ⟨child, isChild, _⟩
      · exact absurd own List.not_mem_nil
      · exact absurd isChild List.not_mem_nil
  | succ depth inductionHypothesis =>
      intro pool member
      rcases ProxyPool.mem_filtered member with own | ⟨below, isChild, found⟩
      · exact ⟨pool, .refl, own⟩
      · obtain ⟨child, edge, rfl⟩ := List.mem_map.mp isChild
        obtain ⟨source, reaches, there⟩ := inductionHypothesis child found
        exact ⟨source, .head edge reaches, there⟩

theorem has_of_candidates {self : Pools τ} {pool : PoolId} {proxy : PoolProxy τ}
    (member : proxy ∈ self.candidates pool) : self.Has pool proxy :=
  self.has_of_filtered (self.size + 1) pool member

end Pools

theorem RotatingTransport.has_of_candidates {transport : RotatingTransport} {pools : Pools τ}
    {proxy : PoolProxy τ} (member : proxy ∈ transport.candidates pools) :
    pools.Has transport.pool proxy := by
  rw [candidates] at member
  split at member
  · exact pools.has_of_filtered (pools.size + 1) transport.pool member
  · exact Pools.has_of_candidates member

/-! ### Requests -/

inductive Request where
  | connect (username : String)
  | absolute (username : String)
  | rewrite (region : String) (protocol : Option Protocol)
deriving DecidableEq, Repr

namespace Request

def region : Request → String
  | .connect username => username
  | .absolute username => username
  | .rewrite region _ => region

/-- The same request without a region. -/
def anywhere : Request → Request
  | .connect _ => .connect ""
  | .absolute _ => .absolute ""
  | .rewrite _ protocol => .rewrite "" protocol

/-- The region has a route for the request. -/
def routed (region : Region φ) : Request → Bool
  | .connect _ => true
  | .absolute _ => (region.forward none).isSome
  | .rewrite _ protocol => (region.forward protocol).isSome

end Request

namespace RegionTable

/-- The exits of a forward, none if there is no forward. -/
def forwardCandidates (self : RegionTable τ RotatingTransport) (region : String)
    (protocol : Option Protocol) : List (Candidate τ) :=
  match self.proxy.forwardFor region protocol with
  | some forward => forward.candidates self.pools
  | none => []

/-- The exits one of which serves the request; without one it is refused. -/
def candidates (self : RegionTable τ RotatingTransport) : Request → List (Candidate τ)
  | .connect username =>
      let (pool, pools) := self.proxy.poolFor self.pools username none
      pools.candidates pool
  | .absolute username => self.forwardCandidates username none
  | .rewrite region protocol => self.forwardCandidates region protocol

/-- The exit came with a region of this name that the proxy was given. -/
def Registered (self : RegionTable τ RotatingTransport) (username : String)
    (candidate : Candidate τ) : Prop :=
  ∃ gift ∈ self.gifts, gift.region ∈ self.added ∧
    eqIgnoreAsciiCase (self.region gift.region).username username ∧
    (self.pools.Has gift.pool candidate ∨
      ∃ forward, gift.forward = some forward ∧ self.pools.Has forward.pool candidate)

/-- The request is served by exits of its region or refused. -/
def Isolated (self : RegionTable τ RotatingTransport) (request : Request) : Prop :=
  ∀ candidate ∈ self.candidates request, self.Registered request.region candidate

theorem forwardCandidates_unrouted (self : RegionTable τ RotatingTransport) {name : String}
    {protocol : Option Protocol}
    (unrouted : ∀ region, self.proxy.region name = some region →
      (region.forward protocol).isSome = false) :
    self.forwardCandidates name protocol = self.forwardCandidates "" protocol := by
  have absent :
      (self.proxy.region name).bind (fun region => region.forward protocol) = none := by
    cases found : self.proxy.region name with
    | none => rfl
    | some region => simpa using unrouted region found
  have unnamed : (self.proxy.region "").bind (fun region => region.forward protocol) = none := rfl
  unfold forwardCandidates Proxy.forwardFor
  rw [absent, unnamed]

theorem forwardCandidates_routed {self : RegionTable τ RotatingTransport} {name : String}
    {protocol : Option Protocol} {region : Region RotatingTransport} {forward : RotatingTransport}
    (found : self.proxy.region name = some region) (route : region.forward protocol = some forward) :
    self.forwardCandidates name protocol = forward.candidates self.pools := by
  unfold forwardCandidates Proxy.forwardFor
  rw [found, Option.bind_some, route]

/-- Without a route of its region a request goes where it goes without a region. -/
theorem candidates_anywhere (self : RegionTable τ RotatingTransport) {request : Request}
    (unrouted : ∀ region, self.proxy.region request.region = some region →
      request.routed region = false) :
    self.candidates request = self.candidates request.anywhere := by
  cases request with
  | connect username =>
      have unknown : self.proxy.region username = none := by
        rw [Option.eq_none_iff_forall_ne_some]
        intro region found
        cases unrouted region found
      have chosen : self.proxy.poolFor self.pools username none =
          self.proxy.poolFor self.pools "" none := by
        unfold Proxy.poolFor
        rw [unknown]
        rfl
      rw [Request.anywhere, candidates, candidates, chosen]
  | absolute username => exact self.forwardCandidates_unrouted unrouted
  | rewrite region protocol => exact self.forwardCandidates_unrouted unrouted

theorem exists_variant_of_forward {region : Region φ} {protocol : Option Protocol} {forward : φ}
    (found : region.forward protocol = some forward) :
    ∃ variant ∈ region.variants, variant.forward = some forward := by
  cases protocol with
  | some wanted =>
      obtain ⟨variant, isVariant, has⟩ := Option.bind_eq_some_iff.mp found
      exact ⟨variant, List.mem_of_find?_eq_some isVariant, has⟩
  | none =>
      obtain ⟨variant, isVariant, has⟩ := Option.bind_eq_some_iff.mp found
      rcases Option.or_eq_some_iff.mp isVariant with isSsh | ⟨_, isFirst⟩
      · exact ⟨variant, List.mem_of_find?_eq_some isSsh, has⟩
      · exact ⟨variant, List.mem_of_head? isFirst, has⟩

section Known

variable {self : RegionTable τ RotatingTransport} (sound : self.Sound) (traced : self.Traced)
  {username : String} {id : RegionId} (found : self.lookup username = some id)

include sound found

theorem lookup_added : id ∈ self.added :=
  sound.listedAdded id (List.mem_of_find?_eq_some (existing_of_lookup found))

/-- What the region has came under its name. -/
theorem added_of_under {gift : Gift RotatingTransport} (under : self.Under id gift) :
    gift.region ∈ self.added ∧
      eqIgnoreAsciiCase (self.region gift.region).username username := by
  constructor
  · rcases under.1 with here | other
    · rw [here]
      exact lookup_added sound found
    · exact other
  · exact eqIgnoreAsciiCase_trans under.2 (existing_username (existing_of_lookup found))

include traced

theorem registered_of_merged {candidate : Candidate τ}
    (member : candidate ∈ self.pools.candidates (self.region id).merged) :
    self.Registered username candidate := by
  have known := sound.addedKnown id (lookup_added sound found)
  obtain ⟨source, below, own⟩ := Pools.has_of_candidates member
  rcases Relation.ReflTransGen.cases_head below with rfl | ⟨child, edge, rest⟩
  · rw [sound.bare id known] at own
    cases own
  · obtain ⟨gift, isGift, under, rfl⟩ := traced.pool id known child edge
    obtain ⟨isAdded, isName⟩ := added_of_under sound found under
    exact ⟨gift, isGift, isAdded, isName, .inl ⟨source, rest, own⟩⟩

theorem registered_of_forward {protocol : Option Protocol} {forward : RotatingTransport}
    (route : (self.region id).forward protocol = some forward) {candidate : Candidate τ}
    (member : candidate ∈ forward.candidates self.pools) :
    self.Registered username candidate := by
  have known := sound.addedKnown id (lookup_added sound found)
  obtain ⟨variant, isVariant, has⟩ := exists_variant_of_forward route
  obtain ⟨gift, isGift, under, isForward⟩ := traced.forward id known variant isVariant forward has
  obtain ⟨isAdded, isName⟩ := added_of_under sound found under
  exact ⟨gift, isGift, isAdded, isName,
    .inr ⟨forward, isForward, RotatingTransport.has_of_candidates member⟩⟩

end Known

/-- A request that its region has a route for stays in the region. -/
theorem isolated_of_routed {self : RegionTable τ RotatingTransport} (sound : self.Sound)
    (traced : self.Traced) {request : Request} {id : RegionId}
    (found : self.lookup request.region = some id)
    (routed : request.routed (self.region id)) : self.Isolated request := by
  have isRegion : self.proxy.region request.region = some (self.region id) := by
    rw [proxy_region, found]
    rfl
  intro candidate member
  cases request with
  | connect username =>
      have chosen : self.proxy.poolFor self.pools username none =
          ((self.region id).merged, self.pools) := by
        rw [Request.region] at isRegion
        unfold Proxy.poolFor
        rw [isRegion]
        rfl
      rw [candidates, chosen] at member
      exact registered_of_merged sound traced found member
  | absolute username =>
      obtain ⟨forward, route⟩ := Option.isSome_iff_exists.mp routed
      rw [Request.region] at isRegion
      rw [candidates, forwardCandidates_routed isRegion route] at member
      exact registered_of_forward sound traced found route member
  | rewrite region protocol =>
      obtain ⟨forward, route⟩ := Option.isSome_iff_exists.mp routed
      rw [Request.region] at isRegion
      rw [candidates, forwardCandidates_routed isRegion route] at member
      exact registered_of_forward sound traced found route member

/-- Nothing is registered under a name that is not found. -/
theorem not_registered_of_unknown {self : RegionTable τ RotatingTransport} (sound : self.Sound)
    {username : String} (named : ¬ username.isEmpty) (unknown : self.lookup username = none)
    (candidate : Candidate τ) : ¬ self.Registered username candidate := by
  rintro ⟨gift, _, isAdded, isName, _⟩
  obtain ⟨kept, isListed, sameName⟩ := sound.stored gift.region isAdded
  rw [lookup, if_neg named, existing] at unknown
  apply List.find?_eq_none.mp unknown kept isListed
  exact eqIgnoreAsciiCase_trans (eqIgnoreAsciiCase_symm sameName) isName

/-- A request stays in the region it names exactly if the proxy has the region
with a route for the request, or if the route it takes instead has no exit of
another region. Under an unknown name every exit is one of another region. -/
theorem isolated_iff (defaultForward : Option RotatingTransport)
    (steps : List (RegionStep τ RotatingTransport)) (request : Request)
    (named : ¬ request.region.isEmpty) :
    let table := run step (new defaultForward) steps
    table.Isolated request ↔
      (∃ id, table.lookup request.region = some id ∧ (request.routed (table.region id) ∨
        ∀ candidate ∈ table.candidates request.anywhere,
          table.Registered request.region candidate)) ∨
      (table.lookup request.region = none ∧ table.candidates request.anywhere = []) := by
  intro table
  have sound : table.Sound := sound_run defaultForward steps
  have traced : table.Traced := traced_run defaultForward steps
  cases found : table.lookup request.region with
  | none =>
      have fallback : table.candidates request = table.candidates request.anywhere := by
        apply candidates_anywhere
        intro region isRegion
        rw [proxy_region, found] at isRegion
        cases isRegion
      rw [Isolated, fallback, List.eq_nil_iff_forall_not_mem]
      simp [not_registered_of_unknown sound named found]
  | some id =>
      by_cases routed : request.routed (table.region id)
      · simp [routed, isolated_of_routed sound traced found routed]
      · have fallback : table.candidates request = table.candidates request.anywhere := by
          apply candidates_anywhere
          intro region isRegion
          rw [proxy_region, found] at isRegion
          rw [← Option.some.inj isRegion]
          exact Bool.eq_false_of_not_eq_true routed
        rw [Isolated, fallback]
        simp [routed]

/-- One region, whose exit is in the default pool too. -/
def oneRegion : List (RegionStep Nat RotatingTransport) :=
  [.newPool (Proxies.empty.push ⟨"ssh://US", 3, 0, .ssh⟩), .newRegion "US" "US",
    .add 0 .ssh 1 (some ⟨1, none⟩), .addRegion 0, .push 0 ⟨"ssh://US", 3, 0, .ssh⟩]

theorem isolated_one_region :
    ¬ (Request.rewrite "us" none).region.isEmpty ∧
      (run step (new none) oneRegion).Isolated (.rewrite "us" none) := by
  have named : ¬ (Request.rewrite "us" none).region.isEmpty := by decide
  refine ⟨named, (isolated_iff none oneRegion (.rewrite "us" none) named).mpr ?_⟩
  exact .inl ⟨0, by decide, .inl (by decide)⟩

/-- A name that no region has leads to the default pool. -/
theorem not_isolated_unknown :
    ¬ ∀ (steps : List (RegionStep Nat RotatingTransport)) (request : Request),
      ¬ request.region.isEmpty → (run step (new none) steps).Isolated request := by
  intro isolated
  have registered := isolated oneRegion (.connect "DE") (by decide) ⟨"ssh://US", 3, 0, .ssh⟩
    (by decide)
  obtain ⟨gift, isGift, _, isName, _⟩ := registered
  have single : (run step (new none) oneRegion).gifts = [⟨0, .ssh, 1, some ⟨1, none⟩⟩] := by
    decide
  rw [single, List.mem_singleton] at isGift
  subst isGift
  revert isName
  decide

end RegionTable

end Unroxy.Proxy
