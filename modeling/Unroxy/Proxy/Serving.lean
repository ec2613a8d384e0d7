import Unroxy.Proxy.Growth
import Unroxy.Proxy.Handle

/-!
Owns the server while any number of requests go on and the regions change: `handle`
of `proxy/server.rs` from its dispatch to the answer, with `select` of
`proxy/pool.rs` for a tunnel and `request` of `upstream.rs` for a forward.

A step is a change of the regions, a request that comes, one turn of a request that
chooses an exit, or the end of something a request waits for. Which exits are
ready, whether the deadline has passed and how dials, clients and exchanges end is
the step's. An exchange records the regions as they were when it came and whenever
it chose an exit; no step reads these.

Does not own the copying of a tunnel, and which exit a response names.
-/

namespace Unroxy.Proxy

open Unroxy.Lib

variable {τ ρ : Type}

/-- How `handle` ends. -/
inductive HandleAnswer (τ ρ : Type) where
  | index (host : String)
  /-- A tunnel, with status 200. -/
  | established (candidate : Candidate τ)
  | response (candidate : Candidate τ) (response : ρ)
  | refused (error : HandleError)

inductive HandleStage (τ ρ : Type) where
  /-- In the loop of `select`. -/
  | picking (pool : PoolId) (host : String) (port : UInt16)
  | dialing (candidate : Candidate τ) (host : String) (port : UInt16)
  /-- In `request` of the transport. -/
  | calling (transport : RotatingTransport) (call : Upstream.Call τ ρ)
  | answered (answer : HandleAnswer τ ρ)

/-- An exit that was chosen, and the regions then. -/
structure Choice (τ : Type) where
  table : RegionTable τ RotatingTransport
  candidate : Candidate τ

/-- A request with what is done for it. The regions when it came, the choices and the
dials are recorded. -/
structure Exchange (τ ρ : Type) where
  request : HttpRequest
  arrived : RegionTable τ RotatingTransport
  stage : HandleStage τ ρ
  choices : List (Choice τ)
  dials : List (Candidate τ × String × UInt16)

structure Service (τ ρ : Type) where
  table : RegionTable τ RotatingTransport
  exchanges : List (Exchange τ ρ)

inductive ServiceStep (τ ρ : Type) where
  | regions (action : RegionStep τ RotatingTransport)
  | arrive (request : HttpRequest)
  /-- A turn of `select` or of `ready_candidate`. -/
  | look (exchange : Nat) (late : Bool) (isReady : Candidate τ → Bool)
  | dialed (exchange : Nat) (outcome : Except String Unit)
  /-- `client`, and the call of `send` if there is one. -/
  | client (exchange : Nat) (failed : Option Upstream.Error)
  | reply (exchange : Nat) (outcome : Except Upstream.Error ρ)

namespace HandleStage

/-- The call of the forward, up to its first wait. -/
def forward (crates : Crates) (request : HttpRequest) (transport : RotatingTransport)
    (target : Target) : HandleStage τ ρ :=
  match crates.outgoing request.toIncoming target with
  | .error error => .answered (.refused (.ofTarget error))
  | .ok outgoing => .calling transport (.new outgoing)

def ofDispatched (crates : Crates) (request : HttpRequest) :
    Dispatched RotatingTransport → HandleStage τ ρ
  | .connect pool host port => .picking pool host port
  | .forward transport target => forward crates request transport target
  | .index host => .answered (.index host)
  | .refused error => .answered (.refused error)

/-- The answer, once there is one. -/
def answer : HandleStage τ ρ → Option (HandleAnswer τ ρ)
  | .picking .. | .dialing .. => none
  | .calling _ call =>
      match call.phase with
      | .done (.ok (candidate, response)) => some (.response candidate response)
      | .done (.error error) => some (.refused (.forward error.message))
      | _ => none
  | .answered answer => some answer

end HandleStage

namespace Exchange

def arrive (crates : Crates) (table : RegionTable τ RotatingTransport) (request : HttpRequest) :
    Exchange τ ρ where
  request
  arrived := table
  stage := .ofDispatched crates request (handle crates table.proxy table.pools request)
  choices := []
  dials := []

/-- The exits that were chosen, the latest first. -/
def chosen (self : Exchange τ ρ) : List (Candidate τ) := self.choices.map Choice.candidate

/-- What was sent and over which exits, the latest first. -/
def transmissions (self : Exchange τ ρ) : List (Upstream.Transmission τ) :=
  match self.stage with
  | .calling _ call => call.transmissions
  | _ => []

/-- A turn of the loop that chooses, and the pools with their counters. -/
def look (self : Exchange τ ρ) (table : RegionTable τ RotatingTransport) (late : Bool)
    (isReady : Candidate τ → Bool) : Exchange τ ρ × Pools τ :=
  match self.stage with
  | .picking pool host port =>
      let (candidates, pools) := table.pools.filtered none pool
      match selectTurn isReady candidates with
      | .none => ({ self with stage := .answered (.refused .unknownRegion) }, pools)
      | .again => (self, pools)
      | .found candidate =>
          ({ self with
              stage := .dialing candidate host port
              choices := { table, candidate } :: self.choices
              dials := (candidate, host, port) :: self.dials }, pools)
  | .calling transport call =>
      match call.phase with
      | .selecting =>
          if late then
            ({ self with stage := .calling transport call.refuse }, table.pools)
          else
            let (candidates, pools) := table.pools.filtered transport.protocol transport.pool
            match readyCandidateTurn isReady call.tried candidates with
            | .none => ({ self with stage := .calling transport call.refuse }, pools)
            | .again => (self, pools)
            | .found candidate =>
                ({ self with
                    stage := .calling transport (call.select candidate candidates)
                    choices := { table, candidate } :: self.choices }, pools)
      | _ => (self, table.pools)
  | _ => (self, table.pools)

/-- `dial` returns. -/
def dialed (self : Exchange τ ρ) (outcome : Except String Unit) : Exchange τ ρ :=
  match self.stage with
  | .dialing candidate _ _ =>
      match outcome with
      | .ok _ => { self with stage := .answered (.established candidate) }
      | .error reason => { self with stage := .answered (.refused (.upstream reason)) }
  | _ => self

/-- A step of the call that chooses nothing. -/
def call (self : Exchange τ ρ) (failed : Option Upstream.Error) (next : Upstream.Step τ ρ) :
    Exchange τ ρ :=
  match self.stage with
  | .calling transport call =>
      { self with stage := .calling transport (call.step (fun _ => failed) next) }
  | _ => self

end Exchange

namespace Service

def start (defaultForward : Option RotatingTransport) : Service τ ρ where
  table := .new defaultForward
  exchanges := []

def put (self : Service τ ρ) (place : Nat) (exchange : Exchange τ ρ) : Service τ ρ :=
  { self with exchanges := self.exchanges.set place exchange }

def step (crates : Crates) (self : Service τ ρ) : ServiceStep τ ρ → Service τ ρ
  | .regions action => { self with table := self.table.step action }
  | .arrive request =>
      { self with exchanges := self.exchanges ++ [.arrive crates self.table request] }
  | .look place late isReady =>
      match self.exchanges[place]? with
      | some exchange =>
          let (exchange, pools) := exchange.look self.table late isReady
          { self with table := { self.table with pools } }.put place exchange
      | none => self
  | .dialed place outcome =>
      match self.exchanges[place]? with
      | some exchange => self.put place (exchange.dialed outcome)
      | none => self
  | .client place failed =>
      match self.exchanges[place]? with
      | some exchange => self.put place (exchange.call failed .client)
      | none => self
  | .reply place outcome =>
      match self.exchanges[place]? with
      | some exchange => self.put place (exchange.call none (.reply outcome))
      | none => self

end Service

/-! ### What a request asks for -/

/-- What a request names. -/
def asked (crates : Crates) (request : HttpRequest) : Request :=
  if request.method.isConnect then
    .connect (authUsername crates.decode request.headers)
  else if (crates.host request.uri).isSome then
    .absolute (authUsername crates.decode request.headers)
  else
    match parsePath request.uri with
    | some (route, _) => .rewrite (route.region.getD "") route.protocol
    | none => .rewrite "" none

namespace RegionTable

/-- The region that the request names is there, and has a route for it. -/
def Routes (self : RegionTable τ RotatingTransport) (request : Request) : Prop :=
  ∃ id, self.lookup request.region = some id ∧ request.routed (self.region id)

/-- The forward came with a region of this name. -/
def Offers (self : RegionTable τ RotatingTransport) (username : String)
    (forward : RotatingTransport) : Prop :=
  ∃ gift ∈ self.gifts, gift.region ∈ self.added ∧
    eqIgnoreAsciiCase (self.region gift.region).username username ∧ gift.forward = some forward

end RegionTable

namespace Exchange

variable (crates : Crates) (exchange : Exchange τ ρ)

/-- The request is for a tunnel to this host and port. -/
def Connects (host : String) (port : UInt16) : Prop :=
  exchange.request.method.isConnect ∧ ∃ authority,
    connectAuthority exchange.request = some authority ∧
      splitAuthority authority "https" = (host, port)

/-- The request goes out as this one, by this transport. -/
def Forwards (transport : RotatingTransport) (request : Upstream.Request) : Prop :=
  ∃ target, handle crates exchange.arrived.proxy exchange.arrived.pools exchange.request =
      .forward transport target ∧
    crates.outgoing exchange.request.toIncoming target = .ok request

/-- Nothing was chosen, dialed or sent. -/
structure Untouched : Prop where
  choices : exchange.choices = []
  dials : exchange.dials = []
  transmissions : exchange.transmissions = []

/-- What an answer says about what was done. -/
def Answers : HandleAnswer τ ρ → Prop
  | .index _ => exchange.Untouched
  | .established candidate => ∃ host port, exchange.Connects host port ∧
      exchange.dials = [(candidate, host, port)] ∧ candidate ∈ exchange.chosen
  | .response candidate _ => candidate ∈ exchange.chosen ∧ exchange.dials = [] ∧
      ∃ latest ∈ exchange.transmissions.head?, latest.exit = candidate
  | .refused error => error.status ≠ 503 ∧ (error.status ≠ 502 → exchange.Untouched)

/-- What is done for a request is what it asks for. -/
structure Served : Prop where
  /-- If its region had a route for it, all its exits came with a region of that name. -/
  isolated : exchange.arrived.Routes (asked crates exchange.request) →
    ∀ choice ∈ exchange.choices,
      choice.table.Registered (asked crates exchange.request).region choice.candidate
  once : exchange.dials.length ≤ 1
  dials : ∀ dial ∈ exchange.dials,
    exchange.Connects dial.2.1 dial.2.2 ∧ dial.1 ∈ exchange.chosen
  sends : exchange.transmissions = [] ∨ ∃ transport request,
    exchange.Forwards crates transport request ∧
      exchange.transmissions.length ≤ request.attempts ∧
      ∀ transmission ∈ exchange.transmissions, transmission.exit ∈ exchange.chosen ∧
        ∃ body, (body = request.body ∨ body = []) ∧
          transmission.sent = { request.original with body }
  answers : ∀ answer ∈ exchange.stage.answer, exchange.Answers answer

end Exchange

/-! ### The dispatch -/

section Dispatch

variable {crates : Crates} {proxy : Proxy RotatingTransport} {pools : Pools τ}
  {request : HttpRequest}

theorem handle_connect {pool : PoolId} {host : String} {port : UInt16}
    (dispatched : handle crates proxy pools request = .connect pool host port) :
    request.method.isConnect ∧
      (∃ authority, connectAuthority request = some authority ∧
        splitAuthority authority "https" = (host, port)) ∧
      (proxy.poolFor pools (authUsername crates.decode request.headers) none).1 = pool := by
  unfold handle at dispatched
  split at dispatched
  · next connects =>
      unfold handleConnect at dispatched
      split at dispatched
      · cases dispatched
      · next authority found =>
          injection dispatched with samePool sameHost samePort
          exact ⟨connects, ⟨authority, found, Prod.ext sameHost samePort⟩, samePool⟩
  · split at dispatched
    · split at dispatched
      · cases dispatched
      · cases dispatched
    · unfold rewrite at dispatched
      split at dispatched
      · cases dispatched
      · split at dispatched
        · cases dispatched
        · cases dispatched

theorem absolute_ok {username : String} {uri : Uri} {forward : RotatingTransport}
    {target : Target} (made : absolute proxy username uri = .ok (forward, target)) :
    proxy.forwardFor username none = some forward := by
  unfold absolute at made
  dsimp only at made
  split at made
  · cases made
  · split at made
    · cases made
    · next found =>
        cases made
        exact found

theorem handle_forward {forward : RotatingTransport} {target : Target}
    (dispatched : handle crates proxy pools request = .forward forward target) :
    (∃ username, asked crates request = .absolute username ∧
      proxy.forwardFor username none = some forward) ∨
    ∃ region protocol, asked crates request = .rewrite region protocol ∧
      proxy.forwardFor region protocol = some forward := by
  unfold handle at dispatched
  split at dispatched
  · unfold handleConnect at dispatched
    split at dispatched
    · cases dispatched
    · cases dispatched
  · next exchanges =>
      split at dispatched
      · next hosted =>
          refine .inl ⟨authUsername crates.decode request.headers, ?_, ?_⟩
          · rw [asked, if_neg exchanges, if_pos hosted]
          · split at dispatched
            · cases dispatched
            · next found =>
                cases dispatched
                exact absolute_ok found
      · next hostless =>
          unfold rewrite at dispatched
          split at dispatched
          · cases dispatched
          · next route target' parsed =>
              split at dispatched
              · cases dispatched
              · next chosen =>
                  cases dispatched
                  refine .inr ⟨route.region.getD "", route.protocol, ?_, chosen⟩
                  rw [asked, if_neg exchanges, if_neg hostless, parsed]

/-- Nothing is waited for before these are refused. -/
theorem handle_refused {error : HandleError}
    (dispatched : handle crates proxy pools request = .refused error) :
    error.status = 400 ∨ error.status = 501 := by
  unfold handle at dispatched
  split at dispatched
  · unfold handleConnect at dispatched
    split at dispatched
    · cases dispatched
      exact .inl rfl
    · cases dispatched
  · split at dispatched
    · split at dispatched
      · next error' failed =>
          cases dispatched
          cases error' with
          | unsupportedScheme => exact .inl rfl
          | forwardUnavailable => exact .inr rfl
      · cases dispatched
    · unfold rewrite at dispatched
      split at dispatched
      · cases dispatched
      · split at dispatched
        · cases dispatched
          exact .inr rfl
        · cases dispatched

end Dispatch

/-! ### Exits of the region -/

namespace RegionTable

variable {self later : RegionTable τ RotatingTransport} {username : String}
  {forward : RotatingTransport}

theorem offers_of_route (sound : self.Sound) (traced : self.Traced) {id : RegionId}
    (found : self.lookup username = some id) {protocol : Option Protocol}
    (route : (self.region id).forward protocol = some forward) :
    self.Offers username forward := by
  have known := sound.addedKnown id (lookup_added sound found)
  obtain ⟨variant, isVariant, has⟩ := exists_variant_of_forward route
  obtain ⟨gift, isGift, under, isForward⟩ := traced.forward id known variant isVariant forward has
  obtain ⟨isAdded, isName⟩ := added_of_under sound found under
  exact ⟨gift, isGift, isAdded, isName, isForward⟩

theorem Offers.keeps (offers : self.Offers username forward) (sound : self.Sound)
    (kept : Keeps self later) : later.Offers username forward := by
  obtain ⟨gift, isGift, isAdded, isName, isForward⟩ := offers
  refine ⟨gift, kept.gifts isGift, kept.added isAdded, ?_, isForward⟩
  rw [kept.grows.username _ (sound.addedKnown _ isAdded)]
  exact isName

theorem Offers.registered (offers : self.Offers username forward) {protocol : Option Protocol}
    {candidate : Candidate τ}
    (found : candidate ∈ (self.pools.filtered protocol forward.pool).1) :
    self.Registered username candidate := by
  obtain ⟨gift, isGift, isAdded, isName, isForward⟩ := offers
  have has := (self.pools.filtered_finds protocol forward.pool).2 candidate found
  exact ⟨gift, isGift, isAdded, isName, .inr ⟨forward, isForward, has⟩⟩

theorem registered_of_filtered (sound : self.Sound) (traced : self.Traced) {id : RegionId}
    (found : self.lookup username = some id) {candidate : Candidate τ}
    (member : candidate ∈ (self.pools.filtered none (self.region id).merged).1) :
    self.Registered username candidate := by
  apply registered_of_merged sound traced found
  rw [Pools.mem_candidates]
  exact (self.pools.candidates_perm _).mem_iff.mp member

/-- The forward that a request gets is one of its region, if that has a route. -/
theorem offers_of_forwardFor (sound : self.Sound) (traced : self.Traced) {id : RegionId}
    (found : self.lookup username = some id) {protocol : Option Protocol}
    (routed : ((self.region id).forward protocol).isSome)
    (chosen : self.proxy.forwardFor username protocol = some forward) :
    self.Offers username forward := by
  obtain ⟨own, route⟩ := Option.isSome_iff_exists.mp routed
  have isRegion : self.proxy.region username = some (self.region id) := by
    rw [proxy_region, found]
    rfl
  have same : own = forward := by
    unfold Proxy.forwardFor at chosen
    rw [isRegion, Option.bind_some, route] at chosen
    exact Option.some.inj chosen
  exact offers_of_route sound traced found (same ▸ route)

end RegionTable

theorem readyCandidateTurn_mem {isReady : Candidate τ → Bool} {skip : List String}
    {candidates : List (Candidate τ)} {candidate : Candidate τ}
    (found : readyCandidateTurn isReady skip candidates = .found candidate) :
    candidate ∈ candidates := by
  unfold readyCandidateTurn firstReady at found
  split at found
  · cases found
  · dsimp only at found
    split at found
    · next ready first =>
        cases found
        have chosen := List.mem_of_find?_eq_some first
        split at chosen
        · exact chosen
        · exact List.mem_of_mem_filter chosen
    · cases found

namespace Exchange

variable {crates : Crates} {table later : RegionTable τ RotatingTransport}
  {exchange : Exchange τ ρ}

/-- Where the exits of a request whose region had a route come from. -/
structure Bound (crates : Crates) (table : RegionTable τ RotatingTransport)
    (exchange : Exchange τ ρ) : Prop where
  picking : ∀ pool host port, exchange.stage = .picking pool host port →
    exchange.arrived.Routes (asked crates exchange.request) →
      ∃ id, table.lookup (asked crates exchange.request).region = some id ∧
        (table.region id).merged = pool
  calling : ∀ transport call, exchange.stage = .calling transport call →
    exchange.arrived.Routes (asked crates exchange.request) →
      table.Offers (asked crates exchange.request).region transport
  isolated : exchange.arrived.Routes (asked crates exchange.request) →
    ∀ choice ∈ exchange.choices,
      choice.table.Registered (asked crates exchange.request).region choice.candidate

theorem Bound.keeps (bound : exchange.Bound crates table) (sound : table.Sound)
    (kept : RegionTable.Keeps table later) : exchange.Bound crates later where
  picking pool host port atStage routes := by
    obtain ⟨id, found, merged⟩ := bound.picking pool host port atStage routes
    have known := sound.addedKnown id (RegionTable.lookup_added sound found)
    refine ⟨id, kept.grows.lookup sound found, ?_⟩
    rw [kept.merged id known]
    exact merged
  calling transport call atStage routes :=
    (bound.calling transport call atStage routes).keeps sound kept
  isolated := bound.isolated

theorem bound_arrive (crates : Crates) (sound : table.Sound) (traced : table.Traced)
    (request : HttpRequest) :
    (arrive crates table request : Exchange τ ρ).Bound crates table where
  picking pool host port atStage routes := by
    obtain ⟨id, found, routed⟩ := routes
    change HandleStage.ofDispatched crates request _ = _ at atStage
    refine ⟨id, found, ?_⟩
    cases dispatched : handle crates table.proxy table.pools request with
    | connect pool' host' port' =>
        rw [dispatched] at atStage
        injection atStage with samePool sameHost samePort
        obtain ⟨connects, -, chosen⟩ := handle_connect dispatched
        have named : asked crates request =
            .connect (authUsername crates.decode request.headers) := by
          rw [asked, if_pos connects]
        change table.lookup (asked crates request).region = some id at found
        rw [named] at found
        have isRegion : table.proxy.region (authUsername crates.decode request.headers) =
            some (table.region id) := by
          rw [RegionTable.proxy_region]
          exact congrArg (Option.map table.region) found
        rw [poolFor_none, isRegion] at chosen
        exact chosen.trans samePool
    | forward transport target =>
        rw [dispatched] at atStage
        change HandleStage.forward crates request transport target = _ at atStage
        unfold HandleStage.forward at atStage
        split at atStage
        · cases atStage
        · cases atStage
    | index host' => rw [dispatched] at atStage; cases atStage
    | refused error => rw [dispatched] at atStage; cases atStage
  calling transport call atStage routes := by
    obtain ⟨id, found, routed⟩ := routes
    change HandleStage.ofDispatched crates request _ = _ at atStage
    cases dispatched : handle crates table.proxy table.pools request with
    | connect pool' host' port' => rw [dispatched] at atStage; cases atStage
    | forward transport' target =>
        rw [dispatched] at atStage
        change HandleStage.forward crates request transport' target = _ at atStage
        unfold HandleStage.forward at atStage
        split at atStage
        · cases atStage
        · cases atStage
          change table.lookup (asked crates request).region = some id at found
          change (asked crates request).routed (table.region id) = true at routed
          change table.Offers (asked crates request).region transport
          rcases handle_forward dispatched with ⟨username, named, chosen⟩ |
            ⟨region, protocol, named, chosen⟩
          · rw [named] at found routed ⊢
            exact RegionTable.offers_of_forwardFor sound traced found routed chosen
          · rw [named] at found routed ⊢
            exact RegionTable.offers_of_forwardFor sound traced found routed chosen
    | index host' => rw [dispatched] at atStage; cases atStage
    | refused error => rw [dispatched] at atStage; cases atStage
  isolated _ choice absent := absurd absent List.not_mem_nil

/-- The stage changes to one that chooses no more. -/
theorem Bound.settle (bound : exchange.Bound crates table) (answer : HandleAnswer τ ρ) :
    Bound crates table { exchange with stage := .answered answer } where
  picking pool host port atStage := by cases atStage
  calling transport call atStage := by cases atStage
  isolated := bound.isolated

/-- The call goes on. -/
theorem Bound.advance (bound : exchange.Bound crates table) {transport : RotatingTransport}
    {call : Upstream.Call τ ρ} (atStage : exchange.stage = .calling transport call)
    (next : Upstream.Call τ ρ) :
    Bound crates table { exchange with stage := .calling transport next } where
  picking pool host port other := by cases other
  calling transport' call' other := by
    cases other
    exact bound.calling transport call atStage
  isolated := bound.isolated

theorem Bound.choose (bound : exchange.Bound crates table) {candidate : Candidate τ}
    (registered : exchange.arrived.Routes (asked crates exchange.request) →
      table.Registered (asked crates exchange.request).region candidate) :
    Bound crates table
      { exchange with choices := { table, candidate } :: exchange.choices } where
  picking := bound.picking
  calling := bound.calling
  isolated routes choice among := by
    rcases List.mem_cons.mp among with rfl | old
    · exact registered routes
    · exact bound.isolated routes choice old

theorem Bound.dial (bound : exchange.Bound crates table) (candidate : Candidate τ)
    (host : String) (port : UInt16) :
    ({ exchange with
        stage := .dialing candidate host port
        dials := (candidate, host, port) :: exchange.dials } : Exchange τ ρ).Bound
      crates table where
  picking pool host port atStage := by cases atStage
  calling transport call atStage := by cases atStage
  isolated := bound.isolated

theorem bound_look (bound : exchange.Bound crates table) (sound : table.Sound)
    (traced : table.Traced) (late : Bool) (isReady : Candidate τ → Bool) :
    (exchange.look table late isReady).1.Bound crates table := by
  unfold look
  split
  · next pool host port atStage =>
      dsimp only
      split
      · exact bound.settle _
      · exact bound
      · next candidate found =>
          have member := (selectTurn_found found).1
          have registered : exchange.arrived.Routes (asked crates exchange.request) →
              table.Registered (asked crates exchange.request).region candidate := by
            intro routes
            obtain ⟨id, isRegion, rfl⟩ := bound.picking pool host port atStage routes
            exact RegionTable.registered_of_filtered sound traced isRegion member
          exact (bound.choose registered).dial candidate host port
  · next transport call atStage =>
      split
      · split
        · exact bound.advance atStage _
        · dsimp only
          split
          · exact bound.advance atStage _
          · exact bound
          · next candidate found =>
              have member := readyCandidateTurn_mem found
              have registered : exchange.arrived.Routes (asked crates exchange.request) →
                  table.Registered (asked crates exchange.request).region candidate := by
                intro routes
                exact (bound.calling transport call atStage routes).registered member
              exact (bound.choose registered).advance atStage _
      · exact bound
  · exact bound

theorem bound_dialed (bound : exchange.Bound crates table) (outcome : Except String Unit) :
    (exchange.dialed outcome).Bound crates table := by
  unfold dialed
  split
  · split
    · exact bound.settle _
    · exact bound.settle _
  · exact bound

theorem bound_call (bound : exchange.Bound crates table) (failed : Option Upstream.Error)
    (next : Upstream.Step τ ρ) : (exchange.call failed next).Bound crates table := by
  unfold Exchange.call
  split
  · next transport call atStage => exact bound.advance atStage _
  · exact bound

/-- At most the counters of the pools change. -/
theorem look_spun (exchange : Exchange τ ρ) (table : RegionTable τ RotatingTransport)
    (late : Bool) (isReady : Candidate τ → Bool) :
    Pools.Spun table.pools (exchange.look table late isReady).2 := by
  unfold look
  split
  · next pool host port atStage =>
      have spun := (table.pools.filtered_finds none pool).1
      dsimp only
      split
      · exact spun
      · exact spun
      · exact spun
  · next transport call atStage =>
      have spun := (table.pools.filtered_finds transport.protocol transport.pool).1
      split
      · split
        · exact .refl _
        · dsimp only
          split
          · exact spun
          · exact spun
          · exact spun
      · exact .refl _
  · exact .refl _

end Exchange

end Unroxy.Proxy
