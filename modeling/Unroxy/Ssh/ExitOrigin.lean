import Unroxy.Proxy.Headers
import Unroxy.Ssh.ExitEvents

/-!
Owns where the exit that a response names comes from: the second half of `send` of
`forward.rs`, over all the tunnels and accounts that share the cache of the proxy.

A tunnel names what its `record_exit` recorded for the host, and an account of a VPN
its own exit whatever the host is. `recordings` and `named` record both, the latest
first; no step reads them.

Does not own whether it is the exit that carried this response.
-/

namespace Unroxy.Ssh

open Unroxy.Lib
open Unroxy.Proxy

/-! ### One tunnel -/

section Known

variable (names : Names) (known : List Char → Exit → Prop)

def SendStage.Backed (target : String) : SendStage → Prop
  | .looked _ exit => exit.isEmpty ∨ known (names.lower target) exit
  | .finished _ exit => ∀ found ∈ exit, known (names.lower target) found ∧ ¬ found.isEmpty
  | _ => True

def ConnectStage.Backed (host : String) : ConnectStage → Prop
  | .looked exit => exit.isEmpty ∨ known (names.lower host) exit
  | _ => True

/-- Every exit in the cache of the proxy is known for its host. -/
def Stored (cache : Lru (List Char) Exit 4096) : Prop :=
  ∀ key exit, cache.peek key = some exit → known key exit ∧ ¬ exit.isEmpty

/-- Every exit that is stored or held is known for its host. -/
structure Traffic.Sourced (traffic : Traffic) : Prop where
  exits : ∀ key exit, traffic.exits.peek key = some exit → known key exit
  cache : Stored known traffic.cache
  requests : ∀ request ∈ traffic.requests, request.stage.Backed names known request.target
  tunnels : ∀ tunnel ∈ traffic.tunnels, tunnel.stage.Backed names known tunnel.host

end Known

variable {names : Names} {known later : List Char → Exit → Prop}

/-- What is known stays known. -/
theorem Stored.more {cache : Lru (List Char) Exit 4096} (stored : Stored known cache)
    (more : ∀ key exit, known key exit → later key exit) : Stored later cache :=
  fun key exit there => (stored key exit there).imp_left (more key exit)

/-- `ExitCache::record` of an exit that is known. -/
theorem Stored.put {cache : Lru (List Char) Exit 4096} (stored : Stored known cache)
    {key : List Char} {exit : Exit} (filled : ¬ exit.isEmpty) (here : known key exit) :
    Stored known (cache.put key exit) := by
  intro other found there
  rcases Lru.peek_put_eq_some cache (by decide) there with ⟨rfl, rfl⟩ | before
  · exact ⟨here, filled⟩
  · exact stored other found before

namespace Traffic

variable {traffic : Traffic}

theorem sourced_start (names : Names) (known : List Char → Exit → Prop) (region : String) :
    (start region).Sourced names known where
  exits := by
    intro key exit found
    cases found
  cache := by
    intro key exit found
    cases found
  requests := by
    intro request among
    cases among
  tunnels := by
    intro tunnel among
    cases among

theorem Sourced.more (sourced : traffic.Sourced names known)
    (more : ∀ key exit, known key exit → later key exit) : traffic.Sourced names later where
  exits key exit found := more key exit (sourced.exits key exit found)
  cache := sourced.cache.more more
  requests request among := by
    have backed := sourced.requests request among
    obtain ⟨target, stage⟩ := request
    cases stage with
    | looked carrier exit => exact backed.imp_right (more _ exit)
    | finished carrier exit =>
        exact fun found there => (backed found there).imp_left (more _ found)
    | sent => trivial
    | answered carrier => trivial
    | recorded carrier => trivial
  tunnels tunnel among := by
    have backed := sourced.tunnels tunnel among
    obtain ⟨host, stage⟩ := tunnel
    cases stage with
    | looked exit => exact backed.imp_right (more _ exit)
    | dialed carrier => trivial
    | noted => trivial
    | established => trivial

/-- The cache of the proxy is what the others made of it. -/
theorem Sourced.share (sourced : traffic.Sourced names known) {cache : Lru (List Char) Exit 4096}
    (stored : Stored known cache) : Sourced names known { traffic with cache } where
  exits := sourced.exits
  cache := stored
  requests := sourced.requests
  tunnels := sourced.tunnels

theorem Sourced.become (sourced : traffic.Sourced names known) {request : Nat} {target : String}
    {stage : SendStage} (backed : stage.Backed names known target) :
    (traffic.become request target stage).Sourced names known where
  exits := sourced.exits
  cache := sourced.cache
  requests other among := by
    rcases List.mem_or_eq_of_mem_set among with old | rfl
    · exact sourced.requests other old
    · exact backed
  tunnels := sourced.tunnels

theorem Sourced.progress (sourced : traffic.Sourced names known) {tunnel : Nat} {host : String}
    {stage : ConnectStage} (backed : stage.Backed names known host) :
    (traffic.progress tunnel host stage).Sourced names known where
  exits := sourced.exits
  cache := sourced.cache
  requests := sourced.requests
  tunnels other among := by
    rcases List.mem_or_eq_of_mem_set among with old | rfl
    · exact sourced.tunnels other old
    · exact backed

theorem Sourced.recordExit (sourced : traffic.Sourced names known) {host : String}
    {session : Session} (here : known (names.lower host) (traffic.exitOf session)) :
    (traffic.recordExit names host session).Sourced names known where
  exits key exit found := by
    rcases Lru.peek_put_eq_some traffic.exits (by decide) found with ⟨rfl, rfl⟩ | before
    · exact here
    · exact sourced.exits key exit before
  cache := sourced.cache
  requests := sourced.requests
  tunnels := sourced.tunnels

/-- What `exit_for` finds. -/
theorem Sourced.exitFor (sourced : traffic.Sourced names known) (host : String) :
    (traffic.exitFor names host).isEmpty ∨
      known (names.lower host) (traffic.exitFor names host) := by
  rw [Traffic.exitFor]
  cases found : traffic.exits.peek (names.lower host) with
  | none => exact .inl rfl
  | some exit => exact .inr (sourced.exits _ exit found)

theorem Sourced.record (sourced : traffic.Sourced names known) {host : String} {exit : Exit}
    (backed : exit.isEmpty ∨ known (names.lower host) exit) :
    (traffic.record names host exit).Sourced names known := by
  rw [Traffic.record]
  by_cases empty : exit.isEmpty = true
  · rw [if_pos empty]
    exact sourced
  · rw [if_neg empty]
    exact sourced.share (sourced.cache.put empty (backed.resolve_left empty))

/-- Every step keeps the exits sourced, if what it records is known. -/
theorem sourced_step (sourced : traffic.Sourced names known) {action : TrafficStep}
    (recorded : ∀ entry ∈ traffic.recording names action, known entry.1 entry.2) :
    (traffic.step names action).Sourced names known := by
  cases action with
  | accept host opened rotate =>
      rw [step]
      split
      · exact ⟨sourced.exits, sourced.cache, sourced.requests, sourced.tunnels⟩
      · exact sourced
  | recordExit connection =>
      rw [recording] at recorded
      rw [step]
      rcases made : traffic.connections[connection]? with _ | ⟨session, host, before⟩
      · exact sourced
      · cases before with
        | true => exact sourced
        | false =>
            rw [made] at recorded
            have here : known (names.lower host) (traffic.exitOf session) :=
              recorded (_, _) List.mem_cons_self
            have kept := sourced.recordExit here
            exact ⟨kept.exits, kept.cache, kept.requests, kept.tunnels⟩
  | send target =>
      refine ⟨sourced.exits, sourced.cache, ?_, sourced.tunnels⟩
      intro request among
      rcases List.mem_append.mp among with old | new
      · exact sourced.requests request old
      · rw [List.mem_singleton.mp new]
        trivial
  | answer request connection =>
      rw [step]
      split
      · split
        · exact sourced.become trivial
        · exact sourced
      · exact sourced
  | exitFor request =>
      rw [step]
      split
      · exact sourced.become (sourced.exitFor _)
      · exact sourced
  | record request =>
      rw [step]
      split
      · next asked =>
          have backed := sourced.requests _ (List.mem_of_getElem? asked)
          exact (sourced.record backed).become trivial
      · exact sourced
  | get request =>
      rw [step]
      split
      · exact sourced.become fun found there => sourced.cache _ found there
      · exact sourced
  | dial host opened rotate =>
      rw [step]
      split
      · refine ⟨sourced.exits, sourced.cache, sourced.requests, ?_⟩
        intro tunnel among
        rcases List.mem_append.mp among with old | new
        · exact sourced.tunnels tunnel old
        · rw [List.mem_singleton.mp new]
          trivial
      · exact sourced
  | recordDialed tunnel =>
      rw [recording] at recorded
      rw [step]
      rcases made : traffic.tunnels[tunnel]? with _ | ⟨host, stage⟩
      · exact sourced
      · cases stage with
        | dialed carrier =>
            rw [made] at recorded
            have here : known (names.lower host) (traffic.exitOf carrier) :=
              recorded (_, _) List.mem_cons_self
            exact (sourced.recordExit here).progress trivial
        | noted => exact sourced
        | looked exit => exact sourced
        | established => exact sourced
  | exitForDialed tunnel =>
      rw [step]
      split
      · exact sourced.progress (sourced.exitFor _)
      · exact sourced
  | recordTunnel tunnel =>
      rw [step]
      split
      · next made =>
          have backed := sourced.tunnels _ (List.mem_of_getElem? made)
          exact (sourced.record backed).progress trivial
      · exact sourced

end Traffic

/-! ### All of them -/

/-- An account of a VPN. -/
structure VpnExit where
  ip : String
  region : String
deriving DecidableEq, Repr

/-- `exit_for` of an account. -/
def VpnExit.exit (self : VpnExit) : Exit where
  ip := self.ip
  region := self.region
  protocol := "openvpn"

/-- What is done next for a request over an account. -/
inductive VpnStage where
  /-- The response is awaited, then `record` of the proxy. -/
  | sent
  /-- `get`, if it is not a tunnel. -/
  | recorded
  /-- The exit is attached. -/
  | finished (exit : Option Exit)
deriving DecidableEq, Repr

structure VpnSending where
  account : VpnExit
  target : String
  stage : VpnStage
deriving DecidableEq, Repr

/-- All tunnels, the requests over accounts, and the cache of the proxy. -/
structure Outlets where
  cache : Lru (List Char) Exit 4096
  tunnels : List Traffic
  sendings : List VpnSending
  recordings : List (List Char × Exit)
  named : List (List Char × Exit)

inductive OutletStep where
  | start (region : String)
  | tunnel (index : Nat) (action : TrafficStep)
  | send (account : Nat) (target : String)
  | record (sending : Nat)
  | get (sending : Nat)
deriving DecidableEq, Repr

namespace Outlets

def empty : Outlets where
  cache := .empty
  tunnels := []
  sendings := []
  recordings := []
  named := []

/-- A step of the tunnel, with the cache that all share. -/
def act (names : Names) (self : Outlets) (index : Nat) (tunnel : Traffic) (action : TrafficStep) :
    Outlets :=
  let tunnel := { tunnel with cache := self.cache }
  let next := tunnel.step names action
  { self with
    cache := next.cache
    tunnels := self.tunnels.set index next
    recordings := tunnel.recording names action ++ self.recordings }

def step (names : Names) (accounts : List VpnExit) (self : Outlets) : OutletStep → Outlets
  | .start region => { self with tunnels := self.tunnels ++ [.start region] }
  | .tunnel index action =>
      match self.tunnels[index]? with
      | some tunnel => self.act names index tunnel action
      | none => self
  | .send account target =>
      match accounts[account]? with
      | some account =>
          { self with sendings := self.sendings ++ [{ account, target, stage := .sent }] }
      | none => self
  | .record sending =>
      match self.sendings[sending]? with
      | some { account, target, stage := .sent } =>
          let exit := account.exit
          { self with
            cache :=
              if exit.isEmpty then self.cache else self.cache.put (names.lower target) exit
            sendings := self.sendings.set sending { account, target, stage := .recorded }
            named := (names.lower target, exit) :: self.named }
      | _ => self
  | .get sending =>
      match self.sendings[sending]? with
      | some { account, target, stage := .recorded } =>
          let exit := self.cache.peek (names.lower target)
          { self with
            sendings := self.sendings.set sending { account, target, stage := .finished exit } }
      | _ => self

/-- The exit was recorded for this host by a tunnel, or it is that of an account, which
named it for this host. -/
def Known (accounts : List VpnExit) (self : Outlets) (host : List Char) (exit : Exit) : Prop :=
  (host, exit) ∈ self.recordings ∨
    ((host, exit) ∈ self.named ∧ ∃ account ∈ accounts, account.exit = exit)

/-- Every exit that is stored or held is known for its host. -/
structure Sound (names : Names) (accounts : List VpnExit) (outlets : Outlets) : Prop where
  cache : Stored (outlets.Known accounts) outlets.cache
  tunnels : ∀ tunnel ∈ outlets.tunnels, tunnel.Sourced names (outlets.Known accounts)
  own : ∀ sending ∈ outlets.sendings, sending.account ∈ accounts
  sendings : ∀ sending ∈ outlets.sendings, ∀ found, sending.stage = .finished found →
    ∀ exit ∈ found, outlets.Known accounts (names.lower sending.target) exit ∧ ¬ exit.isEmpty

variable {accounts : List VpnExit} {outlets : Outlets}

theorem sound_empty (names : Names) (accounts : List VpnExit) : empty.Sound names accounts where
  cache := by
    intro key exit found
    cases found
  tunnels _ among := absurd among List.not_mem_nil
  own _ among := absurd among List.not_mem_nil
  sendings _ among := absurd among List.not_mem_nil

theorem sound_act (sound : outlets.Sound names accounts) (index : Nat) {tunnel : Traffic}
    (among : tunnel ∈ outlets.tunnels) (action : TrafficStep) :
    (outlets.act names index tunnel action).Sound names accounts := by
  have more (key : List Char) (exit : Exit) (known : outlets.Known accounts key exit) :
      (outlets.act names index tunnel action).Known accounts key exit :=
    known.imp_left (List.mem_append_right _)
  have shared := ((sound.tunnels tunnel among).share sound.cache).more more
  have stepped := Traffic.sourced_step shared fun entry recorded =>
    .inl (List.mem_append_left _ recorded)
  refine ⟨stepped.cache, ?_, sound.own, ?_⟩
  · intro other there
    rcases List.mem_or_eq_of_mem_set there with old | rfl
    · exact (sound.tunnels other old).more more
    · exact stepped
  · intro sending there found finished exit attached
    exact (sound.sendings sending there found finished exit attached).imp_left (more _ exit)

theorem sound_step (sound : outlets.Sound names accounts) (action : OutletStep) :
    (outlets.step names accounts action).Sound names accounts := by
  cases action with
  | start region =>
      refine ⟨sound.cache, ?_, sound.own, sound.sendings⟩
      intro tunnel among
      rcases List.mem_append.mp among with old | new
      · exact sound.tunnels tunnel old
      · rw [List.mem_singleton.mp new]
        exact Traffic.sourced_start names _ region
  | tunnel index action =>
      rw [step]
      split
      · next tunnel there => exact sound_act sound index (List.mem_of_getElem? there) action
      · exact sound
  | send account target =>
      rw [step]
      split
      · next account there =>
          refine ⟨sound.cache, sound.tunnels, ?_, ?_⟩
          · intro sending among
            rcases List.mem_append.mp among with old | new
            · exact sound.own sending old
            · rw [List.mem_singleton.mp new]
              exact List.mem_of_getElem? there
          · intro sending among found finished
            rcases List.mem_append.mp among with old | new
            · exact sound.sendings sending old found finished
            · rw [List.mem_singleton.mp new] at finished
              cases finished
      · exact sound
  | record sending =>
      rw [step]
      split
      · next account target there =>
          have has := sound.own _ (List.mem_of_getElem? there)
          let next : Outlets :=
            { outlets with named := (names.lower target, account.exit) :: outlets.named }
          have more (key : List Char) (exit : Exit) (known : outlets.Known accounts key exit) :
              next.Known accounts key exit :=
            known.imp_right fun both => ⟨List.mem_cons_of_mem _ both.1, both.2⟩
          have here : next.Known accounts (names.lower target) account.exit :=
            .inr ⟨List.mem_cons_self, account, has, rfl⟩
          refine ⟨?_, fun tunnel among => (sound.tunnels tunnel among).more more, ?_, ?_⟩
          · dsimp only
            split
            · exact sound.cache.more more
            · next filled => exact (sound.cache.more more).put filled here
          · intro sending among
            rcases List.mem_or_eq_of_mem_set among with old | rfl
            · exact sound.own sending old
            · exact has
          · intro sending among found finished exit attached
            rcases List.mem_or_eq_of_mem_set among with old | rfl
            · exact (sound.sendings sending old found finished exit attached).imp_left (more _ exit)
            · cases finished
      · exact sound
  | get sending =>
      rw [step]
      split
      · next account target there =>
          have has := sound.own _ (List.mem_of_getElem? there)
          refine ⟨sound.cache, sound.tunnels, ?_, ?_⟩
          · intro sending among
            rcases List.mem_or_eq_of_mem_set among with old | rfl
            · exact sound.own sending old
            · exact has
          · intro sending among found finished exit attached
            rcases List.mem_or_eq_of_mem_set among with old | rfl
            · exact sound.sendings sending old found finished exit attached
            · cases finished
              exact sound.cache _ exit attached
      · exact sound

/-- A response to a request for this target got this exit. -/
def Responds (self : Outlets) (target : String) (found : Option Exit) : Prop :=
  (∃ tunnel ∈ self.tunnels, ∃ request ∈ tunnel.requests, request.target = target ∧
      ∃ carrier, request.stage = .finished carrier found) ∨
    ∃ sending ∈ self.sendings, sending.target = target ∧ sending.stage = .finished found

theorem Sound.responds (sound : outlets.Sound names accounts) {target : String} {exit : Exit}
    (given : outlets.Responds target (some exit)) :
    outlets.Known accounts (names.lower target) exit ∧ ¬ exit.isEmpty := by
  rcases given with ⟨tunnel, among, request, asked, rfl, carrier, finished⟩ |
    ⟨sending, among, rfl, finished⟩
  · have backed := (sound.tunnels tunnel among).requests request asked
    rw [finished] at backed
    exact backed exit rfl
  · exact sound.sendings sending among _ finished exit rfl

end Outlets

/-! ### The response -/

section Response

variable (crate : HeaderValues) (isp : String → String) (headers : HeaderMap)

/-- The end of `send`: the headers of the response that the client gets. -/
def responseHeaders (exit : Option Exit) : HeaderMap :=
  setEgressHeaders crate isp (stripHopHeaders headers) exit

/-- The values that an exit puts in, and those that are left as they are. -/
def namedExit (exit : Exit) (name : String) : List String :=
  if name = "x-unroxy-ip" then crate.replaced exit.ip (headers.values name)
  else if name = "x-unroxy-isp" ∧ isp exit.ip ≠ "" then
    crate.replaced (isp exit.ip) (headers.values name)
  else if name ∈ hopHeaders then [] else headers.values name

theorem values_responseHeaders {exit : Exit} (filled : ¬ exit.isEmpty) (name : String) :
    (responseHeaders crate isp headers (some exit)).values name =
      namedExit crate isp headers exit name := by
  have given : ¬ exit.ip.isEmpty := filled
  have noHop : "x-unroxy-ip" ∉ hopHeaders ∧ "x-unroxy-isp" ∉ hopHeaders := by decide
  rw [responseHeaders, setEgressHeaders]
  dsimp only
  rw [if_neg given, namedExit]
  by_cases silent : (isp exit.ip).isEmpty = true
  · have none : isp exit.ip = "" := by simpa using silent
    rw [if_pos silent, values_setHeader, stripHopHeaders, Multimap.values_removeAll]
    by_cases first : name = "x-unroxy-ip"
    · simp [first, noHop]
    · simp [first, none]
  · have some : isp exit.ip ≠ "" := by simpa using silent
    rw [if_neg silent, values_setHeader, values_setHeader, stripHopHeaders,
      Multimap.values_removeAll]
    by_cases first : name = "x-unroxy-ip"
    · simp [first, noHop]
    · by_cases second : name = "x-unroxy-isp"
      · simp [second, some, noHop]
      · simp [first, second]

end Response

/-- In every run of any number of requests over any tunnels and accounts: the exit that
a response names was recorded by a tunnel for the host of its target, or is that of an
account that named it for this host; the ISP is that of this very exit, the headers of
the connection are taken out, and all other headers are those of the host. -/
theorem response_named (names : Names) (accounts : List VpnExit) (steps : List OutletStep)
    (crate : HeaderValues) (isp : String → String) (headers : HeaderMap) (target : String)
    (found : Option Exit)
    (responds : (run (Outlets.step names accounts) .empty steps).Responds target found) :
    (found = none ∧ ∀ name, (responseHeaders crate isp headers found).values name =
        if name ∈ hopHeaders then [] else headers.values name) ∨
      ∃ exit, found = some exit ∧ exit.ip ≠ "" ∧
        (run (Outlets.step names accounts) .empty steps).Known accounts (names.lower target)
          exit ∧
        ∀ name, (responseHeaders crate isp headers found).values name =
          namedExit crate isp headers exit name := by
  have kept (outlets : Outlets) (action : OutletStep) (sound : outlets.Sound names accounts) :
      (outlets.step names accounts action).Sound names accounts :=
    Outlets.sound_step sound action
  have sound := run_always kept steps (Outlets.sound_empty names accounts)
  cases found with
  | none =>
      refine .inl ⟨rfl, fun name => ?_⟩
      exact Multimap.values_removeAll headers name hopHeaders
  | some exit =>
      obtain ⟨known, filled⟩ := sound.responds responds
      refine .inr ⟨exit, rfl, ?_, known, values_responseHeaders crate isp headers filled⟩
      simpa [Exit.isEmpty] using filled

/-- One request over a tunnel. -/
def oneRequest : List OutletStep :=
  .start "US" ::
    [.accept "example.com" Traffic.twoSessions 0, .recordExit 0, .send "example.com", .answer 0 0,
      .exitFor 0, .record 0, .get 0].map (OutletStep.tunnel 0)

/-- What a host answers that makes up an exit. -/
def forged : HeaderMap :=
  [("connection", "close"), ("x-unroxy-ip", "10.0.0.1"), ("content-type", "text/html")]

theorem response_named_forged :
    let exit : Exit := ⟨"192.0.2.1", "US", "SSH"⟩
    let response := responseHeaders .noControls (fun _ => "ExampleNet") forged (some exit)
    (run (Outlets.step .plain []) .empty oneRequest).Known [] "example.com".toList exit ∧
      response.values "x-unroxy-ip" = ["192.0.2.1"] ∧
      response.values "x-unroxy-isp" = ["ExampleNet"] ∧ response.values "connection" = [] := by
  have responds : (run (Outlets.step .plain []) .empty oneRequest).Responds "example.com"
      (some ⟨"192.0.2.1", "US", "SSH"⟩) := by
    refine .inl ⟨_, List.mem_cons_self, _, List.mem_cons_self, rfl, ⟨"192.0.2.1", "SSH"⟩, ?_⟩
    decide
  rcases response_named .plain [] oneRequest .noControls (fun _ => "ExampleNet") forged _ _
    responds with ⟨missing, -⟩ | ⟨exit, same, -, known, values⟩
  · cases missing
  · cases same
    exact ⟨known, (values _).trans (by decide), (values _).trans (by decide),
      (values _).trans (by decide)⟩

end Unroxy.Ssh
