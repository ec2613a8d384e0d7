import Unroxy.Lib.Lru
import Unroxy.Lib.Run
import Unroxy.Lib.Utf8
import Unroxy.Proxy.Server

/-!
Owns how the exit of a session gets to a response: `record_exit`, `dial` and
`exit_for` of `ssh/mod.rs`, `handle` of `ssh/socks.rs`, `ExitCache` of
`proxy/exit.rs`, and the ends of `send` in `forward.rs` and of `handle_connect` in
`proxy/server.rs`.

A step is one access to one of the two caches, or an event on the network. Which
sessions `pick_session` finds open, what its counter says, and which connection
brings a response are the step's: the client pools its connections and may use
one again. What `to_lowercase` makes of a host, and which host the client asks the
SOCKS server for, are parameters.

Does not own the sessions, and who picks the tunnel.
-/

namespace Unroxy.Ssh

open Unroxy.Lib
open Unroxy.Lib.Utf8 (Ascii)
open Unroxy.Proxy (asciiLower)

structure Exit where
  ip : String
  region : String
  protocol : String
deriving DecidableEq, Repr

instance : Inhabited Exit := ⟨{ ip := "", region := "", protocol := "" }⟩

def Exit.isEmpty (self : Exit) : Bool := self.ip.isEmpty

/-- `to_lowercase`, for which nothing is said outside of ASCII. -/
structure Lowercase where
  lower : String → List Char
  ascii : ∀ text, Ascii text → lower text = asciiLower text

/-- Only ASCII letters change. -/
def Lowercase.asciiOnly : Lowercase where
  lower := asciiLower
  ascii _ _ := rfl

/-- The host that the client asks the SOCKS server for, given the target of a request,
and the key of a host. -/
structure Names extends Lowercase where
  dialed : String → String

/-- The host is the target. -/
def Names.plain : Names := { Lowercase.asciiOnly with dialed := id }

structure Session where
  ip : String
  protocol : String
deriving DecidableEq, Repr

/-- `pick_session`, unless it gives up. -/
def pickSession (opened : List Session) (rotate : UInt64) : Option Session :=
  opened[rotate.toNat % opened.length]?

/-- A connection of the SOCKS server, for which it has replied. -/
structure Connection where
  session : Session
  host : String
  recorded : Bool
deriving DecidableEq, Repr

/-- What `send` does next. -/
inductive SendStage where
  /-- The response is awaited. -/
  | sent
  /-- `exit_for`. -/
  | answered (carrier : Session)
  /-- `record` of the proxy. -/
  | looked (carrier : Session) (exit : Exit)
  /-- `get`. -/
  | recorded (carrier : Session)
  /-- The exit is attached. -/
  | finished (carrier : Session) (exit : Option Exit)
deriving DecidableEq, Repr

structure Sending where
  target : String
  stage : SendStage
deriving DecidableEq, Repr

/-- What `handle_connect` does next. -/
inductive ConnectStage where
  /-- `record_exit`, in `dial`. -/
  | dialed (carrier : Session)
  /-- `exit_for`. -/
  | noted
  /-- `record` of the proxy. -/
  | looked (exit : Exit)
  | established
deriving DecidableEq, Repr

structure Connecting where
  host : String
  stage : ConnectStage
deriving DecidableEq, Repr

/-- One tunnel, the proxy's cache and everything that uses them. -/
structure Traffic where
  region : String
  exits : Lru (List Char) Exit 1024
  cache : Lru (List Char) Exit 4096
  connections : List Connection
  requests : List Sending
  tunnels : List Connecting
deriving DecidableEq, Repr

inductive TrafficStep where
  | accept (host : String) (opened : List Session) (rotate : UInt64)
  | recordExit (connection : Nat)
  | send (target : String)
  | answer (request connection : Nat)
  | exitFor (request : Nat)
  | record (request : Nat)
  | get (request : Nat)
  | dial (host : String) (opened : List Session) (rotate : UInt64)
  | recordDialed (tunnel : Nat)
  | exitForDialed (tunnel : Nat)
  | recordTunnel (tunnel : Nat)
deriving DecidableEq, Repr

namespace Traffic

def start (region : String) : Traffic where
  region
  exits := .empty
  cache := .empty
  connections := []
  requests := []
  tunnels := []

/-- The exit that `record_exit` makes of a session. -/
def exitOf (self : Traffic) (session : Session) : Exit where
  ip := session.ip
  region := self.region
  protocol := session.protocol

def exitFor (names : Names) (self : Traffic) (host : String) : Exit :=
  (self.exits.peek (names.lower host)).getD default

def recordExit (names : Names) (self : Traffic) (host : String) (session : Session) : Traffic :=
  { self with exits := self.exits.put (names.lower host) (self.exitOf session) }

/-- `ExitCache::record`. -/
def record (names : Names) (self : Traffic) (host : String) (exit : Exit) : Traffic :=
  if exit.isEmpty then self else { self with cache := self.cache.put (names.lower host) exit }

/-- `ExitCache::get`. -/
def get (names : Names) (self : Traffic) (host : String) : Option Exit :=
  self.cache.peek (names.lower host)

def become (self : Traffic) (request : Nat) (target : String) (stage : SendStage) : Traffic :=
  { self with requests := self.requests.set request { target, stage } }

def progress (self : Traffic) (tunnel : Nat) (host : String) (stage : ConnectStage) : Traffic :=
  { self with tunnels := self.tunnels.set tunnel { host, stage } }

def step (names : Names) (self : Traffic) : TrafficStep → Traffic
  | .accept host opened rotate =>
      match pickSession opened rotate with
      | some session =>
          { self with connections := self.connections ++ [{ session, host, recorded := false }] }
      | none => self
  | .recordExit connection =>
      match self.connections[connection]? with
      | some { session, host, recorded := false } =>
          { self.recordExit names host session with
            connections := self.connections.set connection { session, host, recorded := true } }
      | _ => self
  | .send target => { self with requests := self.requests ++ [{ target, stage := .sent }] }
  | .answer request connection =>
      match self.requests[request]?, self.connections[connection]? with
      | some { target, stage := .sent }, some carrier =>
          if carrier.host = names.dialed target then
            self.become request target (.answered carrier.session)
          else self
      | _, _ => self
  | .exitFor request =>
      match self.requests[request]? with
      | some { target, stage := .answered carrier } =>
          self.become request target (.looked carrier (self.exitFor names target))
      | _ => self
  | .record request =>
      match self.requests[request]? with
      | some { target, stage := .looked carrier exit } =>
          (self.record names target exit).become request target (.recorded carrier)
      | _ => self
  | .get request =>
      match self.requests[request]? with
      | some { target, stage := .recorded carrier } =>
          self.become request target (.finished carrier (self.get names target))
      | _ => self
  | .dial host opened rotate =>
      match pickSession opened rotate with
      | some session =>
          { self with tunnels := self.tunnels ++ [{ host, stage := .dialed session }] }
      | none => self
  | .recordDialed tunnel =>
      match self.tunnels[tunnel]? with
      | some { host, stage := .dialed carrier } =>
          (self.recordExit names host carrier).progress tunnel host .noted
      | _ => self
  | .exitForDialed tunnel =>
      match self.tunnels[tunnel]? with
      | some { host, stage := .noted } =>
          self.progress tunnel host (.looked (self.exitFor names host))
      | _ => self
  | .recordTunnel tunnel =>
      match self.tunnels[tunnel]? with
      | some { host, stage := .looked exit } =>
          (self.record names host exit).progress tunnel host .established
      | _ => self

/-! ### Who needs which entry -/

end Traffic

/-- The response is there and its exit is not looked up yet. -/
def SendStage.answering : SendStage → Option Session
  | .answered carrier => some carrier
  | _ => none

/-- The exit the proxy is about to record. -/
def SendStage.putting : SendStage → Option Exit
  | .looked _ exit => some exit
  | _ => none

/-- The exit is recorded and not taken yet. -/
def SendStage.getting : SendStage → Option Session
  | .recorded carrier => some carrier
  | _ => none

/-- The session whose exit is about to be recorded. -/
def ConnectStage.noting : ConnectStage → Option Session
  | .dialed carrier => some carrier
  | _ => none

def ConnectStage.putting : ConnectStage → Option Exit
  | .looked exit => some exit
  | _ => none

namespace Traffic

def awaitingExit (names : Names) (self : Traffic) : List (List Char × Exit) :=
  self.requests.filterMap fun request => request.stage.answering.map fun carrier =>
    (names.lower request.target, self.exitOf carrier)

def awaitingGet (names : Names) (self : Traffic) : List (List Char × Exit) :=
  self.requests.filterMap fun request => request.stage.getting.map fun carrier =>
    (names.lower request.target, self.exitOf carrier)

/-- `record_exit` takes no entry away that a request needs. -/
def SparesExits (names : Names) (self : Traffic) (host : String) (session : Session) : Prop :=
  ∀ entry ∈ self.awaitingExit names,
    self.exits.Spares (names.lower host) (self.exitOf session) entry

/-- `record` takes no entry away that a request needs. -/
def SparesCache (names : Names) (self : Traffic) (host : String) (exit : Exit) : Prop :=
  exit.isEmpty ∨ ∀ entry ∈ self.awaitingGet names, self.cache.Spares (names.lower host) exit entry

/-- A response comes while the last exit recorded for its host is that of the
session that carries it, and nobody takes that exit away before it is attached. -/
def Undisturbed (names : Names) (self : Traffic) : TrafficStep → Prop
  | .recordExit connection => ∀ carrier ∈ self.connections[connection]?,
      carrier.recorded ∨ self.SparesExits names carrier.host carrier.session
  | .answer request connection => ∀ asked ∈ self.requests[request]?,
      ∀ carrier ∈ self.connections[connection]?,
        self.exits.peek (names.lower asked.target) = some (self.exitOf carrier.session) ∧
          ¬ (self.exitOf carrier.session).isEmpty
  | .record request => ∀ asked ∈ self.requests[request]?, ∀ exit ∈ asked.stage.putting,
      self.SparesCache names asked.target exit
  | .recordDialed tunnel => ∀ made ∈ self.tunnels[tunnel]?, ∀ carrier ∈ made.stage.noting,
      self.SparesExits names made.host carrier
  | .recordTunnel tunnel => ∀ made ∈ self.tunnels[tunnel]?, ∀ exit ∈ made.stage.putting,
      self.SparesCache names made.host exit
  | _ => True

instance (names : Names) (self : Traffic) (host : String) (session : Session) :
    Decidable (self.SparesExits names host session) :=
  inferInstanceAs (Decidable (∀ entry ∈ self.awaitingExit names, _))

instance (names : Names) (self : Traffic) (host : String) (exit : Exit) :
    Decidable (self.SparesCache names host exit) :=
  inferInstanceAs (Decidable (exit.isEmpty ∨ ∀ entry ∈ self.awaitingGet names, _))

instance (names : Names) (self : Traffic) : ∀ action, Decidable (self.Undisturbed names action)
  | .accept .. => .isTrue trivial
  | .recordExit connection => inferInstanceAs
      (Decidable (∀ carrier ∈ self.connections[connection]?, carrier.recorded ∨ _))
  | .send _ => .isTrue trivial
  | .answer request connection => inferInstanceAs
      (Decidable (∀ asked ∈ self.requests[request]?,
        ∀ carrier ∈ self.connections[connection]?, _ ∧ _))
  | .exitFor _ => .isTrue trivial
  | .record request => inferInstanceAs
      (Decidable (∀ asked ∈ self.requests[request]?, ∀ exit ∈ asked.stage.putting, _))
  | .get _ => .isTrue trivial
  | .dial .. => .isTrue trivial
  | .recordDialed tunnel => inferInstanceAs
      (Decidable (∀ made ∈ self.tunnels[tunnel]?, ∀ carrier ∈ made.stage.noting, _))
  | .exitForDialed _ => .isTrue trivial
  | .recordTunnel tunnel => inferInstanceAs
      (Decidable (∀ made ∈ self.tunnels[tunnel]?, ∀ exit ∈ made.stage.putting, _))

/-- The request will get the exit of its carrier, or got it. -/
def Fits (names : Names) (self : Traffic) (request : Sending) : Prop :=
  match request.stage with
  | .sent => True
  | .answered carrier =>
      self.exits.peek (names.lower request.target) = some (self.exitOf carrier) ∧
        ¬ (self.exitOf carrier).isEmpty
  | .looked carrier exit => exit = self.exitOf carrier ∧ ¬ exit.isEmpty
  | .recorded carrier => self.cache.peek (names.lower request.target) = some (self.exitOf carrier)
  | .finished carrier exit => exit = some (self.exitOf carrier)

def Attributed (names : Names) (self : Traffic) : Prop :=
  ∀ request ∈ self.requests, self.Fits names request

variable {names : Names} {self : Traffic}

theorem Fits.recordExit {request : Sending} (fits : self.Fits names request)
    (member : request ∈ self.requests) {host : String} {session : Session}
    (spares : self.SparesExits names host session) :
    (self.recordExit names host session).Fits names request := by
  obtain ⟨target, stage⟩ := request
  cases stage with
  | answered carrier =>
      have awaited : (names.lower target, self.exitOf carrier) ∈ self.awaitingExit names :=
        List.mem_filterMap.mpr ⟨_, member, rfl⟩
      exact ⟨(spares _ awaited).peek (by decide) fits.1, fits.2⟩
  | sent => exact fits
  | looked carrier exit => exact fits
  | recorded carrier => exact fits
  | finished carrier exit => exact fits

theorem Fits.record {request : Sending} (fits : self.Fits names request)
    (member : request ∈ self.requests) {host : String} {exit : Exit}
    (spares : self.SparesCache names host exit) :
    (self.record names host exit).Fits names request := by
  rw [Traffic.record]
  split
  · exact fits
  · next full =>
      obtain ⟨target, stage⟩ := request
      cases stage with
      | recorded carrier =>
          have awaited : (names.lower target, self.exitOf carrier) ∈ self.awaitingGet names :=
            List.mem_filterMap.mpr ⟨_, member, rfl⟩
          exact (spares.resolve_left full _ awaited).peek (by decide) fits
      | sent => exact fits
      | answered carrier => exact fits
      | looked carrier found => exact fits
      | finished carrier found => exact fits

theorem requests_record (names : Names) (host : String) (exit : Exit) :
    (self.record names host exit).requests = self.requests := by
  rw [record]
  split
  · rfl
  · rfl

theorem exitOf_record (host : String) (exit : Exit) (session : Session) :
    (self.record names host exit).exitOf session = self.exitOf session := by
  rw [record]
  split
  · rfl
  · rfl

theorem attributed_recordExit (attributed : self.Attributed names) {host : String}
    {session : Session} (spares : self.SparesExits names host session) :
    (self.recordExit names host session).Attributed names :=
  fun request member => (attributed request member).recordExit member spares

theorem attributed_record (attributed : self.Attributed names) {host : String} {exit : Exit}
    (spares : self.SparesCache names host exit) :
    (self.record names host exit).Attributed names := by
  intro request member
  rw [requests_record] at member
  exact (attributed request member).record member spares

/-- One request goes on. -/
theorem Attributed.become (attributed : self.Attributed names) {request : Nat} {target : String}
    {stage : SendStage} (fits : self.Fits names { target, stage }) :
    (self.become request target stage).Attributed names := by
  intro other member
  rcases List.mem_or_eq_of_mem_set member with old | rfl
  · exact attributed other old
  · exact fits

theorem attributed_answer (attributed : self.Attributed names) {request connection : Nat}
    (undisturbed : self.Undisturbed names (.answer request connection)) :
    (self.step names (.answer request connection)).Attributed names := by
  rw [step]
  split
  · next target carrier asked carried =>
      split
      · exact attributed.become (undisturbed _ asked carrier carried)
      · exact attributed
  · exact attributed

theorem attributed_exitFor (attributed : self.Attributed names) (request : Nat) :
    (self.step names (.exitFor request)).Attributed names := by
  rw [step]
  split
  · next target carrier asked =>
      obtain ⟨entry, full⟩ := attributed _ (List.mem_of_getElem? asked)
      have found : self.exitFor names target = self.exitOf carrier := by
        rw [exitFor, entry]
        rfl
      apply attributed.become
      rw [found]
      exact ⟨rfl, full⟩
  · exact attributed

theorem attributed_put (attributed : self.Attributed names) {request : Nat}
    (undisturbed : self.Undisturbed names (.record request)) :
    (self.step names (.record request)).Attributed names := by
  rw [step]
  split
  · next target carrier exit asked =>
      obtain ⟨rfl, full⟩ := attributed _ (List.mem_of_getElem? asked)
      have spares := undisturbed _ asked _ rfl
      apply (attributed_record attributed spares).become
      change (self.record names target (self.exitOf carrier)).cache.peek (names.lower target) =
        some ((self.record names target (self.exitOf carrier)).exitOf carrier)
      rw [exitOf_record, record, if_neg full]
      exact self.cache.peek_put_self (by decide)
  · exact attributed

theorem attributed_get (attributed : self.Attributed names) (request : Nat) :
    (self.step names (.get request)).Attributed names := by
  rw [step]
  split
  · next target carrier asked =>
      have entry := attributed _ (List.mem_of_getElem? asked)
      exact attributed.become entry
  · exact attributed

theorem attributed_step (attributed : self.Attributed names) {action : TrafficStep}
    (undisturbed : self.Undisturbed names action) :
    (self.step names action).Attributed names := by
  cases action with
  | accept host opened rotate =>
      rw [step]
      split
      · exact attributed
      · exact attributed
  | recordExit connection =>
      rw [step]
      split
      · next session host carried =>
          have spares := (undisturbed _ carried).resolve_left Bool.false_ne_true
          exact attributed_recordExit attributed spares
      · exact attributed
  | send target =>
      intro request member
      rcases List.mem_append.mp member with old | new
      · exact attributed request old
      · rw [List.mem_singleton.mp new]
        trivial
  | answer request connection => exact attributed_answer attributed undisturbed
  | exitFor request => exact attributed_exitFor attributed request
  | record request => exact attributed_put attributed undisturbed
  | get request => exact attributed_get attributed request
  | dial host opened rotate =>
      rw [step]
      split
      · exact attributed
      · exact attributed
  | recordDialed tunnel =>
      rw [step]
      split
      · next host carrier made =>
          exact attributed_recordExit attributed (undisturbed _ made _ rfl)
      · exact attributed
  | exitForDialed tunnel =>
      rw [step]
      split
      · exact attributed
      · exact attributed
  | recordTunnel tunnel =>
      rw [step]
      split
      · next host exit made => exact attributed_record attributed (undisturbed _ made _ rfl)
      · exact attributed

theorem attributed_run {region : String} {steps : List TrafficStep}
    (undisturbed : Along (step names) (Undisturbed names) (start region) steps) :
    (run (step names) (start region) steps).Attributed names := by
  have kept (traffic : Traffic) (action : TrafficStep) (held : traffic.Attributed names)
      (allowed : traffic.Undisturbed names action) : (traffic.step names action).Attributed names :=
    attributed_step held allowed
  have begins : (start region).Attributed names := fun _ member => absurd member List.not_mem_nil
  exact run_invariant kept steps begins undisturbed

theorem Attributed.finished (attributed : self.Attributed names) {request : Sending}
    (member : request ∈ self.requests) {carrier : Session} {exit : Option Exit}
    (finished : request.stage = .finished carrier exit) : exit = some (self.exitOf carrier) := by
  have fits := attributed request member
  rw [Fits, finished] at fits
  exact fits

/-- In a run in which every response comes while the last exit recorded for its
host is that of its carrier, and in which nobody takes that exit away before it is
attached, every response gets the exit of the session that carried it. -/
theorem exits_attributed (names : Names) (region : String) (steps : List TrafficStep)
    (undisturbed : Along (step names) (Undisturbed names) (start region) steps) :
    ∀ request ∈ (run (step names) (start region) steps).requests, ∀ carrier exit,
      request.stage = .finished carrier exit →
        exit = some ((run (step names) (start region) steps).exitOf carrier) :=
  fun _ member _ _ finished => (attributed_run undisturbed).finished member finished

/-- Two sessions of a tunnel. -/
def twoSessions : List Session := [⟨"192.0.2.1", "SSH"⟩, ⟨"192.0.2.2", "OSSH"⟩]

/-- A request to one host while a tunnel to another is made. -/
def twoHosts : List TrafficStep :=
  [.accept "example.com" twoSessions 0, .recordExit 0, .send "Example.com",
    .dial "example.org" twoSessions 1, .answer 0 0, .recordDialed 0, .exitFor 0,
    .exitForDialed 0, .record 0, .recordTunnel 0, .get 0]

theorem exits_attributed_two_hosts :
    Along (step .plain) (Undisturbed .plain) (start "US") twoHosts ∧
      ∀ request ∈ (run (step .plain) (start "US") twoHosts).requests, ∀ carrier exit,
        request.stage = .finished carrier exit →
          exit = some ((run (step .plain) (start "US") twoHosts).exitOf carrier) := by
  have undisturbed : Along (step .plain) (Undisturbed .plain) (start "US") twoHosts := by decide
  exact ⟨undisturbed, exits_attributed .plain "US" twoHosts undisturbed⟩

/-- Two requests to one host over two sessions. -/
def oneHost : List TrafficStep :=
  [.accept "example.com" twoSessions 0, .recordExit 0, .send "example.com",
    .accept "example.com" twoSessions 1, .recordExit 1, .send "example.com", .answer 0 0,
    .exitFor 0, .record 0, .get 0]

/-- The first response gets the exit of the second connection. -/
theorem not_exits_attributed_one_host :
    ¬ ∀ (names : Names) (region : String) (steps : List TrafficStep),
      ∀ request ∈ (run (step names) (start region) steps).requests, ∀ carrier exit,
        request.stage = .finished carrier exit →
          exit = some ((run (step names) (start region) steps).exitOf carrier) := by
  intro attributed
  have first : (run (step .plain) (start "US") oneHost).requests.head? =
      some ⟨"example.com", .finished ⟨"192.0.2.1", "SSH"⟩
        (some ⟨"192.0.2.2", "US", "OSSH"⟩)⟩ := by
    decide
  have wrong := attributed .plain "US" oneHost _ (List.mem_of_head? first) _ _ rfl
  revert wrong
  decide

end Traffic

end Unroxy.Ssh
