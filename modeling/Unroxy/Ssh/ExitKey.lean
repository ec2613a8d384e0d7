import Unroxy.Ssh.Exits
import Unroxy.Ssh.Socks

/-!
Owns whether a request in absolute form finds the exit of its connection: the key
that `exit_for` and `get` look up is the target's host, which `absolute` takes from
the authority, and the key that `record_exit` puts is the host that `handle` reads.

What else uses the tunnel is any run of the traffic. The HTTP client asks the SOCKS
server for the host of the URI, without its port. `to_lowercase` may do to other
characters what it likes, for the authority of a URI is ASCII.

Does not own whose exit it is that was recorded last.
-/

namespace Unroxy.Ssh.Traffic

open Unroxy.Lib
open Unroxy.Lib.Address (ascii_of_hostChar hostChar_of_all)
open Unroxy.Proxy (absolute ascii_text asciiLower bareHost bareHost_text AbsoluteForm Authority
  Proxy Target)
open Unroxy.Ssh.Socks (SocksClient)

/-- The client asks the SOCKS server for the host of the URI. -/
def bareNames (lowercase : Lowercase) : Names := { lowercase with dialed := bareHost }

/-- A response to a request for this target comes over this connection, and the end
of `send` is not interrupted. -/
def serve (self : Traffic) (target : String) (connection : Nat) : List TrafficStep :=
  let request := self.requests.length
  [.send target, .answer request connection, .exitFor request, .record request, .get request]

/-- The SOCKS server recorded the exit of this connection, and it is still there. -/
structure Holds (names : Names) (traffic : Traffic) (connection : Nat) (carrier : Connection) :
    Prop where
  carries : traffic.connections[connection]? = some carrier
  recorded : carrier.recorded = true
  entry : traffic.exits.peek (names.lower carrier.host) = some (traffic.exitOf carrier.session)
  full : ¬ (traffic.exitOf carrier.session).isEmpty

/-- The exit of the connection is found, and the response carries it. -/
def Finds (names : Names) (self : Traffic) (target : String) (connection : Nat)
    (carrier : Connection) : Prop :=
  self.exitFor names target = self.exitOf carrier.session ∧
    (run (step names) self (self.serve target connection)).requests = self.requests ++
      [{ target, stage := .finished carrier.session (some (self.exitOf carrier.session)) }]

/-- The tunnel with one more request. -/
def last (self : Traffic) (request : Sending) : Traffic :=
  { self with requests := self.requests ++ [request] }

variable {names : Names} {self : Traffic} {target : String} {connection : Nat}
  {carrier : Connection}

theorem requests_last (request : Sending) :
    (self.last request).requests[self.requests.length]? = some request := by
  simp [last]

theorem become_last (request : Sending) (stage : SendStage) :
    (self.last request).become self.requests.length target stage =
      self.last { target, stage } := by
  simp [last, become]

theorem record_last (request : Sending) (exit : Exit) :
    (self.last request).record names target exit =
      (self.record names target exit).last request := by
  unfold record
  split
  · rfl
  · rfl

theorem step_answer_last (carries : self.connections[connection]? = some carrier)
    (asked : carrier.host = names.dialed target) :
    (self.last { target, stage := .sent }).step names
        (.answer self.requests.length connection) =
      self.last { target, stage := .answered carrier.session } := by
  have carried : (self.last { target, stage := .sent }).connections[connection]? =
    some carrier := carries
  rw [step, requests_last, carried]
  dsimp only
  rw [if_pos asked, become_last]

theorem step_exitFor_last (session : Session) :
    (self.last { target, stage := .answered session }).step names
        (.exitFor self.requests.length) =
      self.last { target, stage := .looked session (self.exitFor names target) } := by
  rw [step, requests_last]
  dsimp only
  rw [become_last]
  rfl

theorem step_record_last (session : Session) (exit : Exit) :
    (self.last { target, stage := .looked session exit }).step names
        (.record self.requests.length) =
      (self.record names target exit).last { target, stage := .recorded session } := by
  rw [step, requests_last]
  dsimp only
  rw [record_last, ← requests_record names target exit, become_last]

theorem step_get_last (session : Session) :
    (self.last { target, stage := .recorded session }).step names
        (.get self.requests.length) =
      self.last { target, stage := .finished session (self.get names target) } := by
  rw [step, requests_last]
  dsimp only
  rw [become_last]
  rfl

/-- What the response carries is what `get` finds after `record`. -/
theorem requests_serve (carries : self.connections[connection]? = some carrier)
    (asked : carrier.host = names.dialed target) :
    (run (step names) self (self.serve target connection)).requests = self.requests ++
      [{ target
         stage := .finished carrier.session
          ((self.record names target (self.exitFor names target)).get names target) }] := by
  have sent : self.step names (.send target) = self.last { target, stage := .sent } := rfl
  have same := self.requests_record names target (self.exitFor names target)
  unfold serve
  rw [run_cons, sent, run_cons, step_answer_last carries asked, run_cons, step_exitFor_last,
    run_cons, step_record_last, run_cons]
  rw [← same, step_get_last]
  rfl

/-- With the same key for both, the exit is found. -/
theorem Holds.finds (holds : self.Holds names connection carrier)
    (asked : carrier.host = names.dialed target)
    (key : names.lower target = names.lower carrier.host) :
    self.Finds names target connection carrier := by
  have found : self.exitFor names target = self.exitOf carrier.session := by
    rw [exitFor, key, holds.entry]
    rfl
  refine ⟨found, ?_⟩
  rw [requests_serve holds.carries asked, found, record, if_neg holds.full, get]
  rw [Lru.peek_put_self _ (by decide)]

/-- A session whose exit is recorded for one host. -/
def firstSession : Session := ⟨"192.0.2.1", "SSH"⟩

def recordedOnce (host : String) : List TrafficStep :=
  [.accept host [firstSession] 0, .recordExit 0]

theorem holds_recordedOnce (names : Names) (region host : String) :
    (run (step names) (start region) (recordedOnce host)).Holds names 0
      { session := firstSession, host, recorded := true } where
  carries := rfl
  recorded := rfl
  entry := Lru.peek_put_self _ (by decide)
  full := by
    change ¬ firstSession.ip.isEmpty
    decide

/-- Nothing is recorded for another host. -/
theorem exitFor_recordedOnce (region : String) {host target : String}
    (other : names.lower target ≠ names.lower host) :
    (run (step names) (start region) (recordedOnce host)).exitFor names target = default := by
  have empty : (Lru.empty : Lru (List Char) Exit 1024).peek (names.lower target) = none := rfl
  have exits : (run (step names) (start region) (recordedOnce host)).exits =
      Lru.empty.put (names.lower host) ((start region).exitOf firstSession) := rfl
  have missing : (run (step names) (start region) (recordedOnce host)).exits.peek
      (names.lower target) = none := by
    rw [exits]
    rcases Lru.peek_put_of_ne Lru.empty other with kept | dropped
    · rw [kept, empty]
    · exact dropped
  rw [exitFor, missing]
  rfl

/-- A port makes the key another one. -/
theorem lower_text_iff (lowercase : Lowercase) (authority : Authority) :
    lowercase.lower authority.text = lowercase.lower authority.host.text ↔
      authority.port = none := by
  rw [lowercase.ascii _ (ascii_text authority),
    lowercase.ascii _ (ascii_of_hostChar authority.host.plain)]
  cases port : authority.port with
  | none => simp [Authority.text, port]
  | some port =>
      simp only [reduceCtorEq, iff_false]
      intro same
      have lengths := congrArg List.length same
      simp [asciiLower, Authority.text, port] at lengths

/-- For a request in absolute form, the exit that was recorded for its connection is
always found exactly if the authority has no port. -/
theorem exit_found_iff {φ : Type} [Inhabited φ] (lowercase : Lowercase) (client : SocksClient)
    (form : AbsoluteForm) :
    (∀ (proxy : Proxy φ) (username : String) (forward : φ) (target : Target),
      absolute proxy username form.uri = .ok (forward, target) →
      ∀ (region : String) (steps : List TrafficStep) (connection : Nat) (carrier : Connection),
        (run (step (bareNames lowercase)) (start region) steps).Holds (bareNames lowercase)
          connection carrier →
        Socks.handle (client.ask form.authority.host form.port) = some (carrier.host, form.port) →
        (run (step (bareNames lowercase)) (start region) steps).Finds (bareNames lowercase)
          target.host connection carrier) ↔
      form.authority.port = none := by
  have reads := Socks.handle_ask client form.authority.host form.port
  constructor
  · intro finds
    by_contra ported
    have other : lowercase.lower form.target.host ≠ lowercase.lower form.authority.host.text :=
      fun same => ported ((lower_text_iff lowercase form.authority).mp same)
    have forwards : absolute (Proxy.new 0 (some default)) "" form.uri =
      .ok ((default : φ), form.target) := form.absolute_uri _ _
    have found := (finds _ "" default form.target forwards "" _ 0 _
      (holds_recordedOnce _ "" form.authority.host.text) reads).1
    rw [exitFor_recordedOnce "" other] at found
    have address : "" = firstSession.ip := congrArg Exit.ip found
    exact absurd address (by decide)
  · intro plain proxy username forward target forwards region steps connection carrier holds asked
    have host : carrier.host = form.authority.host.text := by
      rw [reads] at asked
      injection asked with both
      exact (congrArg Prod.fst both).symm
    have authority := AbsoluteForm.host_absolute forwards
    apply holds.finds
    · rw [host, authority]
      exact (bareHost_text form.authority).symm
    · rw [host, authority]
      exact (lower_text_iff lowercase form.authority).mpr plain

/-- `http://example.com:8080/` -/
def portGiven : AbsoluteForm where
  scheme := .http
  authority :=
    { host := .named ⟨"example.com", hostChar_of_all (by decide), by decide⟩
      port := some ⟨"8080", by decide, List.all_eq_true.mp (by decide), by decide⟩ }
  path := "/"
  query := none

/-- The exit is recorded for `example.com` and looked up for `example.com:8080`. -/
theorem exit_missed_with_port :
    ¬ ∀ (lowercase : Lowercase) (client : SocksClient) (form : AbsoluteForm) (proxy : Proxy Unit)
        (username : String) (forward : Unit) (target : Target),
      absolute proxy username form.uri = .ok (forward, target) →
      ∀ (region : String) (steps : List TrafficStep) (connection : Nat) (carrier : Connection),
        (run (step (bareNames lowercase)) (start region) steps).Holds (bareNames lowercase)
          connection carrier →
        Socks.handle (client.ask form.authority.host form.port) = some (carrier.host, form.port) →
        (run (step (bareNames lowercase)) (start region) steps).Finds (bareNames lowercase)
          target.host connection carrier := by
  intro finds
  have found := (finds .asciiOnly ⟨[0], by decide, true⟩ portGiven (Proxy.new 0 (some ())) "" ()
    portGiven.target rfl "" (recordedOnce "example.com") 0 _
    (holds_recordedOnce _ "" "example.com") (by decide)).1
  revert found
  decide

end Unroxy.Ssh.Traffic
