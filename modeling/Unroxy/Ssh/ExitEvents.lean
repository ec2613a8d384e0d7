import Mathlib.Data.List.Dedup
import Unroxy.Ssh.Exits

/-!
Owns what the events of a run say about the exits that responses get: which sessions
had their exits recorded for a host, and for how many other hosts since.

The log holds what was put into the two caches, the latest first. No step reads it.

Does not own the steps.
-/

namespace Unroxy.Ssh

open Unroxy.Lib

namespace Traffic

/-- What a step puts into the tunnel's cache: the host of a connection or a tunnel that
is made, and the exit of its session. -/
def recording (names : Names) (self : Traffic) : TrafficStep → List (List Char × Exit)
  | .recordExit connection =>
      match self.connections[connection]? with
      | some { session, host, recorded := false } => [(names.lower host, self.exitOf session)]
      | _ => []
  | .recordDialed tunnel =>
      match self.tunnels[tunnel]? with
      | some { host, stage := .dialed carrier } => [(names.lower host, self.exitOf carrier)]
      | _ => []
  | _ => []

/-- What `record` puts into the proxy's cache. -/
def entryOf (names : Names) (host : String) (exit : Exit) : List (List Char × Exit) :=
  if exit.isEmpty then [] else [(names.lower host, exit)]

/-- What a step puts into the proxy's cache. -/
def storing (names : Names) (self : Traffic) : TrafficStep → List (List Char × Exit)
  | .record request =>
      match self.requests[request]? with
      | some { target, stage := .looked _ exit } => entryOf names target exit
      | _ => []
  | .recordTunnel tunnel =>
      match self.tunnels[tunnel]? with
      | some { host, stage := .looked exit } => entryOf names host exit
      | _ => []
  | _ => []

variable {names : Names} {self : Traffic} {puts : List (List Char × Exit)}

theorem exits_record (host : String) (exit : Exit) :
    (self.record names host exit).exits = self.exits := by
  rw [record]
  split
  · rfl
  · rfl

theorem cache_record (logged : self.cache = Lru.ofPuts 4096 puts) (host : String) (exit : Exit) :
    (self.record names host exit).cache = Lru.ofPuts 4096 (entryOf names host exit ++ puts) := by
  rw [record, entryOf]
  split
  · exact logged
  · exact congrArg (Lru.put · _ _) logged

/-- Each cache is what its puts leave. -/
theorem caches_step {stored : List (List Char × Exit)} (exits : self.exits = Lru.ofPuts 1024 puts)
    (cache : self.cache = Lru.ofPuts 4096 stored) (action : TrafficStep) :
    (self.step names action).exits = Lru.ofPuts 1024 (self.recording names action ++ puts) ∧
      (self.step names action).cache =
        Lru.ofPuts 4096 (self.storing names action ++ stored) := by
  have same := And.intro exits cache
  cases action with
  | accept host opened rotate =>
      rw [step]
      split
      · exact same
      · exact same
  | recordExit connection =>
      rw [step, recording]
      rcases self.connections[connection]? with _ | ⟨session, host, recorded⟩
      · exact same
      · cases recorded with
        | true => exact same
        | false => exact ⟨congrArg (Lru.put · _ _) exits, cache⟩
  | send target => exact same
  | answer request connection =>
      rw [step]
      split
      · split
        · exact same
        · exact same
      · exact same
  | exitFor request =>
      rw [step]
      split
      · exact same
      · exact same
  | record request =>
      rw [step, storing]
      rcases self.requests[request]? with _ | ⟨target, stage⟩
      · exact same
      · cases stage with
        | looked carrier exit =>
            exact ⟨(exits_record target exit).trans exits, cache_record cache target exit⟩
        | sent => exact same
        | answered carrier => exact same
        | recorded carrier => exact same
        | finished carrier exit => exact same
  | get request =>
      rw [step]
      split
      · exact same
      · exact same
  | dial host opened rotate =>
      rw [step]
      split
      · exact same
      · exact same
  | recordDialed tunnel =>
      rw [step, recording]
      rcases self.tunnels[tunnel]? with _ | ⟨host, stage⟩
      · exact same
      · cases stage with
        | dialed carrier => exact ⟨congrArg (Lru.put · _ _) exits, cache⟩
        | noted => exact same
        | looked exit => exact same
        | established => exact same
  | exitForDialed tunnel =>
      rw [step]
      split
      · exact same
      · exact same
  | recordTunnel tunnel =>
      rw [step, storing]
      rcases self.tunnels[tunnel]? with _ | ⟨host, stage⟩
      · exact same
      · cases stage with
        | looked exit =>
            exact ⟨(exits_record host exit).trans exits, cache_record cache host exit⟩
        | dialed carrier => exact same
        | noted => exact same
        | established => exact same

end Traffic

/-- The traffic, and what was put into its caches. -/
structure Logged where
  traffic : Traffic
  recorded : List (List Char × Exit)
  stored : List (List Char × Exit)

/-- A put leaves an entry in place, by what was put before: it puts the same for this
key, or there is room for all other keys since. -/
def Harmless (capacity : Nat) (puts : List (List Char × Exit)) (key : List Char) (exit : Exit)
    (entry : List Char × Exit) : Prop :=
  if entry.1 = key then entry.2 = exit
  else (key :: Lru.since entry.1 puts).dedup.length < capacity

instance (capacity : Nat) (puts : List (List Char × Exit)) (key : List Char) (exit : Exit)
    (entry : List Char × Exit) : Decidable (Harmless capacity puts key exit entry) :=
  inferInstanceAs (Decidable (if entry.1 = key then entry.2 = exit else _ < capacity))

namespace Logged

def start (region : String) : Logged where
  traffic := .start region
  recorded := []
  stored := []

def step (names : Names) (self : Logged) (action : TrafficStep) : Logged where
  traffic := self.traffic.step names action
  recorded := self.traffic.recording names action ++ self.recorded
  stored := self.traffic.storing names action ++ self.stored

/-- A response comes while the session that carries it is the last whose exit was
recorded for its host. What is recorded before that exit is attached is for other
hosts, or it is the same exit; and less other hosts than there is room for come in
between. -/
def Orderly (names : Names) (self : Logged) : TrafficStep → Prop
  | .recordExit connection => ∀ carrier ∈ self.traffic.connections[connection]?,
      carrier.recorded ∨ ∀ entry ∈ self.traffic.awaitingExit names,
        Harmless 1024 self.recorded (names.lower carrier.host)
          (self.traffic.exitOf carrier.session) entry
  | .answer request connection => ∀ asked ∈ self.traffic.requests[request]?,
      ∀ carrier ∈ self.traffic.connections[connection]?,
        Lru.latest (names.lower asked.target) self.recorded =
            some (self.traffic.exitOf carrier.session) ∧
          (Lru.since (names.lower asked.target) self.recorded).dedup.length < 1024 ∧
          ¬ (self.traffic.exitOf carrier.session).isEmpty
  | .record request => ∀ asked ∈ self.traffic.requests[request]?,
      ∀ exit ∈ asked.stage.putting, exit.isEmpty ∨ ∀ entry ∈ self.traffic.awaitingGet names,
        Harmless 4096 self.stored (names.lower asked.target) exit entry
  | .recordDialed tunnel => ∀ made ∈ self.traffic.tunnels[tunnel]?,
      ∀ carrier ∈ made.stage.noting, ∀ entry ∈ self.traffic.awaitingExit names,
        Harmless 1024 self.recorded (names.lower made.host) (self.traffic.exitOf carrier) entry
  | .recordTunnel tunnel => ∀ made ∈ self.traffic.tunnels[tunnel]?,
      ∀ exit ∈ made.stage.putting, exit.isEmpty ∨ ∀ entry ∈ self.traffic.awaitingGet names,
        Harmless 4096 self.stored (names.lower made.host) exit entry
  | _ => True

instance (names : Names) (self : Logged) : ∀ action, Decidable (self.Orderly names action)
  | .accept .. => .isTrue trivial
  | .recordExit connection => inferInstanceAs
      (Decidable (∀ carrier ∈ self.traffic.connections[connection]?, carrier.recorded ∨ _))
  | .send _ => .isTrue trivial
  | .answer request connection => inferInstanceAs
      (Decidable (∀ asked ∈ self.traffic.requests[request]?,
        ∀ carrier ∈ self.traffic.connections[connection]?, _ ∧ _ ∧ _))
  | .exitFor _ => .isTrue trivial
  | .record request => inferInstanceAs
      (Decidable (∀ asked ∈ self.traffic.requests[request]?,
        ∀ exit ∈ asked.stage.putting, exit.isEmpty ∨ _))
  | .get _ => .isTrue trivial
  | .dial .. => .isTrue trivial
  | .recordDialed tunnel => inferInstanceAs
      (Decidable (∀ made ∈ self.traffic.tunnels[tunnel]?, ∀ carrier ∈ made.stage.noting, _))
  | .exitForDialed _ => .isTrue trivial
  | .recordTunnel tunnel => inferInstanceAs
      (Decidable (∀ made ∈ self.traffic.tunnels[tunnel]?,
        ∀ exit ∈ made.stage.putting, exit.isEmpty ∨ _))

/-- The caches are what the puts leave. -/
structure Faithful (logged : Logged) : Prop where
  exits : logged.traffic.exits = Lru.ofPuts 1024 logged.recorded
  cache : logged.traffic.cache = Lru.ofPuts 4096 logged.stored

variable {names : Names} {self : Logged}

theorem faithful_step (faithful : self.Faithful) (action : TrafficStep) :
    (self.step names action).Faithful where
  exits := (Traffic.caches_step faithful.exits faithful.cache action).1
  cache := (Traffic.caches_step faithful.exits faithful.cache action).2

/-- An entry that is there survives a harmless put. -/
theorem spares_of_harmless {capacity : Nat} (room : 0 < capacity)
    {puts : List (List Char × Exit)} {key : List Char} {exit : Exit} {entry : List Char × Exit}
    (there : (Lru.ofPuts capacity puts).peek entry.1 = some entry.2)
    (harmless : Harmless capacity puts key exit entry) :
    (Lru.ofPuts capacity puts).Spares key exit entry := by
  unfold Harmless at harmless
  unfold Lru.Spares
  split
  · next same =>
      rw [if_pos same] at harmless
      exact harmless
  · next different =>
      rw [if_neg different] at harmless
      have last := Lru.latest_of_peek_ofPuts room there
      have still : Lru.latest entry.1 ((key, exit) :: puts) = some entry.2 := by
        unfold Lru.latest at last ⊢
        rwa [List.find?_cons_of_neg (by simpa using Ne.symm different)]
      have newer : ∀ other ∈ Lru.since entry.1 ((key, exit) :: puts),
          other ∈ (key :: Lru.since entry.1 puts).dedup := by
        intro other among
        rw [List.mem_dedup]
        simpa [Lru.since, Ne.symm different] using among
      obtain ⟨found, -⟩ := Lru.peek_ofPuts harmless still newer
      intro gone
      rw [Lru.ofPuts, gone] at found
      cases found

theorem spares_exits (faithful : self.Faithful) (attributed : self.traffic.Attributed names)
    {host : String} {session : Session}
    (harmless : ∀ entry ∈ self.traffic.awaitingExit names,
      Harmless 1024 self.recorded (names.lower host) (self.traffic.exitOf session) entry) :
    self.traffic.SparesExits names host session := by
  intro entry among
  obtain ⟨request, member, awaits⟩ := List.mem_filterMap.mp among
  have fits := attributed request member
  obtain ⟨target, stage⟩ := request
  cases stage with
  | answered carrier =>
      cases awaits
      have there := fits.1
      have spared := harmless _ among
      rw [faithful.exits] at there ⊢
      exact spares_of_harmless (by decide) there spared
  | sent => cases awaits
  | looked carrier exit => cases awaits
  | recorded carrier => cases awaits
  | finished carrier exit => cases awaits

theorem spares_cache (faithful : self.Faithful) (attributed : self.traffic.Attributed names)
    {host : String} {exit : Exit}
    (harmless : exit.isEmpty ∨ ∀ entry ∈ self.traffic.awaitingGet names,
      Harmless 4096 self.stored (names.lower host) exit entry) :
    self.traffic.SparesCache names host exit := by
  refine harmless.imp_right fun harmless entry among => ?_
  obtain ⟨request, member, awaits⟩ := List.mem_filterMap.mp among
  have fits := attributed request member
  obtain ⟨target, stage⟩ := request
  cases stage with
  | recorded carrier =>
      cases awaits
      have there : self.traffic.cache.peek (names.lower target) =
        some (self.traffic.exitOf carrier) := fits
      have spared := harmless _ among
      rw [faithful.cache] at there ⊢
      exact spares_of_harmless (by decide) there spared
  | sent => cases awaits
  | answered carrier => cases awaits
  | looked carrier found => cases awaits
  | finished carrier found => cases awaits

theorem undisturbed_of_orderly (faithful : self.Faithful)
    (attributed : self.traffic.Attributed names) {action : TrafficStep}
    (orderly : self.Orderly names action) : self.traffic.Undisturbed names action := by
  cases action with
  | recordExit connection =>
      exact fun carrier there =>
        (orderly carrier there).imp_right fun harmless => spares_exits faithful attributed harmless
  | answer request connection =>
      intro asked there carrier carries
      obtain ⟨last, few, full⟩ := orderly asked there carrier carries
      refine ⟨?_, full⟩
      rw [faithful.exits]
      exact (Lru.peek_ofPuts few last fun other among => List.mem_dedup.mpr among).1
  | record request =>
      exact fun asked there exit puts =>
        spares_cache faithful attributed (orderly asked there exit puts)
  | recordDialed tunnel =>
      exact fun made there carrier notes =>
        spares_exits faithful attributed (orderly made there carrier notes)
  | recordTunnel tunnel =>
      exact fun made there exit puts =>
        spares_cache faithful attributed (orderly made there exit puts)
  | accept host opened rotate => trivial
  | send target => trivial
  | exitFor request => trivial
  | get request => trivial
  | dial host opened rotate => trivial
  | exitForDialed tunnel => trivial

theorem along_undisturbed (steps : List TrafficStep) :
    ∀ {self : Logged}, self.Faithful → self.traffic.Attributed names →
      Along (step names) (Orderly names) self steps →
      Along (Traffic.step names) (Traffic.Undisturbed names) self.traffic steps := by
  induction steps with
  | nil => exact fun _ _ _ => trivial
  | cons action rest inductionHypothesis =>
      intro self faithful attributed along
      have undisturbed := undisturbed_of_orderly faithful attributed along.1
      exact ⟨undisturbed, inductionHypothesis (faithful_step faithful action)
        (Traffic.attributed_step attributed undisturbed) along.2⟩

/-- In a run in which every response comes while its carrier is the last session whose
exit was recorded for its host, with no other exit recorded for that host before its
own is attached and not too many hosts, every response gets the exit of the session
that carried it. -/
theorem attributed_of_orderly (names : Names) (region : String) (steps : List TrafficStep)
    (orderly : Along (step names) (Orderly names) (start region) steps) :
    (run (Traffic.step names) (.start region) steps).Attributed names := by
  have begins : (start region).traffic.Attributed names :=
    fun _ member => absurd member List.not_mem_nil
  exact Traffic.attributed_run (along_undisturbed steps ⟨rfl, rfl⟩ begins orderly)

example : Along (step .plain) (Orderly .plain) (start "US") Traffic.twoHosts := by decide

end Logged

end Unroxy.Ssh
