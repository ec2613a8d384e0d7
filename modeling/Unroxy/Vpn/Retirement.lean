import Unroxy.Vpn.Interleaving

/-!
Owns who uses a tunnel: the streams it has when `reap` takes it out of the slot,
and who still holds it afterwards.

`connections` counts the streams of `open`. A stream of the SOCKS bridge is not
in it, and the accept loop of a bridge never lets go of its tunnel.

Does not own the flags of the account.
-/

namespace Unroxy.Vpn

open Unroxy.Lib

namespace Worker

/-- The tunnel a task has a pointer to. -/
def tunnel : Worker → Option Nat
  | .opening id | .counting id | .guarding id | .dropping id | .uncounted id | .idling id _
  | .bridging id | .copying id => some id
  | .warming | .dialing | .reaping | .done => none

/-- The tunnel that counts this task. -/
def counted : Worker → Option Nat
  | .guarding id | .dropping id => some id
  | _ => none

/-- The tunnel it has an open stream of. -/
def stream : Worker → Option Nat
  | .counting id | .guarding id | .copying id => some id
  | _ => none

/-- The tunnel it has an open stream of that is not counted. -/
def uncountedStream : Worker → Option Nat
  | .counting id | .copying id => some id
  | _ => none

/-- The tunnel it waits for a stream of. -/
def awaits : Worker → Option Nat
  | .opening id | .bridging id => some id
  | _ => none

theorem tunnel_of_counted {worker : Worker} {id : Nat} (counts : worker.counted = some id) :
    worker.tunnel = some id := by
  cases worker <;> first | exact counts | cases counts

theorem stream_cases {worker : Worker} {id : Nat} (streams : worker.stream = some id) :
    worker.uncountedStream = some id ∨ worker.counted = some id := by
  cases worker <;> first | exact .inl streams | exact .inr streams

end Worker

/-! ### The count is the number of guards -/

/-- Each tunnel counts its guards, and every task's tunnel exists. -/
structure Counted (lives : List Live) (workers : List Worker) : Prop where
  counted : ∀ id live, lives[id]? = some live →
    live.connections = workers.countP fun worker => worker.counted = some id
  inside : ∀ worker ∈ workers, ∀ id, worker.tunnel = some id → id < lives.length

private theorem countP_set_add {workers : List Worker} {index : Nat} {before : Worker}
    (found : workers[index]? = some before) (after : Worker) (test : Worker → Bool) :
    (workers.set index after).countP test + (if test before then 1 else 0) =
      workers.countP test + if test after then 1 else 0 := by
  obtain ⟨below, atIndex⟩ := List.getElem?_eq_some_iff.mp found
  rw [List.countP_set below, atIndex]
  by_cases counts : test before
  · have present : 0 < workers.countP test :=
      List.countP_pos_iff.mpr ⟨before, List.mem_of_getElem? found, counts⟩
    rw [if_pos counts]
    omega
  · rw [if_neg counts]
    omega

/-- One task goes on, and the counts move with it. -/
theorem Counted.set {lives later : List Live} {workers : List Worker}
    (counted : Counted lives workers) {index : Nat} {before after : Worker}
    (found : workers[index]? = some before) (length : later.length = lives.length)
    (moved : ∀ id live, later[id]? = some live → ∃ old, lives[id]? = some old ∧
      live.connections + (if before.counted = some id then 1 else 0) =
        old.connections + if after.counted = some id then 1 else 0)
    (stays : ∀ id, after.tunnel = some id → before.tunnel = some id) :
    Counted later (workers.set index after) where
  counted := by
    intro id live there
    obtain ⟨old, oldThere, difference⟩ := moved id live there
    have total := countP_set_add found after fun worker => worker.counted = some id
    have oldCount := counted.counted id old oldThere
    simp only [decide_eq_true_eq] at total
    omega
  inside := by
    intro worker member id works
    rw [length]
    rcases List.mem_or_eq_of_mem_set member with old | new
    · exact counted.inside worker old id works
    · rw [new] at works
      exact counted.inside before (List.mem_of_getElem? found) id (stays id works)

/-- A task that is not counted before or after. -/
theorem Counted.become {lives : List Live} {workers : List Worker}
    (counted : Counted lives workers) {index : Nat} {before after : Worker}
    (found : workers[index]? = some before) (same : after.counted = before.counted)
    (stays : ∀ id, after.tunnel = some id → before.tunnel = some id) :
    Counted lives (workers.set index after) := by
  apply counted.set found rfl
  · intro id live there
    exact ⟨live, there, by rw [same]⟩
  · exact stays

theorem Counted.finish {lives : List Live} {workers : List Worker}
    (counted : Counted lives workers) {index : Nat} {before : Worker}
    (found : workers[index]? = some before) (free : before.counted = none) :
    Counted lives (workers.set index .done) := by
  apply counted.become found
  · exact free.symm
  · intro id works
    cases works

theorem Counted.spawn {lives : List Live} {workers : List Worker}
    (counted : Counted lives workers) {worker : Worker} (free : worker.counted = none)
    (within : ∀ id, worker.tunnel = some id → id < lives.length) :
    Counted lives (workers ++ [worker]) where
  counted := by
    intro id live there
    rw [counted.counted id live there, List.countP_append, List.countP_singleton, free]
    rfl
  inside := by
    intro present member id works
    rcases List.mem_append.mp member with old | new
    · exact counted.inside present old id works
    · rw [List.mem_singleton.mp new] at works
      exact within id works

/-- A change of a tunnel that leaves its count. -/
theorem Counted.clock {lives : List Live} {workers : List Worker}
    (counted : Counted lives workers) (id : Nat) {change : Live → Live}
    (same : ∀ live, (change live).connections = live.connections) :
    Counted (lives.modify id change) workers where
  counted := by
    intro other live there
    rw [List.getElem?_modify] at there
    obtain ⟨old, oldThere, rfl⟩ := Option.map_eq_some_iff.mp there
    rw [← counted.counted other old oldThere]
    split
    · exact same old
    · rfl
  inside := by
    intro worker member other works
    rw [List.length_modify]
    exact counted.inside worker member other works

/-- A tunnel comes up. -/
theorem Counted.grow {lives : List Live} {workers : List Worker}
    (counted : Counted lives workers) :
    Counted (lives ++ [{ connections := 0, idleSince := none }]) workers where
  counted := by
    intro id live there
    by_cases old : id < lives.length
    · rw [List.getElem?_append_left old] at there
      exact counted.counted id live there
    · have unused : workers.countP (fun worker => worker.counted = some id) = 0 := by
        apply List.countP_eq_zero.mpr
        intro worker member counts
        exact old (counted.inside worker member id
          (Worker.tunnel_of_counted (of_decide_eq_true counts)))
      rw [List.getElem?_append_right (Nat.not_lt.mp old)] at there
      rw [unused, List.mem_singleton.mp (List.mem_of_getElem? there)]
  inside := by
    intro worker member id works
    have below := counted.inside worker member id works
    rw [List.length_append]
    omega

private theorem moved_modify {lives : List Live} {id other : Nat} {change : Live → Live}
    {live : Live} (there : (lives.modify id change)[other]? = some live) :
    ∃ old, lives[other]? = some old ∧ live = if id = other then change old else old := by
  rw [List.getElem?_modify] at there
  obtain ⟨old, oldThere, rfl⟩ := Option.map_eq_some_iff.mp there
  refine ⟨old, oldThere, ?_⟩
  split <;> rfl

/-- `open` counts its stream. -/
theorem Counted.guard {lives : List Live} {workers : List Worker}
    (counted : Counted lives workers) {index id : Nat}
    (found : workers[index]? = some (.counting id)) :
    Counted (lives.modify id fun live => { live with connections := live.connections + 1 })
      (workers.set index (.guarding id)) := by
  apply counted.set found (List.length_modify ..)
  · intro other live there
    obtain ⟨old, oldThere, rfl⟩ := moved_modify there
    refine ⟨old, oldThere, ?_⟩
    by_cases here : id = other
    · subst here
      simp [Worker.counted]
    · simp [Worker.counted, here]
  · exact fun _ works => works

/-- `drop` of a `Guard` lowers the count; the guard itself is in it. -/
theorem Counted.drop {lives : List Live} {workers : List Worker}
    (counted : Counted lives workers) {index id : Nat}
    (found : workers[index]? = some (.dropping id)) :
    Counted (lives.modify id fun live => { live with connections := live.connections - 1 })
      (workers.set index (.uncounted id)) := by
  apply counted.set found (List.length_modify ..)
  · intro other live there
    obtain ⟨old, oldThere, rfl⟩ := moved_modify there
    refine ⟨old, oldThere, ?_⟩
    by_cases here : id = other
    · subst here
      have count := counted.counted id old oldThere
      have present : 0 < workers.countP fun worker => worker.counted = some id :=
        List.countP_pos_iff.mpr ⟨_, List.mem_of_getElem? found, by simp [Worker.counted]⟩
      simp [Worker.counted]
      omega
    · simp [Worker.counted, here]
  · exact fun _ works => works

namespace Machine

/-- The counts of a machine are right. -/
def Counts (machine : Machine) : Prop := Counted machine.account.lives machine.workers

theorem counts_enterLive {machine : Machine} (counts : machine.Counts) {worker : Nat}
    {before : Worker} (found : machine.workers[worker]? = some before)
    (free : before.counted = none) (dials : Bool) : (machine.enterLive worker dials).Counts := by
  have finished := counts.finish found free
  unfold enterLive
  split
  · exact finished
  · split
    · exact finished
    · exact finished

theorem counts_enterReap {machine : Machine} (counts : machine.Counts) {worker : Nat}
    (found : machine.workers[worker]? = some .reaping) : (machine.enterReap worker).Counts := by
  have finished := counts.finish found rfl
  unfold enterReap
  split
  · exact finished
  · exact finished

theorem counts_work {machine : Machine} (counts : machine.Counts) (worker : Nat)
    (success : Bool) : (machine.work worker success).Counts := by
  unfold work
  split
  · next found =>
      split
      · exact counts_enterLive counts found rfl false
      · exact counts
  · next found =>
      split
      · exact counts_enterLive counts found rfl true
      · exact counts
  · next found =>
      split
      · exact counts_enterReap counts found
      · exact counts
  · next id found =>
      cases success with
      | true => exact counts.become found rfl fun _ works => works
      | false => exact counts.finish found rfl
  · next id found => exact counts.guard found
  · next id found => exact counts.become found rfl fun _ works => works
  · next id found => exact counts.drop found
  · next id found =>
      split
      · exact counts.become found rfl fun _ works => works
      · exact counts.finish found rfl
  · next id now found =>
      have started : (machine.setLive id fun live => { live with idleSince := some now }).Counts :=
        counts.clock id fun _ => rfl
      exact started.finish found rfl
  · next id found =>
      cases success with
      | true => exact counts.become found rfl fun _ works => works
      | false => exact counts.finish found rfl
  · next id found => exact counts.finish found rfl
  · exact counts
  · exact counts

theorem counts_leave {machine : Machine} (counts : machine.Counts) (worker : Nat) :
    (machine.leave worker).Counts := by
  unfold leave
  split
  · next found => exact counts.finish found rfl
  · next found => exact counts.finish found rfl
  · exact counts

theorem counts_unlock {machine : Machine} (counts : machine.Counts) (dials : Bool) {id : Nat}
    (inside : id < machine.account.lives.length) : (machine.unlock dials id).Counts := by
  cases dials with
  | true =>
      apply counts.spawn rfl
      intro other works
      cases works
      exact inside
  | false => exact counts

theorem counts_advance {machine : Machine} (sound : machine.Sound) (counts : machine.Counts)
    (config : Config) : (machine.advance config).Counts := by
  have clock (id : Nat) (since : Option Nat) :
      (machine.setLive id fun live => { live with idleSince := since }).Counts :=
    counts.clock id fun _ => rfl
  unfold advance
  split
  · exact counts
  · exact counts
  · exact counts
  · next id held =>
      apply counts_unlock (clock id none)
      rw [setLive, List.length_modify]
      exact (sound.during held).inside id (sound.during held).slot
  · exact counts
  · exact counts
  · exact counts
  · next dials id held =>
      have filled : Counts { machine with account := { machine.account with slot := some id } } :=
        counts
      exact counts_unlock filled dials ((sound.during held).rising id rfl)
  · exact counts
  · exact counts
  · exact counts
  · exact counts
  · split
    · exact counts
    · exact counts
  · next id now held =>
      dsimp only
      split
      · exact clock id _
      · exact clock id _
  · split
    · exact counts
    · exact counts
  · next id held => exact clock id none
  · next id held => exact clock id none
  · exact counts
  · exact counts
  · exact counts
  · exact counts

theorem counts_bound {machine : Machine} (counts : machine.Counts) (port : Option BridgePort) :
    (machine.bound port).Counts := by
  unfold bound
  split
  · exact counts.grow
  · exact counts
  · exact counts

/-! ### Which tunnels there are -/

/-- The tunnel in the slot, or on its way there. -/
def current (machine : Machine) : Option Nat :=
  machine.account.slot.or (machine.locked.bind Locked.rising)

/-- The tunnels, and who retired or accepts for them, stay as they are. -/
structure Keeps (before after : Machine) : Prop where
  length : after.account.lives.length = before.account.lives.length
  accepting : after.accepting = before.accepting
  retired : after.retired = before.retired
  current : after.current = before.current

/-- The slot stays as it is, and so does what is on its way there. -/
theorem keeps_of_rising {before after : Machine}
    (length : after.account.lives.length = before.account.lives.length)
    (accepting : after.accepting = before.accepting) (retired : after.retired = before.retired)
    (slot : after.account.slot = before.account.slot)
    (rising : after.locked.bind Locked.rising = before.locked.bind Locked.rising) :
    Keeps before after := by
  refine ⟨length, accepting, retired, ?_⟩
  rw [current, current, slot, rising]

/-- The lock holder goes on, with the same tunnel on its way. -/
theorem keeps_of_held {before after : Machine} {point : Locked}
    (held : before.locked = some point)
    (length : after.account.lives.length = before.account.lives.length)
    (accepting : after.accepting = before.accepting) (retired : after.retired = before.retired)
    (slot : after.account.slot = before.account.slot)
    (rising : after.locked.bind Locked.rising = point.rising) : Keeps before after := by
  apply keeps_of_rising length accepting retired slot
  rw [rising, held]
  rfl

/-- The lock is taken, with no tunnel on its way yet. -/
theorem keeps_of_free {before after : Machine} (free : before.locked = none)
    (length : after.account.lives.length = before.account.lives.length)
    (accepting : after.accepting = before.accepting) (retired : after.retired = before.retired)
    (slot : after.account.slot = before.account.slot)
    (rising : after.locked.bind Locked.rising = none) : Keeps before after := by
  apply keeps_of_rising length accepting retired slot
  rw [rising, free]
  rfl

theorem keeps_enterLive (machine : Machine) (free : machine.locked = none) (worker : Nat)
    (dials : Bool) : Keeps machine (machine.enterLive worker dials) := by
  unfold enterLive
  split
  · exact keeps_of_free free rfl rfl rfl rfl rfl
  · split
    · exact ⟨rfl, rfl, rfl, rfl⟩
    · exact keeps_of_free free rfl rfl rfl rfl rfl

theorem keeps_enterReap (machine : Machine) (free : machine.locked = none) (worker : Nat) :
    Keeps machine (machine.enterReap worker) := by
  unfold enterReap
  split
  · exact keeps_of_free free rfl rfl rfl rfl rfl
  · exact ⟨rfl, rfl, rfl, rfl⟩

theorem keeps_work (machine : Machine) (worker : Nat) (success : Bool) :
    Keeps machine (machine.work worker success) := by
  unfold work
  split
  · split
    · next free => exact machine.keeps_enterLive (Option.isNone_iff_eq_none.mp free) worker false
    · exact ⟨rfl, rfl, rfl, rfl⟩
  · split
    · next free => exact machine.keeps_enterLive (Option.isNone_iff_eq_none.mp free) worker true
    · exact ⟨rfl, rfl, rfl, rfl⟩
  · split
    · next free => exact machine.keeps_enterReap (Option.isNone_iff_eq_none.mp free) worker
    · exact ⟨rfl, rfl, rfl, rfl⟩
  · exact ⟨rfl, rfl, rfl, rfl⟩
  · exact ⟨List.length_modify .., rfl, rfl, rfl⟩
  · exact ⟨rfl, rfl, rfl, rfl⟩
  · exact ⟨List.length_modify .., rfl, rfl, rfl⟩
  · exact ⟨rfl, rfl, rfl, rfl⟩
  · exact ⟨List.length_modify .., rfl, rfl, rfl⟩
  · exact ⟨rfl, rfl, rfl, rfl⟩
  · exact ⟨rfl, rfl, rfl, rfl⟩
  · exact ⟨rfl, rfl, rfl, rfl⟩
  · exact ⟨rfl, rfl, rfl, rfl⟩

theorem keeps_unlock (machine : Machine) (dials : Bool) (id : Nat) :
    Keeps { machine with locked := none } (machine.unlock dials id) := by
  cases dials <;> exact ⟨rfl, rfl, rfl, rfl⟩

/-- The lock holder takes a tunnel out of the slot in one place. -/
theorem keeps_advance {machine : Machine} (sound : machine.Sound) (config : Config)
    (stays : ∀ id, machine.locked ≠ some (.retireSlot id)) :
    Keeps machine (machine.advance config) := by
  unfold advance
  split
  · exact ⟨rfl, rfl, rfl, rfl⟩
  · exact ⟨rfl, rfl, rfl, rfl⟩
  · exact ⟨rfl, rfl, rfl, rfl⟩
  · next dials id held =>
      have unlocked := keeps_unlock
        (machine.setLive id fun live => { live with idleSince := none }) dials id
      refine ⟨?_, unlocked.accepting, unlocked.retired, ?_⟩
      · rw [unlocked.length]
        exact List.length_modify ..
      · rw [unlocked.current]
        simp [current, held, setLive, Locked.rising]
  · next held => exact keeps_of_held held rfl rfl rfl rfl rfl
  · next held => exact keeps_of_held held rfl rfl rfl rfl rfl
  · next held => exact keeps_of_held held rfl rfl rfl rfl rfl
  · next dials id held =>
      have empty : machine.account.slot = none := (sound.during held).slot
      have unlocked := keeps_unlock
        { machine with account := { machine.account with slot := some id } } dials id
      refine ⟨unlocked.length, unlocked.accepting, unlocked.retired, ?_⟩
      rw [unlocked.current]
      simp [current, held, empty, Locked.rising]
  · next held => exact keeps_of_held held rfl rfl rfl rfl rfl
  · next held => exact keeps_of_held held rfl rfl rfl rfl rfl
  · next held => exact keeps_of_held held rfl rfl rfl rfl rfl
  · next held => exact keeps_of_held held rfl rfl rfl rfl rfl
  · next held =>
      split
      · exact keeps_of_held held rfl rfl rfl rfl rfl
      · exact keeps_of_held held rfl rfl rfl rfl rfl
  · next held =>
      dsimp only
      split
      · exact keeps_of_held held (List.length_modify ..) rfl rfl rfl rfl
      · exact keeps_of_held held (List.length_modify ..) rfl rfl rfl rfl
  · next held =>
      split
      · exact keeps_of_held held rfl rfl rfl rfl rfl
      · exact keeps_of_held held rfl rfl rfl rfl rfl
  · next held =>
      exact keeps_of_held held (List.length_modify ..) rfl rfl rfl rfl
  · next held =>
      exact keeps_of_held held (List.length_modify ..) rfl rfl rfl rfl
  · next held => exact keeps_of_held held rfl rfl rfl rfl rfl
  · next held => exact keeps_of_held held rfl rfl rfl rfl rfl
  · next held => exact keeps_of_held held rfl rfl rfl rfl rfl
  · next id held => exact absurd held (stays id)

/-- Every tunnel has an accept loop, and is retired or current. -/
structure Owned (machine : Machine) : Prop where
  sound : machine.Sound
  counts : machine.Counts
  accepting : machine.accepting = List.range machine.account.lives.length
  retired : ∀ id ∈ machine.retired, id < machine.account.lives.length
  tally : machine.account.lives.length = machine.retired.length + machine.current.isSome.toNat

theorem Owned.keeps {before after : Machine} (owned : before.Owned) (keeps : Keeps before after)
    (sound : after.Sound) (counts : after.Counts) : after.Owned where
  sound := sound
  counts := counts
  accepting := by rw [keeps.accepting, owned.accepting, keeps.length]
  retired := by
    rw [keeps.retired, keeps.length]
    exact owned.retired
  tally := by rw [keeps.length, keeps.retired, keeps.current, owned.tally]

theorem owned_new (instant wall : Nat) : (new instant wall).Owned where
  sound := Account.consistent_new
  counts := by
    constructor
    · intro id live there
      cases there
    · intro worker member
      cases member
  accepting := rfl
  retired := by
    intro id member
    cases member
  tally := rfl

theorem Owned.spawn {machine : Machine} (owned : machine.Owned) {worker : Worker}
    (free : worker.counted = none)
    (within : ∀ id, worker.tunnel = some id → id < machine.account.lives.length) :
    (machine.spawn worker).Owned :=
  owned.keeps ⟨rfl, rfl, rfl, rfl⟩ owned.sound (owned.counts.spawn free within)

theorem owned_advance {machine : Machine} (owned : machine.Owned) (config : Config) :
    (machine.advance config).Owned := by
  have sound := sound_advance owned.sound config
  have counts := counts_advance owned.sound owned.counts config
  by_cases retires : ∃ id, machine.locked = some (.retireSlot id)
  · obtain ⟨id, held⟩ := retires
    have during := owned.sound.during held
    have below := during.inside id during.slot
    have tally := owned.tally
    refine ⟨sound, counts, ?_, ?_, ?_⟩
    · simpa [advance, held] using owned.accepting
    · intro other member
      simp only [advance, held, List.mem_append, List.mem_singleton] at member ⊢
      rcases member with old | rfl
      · exact owned.retired other old
      · exact below
    · simp only [current, during.slot, Locked.slot, Option.some_or, Option.isSome_some,
        Bool.toNat_true] at tally
      simp [advance, held, current, tally]
  · exact owned.keeps
      (keeps_advance owned.sound config fun id held => retires ⟨id, held⟩) sound counts

theorem owned_bound {machine : Machine} (owned : machine.Owned) (port : Option BridgePort) :
    (machine.bound port).Owned := by
  have sound := sound_bound owned.sound port
  have counts := counts_bound owned.counts port
  by_cases binds : ∃ dials, machine.locked = some (.binding dials)
  · obtain ⟨dials, held⟩ := binds
    cases port with
    | none =>
        simp only [bound, held] at sound counts ⊢
        exact owned.keeps ⟨rfl, rfl, rfl, by simp [current, held, Locked.rising]⟩ sound counts
    | some port =>
        have tally := owned.tally
        have empty : machine.account.slot = none := (owned.sound.during held).slot
        simp only [current, empty, held, Option.none_or, Option.bind_some, Locked.rising,
          Option.isSome_none, Bool.toNat_false] at tally
        simp only [bound, held] at sound counts ⊢
        refine ⟨sound, counts, ?_, ?_, ?_⟩
        · simp [goto, List.range_succ, owned.accepting]
        · intro id member
          have below := owned.retired id member
          simp only [goto, List.length_append]
          omega
        · simp [goto, current, empty, Locked.rising, tally]
  · have same : machine.bound port = machine := by
      unfold bound
      split
      · next held => exact absurd ⟨_, held⟩ binds
      · next held => exact absurd ⟨_, held⟩ binds
      · rfl
    rw [same]
    exact owned

theorem owned_connected {machine : Machine} (owned : machine.Owned) (success : Bool) :
    (machine.connected success).Owned := by
  have sound := sound_connected owned.sound success
  refine owned.keeps ?_ sound ?_
  · unfold connected
    split
    · next held =>
        split
        · exact ⟨rfl, rfl, rfl, by simp [current, held, goto, Locked.rising]⟩
        · exact ⟨rfl, rfl, rfl, by simp [current, held, goto, Locked.rising]⟩
    · exact ⟨rfl, rfl, rfl, rfl⟩
  · unfold connected
    split
    · split
      · exact owned.counts
      · exact owned.counts
    · exact owned.counts

theorem owned_abandon {machine : Machine} (owned : machine.Owned) : machine.abandon.Owned := by
  have sound := sound_abandon owned.sound
  refine owned.keeps ?_ sound ?_
  · unfold abandon
    split
    · next held => exact ⟨rfl, rfl, rfl, by simp [current, held, Locked.rising]⟩
    · next held => exact ⟨rfl, rfl, rfl, by simp [current, held, Locked.rising]⟩
    · exact ⟨rfl, rfl, rfl, rfl⟩
  · unfold abandon
    split
    · exact owned.counts
    · exact owned.counts
    · exact owned.counts

theorem owned_step {machine : Machine} (owned : machine.Owned) (config : Config)
    (action : Action) : (step config machine action).Owned := by
  have sound := sound_step owned.sound config action
  cases action with
  | tick elapsed => exact owned.keeps ⟨rfl, rfl, rfl, rfl⟩ sound owned.counts
  | adjust wall => exact owned.keeps ⟨rfl, rfl, rfl, rfl⟩ sound owned.counts
  | warm => exact owned.spawn rfl fun _ works => by cases works
  | dial => exact owned.spawn rfl fun _ works => by cases works
  | reap => exact owned.spawn rfl fun _ works => by cases works
  | work worker success =>
      exact owned.keeps (machine.keeps_work worker success) sound
        (counts_work owned.counts worker success)
  | leave worker =>
      have counts := counts_leave owned.counts worker
      obtain ⟨workers, same⟩ := machine.leave_frame worker
      rw [step, same] at sound ⊢
      rw [same] at counts
      exact owned.keeps ⟨rfl, rfl, rfl, rfl⟩ sound counts
  | advance => exact owned_advance owned config
  | connected success => exact owned_connected owned success
  | bound port => exact owned_bound owned port
  | abandon => exact owned_abandon owned
  | accept id =>
      rw [step]
      split
      · next accepts =>
          apply owned.spawn rfl
          intro other works
          cases works
          rw [owned.accepting] at accepts
          exact List.mem_range.mp accepts
      · exact owned
  | client => exact owned.keeps ⟨rfl, rfl, rfl, rfl⟩ sound owned.counts
  | call call success =>
      obtain ⟨calls, cacheHolder, cached, same⟩ := machine.turn_frame call success
      rw [step, same] at sound ⊢
      exact owned.keeps ⟨rfl, rfl, rfl, rfl⟩ sound owned.counts
  | evict =>
      rw [step]
      split
      · exact owned
      · exact owned.keeps ⟨rfl, rfl, rfl, rfl⟩ owned.sound owned.counts

theorem owned_run (config : Config) (instant wall : Nat) (steps : List Action) :
    (run (step config) (new instant wall) steps).Owned := by
  apply run_always
  · intro machine action owned
    exact owned_step owned config action
  · exact owned_new instant wall

/-! ### Streams of a tunnel that is being retired -/

/-- The tunnel `reap` has decided to take out of the slot. -/
def retiring (machine : Machine) : Option Nat :=
  match machine.locked with
  | some (.retireClock id) | some (.retireReady id) | some (.retireGeneration id)
  | some (.retirePort id) | some (.retireSlot id) => some id
  | _ => none

/-- The tunnel whose idle clock `reap` finds to have run out in its next step. -/
def expiring (machine : Machine) (config : Config) : Option Nat :=
  match machine.locked with
  | some (.reapClock id now) =>
      if now - (machine.idleSince id).getD now ≥ config.idleTimeout then some id else none
  | _ => none

/-- A step that does not let `reap` overlook a stream. Where the idle clock is
found to have run out, the count is still 0 and no stream is uncounted; and a
tunnel that is being retired hands out no stream. -/
def Careful (config : Config) (machine : Machine) : Action → Prop
  | .advance =>
      ∀ id ∈ machine.expiring config, machine.connections id = 0 ∧
        ∀ worker ∈ machine.workers, worker.uncountedStream ≠ some id
  | .work worker success =>
      success → ∀ before ∈ machine.workers[worker]?, before.awaits ≠ none →
        before.awaits ≠ machine.retiring
  | _ => True

instance Careful.decidable (config : Config) (machine : Machine) :
    ∀ action, Decidable (Careful config machine action)
  | .advance =>
      inferInstanceAs (Decidable (∀ id ∈ machine.expiring config, machine.connections id = 0 ∧
        ∀ worker ∈ machine.workers, worker.uncountedStream ≠ some id))
  | .work worker success =>
      inferInstanceAs (Decidable (success → ∀ before ∈ machine.workers[worker]?,
        before.awaits ≠ none → before.awaits ≠ machine.retiring))
  | .tick _ | .adjust _ | .warm | .dial | .reap | .leave _ | .connected _ | .bound _ | .abandon
  | .accept _ | .client | .call _ _ | .evict => .isTrue trivial

/-- A tunnel that is being retired has no open stream. -/
def Quiet (machine : Machine) : Prop :=
  ∀ id, machine.retiring = some id → ∀ worker ∈ machine.workers, worker.stream ≠ some id

private theorem stream_set {workers : List Worker} {index : Nat} {after : Worker} {id : Nat}
    (old : ∀ worker ∈ workers, worker.stream ≠ some id) (new : after.stream ≠ some id) :
    ∀ worker ∈ workers.set index after, worker.stream ≠ some id := by
  intro worker member
  rcases List.mem_or_eq_of_mem_set member with present | same
  · exact old worker present
  · rw [same]
    exact new

private theorem stream_spawn {workers : List Worker} {after : Worker} {id : Nat}
    (old : ∀ worker ∈ workers, worker.stream ≠ some id) (new : after.stream = none) :
    ∀ worker ∈ workers ++ [after], worker.stream ≠ some id := by
  intro worker member
  rcases List.mem_append.mp member with present | same
  · exact old worker present
  · rw [List.mem_singleton.mp same, new]
    exact Option.some_ne_none id |>.symm

theorem quiet_enterLive (machine : Machine) (worker : Nat) (dials : Bool)
    (free : machine.locked = none) : (machine.enterLive worker dials).Quiet := by
  intro id retires
  unfold enterLive at retires
  split at retires
  · cases retires
  · split at retires
    · simp [retiring, become, free] at retires
    · cases retires

theorem quiet_enterReap (machine : Machine) (worker : Nat) (free : machine.locked = none) :
    (machine.enterReap worker).Quiet := by
  intro id retires
  unfold enterReap at retires
  split at retires
  · cases retires
  · simp [retiring, become, free] at retires

theorem quiet_work {machine : Machine} (quiet : machine.Quiet) {config : Config} (worker : Nat)
    {success : Bool} (careful : Careful config machine (.work worker success)) :
    (machine.work worker success).Quiet := by
  -- Only a task that awaits a stream can get one.
  have moved {before after : Worker} (found : machine.workers[worker]? = some before)
      (keeps : after.stream ≠ none → after.stream = before.stream ∨
        (success ∧ after.stream = before.awaits)) :
      (machine.become worker after).Quiet := by
    intro id retires
    have unused := quiet id retires
    apply stream_set unused
    intro streams
    rcases keeps (by rw [streams]; exact Option.some_ne_none id) with same | ⟨succeeds, same⟩
    · exact unused before (List.mem_of_getElem? found) (same ▸ streams)
    · have awaits : before.awaits = some id := same ▸ streams
      have busy : machine.retiring = some id := retires
      refine careful succeeds before found ?_ (awaits.trans busy.symm)
      rw [awaits]
      exact Option.some_ne_none id
  unfold work
  split
  · split
    · next free => exact machine.quiet_enterLive worker false (Option.isNone_iff_eq_none.mp free)
    · exact quiet
  · split
    · next free => exact machine.quiet_enterLive worker true (Option.isNone_iff_eq_none.mp free)
    · exact quiet
  · split
    · next free => exact machine.quiet_enterReap worker (Option.isNone_iff_eq_none.mp free)
    · exact quiet
  · next id found =>
      apply moved found
      cases success with
      | true => exact fun _ => .inr ⟨rfl, rfl⟩
      | false => exact fun streams => absurd rfl streams
  · next id found => exact moved found fun _ => .inl rfl
  · next id found => exact moved found fun streams => absurd rfl streams
  · next id found => exact moved found fun streams => absurd rfl streams
  · next id found =>
      apply moved found
      intro streams
      split at streams
      · exact absurd rfl streams
      · exact absurd rfl streams
  · next id now found => exact moved found fun streams => absurd rfl streams
  · next id found =>
      apply moved found
      cases success with
      | true => exact fun _ => .inr ⟨rfl, rfl⟩
      | false => exact fun streams => absurd rfl streams
  · next id found => exact moved found fun streams => absurd rfl streams
  · exact quiet
  · exact quiet

private theorem quiet_of_free {machine : Machine} (free : machine.retiring = none) :
    machine.Quiet := by
  intro id retires
  rw [free] at retires
  cases retires

/-- When `reap` decides to retire a tunnel, the count speaks for the guards. -/
theorem quiet_decide {machine : Machine} (owned : machine.Owned) {config : Config}
    (careful : Careful config machine .advance) {id : Nat}
    (expires : machine.expiring config = some id) (inside : id < machine.account.lives.length) :
    ∀ worker ∈ machine.workers, worker.stream ≠ some id := by
  obtain ⟨unused, noneUncounted⟩ := careful id expires
  intro worker member streams
  rcases Worker.stream_cases streams with uncounted | counts
  · exact noneUncounted worker member uncounted
  · have there := List.getElem?_eq_getElem inside
    have count := owned.counts.counted id _ there
    have positive : 0 < machine.workers.countP fun worker => worker.counted = some id :=
      List.countP_pos_iff.mpr ⟨worker, member, decide_eq_true counts⟩
    rw [connections, there, Option.map_some, Option.getD_some] at unused
    omega

theorem quiet_advance {machine : Machine} (owned : machine.Owned) (quiet : machine.Quiet)
    {config : Config} (careful : Careful config machine .advance) :
    (machine.advance config).Quiet := by
  have unlocks (account : Account) (dials : Bool) (id : Nat) :
      (unlock { machine with account } dials id).Quiet := by
    apply quiet_of_free
    rw [retiring, unlock_locked]
  -- From one point of a retirement to the next.
  have goesOn {point : Locked} {id : Nat} {later : Machine} (held : machine.locked = some point)
      (before : ({ machine with locked := some point } : Machine).retiring = some id)
      (after : later.retiring = some id) (workers : later.workers = machine.workers) :
      later.Quiet := by
    intro other retires
    rw [after] at retires
    cases retires
    rw [workers]
    exact quiet id (by rw [← before, ← held])
  unfold advance
  split
  · exact quiet
  · exact quiet
  · exact quiet
  · exact unlocks _ _ _
  · exact quiet_of_free rfl
  · exact quiet_of_free rfl
  · exact quiet_of_free rfl
  · exact unlocks _ _ _
  · exact quiet_of_free rfl
  · exact quiet_of_free rfl
  · exact quiet_of_free rfl
  · exact quiet_of_free rfl
  · split
    · exact quiet_of_free rfl
    · exact quiet_of_free rfl
  · next id now held =>
      dsimp only
      split
      · next late =>
          have expires : machine.expiring config = some id := by
            rw [expiring, held]
            exact if_pos late
          have during := owned.sound.during held
          intro other retires
          cases retires
          exact quiet_decide owned careful expires (during.inside id during.slot)
      · exact quiet_of_free rfl
  · split
    · exact quiet_of_free rfl
    · exact quiet_of_free rfl
  · exact quiet_of_free rfl
  · next id held => exact goesOn held rfl rfl rfl
  · next id held => exact goesOn held rfl rfl rfl
  · next id held => exact goesOn held rfl rfl rfl
  · next id held => exact goesOn held rfl rfl rfl
  · exact quiet_of_free rfl

theorem Quiet.spawn {machine : Machine} (quiet : machine.Quiet) {worker : Worker}
    (free : worker.stream = none) : (machine.spawn worker).Quiet :=
  fun id retires => stream_spawn (quiet id retires) free

theorem quiet_leave {machine : Machine} (quiet : machine.Quiet) (worker : Nat) :
    (machine.leave worker).Quiet := by
  have finished : (machine.become worker .done).Quiet := fun id retires =>
    stream_set (quiet id retires) (by simp [Worker.stream])
  unfold leave
  split
  · exact finished
  · exact finished
  · exact quiet

theorem quiet_step {machine : Machine} (owned : machine.Owned) (quiet : machine.Quiet)
    {config : Config} {action : Action} (careful : Careful config machine action) :
    (step config machine action).Quiet := by
  cases action with
  | tick elapsed => exact quiet
  | adjust wall => exact quiet
  | warm => exact quiet.spawn rfl
  | dial => exact quiet.spawn rfl
  | reap => exact quiet.spawn rfl
  | work worker success => exact quiet_work quiet worker careful
  | leave worker => exact quiet_leave quiet worker
  | advance => exact quiet_advance owned quiet careful
  | connected success =>
      rw [step, connected]
      split
      · split
        · exact quiet_of_free rfl
        · exact quiet_of_free rfl
      · exact quiet
  | bound port =>
      change (machine.bound port).Quiet
      unfold bound
      split
      · exact quiet_of_free rfl
      · exact quiet_of_free rfl
      · exact quiet
  | abandon =>
      rw [step, abandon]
      split
      · exact quiet_of_free rfl
      · exact quiet_of_free rfl
      · exact quiet
  | accept id =>
      rw [step]
      split
      · exact quiet.spawn rfl
      · exact quiet
  | client => exact quiet
  | call call success =>
      obtain ⟨calls, cacheHolder, cached, same⟩ := machine.turn_frame call success
      rw [step, same]
      exact quiet
  | evict =>
      rw [step]
      split
      · exact quiet
      · exact quiet

theorem work_slot (machine : Machine) (worker : Nat) (success : Bool) :
    (machine.work worker success).account.slot = machine.account.slot := by
  have enters (dials : Bool) :
      (machine.enterLive worker dials).account.slot = machine.account.slot := by
    unfold enterLive
    split
    · rfl
    · split
      · rfl
      · rfl
  have reaps : (machine.enterReap worker).account.slot = machine.account.slot := by
    unfold enterReap
    split
    · rfl
    · rfl
  unfold work
  split
  · split
    · exact enters false
    · rfl
  · split
    · exact enters true
    · rfl
  · split
    · exact reaps
    · rfl
  all_goals rfl

/-- Only the last step of `reap` empties the slot. -/
theorem retireSlot_of_emptied {machine : Machine} (sound : machine.Sound) {config : Config}
    {action : Action} {id : Nat} (filled : machine.account.slot = some id)
    (empties : (step config machine action).account.slot = none) :
    action = .advance ∧ machine.locked = some (.retireSlot id) := by
  have kept (same : (step config machine action).account.slot = machine.account.slot) : False := by
    rw [same, filled] at empties
    cases empties
  cases action with
  | tick elapsed => exact (kept rfl).elim
  | adjust wall => exact (kept rfl).elim
  | warm => exact (kept rfl).elim
  | dial => exact (kept rfl).elim
  | reap => exact (kept rfl).elim
  | work worker success => exact (kept (machine.work_slot worker success)).elim
  | leave worker =>
      obtain ⟨workers, same⟩ := machine.leave_frame worker
      exact (kept (by rw [step, same])).elim
  | advance =>
      cases held : machine.locked with
      | none => exact (kept (by rw [step, advance, held])).elim
      | some locked =>
          have during := sound.during held
          have slot := during.slot
          rw [filled] at slot
          cases locked with
          | retireSlot other =>
              cases slot
              exact ⟨rfl, rfl⟩
          | storeSlot dials other => cases slot
          | found dials other => exact (kept (by simp [step, advance, held, setLive])).elim
          | reapLoad other now =>
              exact (kept (by simp only [step, advance, held]; split <;> rfl)).elim
          | reapClock other now =>
              exact (kept (by simp only [step, advance, held]; split <;> rfl)).elim
          | reapReload other =>
              exact (kept (by simp only [step, advance, held]; split <;> rfl)).elim
          | _ => exact (kept (by simp [step, advance, held, goto, setLive])).elim
  | connected success =>
      refine (kept ?_).elim
      rw [step, connected]
      split
      · split
        · rfl
        · rfl
      · rfl
  | bound port =>
      refine (kept ?_).elim
      change (machine.bound port).account.slot = machine.account.slot
      unfold bound
      split
      · rfl
      · rfl
      · rfl
  | abandon =>
      refine (kept ?_).elim
      rw [step, abandon]
      split
      · rfl
      · rfl
      · rfl
  | accept other =>
      refine (kept ?_).elim
      rw [step]
      split
      · rfl
      · rfl
  | client => exact (kept rfl).elim
  | call call success =>
      obtain ⟨calls, cacheHolder, cached, same⟩ := machine.turn_frame call success
      exact (kept (by rw [step, same])).elim
  | evict =>
      refine (kept ?_).elim
      rw [step]
      split
      · rfl
      · rfl

theorem quiet_run (config : Config) (instant wall : Nat) (steps : List Action)
    (careful : Along (step config) (Careful config) (new instant wall) steps) :
    (run (step config) (new instant wall) steps).Quiet := by
  have kept (machine : Machine) (action : Action) (held : machine.Owned ∧ machine.Quiet)
      (allowed : Careful config machine action) :
      (step config machine action).Owned ∧ (step config machine action).Quiet :=
    ⟨owned_step held.1 config action, quiet_step held.1 held.2 allowed⟩
  have start : (new instant wall).Owned ∧ (new instant wall).Quiet :=
    ⟨owned_new instant wall, quiet_of_free rfl⟩
  exact (run_invariant kept steps start careful).2

/-- In a run of careful steps, a tunnel that is taken out of the slot has no open
stream. -/
theorem emptied_unused (config : Config) (instant wall : Nat) (steps : List Action)
    (careful : Along (step config) (Careful config) (new instant wall) steps)
    (before : List Action) (action : Action) (taken : before ++ [action] <+: steps) (id : Nat)
    (filled : (run (step config) (new instant wall) before).account.slot = some id)
    (empties : (run (step config) (new instant wall) (before ++ [action])).account.slot = none) :
    ∀ worker ∈ (run (step config) (new instant wall) before).workers,
      worker.stream ≠ some id := by
  obtain ⟨later, rfl⟩ := taken
  rw [List.append_assoc] at careful
  have owned := owned_run config instant wall before
  have quiet := quiet_run config instant wall before careful.left
  rw [run_append] at empties
  obtain ⟨rfl, held⟩ := retireSlot_of_emptied owned.sound filled empties
  exact quiet id (by rw [retiring, held])

/-- The bridge takes a connection and gets its stream. -/
def bridgeSteps (index : Nat) : List Action := [.accept 0, .work index true]

/-- A connection of the bridge copies while two passes of the reaper, five minutes
apart, retire its tunnel. -/
theorem emptied_with_stream :
    ∃ before action id,
      (run (step Config.default) (new 0 0) before).account.slot = some id ∧
      (run (step Config.default) (new 0 0) (before ++ [action])).account.slot = none ∧
      ∃ worker ∈ (run (step Config.default) (new 0 0) before).workers,
        worker.stream = some id := by
  refine ⟨upSteps 0 firstPort ++ bridgeSteps 1 ++ reapSteps 2 ++ [.tick 300000] ++ (reapSteps 3).dropLast,
    .advance, 0, ?_⟩
  decide

/-- A tunnel without connections, up to the last step of the pass that retires it. -/
def idleSteps : List Action :=
  upSteps 0 firstPort ++ reapSteps 1 ++ [.tick 300000] ++ (reapSteps 2).dropLast

theorem emptied_unused_idle :
    (run (step Config.default) (new 0 0) idleSteps).account.slot = some 0 ∧
      ∀ worker ∈ (run (step Config.default) (new 0 0) idleSteps).workers,
        worker.stream ≠ some 0 := by
  have careful : Along (step Config.default) (Careful Config.default) (new 0 0)
      (idleSteps ++ [.advance]) := by decide
  have filled : (run (step Config.default) (new 0 0) idleSteps).account.slot = some 0 := by decide
  have empties : (run (step Config.default) (new 0 0)
      (idleSteps ++ [.advance])).account.slot = none := by decide
  exact ⟨filled, emptied_unused Config.default 0 0 _ careful idleSteps .advance
    (List.prefix_refl _) 0 filled empties⟩

/-! ### Who holds a retired tunnel -/

/-- A connection of the tunnel is open, or is being opened or dropped. -/
def InUse (machine : Machine) (id : Nat) : Prop :=
  ∃ worker ∈ machine.workers, worker.tunnel = some id

/-- Something has a pointer to the tunnel: the slot, the task that puts it there,
its accept loop, or a connection. -/
def Holds (machine : Machine) (id : Nat) : Prop :=
  machine.current = some id ∨ id ∈ machine.accepting ∨ machine.InUse id

instance (machine : Machine) (id : Nat) : Decidable (machine.InUse id) :=
  inferInstanceAs (Decidable (∃ worker ∈ machine.workers, worker.tunnel = some id))

instance (machine : Machine) (id : Nat) : Decidable (machine.Holds id) :=
  inferInstanceAs (Decidable (_ ∨ _ ∨ _))

/-- Nothing holds a retired tunnel whose connections have ended. -/
def Released (machine : Machine) : Prop :=
  ∀ id ∈ machine.retired, ¬ machine.InUse id → ¬ machine.Holds id

/-- The tunnel that has no bridge yet, if there is one. -/
def unbound (machine : Machine) : Nat :=
  match machine.locked with
  | some (.binding _) => 1
  | _ => 0

/-- How many tunnels something holds. -/
def alive (machine : Machine) : Nat :=
  ((List.range machine.account.lives.length).filter machine.Holds).length + machine.unbound

/-- Without connections there is one tunnel at most. -/
def Single (machine : Machine) : Prop := (∀ id, ¬ machine.InUse id) → machine.alive ≤ 1

/-- Every tunnel that ever got a bridge is still held. -/
theorem alive_eq {machine : Machine} (owned : machine.Owned) :
    machine.alive =
      machine.retired.length + machine.current.isSome.toNat + machine.unbound := by
  have all : (List.range machine.account.lives.length).filter machine.Holds =
      List.range machine.account.lives.length := by
    apply List.filter_eq_self.mpr
    intro id member
    apply decide_eq_true
    exact .inr (.inl (owned.accepting ▸ member))
  rw [alive, all, List.length_range, owned.tally]

/-- While one tunnel waits for its bridge, none is in the slot. -/
theorem current_of_unbound {machine : Machine} (sound : machine.Sound) :
    machine.current.isSome.toNat + machine.unbound ≤ 1 := by
  unfold unbound
  split
  · next held =>
      have empty : machine.account.slot = none := (sound.during held).slot
      simp [current, held, empty, Locked.rising]
  · have := Bool.toNat_le machine.current.isSome
    omega

/-- Retired tunnels are released, and there is one at most, exactly as long as
each tunnel that was retired still has a connection: the accept loop never ends. -/
theorem released_iff (config : Config) (instant wall : Nat) (steps : List Action) :
    (run (step config) (new instant wall) steps).Released ∧
        (run (step config) (new instant wall) steps).Single ↔
      ∀ id ∈ (run (step config) (new instant wall) steps).retired,
        (run (step config) (new instant wall) steps).InUse id := by
  have owned := owned_run config instant wall steps
  constructor
  · intro released id member
    by_contra unused
    apply released.1 id member unused
    refine .inr (.inl ?_)
    rw [owned.accepting]
    exact List.mem_range.mpr (owned.retired id member)
  · intro busy
    refine ⟨fun id member unused => absurd (busy id member) unused, ?_⟩
    intro idle
    have noneRetired : (run (step config) (new instant wall) steps).retired = [] :=
      List.eq_nil_iff_forall_not_mem.mpr fun id member => idle id (busy id member)
    have atMost := current_of_unbound owned.sound
    rw [alive_eq owned, noneRetired, List.length_nil]
    omega

/-- After an idle close and a reconnect there are two tunnels and no connection. -/
theorem not_released_after_reconnect :
    ∃ steps,
      ¬ (run (step Config.default) (new 0 0) steps).Released ∧
      (∀ worker ∈ (run (step Config.default) (new 0 0) steps).workers, worker.tunnel = none) ∧
      (run (step Config.default) (new 0 0) steps).alive = 2 := by
  refine ⟨idleSteps ++ [.advance] ++ upSteps 3 secondPort, ?_, ?_, ?_⟩
  · intro released
    exact released 0 (by decide) (by decide) (by decide)
  · decide
  · decide

end Machine

end Unroxy.Vpn
