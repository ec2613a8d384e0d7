import Mathlib.Data.List.Count
import Unroxy.Lib.Run
import Unroxy.Vpn.Account

/-!
Owns one VPN account as the threads of the process share it: every load and
store of an atomic, of an idle clock or of the slot is a step of its own, in the
order of the source. Beside the account these are the tasks that use it, the
accept loops and connections of the SOCKS bridges, and the calls of
`RotatingTransport::client` with the cache entry of the account's key.

At most one task has the tunnel lock, and `Locked` is where it is. `generation`
counts without bound; the source's wraps after 2^64 increments.

Does not own the order of the steps, which is the run's, nor what goes through a
stream.
-/

namespace Unroxy.Vpn

open Unroxy.Lib

/-- The address of the SOCKS bridge on this port. -/
def bridgeUrl (port : UInt16) : String := "socks5h://127.0.0.1:" ++ toString port.toNat

namespace Account

def activeTunnels (self : Account) : Nat := self.ready.toNat

def isReady (self : Account) : Bool := self.bridgeReady

def proxyUrl (self : Account) : Option String :=
  if self.socksPort = 0 then none else some (bridgeUrl self.socksPort)

end Account

/-! ### Program points -/

/-- What the task with the tunnel lock does next. `dials` tells `open` from
`warm`. -/
inductive Locked where
  /-- `live` found this tunnel, and resets its idle clock. -/
  | found (dials : Bool) (id : Nat)
  /-- `VpnTunnel::connect` is awaited, since `now`. -/
  | connecting (dials : Bool) (now : Nat)
  /-- The tunnel is up, and `spawn_socks` is awaited. -/
  | binding (dials : Bool)
  | storeFailures (dials : Bool) (id : Nat) (port : BridgePort)
  | storeReady (dials : Bool) (id : Nat) (port : BridgePort)
  | storePort (dials : Bool) (id : Nat) (port : BridgePort)
  | storeSlot (dials : Bool) (id : Nat)
  /-- The attempt failed. -/
  | addFailure (now : Nat)
  | storeNotBefore (now : Nat)
  | clearReady
  | addGeneration
  /-- `reap` found this tunnel, and loads its count in `idle_expired`. -/
  | reapLoad (id now : Nat)
  /-- The count was 0. -/
  | reapClock (id now : Nat)
  /-- The tunnel stays: `reap` loads the count again. -/
  | reapReload (id : Nat)
  | reapKeep (id : Nat)
  /-- The idle clock has run out. -/
  | retireClock (id : Nat)
  | retireReady (id : Nat)
  | retireGeneration (id : Nat)
  | retirePort (id : Nat)
  | retireSlot (id : Nat)
deriving DecidableEq

/-- Where a task without the tunnel lock is. -/
inductive Worker where
  | warming
  | dialing
  | reaping
  /-- `open` awaits the stream. -/
  | opening (id : Nat)
  /-- `open` has the stream, and counts it next. -/
  | counting (id : Nat)
  /-- The `Guard` is with the caller. -/
  | guarding (id : Nat)
  /-- `drop` of the `Guard` has dropped the stream. -/
  | dropping (id : Nat)
  /-- It has lowered the count, and loads it next. -/
  | uncounted (id : Nat)
  /-- The count was 0, and the time was `now`. -/
  | idling (id now : Nat)
  /-- `serve_socks`, up to the stream. -/
  | bridging (id : Nat)
  /-- `serve_socks` copies. -/
  | copying (id : Nat)
  | done
deriving DecidableEq, Repr

/-- `CachedClient`: a client is known by the address it was built for. -/
structure CachedClient where
  generation : Nat
  url : String
deriving DecidableEq, Repr

/-- Where a call of `client` is. -/
inductive Call where
  | called
  /-- It has loaded this generation, and looks into the cache next. -/
  | loaded (generation : Nat)
  /-- It missed, and has the lock of the cache. -/
  | missed (generation : Nat)
  /-- It builds a client for this address. -/
  | building (generation : Nat) (url : String)
  /-- It returned this entry of the cache. -/
  | hit (cached : CachedClient)
  | done
deriving DecidableEq, Repr

structure Machine where
  account : Account
  locked : Option Locked
  /-- The tunnels of the accept loops, in the order `spawn_socks` started them. -/
  accepting : List Nat
  /-- The tunnels `reap` took out of the slot. -/
  retired : List Nat
  workers : List Worker
  calls : List Call
  /-- The call that has the lock of the cache. -/
  cacheHolder : Option Nat
  cached : Option CachedClient
  instant : Nat
  wall : Nat
deriving DecidableEq

namespace Machine

inductive Action where
  | tick (elapsed : Nat)
  /-- The system clock is set. -/
  | adjust (wall : Nat)
  | warm
  | dial
  | reap
  /-- A task does its next step; `success` is how what it awaits ends. -/
  | work (worker : Nat) (success : Bool)
  /-- The future of an `open` is dropped. -/
  | leave (worker : Nat)
  /-- The task with the tunnel lock does its next step. -/
  | advance
  /-- `VpnTunnel::connect` returns. -/
  | connected (success : Bool)
  /-- `spawn_socks` returns. -/
  | bound (port : Option BridgePort)
  /-- The future of an `open` in `connect` is dropped, and the lock with it. -/
  | abandon
  /-- The bridge of this tunnel accepts a connection. -/
  | accept (id : Nat)
  | client
  /-- A call of `client` does its next step. -/
  | call (call : Nat) (success : Bool)
  | evict
deriving DecidableEq

def new (instant wall : Nat) : Machine where
  account := Account.new
  locked := none
  accepting := []
  retired := []
  workers := []
  calls := []
  cacheHolder := none
  cached := none
  instant
  wall

def become (self : Machine) (worker : Nat) (next : Worker) : Machine :=
  { self with workers := self.workers.set worker next }

def spawn (self : Machine) (worker : Worker) : Machine :=
  { self with workers := self.workers ++ [worker] }

def setLive (self : Machine) (id : Nat) (change : Live → Live) : Machine :=
  { self with account := { self.account with lives := self.account.lives.modify id change } }

/-- `live.connections.load`. -/
def connections (self : Machine) (id : Nat) : Nat :=
  (self.account.lives[id]?.map Live.connections).getD 0

/-- `idle_since` of a tunnel. -/
def idleSince (self : Machine) (id : Nat) : Option Nat :=
  self.account.lives[id]?.bind Live.idleSince

/-- `live` gets the lock. -/
def enterLive (self : Machine) (worker : Nat) (dials : Bool) : Machine :=
  match self.account.slot with
  | some id => { self with locked := some (.found dials id) }.become worker .done
  | none =>
      if self.wall < self.account.notBefore then
        self.become worker .done
      else
        { self with locked := some (.connecting dials self.wall) }.become worker .done

/-- `reap` gets the lock. -/
def enterReap (self : Machine) (worker : Nat) : Machine :=
  match self.account.slot with
  | some id => { self with locked := some (.reapLoad id self.instant) }.become worker .done
  | none => self.become worker .done

/-- The next step of a task without the tunnel lock. -/
def work (self : Machine) (worker : Nat) (success : Bool) : Machine :=
  match self.workers[worker]? with
  | some .warming => if self.locked.isNone then self.enterLive worker false else self
  | some .dialing => if self.locked.isNone then self.enterLive worker true else self
  | some .reaping => if self.locked.isNone then self.enterReap worker else self
  | some (.opening id) => self.become worker (if success then .counting id else .done)
  | some (.counting id) =>
      (self.setLive id fun live => { live with connections := live.connections + 1 }).become
        worker (.guarding id)
  | some (.guarding id) => self.become worker (.dropping id)
  | some (.dropping id) =>
      (self.setLive id fun live => { live with connections := live.connections - 1 }).become
        worker (.uncounted id)
  | some (.uncounted id) =>
      self.become worker (if self.connections id = 0 then .idling id self.instant else .done)
  | some (.idling id now) =>
      (self.setLive id fun live => { live with idleSince := some now }).become worker .done
  | some (.bridging id) => self.become worker (if success then .copying id else .done)
  | some (.copying _) => self.become worker .done
  | some .done | none => self

def leave (self : Machine) (worker : Nat) : Machine :=
  match self.workers[worker]? with
  | some .dialing | some (.opening _) => self.become worker .done
  | _ => self

/-- `live` returns the tunnel: `open` goes on, `warm` ends. -/
def unlock (self : Machine) (dials : Bool) (id : Nat) : Machine :=
  if dials then { self with locked := none }.spawn (.opening id) else { self with locked := none }

def goto (self : Machine) (locked : Locked) : Machine := { self with locked := some locked }

/-- The next step of the task with the tunnel lock. -/
def advance (self : Machine) (config : Config) : Machine :=
  match self.locked with
  | none | some (.connecting ..) | some (.binding _) => self
  | some (.found dials id) =>
      (self.setLive id fun live => { live with idleSince := none }).unlock dials id
  | some (.storeFailures dials id port) =>
      { self with account := { self.account with failures := 0 } }.goto (.storeReady dials id port)
  | some (.storeReady dials id port) =>
      { self with account := { self.account with ready := true } }.goto (.storePort dials id port)
  | some (.storePort dials id port) =>
      { self with account := { self.account with socksPort := port } }.goto (.storeSlot dials id)
  | some (.storeSlot dials id) =>
      { self with account := { self.account with slot := some id } }.unlock dials id
  | some (.addFailure now) =>
      { self with account := { self.account with failures := self.account.failures + 1 } }.goto
        (.storeNotBefore now)
  | some (.storeNotBefore now) =>
      { self with account := { self.account with notBefore := now + self.account.backoff } }.goto
        .clearReady
  | some .clearReady =>
      { self with account := { self.account with ready := false } }.goto .addGeneration
  | some .addGeneration =>
      { self with
        account := { self.account with generation := self.account.generation + 1 }
        locked := none }
  | some (.reapLoad id now) =>
      if self.connections id > 0 then self.goto (.reapReload id) else self.goto (.reapClock id now)
  | some (.reapClock id now) =>
      let since := (self.idleSince id).getD now
      let self := self.setLive id fun live => { live with idleSince := some since }
      if now - since ≥ config.idleTimeout then self.goto (.retireClock id)
      else self.goto (.reapReload id)
  | some (.reapReload id) =>
      if self.connections id > 0 then self.goto (.reapKeep id) else { self with locked := none }
  | some (.reapKeep id) =>
      { self.setLive id fun live => { live with idleSince := none } with locked := none }
  | some (.retireClock id) =>
      (self.setLive id fun live => { live with idleSince := none }).goto (.retireReady id)
  | some (.retireReady id) =>
      { self with account := { self.account with ready := false } }.goto (.retireGeneration id)
  | some (.retireGeneration id) =>
      { self with
        account := { self.account with generation := self.account.generation + 1 } }.goto
          (.retirePort id)
  | some (.retirePort id) =>
      { self with account := { self.account with socksPort := 0 } }.goto (.retireSlot id)
  | some (.retireSlot id) =>
      { self with
        account := { self.account with slot := none }
        locked := none
        retired := self.retired ++ [id] }

def connected (self : Machine) (success : Bool) : Machine :=
  match self.locked with
  | some (.connecting dials now) =>
      if success then self.goto (.binding dials) else self.goto (.addFailure now)
  | _ => self

/-- With a listener comes an accept loop, which has the tunnel from then on. -/
def bound (self : Machine) (port : Option BridgePort) : Machine :=
  match self.locked, port with
  | some (.binding dials), some port =>
      let id := self.account.lives.length
      { self with
        account := { self.account with
          lives := self.account.lives ++ [({ connections := 0, idleSince := none } : Live)] }
        accepting := self.accepting ++ [id] }.goto (.storeFailures dials id port)
  | some (.binding _), none => { self with locked := none }
  | _, _ => self

def abandon (self : Machine) : Machine :=
  match self.locked with
  | some (.connecting true _) | some (.binding true) => { self with locked := none }
  | _ => self

/-- The next step of a call of `client`. -/
def turn (self : Machine) (call : Nat) (success : Bool) : Machine :=
  let become (next : Call) : Machine := { self with calls := self.calls.set call next }
  match self.calls[call]? with
  | some .called => become (.loaded self.account.generation)
  | some (.loaded generation) =>
      if self.cacheHolder.isSome then self
      else
        match self.cached with
        | some cached =>
            if cached.generation = generation then become (.hit cached)
            else { become (.missed generation) with cacheHolder := some call }
        | none => { become (.missed generation) with cacheHolder := some call }
  | some (.missed generation) =>
      match self.account.proxyUrl with
      | some url => become (.building generation url)
      | none => { become .done with cacheHolder := none }
  | some (.building generation url) =>
      if success then
        { become .done with cacheHolder := none, cached := some { generation, url } }
      else { become .done with cacheHolder := none }
  | some (.hit _) | some .done | none => self

/-- One step. An action that is not possible changes nothing. -/
def step (config : Config) (self : Machine) : Action → Machine
  | .tick elapsed => { self with instant := self.instant + elapsed, wall := self.wall + elapsed }
  | .adjust wall => { self with wall }
  | .warm => self.spawn .warming
  | .dial => self.spawn .dialing
  | .reap => self.spawn .reaping
  | .work worker success => self.work worker success
  | .leave worker => self.leave worker
  | .advance => self.advance config
  | .connected success => self.connected success
  | .bound port => self.bound port
  | .abandon => self.abandon
  | .accept id => if id ∈ self.accepting then self.spawn (.bridging id) else self
  | .client => { self with calls := self.calls ++ [.called] }
  | .call call success => self.turn call success
  | .evict => if self.cacheHolder.isSome then self else { self with cached := none }

end Machine

/-! ### What the lock holder keeps -/

namespace Locked

/-- What is in the slot at this point. -/
def slot : Locked → Option Nat
  | .found _ id | .reapLoad id _ | .reapClock id _ | .reapReload id | .reapKeep id
  | .retireClock id | .retireReady id | .retireGeneration id | .retirePort id
  | .retireSlot id => some id
  | _ => none

/-- The value of `ready` at this point. -/
def ready : Locked → Bool
  | .found .. | .storePort .. | .storeSlot .. | .reapLoad .. | .reapClock .. | .reapReload _
  | .reapKeep _ | .retireClock _ | .retireReady _ => true
  | _ => false

/-- Whether `socks_port` is set at this point. -/
def bridged : Locked → Bool
  | .found .. | .storeSlot .. | .reapLoad .. | .reapClock .. | .reapReload _ | .reapKeep _
  | .retireClock _ | .retireReady _ | .retireGeneration _ | .retirePort _ => true
  | _ => false

/-- The tunnel that is about to go into the slot. -/
def rising : Locked → Option Nat
  | .storeFailures _ id _ | .storeReady _ id _ | .storePort _ id _ | .storeSlot _ id => some id
  | _ => none

end Locked

/-- The account between two steps of the task with the tunnel lock. -/
structure During (account : Account) (locked : Locked) : Prop where
  slot : account.slot = locked.slot
  ready : account.ready = locked.ready
  bridge : account.socksPort ≠ 0 ↔ locked.bridged
  inside : ∀ id, account.slot = some id → id < account.lives.length
  rising : ∀ id, locked.rising = some id → id < account.lives.length

/-- The account is consistent whenever nobody has the lock. -/
def Coherent (account : Account) : Option Locked → Prop
  | none => account.Consistent
  | some locked => During account locked

/-- At a point where the three agree, the account is consistent. -/
theorem During.consistent {account : Account} {locked : Locked} (during : During account locked)
    (ready : locked.ready = locked.slot.isSome) (bridged : locked.bridged = locked.slot.isSome) :
    account.Consistent where
  ready := by rw [during.ready, ready, during.slot]
  bridge := by
    have bridge := during.bridge
    rw [bridged, ← during.slot] at bridge
    cases filled : account.slot with
    | none => simpa [filled] using bridge
    | some id => simpa [filled] using bridge
  inside := during.inside

/-- A task that gets the lock finds the account consistent. -/
theorem During.enter {account : Account} (consistent : account.Consistent) {locked : Locked}
    (slot : account.slot = locked.slot) (ready : locked.ready = locked.slot.isSome)
    (bridged : locked.bridged = locked.slot.isSome) (still : locked.rising = none) :
    During account locked where
  slot := slot
  ready := by rw [consistent.ready, slot, ready]
  bridge := by
    rw [ne_eq, consistent.bridge, slot, bridged]
    cases locked.slot <;> simp
  inside := consistent.inside
  rising := by
    intro id rises
    rw [still] at rises
    cases rises

/-- Only the counts and clocks of tunnels change. -/
theorem Coherent.lives {account : Account} {locked : Option Locked}
    (coherent : Coherent account locked) {lives : List Live}
    (length : lives.length = account.lives.length) : Coherent { account with lives } locked := by
  cases locked with
  | none => exact Account.Consistent.lives coherent length
  | some locked =>
      exact ⟨coherent.slot, coherent.ready, coherent.bridge,
        fun id filled => length ▸ coherent.inside id filled,
        fun id rises => length ▸ coherent.rising id rises⟩

namespace Machine

@[simp] theorem unlock_account (machine : Machine) (dials : Bool) (id : Nat) :
    (machine.unlock dials id).account = machine.account := by
  cases dials <;> rfl

@[simp] theorem unlock_locked (machine : Machine) (dials : Bool) (id : Nat) :
    (machine.unlock dials id).locked = none := by
  cases dials <;> rfl

/-- What the lock holder and the account owe each other. -/
def Sound (machine : Machine) : Prop := Coherent machine.account machine.locked

theorem Sound.during {machine : Machine} (sound : machine.Sound) {locked : Locked}
    (held : machine.locked = some locked) : During machine.account locked := by
  rw [Sound, held] at sound
  exact sound

theorem Sound.consistent {machine : Machine} (sound : machine.Sound)
    (free : machine.locked = none) : machine.account.Consistent := by
  rw [Sound, free] at sound
  exact sound

theorem Sound.setLive {machine : Machine} (sound : machine.Sound) (id : Nat)
    (change : Live → Live) : (machine.setLive id change).Sound :=
  Coherent.lives sound (List.length_modify ..)

theorem Sound.become {machine : Machine} (sound : machine.Sound) (worker : Nat) (next : Worker) :
    (machine.become worker next).Sound := sound

theorem sound_enterLive {machine : Machine} (sound : machine.Sound)
    (free : machine.locked = none) (worker : Nat) (dials : Bool) :
    (machine.enterLive worker dials).Sound := by
  have consistent := sound.consistent free
  unfold enterLive
  split
  · next id filled => exact During.enter consistent filled rfl rfl rfl
  · next empty =>
      split
      · exact sound
      · exact During.enter consistent empty rfl rfl rfl

theorem sound_enterReap {machine : Machine} (sound : machine.Sound)
    (free : machine.locked = none) (worker : Nat) : (machine.enterReap worker).Sound := by
  unfold enterReap
  split
  · next id filled => exact During.enter (sound.consistent free) filled rfl rfl rfl
  · exact sound

theorem sound_work {machine : Machine} (sound : machine.Sound) (worker : Nat) (success : Bool) :
    (machine.work worker success).Sound := by
  unfold work
  split
  · split
    · next free => exact sound_enterLive sound (Option.isNone_iff_eq_none.mp free) worker false
    · exact sound
  · split
    · next free => exact sound_enterLive sound (Option.isNone_iff_eq_none.mp free) worker true
    · exact sound
  · split
    · next free => exact sound_enterReap sound (Option.isNone_iff_eq_none.mp free) worker
    · exact sound
  · exact sound
  · exact (sound.setLive _ _).become _ _
  · exact sound
  · exact (sound.setLive _ _).become _ _
  · exact sound
  · exact (sound.setLive _ _).become _ _
  · exact sound
  · exact sound
  · exact sound
  · exact sound

/-- The step of the lock holder, point by point. -/
theorem sound_advance {machine : Machine} (sound : machine.Sound) (config : Config) :
    (machine.advance config).Sound := by
  unfold advance
  split
  · exact sound
  · exact sound
  · exact sound
  · next dials id held =>
      have reset := sound.setLive id fun live => { live with idleSince := none }
      rw [Sound, unlock_account, unlock_locked]
      exact (reset.during held).consistent rfl rfl
  · next held =>
      have during := sound.during held
      exact ⟨during.slot, during.ready, during.bridge, during.inside, during.rising⟩
  · next held =>
      have during := sound.during held
      exact ⟨during.slot, rfl, during.bridge, during.inside, during.rising⟩
  · next port held =>
      have during := sound.during held
      exact ⟨during.slot, during.ready, iff_of_true port.property rfl, during.inside,
        during.rising⟩
  · next dials id held =>
      have during := sound.during held
      rw [Sound, unlock_account, unlock_locked]
      refine ⟨during.ready, ?_, ?_⟩
      · exact iff_of_false (during.bridge.mpr rfl) (Option.some_ne_none id)
      · intro other filled
        cases filled
        exact during.rising id rfl
  · next held =>
      have during := sound.during held
      exact ⟨during.slot, during.ready, during.bridge, during.inside, during.rising⟩
  · next held =>
      have during := sound.during held
      exact ⟨during.slot, during.ready, during.bridge, during.inside, during.rising⟩
  · next held =>
      have during := sound.during held
      exact ⟨during.slot, rfl, during.bridge, during.inside, during.rising⟩
  · next held =>
      have settled := (sound.during held).consistent rfl rfl
      exact ⟨settled.ready, settled.bridge, settled.inside⟩
  · next id now held =>
      have during := sound.during held
      split
      · exact ⟨during.slot, during.ready, during.bridge, during.inside, during.rising⟩
      · exact ⟨during.slot, during.ready, during.bridge, during.inside, during.rising⟩
  · next id now held =>
      have started := sound.setLive id fun live =>
        { live with idleSince := some ((machine.idleSince id).getD now) }
      have during := started.during held
      dsimp only
      split
      · exact ⟨during.slot, during.ready, during.bridge, during.inside, during.rising⟩
      · exact ⟨during.slot, during.ready, during.bridge, during.inside, during.rising⟩
  · next id held =>
      have during := sound.during held
      split
      · exact ⟨during.slot, during.ready, during.bridge, during.inside, during.rising⟩
      · exact during.consistent rfl rfl
  · next id held =>
      have reset := sound.setLive id fun live => { live with idleSince := none }
      exact (reset.during held).consistent rfl rfl
  · next id held =>
      have reset := sound.setLive id fun live => { live with idleSince := none }
      have during := reset.during held
      exact ⟨during.slot, during.ready, during.bridge, during.inside, during.rising⟩
  · next held =>
      have during := sound.during held
      exact ⟨during.slot, rfl, during.bridge, during.inside, during.rising⟩
  · next held =>
      have during := sound.during held
      exact ⟨during.slot, during.ready, during.bridge, during.inside, during.rising⟩
  · next held =>
      have during := sound.during held
      exact ⟨during.slot, during.ready, iff_of_false (fun other => other rfl) Bool.false_ne_true,
        during.inside, during.rising⟩
  · next id held =>
      have during := sound.during held
      refine ⟨during.ready, ?_, ?_⟩
      · exact iff_of_true (not_not.mp fun other => Bool.false_ne_true (during.bridge.mp other)) rfl
      · intro other filled
        cases filled

theorem sound_connected {machine : Machine} (sound : machine.Sound) (success : Bool) :
    (machine.connected success).Sound := by
  unfold connected
  split
  · next held =>
      have during := sound.during held
      split
      · exact ⟨during.slot, during.ready, during.bridge, during.inside, during.rising⟩
      · exact ⟨during.slot, during.ready, during.bridge, during.inside, during.rising⟩
  · exact sound

theorem sound_bound {machine : Machine} (sound : machine.Sound) (port : Option BridgePort) :
    (machine.bound port).Sound := by
  unfold bound
  split
  · next held =>
      have during := sound.during held
      refine ⟨during.slot, during.ready, during.bridge, ?_, ?_⟩
      · intro id filled
        have below := during.inside id filled
        simp only [goto, List.length_append]
        omega
      · intro id rises
        cases rises
        simp [goto]
  · next held => exact (sound.during held).consistent rfl rfl
  · exact sound

theorem sound_abandon {machine : Machine} (sound : machine.Sound) : machine.abandon.Sound := by
  unfold abandon
  split
  · next held => exact (sound.during held).consistent rfl rfl
  · next held => exact (sound.during held).consistent rfl rfl
  · exact sound

/-- A call of `client` changes nothing but calls and the cache. -/
theorem turn_frame (machine : Machine) (call : Nat) (success : Bool) :
    ∃ calls cacheHolder cached,
      machine.turn call success = { machine with calls, cacheHolder, cached } := by
  unfold turn
  dsimp only
  split
  · exact ⟨_, machine.cacheHolder, machine.cached, rfl⟩
  · split
    · exact ⟨machine.calls, machine.cacheHolder, machine.cached, rfl⟩
    · split
      · split
        · exact ⟨_, machine.cacheHolder, _, rfl⟩
        · exact ⟨_, _, machine.cached, rfl⟩
      · exact ⟨_, _, machine.cached, rfl⟩
  · split
    · exact ⟨_, machine.cacheHolder, machine.cached, rfl⟩
    · exact ⟨_, _, machine.cached, rfl⟩
  · split
    · exact ⟨_, _, _, rfl⟩
    · exact ⟨_, _, machine.cached, rfl⟩
  · exact ⟨machine.calls, machine.cacheHolder, machine.cached, rfl⟩
  · exact ⟨machine.calls, machine.cacheHolder, machine.cached, rfl⟩
  · exact ⟨machine.calls, machine.cacheHolder, machine.cached, rfl⟩

theorem leave_frame (machine : Machine) (worker : Nat) :
    ∃ workers, machine.leave worker = { machine with workers } := by
  unfold leave
  split
  · exact ⟨_, rfl⟩
  · exact ⟨_, rfl⟩
  · exact ⟨machine.workers, rfl⟩

theorem sound_step {machine : Machine} (sound : machine.Sound) (config : Config)
    (action : Action) : (step config machine action).Sound := by
  cases action with
  | tick elapsed => exact sound
  | adjust wall => exact sound
  | warm => exact sound
  | dial => exact sound
  | reap => exact sound
  | work worker success => exact sound_work sound worker success
  | leave worker =>
      obtain ⟨workers, same⟩ := machine.leave_frame worker
      rw [step, same]
      exact sound
  | advance => exact sound_advance sound config
  | connected success => exact sound_connected sound success
  | bound port => exact sound_bound sound port
  | abandon => exact sound_abandon sound
  | accept id =>
      rw [step]
      split
      · exact sound
      · exact sound
  | client => exact sound
  | call call success =>
      obtain ⟨calls, cacheHolder, cached, same⟩ := machine.turn_frame call success
      rw [step, same]
      exact sound
  | evict =>
      rw [step]
      split
      · exact sound
      · exact sound

theorem sound_run (config : Config) (instant wall : Nat) (steps : List Action) :
    (run (step config) (new instant wall) steps).Sound := by
  apply run_always
  · intro machine action sound
    exact sound_step sound config action
  · exact Account.consistent_new

/-! ### A task that is not interrupted does what `Account` says -/

theorem connect_alone {machine : Machine} {dials : Bool} {now : Nat}
    (held : machine.locked = some (.connecting dials now)) (config : Config) (port : BridgePort) :
    (run (step config) machine
      [.connected true, .bound (some port), .advance, .advance, .advance, .advance]).account =
        machine.account.connect now (.up port) := by
  simp [run, step, connected, held, goto, bound, advance, Account.connect]

theorem bridgeFailed_alone {machine : Machine} {dials : Bool} {now : Nat}
    (held : machine.locked = some (.connecting dials now)) (config : Config) :
    (run (step config) machine [.connected true, .bound none]).account =
      machine.account.connect now .bridgeFailed := by
  simp [run, step, connected, held, goto, bound, Account.connect]

theorem tunnelFailed_alone {machine : Machine} {dials : Bool} {now : Nat}
    (held : machine.locked = some (.connecting dials now)) (config : Config) :
    (run (step config) machine
      [.connected false, .advance, .advance, .advance, .advance]).account =
        machine.account.connect now .tunnelFailed := by
  simp [run, step, connected, held, goto, advance, Account.connect, Account.backoff]

private theorem modify_eq_set {lives : List Live} {id : Nat} {live : Live}
    (found : lives[id]? = some live) (change : Live → Live) :
    lives.modify id change = lives.set id (change live) := by
  simp [List.modify_eq_set_getElem?, found]

private theorem modify_set (lives : List Live) (id : Nat) (live : Live) (change : Live → Live) :
    (lives.set id live).modify id change = lives.set id (change live) := by
  by_cases below : id < lives.length
  · simp [List.modify_eq_set_getElem?, below]
  · have outside : lives.length ≤ id := Nat.not_lt.mp below
    simp [List.modify_eq_set_getElem?, outside, List.set_eq_of_length_le]

private theorem reread {lives : List Live} {id : Nat} {live : Live}
    (found : lives[id]? = some live) (later : Live) : (lives.set id later)[id]? = some later :=
  List.getElem?_set_self (List.getElem?_eq_some_iff.mp found).1

/-- `reap` with the lock on a tunnel. -/
private theorem reapLoad_alone {machine : Machine} {id : Nat} {live : Live}
    (held : machine.locked = some (.reapLoad id machine.instant))
    (filled : machine.account.slot = some id) (found : machine.account.lives[id]? = some live)
    (config : Config) :
    (run (step config) machine (List.replicate 7 .advance)).account =
      machine.account.reap config machine.instant := by
  by_cases busy : live.connections > 0
  · simp [run, step, advance, held, connections, found, busy, goto, List.replicate, setLive,
      modify_eq_set found, Account.reap, Account.idleExpired, filled]
  · have unused : live.connections = 0 := Nat.eq_zero_of_not_pos busy
    by_cases expired : config.idleTimeout ≤ machine.instant - live.idleSince.getD machine.instant
    · simp [run, step, advance, held, connections, idleSince, found, unused, goto, List.replicate,
        setLive, modify_eq_set found, modify_set, Account.reap, Account.idleExpired, filled,
        expired]
    · simp [run, step, advance, held, connections, idleSince, found, unused, goto, List.replicate,
        setLive, modify_eq_set found, Account.reap, Account.idleExpired, filled, expired,
        reread found]

theorem reap_alone {machine : Machine} (sound : machine.Sound) (free : machine.locked = none)
    {worker : Nat} (reaps : machine.workers[worker]? = some .reaping) (config : Config) :
    (run (step config) machine (.work worker true :: List.replicate 7 .advance)).account =
      machine.account.reap config machine.instant := by
  have enters : step config machine (.work worker true) = machine.enterReap worker := by
    simp [step, work, reaps, free]
  rw [run_cons, enters, enterReap]
  cases filled : machine.account.slot with
  | none =>
      simp [run, step, advance, List.replicate, become, free, Account.reap, filled]
  | some id =>
      have below := (sound.consistent free).inside id filled
      obtain ⟨live, found⟩ : ∃ live, machine.account.lives[id]? = some live :=
        ⟨_, List.getElem?_eq_getElem below⟩
      let entered : Machine :=
        { machine with locked := some (.reapLoad id machine.instant) }.become worker .done
      have held : entered.locked = some (.reapLoad id entered.instant) := rfl
      exact reapLoad_alone held filled found config

/-! ### Runs that are written out -/

def firstPort : BridgePort := ⟨4242, by decide⟩

def secondPort : BridgePort := ⟨4243, by decide⟩

/-- A tunnel comes up on this port; `index` is the task. -/
def upSteps (index : Nat) (port : BridgePort) : List Action :=
  [.warm, .work index true, .connected true, .bound (some port), .advance, .advance, .advance,
    .advance]

/-- A pass of the reaper that retires the tunnel; `index` is its task. -/
def reapSteps (index : Nat) : List Action :=
  [.reap, .work index true, .advance, .advance, .advance, .advance, .advance, .advance, .advance]

end Machine

end Unroxy.Vpn
