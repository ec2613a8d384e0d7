import Mathlib.Algebra.Group.Nat.Defs
import Mathlib.Data.List.Basic

/-!
Owns `Account` and `Live` of `vpn/provider.rs`: the tunnel slot, the readiness
flags and the backoff, and what `live`, `connect`, `open`, `reap` and the drop of
a `Guard` do to them.

An operation is what the source does between two of its awaits. What a
`VpnTunnel` and the SOCKS bridge do is the outcome of an `Attempt`. Times are
milliseconds: `now` is `now_millis` for the backoff and `Instant::now` for the
idle clock.

The atomic counters are natural numbers: `Machine.counters_fit` says in which runs
none of them wraps.

Does not own who calls the operations.
-/

namespace Unroxy.Vpn

structure Config where
  idleTimeout : Nat
deriving DecidableEq, Repr

def Config.default : Config := { idleTimeout := 300 * 1000 }

structure Live where
  connections : Nat
  idleSince : Option Nat
deriving DecidableEq, Repr

/-- The port of a bound listener. -/
abbrev BridgePort := { port : UInt16 // port ≠ 0 }

/-- An account with every tunnel it ever had, in the order they came up; `slot`
is the place of the current one. -/
structure Account where
  slot : Option Nat
  lives : List Live
  socksPort : UInt16
  failures : Nat
  notBefore : Nat
  generation : Nat
  ready : Bool
deriving DecidableEq, Repr

/-- How `VpnTunnel::connect`, and `spawn_socks` after it, can end. -/
inductive Attempt where
  | up (port : BridgePort)
  | bridgeFailed
  | tunnelFailed
deriving DecidableEq

/-- What `live` does once it has the lock. -/
inductive LiveOutcome where
  | tunnel (id : Nat)
  | backoff
  | connect
deriving DecidableEq, Repr

def backoffDelay (failures : Nat) : Nat := 1000 * 2 ^ min failures 8

namespace Account

def new : Account where
  slot := none
  lives := []
  socksPort := 0
  failures := 0
  notBefore := 0
  generation := 0
  ready := false

def backoff (self : Account) : Nat := backoffDelay self.failures

def bridgeReady (self : Account) : Bool := self.ready && self.socksPort != 0

/-- `live`, up to the call of `connect`. -/
def live (self : Account) (now : Nat) : LiveOutcome × Account :=
  match self.slot with
  | some id =>
      (.tunnel id, { self with
        lives := self.lives.modify id fun live => { live with idleSince := none } })
  | none => if now < self.notBefore then (.backoff, self) else (.connect, self)

/-- `connect`, once the attempt that began at `now` has ended. -/
def connect (self : Account) (now : Nat) : Attempt → Account
  | .up port =>
      { self with
        failures := 0
        ready := true
        socksPort := port
        slot := some self.lives.length
        lives := self.lives ++ [{ connections := 0, idleSince := none }] }
  | .bridgeFailed => self
  | .tunnelFailed =>
      let failed := { self with failures := self.failures + 1 }
      { failed with
        notBefore := now + failed.backoff
        ready := false
        generation := failed.generation + 1 }

/-- The end of `open`: the stream is wrapped in a `Guard`. -/
def guard (self : Account) (id : Nat) : Account :=
  { self with
    lives := self.lives.modify id fun live => { live with connections := live.connections + 1 } }

/-- `drop` of a `Guard`. -/
def dropGuard (self : Account) (id now : Nat) : Account :=
  { self with
    lives := self.lives.modify id fun live =>
      let connections := live.connections - 1
      { connections, idleSince := if connections = 0 then some now else live.idleSince } }

/-- `idle_expired`, which starts the idle clock if it does not run. -/
def idleExpired (live : Live) (now timeout : Nat) : Bool × Live :=
  if live.connections > 0 then
    (false, live)
  else
    let since := live.idleSince.getD now
    (decide (now - since ≥ timeout), { live with idleSince := some since })

def reap (self : Account) (config : Config) (now : Nat) : Account :=
  match self.slot with
  | none => self
  | some id =>
      match self.lives[id]? with
      | none => self
      | some live =>
          let (expired, live) := idleExpired live now config.idleTimeout
          if expired then
            { self with
              lives := self.lives.set id { live with idleSince := none }
              ready := false
              generation := self.generation + 1
              socksPort := 0
              slot := none }
          else if live.connections > 0 then
            { self with lives := self.lives.set id { live with idleSince := none } }
          else
            { self with lives := self.lives.set id live }

/-! ### What the operations can do -/

theorem live_cases (account : Account) (now : Nat) :
    (∃ id later, account.slot = some id ∧ account.live now = (.tunnel id, later) ∧
      later.slot = some id) ∨
    (account.slot = none ∧ now < account.notBefore ∧ account.live now = (.backoff, account)) ∨
    (account.slot = none ∧ account.notBefore ≤ now ∧ account.live now = (.connect, account)) := by
  unfold live
  cases filled : account.slot with
  | some id => exact .inl ⟨id, _, rfl, rfl, rfl⟩
  | none =>
      by_cases early : now < account.notBefore
      · exact .inr (.inl ⟨rfl, early, if_pos early⟩)
      · exact .inr (.inr ⟨rfl, Nat.not_lt.mp early, if_neg early⟩)

theorem live_connections (account : Account) (now : Nat) :
    (account.live now).2.lives.map Live.connections = account.lives.map Live.connections := by
  unfold live
  split
  · apply List.ext_getElem?
    intro index
    rw [List.getElem?_map, List.getElem?_map, List.getElem?_modify]
    cases account.lives[index]? with
    | none => rfl
    | some live =>
        simp only [Option.map_eq_map, Option.map_some]
        split <;> rfl
  · split <;> rfl

private theorem idleExpired_connections (live : Live) (now timeout : Nat) :
    (idleExpired live now timeout).2.connections = live.connections := by
  unfold idleExpired
  split <;> rfl

private theorem set_connections {lives : List Live} {id : Nat} {live later : Live}
    (found : lives[id]? = some live) (same : later.connections = live.connections) :
    (lives.set id later).map Live.connections = lives.map Live.connections := by
  have below := (List.getElem?_eq_some_iff.mp found).1
  apply List.ext_getElem?
  intro index
  by_cases here : id = index
  · subst here
    rw [List.getElem?_map, List.getElem?_map, List.getElem?_set_self below, found,
      Option.map_some, Option.map_some, same]
  · rw [List.getElem?_map, List.getElem?_map, List.getElem?_set_ne here]

theorem reap_connections (account : Account) (config : Config) (now : Nat) :
    (account.reap config now).lives.map Live.connections =
      account.lives.map Live.connections := by
  unfold reap
  split
  · rfl
  · split
    · rfl
    · next id _ live found =>
        have same := idleExpired_connections live now config.idleTimeout
        dsimp only
        split
        · exact set_connections found same
        · split
          · exact set_connections found same
          · exact set_connections found same

/-- `reap` empties the slot, or leaves everything but the idle clock. -/
theorem reap_cases (account : Account) (config : Config) (now : Nat) :
    (account.reap config now).slot = none ∨
      (account.reap config now).slot = account.slot ∧
        (account.reap config now).ready = account.ready := by
  unfold reap
  split
  · exact .inr ⟨rfl, rfl⟩
  · split
    · exact .inr ⟨rfl, rfl⟩
    · dsimp only
      split
      · exact .inl rfl
      · split
        · exact .inr ⟨rfl, rfl⟩
        · exact .inr ⟨rfl, rfl⟩

/-- The first `reap` of a tunnel without connections starts its idle clock, if
it does not close it. -/
theorem reap_starts {account : Account} {id : Nat} {live : Live} (filled : account.slot = some id)
    (found : account.lives[id]? = some live) (unused : live.connections = 0) (config : Config)
    (now : Nat) :
    (account.reap config now).slot = none ∨
      (account.reap config now).slot = some id ∧
        ∃ since, (account.reap config now).lives[id]? =
          some { connections := 0, idleSince := some since } := by
  have below := (List.getElem?_eq_some_iff.mp found).1
  unfold reap
  rw [filled]
  dsimp only
  rw [found]
  dsimp only
  split
  · exact .inl rfl
  · have clock : (idleExpired live now config.idleTimeout).2 =
        { connections := 0, idleSince := some (live.idleSince.getD now) } := by
      unfold idleExpired
      rw [if_neg (by omega)]
      dsimp only
      rw [unused]
    rw [clock, if_neg (Nat.lt_irrefl 0)]
    refine .inr ⟨rfl, live.idleSince.getD now, ?_⟩
    dsimp only
    exact List.getElem?_set_self below

/-- Once the idle clock has run out, `reap` closes the tunnel. -/
theorem reap_expired {account : Account} {id since : Nat} (filled : account.slot = some id)
    (found : account.lives[id]? = some { connections := 0, idleSince := some since })
    {config : Config} {now : Nat} (late : since + config.idleTimeout ≤ now) :
    (account.reap config now).slot = none := by
  unfold reap
  rw [filled]
  dsimp only
  rw [found]
  have expired : (idleExpired { connections := 0, idleSince := some since } now
      config.idleTimeout).1 = true := by
    unfold idleExpired
    rw [if_neg (Nat.lt_irrefl 0)]
    apply decide_eq_true
    change now - since ≥ config.idleTimeout
    omega
  dsimp only
  rw [if_pos expired]

/-! ### The flags agree with the slot -/

/-- A tunnel in the slot is one of the account's, and the flags and the bridge
port are set exactly while there is one. -/
structure Consistent (account : Account) : Prop where
  ready : account.ready = account.slot.isSome
  bridge : account.socksPort = 0 ↔ account.slot = none
  inside : ∀ id, account.slot = some id → id < account.lives.length

theorem consistent_new : Account.new.Consistent where
  ready := rfl
  bridge := Iff.intro (fun _ => rfl) (fun _ => rfl)
  inside := by
    intro id filled
    cases filled

theorem Consistent.bridgeReady {account : Account} (consistent : account.Consistent) :
    account.bridgeReady = account.slot.isSome := by
  rw [Account.bridgeReady, consistent.ready]
  cases filled : account.slot with
  | none => rfl
  | some id =>
      have bound : account.socksPort ≠ 0 := by
        intro zero
        rw [consistent.bridge.mp zero] at filled
        cases filled
      simp [bound]

/-- An operation that only changes the tunnels' own clocks and counts. -/
theorem Consistent.lives {account : Account} (consistent : account.Consistent) {lives : List Live}
    (length : lives.length = account.lives.length) : Consistent { account with lives } where
  ready := consistent.ready
  bridge := consistent.bridge
  inside := by
    intro id filled
    rw [length]
    exact consistent.inside id filled

theorem consistent_live {account : Account} (consistent : account.Consistent) (now : Nat) :
    (account.live now).2.Consistent := by
  unfold live
  split
  · exact consistent.lives (List.length_modify ..)
  · split
    · exact consistent
    · exact consistent

/-- `connect` is called while the slot is empty. -/
theorem consistent_connect {account : Account} (consistent : account.Consistent)
    (empty : account.slot = none) (now : Nat) (attempt : Attempt) :
    (account.connect now attempt).Consistent := by
  cases attempt with
  | up port =>
      refine ⟨rfl, ⟨fun zero => absurd zero port.property, fun none => by cases none⟩, ?_⟩
      intro id filled
      cases filled
      simp [connect]
  | bridgeFailed => exact consistent
  | tunnelFailed =>
      refine ⟨?_, consistent.bridge, consistent.inside⟩
      change false = account.slot.isSome
      rw [empty]
      rfl

theorem consistent_guard {account : Account} (consistent : account.Consistent) (id : Nat) :
    (account.guard id).Consistent :=
  consistent.lives (List.length_modify ..)

theorem consistent_dropGuard {account : Account} (consistent : account.Consistent) (id now : Nat) :
    (account.dropGuard id now).Consistent :=
  consistent.lives (List.length_modify ..)

theorem consistent_reap {account : Account} (consistent : account.Consistent) (config : Config)
    (now : Nat) : (account.reap config now).Consistent := by
  unfold reap
  split
  · exact consistent
  · split
    · exact consistent
    · dsimp only
      split
      · exact ⟨rfl, Iff.intro (fun _ => rfl) (fun _ => rfl), fun _ filled => by cases filled⟩
      · split
        · exact consistent.lives (List.length_set ..)
        · exact consistent.lives (List.length_set ..)

end Account

end Unroxy.Vpn
