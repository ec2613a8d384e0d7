import Unroxy.Lib.Run
import Unroxy.Vpn.Account

/-!
Owns the history of one VPN account: the calls of `warm` and `open`, the ends of
`open`, the drops of `Guard`s and the calls of `reap`, each a step of its own, and
the record of when they took place.

Time passes before a step, as long as the step says, and while `connect` awaits,
as long as the attempt takes; the tunnel lock is held for that time. How the
attempts end and how long they take is a parameter, one `Dial` after the other.

Does not own what goes through a stream.
-/

namespace Unroxy.Vpn

open Unroxy.Lib

/-- How long `VpnTunnel::connect` and `spawn_socks` take, and how they end. -/
structure Dial where
  duration : Nat
  outcome : Attempt
deriving DecidableEq

/-- A call of `connect`. -/
structure Tried where
  start : Nat
  finish : Nat
  outcome : Attempt
deriving DecidableEq

def Dial.tried (dial : Dial) (start : Nat) : Tried :=
  { start, finish := start + dial.duration, outcome := dial.outcome }

/-- A `Guard`: the tunnel it counts for, and its time. -/
structure GuardSpan where
  id : Nat
  made : Nat
  dropped : Option Nat
deriving DecidableEq, Repr

/-- A call of `live` that returned this tunnel. -/
structure LiveCall where
  id : Nat
  time : Nat
deriving DecidableEq, Repr

/-- An account with the record of what was done with it. Attempts stand latest
first. -/
structure History where
  account : Account
  now : Nat
  /-- The tunnels on which an `open` awaits its stream. -/
  opening : List Nat
  guards : List GuardSpan
  used : List LiveCall
  attempts : List Tried
deriving DecidableEq

/-- A step and how long it comes after the one before. -/
inductive Deed where
  | warm (wait : Nat)
  /-- `open`, up to the stream. -/
  | dial (wait : Nat)
  /-- The stream of an `open` is there, or fails. -/
  | opened (wait task : Nat) (success : Bool)
  | drop (wait guard : Nat)
  | reap (wait : Nat)
deriving DecidableEq, Repr

namespace Deed

def wait : Deed → Nat
  | .warm wait | .dial wait | .opened wait _ _ | .drop wait _ | .reap wait => wait

end Deed

namespace History

def new : History where
  account := .new
  now := 0
  opening := []
  guards := []
  used := []
  attempts := []

/-- `live` returned this tunnel to a caller, which opens a stream or does not. -/
def use (self : History) (opens : Bool) (id : Nat) : History :=
  { self with
    used := { id, time := self.now } :: self.used
    opening := if opens then self.opening ++ [id] else self.opening }

/-- `connect` from beginning to end. -/
def connect (self : History) (dial : Dial) : History :=
  { self with
    account := self.account.connect self.now dial.outcome
    now := self.now + dial.duration
    attempts := dial.tried self.now :: self.attempts }

/-- `live`, and what its caller does with the tunnel. -/
def live (dials : Nat → Dial) (self : History) (opens : Bool) : History :=
  match self.account.live self.now with
  | (.tunnel id, account) => { self with account }.use opens id
  | (.backoff, account) => { self with account }
  | (.connect, account) =>
      let connected := { self with account }.connect (dials self.attempts.length)
      match connected.account.slot with
      | some id => connected.use opens id
      | none => connected

def opened (self : History) (task : Nat) (success : Bool) : History :=
  match self.opening[task]? with
  | none => self
  | some id =>
      let returned := { self with opening := self.opening.eraseIdx task }
      if success then
        { returned with
          account := returned.account.guard id
          guards := returned.guards ++ [{ id, made := self.now, dropped := none }] }
      else returned

def drop (self : History) (guard : Nat) : History :=
  match self.guards[guard]? with
  | some { id, made, dropped := none } =>
      { self with
        account := self.account.dropGuard id self.now
        guards := self.guards.set guard { id, made, dropped := some self.now } }
  | _ => self

def reap (config : Config) (self : History) : History :=
  { self with account := self.account.reap config self.now }

def pass (self : History) (wait : Nat) : History := { self with now := self.now + wait }

def step (config : Config) (dials : Nat → Dial) (self : History) (deed : Deed) : History :=
  let self := self.pass deed.wait
  match deed with
  | .warm _ => self.live dials false
  | .dial _ => self.live dials true
  | .opened _ task success => self.opened task success
  | .drop _ guard => self.drop guard
  | .reap _ => self.reap config

/-! ### What `live` can do -/

section Live

variable (dials : Nat → Dial) (history : History) (opens : Bool)

/-- `live` returns the tunnel it finds, refuses while the backoff runs, or
connects. -/
theorem live_history :
    (∃ id, history.account.slot = some id ∧
      history.live dials opens =
        { history with account := (history.account.live history.now).2 }.use opens id) ∨
    (history.account.slot = none ∧ history.now < history.account.notBefore ∧
      history.live dials opens = history) ∨
    (history.account.slot = none ∧ history.account.notBefore ≤ history.now ∧
      ∃ connected, connected = history.connect (dials history.attempts.length) ∧
        (connected.account.slot = none ∧ history.live dials opens = connected ∨
          ∃ id, connected.account.slot = some id ∧
            history.live dials opens = connected.use opens id)) := by
  unfold live
  rcases history.account.live_cases history.now with
    ⟨id, later, filled, found, -⟩ | ⟨empty, early, refused⟩ | ⟨empty, due, connects⟩
  · left
    rw [found]
    exact ⟨id, filled, rfl⟩
  · right
    left
    rw [refused]
    exact ⟨empty, early, rfl⟩
  · right
    right
    rw [connects]
    refine ⟨empty, due, _, rfl, ?_⟩
    dsimp only
    cases filled : (history.connect (dials history.attempts.length)).account.slot with
    | none => exact .inl ⟨rfl, rfl⟩
    | some id => exact .inr ⟨id, rfl, rfl⟩

end Live

end History

end Unroxy.Vpn
