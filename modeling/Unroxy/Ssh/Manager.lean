import Unroxy.Lib.Run

/-!
Owns the session pool of an SSH tunnel: `Inner` of `ssh/mod.rs`, its `manage`
loop with `reap` and `pick_account`, and the connect tasks that `manage` spawns.

A step is one access to what the tasks share: one acquisition of the `sessions`
lock, one operation on an atomic. Which task goes next, how `Session::connect`
ends, when a session closes, what the clock says and whether the process-wide
`HANDSHAKES` has a permit are the action's. A session is known by the order in
which it was made.

Does not own what is done with a session.
-/

namespace Unroxy.Ssh

open Unroxy.Lib

/-- The part of `Inner` that `manage` and its tasks touch. The accounts are
positions in the last two lists. -/
structure Inner where
  targetPool : Nat
  sessions : List Nat
  rotate : UInt64
  terminatePending : Nat
  connecting : Nat
  generation : UInt64
  accountNotBefore : List Nat
  accountFailures : List Nat
deriving DecidableEq, Repr

def Inner.accounts (self : Inner) : Nat := self.accountNotBefore.length

def Inner.live (self : Inner) : Nat := self.sessions.length

/-- Where `manage` is: what it does next, with its local variables. -/
inductive ManagerPhase where
  /-- It sleeps for `MANAGER_INTERVAL`; then `reap` copies the sessions. -/
  | sleeping
  /-- `closed` of the next session of the copy. -/
  | checking (snapshot dead : List Nat)
  /-- `retain`. -/
  | retaining (dead : List Nat)
  /-- `generation`, after `reap` removed sessions. -/
  | reaped
  /-- `swap` of `terminate_pending`. -/
  | retiring
  /-- `pop` of a session. -/
  | popping (left retired : Nat)
  /-- `close` of the session that was popped. -/
  | closing (session left retired : Nat)
  /-- `generation`, after sessions were retired. -/
  | retired
  /-- `live`. -/
  | counting
  /-- `load` of `connecting`, after `live`. -/
  | counted (live : Nat)
  /-- `pick_account`: `fetch_add` on `rotate`. -/
  | picking (now left : Nat)
  /-- `pick_account`: `load` of an account's `not_before`. -/
  | looking (now left index : Nat)
  /-- `try_acquire_owned`. -/
  | acquiring (index : Nat)
  /-- It sleeps for `HANDSHAKE_RETRY`. -/
  | retrying
  /-- `fetch_add` on `connecting`. -/
  | adding (index : Nat)
  /-- `spawn`. -/
  | spawning (index : Nat)
  /-- The tunnel was dropped. -/
  | aborted
deriving DecidableEq, Repr

/-- Where a connect task is. -/
inductive TaskPhase where
  /-- In `Session::connect`. -/
  | connecting (index : Nat)
  /-- `store` of `account_failures`. -/
  | succeeded (index session : Nat)
  /-- `store` of `account_not_before`. -/
  | forgiven (index session : Nat)
  /-- `push` of the session. -/
  | pushing (session : Nat)
  /-- `fetch_add` on `account_failures`. -/
  | failed (index : Nat)
  /-- `store` of `account_not_before`. -/
  | blamed (index failures : Nat)
  /-- `fetch_sub` on `connecting`. -/
  | leaving
  | done
deriving DecidableEq, Repr

/-- A tunnel with its tasks. `made` counts the sessions so far. -/
structure Tunnel where
  inner : Inner
  manager : ManagerPhase
  tasks : List TaskPhase
  closed : List Nat
  made : Nat
deriving DecidableEq, Repr

inductive Action where
  /-- The manager's next step, with the time it would read and whether a permit
  is there. -/
  | manage (now : Nat) (permitted : Bool)
  /-- `Session::connect` of a task returns. -/
  | connect (task : Nat) (success : Bool)
  /-- A task's next step. -/
  | advance (task now : Nat)
  /-- A session closes. -/
  | close (session : Nat)
  /-- `Tunnel::terminate`. -/
  | terminate (count : Nat)
  /-- `pick_session` advances `rotate`. -/
  | pick
  /-- The tunnel is dropped. -/
  | drop
deriving DecidableEq, Repr

namespace Tunnel

/-- `Tunnel::start_with` for this `pool_size` and this many accounts. -/
def startWith (poolSize : UInt32) (accounts : Nat) : Tunnel where
  inner := {
    targetPool := max poolSize.toNat 1
    sessions := []
    rotate := 0
    terminatePending := 0
    connecting := 0
    generation := 0
    accountNotBefore := List.replicate accounts 0
    accountFailures := List.replicate accounts 0 }
  manager := .sleeping
  tasks := []
  closed := []
  made := 0

/-- Retiring is over: without accounts the manager does not connect. -/
def connectOn (self : Tunnel) : Tunnel :=
  { self with manager := if self.inner.accounts = 0 then .sleeping else .counting }

/-- One step of `manage`. -/
def manage (self : Tunnel) (now : Nat) (permitted : Bool) : Tunnel :=
  match self.manager with
  | .sleeping => { self with manager := .checking self.inner.sessions [] }
  | .checking [] dead =>
      { self with manager := if dead.isEmpty then .retiring else .retaining dead }
  | .checking (session :: snapshot) dead =>
      let dead := if session ∈ self.closed then dead ++ [session] else dead
      { self with manager := .checking snapshot dead }
  | .retaining dead =>
      { self with
        inner := { self.inner with
                   sessions := self.inner.sessions.filter fun session => session ∉ dead }
        manager := .reaped }
  | .reaped =>
      { self with
        inner := { self.inner with generation := self.inner.generation + 1 }
        manager := .retiring }
  | .retiring =>
      { self with
        inner := { self.inner with terminatePending := 0 }
        manager := .popping self.inner.terminatePending 0 }
  | .popping 0 retired =>
      if retired > 0 then { self with manager := .retired } else self.connectOn
  | .popping (left + 1) retired =>
      match self.inner.sessions.getLast? with
      | none => { self with manager := .popping left retired }
      | some session =>
          { self with
            inner := { self.inner with sessions := self.inner.sessions.dropLast }
            manager := .closing session left retired }
  | .closing session left retired =>
      { self with
        closed := session :: self.closed
        manager := .popping left (retired + 1) }
  | .retired =>
      { self with
        inner := { self.inner with generation := self.inner.generation + 1 } }.connectOn
  | .counting => { self with manager := .counted self.inner.live }
  | .counted live =>
      let need := self.inner.targetPool - (live + self.inner.connecting)
      { self with manager := if need = 0 then .sleeping else .picking now self.inner.accounts }
  | .picking _ 0 => { self with manager := .sleeping }
  | .picking now (left + 1) =>
      { self with
        inner := { self.inner with rotate := self.inner.rotate + 1 }
        manager := .looking now left (self.inner.rotate.toNat % self.inner.accounts) }
  | .looking now left index =>
      if self.inner.accountNotBefore.getD index 0 ≤ now then
        { self with manager := .acquiring index }
      else
        { self with manager := .picking now left }
  | .acquiring index => { self with manager := if permitted then .adding index else .retrying }
  | .retrying => { self with manager := .counting }
  | .adding index =>
      { self with
        inner := { self.inner with connecting := self.inner.connecting + 1 }
        manager := .spawning index }
  | .spawning index =>
      { self with tasks := self.tasks ++ [.connecting index], manager := .counting }
  | .aborted => self

def become (self : Tunnel) (task : Nat) (phase : TaskPhase) : Tunnel :=
  { self with tasks := self.tasks.set task phase }

/-- `Session::connect` of a task returns, with a new session or an error. -/
def connect (self : Tunnel) (task : Nat) (success : Bool) : Tunnel :=
  match self.tasks[task]? with
  | some (.connecting index) =>
      if success then
        { self with made := self.made + 1 }.become task (.succeeded index self.made)
      else
        self.become task (.failed index)
  | _ => self

/-- One step of a connect task behind `Session::connect`. -/
def advance (self : Tunnel) (task now : Nat) : Tunnel :=
  match self.tasks[task]? with
  | some (.succeeded index session) =>
      { self with
        inner := { self.inner with
                   accountFailures := self.inner.accountFailures.set index 0 } }.become task
        (.forgiven index session)
  | some (.forgiven index session) =>
      { self with
        inner := { self.inner with
                   accountNotBefore := self.inner.accountNotBefore.set index 0 } }.become task
        (.pushing session)
  | some (.pushing session) =>
      { self with
        inner := { self.inner with sessions := self.inner.sessions ++ [session] } }.become task
        .leaving
  | some (.failed index) =>
      let failures := self.inner.accountFailures.getD index 0 + 1
      { self with
        inner := { self.inner with
                   accountFailures := self.inner.accountFailures.set index failures } }.become
        task (.blamed index failures)
  | some (.blamed index failures) =>
      let backoff := min (1000 <<< min failures 6) 300000
      { self with
        inner := { self.inner with
                   accountNotBefore :=
                     self.inner.accountNotBefore.set index (now + backoff) } }.become task .leaving
  | some .leaving =>
      { self with
        inner := { self.inner with connecting := self.inner.connecting - 1 } }.become task .done
  | _ => self

/-- `Drop`: the manager is aborted where it awaits. -/
def drop (self : Tunnel) : Tunnel :=
  match self.manager with
  | .sleeping | .retrying => { self with manager := .aborted }
  | _ => self

def step (self : Tunnel) : Action → Tunnel
  | .manage now permitted => self.manage now permitted
  | .connect task success => self.connect task success
  | .advance task now => self.advance task now
  | .close session => { self with closed := session :: self.closed }
  | .terminate count =>
      { self with
        inner := { self.inner with
                   terminatePending := self.inner.terminatePending + count } }
  | .pick => { self with inner := { self.inner with rotate := self.inner.rotate + 1 } }
  | .drop => self.drop

end Tunnel

end Unroxy.Ssh
