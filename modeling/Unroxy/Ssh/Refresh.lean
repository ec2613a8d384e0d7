import Unroxy.Lib.Countdown
import Unroxy.Ssh.Manager

/-!
Owns the task that renews the sessions of a tunnel: `spawn_refresh` of
`proxy/provider.rs`, beside the tunnel's own tasks.

A duration is in nanoseconds. `ticks` and `decisions` record what the task did; no
step reads them. A `Timetable` says what the task is for: it counts ticks, has no
countdown, and the tunnel that it leads to is the one that the task leads to.

Does not own when the ticker ticks.
-/

namespace Unroxy.Ssh

open Unroxy.Lib
open Countdown

structure ProviderConfig where
  stateRefreshInterval : Nat
  tunnelRefreshInterval : Nat
  tunnelRefreshCount : Nat
deriving DecidableEq, Repr

/-- The sessions that are not closed. -/
def Tunnel.activeTunnels (self : Tunnel) : Nat :=
  self.inner.sessions.countP fun session => session ∉ self.closed

def Tunnel.isFull (self : Tunnel) : Bool := self.inner.targetPool ≤ self.activeTunnels

structure Refresh where
  tunnel : Tunnel
  untilRotation : Nat
  ticks : Nat
  /-- The ticks with which the interval was over. -/
  decisions : List Nat
deriving DecidableEq, Repr

inductive RefreshStep where
  | tick
  /-- A step of the tunnel. -/
  | act (action : Action)
deriving DecidableEq, Repr

namespace ProviderConfig

def seconds (self : ProviderConfig) : Nat := max (self.tunnelRefreshInterval / 1000000000) 1

/-- The first interval is a random number of seconds. -/
def firstRotation (self : ProviderConfig) (random : Fin self.seconds) : Nat :=
  random.val * 1000000000

/-- The ticks between two decisions. -/
def period (self : ProviderConfig) : Nat :=
  wait self.stateRefreshInterval self.tunnelRefreshInterval

/-- The tick of the first decision. -/
def firstTick (self : ProviderConfig) (random : Fin self.seconds) : Nat :=
  wait self.stateRefreshInterval (self.firstRotation random)

theorem firstTick_le_period (self : ProviderConfig) (random : Fin self.seconds) :
    self.firstTick random ≤ self.period := by
  have within : random.val < max (self.tunnelRefreshInterval / 1000000000) 1 := random.isLt
  have short : self.firstRotation random ≤ self.tunnelRefreshInterval := by
    rw [firstRotation]
    omega
  exact Nat.succ_le_succ (Nat.div_le_div_right (Nat.sub_le_sub_right short 1))

end ProviderConfig

namespace Refresh

def start (config : ProviderConfig) (random : Fin config.seconds) (poolSize : UInt32)
    (accounts : Nat) : Refresh where
  tunnel := .startWith poolSize accounts
  untilRotation := config.firstRotation random
  ticks := 0
  decisions := []

def tick (config : ProviderConfig) (self : Refresh) : Refresh :=
  let ticks := self.ticks + 1
  if config.stateRefreshInterval < self.untilRotation then
    { self with untilRotation := self.untilRotation - config.stateRefreshInterval, ticks }
  else
    let self := { self with
      untilRotation := config.tunnelRefreshInterval
      ticks
      decisions := self.decisions ++ [ticks] }
    if self.tunnel.isFull then
      { self with tunnel := self.tunnel.step (.terminate config.tunnelRefreshCount) }
    else
      self

def step (config : ProviderConfig) (self : Refresh) : RefreshStep → Refresh
  | .tick => self.tick config
  | .act action => { self with tunnel := self.tunnel.step action }

end Refresh

/-! ### The timetable -/

/-- A decision is due at the first tick and then once in every period. -/
def ProviderConfig.Due (self : ProviderConfig) (first tick : Nat) : Prop :=
  ∃ turn, tick = first + turn * self.period

theorem ProviderConfig.due_iff (self : ProviderConfig) (first tick : Nat) :
    self.Due first tick ↔ first ≤ tick ∧ self.period ∣ tick - first := by
  constructor
  · rintro ⟨turn, rfl⟩
    rw [Nat.add_sub_cancel_left]
    exact ⟨Nat.le_add_right _ _, Nat.dvd_mul_left _ _⟩
  · rintro ⟨begun, turn, some⟩
    refine ⟨turn, ?_⟩
    rw [Nat.mul_comm, ← some, Nat.add_sub_cancel' begun]

instance (config : ProviderConfig) (first tick : Nat) : Decidable (config.Due first tick) :=
  decidable_of_iff _ (config.due_iff first tick).symm

/-- A tunnel, and how often the ticker has ticked. -/
structure Timetable where
  tunnel : Tunnel
  ticks : Nat

/-- Sessions are terminated with a tick at which that is due, if the pool is full,
and not otherwise. -/
def Timetable.step (config : ProviderConfig) (first : Nat) (self : Timetable) :
    RefreshStep → Timetable
  | .tick =>
      { tunnel :=
          if config.Due first (self.ticks + 1) ∧ self.tunnel.isFull then
            self.tunnel.step (.terminate config.tunnelRefreshCount)
          else self.tunnel
        ticks := self.ticks + 1 }
  | .act action => { self with tunnel := self.tunnel.step action }

namespace Refresh

/-- The task has decided whenever that was due, and at no other tick, and it has done
to the tunnel what the timetable says. -/
structure Scheduled (config : ProviderConfig) (first : Nat) (refresh : Refresh)
    (timetable : Timetable) : Prop where
  decisions : ∀ tick, tick ∈ refresh.decisions ↔ tick ≤ refresh.ticks ∧ config.Due first tick
  once : refresh.decisions.Pairwise (· < ·)
  ticks : refresh.ticks = timetable.ticks
  tunnel : refresh.tunnel = timetable.tunnel

structure Follows (config : ProviderConfig) (first : Nat) (refresh : Refresh)
    (timetable : Timetable) : Prop where
  punctual : Punctual config.stateRefreshInterval config.tunnelRefreshInterval first
    refresh.untilRotation refresh.ticks refresh.decisions
  ticks : refresh.ticks = timetable.ticks
  tunnel : refresh.tunnel = timetable.tunnel

variable {config : ProviderConfig} {first : Nat} {self : Refresh} {timetable : Timetable}

theorem Follows.scheduled (follows : self.Follows config first timetable) :
    self.Scheduled config first timetable :=
  ⟨follows.punctual.due, follows.punctual.sorted, follows.ticks, follows.tunnel⟩

/-- The countdown is over at the ticks that are due. -/
theorem tick_due (follows : self.Follows config first timetable)
    (ticking : 0 < config.stateRefreshInterval) :
    config.Due first (timetable.ticks + 1) ↔
      ¬ config.stateRefreshInterval < self.untilRotation := by
  have next : config.Due first (timetable.ticks + 1) ↔
      self.ticks + 1 ≤ self.ticks + 1 ∧ config.Due first (self.ticks + 1) := by
    rw [follows.ticks]
    exact ⟨fun due => ⟨Nat.le_refl _, due⟩, And.right⟩
  constructor
  · intro due more
    have waits := follows.punctual.waits ticking more
    have early := ((follows.punctual.due _).mp ((waits.due _).mpr (next.mp due))).1
    exact Nat.not_succ_le_self _ early
  · intro last
    have fires := follows.punctual.fires ticking (Nat.le_of_not_lt last)
    exact next.mpr ((fires.due _).mp (List.mem_append_right _ List.mem_cons_self))

theorem Follows.tick (follows : self.Follows config first timetable)
    (ticking : 0 < config.stateRefreshInterval) :
    (self.tick config).Follows config first (timetable.step config first .tick) := by
  have due := tick_due follows ticking
  unfold Refresh.tick Timetable.step
  dsimp only
  split
  case isTrue more =>
    have notDue : ¬ (config.Due first (timetable.ticks + 1) ∧ timetable.tunnel.isFull) :=
      fun both => due.mp both.1 more
    refine ⟨follows.punctual.waits ticking more, congrArg (· + 1) follows.ticks, ?_⟩
    rw [if_neg notDue]
    exact follows.tunnel
  case isFalse last =>
    have fires := follows.punctual.fires ticking (Nat.le_of_not_lt last)
    split
    case isTrue full =>
      rw [follows.tunnel] at full
      refine ⟨fires, congrArg (· + 1) follows.ticks, ?_⟩
      rw [if_pos ⟨due.mpr last, full⟩, ← follows.tunnel]
    case isFalse room =>
      rw [follows.tunnel] at room
      refine ⟨fires, congrArg (· + 1) follows.ticks, ?_⟩
      rw [if_neg fun both => room both.2]
      exact follows.tunnel

theorem Follows.step (follows : self.Follows config first timetable)
    (ticking : 0 < config.stateRefreshInterval) (action : RefreshStep) :
    (self.step config action).Follows config first (timetable.step config first action) := by
  cases action with
  | tick => exact follows.tick ticking
  | act action =>
      exact ⟨follows.punctual, follows.ticks, congrArg (Tunnel.step · action) follows.tunnel⟩

/-- Whatever the tunnel does between the ticks: the first decision comes within one
period, the others at equal distances after it, and the sessions that are terminated
are those that the timetable terminates. -/
theorem refresh_scheduled (config : ProviderConfig) (ticking : 0 < config.stateRefreshInterval)
    (random : Fin config.seconds) (poolSize : UInt32) (accounts : Nat)
    (steps : List RefreshStep) :
    config.firstTick random ≤ config.period ∧
      (run (step config) (start config random poolSize accounts) steps).Scheduled config
        (config.firstTick random)
        (run (Timetable.step config (config.firstTick random))
          ⟨.startWith poolSize accounts, 0⟩ steps) := by
  have begins : (start config random poolSize accounts).Follows config (config.firstTick random)
      ⟨.startWith poolSize accounts, 0⟩ :=
    ⟨punctual_start _ _ _, rfl, rfl⟩
  have kept (refresh : Refresh) (timetable : Timetable) (action : RefreshStep)
      (follows : refresh.Follows config (config.firstTick random) timetable) :
      (refresh.step config action).Follows config (config.firstTick random)
        (timetable.step config (config.firstTick random) action) :=
    follows.step ticking action
  exact ⟨config.firstTick_le_period random, (run_related kept steps begins).scheduled⟩

/-- `ProviderConfig::default`. -/
def defaultConfig : ProviderConfig where
  stateRefreshInterval := 2000000000
  tunnelRefreshInterval := 600000000000
  tunnelRefreshCount := 1

/-- A session is made, and the third tick asks for its end. -/
def oneRotation : List RefreshStep :=
  (List.replicate 11 (.act (.manage 0 true)) ++
    [.act (.connect 0 true), .tick, .act (.advance 0 0), .act (.advance 0 0),
      .act (.advance 0 0), .tick, .tick])

theorem refresh_scheduled_default :
    let random : Fin defaultConfig.seconds := ⟨5, by decide⟩
    let first := defaultConfig.firstTick random
    let refresh := run (step defaultConfig) (start defaultConfig random 1 1) oneRotation
    first = 3 ∧ defaultConfig.period = 300 ∧
      refresh.Scheduled defaultConfig first
        (run (Timetable.step defaultConfig first) ⟨.startWith 1 1, 0⟩ oneRotation) ∧
      refresh.decisions = [3] ∧ refresh.tunnel.inner.terminatePending = 1 :=
  ⟨by decide, by decide,
    (refresh_scheduled defaultConfig (by decide) ⟨5, by decide⟩ 1 1 oneRotation).2,
    by decide, by decide⟩

end Refresh

end Unroxy.Ssh
