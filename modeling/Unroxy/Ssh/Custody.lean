import Mathlib.Data.List.Basic
import Unroxy.Ssh.Manager

/-!
Owns what becomes of a tunnel's sessions: which ones leave the pool, and what the
manager has done when it starts a connection.

A `Ledger` is a tunnel with a record of what its steps did. The record is never
read by a step. `Custody` is the invariant of the tunnel with its record.
-/

namespace Unroxy.Ssh

open Unroxy.Lib

/-! ### What a step does -/

/-- The count a call of `terminate` asks for. -/
def Action.asks : Action → Nat
  | .terminate count => count
  | _ => 0

/-- The session of a connect task that has not pushed it. -/
def TaskPhase.session : TaskPhase → Option Nat
  | .succeeded _ session | .forgiven _ session | .pushing session => some session
  | .connecting _ | .failed _ | .blamed _ _ | .leaving | .done => none

namespace ManagerPhase

/-- The sessions that `reap` has copied and may still remove. -/
def reaps : ManagerPhase → List Nat
  | .checking snapshot dead => snapshot ++ dead
  | .retaining dead => dead
  | _ => []

/-- The sessions that `reap` has found closed. -/
def dead : ManagerPhase → List Nat
  | .checking _ dead | .retaining dead => dead
  | _ => []

/-- `reap` is between its copy and `retain`. -/
def reaping : ManagerPhase → Bool
  | .checking _ _ | .retaining _ => true
  | _ => false

/-- The sessions still to be popped. -/
def left : ManagerPhase → Nat
  | .popping left _ | .closing _ left _ => left
  | _ => 0

/-- Nothing was removed that `generation` does not show. -/
def announced : ManagerPhase → Bool
  | .reaped | .closing _ _ _ | .retired => false
  | .popping _ count => count == 0
  | _ => true

end ManagerPhase

namespace Tunnel

/-- The step copies the sessions for `reap`. -/
def snapshots (self : Tunnel) : Action → Bool
  | .manage _ _ => self.manager = .sleeping
  | _ => false

/-- The step is the `retain` of `reap`. -/
def retains (self : Tunnel) : Action → Bool
  | .manage _ _ => match self.manager with
    | .retaining _ => true
    | _ => false
  | _ => false

/-- The session that the step pops, to serve a call of `terminate`. -/
def pops (self : Tunnel) : Action → Option Nat
  | .manage _ _ => match self.manager with
    | .popping (_ + 1) _ => self.inner.sessions.getLast?
    | _ => none
  | _ => none

/-- The session that the step pushes. -/
def pushes (self : Tunnel) : Action → Option Nat
  | .advance task _ => match self.tasks[task]? with
    | some (.pushing session) => some session
    | _ => none
  | _ => none

/-- The step starts a connection. -/
def spawns (self : Tunnel) : Action → Bool
  | .manage _ _ => match self.manager with
    | .spawning _ => true
    | _ => false
  | _ => false

/-- The sessions that leave the pool in this step. -/
def loses (self : Tunnel) (action : Action) : List Nat :=
  self.inner.sessions.filter fun session => session ∉ (self.step action).inner.sessions

def holds (self : Tunnel) (task session : Nat) : Prop :=
  ∃ phase, self.tasks[task]? = some phase ∧ phase.session = some session

end Tunnel

/-! ### The record -/

/-- A tunnel, and what its steps did so far. -/
structure Ledger where
  tunnel : Tunnel
  /-- The sum of all counts passed to `terminate`. -/
  asked : Nat
  popped : List Nat
  /-- The sessions pushed since `reap` last copied the sessions. -/
  arrived : List Nat
  /-- The sessions that left since `generation` last changed. -/
  unannounced : List Nat
deriving DecidableEq, Repr

namespace Ledger

def startWith (poolSize : UInt32) (accounts : Nat) : Ledger where
  tunnel := .startWith poolSize accounts
  asked := 0
  popped := []
  arrived := []
  unannounced := []

def step (self : Ledger) (action : Action) : Ledger where
  tunnel := self.tunnel.step action
  asked := self.asked + action.asks
  popped := self.popped ++ (self.tunnel.pops action).toList
  arrived :=
    if self.tunnel.snapshots action then []
    else self.arrived ++ (self.tunnel.pushes action).toList
  unannounced :=
    if (self.tunnel.step action).inner.generation = self.tunnel.inner.generation then
      self.unannounced ++ self.tunnel.loses action
    else []

/-- The record does not change what the tunnel does. -/
theorem run_tunnel (steps : List Action) (ledger : Ledger) :
    (run step ledger steps).tunnel = run Tunnel.step ledger.tunnel steps := by
  induction steps generalizing ledger with
  | nil => rfl
  | cons action rest inductionHypothesis => exact inductionHypothesis (ledger.step action)

end Ledger

namespace ManagerPhase

/-- The manager connects, sleeps or is gone: it is neither in `reap` nor retiring
sessions. -/
def connects : ManagerPhase → Bool
  | .checking _ _ | .retaining _ | .reaped | .retiring | .popping _ _ | .closing _ _ _
  | .retired => false
  | _ => true

theorem connects_excludes {phase : ManagerPhase} (connects : phase.connects = true) :
    phase.reaps = [] ∧ phase.dead = [] ∧ phase.reaping = false ∧ phase.left = 0 ∧
      phase.announced = true := by
  cases phase <;> simp_all [ManagerPhase.connects, reaps, dead, reaping, left, announced]

end ManagerPhase

namespace Tunnel

/-! ### The cases of a step -/

/-- What a step of the manager can do. -/
inductive Managed (tunnel : Tunnel) : Tunnel → Prop where
  | copies (atPhase : tunnel.manager = .sleeping) :
      Managed tunnel { tunnel with manager := .checking tunnel.inner.sessions [] }
  | finds {session : Nat} {snapshot dead : List Nat}
      (atPhase : tunnel.manager = .checking (session :: snapshot) dead)
      (closed : session ∈ tunnel.closed) :
      Managed tunnel { tunnel with manager := .checking snapshot (dead ++ [session]) }
  | spares {session : Nat} {snapshot dead : List Nat}
      (atPhase : tunnel.manager = .checking (session :: snapshot) dead) :
      Managed tunnel { tunnel with manager := .checking snapshot dead }
  | checks {dead : List Nat} (atPhase : tunnel.manager = .checking [] dead) :
      Managed tunnel { tunnel with manager := .retaining dead }
  | keeps (atPhase : tunnel.manager = .checking [] []) :
      Managed tunnel { tunnel with manager := .retiring }
  | removes {dead : List Nat} (atPhase : tunnel.manager = .retaining dead) :
      Managed tunnel { tunnel with
        inner := { tunnel.inner with
                   sessions := tunnel.inner.sessions.filter fun session => session ∉ dead }
        manager := .reaped }
  | raises {next : ManagerPhase} (atPhase : tunnel.manager = .reaped ∧ next = .retiring ∨
        tunnel.manager = .retired ∧ next.connects = true) :
      Managed tunnel { tunnel with
        inner := { tunnel.inner with generation := tunnel.inner.generation + 1 }
        manager := next }
  | takes (atPhase : tunnel.manager = .retiring) :
      Managed tunnel { tunnel with
        inner := { tunnel.inner with terminatePending := 0 }
        manager := .popping tunnel.inner.terminatePending 0 }
  | misses {left retired : Nat} (atPhase : tunnel.manager = .popping (left + 1) retired)
      (none : tunnel.inner.sessions.getLast? = none) :
      Managed tunnel { tunnel with manager := .popping left retired }
  | popsOne {session left retired : Nat} (atPhase : tunnel.manager = .popping (left + 1) retired)
      (last : tunnel.inner.sessions.getLast? = some session) :
      Managed tunnel { tunnel with
        inner := { tunnel.inner with sessions := tunnel.inner.sessions.dropLast }
        manager := .closing session left retired }
  | closes {session left retired : Nat} (atPhase : tunnel.manager = .closing session left retired) :
      Managed tunnel { tunnel with
        closed := session :: tunnel.closed
        manager := .popping left (retired + 1) }
  | retires {retired : Nat} (atPhase : tunnel.manager = .popping 0 retired) :
      Managed tunnel { tunnel with manager := .retired }
  /-- Counting, picking an account, starting a task. -/
  | connects {next : ManagerPhase}
      (atPhase : tunnel.manager.connects = true ∨ tunnel.manager = .popping 0 0)
      (nextConnects : next.connects = true) (rotate : UInt64) (connecting : Nat)
      (started : List Nat) :
      Managed tunnel { tunnel with
        inner := { tunnel.inner with rotate, connecting }
        manager := next
        tasks := tunnel.tasks ++ started.map .connecting }

/-- A step that changes only where the manager is. -/
private theorem Managed.moves {tunnel : Tunnel}
    (atPhase : tunnel.manager.connects = true ∨ tunnel.manager = .popping 0 0)
    {next : ManagerPhase} (nextConnects : next.connects = true) :
    Managed tunnel { tunnel with manager := next } := by
  have moved := Managed.connects atPhase nextConnects tunnel.inner.rotate
    tunnel.inner.connecting []
  rw [List.map_nil, List.append_nil] at moved
  exact moved

theorem managed (tunnel : Tunnel) (now : Nat) (permitted : Bool) :
    Managed tunnel (tunnel.manage now permitted) := by
  have moves : ∀ {next : ManagerPhase}, tunnel.manager.connects = true → next.connects = true →
      Managed tunnel { tunnel with manager := next } := fun here there => .moves (.inl here) there
  unfold manage
  cases atPhase : tunnel.manager with
  | sleeping => exact .copies atPhase
  | checking snapshot dead =>
      cases snapshot with
      | nil =>
          cases dead with
          | nil => exact .keeps atPhase
          | cons session dead => exact .checks atPhase
      | cons session snapshot =>
          dsimp only
          split
          · next closed => exact .finds atPhase closed
          · exact .spares atPhase
  | retaining dead => exact .removes atPhase
  | reaped => exact .raises (.inl ⟨atPhase, rfl⟩)
  | retiring => exact .takes atPhase
  | popping left retired =>
      cases left with
      | zero =>
          dsimp only
          split
          · exact .retires atPhase
          · next zero =>
              have none : retired = 0 := by omega
              rw [none] at atPhase
              unfold connectOn
              split
              · exact .moves (.inr atPhase) rfl
              · exact .moves (.inr atPhase) rfl
      | succ left =>
          dsimp only
          split
          · next none => exact .misses atPhase none
          · next session last => exact .popsOne atPhase last
  | closing session left retired => exact .closes atPhase
  | retired =>
      unfold connectOn
      dsimp only
      split
      · exact .raises (.inr ⟨atPhase, rfl⟩)
      · exact .raises (.inr ⟨atPhase, rfl⟩)
  | counting => exact moves (by rw [atPhase]; rfl) rfl
  | counted live =>
      dsimp only
      split
      · exact moves (by rw [atPhase]; rfl) rfl
      · exact moves (by rw [atPhase]; rfl) rfl
  | picking start left =>
      have here : tunnel.manager.connects = true := by
        rw [atPhase]
        rfl
      cases left with
      | zero => exact moves here rfl
      | succ left =>
          have picked := Managed.connects (.inl here)
            (rfl : (ManagerPhase.looking start left
              (tunnel.inner.rotate.toNat % tunnel.inner.accounts)).connects = true)
            (tunnel.inner.rotate + 1) tunnel.inner.connecting []
          rw [List.map_nil, List.append_nil] at picked
          exact picked
  | looking start left index =>
      dsimp only
      split
      · exact moves (by rw [atPhase]; rfl) rfl
      · exact moves (by rw [atPhase]; rfl) rfl
  | acquiring index =>
      dsimp only
      split
      · exact moves (by rw [atPhase]; rfl) rfl
      · exact moves (by rw [atPhase]; rfl) rfl
  | retrying => exact moves (by rw [atPhase]; rfl) rfl
  | adding index =>
      have added := Managed.connects (.inl (by rw [atPhase]; rfl))
        (rfl : (ManagerPhase.spawning index).connects = true)
        tunnel.inner.rotate (tunnel.inner.connecting + 1) []
      rw [List.map_nil, List.append_nil] at added
      exact added
  | spawning index =>
      exact Managed.connects (.inl (by rw [atPhase]; rfl))
        (rfl : ManagerPhase.counting.connects = true)
        tunnel.inner.rotate tunnel.inner.connecting [index]
  | aborted =>
      have still := moves (by rw [atPhase]; rfl) (rfl : ManagerPhase.aborted.connects = true)
      rw [← atPhase] at still
      exact still

/-- What a step of a connect task can do, and the sessions it pushes. -/
inductive Tasked (tunnel : Tunnel) : List Nat → Tunnel → Prop where
  | rests : Tasked tunnel [] tunnel
  | makes {task index : Nat} (atTask : tunnel.tasks[task]? = some (.connecting index)) :
      Tasked tunnel []
        ({ tunnel with made := tunnel.made + 1 }.become task (.succeeded index tunnel.made))
  | goes {task : Nat} {before after : TaskPhase} {inner : Inner}
      (atTask : tunnel.tasks[task]? = some before)
      (same : ∀ session, after.session = some session → before.session = some session)
      (sessions : inner.sessions = tunnel.inner.sessions)
      (generation : inner.generation = tunnel.inner.generation)
      (pending : inner.terminatePending = tunnel.inner.terminatePending) :
      Tasked tunnel [] ({ tunnel with inner }.become task after)
  | pushesOne {task session : Nat} (atTask : tunnel.tasks[task]? = some (.pushing session)) :
      Tasked tunnel [session] ({ tunnel with
        inner := { tunnel.inner with sessions := tunnel.inner.sessions ++ [session] } }.become
          task .leaving)

theorem tasked_connect (tunnel : Tunnel) (task : Nat) (success : Bool) :
    Tasked tunnel [] (tunnel.connect task success) := by
  unfold connect
  split
  · next index atTask =>
      cases success with
      | true => exact .makes atTask
      | false => exact .goes atTask (fun _ same => same) rfl rfl rfl
  · exact .rests

theorem tasked_advance (tunnel : Tunnel) (task now : Nat) :
    Tasked tunnel (tunnel.pushes (.advance task now)).toList (tunnel.advance task now) := by
  unfold pushes advance
  dsimp only
  cases atTask : tunnel.tasks[task]? with
  | none => exact .rests
  | some phase =>
      cases phase with
      | succeeded index session => exact .goes atTask (fun _ same => same) rfl rfl rfl
      | forgiven index session => exact .goes atTask (fun _ same => same) rfl rfl rfl
      | pushing session => exact .pushesOne atTask
      | failed index => exact .goes atTask (fun _ same => same) rfl rfl rfl
      | blamed index failures => exact .goes atTask (fun _ same => same) rfl rfl rfl
      | leaving => exact .goes atTask (fun _ same => same) rfl rfl rfl
      | connecting index => exact .rests
      | done => exact .rests

theorem drop_cases (tunnel : Tunnel) :
    ∃ phase, tunnel.drop = { tunnel with manager := phase } ∧
      (phase = tunnel.manager ∨ tunnel.manager.connects = true ∧ phase = .aborted) := by
  unfold drop
  split
  · next atPhase => exact ⟨.aborted, rfl, .inr ⟨by rw [atPhase]; rfl, rfl⟩⟩
  · next atPhase => exact ⟨.aborted, rfl, .inr ⟨by rw [atPhase]; rfl, rfl⟩⟩
  · exact ⟨tunnel.manager, rfl, .inl rfl⟩

/-! ### Sessions are in one place -/

/-- No session is in two places: with a task that has not pushed it, in another
task, in the pool or in the copy of `reap`; and those that arrived since the copy
are in the pool and not in the copy. -/
structure Fresh (tunnel : Tunnel) (arrived : List Nat) : Prop where
  known : ∀ session ∈ tunnel.inner.sessions ++ tunnel.manager.reaps, session < tunnel.made
  held : ∀ task session, tunnel.holds task session → session < tunnel.made ∧
    session ∉ tunnel.inner.sessions ∧ session ∉ tunnel.manager.reaps
  single : ∀ task other session, tunnel.holds task session → tunnel.holds other session →
    task = other
  arrived : tunnel.manager.reaping = true → ∀ session ∈ arrived,
    session ∈ tunnel.inner.sessions ∧ session ∉ tunnel.manager.reaps

/-- Sessions leave, or are copied. -/
theorem Fresh.manages {tunnel later : Tunnel} {before arrived : List Nat}
    (fresh : tunnel.Fresh before) (made : later.made = tunnel.made)
    (held : ∀ task session, later.holds task session → tunnel.holds task session)
    (sessions : ∀ session ∈ later.inner.sessions, session ∈ tunnel.inner.sessions)
    (reaps : ∀ session ∈ later.manager.reaps,
      session ∈ tunnel.inner.sessions ++ tunnel.manager.reaps)
    (kept : later.manager.reaping = true → ∀ session ∈ arrived,
      session ∈ later.inner.sessions ∧ session ∉ later.manager.reaps) : later.Fresh arrived where
  known := by
    intro session member
    rw [made]
    apply fresh.known
    rcases List.mem_append.mp member with pooled | copied
    · exact List.mem_append_left _ (sessions session pooled)
    · exact reaps session copied
  held := by
    intro task session holds
    obtain ⟨below, outside, uncopied⟩ := fresh.held task session (held task session holds)
    rw [made]
    refine ⟨below, fun member => outside (sessions session member), ?_⟩
    intro copied
    rcases List.mem_append.mp (reaps session copied) with pooled | old
    · exact outside pooled
    · exact uncopied old
  single := fun task other session first second =>
    fresh.single task other session (held task session first) (held other session second)
  arrived := kept

theorem fresh_startWith (poolSize : UInt32) (accounts : Nat) :
    (startWith poolSize accounts).Fresh [] where
  known := by simp [startWith, ManagerPhase.reaps]
  held := by simp [startWith, holds]
  single := by simp [startWith, holds]
  arrived := by simp

/-- `reap` goes through its copy. -/
theorem Fresh.reaps {tunnel : Tunnel} {arrived : List Nat} (fresh : tunnel.Fresh arrived)
    (reaping : tunnel.manager.reaping = true) {next : ManagerPhase}
    (fewer : ∀ session ∈ next.reaps, session ∈ tunnel.manager.reaps) :
    Fresh { tunnel with manager := next } arrived := by
  refine fresh.manages rfl (fun _ _ holds => holds) (fun _ member => member) ?_ ?_
  · exact fun session member => List.mem_append_right _ (fewer session member)
  · intro _ session member
    have old := fresh.arrived reaping session member
    exact ⟨old.1, fun copied => old.2 (fewer session copied)⟩

/-- Outside `reap` there is no copy. -/
theorem Fresh.leaves {tunnel later : Tunnel} {before : List Nat} (fresh : tunnel.Fresh before)
    (arrived : List Nat) (made : later.made = tunnel.made)
    (held : ∀ task session, later.holds task session → tunnel.holds task session)
    (sessions : ∀ session ∈ later.inner.sessions, session ∈ tunnel.inner.sessions)
    (reaps : later.manager.reaps = []) (out : later.manager.reaping = false) :
    later.Fresh arrived := by
  refine fresh.manages made held sessions ?_ ?_
  · intro session member
    rw [reaps] at member
    cases member
  · intro reaping
    rw [out] at reaping
    cases reaping

theorem Managed.fresh {tunnel later : Tunnel} {before arrived : List Nat}
    (fresh : tunnel.Fresh before) (managed : tunnel.Managed later)
    (record : arrived = if tunnel.manager = .sleeping then [] else before) :
    later.Fresh arrived := by
  have same : ∀ task session, tunnel.holds task session → tunnel.holds task session :=
    fun _ _ holds => holds
  have reaps {next : ManagerPhase} (reaping : tunnel.manager.reaping = true)
      (fewer : ∀ session ∈ next.reaps, session ∈ tunnel.manager.reaps) :
      Fresh { tunnel with manager := next } arrived := by
    have awake : tunnel.manager ≠ .sleeping := by
      intro sleeps
      rw [sleeps] at reaping
      cases reaping
    rw [if_neg awake] at record
    rw [record]
    exact fresh.reaps reaping fewer
  cases managed with
  | copies atPhase =>
      rw [if_pos atPhase] at record
      refine fresh.manages rfl same (fun _ member => member) ?_ ?_
      · intro session member
        exact List.mem_append_left _ (by simpa [ManagerPhase.reaps] using member)
      · simp [record]
  | finds atPhase _ =>
      refine reaps (by rw [atPhase]; rfl) ?_
      rw [atPhase]
      simp [ManagerPhase.reaps]
      grind
  | spares atPhase =>
      refine reaps (by rw [atPhase]; rfl) ?_
      rw [atPhase]
      simp [ManagerPhase.reaps]
      grind
  | checks atPhase =>
      refine reaps (by rw [atPhase]; rfl) ?_
      rw [atPhase]
      simp [ManagerPhase.reaps]
  | keeps atPhase => exact fresh.leaves arrived rfl same (fun _ member => member) rfl rfl
  | removes atPhase =>
      exact fresh.leaves arrived rfl same (fun _ member => List.mem_of_mem_filter member) rfl rfl
  | @raises next atPhase =>
      have out : next.reaps = [] ∧ next.reaping = false := by
        rcases atPhase with ⟨-, rfl⟩ | ⟨-, connects⟩
        · exact ⟨rfl, rfl⟩
        · have excluded := ManagerPhase.connects_excludes connects
          exact ⟨excluded.1, excluded.2.2.1⟩
      exact fresh.leaves arrived rfl same (fun _ member => member) out.1 out.2
  | takes atPhase => exact fresh.leaves arrived rfl same (fun _ member => member) rfl rfl
  | misses atPhase _ => exact fresh.leaves arrived rfl same (fun _ member => member) rfl rfl
  | popsOne atPhase _ =>
      exact fresh.leaves arrived rfl same (fun _ member => List.dropLast_subset _ member) rfl rfl
  | closes atPhase => exact fresh.leaves arrived rfl same (fun _ member => member) rfl rfl
  | retires atPhase => exact fresh.leaves arrived rfl same (fun _ member => member) rfl rfl
  | connects atPhase nextConnects rotate connecting started =>
      have excluded := ManagerPhase.connects_excludes nextConnects
      refine fresh.leaves arrived rfl ?_ (fun _ member => member) excluded.1 excluded.2.2.1
      rintro task session ⟨phase, atTask, holds⟩
      by_cases old : task < tunnel.tasks.length
      · exact ⟨phase, (List.getElem?_append_left old).symm.trans atTask, holds⟩
      · rw [List.getElem?_append_right (Nat.le_of_not_lt old)] at atTask
        obtain ⟨index, -, rfl⟩ := List.mem_map.mp (List.mem_of_getElem? atTask)
        cases holds

/-- A task goes on: what it holds is what its phase says, and the other tasks hold
what they held. -/
theorem holds_become {tunnel : Tunnel} {task : Nat} {before : TaskPhase}
    (atTask : tunnel.tasks[task]? = some before) (after : TaskPhase) (inner : Inner)
    (made other session : Nat) :
    ({ tunnel with inner, made }.become task after).holds other session ↔
      other = task ∧ after.session = some session ∨
        other ≠ task ∧ tunnel.holds other session := by
  have below := (List.getElem?_eq_some_iff.mp atTask).1
  unfold holds become
  dsimp only
  by_cases same : other = task
  · subst same
    rw [List.getElem?_set_self below]
    simp
  · rw [List.getElem?_set_ne (fun equal => same equal.symm)]
    simp [same]

theorem Tasked.fresh {tunnel later : Tunnel} {arrived pushed : List Nat}
    (fresh : tunnel.Fresh arrived) (tasked : tunnel.Tasked pushed later) :
    later.Fresh (arrived ++ pushed) := by
  cases tasked with
  | rests =>
      rw [List.append_nil]
      exact fresh
  | @makes task index atTask =>
      rw [List.append_nil]
      have holds := holds_become atTask (.succeeded index tunnel.made) tunnel.inner
        (tunnel.made + 1)
      have unseen : ∀ other session, tunnel.holds other session → session ≠ tunnel.made :=
        fun other session held => Nat.ne_of_lt (fresh.held other session held).1
      refine ⟨?_, ?_, ?_, fresh.arrived⟩
      · intro session member
        exact Nat.lt_succ_of_lt (fresh.known session member)
      · intro other session held
        rcases (holds other session).mp held with ⟨-, new⟩ | ⟨-, old⟩
        · cases new
          refine ⟨Nat.lt_succ_self _, ?_, ?_⟩
          · intro pooled
            exact Nat.lt_irrefl _ (fresh.known _ (List.mem_append_left _ pooled))
          · intro copied
            exact Nat.lt_irrefl _ (fresh.known _ (List.mem_append_right _ copied))
        · obtain ⟨below, outside⟩ := fresh.held other session old
          exact ⟨Nat.lt_succ_of_lt below, outside⟩
      · intro first second session firstHolds secondHolds
        rcases (holds first session).mp firstHolds with ⟨rfl, new⟩ | ⟨-, old⟩
        · rcases (holds second session).mp secondHolds with ⟨rfl, -⟩ | ⟨-, old⟩
          · rfl
          · cases new
            exact absurd rfl (unseen second _ old)
        · rcases (holds second session).mp secondHolds with ⟨rfl, new⟩ | ⟨-, also⟩
          · cases new
            exact absurd rfl (unseen first _ old)
          · exact fresh.single first second session old also
  | @goes task before after inner atTask same sessions generation pending =>
      rw [List.append_nil]
      refine fresh.manages rfl ?_ ?_ (fun _ member => List.mem_append_right _ member) ?_
      · intro other session held
        rcases (holds_become atTask after inner tunnel.made other session).mp held with
          ⟨rfl, new⟩ | ⟨-, old⟩
        · exact ⟨before, atTask, same session new⟩
        · exact old
      · intro session member
        exact sessions ▸ member
      · intro reaping session member
        have old := fresh.arrived reaping session member
        exact ⟨sessions.symm ▸ old.1, old.2⟩
  | @pushesOne task session atTask =>
      have own : tunnel.holds task session := ⟨_, atTask, rfl⟩
      obtain ⟨below, outside, uncopied⟩ := fresh.held task session own
      have holds := holds_become atTask .leaving
        { tunnel.inner with sessions := tunnel.inner.sessions ++ [session] } tunnel.made
      have others : ∀ other held, Tunnel.holds ({ tunnel with
          inner := { tunnel.inner with sessions := tunnel.inner.sessions ++ [session] } }.become
            task .leaving) other held → other ≠ task ∧ tunnel.holds other held := by
        intro other held holding
        rcases (holds other held).mp holding with ⟨-, new⟩ | old
        · cases new
        · exact old
      refine ⟨?_, ?_, ?_, ?_⟩
      · intro other member
        change other ∈ (tunnel.inner.sessions ++ [session]) ++ tunnel.manager.reaps at member
        rcases List.mem_append.mp member with pooled | copied
        · rcases List.mem_append.mp pooled with old | new
          · exact fresh.known other (List.mem_append_left _ old)
          · rw [List.mem_singleton.mp new]
            exact below
        · exact fresh.known other (List.mem_append_right _ copied)
      · intro other held holding
        obtain ⟨different, old⟩ := others other held holding
        obtain ⟨heldBelow, heldOutside, heldUncopied⟩ := fresh.held other held old
        refine ⟨heldBelow, ?_, heldUncopied⟩
        intro member
        rcases List.mem_append.mp member with pooled | new
        · exact heldOutside pooled
        · rw [List.mem_singleton.mp new] at old
          exact different (fresh.single other task session old own)
      · intro first second held firstHolds secondHolds
        exact fresh.single first second held (others first held firstHolds).2
          (others second held secondHolds).2
      · intro reaping other member
        rcases List.mem_append.mp member with old | new
        · have before := fresh.arrived reaping other old
          exact ⟨List.mem_append_left _ before.1, before.2⟩
        · rw [List.mem_singleton.mp new]
          exact ⟨List.mem_append_right _ (List.mem_singleton_self session), uncopied⟩

/-! ### The manager's account of what it removes -/

/-- `reap` finds only closed sessions. -/
theorem Managed.found {tunnel later : Tunnel} (managed : tunnel.Managed later)
    (found : ∀ session ∈ tunnel.manager.dead, session ∈ tunnel.closed) :
    ∀ session ∈ later.manager.dead, session ∈ later.closed := by
  have out : ∀ {phase : ManagerPhase} {closed : List Nat}, phase.dead = [] →
      ∀ session ∈ phase.dead, session ∈ closed := by
    intro phase closed none session member
    rw [none] at member
    cases member
  cases managed with
  | copies atPhase => exact out rfl
  | finds atPhase closed =>
      rw [atPhase] at found
      intro other member
      rcases List.mem_append.mp member with old | new
      · exact found other old
      · rw [List.mem_singleton.mp new]
        exact closed
  | spares atPhase =>
      rw [atPhase] at found
      exact found
  | checks atPhase =>
      rw [atPhase] at found
      exact found
  | keeps atPhase => exact out rfl
  | removes atPhase => exact out rfl
  | raises atPhase =>
      rcases atPhase with ⟨-, rfl⟩ | ⟨-, connects⟩
      · exact out rfl
      · exact out (ManagerPhase.connects_excludes connects).2.1
  | takes atPhase => exact out rfl
  | misses atPhase none => exact out rfl
  | popsOne atPhase last => exact out rfl
  | closes atPhase => exact out rfl
  | retires atPhase => exact out rfl
  | connects atPhase nextConnects rotate connecting started =>
      exact out (ManagerPhase.connects_excludes nextConnects).2.1

/-- Each session that is popped uses up one that was asked for. -/
theorem Managed.asked {tunnel later : Tunnel} (managed : tunnel.Managed later) (now : Nat)
    (permitted : Bool) :
    (tunnel.pops (.manage now permitted)).toList.length + later.inner.terminatePending +
      later.manager.left ≤ tunnel.inner.terminatePending + tunnel.manager.left := by
  unfold pops
  dsimp only
  cases managed with
  | copies atPhase => simp [atPhase, ManagerPhase.left]
  | finds atPhase closed => simp [atPhase, ManagerPhase.left]
  | spares atPhase => simp [atPhase, ManagerPhase.left]
  | checks atPhase => simp [atPhase, ManagerPhase.left]
  | keeps atPhase => simp [atPhase, ManagerPhase.left]
  | removes atPhase => simp [atPhase, ManagerPhase.left]
  | raises atPhase =>
      rcases atPhase with ⟨atPhase, rfl⟩ | ⟨atPhase, connects⟩
      · simp [atPhase, ManagerPhase.left]
      · simp [atPhase, (ManagerPhase.connects_excludes connects).2.2.2.1]
  | takes atPhase => simp [atPhase, ManagerPhase.left]
  | misses atPhase none => simp [atPhase, none, ManagerPhase.left]
  | popsOne atPhase last =>
      simp [atPhase, last, ManagerPhase.left]
      omega
  | closes atPhase => simp [atPhase, ManagerPhase.left]
  | retires atPhase => simp [atPhase, ManagerPhase.left]
  | connects atPhase nextConnects rotate connecting started =>
      have none := (ManagerPhase.connects_excludes nextConnects).2.2.2.1
      rcases atPhase with connects | atPhase
      · have unpopped : ∀ left retired, tunnel.manager ≠ .popping left retired := by
          intro left retired same
          rw [same] at connects
          cases connects
        split
        · next left retired atPhase => exact absurd atPhase (unpopped _ _)
        · simp [none]
      · simp [atPhase, none]

theorem generation_changes (generation : UInt64) : generation + 1 ≠ generation := by
  intro same
  have size := congrArg UInt64.toNat same
  have small := generation.toNat_lt
  simp [UInt64.toNat_add] at size
  omega

/-- Where the manager goes on to connect, `generation` shows what it removed. -/
theorem Managed.announced {tunnel later : Tunnel} (managed : tunnel.Managed later)
    {unannounced : List Nat} (announced : tunnel.manager.announced = true → unannounced = [])
    (here : later.manager.announced = true) :
    (if later.inner.generation = tunnel.inner.generation then
      unannounced ++ tunnel.inner.sessions.filter fun session => session ∉ later.inner.sessions
    else []) = [] := by
  have still : tunnel.manager.announced = true → unannounced ++
      tunnel.inner.sessions.filter (fun session => session ∉ tunnel.inner.sessions) = [] := by
    intro before
    rw [announced before, List.nil_append]
    simp
  cases managed with
  | copies atPhase => exact (if_pos rfl).trans (still (by rw [atPhase]; rfl))
  | finds atPhase closed => exact (if_pos rfl).trans (still (by rw [atPhase]; rfl))
  | spares atPhase => exact (if_pos rfl).trans (still (by rw [atPhase]; rfl))
  | checks atPhase => exact (if_pos rfl).trans (still (by rw [atPhase]; rfl))
  | keeps atPhase => exact (if_pos rfl).trans (still (by rw [atPhase]; rfl))
  | removes atPhase => cases here
  | raises atPhase => exact if_neg (generation_changes _)
  | takes atPhase => exact (if_pos rfl).trans (still (by rw [atPhase]; rfl))
  | misses atPhase none => exact (if_pos rfl).trans (still (by rw [atPhase]; exact here))
  | popsOne atPhase last => cases here
  | closes atPhase =>
      change (_ + 1 == 0) = true at here
      simp at here
  | retires atPhase => cases here
  | connects atPhase nextConnects rotate connecting started =>
      refine (if_pos rfl).trans (still ?_)
      rcases atPhase with connects | atPhase
      · exact (ManagerPhase.connects_excludes connects).2.2.2.2
      · rw [atPhase]
        rfl

end Tunnel

/-! ### The invariant -/

structure Ledger.Custody (ledger : Ledger) : Prop where
  fresh : ledger.tunnel.Fresh ledger.arrived
  found : ∀ session ∈ ledger.tunnel.manager.dead, session ∈ ledger.tunnel.closed
  asked : ledger.popped.length + ledger.tunnel.inner.terminatePending +
    ledger.tunnel.manager.left ≤ ledger.asked
  announced : ledger.tunnel.manager.announced = true → ledger.unannounced = []

namespace Ledger

theorem custody_startWith (poolSize : UInt32) (accounts : Nat) :
    (startWith poolSize accounts).Custody where
  fresh := Tunnel.fresh_startWith poolSize accounts
  found := by simp [startWith, Tunnel.startWith, ManagerPhase.dead]
  asked := Nat.le_refl 0
  announced := fun _ => rfl

theorem Custody.manage {ledger : Ledger} (custody : ledger.Custody) (now : Nat)
    (permitted : Bool) : (ledger.step (.manage now permitted)).Custody := by
  have managed := ledger.tunnel.managed now permitted
  constructor
  · refine managed.fresh custody.fresh ?_
    change (if decide (ledger.tunnel.manager = .sleeping) = true then [] else
      ledger.arrived ++ []) = _
    simp
  · exact managed.found custody.found
  · have used := managed.asked now permitted
    have before := custody.asked
    change (ledger.popped ++ _).length + _ + _ ≤ ledger.asked + 0
    rw [List.length_append]
    change _ + _ + (ledger.tunnel.manage now permitted).inner.terminatePending +
      (ledger.tunnel.manage now permitted).manager.left ≤ _
    omega
  · exact managed.announced custody.announced

/-- A step of anyone else: no session leaves, and the manager stays where it is or
is gone. -/
theorem Custody.others {ledger : Ledger} (custody : ledger.Custody) {action : Action}
    (unpopped : ledger.tunnel.pops action = none)
    (fresh : (ledger.step action).tunnel.Fresh (ledger.step action).arrived)
    (closed : ∀ session ∈ ledger.tunnel.closed, session ∈ (ledger.tunnel.step action).closed)
    (sessions : ∀ session ∈ ledger.tunnel.inner.sessions,
      session ∈ (ledger.tunnel.step action).inner.sessions)
    (generation : (ledger.tunnel.step action).inner.generation = ledger.tunnel.inner.generation)
    (pending : (ledger.tunnel.step action).inner.terminatePending =
      ledger.tunnel.inner.terminatePending + action.asks)
    (manager : (ledger.tunnel.step action).manager = ledger.tunnel.manager ∨
      ledger.tunnel.manager.connects = true ∧ (ledger.tunnel.step action).manager = .aborted) :
    (ledger.step action).Custody := by
  have kept : ledger.tunnel.loses action = [] := by
    apply List.filter_eq_nil_iff.mpr
    intro session member
    simpa using sessions session member
  refine ⟨fresh, ?_, ?_, ?_⟩
  · intro session member
    change session ∈ (ledger.tunnel.step action).closed
    change session ∈ (ledger.tunnel.step action).manager.dead at member
    rcases manager with same | ⟨-, gone⟩
    · rw [same] at member
      exact closed session (custody.found session member)
    · rw [gone] at member
      cases member
  · have before := custody.asked
    change (ledger.popped ++ (ledger.tunnel.pops action).toList).length +
      (ledger.tunnel.step action).inner.terminatePending +
      (ledger.tunnel.step action).manager.left ≤ ledger.asked + action.asks
    have fewer : (ledger.tunnel.step action).manager.left ≤ ledger.tunnel.manager.left := by
      rcases manager with same | ⟨-, gone⟩
      · exact Nat.le_of_eq (congrArg ManagerPhase.left same)
      · rw [gone]
        exact Nat.zero_le _
    rw [unpopped, pending, Option.toList_none, List.append_nil]
    omega
  · intro here
    have before : ledger.unannounced = [] := by
      apply custody.announced
      change (ledger.tunnel.step action).manager.announced = true at here
      rcases manager with same | ⟨connects, -⟩
      · rwa [same] at here
      · exact (ManagerPhase.connects_excludes connects).2.2.2.2
    change (if (ledger.tunnel.step action).inner.generation = ledger.tunnel.inner.generation then
      ledger.unannounced ++ ledger.tunnel.loses action else []) = []
    rw [if_pos generation, before, kept]
    rfl

/-- A connect task goes on. -/
theorem Custody.tasked {ledger : Ledger} (custody : ledger.Custody) {action : Action}
    {pushed : List Nat} (tasked : ledger.tunnel.Tasked pushed (ledger.tunnel.step action))
    (unpopped : ledger.tunnel.pops action = none)
    (unasked : action.asks = 0)
    (record : (ledger.step action).arrived = ledger.arrived ++ pushed) :
    (ledger.step action).Custody := by
  have fresh := tasked.fresh custody.fresh
  rw [← record] at fresh
  have effect : (∀ session ∈ ledger.tunnel.closed, session ∈ (ledger.tunnel.step action).closed) ∧
      (∀ session ∈ ledger.tunnel.inner.sessions,
        session ∈ (ledger.tunnel.step action).inner.sessions) ∧
      (ledger.tunnel.step action).inner.generation = ledger.tunnel.inner.generation ∧
      (ledger.tunnel.step action).inner.terminatePending =
        ledger.tunnel.inner.terminatePending ∧
      (ledger.tunnel.step action).manager = ledger.tunnel.manager := by
    generalize ledger.tunnel.step action = later at tasked
    cases tasked with
    | rests => exact ⟨fun _ member => member, fun _ member => member, rfl, rfl, rfl⟩
    | makes atTask => exact ⟨fun _ member => member, fun _ member => member, rfl, rfl, rfl⟩
    | goes atTask same sessions generation pending =>
        exact ⟨fun _ member => member, fun _ member => sessions.symm ▸ member, generation,
          pending, rfl⟩
    | pushesOne atTask =>
        exact ⟨fun _ member => member, fun _ member => List.mem_append_left _ member, rfl, rfl,
          rfl⟩
  obtain ⟨closed, sessions, generation, pending, manager⟩ := effect
  exact custody.others unpopped fresh closed sessions generation (by rw [pending, unasked]; rfl)
    (.inl manager)

/-- A step that changes neither the sessions of the pool nor the tasks nor the
manager. -/
theorem Custody.outside {ledger : Ledger} (custody : ledger.Custody) {action : Action}
    {closed : List Nat} {rotate : UInt64}
    (stepped : ledger.tunnel.step action = { ledger.tunnel with
      closed
      inner := { ledger.tunnel.inner with
        rotate, terminatePending := ledger.tunnel.inner.terminatePending + action.asks } })
    (unpopped : ledger.tunnel.pops action = none)
    (unpushed : ledger.tunnel.pushes action = none)
    (uncopied : ledger.tunnel.snapshots action = false)
    (more : ∀ session ∈ ledger.tunnel.closed, session ∈ closed) :
    (ledger.step action).Custody := by
  have fresh := custody.fresh
  have arrived : (ledger.step action).arrived = ledger.arrived := by
    rw [step, uncopied, unpushed]
    exact List.append_nil _
  apply custody.others unpopped
  · rw [arrived]
    change (ledger.tunnel.step action).Fresh _
    rw [stepped]
    exact ⟨fresh.known, fresh.held, fresh.single, fresh.arrived⟩
  · rw [stepped]
    exact more
  · rw [stepped]
    exact fun _ member => member
  · rw [stepped]
  · rw [stepped]
  · rw [stepped]
    exact .inl rfl

theorem custody_step {ledger : Ledger} (custody : ledger.Custody) (action : Action) :
    (ledger.step action).Custody := by
  cases action with
  | manage now permitted => exact custody.manage now permitted
  | connect task success =>
      exact custody.tasked (ledger.tunnel.tasked_connect task success) rfl rfl rfl
  | advance task now =>
      exact custody.tasked (ledger.tunnel.tasked_advance task now) rfl rfl rfl
  | close session =>
      exact custody.outside rfl rfl rfl rfl fun _ member => List.mem_cons_of_mem _ member
  | terminate count =>
      exact custody.outside rfl rfl rfl rfl fun _ member => member
  | pick =>
      exact custody.outside rfl rfl rfl rfl fun _ member => member
  | drop =>
      obtain ⟨phase, dropped, manager⟩ := ledger.tunnel.drop_cases
      have stepped : ledger.tunnel.step .drop = { ledger.tunnel with manager := phase } := dropped
      have fresh : Tunnel.Fresh { ledger.tunnel with manager := phase } ledger.arrived := by
        rcases manager with rfl | ⟨-, rfl⟩
        · exact custody.fresh
        · exact custody.fresh.leaves ledger.arrived rfl (fun _ _ holds => holds)
            (fun _ member => member) rfl rfl
      refine custody.others rfl ?_ ?_ ?_ ?_ ?_ ?_
      · change (ledger.tunnel.step .drop).Fresh (ledger.arrived ++ [])
        rw [List.append_nil, stepped]
        exact fresh
      all_goals rw [stepped]
      · exact fun _ member => member
      · exact fun _ member => member
      · rfl
      · exact manager

/-! ### What becomes of a session -/

end Ledger

namespace Tunnel

/-- A session that leaves was found closed, or is popped. -/
theorem Managed.leaves {tunnel later : Tunnel} (managed : tunnel.Managed later) {session : Nat}
    (member : session ∈ tunnel.inner.sessions) (left : session ∉ later.inner.sessions) (now : Nat)
    (permitted : Bool) :
    session ∈ tunnel.manager.dead ∨ tunnel.pops (.manage now permitted) = some session := by
  cases managed with
  | copies atPhase => exact absurd member left
  | finds atPhase closed => exact absurd member left
  | spares atPhase => exact absurd member left
  | checks atPhase => exact absurd member left
  | keeps atPhase => exact absurd member left
  | removes atPhase =>
      rw [atPhase]
      left
      by_contra spared
      exact left (List.mem_filter.mpr ⟨member, by simpa [ManagerPhase.dead] using spared⟩)
  | raises atPhase => exact absurd member left
  | takes atPhase => exact absurd member left
  | misses atPhase none => exact absurd member left
  | @popsOne last leftOver retired atPhase atLast =>
      right
      unfold pops
      dsimp only
      rw [atPhase]
      dsimp only
      rw [atLast]
      have whole := List.dropLast_append_getLast? last atLast
      rw [← whole] at member
      rcases List.mem_append.mp member with kept | here
      · exact absurd kept left
      · rw [List.mem_singleton.mp here]
  | closes atPhase => exact absurd member left
  | retires atPhase => exact absurd member left
  | connects atPhase nextConnects rotate connecting started => exact absurd member left

theorem Tasked.keeps {tunnel later : Tunnel} {pushed : List Nat}
    (tasked : tunnel.Tasked pushed later) {session : Nat}
    (member : session ∈ tunnel.inner.sessions) : session ∈ later.inner.sessions := by
  cases tasked with
  | rests => exact member
  | makes atTask => exact member
  | goes atTask same sessions generation pending => exact sessions.symm ▸ member
  | pushesOne atTask => exact List.mem_append_left _ member

end Tunnel

namespace Ledger

/-- A session that leaves the pool was closed, or is popped. -/
theorem Custody.leaving {ledger : Ledger} (custody : ledger.Custody) {action : Action}
    {session : Nat} (member : session ∈ ledger.tunnel.inner.sessions)
    (left : session ∉ (ledger.tunnel.step action).inner.sessions) :
    session ∈ ledger.tunnel.closed ∨ ledger.tunnel.pops action = some session := by
  cases action with
  | manage now permitted =>
      rcases (ledger.tunnel.managed now permitted).leaves member left now permitted with
        dead | popped
      · exact .inl (custody.found session dead)
      · exact .inr popped
  | connect task success =>
      exact absurd ((ledger.tunnel.tasked_connect task success).keeps member) left
  | advance task now => exact absurd ((ledger.tunnel.tasked_advance task now).keeps member) left
  | close other => exact absurd member left
  | terminate count => exact absurd member left
  | pick => exact absurd member left
  | drop =>
      obtain ⟨phase, dropped, -⟩ := ledger.tunnel.drop_cases
      change session ∉ ledger.tunnel.drop.inner.sessions at left
      rw [dropped] at left
      exact absurd member left

/-- A session that arrived since the copy is not in it, and stays. -/
theorem Custody.retained {ledger : Ledger} (custody : ledger.Custody) {action : Action}
    (retains : ledger.tunnel.retains action = true) {session : Nat}
    (member : session ∈ ledger.arrived) :
    session ∈ (ledger.tunnel.step action).inner.sessions := by
  cases action with
  | manage now permitted =>
      unfold Tunnel.retains at retains
      dsimp only at retains
      split at retains
      · next dead atPhase =>
          have stays := custody.fresh.arrived (by rw [atPhase]; rfl) session member
          rw [atPhase] at stays
          change session ∈ (ledger.tunnel.manage now permitted).inner.sessions
          unfold Tunnel.manage
          rw [atPhase]
          exact List.mem_filter.mpr ⟨stays.1, by simpa [ManagerPhase.reaps] using stays.2⟩
      · cases retains
  | connect _ _ | advance _ _ | close _ | terminate _ | pick | drop => cases retains

/-- The manager starts a connection where no loss is left unannounced. -/
theorem Custody.spawning {ledger : Ledger} (custody : ledger.Custody) {action : Action}
    (spawns : ledger.tunnel.spawns action = true) : ledger.unannounced = [] := by
  apply custody.announced
  cases action with
  | manage now permitted =>
      unfold Tunnel.spawns at spawns
      dsimp only at spawns
      split at spawns
      · next atPhase =>
          rw [atPhase]
          rfl
      · cases spawns
  | connect _ _ | advance _ _ | close _ | terminate _ | pick | drop => cases spawns

/-- A session leaves the pool only closed or popped for a call of `terminate`. One
that was pushed after `reap` copied the sessions stays when `reap` removes the
closed ones. No more sessions are popped than `terminate` was asked for. When the
manager starts a connection, `generation` was raised after every session that
left. -/
theorem sessions_kept {poolSize : UInt32} {accounts : Nat} {ledger : Ledger}
    (reached : Leads step (startWith poolSize accounts) ledger) :
    (∀ action, ∀ session ∈ ledger.tunnel.inner.sessions,
      session ∉ (ledger.tunnel.step action).inner.sessions →
      session ∈ ledger.tunnel.closed ∨ ledger.tunnel.pops action = some session) ∧
    (∀ action, ledger.tunnel.retains action = true → ∀ session ∈ ledger.arrived,
      session ∈ (ledger.tunnel.step action).inner.sessions) ∧
    ledger.popped.length ≤ ledger.asked ∧
    ∀ action, ledger.tunnel.spawns action = true → ledger.unannounced = [] := by
  have custody : ledger.Custody :=
    reached.always (fun _ action held => custody_step held action)
      (custody_startWith poolSize accounts)
  refine ⟨fun _ _ member left => custody.leaving member left,
    fun _ retains _ member => custody.retained retains member, ?_,
    fun _ spawns => custody.spawning spawns⟩
  exact Nat.le_trans (Nat.le_trans (Nat.le_add_right _ _) (Nat.le_add_right _ _)) custody.asked

/-- Two connections are started; the session of the first is pushed and closes;
`reap` copies it, and before `retain` the second one is pushed. -/
def overlappingReap : List Action :=
  List.replicate 20 (.manage 0 true) ++
    [.connect 0 true, .advance 0 0, .advance 0 0, .advance 0 0, .close 0, .manage 0 true,
      .manage 0 true, .connect 1 true, .advance 1 0, .advance 1 0, .advance 1 0, .manage 0 true]

theorem sessions_kept_overlapping :
    (run step (startWith 2 1) overlappingReap).tunnel.manager = .retaining [0] ∧
      (run step (startWith 2 1) overlappingReap).tunnel.inner.sessions = [0, 1] ∧
      1 ∈ ((run step (startWith 2 1) overlappingReap).tunnel.step (.manage 0 true)).inner.sessions :=
  ⟨by decide, by decide,
    (sessions_kept ⟨overlappingReap, rfl⟩).2.1 (.manage 0 true) (by decide) 1 (by decide)⟩

end Ledger

end Unroxy.Ssh
