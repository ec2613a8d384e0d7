import Mathlib.Algebra.Order.BigOperators.Group.List
import Mathlib.Algebra.Order.Group.Nat
import Unroxy.Ssh.Manager

/-!
Owns how many sessions a tunnel's pool holds.

The manager compares `target_pool` with the sessions and the tasks that connect,
but it reads the two one after the other. A task that pushes its session and
leaves `connecting` between the two reads is in neither. `Sound` is what holds as
long as no task leaves so that the manager's sum becomes too small.
-/

namespace Unroxy.Ssh

open Unroxy.Lib

/-- The task may still push a session. -/
def TaskPhase.mayPush : TaskPhase → Bool
  | .connecting _ | .succeeded _ _ | .forgiven _ _ | .pushing _ => true
  | .failed _ | .blamed _ _ | .leaving | .done => false

/-- The task counts in `connecting`. -/
def TaskPhase.counts : TaskPhase → Bool
  | .done => false
  | _ => true

/-- The manager is about to start a task. -/
def ManagerPhase.starts : ManagerPhase → Nat
  | .picking _ _ | .looking _ _ _ | .acquiring _ | .adding _ | .spawning _ => 1
  | _ => 0

/-- The manager has counted the task it is about to start. -/
def ManagerPhase.added : ManagerPhase → Nat
  | .spawning _ => 1
  | _ => 0

/-- What the manager has read of the sessions, before it reads `connecting`. -/
def ManagerPhase.read : ManagerPhase → Option Nat
  | .counted live => some live
  | _ => none

/-- The task whose next step this is. -/
def Action.advanced : Action → Option Nat
  | .advance task _ => some task
  | _ => none

namespace Tunnel

/-- The sessions, and the tasks that may still push one. -/
def expected (self : Tunnel) : Nat :=
  self.inner.sessions.length + self.tasks.countP TaskPhase.mayPush

structure Sound (tunnel : Tunnel) : Prop where
  counted : tunnel.inner.connecting = tunnel.tasks.countP TaskPhase.counts + tunnel.manager.added
  fits : tunnel.expected + tunnel.manager.starts ≤ tunnel.inner.targetPool
  /-- Between the two reads the manager's sum is not too small to matter. -/
  seen : ∀ live, tunnel.manager = .counted live →
    tunnel.expected < tunnel.inner.targetPool ∨
      tunnel.expected ≤ live + tunnel.inner.connecting

/-- Between the manager's two reads a task leaves `connecting`, and then the
manager finds room where there is none. -/
def Overtakes (self : Tunnel) (action : Action) : Prop :=
  (∃ task ∈ action.advanced, self.tasks[task]? = some .leaving) ∧
    ∃ live ∈ self.manager.read, live + (self.inner.connecting - 1) < self.inner.targetPool ∧
      self.inner.targetPool ≤ self.expected

instance (self : Tunnel) (action : Action) : Decidable (self.Overtakes action) :=
  inferInstanceAs (Decidable (_ ∧ _))

/-! ### Tasks -/

private theorem countP_set_add {tasks : List TaskPhase} {task : Nat} {before : TaskPhase}
    (atTask : tasks[task]? = some before) (after : TaskPhase) (holds : TaskPhase → Bool) :
    (tasks.set task after).countP holds + (if holds before then 1 else 0) =
      tasks.countP holds + if holds after then 1 else 0 := by
  obtain ⟨below, atIndex⟩ := List.getElem?_eq_some_iff.mp atTask
  rw [List.countP_set below, atIndex]
  split
  case isTrue holdsBefore =>
    have present : 0 < tasks.countP holds :=
      List.countP_pos_iff.mpr ⟨before, List.mem_of_getElem? atTask, holdsBefore⟩
    omega
  case isFalse => omega

/-- A task goes on, and the pool of sessions and tasks does not grow. -/
private theorem Sound.become {self : Tunnel} (sound : Sound self) {task : Nat}
    {before : TaskPhase} (atTask : self.tasks[task]? = some before) (after : TaskPhase)
    (inner : Inner) (made : Nat) (counts : before.counts = after.counts)
    (target : inner.targetPool = self.inner.targetPool)
    (connecting : inner.connecting = self.inner.connecting)
    (pushed : inner.sessions.length + (if after.mayPush then 1 else 0) ≤
      self.inner.sessions.length + if before.mayPush then 1 else 0) :
    Sound ({ self with inner, made }.become task after) := by
  have unfinished := countP_set_add atTask after TaskPhase.counts
  have pending := countP_set_add atTask after TaskPhase.mayPush
  have fewer : ({ self with inner, made }.become task after).expected ≤ self.expected := by
    change inner.sessions.length + (self.tasks.set task after).countP TaskPhase.mayPush ≤
      self.inner.sessions.length + self.tasks.countP TaskPhase.mayPush
    omega
  have sum := sound.counted
  have fits := sound.fits
  rw [counts] at unfinished
  refine ⟨?_, ?_, fun live atLive => ?_⟩
  · change inner.connecting =
      (self.tasks.set task after).countP TaskPhase.counts + self.manager.added
    omega
  · change _ + self.manager.starts ≤ inner.targetPool
    omega
  · change _ < inner.targetPool ∨ _ ≤ live + inner.connecting
    have seen := sound.seen live atLive
    omega

private theorem sound_connect {self : Tunnel} (sound : Sound self) (task : Nat)
    (success : Bool) : Sound (self.connect task success) := by
  unfold connect
  split
  case h_1 index atTask =>
    split
    · exact sound.become atTask _ self.inner _ rfl rfl rfl (Nat.le_refl _)
    · exact sound.become atTask (.failed index) self.inner _ rfl rfl rfl (Nat.le_succ _)
  case h_2 => exact sound

/-- A task that leaves without making the manager's sum too small. -/
private theorem Sound.leave {self : Tunnel} (sound : Sound self) {task : Nat}
    (atTask : self.tasks[task]? = some .leaving)
    (spared : ∀ live, self.manager = .counted live → self.inner.targetPool ≤ self.expected →
      self.inner.targetPool ≤ live + (self.inner.connecting - 1)) :
    Sound ({ self with
      inner := { self.inner with connecting := self.inner.connecting - 1 } }.become task
        .done) := by
  have unfinished : _ + 1 = _ + 0 := countP_set_add atTask .done TaskPhase.counts
  have pending : _ + 0 = _ + 0 := countP_set_add atTask .done TaskPhase.mayPush
  have same : self.inner.sessions.length +
      (self.tasks.set task .done).countP TaskPhase.mayPush = self.expected :=
    congrArg (self.inner.sessions.length + ·) pending
  have sum := sound.counted
  have fits := sound.fits
  refine ⟨?_, ?_, fun live atLive => ?_⟩
  · change self.inner.connecting - 1 =
      (self.tasks.set task .done).countP TaskPhase.counts + self.manager.added
    omega
  · change self.inner.sessions.length +
      (self.tasks.set task .done).countP TaskPhase.mayPush + self.manager.starts ≤ _
    rw [same]
    exact fits
  · change self.inner.sessions.length + (self.tasks.set task .done).countP TaskPhase.mayPush < _ ∨
      self.inner.sessions.length + (self.tasks.set task .done).countP TaskPhase.mayPush ≤
        live + (self.inner.connecting - 1)
    rw [same]
    rcases Nat.lt_or_ge self.expected self.inner.targetPool with room | full
    · exact .inl room
    · have enough := spared live atLive full
      exact .inr (by omega)

private theorem sound_advance {self : Tunnel} (sound : Sound self) {task now : Nat}
    (spared : ¬ self.Overtakes (.advance task now)) : Sound (self.advance task now) := by
  unfold advance
  split
  case h_1 index session atTask =>
    exact sound.become atTask (.forgiven index session) _ self.made rfl rfl rfl (Nat.le_refl _)
  case h_2 index session atTask =>
    exact sound.become atTask (.pushing session) _ self.made rfl rfl rfl (Nat.le_refl _)
  case h_3 session atTask =>
    refine sound.become atTask .leaving _ self.made rfl rfl rfl (Nat.le_of_eq ?_)
    rw [List.length_append]
    rfl
  case h_4 index atTask =>
    exact sound.become atTask (.blamed index _) _ self.made rfl rfl rfl (Nat.le_refl _)
  case h_5 index failures atTask =>
    exact sound.become atTask .leaving _ self.made rfl rfl rfl (Nat.le_refl _)
  case h_6 atTask =>
    refine sound.leave atTask fun live atLive full => ?_
    by_contra room
    refine spared ⟨⟨task, rfl, atTask⟩, live, ?_, Nat.lt_of_not_le room, full⟩
    rw [atLive]
    rfl
  case h_7 => exact sound

/-! ### The manager -/

/-- The manager goes on and starts nothing new. -/
private theorem Sound.move {self : Tunnel} (sound : Sound self) (inner : Inner)
    (closed : List Nat) (phase : ManagerPhase)
    (target : inner.targetPool = self.inner.targetPool)
    (connecting : inner.connecting + self.manager.added = self.inner.connecting + phase.added)
    (sessions : inner.sessions.length + phase.starts ≤
      self.inner.sessions.length + self.manager.starts)
    (moves : ∀ live, phase ≠ .counted live) :
    Sound { self with inner, closed, manager := phase } := by
  have sum := sound.counted
  have fits := sound.fits
  unfold expected at fits
  refine ⟨?_, ?_, fun live atLive => absurd atLive (moves live)⟩
  · change inner.connecting = self.tasks.countP TaskPhase.counts + phase.added
    omega
  · change inner.sessions.length + self.tasks.countP TaskPhase.mayPush + phase.starts ≤
      inner.targetPool
    omega

private theorem Sound.connectOn {self : Tunnel} (sound : Sound self)
    (calm : self.manager.added = 0) : Sound self.connectOn := by
  unfold Tunnel.connectOn
  split
  · apply sound.move self.inner self.closed .sleeping rfl _ (Nat.le_add_right _ _) (by simp)
    rw [calm]
    rfl
  · apply sound.move self.inner self.closed .counting rfl _ (Nat.le_add_right _ _) (by simp)
    rw [calm]
    rfl

/-- The manager reads the sessions. -/
private theorem Sound.count {self : Tunnel} (sound : Sound self)
    (calm : self.manager.added = 0) (idle : self.manager.starts = 0) :
    Sound { self with manager := .counted self.inner.live } := by
  have sum := sound.counted
  have fits := sound.fits
  refine ⟨?_, ?_, fun live atLive => .inr ?_⟩
  · rw [calm] at sum
    exact sum
  · rw [idle] at fits
    exact fits
  · -- a task that may push is one that counts
    have fewer : self.tasks.countP TaskPhase.mayPush ≤ self.tasks.countP TaskPhase.counts := by
      apply List.countP_mono_left
      intro phase _ pushes
      cases phase <;> trivial
    cases atLive
    change self.inner.sessions.length + self.tasks.countP TaskPhase.mayPush ≤
      self.inner.sessions.length + self.inner.connecting
    omega

/-- The manager reads `connecting`, and starts a task only if there is room. -/
private theorem Sound.decide {self : Tunnel} (sound : Sound self) {live : Nat}
    (atLive : self.manager = .counted live)
    (need : self.inner.targetPool - (live + self.inner.connecting) ≠ 0) (now : Nat) :
    Sound { self with manager := .picking now self.inner.accounts } := by
  have seen := sound.seen live atLive
  have fits := sound.fits
  have sum := sound.counted
  rw [atLive] at sum
  refine ⟨sum, ?_, fun live atLive => ?_⟩
  · change self.expected + 1 ≤ self.inner.targetPool
    omega
  · cases atLive

/-- The manager starts the task it has counted. -/
private theorem Sound.spawn {self : Tunnel} (sound : Sound self) {index : Nat}
    (atSpawn : self.manager = .spawning index) :
    Sound { self with tasks := self.tasks ++ [.connecting index], manager := .counting } := by
  have sum := sound.counted
  have fits := sound.fits
  rw [atSpawn] at sum fits
  refine ⟨?_, ?_, fun live atLive => ?_⟩
  · change self.inner.connecting =
      (self.tasks ++ [TaskPhase.connecting index]).countP TaskPhase.counts + 0
    rw [sum, List.countP_append]
    rfl
  · change self.inner.sessions.length +
      (self.tasks ++ [TaskPhase.connecting index]).countP TaskPhase.mayPush + 0 ≤
        self.inner.targetPool
    rw [List.countP_append]
    exact fits
  · cases atLive

private theorem sound_manage {self : Tunnel} (sound : Sound self) (now : Nat)
    (permitted : Bool) : Sound (self.manage now permitted) := by
  rcases self with ⟨inner, manager, tasks, closed, made⟩
  cases manager with
  | sleeping => exact sound.move inner closed _ rfl rfl (Nat.le_refl _) (by simp)
  | checking snapshot dead =>
      cases snapshot with
      | nil =>
          rw [manage]
          dsimp only
          split
          · exact sound.move inner closed _ rfl rfl (Nat.le_refl _) (by simp)
          · exact sound.move inner closed _ rfl rfl (Nat.le_refl _) (by simp)
      | cons session snapshot => exact sound.move inner closed _ rfl rfl (Nat.le_refl _) (by simp)
  | retaining dead =>
      exact sound.move _ closed _ rfl rfl (List.length_filter_le _ _) (by simp)
  | reaped => exact sound.move _ closed _ rfl rfl (Nat.le_refl _) (by simp)
  | retiring => exact sound.move _ closed _ rfl rfl (Nat.le_refl _) (by simp)
  | popping left retired =>
      cases left with
      | zero =>
          rw [manage]
          dsimp only
          split
          · exact sound.move inner closed _ rfl rfl (Nat.le_refl _) (by simp)
          · exact sound.connectOn rfl
      | succ left =>
          rw [manage]
          dsimp only
          split
          · exact sound.move inner closed _ rfl rfl (Nat.le_refl _) (by simp)
          · refine sound.move _ closed _ rfl rfl ?_ (by simp)
            exact List.length_dropLast ▸ Nat.sub_le _ _
  | closing session left retired =>
      exact sound.move inner _ _ rfl rfl (Nat.le_refl _) (by simp)
  | retired =>
      have counted := sound.move { inner with generation := inner.generation + 1 } closed .retired
        rfl rfl (Nat.le_refl _) (by simp)
      exact counted.connectOn rfl
  | counting => exact sound.count rfl rfl
  | counted live =>
      rw [manage]
      dsimp only
      split
      · exact sound.move inner closed _ rfl rfl (Nat.le_refl _) (by simp)
      · next need => exact sound.decide rfl need now
  | picking since left =>
      cases left with
      | zero => exact sound.move inner closed _ rfl rfl (Nat.le_succ _) (by simp)
      | succ left => exact sound.move _ closed _ rfl rfl (Nat.le_refl _) (by simp)
  | looking since left index =>
      rw [manage]
      dsimp only
      split
      · exact sound.move inner closed _ rfl rfl (Nat.le_refl _) (by simp)
      · exact sound.move inner closed _ rfl rfl (Nat.le_refl _) (by simp)
  | acquiring index =>
      cases permitted with
      | true => exact sound.move inner closed _ rfl rfl (Nat.le_refl _) (by simp)
      | false => exact sound.move inner closed _ rfl rfl (Nat.le_succ _) (by simp)
  | retrying => exact sound.move inner closed _ rfl rfl (Nat.le_refl _) (by simp)
  | adding index => exact sound.move _ closed _ rfl rfl (Nat.le_refl _) (by simp)
  | spawning index => exact sound.spawn rfl
  | aborted => exact sound

private theorem sound_step {self : Tunnel} {action : Action} (sound : Sound self)
    (spared : ¬ self.Overtakes action) : Sound (self.step action) := by
  cases action with
  | manage now permitted => exact sound_manage sound now permitted
  | connect task success => exact sound_connect sound task success
  | advance task now => exact sound_advance sound spared
  | close session => exact ⟨sound.counted, sound.fits, sound.seen⟩
  | terminate count => exact ⟨sound.counted, sound.fits, sound.seen⟩
  | pick => exact ⟨sound.counted, sound.fits, sound.seen⟩
  | drop =>
      rcases self with ⟨inner, manager, tasks, closed, made⟩
      cases manager with
      | sleeping => exact sound.move inner closed .aborted rfl rfl (Nat.le_refl _) (by simp)
      | retrying => exact sound.move inner closed .aborted rfl rfl (Nat.le_refl _) (by simp)
      | _ => exact sound

/-- In every state a run reaches without a task that overtakes the manager, the
pool is within its target. -/
theorem sessions_le_targetPool (poolSize : UInt32) (accounts : Nat) {actions : List Action}
    (spared : Along step (fun self action => ¬ self.Overtakes action)
      (startWith poolSize accounts) actions)
    {done : List Action} (reached : done <+: actions) :
    (run step (startWith poolSize accounts) done).inner.sessions.length ≤
      (run step (startWith poolSize accounts) done).inner.targetPool := by
  have start : Sound (startWith poolSize accounts) := by
    refine ⟨rfl, Nat.zero_le _, fun live atLive => ?_⟩
    cases atLive
  rcases reached with ⟨rest, rfl⟩
  have sound : Sound (run step (startWith poolSize accounts) done) :=
    run_invariant (fun _ _ sound spared => sound_step sound spared) done start spared.left
  have fits := sound.fits
  unfold expected at fits
  omega

/-! ### The condition is needed -/

/-- The pool fills up from here, by steps that overtake nobody. -/
def FillsUp (self : Tunnel) (count : Nat) : Prop :=
  ∃ later, Along step (fun self action => ¬ self.Overtakes action) self later ∧
    count ≤ (run step self later).inner.sessions.length

private theorem FillsUp.before {self : Tunnel} (action : Action) {count : Nat}
    (fills : (self.step action).FillsUp count) (spared : ¬ self.Overtakes action) :
    self.FillsUp count := by
  rcases fills with ⟨later, along, full⟩
  exact ⟨action :: later, ⟨spared, along⟩, full⟩

private theorem not_overtakes {self : Tunnel} (elsewhere : self.manager.read = none)
    (action : Action) : ¬ self.Overtakes action := by
  intro overtakes
  rcases overtakes with ⟨-, live, read, -⟩
  rw [elsewhere] at read
  cases read

/-- This task pushes a session, and then the pool fills up if it does from
there. -/
private def Pushes (self : Tunnel) (task count : Nat) : Prop :=
  (∀ pushed : Tunnel, pushed.manager = self.manager →
    pushed.tasks = self.tasks.set task .leaving →
    pushed.inner.sessions.length = self.inner.sessions.length + 1 → pushed.FillsUp count) →
  self.FillsUp count

private theorem Pushes.before {self : Tunnel} {task count : Nat} {action : Action}
    {after : TaskPhase} (inner : Inner) (made : Nat) (elsewhere : self.manager.read = none)
    (next : self.step action = { self with inner, made }.become task after)
    (sessions : inner.sessions = self.inner.sessions)
    (pushes : ({ self with inner, made }.become task after).Pushes task count) :
    self.Pushes task count := by
  intro onward
  have fills : (self.step action).FillsUp count := by
    rw [next]
    apply pushes
    intro pushed sameManager sameTasks more
    apply onward pushed sameManager
    · rw [sameTasks]
      exact List.set_set ..
    · rw [more]
      exact congrArg (·.length + 1) sessions
  exact fills.before action (not_overtakes elsewhere action)

private theorem getElem?_set_here {tasks : List TaskPhase} {task : Nat} {before : TaskPhase}
    (atTask : tasks[task]? = some before) (after : TaskPhase) :
    (tasks.set task after)[task]? = some after :=
  List.getElem?_set_self (List.getElem?_eq_some_iff.mp atTask).1

private theorem pushes_pushing {self : Tunnel} {task session : Nat}
    (elsewhere : self.manager.read = none)
    (atTask : self.tasks[task]? = some (.pushing session)) (count : Nat) :
    self.Pushes task count := by
  intro onward
  refine (onward (self.step (.advance task 0)) ?_ ?_ ?_).before _ (not_overtakes elsewhere _)
  all_goals simp [step, advance, atTask, become]

private theorem pushes_forgiven {self : Tunnel} {task index session : Nat}
    (elsewhere : self.manager.read = none)
    (atTask : self.tasks[task]? = some (.forgiven index session)) (count : Nat) :
    self.Pushes task count := by
  have next : self.step (.advance task 0) = { self with
      inner := { self.inner with
                 accountNotBefore := self.inner.accountNotBefore.set index 0 } }.become task
      (.pushing session) := by
    simp only [step, advance, atTask]
  refine Pushes.before _ self.made elsewhere next rfl ?_
  apply pushes_pushing
  · exact elsewhere
  · exact getElem?_set_here atTask _

private theorem pushes_succeeded {self : Tunnel} {task index session : Nat}
    (elsewhere : self.manager.read = none)
    (atTask : self.tasks[task]? = some (.succeeded index session)) (count : Nat) :
    self.Pushes task count := by
  have next : self.step (.advance task 0) = { self with
      inner := { self.inner with
                 accountFailures := self.inner.accountFailures.set index 0 } }.become task
      (.forgiven index session) := by
    simp only [step, advance, atTask]
  refine Pushes.before _ self.made elsewhere next rfl ?_
  apply pushes_forgiven
  · exact elsewhere
  · exact getElem?_set_here atTask _

private theorem pushes_of_mayPush {self : Tunnel} {task : Nat} {before : TaskPhase}
    (elsewhere : self.manager.read = none) (atTask : self.tasks[task]? = some before)
    (mayPush : before.mayPush = true) (count : Nat) : self.Pushes task count := by
  cases before with
  | connecting index =>
      have next : self.step (.connect task true) =
          { self with made := self.made + 1 }.become task (.succeeded index self.made) := by
        simp only [step, connect, atTask, if_true]
      refine Pushes.before self.inner _ elsewhere next rfl ?_
      apply pushes_succeeded
      · exact elsewhere
      · exact getElem?_set_here atTask _
  | succeeded index session => exact pushes_succeeded elsewhere atTask count
  | forgiven index session => exact pushes_forgiven elsewhere atTask count
  | pushing session => exact pushes_pushing elsewhere atTask count
  | failed index => cases mayPush
  | blamed index failures => cases mayPush
  | leaving => cases mayPush
  | done => cases mayPush

/-- All the tasks that may push do so. -/
private theorem fillsUp_expected (waiting : Nat) :
    ∀ {self : Tunnel}, self.manager.read = none →
      self.tasks.countP TaskPhase.mayPush = waiting → self.FillsUp self.expected := by
  induction waiting with
  | zero =>
      intro self _ none
      refine ⟨[], trivial, ?_⟩
      rw [expected, none]
      exact Nat.le_refl _
  | succ waiting inductionHypothesis =>
      intro self elsewhere some
      have positive : 0 < self.tasks.countP TaskPhase.mayPush := some.symm ▸ Nat.succ_pos waiting
      obtain ⟨phase, present, mayPush⟩ := List.countP_pos_iff.mp positive
      obtain ⟨task, atTask⟩ := List.mem_iff_getElem?.mp present
      apply pushes_of_mayPush elsewhere atTask mayPush
      intro pushed manager tasks sessions
      have pending := countP_set_add atTask .leaving TaskPhase.mayPush
      rw [if_pos mayPush, some] at pending
      have fewer : pushed.tasks.countP TaskPhase.mayPush = waiting := by
        rw [tasks]
        exact Nat.add_right_cancel pending
      have same : pushed.expected = self.expected := by
        rw [expected, expected, fewer, some, sessions]
        omega
      rw [← same]
      exact inductionHypothesis (by rw [manager, elsewhere]) fewer

/-- The manager starts a task, which pushes a session like the others. -/
private theorem fillsUp_acquiring {self : Tunnel} {index : Nat}
    (atAcquire : self.manager = .acquiring index) : self.FillsUp (self.expected + 1) := by
  rcases self with ⟨inner, manager, tasks, closed, made⟩
  cases atAcquire
  refine FillsUp.before (.manage 0 true) ?_ (not_overtakes rfl _)
  refine FillsUp.before (.manage 0 true) ?_ (not_overtakes rfl _)
  refine FillsUp.before (.manage 0 true) ?_ (not_overtakes rfl _)
  let started : Tunnel := {
    inner := { inner with connecting := inner.connecting + 1 }
    manager := .counting
    tasks := tasks ++ [.connecting index]
    closed := closed
    made := made }
  have fills : started.FillsUp started.expected := fillsUp_expected _ rfl rfl
  have more : inner.sessions.length +
      (tasks ++ [TaskPhase.connecting index]).countP TaskPhase.mayPush =
        inner.sessions.length + tasks.countP TaskPhase.mayPush + 1 := by
    rw [List.countP_append]
    rfl
  unfold expected at fills
  rw [more] at fills
  exact fills

private theorem fillsUp_counted {self : Tunnel} {live : Nat} (atLive : self.manager = .counted live)
    (room : live + self.inner.connecting < self.inner.targetPool)
    (accounts : 0 < self.inner.accounts) : self.FillsUp (self.expected + 1) := by
  rcases self with ⟨inner, manager, tasks, closed, made⟩
  cases atLive
  obtain ⟨left, more⟩ : ∃ left, inner.accounts = left + 1 := Nat.exists_eq_add_one.mpr accounts
  -- at this time every account is eligible
  let now := inner.accountNotBefore.sum
  have manages {self : Tunnel} : ¬ self.Overtakes (.manage now true) := by
    intro overtakes
    rcases overtakes with ⟨⟨task, advanced, -⟩, -⟩
    cases advanced
  refine FillsUp.before (.manage now true) ?_ manages
  have need : ¬ inner.targetPool - (live + inner.connecting) = 0 := by
    change live + inner.connecting < inner.targetPool at room
    omega
  simp only [step, manage, need, if_false, more]
  refine FillsUp.before (.manage now true) ?_ (not_overtakes rfl _)
  refine FillsUp.before (.manage now true) ?_ (not_overtakes rfl _)
  have eligible (index : Nat) : inner.accountNotBefore.getD index 0 ≤ now := by
    rw [List.getD_eq_getElem?_getD]
    cases found : inner.accountNotBefore[index]? with
    | none => exact Nat.zero_le _
    | some notBefore =>
        exact List.single_le_sum (fun _ _ => Nat.zero_le _) _ (List.mem_of_getElem? found)
  simp only [step, manage, eligible, if_true]
  exact fillsUp_acquiring rfl

/-- A task that overtakes the manager lets the pool grow beyond its target. -/
theorem fillsUp_of_overtakes {self : Tunnel} {action : Action}
    (accounts : 0 < self.inner.accounts) (overtakes : self.Overtakes action) :
    (self.step action).FillsUp (self.inner.targetPool + 1) := by
  rcases overtakes with ⟨⟨task, advanced, atTask⟩, live, read, room, full⟩
  cases action with
  | advance task' now =>
      cases advanced
      have atLive : self.manager = .counted live := by
        cases phase : self.manager <;> rw [phase] at read <;> cases read
        rfl
      have pending : _ + 0 = _ + 0 := countP_set_add atTask .done TaskPhase.mayPush
      have left : self.step (.advance task now) = { self with
          inner := { self.inner with connecting := self.inner.connecting - 1 } }.become task
          .done := by
        simp only [step, advance, atTask]
      have fills : (self.step (.advance task now)).FillsUp
          ((self.step (.advance task now)).expected + 1) := by
        rw [left]
        exact fillsUp_counted atLive room accounts
      have same : (self.step (.advance task now)).expected = self.expected := by
        rw [left]
        exact congrArg (self.inner.sessions.length + ·) pending
      rcases fills with ⟨later, along, more⟩
      exact ⟨later, along, Nat.le_trans (Nat.succ_le_succ (same.symm ▸ full)) more⟩
  | _ => cases advanced

/-- The manager's steps from its sleep to the first task. -/
def untilSpawned : List Action := List.replicate 11 (.manage 0 true)

/-- A pool of one session: its task leaves before the manager counts again. -/
theorem sessions_le_targetPool_one :
    (run step (startWith 1 1) (untilSpawned ++ [.connect 0 true, .advance 0 0, .advance 0 0,
        .advance 0 0, .advance 0 0, .manage 0 true, .manage 0 true])).inner.sessions = [0] ∧
      (run step (startWith 1 1) (untilSpawned ++ [.connect 0 true, .advance 0 0, .advance 0 0,
        .advance 0 0, .advance 0 0, .manage 0 true, .manage 0 true])).inner.sessions.length ≤
      (run step (startWith 1 1) (untilSpawned ++ [.connect 0 true, .advance 0 0, .advance 0 0,
        .advance 0 0, .advance 0 0, .manage 0 true, .manage 0 true])).inner.targetPool :=
  ⟨by decide, sessions_le_targetPool 1 1 (by decide) (List.prefix_refl _)⟩

/-- The task pushes its session and leaves between the manager's two reads, so
the manager starts another. -/
def overtaking : List Action :=
  untilSpawned ++ [.manage 0 true, .connect 0 true, .advance 0 0, .advance 0 0, .advance 0 0,
    .advance 0 0] ++ List.replicate 6 (.manage 0 true) ++
    [.connect 1 true, .advance 1 0, .advance 1 0, .advance 1 0]

/-- Two sessions in a pool of one. -/
theorem not_sessions_le_targetPool_overtaken :
    ¬ ∀ actions : List Action,
      (run step (startWith 1 1) actions).inner.sessions.length ≤
        (run step (startWith 1 1) actions).inner.targetPool := by
  intro within
  exact absurd (within overtaking) (by decide)

end Tunnel

end Unroxy.Ssh
