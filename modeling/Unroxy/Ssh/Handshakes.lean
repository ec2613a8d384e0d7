import Mathlib.Algebra.GroupWithZero.Nat
import Mathlib.Algebra.Order.BigOperators.Group.List
import Mathlib.Algebra.Order.Group.Nat
import Unroxy.Ssh.Manager

/-!
Owns the handshakes of all tunnels of the process: `HANDSHAKES` of `ssh/mod.rs`,
which the managers share.

A step is one of a tunnel, a permit that a connect task drops, or a tunnel that
is started. Whether `try_acquire_owned` finds a permit is here what the semaphore
has left.

Does not own what a tunnel does with its sessions.
-/

namespace Unroxy.Ssh

open Unroxy.Lib

def maxConcurrentHandshakes : Nat := 8

/-- The manager holds a permit that it has not given to a task. -/
def ManagerPhase.permits : ManagerPhase → Nat
  | .adding _ | .spawning _ => 1
  | _ => 0

/-- The task cannot have dropped its permit. -/
def TaskPhase.works : TaskPhase → Bool
  | .leaving | .done => false
  | _ => true

/-- The task is in `Session::connect`. -/
def TaskPhase.connects : TaskPhase → Bool
  | .connecting _ => true
  | _ => false

/-- A tunnel, and which of its tasks hold a permit. -/
structure Member where
  tunnel : Tunnel
  permits : List Bool
deriving DecidableEq, Repr

/-- The tunnels of the process, and the permits that are free. -/
structure Fleet where
  free : Nat
  members : List Member
deriving DecidableEq, Repr

inductive FleetStep where
  | startWith (poolSize : UInt32) (accounts : Nat)
  /-- A step of a tunnel. -/
  | act (member : Nat) (action : Action)
  /-- `drop` of the permit of a task. -/
  | release (member task : Nat)
deriving DecidableEq, Repr

namespace Member

def startWith (poolSize : UInt32) (accounts : Nat) : Member where
  tunnel := .startWith poolSize accounts
  permits := []

/-- A step of `manage`, which may take a permit or give one to a task. -/
def manage (self : Member) (free now : Nat) : Nat × Member :=
  let tunnel := self.tunnel.manage now (0 < free)
  match self.tunnel.manager with
  | .acquiring _ => (free - 1, { self with tunnel })
  | .spawning _ => (free, { tunnel, permits := self.permits ++ [true] })
  | _ => (free, { self with tunnel })

/-- The last step of a task comes after the drop of its permit. -/
def act (self : Member) (free : Nat) : Action → Nat × Member
  | .manage now _ => self.manage free now
  | .advance task now =>
      if self.tunnel.tasks[task]? = some .leaving ∧ self.permits[task]? = some true then
        (free, self)
      else
        (free, { self with tunnel := self.tunnel.advance task now })
  | action => (free, { self with tunnel := self.tunnel.step action })

def release (self : Member) (free task : Nat) : Nat × Member :=
  if self.tunnel.tasks[task]? = some .leaving ∧ self.permits[task]? = some true then
    (free + 1, { self with permits := self.permits.set task false })
  else
    (free, self)

/-- The permits that are not free because of this tunnel. -/
def held (self : Member) : Nat := self.permits.count true + self.tunnel.manager.permits

end Member

namespace Fleet

def start : Fleet where
  free := maxConcurrentHandshakes
  members := []

def put (self : Fleet) (member : Nat) (result : Nat × Member) : Fleet where
  free := result.1
  members := self.members.set member result.2

def step (self : Fleet) : FleetStep → Fleet
  | .startWith poolSize accounts =>
      { self with members := self.members ++ [.startWith poolSize accounts] }
  | .act member action =>
      match self.members[member]? with
      | some acts => self.put member (acts.act self.free action)
      | none => self
  | .release member task =>
      match self.members[member]? with
      | some drops => self.put member (drops.release self.free task)
      | none => self

end Fleet

/-! ### One tunnel -/

/-- A task that works has its permit, and one that is done has none. -/
structure Keeps (phase : TaskPhase) (permit : Bool) : Prop where
  works : phase.works → permit
  done : phase = .done → ¬ permit

/-- At most one task goes on, and it was at work. -/
inductive TasksStep (before after : List TaskPhase) : Prop where
  | same (same : after = before)
  | worked (task : Nat) (was now : TaskPhase) (there : before[task]? = some was)
      (set : after = before.set task now) (works : was.works) (undone : now ≠ .done)

namespace Tunnel

variable (tunnel : Tunnel)

theorem tasks_connect (task : Nat) (success : Bool) :
    TasksStep tunnel.tasks (tunnel.connect task success).tasks := by
  unfold connect
  split
  case h_1 index there =>
    split
    · exact .worked task _ _ there rfl rfl (by simp)
    · exact .worked task _ _ there rfl rfl (by simp)
  case h_2 => exact .same rfl

theorem tasks_advance {task : Nat} (now : Nat) (stays : tunnel.tasks[task]? ≠ some .leaving) :
    TasksStep tunnel.tasks (tunnel.advance task now).tasks := by
  unfold advance
  split
  case h_1 there => exact .worked task _ _ there rfl rfl (by simp)
  case h_2 there => exact .worked task _ _ there rfl rfl (by simp)
  case h_3 there => exact .worked task _ _ there rfl rfl (by simp)
  case h_4 there => exact .worked task _ _ there rfl rfl (by simp)
  case h_5 there => exact .worked task _ _ there rfl rfl (by simp)
  case h_6 there => exact absurd there stays
  case h_7 => exact .same rfl

theorem tasks_advance_leaving {task : Nat} (now : Nat)
    (leaves : tunnel.tasks[task]? = some .leaving) :
    (tunnel.advance task now).tasks = tunnel.tasks.set task .done := by
  unfold advance
  split
  case h_6 => rfl
  all_goals simp_all

theorem manager_connect (task : Nat) (success : Bool) :
    (tunnel.connect task success).manager = tunnel.manager := by
  unfold connect
  split
  · split
    · rfl
    · rfl
  · rfl

theorem manager_advance (task now : Nat) : (tunnel.advance task now).manager = tunnel.manager := by
  unfold advance
  split <;> rfl

theorem permits_drop : tunnel.drop.manager.permits = tunnel.manager.permits := by
  unfold drop
  split
  case h_1 asleep => rw [asleep]; rfl
  case h_2 asleep => rw [asleep]; rfl
  case h_3 => rfl

theorem tasks_drop : tunnel.drop.tasks = tunnel.tasks := by
  unfold drop
  split <;> rfl

theorem permits_connectOn : tunnel.connectOn.manager.permits = 0 := by
  unfold connectOn
  dsimp only
  split <;> rfl

/-- The manager neither takes a permit nor has one. -/
def Elsewhere : Prop :=
  ∀ index, tunnel.manager ≠ .acquiring index ∧ tunnel.manager ≠ .adding index ∧
    tunnel.manager ≠ .spawning index

variable {tunnel}

theorem Elsewhere.permits (elsewhere : tunnel.Elsewhere) : tunnel.manager.permits = 0 := by
  cases phase : tunnel.manager with
  | adding index => exact absurd phase (elsewhere index).2.1
  | spawning index => exact absurd phase (elsewhere index).2.2
  | _ => rfl

/-- Where the manager can be. -/
theorem manager_cases (tunnel : Tunnel) :
    (∃ index, tunnel.manager = .acquiring index) ∨ (∃ index, tunnel.manager = .adding index) ∨
      (∃ index, tunnel.manager = .spawning index) ∨ tunnel.Elsewhere := by
  cases phase : tunnel.manager with
  | acquiring index => exact .inl ⟨index, rfl⟩
  | adding index => exact .inr (.inl ⟨index, rfl⟩)
  | spawning index => exact .inr (.inr (.inl ⟨index, rfl⟩))
  | _ =>
      refine .inr (.inr (.inr fun index => ?_))
      rw [phase]
      simp

theorem Elsewhere.manage (elsewhere : tunnel.Elsewhere) (now : Nat) (permitted : Bool) :
    (tunnel.manage now permitted).manager.permits = 0 ∧
      (tunnel.manage now permitted).tasks = tunnel.tasks := by
  unfold Tunnel.manage
  split
  case h_1 => exact ⟨rfl, rfl⟩
  case h_2 =>
    refine ⟨?_, rfl⟩
    dsimp only
    split <;> rfl
  case h_3 => exact ⟨rfl, rfl⟩
  case h_4 => exact ⟨rfl, rfl⟩
  case h_5 => exact ⟨rfl, rfl⟩
  case h_6 => exact ⟨rfl, rfl⟩
  case h_7 =>
    split
    · exact ⟨rfl, rfl⟩
    · exact ⟨tunnel.permits_connectOn, rfl⟩
  case h_8 => split <;> exact ⟨rfl, rfl⟩
  case h_9 => exact ⟨rfl, rfl⟩
  case h_10 => exact ⟨permits_connectOn _, rfl⟩
  case h_11 => exact ⟨rfl, rfl⟩
  case h_12 =>
    refine ⟨?_, rfl⟩
    dsimp only
    split <;> rfl
  case h_13 => exact ⟨rfl, rfl⟩
  case h_14 => exact ⟨rfl, rfl⟩
  case h_15 => split <;> exact ⟨rfl, rfl⟩
  case h_16 index phase => exact absurd phase (elsewhere index).1
  case h_17 => exact ⟨rfl, rfl⟩
  case h_18 index phase => exact absurd phase (elsewhere index).2.1
  case h_19 index phase => exact absurd phase (elsewhere index).2.2
  case h_20 phase => exact ⟨congrArg ManagerPhase.permits phase, rfl⟩

end Tunnel

/-! ### Tasks and permits -/

section Tasks

variable {tasks : List TaskPhase} {permits : List Bool}

theorem kept_set (kept : List.Forall₂ Keeps tasks permits) {task : Nat} {was now : TaskPhase}
    (there : tasks[task]? = some was)
    (keeps : ∀ permit, permits[task]? = some permit → Keeps was permit → Keeps now permit) :
    List.Forall₂ Keeps (tasks.set task now) permits := by
  induction kept generalizing task with
  | nil => cases there
  | cons first rest inductionHypothesis =>
      cases task with
      | zero =>
          cases there
          exact .cons (keeps _ rfl first) rest
      | succ task => exact .cons first (inductionHypothesis there keeps)

theorem kept_release (kept : List.Forall₂ Keeps tasks permits) {task : Nat}
    (there : tasks[task]? = some .leaving) :
    List.Forall₂ Keeps tasks (permits.set task false) := by
  induction kept generalizing task with
  | nil => cases there
  | cons first rest inductionHypothesis =>
      cases task with
      | zero =>
          cases there
          exact .cons ⟨(fun works => by cases works), (fun ends => by cases ends)⟩ rest
      | succ task => exact .cons first (inductionHypothesis there)

theorem countP_connects_le (kept : List.Forall₂ Keeps tasks permits) :
    tasks.countP TaskPhase.connects ≤ permits.count true := by
  induction kept with
  | nil => exact Nat.le_refl 0
  | @cons phase permit tasks permits first rest inductionHypothesis =>
      rw [List.countP_cons, List.count_cons]
      cases phase with
      | connecting index =>
          rw [first.works rfl]
          exact Nat.add_le_add_right inductionHypothesis 1
      | _ => exact Nat.le_trans inductionHypothesis (Nat.le_add_right _ _)

/-- Tasks that are done have given their permits back. -/
theorem count_permits_done (kept : List.Forall₂ Keeps tasks permits)
    (done : ∀ phase ∈ tasks, phase = .done) : permits.count true = 0 := by
  induction kept with
  | nil => rfl
  | @cons phase permit tasks permits first rest inductionHypothesis =>
      rw [List.forall_mem_cons] at done
      rw [List.count_cons, inductionHypothesis done.2, if_neg]
      simpa using first.done done.1

end Tasks

namespace Member

variable {member : Member}

/-- Every task has the permit it should have. -/
def Kept (member : Member) : Prop := List.Forall₂ Keeps member.tunnel.tasks member.permits

/-- A step of the tunnel that has nothing to do with permits. -/
theorem Kept.moves (kept : member.Kept) {tunnel : Tunnel}
    (moves : TasksStep member.tunnel.tasks tunnel.tasks) : Kept { member with tunnel } := by
  change List.Forall₂ Keeps tunnel.tasks member.permits
  cases moves with
  | same same => exact same.symm ▸ kept
  | worked task was now there set works undone =>
      rw [set]
      exact kept_set kept there fun permit held keeps =>
        ⟨fun _ => keeps.works works, fun done => absurd done undone⟩

theorem manage_elsewhere (elsewhere : member.tunnel.Elsewhere) (free now : Nat) :
    member.manage free now =
      (free, { member with tunnel := member.tunnel.manage now (0 < free) }) := by
  unfold Member.manage
  split
  case h_1 index phase => exact absurd phase (elsewhere index).1
  case h_2 index phase => exact absurd phase (elsewhere index).2.2
  case h_3 => rfl

/-- The manager goes on, and no permit gets lost. -/
theorem Kept.manage (kept : member.Kept) (free now : Nat) :
    (member.manage free now).2.Kept ∧
      (member.manage free now).1 + (member.manage free now).2.held = free + member.held := by
  obtain ⟨tunnel, permits⟩ := member
  rcases tunnel.manager_cases with ⟨index, phase⟩ | ⟨index, phase⟩ | ⟨index, phase⟩ | elsewhere
  · have acquired : Member.manage ⟨tunnel, permits⟩ free now =
        (free - 1, ⟨{ tunnel with manager := if 0 < free then .adding index else .retrying },
          permits⟩) := by
      simp [Member.manage, Tunnel.manage, phase]
    rw [acquired]
    refine ⟨kept, ?_⟩
    by_cases some : 0 < free
    · simp only [held, phase, if_pos some, ManagerPhase.permits]
      omega
    · simp only [held, phase, if_neg some, ManagerPhase.permits]
      omega
  · have added : Member.manage ⟨tunnel, permits⟩ free now =
        (free, ⟨{ tunnel with
          inner := { tunnel.inner with connecting := tunnel.inner.connecting + 1 }
          manager := .spawning index }, permits⟩) := by
      simp [Member.manage, Tunnel.manage, phase]
    rw [added]
    exact ⟨kept, by simp only [held, phase, ManagerPhase.permits]⟩
  · have spawned : Member.manage ⟨tunnel, permits⟩ free now =
        (free, ⟨{ tunnel with
          tasks := tunnel.tasks ++ [.connecting index]
          manager := .counting }, permits ++ [true]⟩) := by
      simp [Member.manage, Tunnel.manage, phase]
    rw [spawned]
    constructor
    · exact List.rel_append kept (.cons ⟨fun _ => rfl, by simp⟩ .nil)
    · simp only [held, phase, ManagerPhase.permits, List.count_append, List.count_singleton_self]
  · rw [manage_elsewhere elsewhere]
    obtain ⟨none, tasks⟩ := elsewhere.manage now (0 < free)
    refine ⟨kept.moves (.same tasks), ?_⟩
    simp only [held, none, elsewhere.permits]

theorem Kept.act (kept : member.Kept) (free : Nat) (action : Action) :
    (member.act free action).2.Kept ∧
      (member.act free action).1 + (member.act free action).2.held = free + member.held := by
  cases action with
  | manage now permitted => exact kept.manage free now
  | advance task now =>
      rw [Member.act]
      split
      case isTrue => exact ⟨kept, rfl⟩
      case isFalse ordered =>
        constructor
        · by_cases leaves : member.tunnel.tasks[task]? = some .leaving
          · change List.Forall₂ Keeps (member.tunnel.advance task now).tasks member.permits
            rw [Tunnel.tasks_advance_leaving member.tunnel now leaves]
            refine kept_set kept leaves fun permit held _ => ⟨(fun works => by cases works), ?_⟩
            rintro - rfl
            exact ordered ⟨leaves, held⟩
          · exact kept.moves (member.tunnel.tasks_advance now leaves)
        · simp only [held, member.tunnel.manager_advance]
  | connect task success =>
      refine ⟨kept.moves (member.tunnel.tasks_connect task success), ?_⟩
      simp only [Member.act, Tunnel.step, held, member.tunnel.manager_connect]
  | close session => exact ⟨kept, rfl⟩
  | terminate count => exact ⟨kept, rfl⟩
  | pick => exact ⟨kept, rfl⟩
  | drop =>
      refine ⟨kept.moves (.same member.tunnel.tasks_drop), ?_⟩
      simp only [Member.act, Tunnel.step, held, member.tunnel.permits_drop]

theorem Kept.release (kept : member.Kept) (free task : Nat) :
    (member.release free task).2.Kept ∧
      (member.release free task).1 + (member.release free task).2.held = free + member.held := by
  unfold Member.release
  split
  case isTrue leaves =>
    refine ⟨kept_release kept leaves.1, ?_⟩
    obtain ⟨below, atTask⟩ := List.getElem?_eq_some_iff.mp leaves.2
    have present : 0 < member.permits.count true :=
      List.count_pos_iff.mpr (List.mem_of_getElem? leaves.2)
    simp only [held, List.count_set below, atTask]
    simp
    omega
  case isFalse => exact ⟨kept, rfl⟩

/-- Every step of a member is one of its tunnel, or none. -/
theorem act_tunnel (member : Member) (free : Nat) (action : Action) :
    (member.act free action).2.tunnel = member.tunnel ∨
      ∃ action', (member.act free action).2.tunnel = member.tunnel.step action' := by
  cases action with
  | manage now permitted =>
      refine .inr ⟨.manage now (0 < free), ?_⟩
      rw [Member.act, Member.manage]
      split <;> rfl
  | advance task now =>
      rw [Member.act]
      split
      case isTrue => exact .inl rfl
      case isFalse => exact .inr ⟨.advance task now, rfl⟩
  | connect task success => exact .inr ⟨.connect task success, rfl⟩
  | close session => exact .inr ⟨.close session, rfl⟩
  | terminate count => exact .inr ⟨.terminate count, rfl⟩
  | pick => exact .inr ⟨.pick, rfl⟩
  | drop => exact .inr ⟨.drop, rfl⟩

theorem release_tunnel (member : Member) (free task : Nat) :
    (member.release free task).2.tunnel = member.tunnel := by
  unfold Member.release
  split <;> rfl

end Member

/-! ### All tunnels -/

theorem sum_set {α : Type} {items : List α} {index : Nat} {item : α} (size : α → Nat)
    (there : items[index]? = some item) (other : α) :
    ((items.set index other).map size).sum + size item = (items.map size).sum + size other := by
  induction items generalizing index with
  | nil => cases there
  | cons first rest inductionHypothesis =>
      cases index with
      | zero =>
          cases there
          simp only [List.set_cons_zero, List.map_cons, List.sum_cons]
          omega
      | succ index =>
          have later := inductionHypothesis there
          simp only [List.set_cons_succ, List.map_cons, List.sum_cons]
          omega

/-- A state that the tunnel can reach alone. -/
def Member.Alone (member : Member) : Prop :=
  ∃ poolSize accounts, Leads Tunnel.step (.startWith poolSize accounts) member.tunnel

namespace Fleet

/-- No permit is lost or made, and every tunnel does what it could do alone. -/
structure Accounted (fleet : Fleet) : Prop where
  permits : fleet.free + (fleet.members.map Member.held).sum = maxConcurrentHandshakes
  kept : ∀ member ∈ fleet.members, member.Kept
  alone : ∀ member ∈ fleet.members, member.Alone

theorem accounted_start : start.Accounted where
  permits := rfl
  kept := fun _ among => absurd among List.not_mem_nil
  alone := fun _ among => absurd among List.not_mem_nil

variable {self : Fleet}

theorem Accounted.put (accounted : self.Accounted) {index : Nat} {member : Member}
    (there : self.members[index]? = some member) {result : Nat × Member}
    (kept : result.2.Kept ∧ result.1 + result.2.held = self.free + member.held)
    (alone : result.2.Alone) : (self.put index result).Accounted where
  permits := by
    have sums := sum_set Member.held there result.2
    have before := accounted.permits
    have same := kept.2
    simp only [Fleet.put]
    omega
  kept other among := by
    rcases List.mem_or_eq_of_mem_set among with old | rfl
    · exact accounted.kept other old
    · exact kept.1
  alone other among := by
    rcases List.mem_or_eq_of_mem_set among with old | rfl
    · exact accounted.alone other old
    · exact alone

theorem Accounted.step (accounted : self.Accounted) (action : FleetStep) :
    (self.step action).Accounted := by
  cases action with
  | startWith poolSize accounts =>
      refine ⟨?_, ?_, ?_⟩
      · simpa [Fleet.step, Member.held, Member.startWith, Tunnel.startWith, ManagerPhase.permits]
          using accounted.permits
      · intro member among
        rcases List.mem_append.mp among with old | new
        · exact accounted.kept member old
        · rw [List.mem_singleton.mp new]
          exact .nil
      · intro member among
        rcases List.mem_append.mp among with old | new
        · exact accounted.alone member old
        · rw [List.mem_singleton.mp new]
          exact ⟨poolSize, accounts, Leads.refl _ _⟩
  | act index action =>
      rw [Fleet.step]
      split
      case h_1 member there =>
        have among := List.mem_of_getElem? there
        obtain ⟨poolSize, accounts, leads⟩ := accounted.alone member among
        refine accounted.put there ((accounted.kept member among).act self.free action)
          ⟨poolSize, accounts, ?_⟩
        rcases member.act_tunnel self.free action with same | ⟨next, same⟩
        · exact same ▸ leads
        · exact same ▸ leads.next next
      case h_2 => exact accounted
  | release index task =>
      rw [Fleet.step]
      split
      case h_1 member there =>
        have among := List.mem_of_getElem? there
        refine accounted.put there ((accounted.kept member among).release self.free task) ?_
        rw [Member.Alone, Member.release_tunnel]
        exact accounted.alone member among
      case h_2 => exact accounted

/-- The tasks that are in `Session::connect`. -/
def connecting (self : Fleet) : Nat :=
  (self.members.map fun member => member.tunnel.tasks.countP TaskPhase.connects).sum

/-- No manager is between `try_acquire_owned` and `spawn`, and all tasks are done. -/
def Idle (self : Fleet) : Prop :=
  ∀ member ∈ self.members,
    member.tunnel.manager.permits = 0 ∧ ∀ phase ∈ member.tunnel.tasks, phase = .done

/-- The tunnels share the handshakes. -/
structure Shares (fleet : Fleet) : Prop where
  atMost : fleet.connecting ≤ maxConcurrentHandshakes
  accounted : fleet.free + (fleet.members.map Member.held).sum = maxConcurrentHandshakes
  returned : fleet.Idle → fleet.free = maxConcurrentHandshakes
  alone : ∀ member ∈ fleet.members, member.Alone

theorem Accounted.shares (accounted : self.Accounted) : self.Shares where
  atMost := by
    have each : self.connecting ≤ (self.members.map Member.held).sum := by
      apply List.sum_le_sum
      intro member among
      exact Nat.le_trans (countP_connects_le (accounted.kept member among)) (Nat.le_add_right _ _)
    have all := accounted.permits
    omega
  accounted := accounted.permits
  returned idle := by
    have none : (self.members.map Member.held).sum = 0 := by
      apply List.sum_eq_zero
      intro count among
      obtain ⟨member, isMember, rfl⟩ := List.mem_map.mp among
      rw [Member.held, (idle member isMember).1,
        count_permits_done (accounted.kept member isMember) (idle member isMember).2, Nat.add_zero]
    have all := accounted.permits
    omega
  alone := accounted.alone

/-- In every run of any number of tunnels, started and dropped at any time, at most
eight handshakes go on in the process, no permit is lost or made, all are free again
once no manager holds one and all tasks are done, and every tunnel does what it could
do alone. -/
theorem handshakes_shared (steps : List FleetStep) : (run step start steps).Shares := by
  have kept (fleet : Fleet) (action : FleetStep) (accounted : fleet.Accounted) :
      (fleet.step action).Accounted := accounted.step action
  exact (run_always kept steps accounted_start).shares

end Fleet

end Unroxy.Ssh
