import Mathlib.Data.List.Count
import Unroxy.Lib.Run
import Unroxy.Proxy.Select
import Unroxy.Vpn.Account

/-!
Owns one VPN account in the running program: the region's pool, the loop of
`Vpn::supervise`, the reaper, the warm task that `Vpn::attach` starts, and the
requests that are under way.

A step is what one task does between two awaits. Which task goes next, how a
connection attempt ends, which other tunnels are ready and how much time passes
are the action's; the tunnel mutex goes to any task that waits for it. A request
that looks at a region's merged pool sees this pool's candidates and those of
its other children, which are the action's too.

Does not own the other accounts of the region, whose place in the pool is the
environment's.
-/

namespace Unroxy.Vpn

open Unroxy.Lib
open Unroxy.Proxy

/-! ### The region's pool -/

def keyOf (name : String) : String := "openvpn://" ++ name

/-- A tunnel is known by its account's name. -/
def proxyFor (name : String) : PoolProxy String where
  key := keyOf name
  tunnel := name
  priority := 0
  protocol := .vpn

/-- What a pass of `supervise` does about one account. -/
def superviseAccount (pool : ProxyPool String) (name : String) (usable : Bool) :
    ProxyPool String :=
  match usable, pool.contains (keyOf name) with
  | true, false => pool.push (proxyFor name)
  | false, true => pool.remove (keyOf name)
  | _, _ => pool

/-! ### Tasks and steps -/

def maxAttempts : Nat := 6

def readyTimeout : Nat := 40 * 1000

/-- Where a task is. -/
inductive Phase where
  /-- `warm`, before it has the tunnel lock. -/
  | warm
  /-- A `CONNECT` request in the loop of `select`. -/
  | selecting
  /-- It chose this account: in `dial`, before it has the tunnel lock. -/
  | dialing
  /-- In `connect`, with the tunnel lock, since `now`. -/
  | connecting (dials : Bool) (now : Nat)
  /-- In `open`, which has the tunnel. -/
  | opening (id : Nat)
  /-- It copies, and holds a `Guard`. -/
  | serving (id : Nat)
  /-- A plain request in the loop of `ready_candidate`. -/
  | choosing (protocol : Option Protocol) (attempts : Nat) (tried : List String)
      (deadline : Nat)
  /-- A plain request that is sent through the bridge of an exit. -/
  | sending (protocol : Option Protocol) (attempts : Nat) (tried : List String) (key : String)
  | done
deriving DecidableEq, Repr

/-- How sending a plain request through an exit ends. -/
inductive Answer where
  | response
  | noClient
  | failed
deriving DecidableEq, Repr

structure Runtime where
  account : Account
  pool : ProxyPool String
  holder : Option Nat
  tasks : List Phase
  instant : Nat
  wall : Nat

inductive Action where
  /-- Time passes. -/
  | tick (elapsed : Nat)
  /-- The system clock is set. -/
  | adjust (wall : Nat)
  /-- A `CONNECT` request comes in. -/
  | connect
  /-- Another request comes in. -/
  | request (protocol : Option Protocol) (retryable : Bool)
  /-- A turn of the loop that chooses an exit: which other tunnels are ready, and
  what the merged pool's other children have. -/
  | look (task : Nat) (ready : String → Bool) (elsewhere : List (Candidate String))
  /-- The answer to a plain request. -/
  | answer (task : Nat) (answer : Answer)
  /-- The task gets the tunnel lock. -/
  | lock (task : Nat)
  /-- The connection attempt ends. -/
  | attempt (task : Nat) (attempt : Attempt)
  /-- `open` of the tunnel returns. -/
  | opened (task : Nat) (success : Bool)
  /-- The stream is dropped. -/
  | close (task : Nat)
  /-- The client goes away, and its request is dropped. -/
  | abandon (task : Nat)
  | reap
  | supervise
  /-- A pass of `supervise` gets to another account. -/
  | superviseOther (name : String) (usable : Bool)

namespace Runtime

/-- After `attach`: the account is not ready, so it is not in the pool. -/
def attach (instant wall : Nat) : Runtime where
  account := Account.new
  pool := .node Proxies.empty 0 []
  holder := none
  tasks := [.warm]
  instant
  wall

def become (self : Runtime) (task : Nat) (phase : Phase) : Runtime :=
  { self with tasks := self.tasks.set task phase }

/-- A candidate is ready if its tunnel is. -/
def isReady (self : Runtime) (name : String) (ready : String → Bool)
    (candidate : Candidate String) : Bool :=
  if candidate.tunnel = name then self.account.bridgeReady else ready candidate.tunnel

/-- Candidates of other pools, which this account is not in. -/
def others (name : String) (elsewhere : List (Candidate String)) : List (Candidate String) :=
  elsewhere.filter fun candidate => candidate.tunnel ≠ name

/-- A turn of `select`. -/
def select (self : Runtime) (name : String) (task : Nat) (ready : String → Bool)
    (elsewhere : List (Candidate String)) : Runtime :=
  let (candidates, pool) := self.pool.candidates
  let self := { self with pool }
  match selectTurn (self.isReady name ready) (candidates ++ others name elsewhere) with
  | .none => self.become task .done
  | .found candidate =>
      -- Another exit's connection is no longer this account's matter.
      self.become task (if candidate.tunnel = name then .dialing else .done)
  | .again => self

/-- A turn of `ready_candidate`. -/
def readyCandidate (self : Runtime) (name : String) (task : Nat) (ready : String → Bool)
    (elsewhere : List (Candidate String)) (protocol : Option Protocol) (attempts : Nat)
    (tried : List String) (deadline : Nat) : Runtime :=
  if self.instant ≥ deadline then
    self.become task .done
  else
    let (candidates, pool) := self.pool.filtered protocol
    let self := { self with pool }
    match readyCandidateTurn (self.isReady name ready) tried
        (candidates ++ others name elsewhere) with
    | .none => self.become task .done
    | .found candidate => self.become task (.sending protocol attempts tried candidate.key)
    | .again => self

/-- The next attempt of a plain request. -/
def retry (self : Runtime) (task : Nat) (protocol : Option Protocol) (attempts : Nat)
    (tried : List String) : Runtime :=
  if attempts ≤ 1 then
    self.become task .done
  else
    self.become task (.choosing protocol (attempts - 1) tried (self.instant + readyTimeout))

/-- `live`, from the lock on. `dials` tells `open` from `warm`. -/
def live (self : Runtime) (task : Nat) (dials : Bool) : Runtime :=
  match self.account.live self.wall with
  | (.tunnel id, account) =>
      { self with account }.become task (if dials then .opening id else .done)
  | (.backoff, account) => { self with account }.become task .done
  | (.connect, account) =>
      { self with account, holder := some task }.become task (.connecting dials self.wall)

/-- The rest of `live`, once the connection attempt has ended. -/
def finish (self : Runtime) (task : Nat) (dials : Bool) (now : Nat) (attempt : Attempt) :
    Runtime :=
  let account := self.account.connect now attempt
  { self with account, holder := none }.become task
    (match attempt with
    | .up _ => if dials then .opening self.account.lives.length else .done
    | .bridgeFailed | .tunnelFailed => .done)

end Runtime

/-- One step of the program, as the account named `name` sees it. An action that
is not possible changes nothing. -/
def step (name : String) (config : Config) (self : Runtime) : Action → Runtime
  | .tick elapsed => { self with instant := self.instant + elapsed, wall := self.wall + elapsed }
  | .adjust wall => { self with wall }
  | .connect => { self with tasks := self.tasks ++ [.selecting] }
  | .request protocol retryable =>
      let attempts := if retryable then maxAttempts else 1
      { self with tasks := self.tasks ++
        [.choosing protocol attempts [] (self.instant + readyTimeout)] }
  | .look task ready elsewhere =>
      match self.tasks[task]? with
      | some .selecting => self.select name task ready elsewhere
      | some (.choosing protocol attempts tried deadline) =>
          self.readyCandidate name task ready elsewhere protocol attempts tried deadline
      | _ => self
  | .answer task answer =>
      match self.tasks[task]? with
      | some (.sending protocol attempts tried key) =>
          match answer with
          | .response => self.become task .done
          | .noClient => self.retry task protocol attempts tried
          | .failed => self.retry task protocol attempts (tried ++ [key])
      | _ => self
  | .lock task =>
      match self.holder, self.tasks[task]? with
      | none, some .warm => self.live task false
      | none, some .dialing => self.live task true
      | _, _ => self
  | .attempt task attempt =>
      match self.tasks[task]? with
      | some (.connecting dials now) => self.finish task dials now attempt
      | _ => self
  | .opened task success =>
      match self.tasks[task]? with
      | some (.opening id) =>
          if success then { self with account := self.account.guard id }.become task (.serving id)
          else self.become task .done
      | _ => self
  | .close task =>
      match self.tasks[task]? with
      | some (.serving id) =>
          { self with account := self.account.dropGuard id self.instant }.become task .done
      | _ => self
  | .abandon task =>
      match self.tasks[task]? with
      | some (.connecting true _) => { self with holder := none }.become task .done
      | some .selecting | some .dialing | some (.opening _) | some (.choosing ..)
      | some (.sending ..) => self.become task .done
      | _ => self
  | .reap =>
      match self.holder with
      | none => { self with account := self.account.reap config self.instant }
      | some _ => self
  | .supervise =>
      { self with pool := superviseAccount self.pool name self.account.bridgeReady }
  | .superviseOther other usable =>
      if other = name then self else { self with pool := superviseAccount self.pool other usable }

/-! ### The holder of the tunnel lock -/

/-- The lock is held across an await by a task in `connect`, and by no other. -/
def Held (holder : Option Nat) (tasks : List Phase) : Prop :=
  ∀ task, holder = some task ↔ ∃ dials now, tasks[task]? = some (.connecting dials now)

def Phase.Connects (phase : Phase) : Prop := ∃ dials now, phase = .connecting dials now

private theorem getElem?_set_at {tasks : List Phase} {task : Nat} {before : Phase}
    (atTask : tasks[task]? = some before) (after : Phase) :
    (tasks.set task after)[task]? = some after :=
  List.getElem?_set_self (List.getElem?_eq_some_iff.mp atTask).1

theorem Held.set {holder : Option Nat} {tasks : List Phase} (held : Held holder tasks) {task : Nat}
    {before after : Phase} (atTask : tasks[task]? = some before) (idle : ¬ before.Connects)
    (stays : ¬ after.Connects) : Held holder (tasks.set task after) := by
  intro other
  by_cases same : other = task
  · subst same
    rw [held other, atTask, getElem?_set_at atTask]
    constructor
    · intro connecting
      rcases connecting with ⟨dials, now, connects⟩
      exact absurd ⟨dials, now, Option.some.inj connects⟩ idle
    · intro connecting
      rcases connecting with ⟨dials, now, connects⟩
      exact absurd ⟨dials, now, Option.some.inj connects⟩ stays
  · rw [held other, List.getElem?_set_ne (Ne.symm same)]

theorem Held.take {tasks : List Phase} (held : Held none tasks) {task : Nat} {before : Phase}
    (atTask : tasks[task]? = some before) (dials : Bool) (now : Nat) :
    Held (some task) (tasks.set task (.connecting dials now)) := by
  intro other
  by_cases same : other = task
  · subst same
    rw [getElem?_set_at atTask]
    exact Iff.intro (fun _ => ⟨dials, now, rfl⟩) (fun _ => rfl)
  · rw [List.getElem?_set_ne (Ne.symm same), ← held other]
    constructor
    · intro equal
      exact absurd (Option.some.inj equal).symm same
    · intro impossible
      cases impossible

theorem Held.release {holder : Option Nat} {tasks : List Phase} (held : Held holder tasks)
    {task : Nat} {dials : Bool} {now : Nat}
    (atTask : tasks[task]? = some (.connecting dials now)) {after : Phase}
    (stays : ¬ after.Connects) : Held none (tasks.set task after) := by
  have holds : holder = some task := (held task).mpr ⟨dials, now, atTask⟩
  intro other
  constructor
  · intro impossible
    cases impossible
  · intro connecting
    rcases connecting with ⟨otherDials, otherNow, connects⟩
    by_cases same : other = task
    · subst same
      rw [getElem?_set_at atTask] at connects
      exact absurd ⟨otherDials, otherNow, Option.some.inj connects⟩ stays
    · rw [List.getElem?_set_ne (Ne.symm same)] at connects
      have alsoHolds := (held other).mpr ⟨otherDials, otherNow, connects⟩
      rw [holds] at alsoHolds
      exact absurd (Option.some.inj alsoHolds).symm same

theorem Held.append {holder : Option Nat} {tasks : List Phase} (held : Held holder tasks)
    {phase : Phase} (stays : ¬ phase.Connects) : Held holder (tasks ++ [phase]) := by
  intro other
  rw [held other]
  constructor
  · intro connecting
    rcases connecting with ⟨dials, now, connects⟩
    have below := (List.getElem?_eq_some_iff.mp connects).1
    exact ⟨dials, now, by rwa [List.getElem?_append_left below]⟩
  · intro connecting
    rcases connecting with ⟨dials, now, connects⟩
    by_cases below : other < tasks.length
    · exact ⟨dials, now, by rwa [List.getElem?_append_left below] at connects⟩
    · rw [List.getElem?_append_right (by omega)] at connects
      have member := List.mem_of_getElem? connects
      exact absurd ⟨dials, now, (List.mem_singleton.mp member).symm⟩ stays

/-! ### Guards and the connections they are counted in -/

/-- The tunnel a task works with. -/
def Phase.tunnel : Phase → Option Nat
  | .opening id | .serving id => some id
  | _ => none

/-- It has neither the lock nor a `Guard`. -/
def Phase.idle : Phase → Bool
  | .connecting .. | .serving _ => false
  | _ => true

theorem Phase.not_connects_of_idle {phase : Phase} (idle : phase.idle = true) :
    ¬ phase.Connects := by
  rintro ⟨dials, now, rfl⟩
  cases idle

theorem Phase.ne_serving_of_idle {phase : Phase} (idle : phase.idle = true) (id : Nat) :
    phase ≠ .serving id := by
  rintro rfl
  cases idle

/-- Each tunnel counts the tasks that hold a `Guard` of it. -/
structure Guarded (lives : List Live) (tasks : List Phase) : Prop where
  counted : ∀ id live, lives[id]? = some live →
    live.connections = tasks.count (.serving id)
  inside : ∀ phase ∈ tasks, ∀ id, phase.tunnel = some id → id < lives.length

private theorem count_serving_set {tasks : List Phase} {task : Nat} {before : Phase}
    (atTask : tasks[task]? = some before) (after : Phase) (id : Nat) :
    (tasks.set task after).count (.serving id) + (if before = .serving id then 1 else 0) =
      tasks.count (.serving id) + if after = .serving id then 1 else 0 := by
  obtain ⟨below, atIndex⟩ := List.getElem?_eq_some_iff.mp atTask
  rw [List.count_set below, atIndex]
  simp only [beq_iff_eq]
  by_cases served : before = .serving id
  · have present : 0 < tasks.count (.serving id) :=
      List.count_pos_iff.mpr (served ▸ List.mem_of_getElem? atTask)
    rw [if_pos served]
    omega
  · rw [if_neg served]
    omega

private theorem inside_set {lives : List Live} {tasks : List Phase} {task : Nat} {after : Phase}
    (inside : ∀ phase ∈ tasks, ∀ id, phase.tunnel = some id → id < lives.length)
    (within : ∀ id, after.tunnel = some id → id < lives.length) :
    ∀ phase ∈ tasks.set task after, ∀ id, phase.tunnel = some id → id < lives.length := by
  intro phase member
  rcases List.mem_or_eq_of_mem_set member with old | new
  · exact inside phase old
  · rw [new]
    exact within

/-- A task that neither takes nor drops a `Guard`. -/
theorem Guarded.set {lives : List Live} {tasks : List Phase} (guarded : Guarded lives tasks)
    {task : Nat} {before after : Phase} (atTask : tasks[task]? = some before)
    (idle : ∀ id, before ≠ .serving id) (stays : ∀ id, after ≠ .serving id)
    (within : ∀ id, after.tunnel = some id → id < lives.length) :
    Guarded lives (tasks.set task after) where
  counted := by
    intro id live found
    have count := count_serving_set atTask after id
    rw [if_neg (idle id), if_neg (stays id)] at count
    rw [guarded.counted id live found]
    omega
  inside := inside_set guarded.inside within

theorem Guarded.append {lives : List Live} {tasks : List Phase} (guarded : Guarded lives tasks)
    {phase : Phase} (idle : phase.tunnel = none) : Guarded lives (tasks ++ [phase]) where
  counted := by
    intro id live found
    have other : phase ≠ .serving id := by
      intro serves
      rw [serves] at idle
      cases idle
    rw [guarded.counted id live found, List.count_append, List.count_singleton,
      if_neg (by simpa using other), Nat.add_zero]
  inside := by
    intro present member id works
    rcases List.mem_append.mp member with old | new
    · exact guarded.inside present old id works
    · rw [List.mem_singleton.mp new, idle] at works
      cases works

/-- Only the idle clocks of the tunnels change. -/
theorem Guarded.clocks {lives later : List Live} {tasks : List Phase}
    (guarded : Guarded lives tasks)
    (same : later.map Live.connections = lives.map Live.connections) : Guarded later tasks where
  counted := by
    intro id live found
    have entry := congrArg (fun counts => counts[id]?) same
    simp only [List.getElem?_map, found, Option.map_some] at entry
    obtain ⟨old, oldFound, oldCount⟩ := Option.map_eq_some_iff.mp entry.symm
    rw [← oldCount]
    exact guarded.counted id old oldFound
  inside := by
    have length := congrArg List.length same
    rw [List.length_map, List.length_map] at length
    rw [length]
    exact guarded.inside

/-- A tunnel comes up. -/
theorem Guarded.grow {lives : List Live} {tasks : List Phase} (guarded : Guarded lives tasks) :
    Guarded (lives ++ [{ connections := 0, idleSince := none }]) tasks where
  counted := by
    intro id live found
    by_cases old : id < lives.length
    · rw [List.getElem?_append_left old] at found
      exact guarded.counted id live found
    · have fresh : tasks.count (.serving id) = 0 := by
        apply List.count_eq_zero.mpr
        intro serves
        exact old (guarded.inside _ serves id rfl)
      rw [List.getElem?_append_right (by omega)] at found
      rw [fresh, List.mem_singleton.mp (List.mem_of_getElem? found)]
  inside := by
    intro phase member id works
    have below := guarded.inside phase member id works
    rw [List.length_append]
    omega

theorem Guarded.guard {account : Account} {tasks : List Phase}
    (guarded : Guarded account.lives tasks) {task id : Nat}
    (atTask : tasks[task]? = some (.opening id)) :
    Guarded (account.guard id).lives (tasks.set task (.serving id)) where
  counted := by
    intro other live found
    have count := count_serving_set atTask (.serving id) other
    rw [if_neg (by simp)] at count
    rw [Account.guard, List.getElem?_modify] at found
    obtain ⟨old, oldFound, rfl⟩ := Option.map_eq_some_iff.mp found
    have oldCount := guarded.counted other old oldFound
    by_cases same : id = other
    · rw [if_pos same]
      rw [if_pos (by rw [same])] at count
      change old.connections + 1 = _
      omega
    · rw [if_neg same]
      rw [if_neg (by simpa using same)] at count
      omega
  inside := by
    rw [Account.guard]
    dsimp only
    rw [List.length_modify]
    apply inside_set guarded.inside
    intro other works
    cases works
    exact guarded.inside _ (List.mem_of_getElem? atTask) id rfl

theorem Guarded.drop {account : Account} {tasks : List Phase}
    (guarded : Guarded account.lives tasks) {task id : Nat}
    (atTask : tasks[task]? = some (.serving id)) (now : Nat) :
    Guarded (account.dropGuard id now).lives (tasks.set task .done) where
  counted := by
    intro other live found
    have count := count_serving_set atTask .done other
    rw [if_neg (show Phase.done ≠ .serving other by simp)] at count
    rw [Account.dropGuard, List.getElem?_modify] at found
    obtain ⟨old, oldFound, rfl⟩ := Option.map_eq_some_iff.mp found
    have oldCount := guarded.counted other old oldFound
    by_cases same : id = other
    · rw [if_pos same]
      rw [if_pos (by rw [same])] at count
      change old.connections - 1 = _
      omega
    · rw [if_neg same]
      rw [if_neg (by simpa using same)] at count
      omega
  inside := by
    rw [Account.dropGuard]
    dsimp only
    rw [List.length_modify]
    apply inside_set guarded.inside
    intro other works
    cases works

/-! ### The region's pool holds accounts -/

theorem keyOf_injective : Function.Injective keyOf :=
  fun _ _ same => (String.append_right_inj "openvpn://").mp same

/-- The pool has no children, and its entries are those of `proxy_for`. -/
def Accounts (pool : ProxyPool String) : Prop :=
  ∃ proxies rotation, pool = .node proxies rotation [] ∧
    ∀ proxy ∈ proxies.list, proxy = proxyFor proxy.tunnel

theorem Accounts.filtered {pool : ProxyPool String} (accounts : Accounts pool)
    (protocol : Option Protocol) : Accounts (pool.filtered protocol).2 := by
  obtain ⟨proxies, rotation, rfl, entries⟩ := accounts
  obtain ⟨next, same⟩ := ProxyPool.filtered_snd protocol proxies rotation []
  exact ⟨proxies, next, same, entries⟩

theorem Accounts.supervise {pool : ProxyPool String} (accounts : Accounts pool) (name : String)
    (usable : Bool) : Accounts (superviseAccount pool name usable) := by
  have kept := accounts
  obtain ⟨proxies, rotation, rfl, entries⟩ := accounts
  unfold superviseAccount
  split
  · refine ⟨proxies.push (proxyFor name), rotation, rfl, ?_⟩
    intro proxy member
    unfold Proxies.push at member
    split at member
    · exact entries proxy member
    · rcases List.mem_append.mp member with old | new
      · exact entries proxy old
      · rw [List.mem_singleton.mp new]
        rfl
  · refine ⟨proxies.remove (keyOf name), rotation, rfl, ?_⟩
    intro proxy member
    exact entries proxy (List.mem_of_mem_filter member)
  · exact kept

/-- After its pass, an account that is usable is in the pool. -/
theorem mem_supervise {pool : ProxyPool String} (accounts : Accounts pool) (name : String) :
    proxyFor name ∈ (superviseAccount pool name true).all := by
  obtain ⟨proxies, rotation, rfl, entries⟩ := accounts
  unfold superviseAccount
  cases present : (ProxyPool.node proxies rotation []).contains (keyOf name) with
  | false =>
      have absent : (proxyFor name).key ∉ proxies.list.map PoolProxy.key := by
        intro listed
        rw [ProxyPool.contains, ProxyPool.all, ProxyPool.collectAll, List.any_eq_false] at present
        obtain ⟨proxy, member, same⟩ := List.mem_map.mp listed
        exact present proxy member (decide_eq_true same)
      change proxyFor name ∈ (ProxyPool.node (proxies.push (proxyFor name)) rotation []).all
      rw [ProxyPool.all, ProxyPool.collectAll, Proxies.push, dif_neg absent]
      exact List.mem_append_right _ (List.mem_singleton_self _)
  | true =>
      rw [ProxyPool.contains, List.any_eq_true] at present
      obtain ⟨proxy, member, same⟩ := present
      have inList : proxy ∈ proxies.list := by
        rwa [ProxyPool.all, ProxyPool.collectAll] at member
      have entry := entries proxy inList
      have isName : proxy.tunnel = name := by
        apply keyOf_injective
        rw [← of_decide_eq_true same, entry]
        rfl
      rw [isName] at entry
      rw [← entry]
      exact member

/-! ### The invariant of every run -/

structure Runtime.Consistent (runtime : Runtime) : Prop where
  account : runtime.account.Consistent
  held : Held runtime.holder runtime.tasks
  empty : runtime.holder ≠ none → runtime.account.slot = none
  guarded : Guarded runtime.account.lives runtime.tasks
  accounts : Accounts runtime.pool

namespace Runtime

theorem consistent_attach (instant wall : Nat) : (attach instant wall).Consistent where
  account := Account.consistent_new
  held := by
    intro task
    constructor
    · intro impossible
      cases impossible
    · intro connecting
      rcases connecting with ⟨dials, now, connects⟩
      have member := List.mem_of_getElem? connects
      cases List.mem_singleton.mp member
  empty := fun held => absurd rfl held
  guarded := by
    constructor
    · intro id live found
      cases found
    · intro phase member id works
      rw [List.mem_singleton.mp member] at works
      cases works
  accounts := ⟨Proxies.empty, 0, rfl, fun _ member => absurd member List.not_mem_nil⟩

/-- `connect` runs while the slot is empty. -/
theorem Consistent.empty_of_connecting {runtime : Runtime} (consistent : runtime.Consistent)
    {task : Nat} {dials : Bool} {now : Nat}
    (atTask : runtime.tasks[task]? = some (.connecting dials now)) :
    runtime.account.slot = none := by
  apply consistent.empty
  rw [(consistent.held task).mpr ⟨dials, now, atTask⟩]
  exact Option.some_ne_none task

/-- A task that moves between phases in which it has neither the lock nor a
`Guard`. -/
theorem Consistent.become {runtime : Runtime} (consistent : runtime.Consistent) {task : Nat}
    {before after : Phase} (atTask : runtime.tasks[task]? = some before)
    (idle : before.idle = true) (stays : after.idle = true)
    (within : ∀ id, after.tunnel = some id → id < runtime.account.lives.length) :
    (runtime.become task after).Consistent where
  account := consistent.account
  held := consistent.held.set atTask (Phase.not_connects_of_idle idle)
    (Phase.not_connects_of_idle stays)
  empty := consistent.empty
  guarded := consistent.guarded.set atTask (Phase.ne_serving_of_idle idle)
    (Phase.ne_serving_of_idle stays) within
  accounts := consistent.accounts

/-- The same for a task that lets go of the tunnel. -/
theorem Consistent.leave {runtime : Runtime} (consistent : runtime.Consistent) {task : Nat}
    {before after : Phase} (atTask : runtime.tasks[task]? = some before)
    (idle : before.idle = true) (stays : after.idle = true) (free : after.tunnel = none) :
    (runtime.become task after).Consistent := by
  apply consistent.become atTask idle stays
  intro id works
  rw [free] at works
  cases works

theorem Consistent.arrive {runtime : Runtime} (consistent : runtime.Consistent) {phase : Phase}
    (idle : phase.idle = true) (free : phase.tunnel = none) :
    Consistent { runtime with tasks := runtime.tasks ++ [phase] } where
  account := consistent.account
  held := consistent.held.append (Phase.not_connects_of_idle idle)
  empty := consistent.empty
  guarded := consistent.guarded.append free
  accounts := consistent.accounts

theorem Consistent.pool {runtime : Runtime} (consistent : runtime.Consistent)
    {pool : ProxyPool String} (accounts : Accounts pool) : Consistent { runtime with pool } where
  account := consistent.account
  held := consistent.held
  empty := consistent.empty
  guarded := consistent.guarded
  accounts := accounts

theorem consistent_select {runtime : Runtime} (consistent : runtime.Consistent) {task : Nat}
    (atTask : runtime.tasks[task]? = some .selecting) (name : String) (ready : String → Bool)
    (elsewhere : List (Candidate String)) :
    (runtime.select name task ready elsewhere).Consistent := by
  have looked := consistent.pool (consistent.accounts.filtered none)
  unfold select
  dsimp only
  split
  · exact looked.leave atTask rfl rfl rfl
  · split
    · exact looked.leave atTask rfl rfl rfl
    · exact looked.leave atTask rfl rfl rfl
  · exact looked

theorem consistent_readyCandidate {runtime : Runtime} (consistent : runtime.Consistent)
    {task : Nat} {protocol : Option Protocol} {attempts : Nat} {tried : List String}
    {deadline : Nat}
    (atTask : runtime.tasks[task]? = some (.choosing protocol attempts tried deadline))
    (name : String) (ready : String → Bool) (elsewhere : List (Candidate String)) :
    (runtime.readyCandidate name task ready elsewhere protocol attempts tried
      deadline).Consistent := by
  have looked := consistent.pool (consistent.accounts.filtered protocol)
  unfold readyCandidate
  split
  · exact consistent.leave atTask rfl rfl rfl
  · dsimp only
    split
    · exact looked.leave atTask rfl rfl rfl
    · exact looked.leave atTask rfl rfl rfl
    · exact looked

theorem consistent_retry {runtime : Runtime} (consistent : runtime.Consistent) {task : Nat}
    {before : Phase} (atTask : runtime.tasks[task]? = some before) (idle : before.idle = true)
    (protocol : Option Protocol) (attempts : Nat) (tried : List String) :
    (runtime.retry task protocol attempts tried).Consistent := by
  unfold retry
  split
  · exact consistent.leave atTask idle rfl rfl
  · exact consistent.leave atTask idle rfl rfl

/-- `live` is entered while nobody has the lock. -/
theorem consistent_live {runtime : Runtime} (consistent : runtime.Consistent) {task : Nat}
    {before : Phase} (atTask : runtime.tasks[task]? = some before) (idle : before.idle = true)
    (unlocked : runtime.holder = none) (dials : Bool) :
    (runtime.live task dials).Consistent := by
  have reset : Consistent { runtime with account := (runtime.account.live runtime.wall).2 } :=
    { consistent with
      account := Account.consistent_live consistent.account runtime.wall
      empty := fun held => absurd unlocked held
      guarded := consistent.guarded.clocks (Account.live_connections _ _) }
  rcases Account.live_cases runtime.account runtime.wall with
    ⟨id, later, filled, outcome, kept⟩ | ⟨empty, early, outcome⟩ | ⟨empty, due, outcome⟩
  · unfold live
    rw [outcome] at reset ⊢
    cases dials with
    | true =>
        apply reset.become atTask idle rfl
        intro other works
        cases works
        exact reset.account.inside id kept
    | false => exact reset.leave atTask idle rfl rfl
  · unfold live
    rw [outcome]
    exact consistent.leave atTask idle rfl rfl
  · unfold live
    rw [outcome]
    exact
      { consistent with
        held := (unlocked ▸ consistent.held).take atTask dials runtime.wall
        empty := fun _ => empty
        guarded := consistent.guarded.set atTask (Phase.ne_serving_of_idle idle)
          (fun _ serves => by cases serves) (fun _ works => by cases works) }

/-- A task in `connect` gives up, and the lock with it. -/
theorem Consistent.release {runtime : Runtime} (consistent : runtime.Consistent) {task : Nat}
    {dials : Bool} {now : Nat}
    (atTask : runtime.tasks[task]? = some (.connecting dials now)) {account : Account}
    (accountConsistent : account.Consistent) (lives : account.lives = runtime.account.lives) :
    ({ runtime with account, holder := none }.become task .done).Consistent where
  account := accountConsistent
  held := consistent.held.release atTask (Phase.not_connects_of_idle rfl)
  empty := fun held => absurd rfl held
  guarded := by
    have same : Guarded account.lives runtime.tasks := lives ▸ consistent.guarded
    apply same.set atTask
    · intro id serves
      cases serves
    · exact Phase.ne_serving_of_idle rfl
    · intro id works
      cases works
  accounts := consistent.accounts

theorem consistent_finish {runtime : Runtime} (consistent : runtime.Consistent) {task : Nat}
    {dials : Bool} {now : Nat}
    (atTask : runtime.tasks[task]? = some (.connecting dials now)) (attempt : Attempt) :
    (runtime.finish task dials now attempt).Consistent := by
  have empty := consistent.empty_of_connecting atTask
  have account := Account.consistent_connect consistent.account empty now attempt
  have idle (id : Nat) : Phase.connecting dials now ≠ .serving id := by
    intro serves
    cases serves
  cases attempt with
  | up port =>
      refine
        { consistent with
          account
          held := consistent.held.release atTask ?_
          empty := fun held => absurd rfl held
          guarded := consistent.guarded.grow.set atTask idle ?_ ?_ }
      · cases dials <;> exact Phase.not_connects_of_idle rfl
      · cases dials <;> exact Phase.ne_serving_of_idle rfl
      · intro id works
        cases dials with
        | true =>
            cases works
            simp
        | false => cases works
  | bridgeFailed => exact consistent.release atTask account rfl
  | tunnelFailed => exact consistent.release atTask account rfl

private theorem consistent_abandon {runtime : Runtime} (consistent : runtime.Consistent)
    (name : String) (config : Config) (task : Nat) :
    (step name config runtime (.abandon task)).Consistent := by
  unfold step
  dsimp only
  split
  · next now atTask => exact consistent.release atTask consistent.account rfl
  · next atTask => exact consistent.leave atTask rfl rfl rfl
  · next atTask => exact consistent.leave atTask rfl rfl rfl
  · next atTask => exact consistent.leave atTask rfl rfl rfl
  · next atTask => exact consistent.leave atTask rfl rfl rfl
  · next atTask => exact consistent.leave atTask rfl rfl rfl
  · exact consistent

/-- Every step keeps the invariant. -/
theorem consistent_step {runtime : Runtime} (consistent : runtime.Consistent) (name : String)
    (config : Config) (action : Action) : (step name config runtime action).Consistent := by
  cases action with
  | tick elapsed => exact { consistent with }
  | adjust wall => exact { consistent with }
  | connect => exact consistent.arrive rfl rfl
  | request protocol retryable => exact consistent.arrive rfl rfl
  | look task ready elsewhere =>
      unfold step
      dsimp only
      split
      · next atTask => exact consistent_select consistent atTask name ready elsewhere
      · next atTask => exact consistent_readyCandidate consistent atTask name ready elsewhere
      · exact consistent
  | answer task answer =>
      unfold step
      dsimp only
      split
      · next atTask =>
          cases answer with
          | response => exact consistent.leave atTask rfl rfl rfl
          | noClient => exact consistent_retry consistent atTask rfl _ _ _
          | failed => exact consistent_retry consistent atTask rfl _ _ _
      · exact consistent
  | lock task =>
      unfold step
      dsimp only
      split
      · next unlocked atTask => exact consistent_live consistent atTask rfl unlocked false
      · next unlocked atTask => exact consistent_live consistent atTask rfl unlocked true
      · exact consistent
  | attempt task attempt =>
      unfold step
      dsimp only
      split
      · next atTask => exact consistent_finish consistent atTask attempt
      · exact consistent
  | opened task success =>
      unfold step
      dsimp only
      split
      · next id atTask =>
          cases success with
          | true =>
              exact
                { consistent with
                  account := Account.consistent_guard consistent.account id
                  held := consistent.held.set atTask (Phase.not_connects_of_idle rfl)
                    (by rintro ⟨_, _, same⟩; cases same)
                  guarded := consistent.guarded.guard atTask }
          | false => exact consistent.leave atTask rfl rfl rfl
      · exact consistent
  | close task =>
      unfold step
      dsimp only
      split
      · next id atTask =>
          exact
            { consistent with
              account := Account.consistent_dropGuard consistent.account id _
              held := consistent.held.set atTask (by rintro ⟨_, _, same⟩; cases same)
                (Phase.not_connects_of_idle rfl)
              guarded := consistent.guarded.drop atTask _ }
      · exact consistent
  | abandon task => exact consistent_abandon consistent name config task
  | reap =>
      unfold step
      dsimp only
      split
      · next unlocked =>
          exact
            { consistent with
              account := Account.consistent_reap consistent.account config _
              empty := fun held => absurd unlocked held
              guarded := consistent.guarded.clocks (Account.reap_connections _ _ _) }
      · exact consistent
  | supervise => exact consistent.pool (consistent.accounts.supervise name _)
  | superviseOther other usable =>
      unfold step
      dsimp only
      split
      · exact consistent
      · exact consistent.pool (consistent.accounts.supervise other usable)

end Runtime

end Unroxy.Vpn
