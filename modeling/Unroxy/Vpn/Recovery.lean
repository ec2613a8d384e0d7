import Unroxy.Vpn.Runtime

/-!
Owns when an account that is down can come back.

`live` is the only caller of `connect`, and only the warm task and a request
that has chosen the account call `live`. Requests choose it only while it is
ready, and `supervise` only puts it into the pool or takes it out. So an account
that is not ready comes back through a task that is already on its way to
`live`, or never.

Does not own whether a continuation happens.
-/

namespace Unroxy.Vpn

open Unroxy.Lib
open Unroxy.Proxy

/-- It has yet to call `live`, or is in it. -/
def Phase.returns : Phase → Bool
  | .warm | .dialing | .connecting .. => true
  | _ => false

def Awaited (tasks : List Phase) : Prop :=
  ∃ (task : Nat) (phase : Phase), tasks[task]? = some phase ∧ phase.returns = true

/-- A task other than this one is on its way to `live`. -/
def AwaitedBesides (tasks : List Phase) (task : Nat) : Prop :=
  ∃ (other : Nat) (phase : Phase), other ≠ task ∧ tasks[other]? = some phase ∧
    phase.returns = true

theorem awaited_iff {tasks : List Phase} {task : Nat} {phase : Phase}
    (atTask : tasks[task]? = some phase) :
    Awaited tasks ↔ phase.returns = true ∨ AwaitedBesides tasks task := by
  constructor
  · intro awaited
    rcases awaited with ⟨other, found, atOther, returns⟩
    by_cases same : other = task
    · subst same
      rw [atTask] at atOther
      cases atOther
      exact .inl returns
    · exact .inr ⟨other, found, same, atOther, returns⟩
  · intro either
    rcases either with returns | ⟨other, found, _, atOther, returns⟩
    · exact ⟨task, phase, atTask, returns⟩
    · exact ⟨other, found, atOther, returns⟩

theorem awaited_set_iff {tasks : List Phase} {task : Nat} {before : Phase}
    (atTask : tasks[task]? = some before) (after : Phase) :
    Awaited (tasks.set task after) ↔ after.returns = true ∨ AwaitedBesides tasks task := by
  have below := (List.getElem?_eq_some_iff.mp atTask).1
  rw [awaited_iff (List.getElem?_set_self below)]
  apply or_congr_right
  constructor
  · intro besides
    rcases besides with ⟨other, found, different, atOther, returns⟩
    rw [List.getElem?_set_ne (Ne.symm different)] at atOther
    exact ⟨other, found, different, atOther, returns⟩
  · intro besides
    rcases besides with ⟨other, found, different, atOther, returns⟩
    refine ⟨other, found, different, ?_, returns⟩
    rwa [List.getElem?_set_ne (Ne.symm different)]

theorem awaited_append_iff {tasks : List Phase} {phase : Phase} (away : phase.returns = false) :
    Awaited (tasks ++ [phase]) ↔ Awaited tasks := by
  constructor
  · intro awaited
    rcases awaited with ⟨task, found, atTask, returns⟩
    by_cases below : task < tasks.length
    · rw [List.getElem?_append_left below] at atTask
      exact ⟨task, found, atTask, returns⟩
    · rw [List.getElem?_append_right (by omega)] at atTask
      rw [List.mem_singleton.mp (List.mem_of_getElem? atTask), away] at returns
      cases returns
  · intro awaited
    rcases awaited with ⟨task, found, atTask, returns⟩
    have below := (List.getElem?_eq_some_iff.mp atTask).1
    exact ⟨task, found, by rwa [List.getElem?_append_left below], returns⟩

namespace Runtime

/-- The account is ready, or a task is on its way to make it so. -/
def Attended (runtime : Runtime) : Prop :=
  runtime.account.ready = true ∨ Awaited runtime.tasks

/-! ### Steps that give up an account -/

/-- `live` returns because of the backoff. -/
def Refused (runtime : Runtime) (task : Nat) : Prop :=
  runtime.holder = none ∧
    (runtime.tasks[task]? = some .warm ∨ runtime.tasks[task]? = some .dialing) ∧
    (runtime.account.live runtime.wall).1 = .backoff

/-- `connect` returns an error. -/
def Fails (runtime : Runtime) (task : Nat) (attempt : Attempt) : Prop :=
  (∃ dials now, runtime.tasks[task]? = some (.connecting dials now)) ∧
    (attempt = .bridgeFailed ∨ attempt = .tunnelFailed)

/-- The client of a request that is on its way to `live` goes away. -/
def Drops (runtime : Runtime) (task : Nat) : Prop :=
  runtime.tasks[task]? = some .dialing ∨
    ∃ now, runtime.tasks[task]? = some (.connecting true now)

/-- `reap` closes the tunnel. -/
def Closes (config : Config) (runtime : Runtime) : Prop :=
  runtime.holder = none ∧ runtime.account.slot ≠ none ∧
    (runtime.account.reap config runtime.instant).slot = none

/-- A step that ends a way to `live`, or closes the tunnel, leaves another way. -/
def Spared (config : Config) (runtime : Runtime) : Action → Prop
  | .lock task => runtime.Refused task → AwaitedBesides runtime.tasks task
  | .attempt task attempt => runtime.Fails task attempt → AwaitedBesides runtime.tasks task
  | .abandon task => runtime.Drops task →
      runtime.account.ready = true ∨ AwaitedBesides runtime.tasks task
  | .reap => runtime.Closes config → Awaited runtime.tasks
  | _ => True

/-! ### What a step does to being attended -/

private theorem attended_iff {runtime : Runtime} {task : Nat} {phase : Phase}
    (atTask : runtime.tasks[task]? = some phase) :
    runtime.Attended ↔ runtime.account.ready = true ∨ phase.returns = true ∨
      AwaitedBesides runtime.tasks task := by
  rw [Attended, awaited_iff atTask]

private theorem attended_become_iff {runtime : Runtime} {task : Nat} {before : Phase}
    (atTask : runtime.tasks[task]? = some before) (after : Phase) :
    (runtime.become task after).Attended ↔ runtime.account.ready = true ∨ after.returns = true ∨
      AwaitedBesides runtime.tasks task := by
  rw [Attended, become, awaited_set_iff atTask]

/-- A task that was not on its way, and is not unless the account is ready. -/
private theorem attended_become_away {runtime : Runtime} {task : Nat} {before after : Phase}
    (atTask : runtime.tasks[task]? = some before) (away : before.returns = false)
    (chosen : after.returns = true → runtime.account.ready = true) :
    (runtime.become task after).Attended ↔ runtime.Attended := by
  rw [attended_become_iff atTask, attended_iff atTask, away]
  constructor
  · intro either
    rcases either with ready | returns | besides
    · exact .inl ready
    · exact .inl (chosen returns)
    · exact .inr (.inr besides)
  · intro either
    rcases either with ready | impossible | besides
    · exact .inl ready
    · cases impossible
    · exact .inr (.inr besides)

private theorem attended_select {runtime : Runtime} (consistent : runtime.Consistent) {task : Nat}
    (atTask : runtime.tasks[task]? = some .selecting) (name : String) (ready : String → Bool)
    (elsewhere : List (Candidate String)) :
    (runtime.select name task ready elsewhere).Attended ↔ runtime.Attended := by
  have looked : Attended { runtime with pool := runtime.pool.candidates.2 } ↔
      runtime.Attended := Iff.rfl
  rw [← looked]
  unfold select
  dsimp only
  split
  · exact attended_become_away atTask rfl (fun returns => by cases returns)
  · next candidate found =>
      have isReady := (selectTurn_found found).2
      apply attended_become_away atTask rfl
      intro returns
      by_cases ours : candidate.tunnel = name
      · rw [Runtime.isReady, if_pos ours, consistent.account.bridgeReady] at isReady
        rw [← isReady]
        exact consistent.account.ready
      · rw [if_neg ours] at returns
        cases returns
  · exact Iff.rfl

private theorem attended_readyCandidate {runtime : Runtime} {task : Nat}
    {protocol : Option Protocol} {attempts : Nat} {tried : List String} {deadline : Nat}
    (atTask : runtime.tasks[task]? = some (.choosing protocol attempts tried deadline))
    (name : String) (ready : String → Bool) (elsewhere : List (Candidate String)) :
    (runtime.readyCandidate name task ready elsewhere protocol attempts tried
      deadline).Attended ↔ runtime.Attended := by
  have looked : Attended { runtime with pool := (runtime.pool.filtered protocol).2 } ↔
      runtime.Attended := Iff.rfl
  unfold readyCandidate
  split
  · exact attended_become_away atTask rfl (fun returns => by cases returns)
  · rw [← looked]
    dsimp only
    split
    · exact attended_become_away atTask rfl (fun returns => by cases returns)
    · exact attended_become_away atTask rfl (fun returns => by cases returns)
    · exact Iff.rfl

private theorem attended_retry {runtime : Runtime} {task : Nat} {before : Phase}
    (atTask : runtime.tasks[task]? = some before) (away : before.returns = false)
    (protocol : Option Protocol) (attempts : Nat) (tried : List String) :
    (runtime.retry task protocol attempts tried).Attended ↔ runtime.Attended := by
  unfold retry
  split
  · exact attended_become_away atTask away (fun returns => by cases returns)
  · exact attended_become_away atTask away (fun returns => by cases returns)

private theorem attended_live {runtime : Runtime} (consistent : runtime.Consistent) {task : Nat}
    {before : Phase} (atTask : runtime.tasks[task]? = some before)
    (returns : before.returns = true) (dials : Bool) :
    (runtime.live task dials).Attended ↔ runtime.Attended ∧
      ((runtime.account.live runtime.wall).1 = .backoff →
        AwaitedBesides runtime.tasks task) := by
  have attended : runtime.Attended := (attended_iff atTask).mpr (.inr (.inl returns))
  unfold live
  rcases Account.live_cases runtime.account runtime.wall with
    ⟨id, later, filled, outcome, kept⟩ | ⟨empty, early, outcome⟩ | ⟨empty, due, outcome⟩
  · have laterReady : later.ready = true := by
      have laterConsistent := Account.consistent_live consistent.account runtime.wall
      rw [outcome] at laterConsistent
      rw [laterConsistent.ready, kept]
      rfl
    rw [outcome]
    constructor
    · intro _
      exact ⟨attended, fun impossible => by cases impossible⟩
    · intro _
      exact .inl laterReady
  · have notReady : runtime.account.ready = false := by
      rw [consistent.account.ready, empty]
      rfl
    rw [outcome]
    change (runtime.become task .done).Attended ↔ _
    rw [attended_become_iff atTask, notReady]
    constructor
    · intro either
      rcases either with impossible | impossible | besides
      · cases impossible
      · cases impossible
      · exact ⟨attended, fun _ => besides⟩
    · intro both
      rcases both with ⟨_, besides⟩
      exact .inr (.inr (besides rfl))
  · rw [outcome]
    constructor
    · intro _
      exact ⟨attended, fun impossible => by cases impossible⟩
    · intro _
      exact .inr ((awaited_set_iff atTask _).mpr (.inl rfl))

private theorem attended_finish {runtime : Runtime} (consistent : runtime.Consistent) {task : Nat}
    {dials : Bool} {now : Nat}
    (atTask : runtime.tasks[task]? = some (.connecting dials now)) (attempt : Attempt) :
    (runtime.finish task dials now attempt).Attended ↔ runtime.Attended ∧
      (runtime.Fails task attempt → AwaitedBesides runtime.tasks task) := by
  have attended : runtime.Attended := (attended_iff atTask).mpr (.inr (.inl rfl))
  have notReady : runtime.account.ready = false := by
    rw [consistent.account.ready, consistent.empty_of_connecting atTask]
    rfl
  have failed (failure : attempt = .bridgeFailed ∨ attempt = .tunnelFailed)
      (stillNotReady : (runtime.account.connect now attempt).ready = false) :
      ((runtime.account.connect now attempt).ready = true ∨
          Awaited (runtime.tasks.set task .done)) ↔
        runtime.Attended ∧ (runtime.Fails task attempt → AwaitedBesides runtime.tasks task) := by
    rw [stillNotReady, awaited_set_iff atTask]
    constructor
    · intro either
      rcases either with impossible | impossible | besides
      · cases impossible
      · cases impossible
      · exact ⟨attended, fun _ => besides⟩
    · intro both
      rcases both with ⟨_, besides⟩
      exact .inr (.inr (besides ⟨⟨dials, now, atTask⟩, failure⟩))
  cases attempt with
  | up port =>
      constructor
      · intro _
        refine ⟨attended, ?_⟩
        intro fails
        rcases fails with ⟨_, impossible | impossible⟩
        · cases impossible
        · cases impossible
      · intro _
        exact .inl rfl
  | bridgeFailed => exact failed (.inl rfl) notReady
  | tunnelFailed => exact failed (.inr rfl) rfl

private theorem attended_lock {runtime : Runtime} (consistent : runtime.Consistent)
    (name : String) (config : Config) (task : Nat) :
    (step name config runtime (.lock task)).Attended ↔
      runtime.Attended ∧ runtime.Spared config (.lock task) := by
  have waiting {phase : Phase} (unlocked : runtime.holder = none)
      (atTask : runtime.tasks[task]? = some phase) (waits : phase = .warm ∨ phase = .dialing)
      (dials : Bool) : (runtime.live task dials).Attended ↔
        runtime.Attended ∧ runtime.Spared config (.lock task) := by
    have returns : phase.returns = true := by
      rcases waits with rfl | rfl <;> rfl
    have either : runtime.tasks[task]? = some .warm ∨ runtime.tasks[task]? = some .dialing := by
      rcases waits with rfl | rfl
      · exact .inl atTask
      · exact .inr atTask
    rw [attended_live consistent atTask returns]
    apply and_congr_right
    intro _
    constructor
    · intro besides refused
      exact besides refused.2.2
    · intro spared refused
      exact spared ⟨unlocked, either, refused⟩
  unfold step
  dsimp only
  split
  · next unlocked atTask => exact waiting unlocked atTask (.inl rfl) false
  · next unlocked atTask => exact waiting unlocked atTask (.inr rfl) true
  · next notWarm notDialing =>
      have spared : runtime.Spared config (.lock task) := by
        intro refused
        rcases refused with ⟨unlocked, warm | dialing, _⟩
        · exact absurd warm (notWarm unlocked)
        · exact absurd dialing (notDialing unlocked)
      exact Iff.intro (fun attended => ⟨attended, spared⟩) And.left

private theorem attended_abandon {runtime : Runtime} (name : String) (config : Config)
    (task : Nat) :
    (step name config runtime (.abandon task)).Attended ↔
      runtime.Attended ∧ runtime.Spared config (.abandon task) := by
  have dropped {phase : Phase} (atTask : runtime.tasks[task]? = some phase)
      (returns : phase.returns = true) (drops : runtime.Drops task) :
      (runtime.account.ready = true ∨ Awaited (runtime.tasks.set task .done)) ↔
        runtime.Attended ∧ runtime.Spared config (.abandon task) := by
    rw [awaited_set_iff atTask]
    constructor
    · intro either
      rcases either with ready | impossible | besides
      · exact ⟨.inl ready, fun _ => .inl ready⟩
      · cases impossible
      · exact ⟨(attended_iff atTask).mpr (.inr (.inr besides)), fun _ => .inr besides⟩
    · intro both
      rcases both with ⟨_, spared⟩
      exact (spared drops).imp_right .inr
  have spared {phase : Phase} (atTask : runtime.tasks[task]? = some phase)
      (away : phase.returns = false) : runtime.Spared config (.abandon task) := by
    intro drops
    rcases drops with dialing | ⟨now, connecting⟩
    · rw [atTask] at dialing
      cases dialing
      cases away
    · rw [atTask] at connecting
      cases connecting
      cases away
  have left {phase : Phase} (atTask : runtime.tasks[task]? = some phase)
      (away : phase.returns = false) : (runtime.become task .done).Attended ↔
        runtime.Attended ∧ runtime.Spared config (.abandon task) := by
    rw [attended_become_away atTask away (fun returns => by cases returns)]
    exact Iff.intro (fun attended => ⟨attended, spared atTask away⟩) And.left
  unfold step
  dsimp only
  split
  · next now atTask => exact dropped atTask rfl (.inr ⟨now, atTask⟩)
  · next atTask => exact left atTask rfl
  · next atTask => exact dropped atTask rfl (.inl atTask)
  · next atTask => exact left atTask rfl
  · next atTask => exact left atTask rfl
  · next atTask => exact left atTask rfl
  · next notConnecting _ notDialing _ _ _ =>
      have spared : runtime.Spared config (.abandon task) := by
        intro drops
        rcases drops with dialing | ⟨now, connecting⟩
        · exact absurd dialing notDialing
        · exact absurd connecting (notConnecting now)
      exact Iff.intro (fun attended => ⟨attended, spared⟩) And.left

private theorem attended_reap {runtime : Runtime} (consistent : runtime.Consistent)
    (name : String) (config : Config) :
    (step name config runtime .reap).Attended ↔
      runtime.Attended ∧ runtime.Spared config .reap := by
  have reaped := Account.consistent_reap consistent.account config runtime.instant
  unfold step
  dsimp only
  split
  · next unlocked =>
      change (runtime.account.reap config runtime.instant).ready = true ∨ _ ↔ _
      rcases Account.reap_cases runtime.account config runtime.instant with
        closed | ⟨sameSlot, sameReady⟩
      · rw [reaped.ready, closed]
        constructor
        · intro either
          rcases either with impossible | awaited
          · cases impossible
          · exact ⟨.inr awaited, fun _ => awaited⟩
        · intro both
          rcases both with ⟨ready | awaited, spared⟩
          · refine .inr (spared ⟨unlocked, ?_, closed⟩)
            rw [consistent.account.ready] at ready
            exact Option.isSome_iff_ne_none.mp ready
          · exact .inr awaited
      · rw [sameReady]
        refine Iff.intro (fun attended => ⟨attended, ?_⟩) And.left
        intro closes
        rcases closes with ⟨_, filled, closed⟩
        rw [sameSlot] at closed
        exact absurd closed filled
  · next held =>
      refine Iff.intro (fun attended => ⟨attended, ?_⟩) And.left
      intro closes
      rcases closes with ⟨unlocked, _⟩
      rw [held] at unlocked
      cases unlocked

/-- A step keeps the account attended exactly if it was and the step leaves a
way. -/
theorem attended_step {runtime : Runtime} (consistent : runtime.Consistent) (name : String)
    (config : Config) (action : Action) :
    (step name config runtime action).Attended ↔
      runtime.Attended ∧ runtime.Spared config action := by
  have kept {later now : Prop} : (later ↔ now ∧ True) ↔ (later ↔ now) := by rw [and_true]
  cases action with
  | tick elapsed =>
      apply kept.mpr
      exact Iff.rfl
  | adjust wall =>
      apply kept.mpr
      exact Iff.rfl
  | connect =>
      apply kept.mpr
      exact or_congr_right (awaited_append_iff rfl)
  | request protocol retryable =>
      apply kept.mpr
      exact or_congr_right (awaited_append_iff rfl)
  | look task ready elsewhere =>
      apply kept.mpr
      unfold step
      dsimp only
      split
      · next atTask => exact attended_select consistent atTask name ready elsewhere
      · next atTask => exact attended_readyCandidate atTask name ready elsewhere
      · exact Iff.rfl
  | answer task answer =>
      apply kept.mpr
      unfold step
      dsimp only
      split
      · next atTask =>
          cases answer with
          | response =>
              exact attended_become_away atTask rfl (fun returns => by cases returns)
          | noClient => exact attended_retry atTask rfl _ _ _
          | failed => exact attended_retry atTask rfl _ _ _
      · exact Iff.rfl
  | lock task => exact attended_lock consistent name config task
  | attempt task attempt =>
      unfold step
      dsimp only
      split
      · next atTask => exact attended_finish consistent atTask attempt
      · next notConnecting =>
          refine Iff.intro (fun attended => ⟨attended, ?_⟩) And.left
          intro fails
          rcases fails with ⟨⟨dials, now, atTask⟩, _⟩
          exact absurd atTask (notConnecting dials now)
  | opened task success =>
      apply kept.mpr
      unfold step
      dsimp only
      split
      · next atTask =>
          cases success with
          | true => exact attended_become_away atTask rfl (fun returns => by cases returns)
          | false => exact attended_become_away atTask rfl (fun returns => by cases returns)
      · exact Iff.rfl
  | close task =>
      apply kept.mpr
      unfold step
      dsimp only
      split
      · next atTask =>
          exact attended_become_away atTask rfl (fun returns => by cases returns)
      · exact Iff.rfl
  | abandon task => exact attended_abandon name config task
  | reap => exact attended_reap consistent name config
  | supervise =>
      apply kept.mpr
      exact Iff.rfl
  | superviseOther other usable =>
      apply kept.mpr
      unfold step
      dsimp only
      split
      · exact Iff.rfl
      · exact Iff.rfl

/-! ### Ways back -/

/-- The task's next step calls `connect`. -/
def CallsConnect (runtime : Runtime) (task : Nat) : Prop :=
  runtime.holder = none ∧
    (runtime.tasks[task]? = some .warm ∨ runtime.tasks[task]? = some .dialing) ∧
    (runtime.account.live runtime.wall).1 = .connect

/-- There is a continuation after which the account is ready, and one in which
`connect` is called for it. -/
def Recovers (name : String) (config : Config) (runtime : Runtime) : Prop :=
  (∃ later, Leads (step name config) runtime later ∧ later.account.bridgeReady = true) ∧
    ∃ later task, Leads (step name config) runtime later ∧ later.CallsConnect task

theorem Consistent.leads {name : String} {config : Config} {runtime later : Runtime}
    (consistent : runtime.Consistent) (leads : Leads (step name config) runtime later) :
    later.Consistent :=
  leads.always (fun _ action held => consistent_step held name config action) consistent

private theorem attended_of_bridgeReady {runtime : Runtime}
    (bridgeReady : runtime.account.bridgeReady = true) : runtime.Attended :=
  .inl (Bool.and_eq_true_iff.mp bridgeReady).1

private theorem attended_of_callsConnect {runtime : Runtime} {task : Nat}
    (calls : runtime.CallsConnect task) : runtime.Attended := by
  obtain ⟨_, warm | dialing, _⟩ := calls
  · exact .inr ⟨task, .warm, warm, rfl⟩
  · exact .inr ⟨task, .dialing, dialing, rfl⟩

/-- An account that is not attended stays so. -/
theorem not_attended_leads {name : String} {config : Config} {runtime later : Runtime}
    (consistent : runtime.Consistent) (lost : ¬ runtime.Attended)
    (leads : Leads (step name config) runtime later) : ¬ later.Attended := by
  have kept (state : Runtime) (action : Action) (held : state.Consistent ∧ ¬ state.Attended) :
      (step name config state action).Consistent ∧ ¬ (step name config state action).Attended := by
    refine ⟨consistent_step held.1 name config action, ?_⟩
    intro attended
    exact held.2 ((attended_step held.1 name config action).mp attended).1
  exact (leads.always kept ⟨consistent, lost⟩).2

/-- Its own attempt makes the account ready if it succeeds. -/
private theorem ready_of_connecting (name : String) (config : Config) {runtime : Runtime}
    {task : Nat} {dials : Bool} {now : Nat}
    (atTask : runtime.tasks[task]? = some (.connecting dials now)) :
    ∃ later, Leads (step name config) runtime later ∧ later.account.bridgeReady = true := by
  refine ⟨_, Leads.one _ _ (.attempt task (.up ⟨1, by decide⟩)), ?_⟩
  unfold step
  dsimp only
  rw [atTask]
  rfl

/-- A task that waits for the lock calls `connect` once the backoff is over. -/
private theorem callsConnect_of_waiting (name : String) (config : Config) {runtime : Runtime}
    {task : Nat} (waits : runtime.tasks[task]? = some .warm ∨ runtime.tasks[task]? = some .dialing)
    (unlocked : runtime.holder = none) (empty : runtime.account.slot = none) :
    ∃ later, Leads (step name config) runtime later ∧ later.CallsConnect task := by
  refine ⟨step name config runtime (.tick runtime.account.notBefore), Leads.one _ _ _, unlocked,
    waits, ?_⟩
  change (runtime.account.live (runtime.wall + runtime.account.notBefore)).1 = .connect
  unfold Account.live
  rw [empty]
  dsimp only
  rw [if_neg (by omega)]

private theorem connecting_of_callsConnect (name : String) (config : Config) {runtime : Runtime}
    {task : Nat} (calls : runtime.CallsConnect task) :
    ∃ later dials now, Leads (step name config) runtime later ∧
      later.tasks[task]? = some (.connecting dials now) := by
  obtain ⟨unlocked, waits, outcome⟩ := calls
  have entered (dials : Bool) {phase : Phase} (atTask : runtime.tasks[task]? = some phase) :
      (runtime.live task dials).tasks[task]? = some (.connecting dials runtime.wall) := by
    have below := (List.getElem?_eq_some_iff.mp atTask).1
    rcases Account.live_cases runtime.account runtime.wall with
      ⟨id, later, filled, same, kept⟩ | ⟨empty, early, same⟩ | ⟨empty, due, same⟩
    · rw [same] at outcome
      cases outcome
    · rw [same] at outcome
      cases outcome
    · unfold live
      rw [same]
      exact List.getElem?_set_self below
  rcases waits with warm | dialing
  · refine ⟨_, false, runtime.wall, Leads.one _ _ (.lock task), ?_⟩
    unfold step
    dsimp only
    rw [unlocked, warm]
    exact entered false warm
  · refine ⟨_, true, runtime.wall, Leads.one _ _ (.lock task), ?_⟩
    unfold step
    dsimp only
    rw [unlocked, dialing]
    exact entered true dialing

/-- An attended account can become ready. -/
theorem ready_of_attended (name : String) (config : Config) {runtime : Runtime}
    (consistent : runtime.Consistent) (attended : runtime.Attended) :
    ∃ later, Leads (step name config) runtime later ∧ later.account.bridgeReady = true := by
  cases filled : runtime.account.slot with
  | some id =>
      refine ⟨runtime, Leads.refl _ _, ?_⟩
      rw [consistent.account.bridgeReady, filled]
      rfl
  | none =>
      cases locked : runtime.holder with
      | some holder =>
          obtain ⟨dials, now, atTask⟩ := (consistent.held holder).mp locked
          exact ready_of_connecting name config atTask
      | none =>
          obtain ⟨task, phase, atTask, returns⟩ : Awaited runtime.tasks := by
            rcases attended with ready | awaited
            · rw [consistent.account.ready, filled] at ready
              cases ready
            · exact awaited
          have waits : runtime.tasks[task]? = some .warm ∨
              runtime.tasks[task]? = some .dialing := by
            cases phase with
            | warm => exact .inl atTask
            | dialing => exact .inr atTask
            | connecting dials now =>
                have holds := (consistent.held task).mpr ⟨dials, now, atTask⟩
                rw [locked] at holds
                cases holds
            | _ => cases returns
          obtain ⟨due, waited, calls⟩ := callsConnect_of_waiting name config waits locked filled
          obtain ⟨entered, dials, now, connects, atEntered⟩ :=
            connecting_of_callsConnect name config calls
          obtain ⟨later, succeeds, bridgeReady⟩ := ready_of_connecting name config atEntered
          exact ⟨later, (waited.trans connects).trans succeeds, bridgeReady⟩

/-! ### A ready account can be closed and chosen before that -/

/-- Every stream can be closed. -/
private theorem closed_streams (name : String) (config : Config) (runtime : Runtime)
    (count : Nat) :
    ∃ later, Leads (step name config) runtime later ∧ later.account.slot = runtime.account.slot ∧
      later.holder = runtime.holder ∧ later.tasks.length = runtime.tasks.length ∧
      ∀ (task id : Nat), task < count → later.tasks[task]? ≠ some (.serving id) := by
  induction count with
  | zero => exact ⟨runtime, Leads.refl _ _, rfl, rfl, rfl, fun _ _ impossible => by omega⟩
  | succ count inductionHypothesis =>
      obtain ⟨before, leads, slot, holder, length, closed⟩ := inductionHypothesis
      refine ⟨_, leads.next (.close count), ?_⟩
      unfold step
      dsimp only
      split
      · next id atTask =>
          refine ⟨slot, holder, ?_, ?_⟩
          · exact (List.length_set ..).trans length
          · intro task other below serves
            have inside := (List.getElem?_eq_some_iff.mp atTask).1
            by_cases last : task = count
            · subst last
              rw [Runtime.become, List.getElem?_set_self inside] at serves
              cases serves
            · rw [Runtime.become, List.getElem?_set_ne (Ne.symm last)] at serves
              exact closed task other (by omega) serves
      · next notServing =>
          refine ⟨slot, holder, length, ?_⟩
          intro task other below
          by_cases last : task = count
          · subst last
            exact notServing other
          · exact closed task other (by omega)

/-- While the account is ready, a new request can choose it. -/
private theorem dialing_of_ready (name : String) (config : Config) {runtime : Runtime}
    (consistent : runtime.Consistent) {id : Nat} (filled : runtime.account.slot = some id) :
    ∃ later, Leads (step name config) runtime later ∧ later.account = runtime.account ∧
      later.holder = runtime.holder ∧ later.tasks = runtime.tasks ++ [.dialing] := by
  have bridgeReady : runtime.account.bridgeReady = true := by
    rw [consistent.account.bridgeReady, filled]
    rfl
  set joined := step name config runtime .supervise with joinedEq
  set asked := step name config joined .connect with askedEq
  have member : proxyFor name ∈ asked.pool.candidates.1 := by
    rw [(ProxyPool.candidates_perm asked.pool).mem_iff]
    change proxyFor name ∈ (superviseAccount runtime.pool name runtime.account.bridgeReady).all
    rw [bridgeReady]
    exact mem_supervise consistent.accounts name
  have joinedAccounts : Accounts asked.pool := consistent.accounts.supervise name _
  have chosen : selectTurn ({ asked with pool := asked.pool.candidates.2 }.isReady name
      fun _ => false) (asked.pool.candidates.1 ++ others name []) = .found (proxyFor name) := by
    rw [others, List.filter_nil, List.append_nil]
    apply selectTurn_only member
    · rw [isReady, if_pos (show (proxyFor name).tunnel = name from rfl)]
      exact bridgeReady
    · intro other otherMember otherReady
      obtain ⟨proxies, rotation, same, entries⟩ := joinedAccounts
      have inAll := (ProxyPool.candidates_perm asked.pool).mem_iff.mp otherMember
      rw [same, ProxyPool.all, ProxyPool.collectAll] at inAll
      by_cases ours : other.tunnel = name
      · rw [entries other inAll, ours]
      · rw [isReady, if_neg ours] at otherReady
        cases otherReady
  have atLast : asked.tasks[runtime.tasks.length]? = some .selecting :=
    List.getElem?_concat_length
  refine ⟨_, ((Leads.one _ runtime .supervise).next .connect).next
    (.look runtime.tasks.length (fun _ => false) []), ?_⟩
  rw [← joinedEq, ← askedEq]
  have looked : step name config asked (.look runtime.tasks.length (fun _ => false) []) =
      { asked with pool := asked.pool.candidates.2 }.become runtime.tasks.length .dialing := by
    unfold step
    dsimp only
    rw [atLast]
    dsimp only
    unfold select
    dsimp only
    rw [chosen]
    dsimp only
    rw [if_pos (show (proxyFor name).tunnel = name from rfl)]
  rw [looked]
  refine ⟨rfl, rfl, ?_⟩
  change (runtime.tasks ++ [Phase.selecting]).set runtime.tasks.length .dialing = _
  rw [List.set_append_right _ _ (Nat.le_refl _), Nat.sub_self]
  rfl

/-- A tunnel that nobody uses can be closed, and the backoff waited for. -/
private theorem closed_tunnel (name : String) (config : Config) {runtime : Runtime} {id : Nat}
    {live : Live} (unlocked : runtime.holder = none) (filled : runtime.account.slot = some id)
    (found : runtime.account.lives[id]? = some live) (unused : live.connections = 0) :
    ∃ later, Leads (step name config) runtime later ∧ later.account.slot = none ∧
      later.holder = none ∧ later.tasks = runtime.tasks := by
  have reaped {state : Runtime} (free : state.holder = none) :
      step name config state .reap =
        { state with account := state.account.reap config state.instant } := by
    unfold step
    dsimp only
    rw [free]
  have first := Leads.one (step name config) runtime .reap
  rw [reaped unlocked] at first
  rcases Account.reap_starts filled found unused config runtime.instant with
    closed | ⟨stillFilled, since, clock⟩
  · exact ⟨_, first, closed, unlocked, rfl⟩
  · have last := (first.next (.tick (since + config.idleTimeout))).next .reap
    rw [reaped] at last
    · refine ⟨_, last, ?_, unlocked, rfl⟩
      apply Account.reap_expired stillFilled clock
      change since + config.idleTimeout ≤ runtime.instant + (since + config.idleTimeout)
      omega
    · exact unlocked

/-- From a ready account: close the streams, let a request choose it, and close
the tunnel before that request gets the lock. -/
theorem callsConnect_of_ready (name : String) (config : Config) {runtime : Runtime}
    (consistent : runtime.Consistent) (bridgeReady : runtime.account.bridgeReady = true) :
    ∃ later task, Leads (step name config) runtime later ∧ later.CallsConnect task := by
  rw [consistent.account.bridgeReady] at bridgeReady
  obtain ⟨id, filled⟩ := Option.isSome_iff_exists.mp bridgeReady
  have unlocked : runtime.holder = none := by
    by_contra held
    rw [consistent.empty held] at filled
    cases filled
  obtain ⟨quiet, toQuiet, quietSlot, quietHolder, quietLength, noStreams⟩ :=
    closed_streams name config runtime runtime.tasks.length
  have quietConsistent := consistent.leads toQuiet
  obtain ⟨asked, toAsked, askedAccount, askedHolder, askedTasks⟩ :=
    dialing_of_ready name config quietConsistent (quietSlot.trans filled)
  have askedConsistent := quietConsistent.leads toAsked
  have askedFilled : asked.account.slot = some id := by
    rw [askedAccount, quietSlot, filled]
  have askedUnlocked : asked.holder = none := by
    rw [askedHolder, quietHolder, unlocked]
  have unserved : asked.tasks.count (.serving id) = 0 := by
    apply List.count_eq_zero.mpr
    intro serves
    rw [askedTasks] at serves
    rcases List.mem_append.mp serves with old | new
    · obtain ⟨task, atTask⟩ := List.mem_iff_getElem?.mp old
      have below := (List.getElem?_eq_some_iff.mp atTask).1
      exact noStreams task id (by omega) atTask
    · cases List.mem_singleton.mp new
  have inside := askedConsistent.account.inside id askedFilled
  have found := List.getElem?_eq_getElem inside
  have unused := askedConsistent.guarded.counted id _ found
  rw [unserved] at unused
  obtain ⟨closed, toClosed, closedSlot, closedHolder, closedTasks⟩ :=
    closed_tunnel name config askedUnlocked askedFilled found unused
  have dialing : closed.tasks[quiet.tasks.length]? = some .dialing := by
    rw [closedTasks, askedTasks]
    exact List.getElem?_concat_length
  obtain ⟨due, waited, calls⟩ :=
    callsConnect_of_waiting name config (.inr dialing) closedHolder closedSlot
  exact ⟨due, _, ((toQuiet.trans toAsked).trans toClosed).trans waited, calls⟩

/-- An account can come back exactly if it is attended. -/
theorem recovers_iff_attended {name : String} {config : Config} {runtime : Runtime}
    (consistent : runtime.Consistent) : runtime.Recovers name config ↔ runtime.Attended := by
  constructor
  · intro recovers
    rcases recovers with ⟨⟨later, leads, bridgeReady⟩, _⟩
    by_contra lost
    exact not_attended_leads consistent lost leads (attended_of_bridgeReady bridgeReady)
  · intro attended
    obtain ⟨ready, leads, bridgeReady⟩ := ready_of_attended name config consistent attended
    obtain ⟨later, task, leadsOn, calls⟩ :=
      callsConnect_of_ready name config (consistent.leads leads) bridgeReady
    exact ⟨⟨ready, leads, bridgeReady⟩, later, task, leads.trans leadsOn, calls⟩

/-- An account can come back in every state of a run exactly if every step that
ends a way to `live`, or closes the tunnel, leaves another way. -/
theorem recovers_always_iff_spared (name : String) (config : Config) (instant wall : Nat)
    (steps : List Action) :
    (∀ done, done <+: steps →
      Recovers name config (run (step name config) (attach instant wall) done)) ↔
      Along (step name config) (Spared config) (attach instant wall) steps := by
  have start := consistent_attach instant wall
  have attended : (attach instant wall).Attended := .inr ⟨0, .warm, rfl, rfl⟩
  have one (state : Runtime) (action : Action) (held : state.Consistent)
      (now : state.Attended) :
      (step name config state action).Attended ↔ state.Spared config action := by
    rw [attended_step held name config action]
    exact and_iff_right now
  have kept (state : Runtime) (action : Action) (held : state.Consistent) :
      (step name config state action).Consistent := consistent_step held name config action
  rw [← always_iff_along kept one steps start attended]
  apply forall_congr'
  intro done
  apply imp_congr_right
  intro _
  exact recovers_iff_attended (run_always kept done start)

/-- The warm task fails to connect, and the account is never tried again. -/
theorem not_recovers_failed_warm :
    (¬ ∃ later, Leads (step "103.6.52.13" Config.default)
        (run (step "103.6.52.13" Config.default) (attach 0 0)
          [.lock 0, .attempt 0 .tunnelFailed]) later ∧ later.account.bridgeReady = true) ∧
      ¬ ∃ later task, Leads (step "103.6.52.13" Config.default)
        (run (step "103.6.52.13" Config.default) (attach 0 0)
          [.lock 0, .attempt 0 .tunnelFailed]) later ∧ later.CallsConnect task := by
  have consistent : (run (step "103.6.52.13" Config.default) (attach 0 0)
      [.lock 0, .attempt 0 .tunnelFailed]).Consistent :=
    (consistent_attach 0 0).leads ⟨_, rfl⟩
  have lost : ¬ (run (step "103.6.52.13" Config.default) (attach 0 0)
      [.lock 0, .attempt 0 .tunnelFailed]).Attended := by
    intro attended
    rcases attended with ready | ⟨task, phase, atTask, returns⟩
    · cases ready
    · have finished : phase = .done := List.mem_singleton.mp (List.mem_of_getElem?
        (show [Phase.done][task]? = some phase from atTask))
      rw [finished] at returns
      cases returns
  constructor
  · intro recovers
    rcases recovers with ⟨later, leads, bridgeReady⟩
    exact not_attended_leads consistent lost leads (attended_of_bridgeReady bridgeReady)
  · intro reconnects
    rcases reconnects with ⟨later, task, leads, calls⟩
    exact not_attended_leads consistent lost leads (attended_of_callsConnect calls)

end Runtime

end Unroxy.Vpn
