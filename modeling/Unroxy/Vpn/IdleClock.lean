import Mathlib.Data.List.Count
import Unroxy.Vpn.History

/-!
Owns the idle clock of a tunnel against the history of its account.

The clock is cleared by `live` and `reap`, set by the last `Guard` and started by
`reap`, while the end of `open` leaves it as it is. `Quiet` is what a running
clock says about the past, and `Clocked` says it of every tunnel.
-/

namespace Unroxy.Vpn

open Unroxy.Lib

/-- The `Guard` exists at this time. -/
def GuardSpan.OpenAt (guard : GuardSpan) (time : Nat) : Prop :=
  guard.made ≤ time ∧ ∀ dropped ∈ guard.dropped, time ≤ dropped

/-- The `Guard` counts for this tunnel. -/
def GuardSpan.counts (guard : GuardSpan) (id : Nat) : Bool :=
  guard.id == id && guard.dropped.isNone

/-- What an idle tunnel that `reap` closes shows. -/
theorem Account.reap_retires {account : Account} {id : Nat} {config : Config} {now : Nat}
    (filled : account.slot = some id) (retired : (account.reap config now).slot = none) :
    ∃ live, account.lives[id]? = some live ∧ live.connections = 0 ∧
      config.idleTimeout ≤ now - live.idleSince.getD now := by
  unfold reap at retired
  rw [filled] at retired
  dsimp only at retired
  split at retired
  · rw [filled] at retired
    cases retired
  · next live found =>
      refine ⟨live, found, ?_⟩
      by_cases busy : live.connections > 0
      · have kept : idleExpired live now config.idleTimeout = (false, live) := if_pos busy
        rw [kept, if_neg Bool.false_ne_true, if_pos busy] at retired
        cases retired
      · have clock : idleExpired live now config.idleTimeout =
            (decide (now - live.idleSince.getD now ≥ config.idleTimeout),
              { live with idleSince := some (live.idleSince.getD now) }) := if_neg busy
        refine ⟨by omega, ?_⟩
        by_contra early
        rw [clock, if_neg (by simpa using early), if_neg busy] at retired
        cases retired

/-- What `reap` does to the clocks: it leaves, stops or starts them. -/
theorem Account.reap_lives (account : Account) (config : Config) (now id : Nat) {live : Live}
    (found : (account.reap config now).lives[id]? = some live) :
    account.lives[id]? = some live ∨ ∃ before, account.lives[id]? = some before ∧
      (live = { before with idleSince := none } ∨
        live = { before with idleSince := some (before.idleSince.getD now) }) := by
  unfold reap at found
  split at found
  · exact .inl found
  · split at found
    · exact .inl found
    · next _ slot _ _ before foundBefore =>
        have replaced : ∀ {after : Live}, (account.lives.set slot after)[id]? = some live →
            account.lives[id]? = some live ∨
              account.lives[id]? = some before ∧ live = after := by
          intro after foundAfter
          by_cases same : slot = id
          · subst same
            rw [List.getElem?_set_self (List.getElem?_eq_some_iff.mp foundBefore).1] at foundAfter
            cases foundAfter
            exact .inr ⟨foundBefore, rfl⟩
          · rw [List.getElem?_set_ne same] at foundAfter
            exact .inl foundAfter
        by_cases busy : before.connections > 0
        · have kept : idleExpired before now config.idleTimeout = (false, before) := if_pos busy
          rw [kept] at found
          dsimp only at found
          rw [if_neg Bool.false_ne_true, if_pos busy] at found
          rcases replaced found with old | ⟨here, rfl⟩
          · exact .inl old
          · exact .inr ⟨before, here, .inl rfl⟩
        · have clock : idleExpired before now config.idleTimeout =
              (decide (now - before.idleSince.getD now ≥ config.idleTimeout),
                { before with idleSince := some (before.idleSince.getD now) }) := if_neg busy
          rw [clock] at found
          dsimp only at found
          split at found
          · rcases replaced found with old | ⟨here, rfl⟩
            · exact .inl old
            · exact .inr ⟨before, here, .inl rfl⟩
          · rcases replaced found with old | ⟨here, rfl⟩
            · exact .inl old
            · exact .inr ⟨before, here, .inr rfl⟩

namespace History

/-- The `Guard`s of a tunnel that exist. -/
def existing (self : History) (id : Nat) : Nat := self.guards.countP (·.counts id)

/-- Since this time no call of `live` returned the tunnel, and if no `Guard` exists,
none did. -/
structure Quiet (history : History) (id since : Nat) : Prop where
  used : ∀ call ∈ history.used, call.id = id → call.time ≤ since
  guards : history.existing id = 0 → ∀ guard ∈ history.guards, guard.id = id →
    ∃ dropped ∈ guard.dropped, dropped ≤ since

/-- The count of a tunnel is right, and so is its clock. -/
structure Sound (history : History) (id : Nat) (live : Live) : Prop where
  connections : live.connections = history.existing id
  idle : ∀ since ∈ live.idleSince, history.Quiet id since

/-- What is recorded is of tunnels that exist, and of the past. -/
structure Recorded (history : History) : Prop where
  used : ∀ call ∈ history.used,
    call.id < history.account.lives.length ∧ call.time ≤ history.now
  guards : ∀ guard ∈ history.guards,
    guard.id < history.account.lives.length ∧ ∀ dropped ∈ guard.dropped, dropped ≤ history.now
  opening : ∀ id ∈ history.opening, id < history.account.lives.length

structure Clocked (history : History) : Prop extends Recorded history where
  consistent : history.account.Consistent
  sound : ∀ id live, history.account.lives[id]? = some live → history.Sound id live

theorem existing_eq_zero {history : History} {id : Nat} (none : history.existing id = 0)
    {guard : GuardSpan} (member : guard ∈ history.guards) (same : guard.id = id) :
    ∃ dropped, guard.dropped = some dropped := by
  have uncounted := List.countP_eq_zero.mp none guard member
  rw [GuardSpan.counts, same, beq_self_eq_true, Bool.true_and] at uncounted
  cases gone : guard.dropped with
  | none =>
      rw [gone] at uncounted
      exact absurd rfl uncounted
  | some dropped => exact ⟨dropped, rfl⟩

/-- A clock that is started now is right. -/
theorem Recorded.quiet {history : History} (recorded : history.Recorded) (id : Nat) :
    history.Quiet id history.now where
  used := fun call member _ => (recorded.used call member).2
  guards := by
    intro none guard member same
    obtain ⟨dropped, gone⟩ := existing_eq_zero none member same
    exact ⟨dropped, gone, (recorded.guards guard member).2 dropped gone⟩

/-- What a clock says about the past depends on the record only. -/
theorem Sound.frame {history later : History} {id : Nat} {live : Live}
    (sound : history.Sound id live) (used : later.used = history.used)
    (guards : later.guards = history.guards) : later.Sound id live where
  connections := by
    rw [existing, guards]
    exact sound.connections
  idle := by
    intro since runs
    have quiet := sound.idle since runs
    constructor
    · rw [used]
      exact quiet.used
    · rw [existing, guards]
      exact quiet.guards

/-- The record is kept, and the tunnels are those that were there or agree with
it. -/
theorem Clocked.frame {history later : History} (clocked : history.Clocked)
    (used : later.used = history.used) (guards : later.guards = history.guards)
    (opening : ∀ id ∈ later.opening, id ∈ history.opening)
    (after : history.now ≤ later.now) (consistent : later.account.Consistent)
    (longer : history.account.lives.length ≤ later.account.lives.length)
    (lives : ∀ id live, later.account.lives[id]? = some live →
      history.account.lives[id]? = some live ∨ history.Sound id live) : later.Clocked where
  used := by
    rw [used]
    intro call member
    have old := clocked.used call member
    exact ⟨Nat.lt_of_lt_of_le old.1 longer, Nat.le_trans old.2 after⟩
  guards := by
    rw [guards]
    intro guard member
    have old := clocked.guards guard member
    exact ⟨Nat.lt_of_lt_of_le old.1 longer,
      fun dropped gone => Nat.le_trans (old.2 dropped gone) after⟩
  opening := fun id member =>
    Nat.lt_of_lt_of_le (clocked.opening id (opening id member)) longer
  consistent := consistent
  sound := by
    intro id live found
    rcases lives id live found with same | sound
    · exact (clocked.sound id live same).frame used guards
    · exact sound.frame used guards

theorem clocked_new : new.Clocked where
  used := by simp [new]
  guards := by simp [new]
  opening := by simp [new]
  consistent := Account.consistent_new
  sound := by simp [new, Account.new]

theorem Clocked.pass {history : History} (clocked : history.Clocked) (wait : Nat) :
    (history.pass wait).Clocked :=
  clocked.frame rfl rfl (fun _ member => member) (Nat.le_add_right _ _) clocked.consistent
    (Nat.le_refl _) (fun _ _ found => .inl found)

/-! ### The steps -/

/-- A tunnel whose clock does not run is returned to a caller. -/
theorem Clocked.use {history : History} (clocked : history.Clocked) {id : Nat} {live : Live}
    (found : history.account.lives[id]? = some live) (stopped : live.idleSince = none)
    (opens : Bool) : (history.use opens id).Clocked where
  used := by
    intro call member
    rcases List.mem_cons.mp member with rfl | old
    · exact ⟨(List.getElem?_eq_some_iff.mp found).1, Nat.le_refl _⟩
    · exact clocked.used call old
  guards := clocked.guards
  opening := by
    intro other member
    unfold History.use at member
    dsimp only at member
    split at member
    · rcases List.mem_append.mp member with old | here
      · exact clocked.opening other old
      · rw [List.mem_singleton.mp here]
        exact (List.getElem?_eq_some_iff.mp found).1
    · exact clocked.opening other member
  consistent := clocked.consistent
  sound := by
    intro other otherLive otherFound
    have old := clocked.sound other otherLive otherFound
    refine ⟨old.connections, fun since runs => ⟨?_, (old.idle since runs).guards⟩⟩
    intro call member same
    rcases List.mem_cons.mp member with rfl | before
    · dsimp only at same
      subst same
      cases found.symm.trans otherFound
      rw [stopped] at runs
      cases runs
    · exact (old.idle since runs).used call before same

theorem Clocked.connect {history : History} (clocked : history.Clocked)
    (empty : history.account.slot = none) (dial : Dial) : (history.connect dial).Clocked := by
  have fresh : history.Sound history.account.lives.length
      { connections := 0, idleSince := none } := by
    refine ⟨Eq.symm (List.countP_eq_zero.mpr ?_), fun since runs => by cases runs⟩
    intro guard member
    have other : guard.id ≠ history.account.lives.length :=
      Nat.ne_of_lt (clocked.guards guard member).1
    simp [GuardSpan.counts, other]
  obtain ⟨duration, outcome⟩ := dial
  have consistent := Account.consistent_connect clocked.consistent empty history.now outcome
  cases outcome with
  | up port =>
      refine clocked.frame rfl rfl (fun _ member => member) (Nat.le_add_right _ _) consistent
        ?_ ?_
      · simp [History.connect, Account.connect]
      · intro id live found
        change (history.account.lives ++ [_])[id]? = _ at found
        rcases Nat.lt_trichotomy id history.account.lives.length with below | rfl | above
        · rw [List.getElem?_append_left below] at found
          exact .inl found
        · rw [List.getElem?_concat_length] at found
          cases found
          exact .inr fresh
        · rw [List.getElem?_eq_none (by simp; omega)] at found
          cases found
  | bridgeFailed =>
      exact clocked.frame rfl rfl (fun _ member => member) (Nat.le_add_right _ _) consistent
        (Nat.le_refl _) (fun _ _ found => .inl found)
  | tunnelFailed =>
      exact clocked.frame rfl rfl (fun _ member => member) (Nat.le_add_right _ _) consistent
        (Nat.le_refl _) (fun _ _ found => .inl found)

/-- The tunnel that `connect` puts into the slot has a stopped clock. -/
theorem connect_stopped {account : Account} (empty : account.slot = none) {now id : Nat}
    {attempt : Attempt} (filled : (account.connect now attempt).slot = some id) :
    (account.connect now attempt).lives[id]? = some { connections := 0, idleSince := none } := by
  cases attempt with
  | up port =>
      cases filled
      exact List.getElem?_concat_length
  | bridgeFailed => cases empty.symm.trans filled
  | tunnelFailed => cases empty.symm.trans filled

/-- `live` stops the clock of the tunnel it returns. -/
theorem Clocked.stop {history : History} (clocked : history.Clocked) {id : Nat}
    (filled : history.account.slot = some id) :
    ∃ live, (history.account.live history.now).2.lives[id]? = some live ∧
      live.idleSince = none ∧
      Clocked { history with account := (history.account.live history.now).2 } := by
  have consistent := Account.consistent_live clocked.consistent history.now
  have stopped : (history.account.live history.now).2.lives =
      history.account.lives.modify id fun live => { live with idleSince := none } := by
    unfold Account.live
    rw [filled]
  obtain ⟨live, found⟩ : ∃ live, history.account.lives[id]? = some live :=
    ⟨_, List.getElem?_eq_getElem (clocked.consistent.inside id filled)⟩
  have sound := clocked.sound id live found
  refine ⟨{ live with idleSince := none }, ?_, rfl, ?_⟩
  · rw [stopped, List.getElem?_modify_eq, found]
    rfl
  · refine clocked.frame rfl rfl (fun _ member => member) (Nat.le_refl _) consistent ?_ ?_
    · exact Nat.le_of_eq (by rw [stopped, List.length_modify])
    · intro other otherLive otherFound
      rw [stopped] at otherFound
      by_cases same : id = other
      · subst same
        rw [List.getElem?_modify_eq, found] at otherFound
        cases otherFound
        exact .inr ⟨sound.connections, fun since runs => by cases runs⟩
      · rw [List.getElem?_modify_ne _ _ same] at otherFound
        exact .inl otherFound

theorem Clocked.live {history : History} (clocked : history.Clocked) (dials : Nat → Dial)
    (opens : Bool) : (history.live dials opens).Clocked := by
  rcases history.live_history dials opens with
    ⟨id, filled, found⟩ | ⟨-, -, refused⟩ |
      ⟨empty, -, connected, rfl, ⟨-, ended⟩ | ⟨id, filled, ended⟩⟩
  · obtain ⟨live, atSlot, stopped, later⟩ := clocked.stop filled
    rw [found]
    exact later.use atSlot stopped opens
  · rw [refused]
    exact clocked
  · rw [ended]
    exact clocked.connect empty _
  · rw [ended]
    exact (clocked.connect empty _).use (connect_stopped empty filled) rfl opens

/-- An `open` that is over. -/
theorem Clocked.returned {history : History} (clocked : history.Clocked) (task : Nat) :
    Clocked { history with opening := history.opening.eraseIdx task } :=
  clocked.frame rfl rfl (fun _ member => List.mem_of_mem_eraseIdx member) (Nat.le_refl _)
    clocked.consistent (Nat.le_refl _) (fun _ _ found => .inl found)

/-- One more `Guard`. Its tunnel is in use, whatever the clock says. -/
theorem Clocked.guard {history : History} (clocked : history.Clocked) {id : Nat}
    (inside : id < history.account.lives.length) {guard : GuardSpan}
    (made : guard = { id, made := history.now, dropped := none }) :
    Clocked { history with
      account := history.account.guard id, guards := history.guards ++ [guard] } where
  used := by
    change ∀ call ∈ history.used, call.id < (history.account.lives.modify id _).length ∧ _
    rw [List.length_modify]
    exact clocked.used
  guards := by
    change ∀ other ∈ history.guards ++ [guard],
      other.id < (history.account.lives.modify id _).length ∧ _
    rw [List.length_modify]
    intro other member
    rcases List.mem_append.mp member with old | here
    · exact clocked.guards other old
    · rw [List.mem_singleton.mp here, made]
      exact ⟨inside, fun dropped gone => by cases gone⟩
  opening := by
    change ∀ other ∈ history.opening, other < (history.account.lives.modify id _).length
    rw [List.length_modify]
    exact clocked.opening
  consistent := Account.consistent_guard clocked.consistent id
  sound := by
    intro other live found
    change (history.account.lives.modify id _)[other]? = _ at found
    have counted : existing { history with
        account := history.account.guard id, guards := history.guards ++ [guard] } other =
          history.existing other + if guard.counts other then 1 else 0 := by
      rw [existing, List.countP_append, List.countP_singleton]
      rfl
    by_cases same : id = other
    · subst same
      have counts : guard.counts id = true := by
        rw [made]
        simp [GuardSpan.counts]
      rw [List.getElem?_modify_eq] at found
      obtain ⟨before, foundBefore, rfl⟩ := Option.map_eq_some_iff.mp found
      have old := clocked.sound id before foundBefore
      rw [counts, if_pos rfl] at counted
      constructor
      · rw [counted, ← old.connections]
      · intro since runs
        refine ⟨(old.idle since runs).used, ?_⟩
        intro none
        rw [counted] at none
        cases none
    · have uncounted : guard.counts other = false := by
        rw [made]
        simp [GuardSpan.counts, same]
      rw [List.getElem?_modify_ne _ _ same] at found
      have old := clocked.sound other live found
      rw [uncounted, if_neg Bool.false_ne_true, Nat.add_zero] at counted
      constructor
      · rw [counted]
        exact old.connections
      · intro since runs
        refine ⟨(old.idle since runs).used, ?_⟩
        intro none span member sameSpan
        rw [counted] at none
        rcases List.mem_append.mp member with before | here
        · exact (old.idle since runs).guards none span before sameSpan
        · rw [List.mem_singleton.mp here, made] at sameSpan
          exact absurd sameSpan same

theorem Clocked.opened {history : History} (clocked : history.Clocked) (task : Nat)
    (success : Bool) : (history.opened task success).Clocked := by
  unfold History.opened
  cases atTask : history.opening[task]? with
  | none => exact clocked
  | some id =>
      have returned := clocked.returned task
      have inside := clocked.opening id (List.mem_of_getElem? atTask)
      cases success with
      | false => exact returned
      | true => exact returned.guard inside rfl

theorem existing_set {history : History} {index id made : Nat}
    (found : history.guards[index]? = some { id, made, dropped := none })
    {later : History} {time : Nat}
    (dropped : later.guards = history.guards.set index { id, made, dropped := some time })
    (other : Nat) :
    later.existing other + (if id = other then 1 else 0) = history.existing other := by
  obtain ⟨below, atIndex⟩ := List.getElem?_eq_some_iff.mp found
  rw [existing, dropped, List.countP_set below, atIndex]
  by_cases same : id = other
  · have present : 0 < history.guards.countP (·.counts other) :=
      List.countP_pos_iff.mpr ⟨_, List.mem_of_getElem? found, by simp [GuardSpan.counts, same]⟩
    have before : GuardSpan.counts { id, made, dropped := none } other = true := by
      simp [GuardSpan.counts, same]
    have after : GuardSpan.counts { id, made, dropped := some time } other = false := by
      simp [GuardSpan.counts]
    rw [before, after, if_pos rfl, if_neg Bool.false_ne_true, if_pos same, existing]
    omega
  · have before : GuardSpan.counts { id, made, dropped := none } other = false := by
      simp [GuardSpan.counts, same]
    have after : GuardSpan.counts { id, made, dropped := some time } other = false := by
      simp [GuardSpan.counts]
    rw [before, after, if_neg Bool.false_ne_true, if_neg same, existing]
    omega

/-- The drop of a `Guard`. The last one starts the clock. -/
theorem Clocked.release {history : History} (clocked : history.Clocked) {index id made : Nat}
    (atIndex : history.guards[index]? = some { id, made, dropped := none }) :
    Clocked { history with
      account := history.account.dropGuard id history.now
      guards := history.guards.set index { id, made, dropped := some history.now } } := by
  have recorded : Recorded { history with
      account := history.account.dropGuard id history.now
      guards := history.guards.set index { id, made, dropped := some history.now } } := by
    have length : (history.account.dropGuard id history.now).lives.length =
        history.account.lives.length := List.length_modify ..
    constructor
    · rw [length]
      exact clocked.used
    · rw [length]
      intro other member
      rcases List.mem_or_eq_of_mem_set member with old | rfl
      · exact clocked.guards other old
      · refine ⟨(clocked.guards _ (List.mem_of_getElem? atIndex)).1, ?_⟩
        intro dropped gone
        cases gone
        exact Nat.le_refl _
    · rw [length]
      exact clocked.opening
  refine ⟨recorded, Account.consistent_dropGuard clocked.consistent id history.now, ?_⟩
  intro other live found
  change (history.account.lives.modify id _)[other]? = _ at found
  have counted : existing { history with
      account := history.account.dropGuard id history.now
      guards := history.guards.set index { id, made, dropped := some history.now } } other +
        (if id = other then 1 else 0) = history.existing other := existing_set atIndex rfl other
  by_cases same : id = other
  · subst same
    rw [List.getElem?_modify_eq] at found
    obtain ⟨before, foundBefore, rfl⟩ := Option.map_eq_some_iff.mp found
    have old := clocked.sound id before foundBefore
    have connections := old.connections
    rw [if_pos rfl] at counted
    dsimp only
    refine ⟨by dsimp only; omega, ?_⟩
    intro since runs
    dsimp only at runs
    split at runs
    · cases runs
      exact recorded.quiet id
    · refine ⟨(old.idle since runs).used, ?_⟩
      intro none
      omega
  · rw [List.getElem?_modify_ne _ _ same] at found
    have old := clocked.sound other live found
    have connections := old.connections
    rw [if_neg same, Nat.add_zero] at counted
    refine ⟨by omega, ?_⟩
    intro since runs
    refine ⟨(old.idle since runs).used, ?_⟩
    intro none span member sameSpan
    rcases List.mem_or_eq_of_mem_set member with before | rfl
    · exact (old.idle since runs).guards (by omega) span before sameSpan
    · exact absurd sameSpan same

theorem Clocked.drop {history : History} (clocked : history.Clocked) (guard : Nat) :
    (history.drop guard).Clocked := by
  unfold History.drop
  split
  · next id made atIndex => exact clocked.release atIndex
  · exact clocked

theorem Clocked.reap {history : History} (clocked : history.Clocked) (config : Config) :
    (history.reap config).Clocked := by
  have consistent := Account.consistent_reap clocked.consistent config history.now
  have stopped : ∀ {id live}, history.account.lives[id]? = some live →
      history.Sound id { live with idleSince := none } := by
    intro id live found
    exact ⟨(clocked.sound id live found).connections, fun since runs => by cases runs⟩
  have started : ∀ {id live}, history.account.lives[id]? = some live →
      history.Sound id { live with idleSince := some (live.idleSince.getD history.now) } := by
    intro id live found
    have old := clocked.sound id live found
    refine ⟨old.connections, ?_⟩
    intro since runs
    cases runs
    cases clock : live.idleSince with
    | none => exact clocked.toRecorded.quiet id
    | some since => exact old.idle since clock
  have frame : (history.account.reap config history.now).lives.length =
      history.account.lives.length := by
    have same := congrArg List.length (history.account.reap_connections config history.now)
    rwa [List.length_map, List.length_map] at same
  refine clocked.frame rfl rfl (fun _ member => member) (Nat.le_refl _) consistent
    (Nat.le_of_eq frame.symm) ?_
  intro id live found
  rcases history.account.reap_lives config history.now id found with
    same | ⟨before, foundBefore, rfl | rfl⟩
  · exact .inl same
  · exact .inr (stopped foundBefore)
  · exact .inr (started foundBefore)

theorem clocked_step (config : Config) (dials : Nat → Dial) {history : History}
    (clocked : history.Clocked) (deed : Deed) : (step config dials history deed).Clocked := by
  have passed := clocked.pass deed.wait
  cases deed with
  | warm wait => exact passed.live dials false
  | dial wait => exact passed.live dials true
  | opened wait task success => exact passed.opened task success
  | drop wait guard => exact passed.drop guard
  | reap wait => exact passed.reap config

/-! ### When a tunnel is closed -/

/-- The count of every tunnel is the number of its `Guard`s. A tunnel that `reap`
closes has none, and had none for the idle timeout, nor was it returned to a
caller in that time. -/
theorem idle_clock_sound {config : Config} {dials : Nat → Dial} {history : History}
    (reached : Leads (step config dials) new history) :
    (∀ id live, history.account.lives[id]? = some live →
      live.connections = history.existing id) ∧
    ∀ wait id, history.account.slot = some id →
      (step config dials history (.reap wait)).account.slot = none →
      (∃ live, history.account.lives[id]? = some live ∧ live.connections = 0) ∧
      ∀ time, time ≤ history.now + wait → history.now + wait < time + config.idleTimeout →
        (∀ guard ∈ history.guards, guard.id = id → ¬ guard.OpenAt time) ∧
        ∀ call ∈ history.used, call.id = id → call.time ≠ time := by
  have kept : ∀ history deed, history.Clocked → (step config dials history deed).Clocked :=
    fun _ deed held => clocked_step config dials held deed
  have clocked : history.Clocked := reached.always kept clocked_new
  refine ⟨fun id live found => (clocked.sound id live found).connections, ?_⟩
  intro wait id filled retired
  obtain ⟨live, found, unused, expired⟩ := Account.reap_retires filled retired
  refine ⟨⟨live, found, unused⟩, ?_⟩
  intro time past recent
  have passed := clocked.pass wait
  have sound := passed.sound id live found
  change config.idleTimeout ≤
    (history.pass wait).now - live.idleSince.getD (history.pass wait).now at expired
  change time ≤ (history.pass wait).now at past
  change (history.pass wait).now < _ at recent
  have quiet : history.Quiet id (live.idleSince.getD (history.pass wait).now) := by
    cases clock : live.idleSince with
    | none =>
        have now := passed.toRecorded.quiet id
        exact ⟨now.used, now.guards⟩
    | some since =>
        have old := sound.idle since clock
        exact ⟨old.used, old.guards⟩
  generalize live.idleSince.getD (history.pass wait).now = since at expired quiet
  constructor
  · intro guard member same present
    have none : history.existing id = 0 := sound.connections.symm.trans unused
    obtain ⟨dropped, gone, before⟩ := quiet.guards none guard member same
    have after := present.2 dropped gone
    omega
  · intro call member same atTime
    have before := quiet.used call member same
    omega

/-- A tunnel comes up, serves one stream and is closed after the idle timeout. -/
theorem idle_clock_sound_one :
    ∃ history, Leads (step .default fun _ => { duration := 0, outcome := .up ⟨1080, by decide⟩ })
        new history ∧
      history.account.slot = some 0 ∧
      ∀ time, time ≤ 300000 → 0 < time →
        (∀ guard ∈ history.guards, guard.id = 0 → ¬ guard.OpenAt time) ∧
        ∀ call ∈ history.used, call.id = 0 → call.time ≠ time := by
  refine ⟨_, ⟨[.dial 0, .opened 0 0 true, .drop 0 0], rfl⟩, by decide, ?_⟩
  intro time past recent
  exact ((idle_clock_sound ⟨[.dial 0, .opened 0 0 true, .drop 0 0], rfl⟩).2 300000 0 (by decide)
    (by decide)).2 time past (by
      change 300000 < time + 300000
      omega)

end History

end Unroxy.Vpn
