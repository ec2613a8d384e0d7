import Unroxy.Vpn.Interleaving

/-!
Owns the bounds under which `Account` may count in natural numbers.

`generation` and `failures` grow by at most one a step, and `not_before` is never
further ahead of the clock than the longest backoff. A run of fewer than 2^64 steps,
on a clock that leaves room for the backoff, wraps none of the three.
-/

namespace Unroxy.Vpn

open Unroxy.Lib

theorem backoffDelay_le (failures : Nat) : backoffDelay failures ≤ backoffDelay 8 :=
  Nat.mul_le_mul_left 1000 (Nat.pow_le_pow_right (by decide) (Nat.min_le_right failures 8))

/-- When the attempt of the lock holder began, as long as `not_before` may be set by it. -/
def Locked.began : Locked → Option Nat
  | .connecting _ now | .addFailure now | .storeNotBefore now => some now
  | _ => none

namespace Machine

def began (self : Machine) : Option Nat := self.locked.bind Locked.began

/-- What a step can do to the counters. -/
structure Advances (before after : Machine) : Prop where
  generation : after.account.generation ≤ before.account.generation + 1
  failures : after.account.failures ≤ before.account.failures + 1
  notBefore : after.account.notBefore = before.account.notBefore ∨
    ∃ now, before.began = some now ∧ after.account.notBefore ≤ now + backoffDelay 8
  began : ∀ now, after.began = some now → before.began = some now ∨ now = before.wall

variable {before after : Machine}

/-- A step that counts nothing and begins no attempt. -/
theorem advances_of_same (generation : after.account.generation = before.account.generation)
    (failures : after.account.failures ≤ before.account.failures)
    (notBefore : after.account.notBefore = before.account.notBefore)
    (began : ∀ now, after.began = some now → before.began = some now) :
    Advances before after where
  generation := by
    rw [generation]
    exact Nat.le_succ _
  failures := Nat.le_succ_of_le failures
  notBefore := .inl notBefore
  began := fun now since => .inl (began now since)

/-- A step that leaves the counters and the lock alone. -/
theorem advances_of_kept (generation : after.account.generation = before.account.generation)
    (failures : after.account.failures = before.account.failures)
    (notBefore : after.account.notBefore = before.account.notBefore)
    (locked : after.locked = before.locked) : Advances before after :=
  advances_of_same generation (Nat.le_of_eq failures) notBefore fun now since => by
    rwa [Machine.began, locked] at since

/-- A step that goes to a point at which no attempt is under way. -/
theorem advances_of_idle (generation : after.account.generation = before.account.generation)
    (failures : after.account.failures ≤ before.account.failures)
    (notBefore : after.account.notBefore = before.account.notBefore)
    (idle : after.began = none) : Advances before after :=
  advances_of_same generation failures notBefore fun now since => by
    rw [idle] at since
    cases since

theorem advances_enterLive (machine : Machine) (worker : Nat) (dials : Bool) :
    Advances machine (machine.enterLive worker dials) := by
  unfold enterLive
  split
  · exact advances_of_idle rfl (Nat.le_refl _) rfl rfl
  · split
    · exact advances_of_kept rfl rfl rfl rfl
    · exact ⟨Nat.le_succ _, Nat.le_succ _, .inl rfl, fun now since =>
        .inr (Option.some.inj since).symm⟩

theorem advances_enterReap (machine : Machine) (worker : Nat) :
    Advances machine (machine.enterReap worker) := by
  unfold enterReap
  split
  · exact advances_of_idle rfl (Nat.le_refl _) rfl rfl
  · exact advances_of_kept rfl rfl rfl rfl

theorem advances_work (machine : Machine) (worker : Nat) (success : Bool) :
    Advances machine (machine.work worker success) := by
  unfold work
  split
  · split
    · exact machine.advances_enterLive worker false
    · exact advances_of_kept rfl rfl rfl rfl
  · split
    · exact machine.advances_enterLive worker true
    · exact advances_of_kept rfl rfl rfl rfl
  · split
    · exact machine.advances_enterReap worker
    · exact advances_of_kept rfl rfl rfl rfl
  all_goals exact advances_of_kept rfl rfl rfl rfl

theorem advances_unlock (machine : Machine) (account : Account) (dials : Bool) (id : Nat)
    (generation : account.generation = machine.account.generation)
    (failures : account.failures ≤ machine.account.failures)
    (notBefore : account.notBefore = machine.account.notBefore) :
    Advances machine (unlock { machine with account } dials id) := by
  cases dials with
  | true => exact advances_of_idle generation failures notBefore rfl
  | false => exact advances_of_idle generation failures notBefore rfl

theorem advances_advance (machine : Machine) (config : Config) :
    Advances machine (machine.advance config) := by
  unfold advance
  split
  case h_2 | h_3 | h_1 => exact advances_of_kept rfl rfl rfl rfl
  case h_4 => exact machine.advances_unlock _ _ _ rfl (Nat.le_refl _) rfl
  case h_5 => exact advances_of_idle rfl (Nat.zero_le _) rfl rfl
  case h_8 => exact machine.advances_unlock _ _ _ rfl (Nat.le_refl _) rfl
  case h_9 now held =>
    refine ⟨Nat.le_succ _, Nat.le_refl _, .inl rfl, fun since began => .inl ?_⟩
    rw [Machine.began, held]
    exact began
  case h_10 now held =>
    -- The backoff is the one of the failures counted by now.
    refine ⟨Nat.le_succ _, Nat.le_succ _, .inr ⟨now, ?_, ?_⟩, fun since began => by cases began⟩
    · rw [Machine.began, held]
      rfl
    · exact Nat.add_le_add_left (backoffDelay_le _) now
  case h_12 => exact ⟨Nat.le_refl _, Nat.le_succ _, .inl rfl, fun _ began => by cases began⟩
  case h_19 => exact ⟨Nat.le_refl _, Nat.le_succ _, .inl rfl, fun _ began => by cases began⟩
  case h_13 | h_15 =>
    split
    · exact advances_of_idle rfl (Nat.le_refl _) rfl rfl
    · exact advances_of_idle rfl (Nat.le_refl _) rfl rfl
  case h_14 =>
    dsimp only
    split
    · exact advances_of_idle rfl (Nat.le_refl _) rfl rfl
    · exact advances_of_idle rfl (Nat.le_refl _) rfl rfl
  all_goals exact advances_of_idle rfl (Nat.le_refl _) rfl rfl

theorem advances_step (config : Config) (machine : Machine) (action : Action) :
    Advances machine (step config machine action) := by
  cases action with
  | tick elapsed => exact advances_of_kept rfl rfl rfl rfl
  | adjust wall => exact advances_of_kept rfl rfl rfl rfl
  | warm => exact advances_of_kept rfl rfl rfl rfl
  | dial => exact advances_of_kept rfl rfl rfl rfl
  | reap => exact advances_of_kept rfl rfl rfl rfl
  | work worker success => exact machine.advances_work worker success
  | leave worker =>
      obtain ⟨workers, same⟩ := machine.leave_frame worker
      rw [step, same]
      exact advances_of_kept rfl rfl rfl rfl
  | advance => exact machine.advances_advance config
  | connected success =>
      change Advances machine (machine.connected success)
      unfold connected
      split
      · next dials now held =>
          split
          · exact advances_of_idle rfl (Nat.le_refl _) rfl rfl
          · refine advances_of_same rfl (Nat.le_refl _) rfl fun since began => ?_
            rw [Machine.began, held]
            exact began
      · exact advances_of_kept rfl rfl rfl rfl
  | bound port =>
      change Advances machine (machine.bound port)
      unfold bound
      split
      · exact advances_of_idle rfl (Nat.le_refl _) rfl rfl
      · exact advances_of_idle rfl (Nat.le_refl _) rfl rfl
      · exact advances_of_kept rfl rfl rfl rfl
  | abandon =>
      change Advances machine machine.abandon
      unfold abandon
      split
      · exact advances_of_idle rfl (Nat.le_refl _) rfl rfl
      · exact advances_of_idle rfl (Nat.le_refl _) rfl rfl
      · exact advances_of_kept rfl rfl rfl rfl
  | accept id =>
      rw [step]
      split
      · exact advances_of_kept rfl rfl rfl rfl
      · exact advances_of_kept rfl rfl rfl rfl
  | client => exact advances_of_kept rfl rfl rfl rfl
  | call call success =>
      obtain ⟨calls, cacheHolder, cached, same⟩ := machine.turn_frame call success
      rw [step, same]
      exact advances_of_kept rfl rfl rfl rfl
  | evict =>
      rw [step]
      split
      · exact advances_of_kept rfl rfl rfl rfl
      · exact advances_of_kept rfl rfl rfl rfl

/-- The counters after this many steps, on a clock that has shown no time past `latest`. -/
structure Bounded (steps latest : Nat) (machine : Machine) : Prop where
  generation : machine.account.generation ≤ steps
  failures : machine.account.failures ≤ steps
  notBefore : machine.account.notBefore ≤ latest + backoffDelay 8
  began : ∀ now, machine.began = some now → now ≤ latest

theorem bounded_new (instant wall latest : Nat) : (new instant wall).Bounded 0 latest where
  generation := Nat.le_refl _
  failures := Nat.le_refl _
  notBefore := Nat.zero_le _
  began := fun _ since => by cases since

theorem Bounded.step {steps latest : Nat} {machine : Machine}
    (bounded : machine.Bounded steps latest) (clock : machine.wall ≤ latest) (config : Config)
    (action : Action) : (Machine.step config machine action).Bounded (steps + 1) latest := by
  have advances := advances_step config machine action
  refine ⟨Nat.le_trans advances.generation (Nat.succ_le_succ bounded.generation),
    Nat.le_trans advances.failures (Nat.succ_le_succ bounded.failures), ?_, fun now since => ?_⟩
  · rcases advances.notBefore with same | ⟨now, since, ahead⟩
    · rw [same]
      exact bounded.notBefore
    · exact Nat.le_trans ahead (Nat.add_le_add_right (bounded.began now since) _)
  · rcases advances.began now since with before | rfl
    · exact bounded.began now before
    · exact clock

/-- Neither counter outgrows the number of steps, and `not_before` does not outgrow the
clock by more than the longest backoff. -/
theorem bounded_run (config : Config) {latest : Nat} (actions : List Action) :
    ∀ {machine : Machine} {steps : Nat}, machine.Bounded steps latest →
      Along (step config) (fun machine _ => machine.wall ≤ latest) machine actions →
      (run (step config) machine actions).Bounded (steps + actions.length) latest := by
  induction actions with
  | nil => exact fun bounded _ => bounded
  | cons action rest inductionHypothesis =>
      intro machine steps bounded clock
      rw [run_cons, List.length_cons, Nat.add_comm rest.length, ← Nat.add_assoc]
      exact inductionHypothesis (bounded.step clock.1 config action) clock.2

/-- Every `u64` and `usize` of the account keeps its value. -/
theorem counters_fit (config : Config) (instant wall : Nat) {latest : Nat}
    (actions : List Action) (few : actions.length < 2 ^ 64)
    (room : latest + backoffDelay 8 < 2 ^ 64)
    (clock : Along (step config) (fun machine _ => machine.wall ≤ latest) (new instant wall)
      actions) :
    let account := (run (step config) (new instant wall) actions).account
    account.generation < 2 ^ 64 ∧ account.failures < 2 ^ 64 ∧ account.notBefore < 2 ^ 64 := by
  have bounded := bounded_run config actions (bounded_new instant wall latest) clock
  rw [Nat.zero_add] at bounded
  exact ⟨Nat.lt_of_le_of_lt bounded.generation few, Nat.lt_of_le_of_lt bounded.failures few,
    Nat.lt_of_le_of_lt bounded.notBefore room⟩

end Machine

end Unroxy.Vpn
