import Mathlib.Algebra.Group.Nat.Defs
import Mathlib.Data.Fintype.EquivFin
import Unroxy.Ssh.Manager

/-!
Owns `pick_account` of `ssh/mod.rs` as one call, while `pick_session` advances the
same counter.

The call looks at as many values of the counter as there are accounts. It sees
every account if these are consecutive; the values that other callers draw in
between are missing.

Does not own what the manager does with the account.
-/

namespace Unroxy.Ssh

open Unroxy.Lib

/-- The account may be connected to. -/
def Inner.Eligible (self : Inner) (now index : Nat) : Prop :=
  index < self.accounts ∧ self.accountNotBefore.getD index 0 ≤ now

instance (self : Inner) (now index : Nat) : Decidable (self.Eligible now index) :=
  inferInstanceAs (Decidable (_ ∧ _))

namespace Inner

/-- The loop of `pick_account`. Before its own `fetch_add` in a turn, others have
made `others turn` of theirs. -/
def pickAccountLoop (self : Inner) (now : Nat) (others : Nat → Nat) :
    (left turn : Nat) → Option Nat × Inner
  | 0, _ => (none, self)
  | left + 1, turn =>
      let value := self.rotate + UInt64.ofNat (others turn)
      let index := value.toNat % self.accounts
      let added := { self with rotate := value + 1 }
      if added.accountNotBefore.getD index 0 ≤ now then
        (some index, added)
      else
        added.pickAccountLoop now others left (turn + 1)

def pickAccount (self : Inner) (now : Nat) (others : Nat → Nat) : Option Nat × Inner :=
  self.pickAccountLoop now others self.accounts 0

/-- The value of the counter in a turn, without overflow. -/
def drawn (rotate : Nat) (others : Nat → Nat) : Nat → Nat
  | 0 => rotate + others 0
  | turn + 1 => drawn rotate others turn + 1 + others (turn + 1)

/-- The counter does not overflow during the call. -/
def NoWrap (self : Inner) (others : Nat → Nat) : Prop :=
  ∀ turn < self.accounts, drawn self.rotate.toNat others turn < 2 ^ 64

instance (self : Inner) (others : Nat → Nat) : Decidable (self.NoWrap others) :=
  inferInstanceAs (Decidable (∀ turn < self.accounts, drawn self.rotate.toNat others turn < 2 ^ 64))

/-- What a call is for: an eligible account if there is one. -/
def Finds (self : Inner) (now : Nat) (others : Nat → Nat) : Prop :=
  ((∃ index, self.Eligible now index) →
    ∃ index, (self.pickAccount now others).1 = some index ∧ self.Eligible now index) ∧
  ((¬ ∃ index, self.Eligible now index) → (self.pickAccount now others).1 = none)

/-! ### The manager's steps -/

theorem run_pick (tunnel : Tunnel) (count : Nat) :
    run Tunnel.step tunnel (List.replicate count .pick) =
      { tunnel with
        inner := { tunnel.inner with rotate := tunnel.inner.rotate + UInt64.ofNat count } } := by
  induction count generalizing tunnel with
  | zero =>
      change tunnel = { tunnel with
        inner := { tunnel.inner with rotate := tunnel.inner.rotate + 0 } }
      rw [UInt64.add_zero]
  | succ count inductionHypothesis =>
      rw [List.replicate_succ, run_cons, inductionHypothesis]
      change { tunnel with
        inner := { tunnel.inner with
                   rotate := tunnel.inner.rotate + 1 + UInt64.ofNat count } } = _
      rw [UInt64.add_assoc, UInt64.add_comm 1, UInt64.ofNat_add]
      rfl

/-- The manager's steps through `pick_account`, with the steps of others between
them, end as the loop says. -/
theorem pickAccountLoop_manage (now : Nat) (others : Nat → Nat) (left turn : Nat)
    (tunnel : Tunnel) (atPhase : tunnel.manager = .picking now left) :
    ∃ steps, (∀ action ∈ steps, action = .pick ∨ action = .manage now true) ∧
      run Tunnel.step tunnel steps = { tunnel with
        inner := (tunnel.inner.pickAccountLoop now others left turn).2
        manager := match (tunnel.inner.pickAccountLoop now others left turn).1 with
          | some index => .acquiring index
          | none => .sleeping } := by
  induction left generalizing turn tunnel with
  | zero =>
      refine ⟨[.manage now true], by simp, ?_⟩
      change tunnel.manage now true = _
      unfold Tunnel.manage
      rw [atPhase]
      rfl
  | succ left inductionHypothesis =>
      generalize value : tunnel.inner.rotate + UInt64.ofNat (others turn) = drawnValue
      generalize added : { tunnel.inner with rotate := drawnValue + 1 } = inner
      have drew : run Tunnel.step tunnel
          (List.replicate (others turn) .pick ++ [.manage now true]) = { tunnel with
            inner
            manager := .looking now left (drawnValue.toNat % tunnel.inner.accounts) } := by
        rw [run_append, run_pick, value]
        change Tunnel.manage _ now true = _
        unfold Tunnel.manage
        dsimp only
        rw [atPhase, ← added]
        rfl
      have picks : ∀ action ∈ List.replicate (others turn) Action.pick ++ [.manage now true],
          action = .pick ∨ action = .manage now true := by
        intro action member
        rcases List.mem_append.mp member with picked | own
        · exact .inl (List.eq_of_mem_replicate picked)
        · exact .inr (List.mem_singleton.mp own)
      have loop : tunnel.inner.pickAccountLoop now others (left + 1) turn =
          if inner.accountNotBefore.getD (drawnValue.toNat % tunnel.inner.accounts) 0 ≤ now then
            (some (drawnValue.toNat % tunnel.inner.accounts), inner)
          else inner.pickAccountLoop now others left (turn + 1) := by
        rw [← added, ← value]
        rfl
      generalize drawnValue.toNat % tunnel.inner.accounts = index at drew loop
      rw [loop]
      by_cases eligible : inner.accountNotBefore.getD index 0 ≤ now
      · rw [if_pos eligible]
        refine ⟨(List.replicate (others turn) .pick ++ [.manage now true]) ++ [.manage now true],
          ?_, ?_⟩
        · intro action member
          rcases List.mem_append.mp member with before | own
          · exact picks action before
          · exact .inr (List.mem_singleton.mp own)
        · rw [run_append, drew]
          exact if_pos eligible
      · rw [if_neg eligible]
        obtain ⟨steps, allowed, ended⟩ := inductionHypothesis (turn + 1)
          { tunnel with inner, manager := .picking now left } rfl
        refine ⟨(List.replicate (others turn) .pick ++ [.manage now true]) ++
          .manage now true :: steps, ?_, ?_⟩
        · intro action member
          rcases List.mem_append.mp member with before | own
          · exact picks action before
          · rcases List.mem_cons.mp own with here | later
            · exact .inr here
            · exact allowed action later
        · have missed : Tunnel.step { tunnel with inner, manager := .looking now left index }
              (.manage now true) = { tunnel with inner, manager := .picking now left } :=
            if_neg eligible
          rw [run_append, drew, run_cons, missed, ended]

/-! ### What the loop finds -/

section Loop

variable {now : Nat} {others : Nat → Nat}

/-- The loop returns an eligible account, unless none of those it draws is. -/
theorem pickAccountLoop_spec (rotate left turn : Nat) (inner : Inner)
    (start : inner.rotate.toNat + others turn = drawn rotate others turn)
    (noWrap : ∀ later < turn + left, drawn rotate others later < 2 ^ 64)
    (positive : 0 < inner.accounts) :
    (∀ index, (inner.pickAccountLoop now others left turn).1 = some index →
      inner.Eligible now index ∧ ∃ later, later < turn + left ∧
        index = drawn rotate others later % inner.accounts) ∧
    ((inner.pickAccountLoop now others left turn).1 = none →
      ∀ later, turn ≤ later → later < turn + left →
        ¬ inner.Eligible now (drawn rotate others later % inner.accounts)) := by
  induction left generalizing turn inner with
  | zero =>
      constructor
      · intro index found
        cases found
      · intro _ later after before
        omega
  | succ left inductionHypothesis =>
      have fits := noWrap turn (by omega)
      have small : others turn < 2 ^ 64 := by omega
      have value : (inner.rotate + UInt64.ofNat (others turn)).toNat =
          drawn rotate others turn := by
        rw [UInt64.toNat_add, UInt64.toNat_ofNat', Nat.mod_eq_of_lt small, start,
          Nat.mod_eq_of_lt fits]
      generalize added :
        { inner with rotate := inner.rotate + UInt64.ofNat (others turn) + 1 } = after
      have accounts : after.accounts = inner.accounts := by
        rw [← added]
        rfl
      have same : ∀ index, after.Eligible now index ↔ inner.Eligible now index := by
        rw [← added]
        exact fun index => Iff.rfl
      have loop : inner.pickAccountLoop now others (left + 1) turn =
          if after.accountNotBefore.getD (drawn rotate others turn % inner.accounts) 0 ≤ now then
            (some (drawn rotate others turn % inner.accounts), after)
          else after.pickAccountLoop now others left (turn + 1) := by
        rw [← added, ← value]
        rfl
      rw [loop]
      by_cases eligible :
          after.accountNotBefore.getD (drawn rotate others turn % inner.accounts) 0 ≤ now
      · rw [if_pos eligible]
        constructor
        · intro index found
          cases found
          have inside : drawn rotate others turn % inner.accounts < after.accounts := by
            rw [accounts]
            exact Nat.mod_lt _ positive
          exact ⟨(same _).mp ⟨inside, eligible⟩, turn, by omega, rfl⟩
        · intro none
          cases none
      · rw [if_neg eligible]
        have blocked : ¬ inner.Eligible now (drawn rotate others turn % inner.accounts) := by
          rw [← same]
          exact fun other => eligible other.2
        rcases Nat.eq_zero_or_pos left with rfl | more
        · constructor
          · intro index found
            cases found
          · intro _ later notBefore before
            have here : later = turn := by omega
            rw [here]
            exact blocked
        · have next : after.rotate.toNat + others (turn + 1) = drawn rotate others (turn + 1) := by
            have fitsNext := noWrap (turn + 1) (by omega)
            rw [drawn] at fitsNext ⊢
            rw [← added, UInt64.toNat_add, value, UInt64.toNat_one, Nat.mod_eq_of_lt (by omega)]
          obtain ⟨found, missed⟩ := inductionHypothesis (turn + 1) after next
            (fun later before => noWrap later (by omega)) (accounts ▸ positive)
          constructor
          · intro index result
            obtain ⟨eligibleLater, later, before, drew⟩ := found index result
            rw [accounts] at drew
            exact ⟨(same index).mp eligibleLater, later, by omega, drew⟩
          · intro none later notBefore before
            rcases Nat.eq_or_lt_of_le notBefore with rfl | past
            · exact blocked
            · rw [← same, ← accounts]
              exact missed none later past (by omega)

end Loop

/-- A call finds an eligible account, if there is one, exactly if one of the values
it draws falls on one. -/
theorem finds_iff_drawn {inner : Inner} {now : Nat} {others : Nat → Nat}
    (noWrap : inner.NoWrap others) :
    inner.Finds now others ↔ ((∃ index, inner.Eligible now index) →
      ∃ turn < inner.accounts,
        inner.Eligible now (drawn inner.rotate.toNat others turn % inner.accounts)) := by
  rcases Nat.eq_zero_or_pos inner.accounts with empty | positive
  · have none : ¬ ∃ index, inner.Eligible now index := by
      rintro ⟨index, inside, -⟩
      omega
    have result : (inner.pickAccount now others).1 = .none := by
      unfold pickAccount
      rw [empty]
      rfl
    exact ⟨fun _ some => absurd some none, fun _ => ⟨fun some => absurd some none, fun _ => result⟩⟩
  · obtain ⟨found, missed⟩ : (∀ index, (inner.pickAccount now others).1 = some index → _) ∧
        ((inner.pickAccount now others).1 = none → _) :=
      pickAccountLoop_spec inner.rotate.toNat inner.accounts 0 inner rfl
        (fun later before => noWrap later (by omega)) positive
    unfold Finds
    cases result : (inner.pickAccount now others).1 with
    | some index =>
        obtain ⟨eligible, turn, before, drew⟩ := found index result
        rw [drew] at eligible
        constructor
        · exact fun _ _ => ⟨turn, by omega, eligible⟩
        · intro _
          refine ⟨fun _ => ⟨index, rfl, drew.symm ▸ eligible⟩, ?_⟩
          intro none
          exact absurd ⟨_, eligible⟩ none
    | none =>
        have none := missed result
        constructor
        · intro finds some
          obtain ⟨index, impossible, -⟩ := finds.1 some
          cases impossible
        · intro drew
          refine ⟨?_, fun _ => rfl⟩
          intro some
          obtain ⟨turn, before, eligible⟩ := drew some
          exact absurd eligible (none turn (Nat.zero_le _) (by omega))

/-- The accounts whose turn comes in the call are pairwise different. -/
def Apart (accounts rotate : Nat) (others : Nat → Nat) : Prop :=
  ∀ turn < accounts, ∀ other < accounts,
    drawn rotate others turn % accounts = drawn rotate others other % accounts → turn = other

/-- If no account comes up twice, every account comes up. -/
theorem Apart.covers {accounts rotate : Nat} {others : Nat → Nat}
    (apart : Apart accounts rotate others) {index : Nat} (inside : index < accounts) :
    ∃ turn < accounts, drawn rotate others turn % accounts = index := by
  have positive : 0 < accounts := Nat.zero_lt_of_lt inside
  have injective : Function.Injective fun turn : Fin accounts =>
      (⟨drawn rotate others turn % accounts, Nat.mod_lt _ positive⟩ : Fin accounts) := by
    intro turn other same
    exact Fin.ext (apart turn turn.isLt other other.isLt (congrArg Fin.val same))
  obtain ⟨turn, here⟩ := (Finite.injective_iff_surjective.mp injective) ⟨index, inside⟩
  exact ⟨turn, turn.isLt, congrArg Fin.val here⟩

/-- If every account comes up, none comes up twice. -/
theorem apart_of_covers {accounts rotate : Nat} {others : Nat → Nat}
    (covers : ∀ index < accounts, ∃ turn < accounts,
      drawn rotate others turn % accounts = index) : Apart accounts rotate others := by
  intro turn before other otherBefore same
  have positive : 0 < accounts := Nat.zero_lt_of_lt before
  have surjective : Function.Surjective fun turn : Fin accounts =>
      (⟨drawn rotate others turn % accounts, Nat.mod_lt _ positive⟩ : Fin accounts) := by
    intro index
    obtain ⟨later, laterBefore, here⟩ := covers index index.isLt
    exact ⟨⟨later, laterBefore⟩, Fin.ext here⟩
  have injective := Finite.injective_iff_surjective.mpr surjective
  have equal : (⟨turn, before⟩ : Fin accounts) = ⟨other, otherBefore⟩ := injective (Fin.ext same)
  exact congrArg Fin.val equal

/-- One account is eligible, the others are not. -/
def onlyAfter (accounts index : Nat) : List Nat := (List.replicate accounts 1).set index 0

theorem eligible_onlyAfter {inner : Inner} {index other : Nat} (inside : index < inner.accounts) :
    Eligible { inner with accountNotBefore := onlyAfter inner.accounts index } 0 other ↔
      other = index := by
  unfold Eligible Inner.accounts onlyAfter
  dsimp only
  rw [List.length_set, List.length_replicate, List.getD_eq_getElem?_getD]
  by_cases same : index = other
  · subst same
    rw [List.getElem?_set_self (by rw [List.length_replicate]; exact inside)]
    exact ⟨fun _ => rfl, fun _ => ⟨inside, Nat.le_refl 0⟩⟩
  · rw [List.getElem?_set_ne same, List.getElem?_replicate]
    constructor
    · rintro ⟨below, early⟩
      change other < inner.accounts at below
      change (if other < inner.accounts then some 1 else none).getD 0 ≤ 0 at early
      rw [if_pos below] at early
      cases early
    · exact fun equal => absurd equal.symm same

/-- A call finds an eligible account exactly if there is none or one of the values
it draws falls on one. For every account to be found whenever it is the eligible
one, the values must be different modulo the number of accounts. -/
theorem pickAccount_finds_iff {inner : Inner} {others : Nat → Nat}
    (noWrap : inner.NoWrap others) :
    (∀ now, inner.Finds now others ↔ ((∃ index, inner.Eligible now index) →
      ∃ turn < inner.accounts,
        inner.Eligible now (drawn inner.rotate.toNat others turn % inner.accounts))) ∧
    ((∀ accountNotBefore now, accountNotBefore.length = inner.accounts →
      { inner with accountNotBefore }.Finds now others) ↔
        Apart inner.accounts inner.rotate.toNat others) := by
  refine ⟨fun now => finds_iff_drawn noWrap, ?_⟩
  have drawn_iff : ∀ {accountNotBefore : List Nat} {now : Nat},
      accountNotBefore.length = inner.accounts →
      ({ inner with accountNotBefore }.Finds now others ↔
        ((∃ index, { inner with accountNotBefore }.Eligible now index) →
          ∃ turn < inner.accounts, { inner with accountNotBefore }.Eligible now
            (drawn inner.rotate.toNat others turn % inner.accounts))) := by
    intro accountNotBefore now length
    have same : { inner with accountNotBefore }.accounts = inner.accounts := length
    have noWrapHere : { inner with accountNotBefore }.NoWrap others := by
      intro turn before
      rw [same] at before
      exact noWrap turn before
    rw [finds_iff_drawn noWrapHere, same]
  constructor
  · intro finds
    apply apart_of_covers
    intro index inside
    have length : (onlyAfter inner.accounts index).length = inner.accounts := by
      rw [onlyAfter, List.length_set, List.length_replicate]
    obtain ⟨turn, before, eligible⟩ := (drawn_iff length).mp (finds _ 0 length)
      ⟨index, (eligible_onlyAfter inside).mpr rfl⟩
    exact ⟨turn, before, (eligible_onlyAfter inside).mp eligible⟩
  · intro apart accountNotBefore now length
    apply (drawn_iff length).mpr
    rintro ⟨index, inside, early⟩
    have below : index < inner.accounts := length ▸ inside
    obtain ⟨turn, before, here⟩ := apart.covers below
    refine ⟨turn, before, ?_⟩
    rw [here]
    exact ⟨inside, early⟩

/-- Two accounts of which the second is eligible, and nobody else draws. -/
theorem pickAccount_finds_iff_alone :
    { (Tunnel.startWith 1 2).inner with accountNotBefore := [5, 0] }.Finds 0 (fun _ => 0) :=
  ((pickAccount_finds_iff (by decide)).1 0).mpr fun _ => ⟨1, by decide, by decide⟩

/-- Between the two draws of the call another one draws: it comes to the first
account twice. -/
theorem pickAccount_misses :
    ¬ ∀ (inner : Inner) (now : Nat) (others : Nat → Nat), inner.NoWrap others →
      inner.Finds now others := by
  intro finds
  obtain ⟨index, found, -⟩ := (finds
    { (Tunnel.startWith 1 2).inner with accountNotBefore := [5, 0] } 0 id (by decide)).1
      ⟨1, by decide⟩
  revert found
  decide +revert

end Inner

end Unroxy.Ssh
