import Mathlib.Data.List.Basic

/-!
Owns runs of a step function, and the invariant rule for runs whose every step
is allowed where it is taken.

Does not own any particular step.
-/

namespace Unroxy.Lib

variable {σ α : Type}

/-- The state these steps lead to. -/
def run (step : σ → α → σ) (state : σ) (steps : List α) : σ := steps.foldl step state

@[simp] theorem run_cons (step : σ → α → σ) (state : σ) (action : α) (rest : List α) :
    run step state (action :: rest) = run step (step state action) rest := rfl

theorem run_append (step : σ → α → σ) (state : σ) (steps later : List α) :
    run step state (steps ++ later) = run step (run step state steps) later :=
  List.foldl_append

/-- Some steps lead from one state to the other. -/
def Leads (step : σ → α → σ) (state later : σ) : Prop := ∃ steps, run step state steps = later

theorem Leads.refl (step : σ → α → σ) (state : σ) : Leads step state state := ⟨[], rfl⟩

theorem Leads.one (step : σ → α → σ) (state : σ) (action : α) :
    Leads step state (step state action) := ⟨[action], rfl⟩

theorem Leads.trans {step : σ → α → σ} {state later last : σ} (first : Leads step state later)
    (second : Leads step later last) : Leads step state last := by
  obtain ⟨steps, rfl⟩ := first
  obtain ⟨more, rfl⟩ := second
  exact ⟨steps ++ more, run_append step state steps more⟩

theorem Leads.next {step : σ → α → σ} {state later : σ} (first : Leads step state later)
    (action : α) : Leads step state (step later action) :=
  first.trans (Leads.one step later action)

/-- Every step of the run is allowed in the state in which it is taken. -/
def Along (step : σ → α → σ) (allowed : σ → α → Prop) : σ → List α → Prop
  | _, [] => True
  | state, action :: rest => allowed state action ∧ Along step allowed (step state action) rest

instance Along.decidable (step : σ → α → σ) (allowed : σ → α → Prop)
    [∀ state action, Decidable (allowed state action)] :
    ∀ state steps, Decidable (Along step allowed state steps)
  | _, [] => .isTrue trivial
  | state, action :: rest =>
      have := Along.decidable step allowed (step state action) rest
      inferInstanceAs (Decidable (allowed state action ∧ _))

theorem Along.and {step : σ → α → σ} {left right : σ → α → Prop} {steps : List α} :
    ∀ {state}, Along step left state steps → Along step right state steps →
      Along step (fun state action => left state action ∧ right state action) state steps := by
  induction steps with
  | nil => exact fun _ _ => trivial
  | cons action rest inductionHypothesis =>
      exact fun first second => ⟨⟨first.1, second.1⟩, inductionHypothesis first.2 second.2⟩

/-- Where a step is taken makes no difference to whether it is allowed. -/
theorem Along.of_mem {step : σ → α → σ} {allowed : α → Prop} {steps : List α} :
    ∀ {state}, (∀ action ∈ steps, allowed action) →
      Along step (fun _ action => allowed action) state steps := by
  induction steps with
  | nil => exact fun _ => trivial
  | cons action rest inductionHypothesis =>
      intro state each
      exact ⟨each action List.mem_cons_self,
        inductionHypothesis fun later among => each later (List.mem_cons_of_mem _ among)⟩

theorem Along.of_all {step : σ → α → σ} {allowed : σ → α → Prop}
    (each : ∀ state action, allowed state action) (steps : List α) :
    ∀ state, Along step allowed state steps := by
  induction steps with
  | nil => exact fun _ => trivial
  | cons action rest inductionHypothesis =>
      exact fun state => ⟨each state action, inductionHypothesis _⟩

/-- The beginning of a run of allowed steps is one. -/
theorem Along.left {step : σ → α → σ} {allowed : σ → α → Prop} {steps later : List α} :
    ∀ {state}, Along step allowed state (steps ++ later) → Along step allowed state steps := by
  induction steps with
  | nil => exact fun _ => trivial
  | cons action rest inductionHypothesis =>
      exact fun along => ⟨along.1, inductionHypothesis along.2⟩

/-- What every allowed step keeps holds at the end of the run. -/
theorem run_invariant {step : σ → α → σ} {allowed : σ → α → Prop} {invariant : σ → Prop}
    (kept : ∀ state action, invariant state → allowed state action →
      invariant (step state action)) (steps : List α) :
    ∀ {state}, invariant state → Along step allowed state steps →
      invariant (run step state steps) := by
  induction steps with
  | nil => exact fun held _ => held
  | cons action rest inductionHypothesis =>
      intro state held along
      exact inductionHypothesis (kept state action held along.1) along.2

/-- What every step keeps holds at the end of the run. -/
theorem run_always {step : σ → α → σ} {invariant : σ → Prop}
    (kept : ∀ state action, invariant state → invariant (step state action)) (steps : List α)
    {state : σ} (held : invariant state) : invariant (run step state steps) := by
  induction steps generalizing state with
  | nil => exact held
  | cons action rest inductionHypothesis => exact inductionHypothesis (kept state action held)

/-- Two runs with the same steps stay related if every step keeps them so. -/
theorem run_related {τ : Type} {step : σ → α → σ} {other : τ → α → τ} {related : σ → τ → Prop}
    (kept : ∀ state model action, related state model →
      related (step state action) (other model action)) (steps : List α) :
    ∀ {state model}, related state model →
      related (run step state steps) (run other model steps) := by
  induction steps with
  | nil => exact fun held => held
  | cons action rest inductionHypothesis =>
      intro state model held
      exact inductionHypothesis (kept state model action held)

/-- If the allowed steps are those that keep a state good, the runs that stay
good are the runs of allowed steps. -/
theorem always_iff_along {step : σ → α → σ} {allowed : σ → α → Prop} {invariant good : σ → Prop}
    (kept : ∀ state action, invariant state → invariant (step state action))
    (one : ∀ state action, invariant state → good state →
      (good (step state action) ↔ allowed state action)) (steps : List α) :
    ∀ {state}, invariant state → good state →
      ((∀ done, done <+: steps → good (run step state done)) ↔
        Along step allowed state steps) := by
  induction steps with
  | nil =>
      intro state _ goodHere
      constructor
      · exact fun _ => trivial
      · intro _ done short
        rw [List.prefix_nil.mp short]
        exact goodHere
  | cons action rest inductionHypothesis =>
      intro state held goodHere
      have later := inductionHypothesis (kept state action held)
      constructor
      · intro always
        have goodNext : good (step state action) := always [action] ⟨rest, rfl⟩
        refine ⟨(one state action held goodHere).mp goodNext, (later goodNext).mp ?_⟩
        intro done short
        exact always (action :: done) (List.cons_prefix_cons.mpr ⟨rfl, short⟩)
      · intro along done short
        have goodNext := (one state action held goodHere).mpr along.1
        cases done with
        | nil => exact goodHere
        | cons first done =>
            obtain ⟨rfl, shorter⟩ := List.cons_prefix_cons.mp short
            exact (later goodNext).mpr along.2 done shorter

theorem Leads.always {step : σ → α → σ} {invariant : σ → Prop} {state later : σ}
    (leads : Leads step state later)
    (kept : ∀ state action, invariant state → invariant (step state action))
    (held : invariant state) : invariant later := by
  obtain ⟨steps, rfl⟩ := leads
  exact run_always kept steps held

end Unroxy.Lib
