import Unroxy.Lib.Run

/-!
Owns the comparison of a run with the run that is left when some of its steps are
taken out.

Does not own why a step may be taken out.
-/

namespace Unroxy.Lib

variable {σ α : Type}

/-- A step, and whether it is one of those that were inserted. -/
structure Marked (α : Type) where
  action : α
  inserted : Bool

def everything (entries : List (Marked α)) : List α := entries.map Marked.action

/-- The steps that were there before. -/
def original (entries : List (Marked α)) : List α :=
  (entries.filter fun entry => !entry.inserted).map Marked.action

section Insertions

variable {step : σ → α → σ} {same observed : σ → σ → Prop} {inert : σ → α → Prop}

/-- `same` is kept by every step, and `observed` is what is looked at. If an inert
step changes nothing, and any other is seen, two runs look the same all the way
exactly if each inserted step was inert when it came. -/
theorem insertions_iff (equivalence : Equivalence same) (observation : Equivalence observed)
    (looks : ∀ {left right}, same left right → observed left right)
    (congruent : ∀ {left right} action, same left right →
      same (step left action) (step right action))
    (unnoticed : ∀ state action, inert state action → same (step state action) state)
    (noticed : ∀ state action, observed (step state action) state → inert state action)
    (entries : List (Marked α)) :
    ∀ {state other}, same state other →
      ((∀ done, done <+: entries →
          observed (run step state (everything done)) (run step other (original done))) ↔
        Along (fun state (entry : Marked α) => step state entry.action)
          (fun state entry => entry.inserted = true → inert state entry.action)
          state entries) := by
  induction entries with
  | nil =>
      intro state other agree
      constructor
      · exact fun _ => trivial
      · intro _ done short
        rw [List.prefix_nil.mp short]
        exact looks agree
  | cons entry rest inductionHypothesis =>
      intro state other agree
      obtain ⟨action, inserted⟩ := entry
      cases inserted with
      | false =>
          have later := inductionHypothesis (congruent action agree)
          constructor
          · intro always
            refine ⟨fun impossible => (Bool.false_ne_true impossible).elim, later.mp ?_⟩
            intro done short
            exact always (⟨action, false⟩ :: done) (List.cons_prefix_cons.mpr ⟨rfl, short⟩)
          · intro along done short
            rcases List.prefix_cons_iff.mp short with rfl | ⟨shorter, rfl, inside⟩
            · exact looks agree
            · exact later.mpr along.2 shorter inside
      | true =>
          constructor
          · intro always
            have seen : observed (step state action) other :=
              always [⟨action, true⟩] ⟨rest, rfl⟩
            have isInert := noticed state action
              (observation.trans seen (observation.symm (looks agree)))
            have next := equivalence.trans (unnoticed state action isInert) agree
            refine ⟨fun _ => isInert, (inductionHypothesis next).mp ?_⟩
            intro done short
            exact always (⟨action, true⟩ :: done) (List.cons_prefix_cons.mpr ⟨rfl, short⟩)
          · intro along done short
            have next := equivalence.trans (unnoticed state action (along.1 rfl)) agree
            rcases List.prefix_cons_iff.mp short with rfl | ⟨shorter, rfl, inside⟩
            · exact looks agree
            · exact (inductionHypothesis next).mpr along.2 shorter inside

end Insertions

end Unroxy.Lib
