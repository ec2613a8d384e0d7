import Unroxy.Proxy.Pool

/-!
Owns one turn of the two loops that choose an exit: `ProxyPool::select` of
`proxy/pool.rs` and `RotatingTransport::ready_candidate` of `upstream.rs`. Which
tunnels are ready is a parameter: it changes between turns.

Does not own the waiting between turns.
-/

namespace Unroxy.Proxy

variable {τ : Type}

/-- How a turn ends: there is nothing to choose from, a candidate is chosen, or
the loop sleeps and looks again. -/
inductive Turn (τ : Type) where
  | none
  | found (candidate : Candidate τ)
  | again
deriving DecidableEq, Repr

/-- The first candidate that is ready. -/
def firstReady (isReady : Candidate τ → Bool) (pool : List (Candidate τ)) : Turn τ :=
  match pool.find? isReady with
  | some ready => .found ready
  | none => .again

def selectTurn (isReady : Candidate τ → Bool) (candidates : List (Candidate τ)) : Turn τ :=
  if candidates.isEmpty then .none else firstReady isReady candidates

def readyCandidateTurn (isReady : Candidate τ → Bool) (skip : List String)
    (candidates : List (Candidate τ)) : Turn τ :=
  if candidates.isEmpty then
    .none
  else
    let untried := candidates.filter fun candidate => !skip.contains candidate.key
    firstReady isReady (if untried.isEmpty then candidates else untried)

theorem selectTurn_found {isReady : Candidate τ → Bool} {candidates : List (Candidate τ)}
    {candidate : Candidate τ} (found : selectTurn isReady candidates = .found candidate) :
    candidate ∈ candidates ∧ isReady candidate = true := by
  unfold selectTurn firstReady at found
  split at found
  · cases found
  · split at found
    · next ready first =>
        cases found
        exact ⟨List.mem_of_find?_eq_some first, List.find?_some first⟩
    · cases found

/-- A candidate is chosen if it is the only one that is ready. -/
theorem selectTurn_only {isReady : Candidate τ → Bool} {candidates : List (Candidate τ)}
    {candidate : Candidate τ} (member : candidate ∈ candidates)
    (ready : isReady candidate = true)
    (only : ∀ other ∈ candidates, isReady other = true → other = candidate) :
    selectTurn isReady candidates = .found candidate := by
  have nonempty : candidates.isEmpty = false := by
    cases candidates with
    | nil => cases member
    | cons => rfl
  unfold selectTurn firstReady
  rw [nonempty, if_neg Bool.false_ne_true]
  cases first : candidates.find? isReady with
  | none => exact absurd ready (List.find?_eq_none.mp first candidate member)
  | some other =>
      rw [only other (List.mem_of_find?_eq_some first) (List.find?_some first)]

/-- A candidate that is to be skipped is chosen only if all are. -/
theorem readyCandidateTurn_found {isReady : Candidate τ → Bool} {skip : List String}
    {candidates : List (Candidate τ)} {candidate : Candidate τ}
    (found : readyCandidateTurn isReady skip candidates = .found candidate)
    (skipped : candidate.key ∈ skip) : ∀ other ∈ candidates, other.key ∈ skip := by
  unfold readyCandidateTurn firstReady at found
  split at found
  · cases found
  · dsimp only at found
    split at found
    · next ready first =>
        cases found
        have chosen := List.mem_of_find?_eq_some first
        split at chosen
        · next none =>
            intro other member
            by_contra untried
            have kept : other ∈ candidates.filter fun candidate => !skip.contains candidate.key :=
              List.mem_filter.mpr ⟨member, by simpa using untried⟩
            rw [List.isEmpty_iff.mp none] at kept
            cases kept
        · have untried := (List.mem_filter.mp chosen).2
          simp [skipped] at untried
    · cases found

end Unroxy.Proxy
