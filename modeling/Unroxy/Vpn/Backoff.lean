import Unroxy.Vpn.History

/-!
Owns whether an account waits after a failed connection.

`connect` counts the backoff from the time at which the attempt began, and not at
all when the tunnel came up without its bridge. `Paced` is what holds while every
failure is one of the tunnel and takes no time.
-/

namespace Unroxy.Vpn

open Unroxy.Lib

def Attempt.failed : Attempt → Bool
  | .up _ => false
  | .bridgeFailed | .tunnelFailed => true

/-- The failures since the last success; the latest attempt stands first. -/
def consecutive (attempts : List Tried) : Nat :=
  (attempts.takeWhile fun tried => tried.outcome.failed).length

/-- At this time the backoff after each failure among the attempts is over. -/
def Passed (attempts : List Tried) (time : Nat) : Prop :=
  ∀ later tried earlier, attempts = later ++ tried :: earlier → tried.outcome.failed = true →
    tried.finish + backoffDelay (consecutive (tried :: earlier)) ≤ time

/-- No attempt begins before the backoff after each failure before it is over. -/
def Honoured (attempts : List Tried) : Prop :=
  ∀ later tried earlier, attempts = later ++ tried :: earlier → Passed earlier tried.start

/-- The attempt fails only in `VpnTunnel::connect`, and then at once. -/
def Dial.Prompt (dial : Dial) : Prop :=
  dial.outcome.failed = true → dial.outcome = .tunnelFailed ∧ dial.duration = 0

theorem backoffDelay_mono {failures more : Nat} (fewer : failures ≤ more) :
    backoffDelay failures ≤ backoffDelay more := by
  apply Nat.mul_le_mul_left
  apply Nat.pow_le_pow_right (Nat.two_pos)
  omega

theorem backoffDelay_pos (failures : Nat) : 0 < backoffDelay failures :=
  Nat.mul_pos (by decide) (Nat.two_pow_pos _)

theorem consecutive_up {tried : Tried} (attempts : List Tried)
    (success : tried.outcome.failed = false) : consecutive (tried :: attempts) = 0 := by
  simp [consecutive, success]

theorem consecutive_failed {tried : Tried} (attempts : List Tried)
    (failed : tried.outcome.failed = true) :
    consecutive (tried :: attempts) = consecutive attempts + 1 := by
  simp [consecutive, failed]

theorem Passed.mono {attempts : List Tried} {time later : Nat} (passed : Passed attempts time)
    (after : time ≤ later) : Passed attempts later := by
  intro newer tried earlier split failed
  exact Nat.le_trans (passed newer tried earlier split failed) after

/-- One more attempt, and its own backoff. -/
theorem Passed.cons {attempts : List Tried} {tried : Tried} {time : Nat}
    (passed : Passed attempts time)
    (own : tried.outcome.failed = true →
      tried.finish + backoffDelay (consecutive (tried :: attempts)) ≤ time) :
    Passed (tried :: attempts) time := by
  intro later other earlier split failed
  cases later with
  | nil =>
      injection split with same rest
      subst same rest
      exact own failed
  | cons newest later =>
      injection split with same rest
      exact passed later other earlier rest failed

theorem Honoured.cons {attempts : List Tried} {tried : Tried} (honoured : Honoured attempts)
    (passed : Passed attempts tried.start) : Honoured (tried :: attempts) := by
  intro later other earlier split
  cases later with
  | nil =>
      injection split with same rest
      subst same rest
      exact passed
  | cons newest later =>
      injection split with same rest
      exact honoured later other earlier rest

namespace History

/-! ### What the steps do to the backoff -/

/-- Time went on, and nothing else that the backoff depends on changed. -/
structure Rests (history later : History) : Prop where
  attempts : later.attempts = history.attempts
  failures : later.account.failures = history.account.failures
  notBefore : later.account.notBefore = history.account.notBefore
  now : history.now ≤ later.now

theorem reap_backoff (account : Account) (config : Config) (now : Nat) :
    (account.reap config now).failures = account.failures ∧
      (account.reap config now).notBefore = account.notBefore := by
  unfold Account.reap
  split
  · exact ⟨rfl, rfl⟩
  · split
    · exact ⟨rfl, rfl⟩
    · dsimp only
      split
      · exact ⟨rfl, rfl⟩
      · split
        · exact ⟨rfl, rfl⟩
        · exact ⟨rfl, rfl⟩

theorem live_backoff {account : Account} {id : Nat} (filled : account.slot = some id) (now : Nat) :
    (account.live now).2.failures = account.failures ∧
      (account.live now).2.notBefore = account.notBefore := by
  unfold Account.live
  rw [filled]
  exact ⟨rfl, rfl⟩

theorem rests_opened (history : History) (task : Nat) (success : Bool) :
    history.Rests (history.opened task success) := by
  unfold opened
  split
  · exact ⟨rfl, rfl, rfl, Nat.le_refl _⟩
  · dsimp only
    split
    · exact ⟨rfl, rfl, rfl, Nat.le_refl _⟩
    · exact ⟨rfl, rfl, rfl, Nat.le_refl _⟩

theorem rests_drop (history : History) (guard : Nat) : history.Rests (history.drop guard) := by
  unfold drop
  split
  · exact ⟨rfl, rfl, rfl, Nat.le_refl _⟩
  · exact ⟨rfl, rfl, rfl, Nat.le_refl _⟩

theorem rests_reap (history : History) (config : Config) : history.Rests (history.reap config) where
  attempts := rfl
  failures := (reap_backoff history.account config history.now).1
  notBefore := (reap_backoff history.account config history.now).2
  now := Nat.le_refl _

theorem rests_pass (history : History) (wait : Nat) : history.Rests (history.pass wait) where
  attempts := rfl
  failures := rfl
  notBefore := rfl
  now := Nat.le_add_right _ _

theorem rests_use (history : History) (opens : Bool) (id : Nat) :
    history.Rests (history.use opens id) :=
  ⟨rfl, rfl, rfl, Nat.le_refl _⟩

/-- A call of `live` leaves the backoff alone, or connects when it is over. -/
theorem rests_live (dials : Nat → Dial) (history : History) (opens : Bool) :
    history.Rests (history.live dials opens) ∨
      history.account.slot = none ∧ history.account.notBefore ≤ history.now ∧
        (history.connect (dials history.attempts.length)).Rests (history.live dials opens) := by
  rcases history.live_history dials opens with
    ⟨id, filled, found⟩ | ⟨-, -, refused⟩ |
      ⟨empty, due, connected, rfl, ⟨-, ended⟩ | ⟨id, -, ended⟩⟩
  · left
    rw [found]
    have same := live_backoff filled history.now
    exact ⟨rfl, same.1, same.2, Nat.le_refl _⟩
  · left
    rw [refused]
    exact ⟨rfl, rfl, rfl, Nat.le_refl _⟩
  · right
    rw [ended]
    exact ⟨empty, due, rfl, rfl, rfl, Nat.le_refl _⟩
  · right
    rw [ended]
    exact ⟨empty, due, rests_use _ opens id⟩

/-- A property of histories that is kept while the backoff rests, and by
`connect`, holds in every history. -/
theorem run_paced {config : Config} {dials : Nat → Dial} {invariant : History → Prop}
    (start : invariant new)
    (rests : ∀ {history later : History}, invariant history → history.Rests later →
      invariant later)
    (connects : ∀ {history : History}, invariant history →
      history.account.notBefore ≤ history.now →
      invariant (history.connect (dials history.attempts.length)))
    (deeds : List Deed) : invariant (run (step config dials) new deeds) := by
  have live : ∀ history opens, invariant history → invariant (live dials history opens) := by
    intro history opens held
    rcases history.rests_live dials opens with same | ⟨-, due, later⟩
    · exact rests held same
    · exact rests (connects held due) later
  have kept : ∀ history deed, invariant history → invariant (step config dials history deed) := by
    intro history deed held
    have passed := rests held (history.rests_pass deed.wait)
    cases deed with
    | warm wait => exact live _ false passed
    | dial wait => exact live _ true passed
    | opened wait task success => exact rests passed (rests_opened _ task success)
    | drop wait guard => exact rests passed (rests_drop _ guard)
    | reap wait => exact rests passed (rests_reap _ config)
  exact run_always kept deeds start

/-! ### Prompt failures are waited for -/

structure Paced (history : History) : Prop where
  failures : history.account.failures = consecutive history.attempts
  honoured : Honoured history.attempts
  passed : Passed history.attempts (max history.account.notBefore history.now)

theorem paced_new : new.Paced where
  failures := rfl
  honoured := by
    intro later tried earlier split
    simp [new] at split
  passed := by
    intro later tried earlier split
    simp [new] at split

theorem Paced.rests {history later : History} (paced : history.Paced)
    (rests : history.Rests later) : later.Paced where
  failures := by rw [rests.failures, rests.attempts, paced.failures]
  honoured := by
    rw [rests.attempts]
    exact paced.honoured
  passed := by
    rw [rests.attempts, rests.notBefore]
    have after := rests.now
    exact paced.passed.mono (by omega)

theorem Paced.connect {history : History} (paced : history.Paced)
    (due : history.account.notBefore ≤ history.now) {dial : Dial} (prompt : dial.Prompt) :
    (history.connect dial).Paced := by
  have passedNow : Passed history.attempts history.now := by
    have passed := paced.passed
    rwa [Nat.max_eq_right due] at passed
  obtain ⟨duration, outcome⟩ := dial
  have honoured : Honoured (history.connect ⟨duration, outcome⟩).attempts :=
    paced.honoured.cons passedNow
  cases outcome with
  | up port =>
      refine ⟨(consecutive_up _ rfl).symm, honoured, ?_⟩
      apply Passed.cons
      · apply passedNow.mono
        change history.now ≤ max _ (history.now + duration)
        omega
      · intro failed
        cases failed
  | bridgeFailed => cases (prompt rfl).1
  | tunnelFailed =>
      have instant : duration = 0 := (prompt rfl).2
      have counted : consecutive (Dial.tried ⟨duration, .tunnelFailed⟩ history.now ::
          history.attempts) = consecutive history.attempts + 1 :=
        consecutive_failed history.attempts rfl
      have failures : (history.connect ⟨duration, .tunnelFailed⟩).account.failures =
          consecutive (history.connect ⟨duration, .tunnelFailed⟩).attempts := by
        change history.account.failures + 1 = _
        rw [paced.failures]
        exact counted.symm
      have deadline : (history.connect ⟨duration, .tunnelFailed⟩).account.notBefore =
          history.now + backoffDelay (history.account.failures + 1) := rfl
      refine ⟨failures, honoured, ?_⟩
      apply Passed.cons
      · apply passedNow.mono
        rw [deadline]
        omega
      · intro _
        rw [deadline, counted, ← paced.failures]
        change history.now + duration + _ ≤ max _ (history.now + duration)
        omega

/-! ### Every attempt can come about -/

/-- The account counts no more failures than there are: not those of the bridge. -/
theorem failures_le (config : Config) (dials : Nat → Dial) (deeds : List Deed) :
    (run (step config dials) new deeds).account.failures ≤
      consecutive (run (step config dials) new deeds).attempts := by
  have rests : ∀ {history later : History},
      history.account.failures ≤ consecutive history.attempts → history.Rests later →
      later.account.failures ≤ consecutive later.attempts := by
    intro history later fewer rests
    rw [rests.failures, rests.attempts]
    exact fewer
  refine run_paced (Nat.le_refl 0) rests ?_ deeds
  intro history fewer _
  generalize dials history.attempts.length = dial
  obtain ⟨duration, outcome⟩ := dial
  cases outcome with
  | up port => exact Nat.zero_le _
  | bridgeFailed =>
      change history.account.failures ≤ consecutive (_ :: history.attempts)
      rw [consecutive_failed history.attempts rfl]
      omega
  | tunnelFailed =>
      change history.account.failures + 1 ≤ consecutive (_ :: history.attempts)
      rw [consecutive_failed history.attempts rfl]
      omega

section Reach

variable (config : Config) (dials : Nat → Dial)

/-- A call that comes once the backoff is over connects. -/
theorem warm_connects {history : History} (empty : history.account.slot = none) {wait : Nat}
    (due : history.account.notBefore ≤ history.now + wait) {connected : History}
    (attempt : connected = (history.pass wait).connect (dials history.attempts.length)) :
    (step config dials history (.warm wait)).account = connected.account ∧
      (step config dials history (.warm wait)).now = connected.now ∧
      (step config dials history (.warm wait)).attempts = connected.attempts := by
  subst attempt
  have called : (history.pass wait).account.live (history.pass wait).now =
      (.connect, history.account) := by
    change history.account.live (history.now + wait) = _
    unfold Account.live
    rw [empty]
    exact if_neg (Nat.not_lt.mpr due)
  have ended : step config dials history (.warm wait) = live dials (history.pass wait) false := rfl
  rw [ended]
  unfold live
  rw [called]
  dsimp only
  split
  · exact ⟨rfl, rfl, rfl⟩
  · exact ⟨rfl, rfl, rfl⟩

/-- An unused tunnel leaves the slot after two calls of `reap`. -/
theorem reap_empties {history : History} {id : Nat} {unused : Live}
    (filled : history.account.slot = some id) (found : history.account.lives[id]? = some unused)
    (idle : unused.connections = 0) :
    ∃ deeds, (run (step config dials) history deeds).account.slot = none ∧
      (run (step config dials) history deeds).attempts = history.attempts := by
  rcases Account.reap_starts filled found idle config history.now with
    closed | ⟨kept, since, started⟩
  · exact ⟨[.reap 0], closed, rfl⟩
  · refine ⟨[.reap 0, .reap (since + config.idleTimeout)], ?_, rfl⟩
    exact Account.reap_expired kept started (by
      change since + config.idleTimeout ≤ history.now + 0 + (since + config.idleTimeout)
      omega)

/-- From an empty slot one more attempt can be made, and the slot emptied again. -/
theorem reach_next {history : History} (empty : history.account.slot = none) :
    ∃ deeds, (run (step config dials) history deeds).account.slot = none ∧
      (run (step config dials) history deeds).attempts.length = history.attempts.length + 1 := by
  have due : history.account.notBefore ≤ history.now + history.account.notBefore :=
    Nat.le_add_left _ _
  obtain ⟨account, -, attempts⟩ := warm_connects config dials empty due rfl
  generalize called : step config dials history (.warm history.account.notBefore) = later
    at account attempts
  have counted : later.attempts.length = history.attempts.length + 1 := by
    rw [attempts]
    rfl
  have failedEmpty : later.account.slot = none →
      ∃ deeds, (run (step config dials) history deeds).account.slot = none ∧
        (run (step config dials) history deeds).attempts.length =
          history.attempts.length + 1 := by
    intro stillEmpty
    refine ⟨[.warm history.account.notBefore], ?_⟩
    rw [run_cons, called]
    exact ⟨stillEmpty, counted⟩
  cases ended : (dials history.attempts.length).outcome with
  | up port =>
      have up : later.account = history.account.connect
          (history.now + history.account.notBefore) (.up port) := by
        rw [account, ← ended]
        rfl
      have filled : later.account.slot = some history.account.lives.length := by
        rw [up]
        rfl
      have found : later.account.lives[history.account.lives.length]? =
          some { connections := 0, idleSince := none } := by
        rw [up]
        exact List.getElem?_concat_length
      obtain ⟨deeds, emptied, same⟩ := reap_empties config dials filled found rfl
      refine ⟨.warm history.account.notBefore :: deeds, ?_⟩
      rw [run_cons, called, same]
      exact ⟨emptied, counted⟩
  | bridgeFailed =>
      apply failedEmpty
      rw [account]
      change (history.account.connect _ (dials history.attempts.length).outcome).slot = none
      rw [ended]
      exact empty
  | tunnelFailed =>
      apply failedEmpty
      rw [account]
      change (history.account.connect _ (dials history.attempts.length).outcome).slot = none
      rw [ended]
      exact empty

/-- There is a history in which this many attempts were made and the slot is
empty. -/
theorem reach (count : Nat) :
    ∃ deeds, (run (step config dials) new deeds).account.slot = none ∧
      (run (step config dials) new deeds).attempts.length = count := by
  induction count with
  | zero => exact ⟨[], rfl, rfl⟩
  | succ count inductionHypothesis =>
      obtain ⟨deeds, empty, counted⟩ := inductionHypothesis
      obtain ⟨more, emptied, next⟩ := reach_next config dials empty
      refine ⟨deeds ++ more, ?_⟩
      rw [run_append, next, counted]
      exact ⟨emptied, rfl⟩

/-- A failed attempt leaves the slot empty, and the next one can begin as soon as
the account's own time has come. -/
theorem reach_failed {history : History} (empty : history.account.slot = none) {dial : Dial}
    (dialed : dials history.attempts.length = dial) (failed : dial.outcome.failed = true) :
    ∃ start, history.account.notBefore ≤ start ∧ ∃ deeds,
      (run (step config dials) history deeds).attempts =
        (dials (history.attempts.length + 1)).tried
          (max (start + dial.duration) (history.account.connect start dial.outcome).notBefore) ::
          dial.tried start :: history.attempts := by
  have due : history.account.notBefore ≤ history.now + history.account.notBefore :=
    Nat.le_add_left _ _
  obtain ⟨account, now, attempts⟩ := warm_connects config dials empty due rfl
  generalize called : step config dials history (.warm history.account.notBefore) = later
    at account now attempts
  rw [dialed] at account now attempts
  have stillEmpty : later.account.slot = none := by
    rw [account]
    change (history.account.connect _ dial.outcome).slot = none
    generalize dial.outcome = outcome at failed
    cases outcome with
    | up port => cases failed
    | bridgeFailed => exact empty
    | tunnelFailed => exact empty
  have dueAgain : later.account.notBefore ≤
      later.now + (later.account.notBefore - later.now) := by
    omega
  obtain ⟨-, -, attemptsAgain⟩ := warm_connects config dials stillEmpty dueAgain rfl
  refine ⟨history.now + history.account.notBefore, due,
    [.warm history.account.notBefore, .warm (later.account.notBefore - later.now)], ?_⟩
  rw [run_cons, called, run_cons]
  refine attemptsAgain.trans ?_
  change (dials later.attempts.length).tried
    (later.now + (later.account.notBefore - later.now)) :: later.attempts = _
  have start : later.now + (later.account.notBefore - later.now) =
      max later.now later.account.notBefore := by
    omega
  rw [start, attempts, now, account]
  rfl

end Reach

/-! ### When the backoff is honoured -/

/-- However the account is called, the backoff is honoured exactly if no attempt
fails in `spawn_socks`, and none fails after it has taken time. -/
theorem backoff_honoured_iff (config : Config) (dials : Nat → Dial) :
    (∀ deeds, Honoured (run (step config dials) new deeds).attempts) ↔
      ∀ number, (dials number).Prompt := by
  constructor
  · intro honoured number failed
    obtain ⟨deeds, empty, counted⟩ := reach config dials number
    have fewer := failures_le config dials deeds
    generalize reached : run (step config dials) new deeds = history at empty counted fewer
    subst counted
    obtain ⟨start, due, more, attempts⟩ := reach_failed config dials empty rfl failed
    generalize dials history.attempts.length = dial at failed attempts
    have passed := honoured (deeds ++ more) [] _ (dial.tried start :: history.attempts) (by
      rw [run_append, reached, attempts]
      rfl)
    have waited := passed [] (dial.tried start) history.attempts rfl failed
    rw [consecutive_failed history.attempts failed] at waited
    have positive := backoffDelay_pos (consecutive history.attempts + 1)
    obtain ⟨duration, outcome⟩ := dial
    cases outcome with
    | up port => cases failed
    | bridgeFailed =>
        -- The account's own time is the old one, which has come.
        change start + duration + _ ≤
          max (start + duration) history.account.notBefore at waited
        omega
    | tunnelFailed =>
        refine ⟨rfl, ?_⟩
        change start + duration + _ ≤ max (start + duration)
          (start + backoffDelay (history.account.failures + 1)) at waited
        have shorter := backoffDelay_mono (Nat.succ_le_succ fewer)
        change duration = 0
        rw [Nat.succ_eq_add_one, Nat.succ_eq_add_one] at shorter
        omega
  · intro prompt deeds
    have connects : ∀ {history : History}, history.Paced →
        history.account.notBefore ≤ history.now →
        (history.connect (dials history.attempts.length)).Paced :=
      fun paced due => paced.connect due (prompt _)
    have paced : (run (step config dials) new deeds).Paced :=
      run_paced paced_new Paced.rests connects deeds
    exact paced.honoured

/-- `VpnTunnel::connect` fails after its timeout of 20 s, and the next call comes
right then. -/
theorem backoff_cut_short :
    ¬ ∀ (config : Config) (dials : Nat → Dial) (deeds : List Deed),
      Honoured (run (step config dials) new deeds).attempts := by
  intro honoured
  have passed := honoured .default (fun _ => { duration := 20000, outcome := .tunnelFailed })
    [.warm 0, .warm 0] [] ⟨20000, 40000, .tunnelFailed⟩ [⟨0, 20000, .tunnelFailed⟩] (by decide)
  have waited := passed [] ⟨0, 20000, .tunnelFailed⟩ [] rfl rfl
  revert waited
  decide

end History

end Unroxy.Vpn
