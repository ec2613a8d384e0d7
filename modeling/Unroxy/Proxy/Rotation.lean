import Unroxy.Lib.Rotation
import Unroxy.Proxy.Pool

/-!
Owns which exits consecutive calls of `candidates` put first.

A child rotates its own list on every call, and its parent then rotates the
merged list by its own counter. The head is what a reader finds that moves one
position further on every call, in a list whose blocks move too.

Does not own callers that use a child by itself.
-/

namespace Unroxy.Proxy.ProxyPool

open Unroxy.Lib.Rotation

variable {τ : Type}

/-! ### Consecutive calls -/

/-- What the next calls of `candidates` return, with no other caller. -/
def successive : Nat → ProxyPool τ → List (List (Candidate τ))
  | 0, _ => []
  | calls + 1, pool => pool.candidates.1 :: successive calls pool.candidates.2

/-- The pool after some calls of `candidates`. -/
def after : Nat → ProxyPool τ → ProxyPool τ
  | 0, pool => pool
  | calls + 1, pool => after calls pool.candidates.2

def children : ProxyPool τ → List (ProxyPool τ)
  | .node _ _ children => children

mutual

/-- The pool with every counter at zero. -/
def reset : ProxyPool τ → ProxyPool τ
  | .node proxies _ children => .node proxies 0 (resetAll children)

def resetAll : List (ProxyPool τ) → List (ProxyPool τ)
  | [] => []
  | child :: rest => child.reset :: resetAll rest

end

mutual

/-- No counter wraps in so many calls. A pool of at most one proxy leaves its
counter alone. -/
def NoWrap (calls : Nat) : ProxyPool τ → Prop
  | .node proxies rotation children =>
      (1 < (collectAll proxies.list children).length → rotation.toNat + calls < 2 ^ 64) ∧
        NoWraps calls children

def NoWraps (calls : Nat) : List (ProxyPool τ) → Prop
  | [] => True
  | child :: rest => child.NoWrap calls ∧ NoWraps calls rest

end

def EqualPriority (ready : List (Candidate τ)) : Prop :=
  ∀ left ∈ ready, ∀ right ∈ ready, left.priority = right.priority

private theorem EqualPriority.perm {ready other : List (Candidate τ)} (equal : EqualPriority ready)
    (same : other.Perm ready) : EqualPriority other :=
  fun left inLeft right inRight =>
    equal left (same.mem_iff.mp inLeft) right (same.mem_iff.mp inRight)

/-- In as many calls as there are candidates, each is the head once. -/
def Reaches (pool : ProxyPool τ) : Prop :=
  ((successive pool.candidates.1.length pool).map List.head?).Perm (pool.candidates.1.map some)

/-- So it is from any values of the counters from which none wraps. -/
def Rotates (pool : ProxyPool τ) : Prop :=
  ∀ other : ProxyPool τ, other.reset = pool.reset →
    other.NoWrap other.candidates.1.length → other.Reaches

/-- Each child adds at most one proxy to those `known` before it, or it has no
children and adds all of its own, an odd number that divides `n`. -/
def FairFrom (n : Nat) (known : List (PoolProxy τ)) : List (ProxyPool τ) → Prop
  | [] => True
  | child :: rest =>
      ((child.all.filter (isNew known)).length ≤ 1 ∨
        child.children = [] ∧ (∀ proxy ∈ child.all, isNew known proxy) ∧
          child.count % 2 = 1 ∧ child.count ∣ n) ∧
      FairFrom n (child.all.foldl pushNew known) rest

def Fair : ProxyPool τ → Prop
  | .node proxies rotation children =>
      FairFrom (ProxyPool.node proxies rotation children).count proxies.list children

/-- No child has children, as in a pool that `Region::add` builds. -/
def Merged (pool : ProxyPool τ) : Prop := ∀ child ∈ pool.children, child.children = []

/-- The lists of the pool and its children fit in memory. -/
def Fits (pool : ProxyPool τ) : Prop :=
  pool.count ≤ 2 ^ 62 ∧ ∀ child ∈ pool.children, child.count ≤ 2 ^ 62

/-! ### What a call changes -/

private theorem successive_length (calls : Nat) (pool : ProxyPool τ) :
    (successive calls pool).length = calls := by
  induction calls generalizing pool with
  | zero => rfl
  | succ calls inductionHypothesis => rw [successive, List.length_cons, inductionHypothesis]

private theorem successive_getElem? {calls time : Nat} (before : time < calls)
    (pool : ProxyPool τ) :
    (successive calls pool)[time]? = some (after time pool).candidates.1 := by
  induction calls generalizing time pool with
  | zero => omega
  | succ calls inductionHypothesis =>
      cases time with
      | zero => rfl
      | succ time =>
          rw [successive, List.getElem?_cons_succ, inductionHypothesis (by omega), after]

mutual

theorem reset_all : ∀ pool : ProxyPool τ, pool.reset.all = pool.all
  | .node proxies rotation children => by
      rw [reset, all, all]
      exact resetAll_collectAll proxies.list children

theorem resetAll_collectAll (known : List (PoolProxy τ)) :
    ∀ children : List (ProxyPool τ), collectAll known (resetAll children) = collectAll known children
  | [] => rfl
  | child :: rest => by
      rw [resetAll, collectAll, collectAll, reset_all child, resetAll_collectAll]

end

theorem all_eq_of_reset {pool other : ProxyPool τ} (same : other.reset = pool.reset) :
    other.all = pool.all := by
  rw [← reset_all other, same, reset_all]

private theorem collect_length (known : List (PoolProxy τ)) (children : List (ProxyPool τ)) :
    (collect none known children).1.length = (collectAll known children).length :=
  (collect_perm (List.Perm.refl known) children).length_eq

/-- A call advances the counter of every pool of more than one proxy. -/
theorem candidates_snd (proxies : Proxies τ) (rotation : UInt64) (children : List (ProxyPool τ)) :
    (ProxyPool.node proxies rotation children).candidates.2 =
      .node proxies
        (if 1 < (collectAll proxies.list children).length then rotation + 1 else rotation)
        (children.map fun child => child.candidates.2) := by
  have length : (sortByPriority (collect none proxies.list children).1).length =
      (collectAll proxies.list children).length := by
    rw [sortByPriority, List.length_insertionSort, collect_length]
  rw [candidates, filtered, localCandidates_none]
  dsimp only
  rw [length]
  split <;> rw [collect_snd] <;> rfl

theorem after_all (calls : Nat) (pool : ProxyPool τ) : (after calls pool).all = pool.all := by
  induction calls generalizing pool with
  | zero => rfl
  | succ calls inductionHypothesis =>
      rw [after, inductionHypothesis]
      exact filtered_all none pool

private theorem map_after_collectAll (time : Nat) (known : List (PoolProxy τ))
    (children : List (ProxyPool τ)) :
    collectAll known (children.map (after time)) = collectAll known children := by
  induction children generalizing known with
  | nil => rfl
  | cons child rest inductionHypothesis =>
      rw [List.map_cons, collectAll, collectAll, after_all, inductionHypothesis]

theorem after_node (calls : Nat) (proxies : Proxies τ) (rotation : UInt64)
    (children : List (ProxyPool τ)) :
    after calls (.node proxies rotation children) =
      .node proxies
        (if 1 < (collectAll proxies.list children).length then rotation + UInt64.ofNat calls
          else rotation)
        (children.map (after calls)) := by
  induction calls generalizing rotation children with
  | zero =>
      have zero : rotation + UInt64.ofNat 0 = rotation := by simp
      have unchanged : children.map (after 0) = children := List.map_id children
      rw [zero, ite_self, unchanged, after]
  | succ calls inductionHypothesis =>
      have unchanged : collectAll proxies.list (children.map fun child => child.candidates.2) =
          collectAll proxies.list children := filtered_collectAll none proxies.list children
      rw [after, candidates_snd, inductionHypothesis, unchanged, List.map_map]
      congr 1
      split
      · rw [UInt64.ofNat_add, UInt64.add_assoc, UInt64.add_comm 1]
        rfl
      · rfl

/-! ### The list of a call, block by block -/

/-- What the children add to the proxies `known` before them. -/
def contributions (known : List (PoolProxy τ)) : List (ProxyPool τ) → List (Candidate τ)
  | [] => []
  | child :: rest =>
      child.candidates.1.filter (isNew known) ++
        contributions (child.all.foldl pushNew known) rest

private theorem foldl_candidates_perm {ready known : List (PoolProxy τ)}
    (same : ready.Perm known) (child : ProxyPool τ) :
    (ready ++ child.candidates.1.filter (isNew known)).Perm (child.all.foldl pushNew known) := by
  rw [foldl_pushNew (all_distinct child)]
  exact same.append ((candidates_perm child).filter _)

theorem collect_eq_contributions {ready known : List (PoolProxy τ)} (same : ready.Perm known)
    (children : List (ProxyPool τ)) :
    (collect none ready children).1 = ready ++ contributions known children := by
  induction children generalizing ready known with
  | nil => rw [collect, contributions, List.append_nil]
  | cons child rest inductionHypothesis =>
      have merged := inductionHypothesis (foldl_candidates_perm same child)
      rw [collect, contributions, ← List.append_assoc, ← merged, ← isNew_congr same,
        ← foldl_pushNew (candidates_distinct child)]
      rfl

theorem contributions_append (known : List (PoolProxy τ)) (first second : List (ProxyPool τ)) :
    contributions known (first ++ second) =
      contributions known first ++ contributions (collectAll known first) second := by
  induction first generalizing known with
  | nil => rfl
  | cons child rest inductionHypothesis =>
      rw [List.cons_append, contributions, contributions, inductionHypothesis, List.append_assoc,
        collectAll]

private theorem collectAll_append (known : List (PoolProxy τ)) (first second : List (ProxyPool τ)) :
    collectAll known (first ++ second) = collectAll (collectAll known first) second := by
  induction first generalizing known with
  | nil => rw [List.nil_append, collectAll]
  | cons child rest inductionHypothesis =>
      rw [List.cons_append, collectAll, collectAll, inductionHypothesis]

private theorem contributions_perm (known : List (PoolProxy τ)) (children : List (ProxyPool τ)) :
    (known ++ contributions known children).Perm (collectAll known children) := by
  rw [← collect_eq_contributions (List.Perm.refl known)]
  exact collect_perm (List.Perm.refl known) children

private theorem sortByPriority_eq {ready : List (Candidate τ)}
    (equal : EqualPriority ready) : sortByPriority ready = ready :=
  List.Pairwise.insertionSort_eq
    (List.pairwise_of_forall_mem_list fun left inLeft right inRight =>
      (equal left inLeft right inRight).le)

private theorem counter_toNat {rotation : UInt64} {calls time : Nat}
    (noWrap : rotation.toNat + calls < 2 ^ 64) (before : time < calls) :
    (rotation + UInt64.ofNat time).toNat = rotation.toNat + time := by
  rw [UInt64.toNat_add, UInt64.toNat_ofNat']
  omega

/-- The head of the call at `time` is what a reader finds that started at the
counter and moves by one on every call. -/
theorem head_after {proxies : Proxies τ} {rotation : UInt64} {children : List (ProxyPool τ)}
    {calls time : Nat} (two : 1 < (collectAll proxies.list children).length)
    (equal : EqualPriority (collectAll proxies.list children))
    (noWrap : rotation.toNat + calls < 2 ^ 64) (before : time < calls) :
    (after time (.node proxies rotation children)).candidates.1.head? =
      (proxies.list ++ contributions proxies.list (children.map (after time)))[
        (rotation.toNat + time) % (collectAll proxies.list children).length]? := by
  have listPerm := contributions_perm proxies.list (children.map (after time))
  rw [map_after_collectAll] at listPerm
  have sorted := sortByPriority_eq (equal.perm listPerm)
  rw [after_node, if_pos two, candidates, filtered, localCandidates_none]
  dsimp only
  rw [collect_eq_contributions (List.Perm.refl _), sorted, listPerm.length_eq, if_pos two,
    counter_toNat noWrap before,
    List.head?_rotate (by rw [listPerm.length_eq]; exact Nat.mod_lt _ (by omega))]

/-- A pool without children rotates its own proxies. -/
theorem childless_after {proxies : Proxies τ} {rotation : UInt64} {calls time : Nat}
    (noWrap : NoWrap calls (.node proxies rotation [])) (before : time < calls) :
    (after time (.node proxies rotation [])).candidates.1 =
      (sortByPriority proxies.list).rotate (rotation.toNat + time) := by
  have length : (sortByPriority proxies.list).length = proxies.list.length :=
    List.length_insertionSort _ _
  rw [after_node, List.map_nil, candidates, filtered, localCandidates_none, collect, collectAll]
  dsimp only
  rw [length]
  by_cases two : 1 < proxies.list.length
  · have bound : rotation.toNat + calls < 2 ^ 64 := by
      rw [NoWrap, collectAll] at noWrap
      exact noWrap.1 two
    rw [if_pos two, if_pos two, counter_toNat bound before, ← length, List.rotate_mod]
  · rw [if_neg two]
    cases single : sortByPriority proxies.list with
    | nil => rw [List.rotate_nil]
    | cons only rest =>
        obtain rfl : rest = [] := List.eq_nil_of_length_eq_zero (by
          rw [single, List.length_cons] at length
          omega)
        rw [List.rotate_singleton]

/-! ### Fair pools reach every exit -/

private theorem short_perm_eq {left right : List (Candidate τ)} (same : left.Perm right)
    (short : right.length ≤ 1) : left = right := by
  cases right with
  | nil => exact List.perm_nil.mp same
  | cons only rest =>
      obtain rfl : rest = [] := List.eq_nil_of_length_eq_zero (by
        rw [List.length_cons] at short
        omega)
      exact List.perm_singleton.mp same

/-- What one fair child adds settles. -/
private theorem settles_child {n : Nat} {known : List (PoolProxy τ)} {child : ProxyPool τ}
    (fair : (child.all.filter (isNew known)).length ≤ 1 ∨
      child.children = [] ∧ (∀ proxy ∈ child.all, isNew known proxy) ∧
        child.count % 2 = 1 ∧ child.count ∣ n)
    (noWrap : child.NoWrap n) (start offset : Nat) :
    ∃ settled : List (Candidate τ), settled.Perm (child.all.filter (isNew known)) ∧
      Settles n start offset
        (fun time => (after time child).candidates.1.filter (isNew known)) settled := by
  obtain short | ⟨childless, fresh, odd, divides⟩ := fair
  · have block (time : Nat) : ((after time child).candidates.1.filter (isNew known)).Perm
        (child.all.filter (isNew known)) := by
      have perm := (candidates_perm (after time child)).filter (isNew known)
      rwa [after_all] at perm
    exact ⟨_, List.Perm.refl _, settles_const fun time _ => short_perm_eq (block time) short⟩
  · rcases child with ⟨proxies, rotation, children⟩
    obtain rfl : children = [] := childless
    have basePerm : (sortByPriority proxies.list).Perm
        (ProxyPool.node proxies rotation []).all := by
      rw [all, collectAll]
      exact List.perm_insertionSort _ _
    have length := basePerm.length_eq
    have moving (time : Nat) (before : time < n) :
        (after time (.node proxies rotation [])).candidates.1.filter (isNew known) =
          (sortByPriority proxies.list).rotate (rotation.toNat + time) := by
      rw [← childless_after noWrap before]
      refine List.filter_eq_self.mpr fun proxy member => fresh proxy ?_
      have inAll := (candidates_perm _).mem_iff.mp member
      rwa [after_all] at inAll
    obtain ⟨settled, perm, settles⟩ :=
      settles_rotating start offset (length ▸ odd) (length ▸ divides) moving
    rw [List.filter_eq_self.mpr fresh]
    exact ⟨settled, perm.trans basePerm, settles⟩

private theorem settles_contributions {n : Nat} {known : List (PoolProxy τ)}
    {children : List (ProxyPool τ)} (fair : FairFrom n known children)
    (noWrap : NoWraps n children) (start offset : Nat) :
    ∃ settled, settled.Perm (contributions known children) ∧
      Settles n start offset (fun time => contributions known (children.map (after time)))
        settled := by
  induction children generalizing known offset with
  | nil => exact ⟨[], List.Perm.refl _, settles_const fun _ _ => rfl⟩
  | cons child rest inductionHypothesis =>
      rcases fair with ⟨fairChild, fairRest⟩
      rcases noWrap with ⟨childNoWrap, restNoWrap⟩
      rcases settles_child fairChild childNoWrap start offset with ⟨settled, perm, settles⟩
      obtain ⟨settledRest, restPerm, settlesRest⟩ :=
        inductionHypothesis fairRest restNoWrap (offset + settled.length)
      have blocks : (fun time => contributions known ((child :: rest).map (after time))) =
          fun time => (after time child).candidates.1.filter (isNew known) ++
            contributions (child.all.foldl pushNew known) (rest.map (after time)) := by
        funext time
        rw [List.map_cons, contributions, after_all]
      rw [blocks]
      refine ⟨settled ++ settledRest, ?_, settles.append settlesRest⟩
      exact (perm.trans ((candidates_perm child).filter _).symm).append restPerm

/-- The heads of the next calls, one by one. -/
private theorem heads_getElem? {calls time : Nat} (before : time < calls) (pool : ProxyPool τ) :
    ((successive calls pool).map List.head?)[time]? =
      some (after time pool).candidates.1.head? := by
  rw [List.getElem?_map, successive_getElem? before]
  rfl

theorem reaches_of_fair {pool : ProxyPool τ} (two : 2 ≤ pool.candidates.1.length)
    (equal : EqualPriority pool.candidates.1) (fair : pool.Fair)
    (noWrap : pool.NoWrap pool.candidates.1.length) : pool.Reaches := by
  have allPerm := candidates_perm pool
  have count := allPerm.length_eq
  rw [Reaches]
  rcases pool with ⟨proxies, rotation, children⟩
  rw [all] at allPerm
  rw [all] at count
  rcases noWrap with ⟨counter, childCounters⟩
  rw [count] at counter childCounters two ⊢
  have allEqual := equal.perm allPerm.symm
  rw [Fair, ProxyPool.count, all] at fair
  obtain ⟨settledRest, restPerm, settlesRest⟩ :=
    settles_contributions fair childCounters rotation.toNat (0 + proxies.list.length)
  have settles := (settles_const fun _ _ => rfl).append settlesRest
  have settledPerm : (proxies.list ++ settledRest).Perm (collectAll proxies.list children) :=
    (restPerm.append_left proxies.list).trans (contributions_perm proxies.list children)
  rw [← settledPerm.length_eq] at settles
  refine List.Perm.trans (seen_perm settles ?_ ?_) ((settledPerm.trans allPerm.symm).map some)
  · rw [List.length_map, successive_length, settledPerm.length_eq]
  · intro time before
    rw [settledPerm.length_eq] at before ⊢
    rw [heads_getElem? before, head_after two allEqual (counter two) before]

/-! ### Pools that rotate are fair -/

private theorem heads_differ {pool : ProxyPool τ} (reaches : pool.Reaches) {first second : Nat}
    (order : first < second) (within : second < pool.candidates.1.length) :
    (after first pool).candidates.1.head? ≠ (after second pool).candidates.1.head? := by
  have distinct : (pool.candidates.1.map some).Nodup :=
    (List.Nodup.of_map _ (candidates_distinct pool)).map (Option.some_injective _)
  have headsDistinct := reaches.nodup_iff.mpr distinct
  have different := List.nodup_iff_getElem?_ne_getElem?.mp headsDistinct first second order
    (by rwa [List.length_map, successive_length])
  rw [heads_getElem? (by omega), heads_getElem? within] at different
  exact fun same => different (congrArg some same)

mutual

private theorem reset_reset : ∀ pool : ProxyPool τ, pool.reset.reset = pool.reset
  | .node proxies rotation children => by
      rw [reset, reset, resetAll_resetAll]

private theorem resetAll_resetAll : ∀ children : List (ProxyPool τ),
    resetAll (resetAll children) = resetAll children
  | [] => rfl
  | child :: rest => by
      rw [resetAll, resetAll, reset_reset child, resetAll_resetAll rest]

end

mutual

private theorem reset_noWrap {calls : Nat} (bound : calls < 2 ^ 64) :
    ∀ pool : ProxyPool τ, pool.reset.NoWrap calls
  | .node proxies rotation children => by
      rw [reset, NoWrap]
      exact ⟨fun _ => by simpa using bound, resetAll_noWraps bound children⟩

private theorem resetAll_noWraps {calls : Nat} (bound : calls < 2 ^ 64) :
    ∀ children : List (ProxyPool τ), NoWraps calls (resetAll children)
  | [] => by
      rw [resetAll, NoWraps]
      trivial
  | child :: rest => by
      rw [resetAll, NoWraps]
      exact ⟨reset_noWrap bound child, resetAll_noWraps bound rest⟩

end

private theorem resetAll_append (first second : List (ProxyPool τ)) :
    resetAll (first ++ second) = resetAll first ++ resetAll second := by
  induction first with
  | nil => rfl
  | cons child rest inductionHypothesis =>
      rw [List.cons_append, resetAll, inductionHypothesis, resetAll, List.cons_append]

private theorem noWraps_append {calls : Nat} {first second : List (ProxyPool τ)}
    (firstNoWraps : NoWraps calls first) (secondNoWraps : NoWraps calls second) :
    NoWraps calls (first ++ second) := by
  induction first with
  | nil => exact secondNoWraps
  | cons child rest inductionHypothesis =>
      exact ⟨firstNoWraps.1, inductionHypothesis firstNoWraps.2⟩

/-- Where a child's block stands in the list of a call. -/
private theorem look_child {known : List (PoolProxy τ)} {first rest : List (ProxyPool τ)}
    {child : ProxyPool τ} {v : Nat}
    (within : v < (child.all.filter (isNew (collectAll known first))).length) (time : Nat) :
    (known ++ contributions known ((first ++ child :: rest).map (after time)))[
        (collectAll known first).length + v]? =
      ((after time child).candidates.1.filter (isNew (collectAll known first)))[v]? := by
  have before : (known ++ contributions known (first.map (after time))).length =
      (collectAll known first).length := by
    rw [(contributions_perm known _).length_eq, map_after_collectAll]
  have block : ((after time child).candidates.1.filter (isNew (collectAll known first))).length =
      (child.all.filter (isNew (collectAll known first))).length := by
    rw [((candidates_perm (after time child)).filter _).length_eq, after_all]
  rw [List.map_append, contributions_append, ← List.append_assoc,
    List.getElem?_append_right (by omega), before, Nat.add_sub_cancel_left, map_after_collectAll,
    List.map_cons, contributions, List.getElem?_append_left (by omega)]

/-- In a pool that rotates, a reader that is at two positions of a child's
block at two times finds two proxies there, wherever the reader and the child's
rotation started. -/
private theorem block_differs {proxies own : Proxies τ} {rotation turn : UInt64}
    {before rest : List (ProxyPool τ)} {known : List (PoolProxy τ)} {n : Nat}
    (rotates : Rotates (.node proxies rotation (before ++ .node own turn [] :: rest)))
    (equal : EqualPriority (collectAll proxies.list (before ++ .node own turn [] :: rest)))
    (count : (collectAll proxies.list (before ++ .node own turn [] :: rest)).length = n)
    (knownEq : collectAll proxies.list before = known) (two : 1 < n) (start phase : Nat)
    (startFits : start + n < 2 ^ 64) (phaseFits : phase + n < 2 ^ 64) {first second v w : Nat}
    (order : first < second) (within : second < n)
    (atFirst : (start + first) % n = known.length + v)
    (atSecond : (start + second) % n = known.length + w)
    (vWithin : v < (own.list.filter (isNew known)).length)
    (wWithin : w < (own.list.filter (isNew known)).length) :
    (((sortByPriority own.list).rotate (phase + first)).filter (isNew known))[v]? ≠
      (((sortByPriority own.list).rotate (phase + second)).filter (isNew known))[w]? := by
  -- The same pool with its counters where the reader and the child are to start.
  have startNat : (UInt64.ofNat start).toNat = start := UInt64.toNat_ofNat_of_lt' (by
    rw [UInt64.size]
    omega)
  have phaseNat : (UInt64.ofNat phase).toNat = phase := UInt64.toNat_ofNat_of_lt' (by
    rw [UInt64.size]
    omega)
  set children := resetAll before ++ .node own (UInt64.ofNat phase) [] :: resetAll rest
    with childrenEq
  set other : ProxyPool τ := .node proxies (UInt64.ofNat start) children with otherEq
  have sameReset : other.reset =
      (ProxyPool.node proxies rotation (before ++ .node own turn [] :: rest)).reset := by
    rw [otherEq, childrenEq, reset, reset, resetAll_append, resetAll_append, resetAll, resetAll,
      resetAll_resetAll, resetAll_resetAll, reset, reset]
  have sameAll : collectAll proxies.list children =
      collectAll proxies.list (before ++ .node own turn [] :: rest) := by
    have whole := all_eq_of_reset sameReset
    rwa [all, all] at whole
  have length : other.candidates.1.length = n := by
    rw [candidates_length, ProxyPool.count, all, sameAll, count]
  have childNoWrap : NoWrap n (.node own (UInt64.ofNat phase) []) := by
    rw [NoWrap, phaseNat, NoWraps]
    exact ⟨fun _ => phaseFits, trivial⟩
  have noWrap : other.NoWrap n := by
    rw [otherEq, NoWrap, startNat]
    exact ⟨fun _ => startFits, noWraps_append (resetAll_noWraps (by omega) before)
      ⟨childNoWrap, resetAll_noWraps (by omega) rest⟩⟩
  have head {time position : Nat} (soon : time < n)
      (looking : (start + time) % n = known.length + position)
      (inside : position < (own.list.filter (isNew known)).length) :
      (after time other).candidates.1.head? =
        (((sortByPriority own.list).rotate (phase + time)).filter (isNew known))[position]? := by
    have resetKnown := (resetAll_collectAll proxies.list before).trans knownEq
    rw [otherEq, head_after (by rw [sameAll, count]; exact two) (by rw [sameAll]; exact equal)
      (by rw [startNat]; exact startFits) soon, startNat, sameAll, count, looking,
      ← resetKnown, childrenEq, look_child (by rw [all, collectAll, resetKnown]; exact inside),
      childless_after childNoWrap soon, phaseNat]
  rw [← head (by omega) atFirst vWithin, ← head within atSecond wWithin]
  exact heads_differ (rotates other sameReset (by rw [length]; exact noWrap)) order
    (by rw [length]; exact within)

private theorem length_le_collectAll (known : List (PoolProxy τ))
    (children : List (ProxyPool τ)) : known.length ≤ (collectAll known children).length := by
  rw [← (contributions_perm known children).length_eq, List.length_append]
  omega

/-- A child that adds more than one proxy adds all of its own, and they are an
odd number that divides the number of candidates. -/
private theorem fair_child {proxies own : Proxies τ} {rotation turn : UInt64}
    {before rest : List (ProxyPool τ)} {known : List (PoolProxy τ)} {n : Nat}
    (rotates : Rotates (.node proxies rotation (before ++ .node own turn [] :: rest)))
    (equal : EqualPriority (collectAll proxies.list (before ++ .node own turn [] :: rest)))
    (count : (collectAll proxies.list (before ++ .node own turn [] :: rest)).length = n)
    (knownEq : collectAll proxies.list before = known)
    (fits : n ≤ 2 ^ 62) (ownFits : own.list.length ≤ 2 ^ 62)
    (several : 2 ≤ (own.list.filter (isNew known)).length) :
    (∀ proxy ∈ own.list, isNew known proxy) ∧
      own.list.length % 2 = 1 ∧ own.list.length ∣ n := by
  have sorted : (sortByPriority own.list).Perm own.list := List.perm_insertionSort _ _
  have length := sorted.length_eq
  have kept : (sortByPriority own.list).countP (isNew known) =
      (own.list.filter (isNew known)).length := by
    rw [sorted.countP_eq, List.countP_eq_length_filter]
  have block : known.length + (own.list.filter (isNew known)).length ≤ n := by
    have grown := length_le_collectAll (own.list.foldl pushNew known) rest
    rw [← count, collectAll_append, knownEq, collectAll, all, collectAll]
    refine le_trans (le_of_eq ?_) grown
    rw [foldl_pushNew own.distinct, List.length_append]
  have differs := fun start phase => block_differs rotates equal count knownEq
    (show 1 < n by omega) start phase
  have entire : ∀ proxy ∈ own.list, isNew known proxy := by
    by_contra partly
    have dropped : (own.list.filter (isNew known)).length < own.list.length := by
      apply List.length_filter_lt_length_iff_exists.mpr
      push Not at partly
      exact partly
    have some : 2 ≤ (sortByPriority own.list).countP (isNew known) := by omega
    obtain ⟨phase, first, second, small, order, within, same⟩ :=
      repeats_of_dropped some (by omega)
    exact differs known.length phase (by omega) (by omega) order (by omega)
      (Nat.mod_eq_of_lt (by omega)) (Nat.mod_eq_of_lt (by omega)) (by omega) (by omega) same
  have whole (time : Nat) : ((sortByPriority own.list).rotate time).filter (isNew known) =
      (sortByPriority own.list).rotate time :=
    List.filter_eq_self.mpr fun proxy member =>
      entire proxy (sorted.mem_iff.mp (List.mem_rotate.mp member))
  rw [List.filter_eq_self.mpr entire] at several block differs
  have odd : own.list.length % 2 = 1 := by
    by_contra even
    obtain ⟨first, second, order, within, same⟩ :=
      repeats_of_even (sortByPriority own.list) (by omega) (by omega)
    refine differs known.length 0 (by omega) (by omega) order (by omega)
      (Nat.mod_eq_of_lt (by omega)) (Nat.mod_eq_of_lt (by omega)) (by omega) (by omega) ?_
    rw [whole, whole, Nat.zero_add, Nat.zero_add]
    exact same
  refine ⟨entire, odd, ?_⟩
  by_contra notDvd
  obtain ⟨position, positive, within, same⟩ :=
    repeats_of_not_dvd (sortByPriority own.list) (by omega) (show 0 < n by omega)
      (by rwa [length])
  have lastLook : (known.length + 1 + (n - 1)) % n = known.length + 0 := by
    rw [show known.length + 1 + (n - 1) = known.length + n by omega, Nat.add_mod_right,
      Nat.mod_eq_of_lt (by omega), Nat.add_zero]
  refine differs (known.length + 1) 0 (by omega) (by omega) (show position - 1 < n - 1 by omega)
    (by omega) (show _ = known.length + position by
      rw [Nat.mod_eq_of_lt (by omega)]
      omega) lastLook (by omega) (by omega) ?_
  rw [whole, whole, Nat.zero_add, Nat.zero_add]
  exact same

private theorem fairFrom_of_rotates {proxies : Proxies τ} {rotation : UInt64} {n : Nat}
    {children : List (ProxyPool τ)} (rotates : Rotates (.node proxies rotation children))
    (equal : EqualPriority (collectAll proxies.list children))
    (count : (collectAll proxies.list children).length = n) (fits : n ≤ 2 ^ 62)
    (childless : ∀ child ∈ children, child.children = [])
    (childFits : ∀ child ∈ children, child.count ≤ 2 ^ 62) {before rest : List (ProxyPool τ)}
    (split : before ++ rest = children) {known : List (PoolProxy τ)}
    (knownEq : collectAll proxies.list before = known) : FairFrom n known rest := by
  induction rest generalizing before known with
  | nil => trivial
  | cons child rest inductionHypothesis =>
      subst split
      refine ⟨?_, inductionHypothesis (List.append_assoc before [child] rest) ?_⟩
      · have member : child ∈ before ++ child :: rest :=
          List.mem_append_right before List.mem_cons_self
        have noChildren := childless child member
        have ownFits := childFits child member
        rcases child with ⟨own, turn, grandchildren⟩
        obtain rfl : grandchildren = [] := noChildren
        rw [ProxyPool.count, all, collectAll] at *
        by_cases several : 2 ≤ (own.list.filter (isNew known)).length
        · exact .inr ⟨rfl, fair_child rotates equal count knownEq fits ownFits several⟩
        · exact .inl (by omega)
      · rw [collectAll_append, knownEq, collectAll, collectAll]

private theorem reset_children (pool : ProxyPool τ) :
    pool.reset.children = resetAll pool.children := by
  rcases pool with ⟨proxies, rotation, children⟩
  rfl

private theorem resetAll_eq_nil {children : List (ProxyPool τ)} :
    resetAll children = [] ↔ children = [] := by
  cases children with
  | nil => rw [resetAll]
  | cons child rest => simp [resetAll]

private theorem fairFrom_resetAll {n : Nat} {known : List (PoolProxy τ)}
    {children : List (ProxyPool τ)} :
    FairFrom n known (resetAll children) ↔ FairFrom n known children := by
  induction children generalizing known with
  | nil => rw [resetAll]
  | cons child rest inductionHypothesis =>
      rw [resetAll, FairFrom, FairFrom, count, count, reset_all, reset_children, resetAll_eq_nil,
        inductionHypothesis]

/-- The counters do not matter for being fair. -/
theorem fair_reset (pool : ProxyPool τ) : pool.reset.Fair ↔ pool.Fair := by
  have sameAll := reset_all pool
  rcases pool with ⟨proxies, rotation, children⟩
  rw [reset] at sameAll ⊢
  rw [Fair, Fair, count, count, sameAll, fairFrom_resetAll]

/-- A pool whose candidates have one priority puts each of them first once in as
many calls if it is fair; of the pools that `Region::add` builds, no others do. -/
theorem rotates_iff_fair {pool : ProxyPool τ} (two : 2 ≤ pool.candidates.1.length)
    (equal : EqualPriority pool.candidates.1) :
    (pool.Fair → pool.Rotates) ∧ (pool.Merged → pool.Fits → (pool.Rotates ↔ pool.Fair)) := by
  have enough (fair : pool.Fair) : pool.Rotates := by
    intro other sameReset noWrap
    have same : other.candidates.1.Perm pool.candidates.1 := by
      have otherPerm := candidates_perm other
      rw [all_eq_of_reset sameReset] at otherPerm
      exact otherPerm.trans (candidates_perm pool).symm
    refine reaches_of_fair (by rwa [same.length_eq]) (equal.perm same) ?_ noWrap
    rw [← fair_reset, sameReset, fair_reset]
    exact fair
  refine ⟨enough, fun merged fits => ⟨fun rotates => ?_, enough⟩⟩
  have allPerm := candidates_perm pool
  rcases pool with ⟨proxies, rotation, children⟩
  rw [all] at allPerm
  refine fairFrom_of_rotates rotates (equal.perm allPerm.symm) ?_ fits.1 merged fits.2
    (List.nil_append children) ?_
  · rw [count, all]
  · rw [collectAll]

/-- A region's merged pool over one SSH pool with proxies of these names. -/
def stubRegion (names : List String) : ProxyPool Unit :=
  .node Proxies.empty 0
    [.node (names.foldl (fun proxies name => proxies.push
      { key := name, tunnel := (), priority := 0, protocol := .ssh }) Proxies.empty) 0 []]

theorem rotates_three :
    (stubRegion ["a", "b", "c"]).Rotates ∧
      ((stubRegion ["a", "b", "c"]).Rotates ↔ (stubRegion ["a", "b", "c"]).Fair) := by
  have merged : (stubRegion ["a", "b", "c"]).Merged := by
    intro child member
    rw [List.mem_singleton.mp member]
    rfl
  have fits : (stubRegion ["a", "b", "c"]).Fits := by
    refine ⟨by decide, ?_⟩
    intro child member
    rw [List.mem_singleton.mp member]
    decide
  have fair : (stubRegion ["a", "b", "c"]).Fair :=
    ⟨.inr ⟨rfl, by decide, by decide, by decide⟩, trivial⟩
  have both := rotates_iff_fair (show 2 ≤ (stubRegion ["a", "b", "c"]).candidates.1.length by decide)
    (by unfold EqualPriority; decide)
  exact ⟨both.1 fair, both.2 merged fits⟩

/-- Two exits: both calls put the first one first. -/
theorem not_reaches_pair :
    2 ≤ (stubRegion ["a", "b"]).candidates.1.length ∧
      EqualPriority (stubRegion ["a", "b"]).candidates.1 ∧
      (stubRegion ["a", "b"]).NoWrap 2 ∧
      (successive 2 (stubRegion ["a", "b"])).map (fun ready => ready.head?.map (·.key)) =
        [some "a", some "a"] ∧
      ¬ (stubRegion ["a", "b"]).Reaches := by
  refine ⟨by decide, by unfold EqualPriority; decide, ?_, by decide, ?_⟩
  · exact ⟨fun _ => by decide, ⟨fun _ => by decide, trivial⟩, trivial⟩
  · unfold Reaches
    decide

end Unroxy.Proxy.ProxyPool
