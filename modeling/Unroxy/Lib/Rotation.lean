import Mathlib.Data.Fintype.EquivFin
import Mathlib.Data.List.FinRange
import Mathlib.Data.List.Rotate
import Mathlib.Data.Nat.ModEq
import Mathlib.Data.Nat.Prime.Basic

/-!
Owns what a reader sees that looks at one position of a list at a time, while
the list changes under it.

At time `t` the reader looks at position `(start + t) % n` of a list of `n`
elements. A block of that list `Settles` if, whenever the reader comes to one of
its positions, it finds there what one fixed list has. Blocks that stand still
settle; so does a block of odd length that divides `n` and moves by one each
time, since the reader then goes through it in steps of two.

Does not own where the lists come from.
-/

namespace Unroxy.Lib.Rotation

variable {α : Type}

/-! ### A reader over a list that settles -/

/-- Whenever the reader is at position `offset + v`, the block has there what
`settled` has at `v`. -/
def Settles (n start offset : Nat) (blocks : Nat → List α) (settled : List α) : Prop :=
  ∀ time, time < n → (blocks time).length = settled.length ∧
    ∀ v, (start + time) % n = offset + v → (blocks time)[v]? = settled[v]?

theorem settles_const {n start offset : Nat} {blocks : Nat → List α} {block : List α}
    (constant : ∀ time, time < n → blocks time = block) :
    Settles n start offset blocks block :=
  fun time before => ⟨by rw [constant time before], fun v _ => by rw [constant time before]⟩

theorem Settles.append {n start offset : Nat} {left right : Nat → List α}
    {settledLeft settledRight : List α} (first : Settles n start offset left settledLeft)
    (second : Settles n start (offset + settledLeft.length) right settledRight) :
    Settles n start offset (fun time => left time ++ right time)
      (settledLeft ++ settledRight) := by
  intro time before
  rcases first time before with ⟨leftLength, leftSame⟩
  rcases second time before with ⟨rightLength, rightSame⟩
  refine ⟨by simp only [List.length_append, leftLength, rightLength], fun v looking => ?_⟩
  by_cases inLeft : v < settledLeft.length
  · rw [List.getElem?_append_left (by omega), List.getElem?_append_left inLeft]
    exact leftSame v looking
  · rw [List.getElem?_append_right (by omega), List.getElem?_append_right (by omega), leftLength]
    exact rightSame (v - settledLeft.length) (by omega)

/-- What the reader sees of a list that settles is that list, from where it
started. -/
theorem seen_perm {start : Nat} {lists : Nat → List α} {settled : List α}
    {seen : List (Option α)} (settles : Settles settled.length start 0 lists settled)
    (length : seen.length = settled.length)
    (looks : ∀ time, time < settled.length →
      seen[time]? = some (lists time)[(start + time) % settled.length]?) :
    seen.Perm (settled.map some) := by
  have rotated : seen = (settled.rotate start).map some := by
    apply List.ext_getElem?
    intro time
    by_cases before : time < settled.length
    · have found := (settles time before).2 _ (Nat.zero_add _).symm
      have position : (start + time) % settled.length < settled.length :=
        Nat.mod_lt _ (by omega)
      rw [looks time before, found, List.getElem?_map, List.getElem?_rotate before,
        Nat.add_comm time start, List.getElem?_eq_getElem position]
      rfl
    · rw [List.getElem?_eq_none (by omega),
        List.getElem?_eq_none (by rw [List.length_map, List.length_rotate]; omega)]
  rw [rotated]
  exact (List.rotate_perm settled start).map some

/-! ### A block that moves by one each time -/

/-- Steps of two go through an odd number of positions once. -/
private theorem double_injective {m : Nat} (odd : m % 2 = 1) (shift : Nat) :
    Function.Injective fun v : Fin m =>
      (⟨(2 * v.val + shift) % m, Nat.mod_lt _ (by omega)⟩ : Fin m) := by
  intro v w same
  have residues : 2 * v.val + shift ≡ 2 * w.val + shift [MOD m] := congrArg Fin.val same
  have doubled : 2 * v.val ≡ 2 * w.val [MOD m] := Nat.ModEq.add_right_cancel' shift residues
  have coprime : Nat.gcd m 2 = 1 := Nat.coprime_two_right.mpr (Nat.odd_iff.mpr odd)
  have single := Nat.ModEq.cancel_left_of_coprime coprime doubled
  exact Fin.ext (Nat.ModEq.eq_of_lt_of_lt single v.isLt w.isLt)

theorem settles_rotating {n phase : Nat} (start offset : Nat) {blocks : Nat → List α}
    {base : List α} (odd : base.length % 2 = 1) (divides : base.length ∣ n)
    (rotating : ∀ time, time < n → blocks time = base.rotate (phase + time)) :
    ∃ settled, settled.Perm base ∧ Settles n start offset blocks settled := by
  set m := base.length with mDef
  -- The reader reaches position `v` at times that agree modulo `m`.
  set shift := phase + offset + (m - start % m) with shiftDef
  let turn : Equiv.Perm (Fin m) := Equiv.ofBijective _
    (Finite.injective_iff_bijective.mp (double_injective odd shift))
  refine ⟨List.ofFn (base.get ∘ turn), ?_, fun time before => ⟨?_, fun v looking => ?_⟩⟩
  · have permuted := turn.ofFn_comp_perm base.get
    rwa [List.ofFn_get] at permuted
  · rw [rotating time before, List.length_rotate, List.length_ofFn]
  · rw [rotating time before]
    by_cases within : v < m
    · have reached : start + time ≡ offset + v [MOD m] := by
        have looked : start + time ≡ offset + v [MOD n] := by
          rw [← looking]
          exact (Nat.mod_modEq _ _).symm
        exact looked.of_dvd divides
      have sameIndex : (v + (phase + time)) % m = (2 * v + shift) % m := by
        have whole : start % m + (m - start % m) = m := by
          have := Nat.mod_lt start (show 0 < m by omega)
          omega
        have rounds : v + phase + (start + time) + (m - start % m) =
            v + (phase + time) + m * (start / m + 1) := by
          have startSplit := Nat.mod_add_div start m
          rw [Nat.mul_add, Nat.mul_one]
          omega
        calc (v + (phase + time)) % m
            = (v + phase + (start + time) + (m - start % m)) % m := by
              rw [rounds, Nat.add_mul_mod_self_left]
          _ = (v + phase + (offset + v) + (m - start % m)) % m :=
              ((reached.add_left (v + phase)).add_right (m - start % m))
          _ = (2 * v + shift) % m := by
              congr 1
              omega
      rw [List.getElem?_rotate within, sameIndex, List.getElem?_ofFn, dif_pos within,
        List.getElem?_eq_getElem (Nat.mod_lt _ (by omega))]
      rfl
    · rw [List.getElem?_eq_none (by rw [List.length_rotate]; omega),
        List.getElem?_eq_none (by rw [List.length_ofFn]; omega)]

/-! ### Blocks in which the reader sees an element twice -/

/-- How many of the elements that have moved to the back so far are kept. -/
def passed (keep : α → Bool) (base : List α) (phase : Nat) : Nat → Nat
  | 0 => 0
  | time + 1 => passed keep base phase time +
      if (base.rotate (phase + time)).head?.any keep then 1 else 0

private theorem filter_rotate_one (keep : α → Bool) (base : List α) :
    (base.rotate 1).filter keep =
      (base.filter keep).rotate (if base.head?.any keep then 1 else 0) := by
  cases base with
  | nil => rfl
  | cons head rest =>
      rw [List.rotate_cons_succ, List.rotate_zero, List.filter_append]
      cases kept : keep head with
      | true => simp [kept]
      | false => simp [kept]

/-- What is kept of a rotating list rotates too, at the pace of what is kept. -/
theorem filter_rotate (keep : α → Bool) (base : List α) (phase time : Nat) :
    (base.rotate (phase + time)).filter keep =
      ((base.rotate phase).filter keep).rotate (passed keep base phase time) := by
  induction time with
  | zero => rw [passed, List.rotate_zero, Nat.add_zero]
  | succ time inductionHypothesis =>
      rw [← Nat.add_assoc, ← List.rotate_rotate, filter_rotate_one, inductionHypothesis,
        List.rotate_rotate, passed]

/-- Steps of one and two that begin with a one and a two meet themselves within
a round. -/
private theorem exists_round (place : Nat → Nat) {f : Nat} (three : 3 ≤ f) (zero : place 0 = 0)
    (one : place 1 = 1) (two : place 2 = 3)
    (pace : ∀ time, place time + 1 ≤ place (time + 1) ∧ place (time + 1) ≤ place time + 2) :
    ∃ first second, first < second ∧ second < f ∧ place second = place first + f := by
  have ahead : ∀ time, time + 3 ≤ place (time + 2) := by
    intro time
    induction time with
    | zero => exact two.ge
    | succ time inductionHypothesis =>
        have faster := (pace (time + 2)).1
        change time + 1 + 3 ≤ place (time + 2 + 1)
        omega
  have reaches : f ≤ place (f - 1) := by
    have far := ahead (f - 3)
    rw [show f - 3 + 2 = f - 1 by omega] at far
    omega
  -- The first time the place is a round or more away, it is so by at most one.
  obtain ⟨time, reached, minimal⟩ : ∃ time, f ≤ place time ∧
      ∀ earlier, earlier < time → place earlier < f :=
    have exists_reaching : ∃ time, f ≤ place time := ⟨f - 1, reaches⟩
    ⟨Nat.find exists_reaching, Nat.find_spec exists_reaching,
      fun _ earlier => Nat.not_le.mp (Nat.find_min exists_reaching earlier)⟩
  have soon : time ≤ f - 1 := by
    by_contra late
    have := minimal (f - 1) (by omega)
    omega
  match time, reached, minimal, soon with
  | 0, reached, _, _ => omega
  | 1, reached, _, _ => omega
  | time + 2, reached, minimal, soon =>
      have before := minimal (time + 1) (by omega)
      have step : place (time + 2) ≤ place (time + 1) + 2 := (pace (time + 1)).2
      by_cases whole : place (time + 2) = f
      · exact ⟨0, time + 2, by omega, by omega, by omega⟩
      · exact ⟨1, time + 2, by omega, by omega, by omega⟩

/-- Going round a list, something dropped is followed by something kept. -/
private theorem exists_dropped_kept {keep : α → Bool} {base : List α}
    (some : 0 < base.countP keep) (notAll : base.countP keep < base.length) :
    ∃ phase, (base.rotate phase).head?.any keep = false ∧
      (base.rotate (phase + 1)).head?.any keep = true := by
  have atIndex {element : α} (member : element ∈ base) :
      ∃ index, index < base.length ∧ (base.rotate index).head?.any keep = keep element := by
    rcases List.getElem_of_mem member with ⟨index, below, rfl⟩
    exact ⟨index, below, by rw [List.head?_rotate below, List.getElem?_eq_getElem below]; rfl⟩
  rcases List.countP_pos_iff.mp some with ⟨kept, keptMember, keptTrue⟩
  obtain ⟨dropped, droppedMember, droppedFalse⟩ : ∃ element ∈ base, keep element = false := by
    by_contra none
    refine absurd (List.countP_eq_length.mpr fun element member => ?_) (Nat.ne_of_lt notAll)
    by_contra refused
    exact none ⟨element, member, Bool.not_eq_true _ ▸ refused⟩
  rcases atIndex droppedMember with ⟨start, startBelow, atStart⟩
  rcases atIndex keptMember with ⟨goal, goalBelow, atGoal⟩
  have reaches : ∃ distance, (base.rotate (start + distance)).head?.any keep = true := by
    refine ⟨base.length - start + goal, ?_⟩
    rw [show start + (base.length - start + goal) = base.length + goal by omega,
      ← List.rotate_rotate, List.rotate_length, atGoal, keptTrue]
  have first := Nat.find_spec reaches
  have positive : Nat.find reaches ≠ 0 := by
    intro zero
    rw [zero, Nat.add_zero, atStart, droppedFalse] at first
    cases first
  refine ⟨start + (Nat.find reaches - 1), ?_, ?_⟩
  · exact Bool.not_eq_true _ ▸ Nat.find_min reaches (by omega)
  · rw [Nat.add_assoc, Nat.sub_add_cancel (by omega)]
    exact first

/-- Where the reader of a block is, counted in kept elements that went by. -/
private theorem filter_rotate_look (keep : α → Bool) (base : List α) (phase time : Nat)
    (within : time < base.countP keep) :
    ((base.rotate (phase + time)).filter keep)[time]? =
      ((base.rotate phase).filter keep)[(time + passed keep base phase time) %
        base.countP keep]? := by
  have length : ((base.rotate phase).filter keep).length = base.countP keep := by
    rw [← List.countP_eq_length_filter, (List.rotate_perm base phase).countP_eq]
  rw [filter_rotate, List.getElem?_rotate (by omega), length]

/-- A reader that enters a block together with its rotation meets an element
twice if some but not all of the rotating elements are in the block. -/
theorem repeats_of_dropped {keep : α → Bool} {base : List α} (two : 2 ≤ base.countP keep)
    (notAll : base.countP keep < base.length) :
    ∃ phase first second, phase < base.length ∧ first < second ∧ second < base.countP keep ∧
      ((base.rotate (phase + first)).filter keep)[first]? =
        ((base.rotate (phase + second)).filter keep)[second]? := by
  suffices ∃ phase first second, first < second ∧ second < base.countP keep ∧
      (second + passed keep base phase second) % base.countP keep =
        (first + passed keep base phase first) % base.countP keep by
    rcases this with ⟨phase, first, second, order, within, same⟩
    have reduce (time : Nat) : base.rotate (phase % base.length + time) =
        base.rotate (phase + time) := by
      rw [← List.rotate_mod, Nat.mod_add_mod, List.rotate_mod]
    refine ⟨phase % base.length, first, second, Nat.mod_lt _ (by omega), order, within, ?_⟩
    rw [reduce, reduce, filter_rotate_look keep base phase first (by omega),
      filter_rotate_look keep base phase second within, same]
  rcases exists_dropped_kept (by omega) notAll with ⟨phase, dropped, kept⟩
  by_cases three : 3 ≤ base.countP keep
  · obtain ⟨first, second, order, within, round⟩ := exists_round
      (fun time => time + passed keep base phase time) three rfl
      (by simp [passed, dropped]) (by simp [passed, dropped, kept])
      (fun time => by
        simp only [passed]
        split <;> omega)
    refine ⟨phase, first, second, order, within, ?_⟩
    rw [round, Nat.add_mod_right]
  · refine ⟨phase + 1, 0, 1, by omega, by omega, ?_⟩
    have pair : base.countP keep = 2 := by omega
    simp [passed, kept, pair]

/-- The same if all of an even number of elements are in the block. -/
theorem repeats_of_even (base : List α) (nonempty : 0 < base.length)
    (even : base.length % 2 = 0) :
    ∃ first second, first < second ∧ second < base.length ∧
      (base.rotate first)[first]? = (base.rotate second)[second]? := by
  refine ⟨0, base.length / 2, by omega, by omega, ?_⟩
  rw [List.getElem?_rotate nonempty, List.getElem?_rotate (by omega)]
  congr 1
  rw [show base.length / 2 + base.length / 2 = base.length by omega, Nat.mod_self]
  exact Nat.zero_mod _

/-- A reader that enters at the second position of a block of odd length and
comes back to the first one a round later meets an element twice, unless the
length divides the round. -/
theorem repeats_of_not_dvd (base : List α) {n : Nat} (odd : base.length % 2 = 1)
    (positive : 0 < n) (notDvd : ¬ base.length ∣ n) :
    ∃ position, 0 < position ∧ position < base.length ∧
      (base.rotate (position - 1))[position]? = (base.rotate (n - 1))[0]? := by
  have remainder : n % base.length ≠ 0 := fun zero => notDvd (Nat.dvd_of_mod_eq_zero zero)
  have below := Nat.mod_lt n (show 0 < base.length by omega)
  obtain ⟨position, pos, lt, double⟩ : ∃ position, 0 < position ∧ position < base.length ∧
      (2 * position = n % base.length ∨ 2 * position = n % base.length + base.length) := by
    by_cases even : n % base.length % 2 = 0
    · exact ⟨n % base.length / 2, by omega, by omega, .inl (by omega)⟩
    · exact ⟨(n % base.length + base.length) / 2, by omega, by omega, .inr (by omega)⟩
  refine ⟨position, pos, lt, ?_⟩
  rw [List.getElem?_rotate lt, List.getElem?_rotate (by omega), Nat.zero_add]
  congr 1
  have last : (n - 1) % base.length = n % base.length - 1 := by
    have split := Nat.mod_add_div n base.length
    rw [show n - 1 = n % base.length - 1 + base.length * (n / base.length) by omega,
      Nat.add_mul_mod_self_left, Nat.mod_eq_of_lt (by omega)]
  rw [last]
  rcases double with once | wrapped
  · rw [show position + (position - 1) = n % base.length - 1 by omega,
      Nat.mod_eq_of_lt (by omega)]
  · rw [show position + (position - 1) = n % base.length - 1 + base.length by omega,
      Nat.add_mod_right, Nat.mod_eq_of_lt (by omega)]

/-! ### Rotating an ordered list -/

/-- A list in the order of a key stays in that order when it is rotated exactly if
it comes out as it was, or all keys are the same. -/
theorem pairwise_rotate_iff {β : Type} [PartialOrder β] {key : α → β} {ordered : List α}
    (sorted : ordered.Pairwise fun left right => key left ≤ key right) {offset : Nat}
    (inside : offset < ordered.length) :
    (ordered.rotate offset).Pairwise (fun left right => key left ≤ key right) ↔
      offset = 0 ∨ ∀ left ∈ ordered, ∀ right ∈ ordered, key left = key right := by
  constructor
  · intro rotated
    rcases Nat.eq_zero_or_pos offset with zero | positive
    · exact .inl zero
    · right
      rw [List.rotate_eq_drop_append_take (Nat.le_of_lt inside), List.pairwise_append] at rotated
      have whole := sorted
      rw [← List.take_append_drop offset ordered, List.pairwise_append] at whole
      have across : ∀ first ∈ ordered.take offset, ∀ second ∈ ordered.drop offset,
          key first = key second := fun first inFirst second inSecond =>
        le_antisymm (whole.2.2 first inFirst second inSecond)
          (rotated.2.2 second inSecond first inFirst)
      obtain ⟨early, inEarly⟩ : ∃ early, early ∈ ordered.take offset :=
        List.exists_mem_of_length_pos (by rw [List.length_take]; omega)
      obtain ⟨late, inLate⟩ : ∃ late, late ∈ ordered.drop offset :=
        List.exists_mem_of_length_pos (by rw [List.length_drop]; omega)
      have same : ∀ member ∈ ordered, key member = key late := by
        intro member inside
        rw [← List.take_append_drop offset ordered] at inside
        rcases List.mem_append.mp inside with inFirst | inSecond
        · exact across member inFirst late inLate
        · rw [← across early inEarly member inSecond, across early inEarly late inLate]
      intro left inLeft right inRight
      rw [same left inLeft, same right inRight]
  · intro condition
    rcases condition with zero | equal
    · rw [zero, List.rotate_zero]
      exact sorted
    · apply List.pairwise_of_forall_mem_list
      intro left inLeft right inRight
      exact le_of_eq (equal left (List.mem_rotate.mp inLeft) right (List.mem_rotate.mp inRight))

end Unroxy.Lib.Rotation
