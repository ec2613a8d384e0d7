import Mathlib.Data.List.Basic
import Mathlib.Data.List.Induction
import Mathlib.Data.List.Pairwise

/-!
Owns the removal of elements that repeat the one before them, and when that removes
every repetition: `Grouped` lists are those in which equal elements stand together.

Does not own an order of the elements.
-/

namespace Unroxy.Lib.Dedup

variable {α : Type}

/-- An item is kept unless it is in the same bucket as the last one that was kept. -/
def dedupBy (sameBucket : α → α → Bool) (items : List α) : List α :=
  items.foldl
    (fun kept item => if kept.getLast?.any (sameBucket item) then kept else kept ++ [item]) []

theorem dedupBy_append_singleton (sameBucket : α → α → Bool) (front : List α) (item : α) :
    dedupBy sameBucket (front ++ [item]) =
      if (dedupBy sameBucket front).getLast?.any (sameBucket item) then dedupBy sameBucket front
      else dedupBy sameBucket front ++ [item] := by
  rw [dedupBy, List.foldl_append]
  rfl

/-! ### Grouped lists -/

section Grouped

variable {items front : List α} {item : α}

/-- Equal elements stand together. -/
def Grouped (items : List α) : Prop :=
  ∀ front item middle back, items = front ++ item :: (middle ++ item :: back) →
    ∀ between ∈ middle, between = item

theorem grouped_append_singleton :
    Grouped (front ++ [item]) ↔ Grouped front ∧ (item ∈ front → front.getLast? = some item) := by
  constructor
  · intro grouped
    refine ⟨?_, ?_⟩
    · rintro start other middle back rfl
      exact grouped start other middle (back ++ [item]) (by simp)
    · intro member
      obtain ⟨start, rest, rfl⟩ := List.append_of_mem member
      have same := grouped start item rest [] (by simp)
      cases rest using List.reverseRecOn with
      | nil => simp
      | append_singleton rest last =>
          have isLast := same last (by simp)
          rw [isLast, ← List.cons_append, ← List.append_assoc, List.getLast?_concat]
  · rintro ⟨grouped, ends⟩ start other middle back split
    cases back using List.reverseRecOn with
    | append_singleton back last =>
        have shorter : front = start ++ other :: (middle ++ other :: back) := by
          have whole : front ++ [item] =
              (start ++ other :: (middle ++ other :: back)) ++ [last] := by
            rw [split]
            simp
          exact (List.append_inj' whole rfl).1
        exact grouped start other middle back shorter
    | nil =>
        have whole : front ++ [item] = (start ++ other :: middle) ++ [other] := by
          rw [split]
          simp
        obtain ⟨rfl, same⟩ := List.append_inj' whole rfl
        obtain rfl : item = other := by simpa using same
        cases middle using List.reverseRecOn with
        | nil => exact fun _ absent => absurd absent List.not_mem_nil
        | append_singleton middle last =>
            have isLast := ends (by simp)
            rw [← List.cons_append, ← List.append_assoc, List.getLast?_concat] at isLast
            obtain rfl := Option.some.inj isLast
            have earlier := grouped start last middle [] (by simp)
            intro between member
            rcases List.mem_append.mp member with before | last
            · exact earlier between before
            · exact List.mem_singleton.mp last

theorem Grouped.append {back : List α} (apart : ∀ item ∈ front, item ∉ back)
    (groupedFront : Grouped front) (groupedBack : Grouped back) : Grouped (front ++ back) := by
  induction back using List.reverseRecOn with
  | nil => rwa [List.append_nil]
  | append_singleton back item inductionHypothesis =>
      obtain ⟨groupedBack, ends⟩ := grouped_append_singleton.mp groupedBack
      have apartBack : ∀ item ∈ front, item ∉ back :=
        fun item member inside => apart item member (List.mem_append_left _ inside)
      rw [← List.append_assoc, grouped_append_singleton]
      refine ⟨inductionHypothesis apartBack groupedBack, ?_⟩
      intro member
      rcases List.mem_append.mp member with inFront | inBack
      · exact absurd (List.mem_append_right back List.mem_cons_self) (apart item inFront)
      · rw [List.getLast?_append, ends inBack]
        rfl

/-- A part of a grouped list is grouped. -/
theorem Grouped.of_append {back : List α} (grouped : Grouped (front ++ back)) :
    Grouped front ∧ Grouped back := by
  constructor
  · rintro start item middle rest rfl
    exact grouped start item middle (rest ++ back) (by simp)
  · rintro start item middle rest rfl
    exact grouped (front ++ start) item middle rest (by simp)

end Grouped

/-! ### Equal neighbours -/

section Equal

variable [BEq α] [LawfulBEq α] {items : List α} {item : α}

/-- The items without those that are equal to the one before. -/
abbrev dedup (items : List α) : List α := dedupBy (fun item other => item == other) items

/-- Buckets by the value of a function are those of the values. -/
theorem map_dedupBy {β : Type} {sameBucket : β → β → Bool} (value : β → α)
    (byValue : ∀ item other, sameBucket item other ↔ value item = value other)
    (items : List β) :
    (dedupBy sameBucket items).map value = dedup (items.map value) := by
  induction items using List.reverseRecOn with
  | nil => rfl
  | append_singleton front item inductionHypothesis =>
      have same : (fun other => value item == value other) = sameBucket item := by
        funext other
        rw [Bool.eq_iff_iff, beq_iff_eq, byValue]
      rw [List.map_append, List.map_singleton, dedup, dedupBy_append_singleton,
        dedupBy_append_singleton, ← dedup, ← inductionHypothesis, List.getLast?_map,
        Option.any_map, same]
      split <;> simp

theorem getLast?_dedup (items : List α) : (dedup items).getLast? = items.getLast? := by
  induction items using List.reverseRecOn with
  | nil => rfl
  | append_singleton front item inductionHypothesis =>
      rw [dedup, dedupBy_append_singleton]
      split
      next repeats =>
        obtain ⟨last, isLast, same⟩ := Option.any_eq_true _ _ |>.mp repeats
        rw [isLast, List.getLast?_concat, eq_of_beq same]
      next => rw [List.getLast?_concat, List.getLast?_concat]

theorem dedup_append_singleton (front : List α) (item : α) :
    dedup (front ++ [item]) =
      if front.getLast? == some item then dedup front else dedup front ++ [item] := by
  have repeats_iff : ((dedup front).getLast?.any fun other => item == other) = true ↔
      (front.getLast? == some item) = true := by
    rw [getLast?_dedup, beq_iff_eq]
    cases front.getLast? with
    | none => simp
    | some last =>
        simp only [Option.any_some, beq_iff_eq, Option.some.injEq]
        exact eq_comm
  rw [dedup, dedupBy_append_singleton]
  exact if_congr repeats_iff rfl rfl

theorem mem_dedup : item ∈ dedup items ↔ item ∈ items := by
  induction items using List.reverseRecOn with
  | nil => rfl
  | append_singleton front last inductionHypothesis =>
      rw [dedup_append_singleton, List.mem_append, List.mem_singleton]
      split
      next repeats =>
        rw [beq_iff_eq] at repeats
        rw [inductionHypothesis]
        constructor
        · exact .inl
        · rintro (earlier | rfl)
          · exact earlier
          · exact List.mem_of_getLast? repeats
      next => rw [List.mem_append, List.mem_singleton, inductionHypothesis]

theorem dedup_sublist (items : List α) : (dedup items).Sublist items := by
  induction items using List.reverseRecOn with
  | nil => exact .slnil
  | append_singleton front last inductionHypothesis =>
      rw [dedup_append_singleton]
      split
      next => exact inductionHypothesis.trans (List.sublist_append_left front [last])
      next => exact inductionHypothesis.append_right [last]

/-- Every repetition is removed exactly if equal elements stand together. -/
theorem nodup_dedup_iff : (dedup items).Nodup ↔ Grouped items := by
  induction items using List.reverseRecOn with
  | nil =>
      refine iff_of_true List.nodup_nil ?_
      intro front item middle back split
      simp at split
  | append_singleton front item inductionHypothesis =>
      rw [grouped_append_singleton, dedup_append_singleton, ← inductionHypothesis]
      split
      next repeats =>
        rw [beq_iff_eq] at repeats
        simp [repeats]
      next differs =>
        rw [beq_iff_eq] at differs
        have absent_iff : (∀ other ∈ front, ¬ other = item) ↔ item ∉ front :=
          ⟨fun all member => all item member rfl,
            fun absent _ member same => absent (same ▸ member)⟩
        simp [List.nodup_append, mem_dedup, differs, absent_iff]

/-- Then what is left is in the order of first occurrence. -/
theorem Grouped.pairwise_idxOf (grouped : Grouped items) :
    (dedup items).Pairwise fun first second => items.idxOf first < items.idxOf second := by
  induction items using List.reverseRecOn with
  | nil => exact .nil
  | append_singleton front item inductionHypothesis =>
      obtain ⟨earlier, ends⟩ := grouped_append_singleton.mp grouped
      have kept : (dedup front).Pairwise fun first second =>
          (front ++ [item]).idxOf first < (front ++ [item]).idxOf second := by
        apply (inductionHypothesis earlier).imp_of_mem
        intro first second isFirst isSecond before
        rwa [List.idxOf_append_of_mem (mem_dedup.mp isFirst),
          List.idxOf_append_of_mem (mem_dedup.mp isSecond)]
      rw [dedup_append_singleton]
      split
      next => exact kept
      next differs =>
        rw [beq_iff_eq] at differs
        have absent : item ∉ front := fun member => differs (ends member)
        refine List.pairwise_append.mpr ⟨kept, List.pairwise_singleton _ _, ?_⟩
        intro first isFirst second isSecond
        have member := mem_dedup.mp isFirst
        rw [List.mem_singleton.mp isSecond, List.idxOf_append_of_mem member,
          List.idxOf_append_of_notMem absent]
        have within := List.idxOf_lt_length_of_mem member
        omega

/-- What comes first among the items of a kind comes first among all. -/
theorem idxOf_lt_of_filter {kind : α → Bool} {first second : α} (isFirst : kind first)
    (isSecond : kind second)
    (before : (items.filter kind).idxOf first < (items.filter kind).idxOf second) :
    items.idxOf first < items.idxOf second := by
  induction items with
  | nil => simp at before
  | cons item items inductionHypothesis =>
      by_cases isKind : kind item
      · rw [List.filter_cons_of_pos isKind, List.idxOf_cons, List.idxOf_cons] at before
        rw [List.idxOf_cons, List.idxOf_cons]
        grind
      · rw [List.filter_cons_of_neg isKind] at before
        rw [List.idxOf_cons, List.idxOf_cons]
        grind

end Equal

end Unroxy.Lib.Dedup
