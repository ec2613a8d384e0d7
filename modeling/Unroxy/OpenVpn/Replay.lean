import Mathlib.Data.List.Basic
import Mathlib.Data.Nat.Basic

/-!
Owns `ReplayWindow` of `openvpn/crypto/replay.rs` and its specification.

The code keeps the largest accepted id and one 64-bit word. The specification
keeps the list of accepted ids. `Records` relates the two: bit `k` of the word
says whether `last - k` was accepted. `accept_records` is the one step lemma;
`accept_after` is the specification of a call after any sequence of calls.
-/

namespace Unroxy.OpenVpn

/-! ### The window of the code -/

/-- `window` is private and only `new` sets it, always to 64. -/
structure ReplayWindow where
  last : UInt32
  bits : BitVec 64
  window : UInt32
  window_eq : window = 64
deriving DecidableEq, Repr

namespace ReplayWindow

def new : ReplayWindow where
  last := 0
  bits := 0
  window := 64
  window_eq := rfl

def accept (self : ReplayWindow) (id : UInt32) : Bool × ReplayWindow :=
  let last := self.last
  if id = 0 then
    (false, self)
  else if id > last then
    let shift := id - last
    let bits := if shift ≥ self.window then 0 else self.bits <<< shift.toNat
    (true, { self with bits := bits ||| 1, last := id })
  else
    let behind := last - id
    if behind ≥ self.window then
      (false, self)
    else
      let mask := 1#64 <<< behind.toNat
      if self.bits &&& mask ≠ 0 then
        (false, self)
      else
        (true, { self with bits := self.bits ||| mask })

/-- The window after one call for each id. -/
def acceptAll (self : ReplayWindow) (ids : List UInt32) : ReplayWindow :=
  ids.foldl (fun window id => (window.accept id).2) self

/-- The ids whose call returned true, latest first. -/
def acceptedIds (self : ReplayWindow) : List UInt32 → List UInt32
  | [] => []
  | id :: rest =>
      let (fresh, next) := self.accept id
      acceptedIds next rest ++ if fresh then [id] else []

/-! ### The specification -/

/-- The largest accepted id, 0 when there is none. -/
def largest (accepted : List UInt32) : Nat :=
  (accepted.map UInt32.toNat).foldr max 0

def Fresh (accepted : List UInt32) (id : UInt32) : Prop :=
  id ≠ 0 ∧ id ∉ accepted ∧ largest accepted < id.toNat + 64

instance (accepted : List UInt32) (id : UInt32) : Decidable (Fresh accepted id) := by
  unfold Fresh
  infer_instance

@[simp] theorem largest_cons (id : UInt32) (accepted : List UInt32) :
    largest (id :: accepted) = max id.toNat (largest accepted) := rfl

theorem le_largest {accepted : List UInt32} {id : UInt32} (member : id ∈ accepted) :
    id.toNat ≤ largest accepted := by
  induction accepted with
  | nil => simp at member
  | cons head tail inductionHypothesis =>
      rw [largest_cons]
      rcases List.mem_cons.mp member with rfl | inTail
      · exact le_max_left _ _
      · exact le_trans (inductionHypothesis inTail) (le_max_right _ _)

/-- The window holds exactly what the accepted ids say: its `last` is their
largest, and bit `k` is set when `last - k` is one of them. -/
structure Records (replay : ReplayWindow) (accepted : List UInt32) : Prop where
  last : replay.last.toNat = largest accepted
  bits : ∀ k < 64,
    replay.bits.getLsbD k = true ↔ ∃ id ∈ accepted, id.toNat + k = replay.last.toNat
  nonzero : (0 : UInt32) ∉ accepted

theorem new_records : Records new [] where
  last := rfl
  bits := by simp [new]
  nonzero := by simp

private theorem toNat_ne_zero {id : UInt32} (nonzero : id ≠ 0) : id.toNat ≠ 0 := by
  intro zero
  exact nonzero (UInt32.toNat_inj.mp zero)

/-! ### One call -/

section Step

variable {self : ReplayWindow} {accepted : List UInt32} {id : UInt32}

/-- An id above `last` moves the window up. -/
private theorem accept_above (records : Records self accepted) (nonzero : id ≠ 0)
    (above : self.last < id) :
    (self.accept id).1 = true ∧ Records (self.accept id).2 (id :: accepted) := by
  have order : self.last.toNat < id.toNat := UInt32.lt_iff_toNat_lt.mp above
  have shiftValue : (id - self.last).toNat = id.toNat - self.last.toNat :=
    UInt32.toNat_sub_of_le _ _ (UInt32.le_iff_toNat_le.mpr (le_of_lt order))
  have wide : (id - self.last ≥ self.window) ↔ 64 ≤ id.toNat - self.last.toNat := by
    rw [self.window_eq, ge_iff_le, UInt32.le_iff_toNat_le, shiftValue]
    rfl
  have nonzeroNat := toNat_ne_zero nonzero
  have result : self.accept id = (true, { self with
      bits := (if id - self.last ≥ self.window then 0
        else self.bits <<< (id - self.last).toNat) ||| 1
      last := id }) := by
    simp [accept, nonzero, above]
  rw [result]
  refine ⟨rfl, ?_, ?_, ?_⟩
  · have := records.last
    simp only [largest_cons]
    omega
  · intro k below
    simp only [BitVec.getLsbD_or, Bool.or_eq_true, List.mem_cons, exists_eq_or_imp]
    have one : (1 : BitVec 64).getLsbD k = true ↔ k = 0 := by
      simp [BitVec.getLsbD_one]
    have older : (if id - self.last ≥ self.window then 0
          else self.bits <<< (id - self.last).toNat).getLsbD k = true ↔
        ∃ earlier ∈ accepted, earlier.toNat + k = id.toNat := by
      by_cases far : 64 ≤ id.toNat - self.last.toNat
      · rw [if_pos (wide.mpr far)]
        simp only [BitVec.ofNat_eq_ofNat, BitVec.getLsbD_zero, Bool.false_eq_true, false_iff,
          not_exists, not_and]
        intro earlier member
        have := le_largest member
        have := records.last
        omega
      · rw [if_neg (fun contra => far (wide.mp contra)), shiftValue, BitVec.getLsbD_shiftLeft]
        by_cases recent : k < id.toNat - self.last.toNat
        · simp only [below, recent, decide_true, Bool.not_true, Bool.and_false, Bool.false_and,
            Bool.false_eq_true, false_iff, not_exists, not_and]
          intro earlier member
          have := le_largest member
          have := records.last
          omega
        · simp only [below, recent, decide_true, decide_false, Bool.not_false, Bool.and_self,
            Bool.true_and]
          rw [records.bits _ (by omega)]
          apply exists_congr
          intro earlier
          apply and_congr_right
          intro _
          omega
    rw [one, older]
    constructor
    · rintro (present | zero)
      · exact Or.inr present
      · exact Or.inl (by omega)
    · rintro (zero | present)
      · exact Or.inr (by omega)
      · exact Or.inl present
  · simp only [List.mem_cons, not_or]
    exact ⟨fun zero => nonzero zero.symm, records.nonzero⟩

/-- An id at most 63 behind `last` is a matter of its own bit. -/
private theorem accept_behind (records : Records self accepted) (nonzero : id ≠ 0)
    (notAbove : ¬ self.last < id) (near : self.last.toNat < id.toNat + 64) :
    ((self.accept id).1 = true ↔ id ∉ accepted) ∧
      Records (self.accept id).2 (if id ∈ accepted then accepted else id :: accepted) := by
  have order : id.toNat ≤ self.last.toNat := by
    have := mt UInt32.lt_iff_toNat_lt.mpr notAbove
    omega
  have behindValue : (self.last - id).toNat = self.last.toNat - id.toNat :=
    UInt32.toNat_sub_of_le _ _ (UInt32.le_iff_toNat_le.mpr order)
  have narrow : ¬ self.last - id ≥ self.window := by
    rw [self.window_eq, ge_iff_le, UInt32.le_iff_toNat_le, behindValue]
    change ¬ 64 ≤ self.last.toNat - id.toNat
    omega
  have maskBit : ∀ k, (1#64 <<< (self.last - id).toNat).getLsbD k = true ↔
      k = self.last.toNat - id.toNat := by
    intro k
    rw [behindValue, BitVec.getLsbD_shiftLeft, BitVec.getLsbD_one]
    simp only [Bool.and_eq_true, decide_eq_true_eq, Bool.not_eq_true', decide_eq_false_iff_not]
    omega
  have seen : self.bits.getLsbD (self.last.toNat - id.toNat) = true ↔ id ∈ accepted := by
    rw [records.bits _ (by omega)]
    constructor
    · rintro ⟨earlier, member, same⟩
      have : earlier = id := UInt32.toNat_inj.mp (by omega)
      exact this ▸ member
    · intro member
      exact ⟨id, member, by omega⟩
  have masked : self.bits &&& (1#64 <<< (self.last - id).toNat) ≠ 0 ↔ id ∈ accepted := by
    rw [← seen]
    constructor
    · intro present
      by_contra absent
      refine present (BitVec.eq_of_getLsbD_eq fun k _ => ?_)
      rw [BitVec.getLsbD_and, BitVec.ofNat_eq_ofNat, BitVec.getLsbD_zero]
      by_cases at_ : k = self.last.toNat - id.toNat
      · simp [at_, absent]
      · simp [Bool.eq_false_iff.mpr (mt (maskBit k).mp at_)]
    · intro present zero
      have bit := congrArg (fun word => word.getLsbD (self.last.toNat - id.toNat)) zero
      simp [BitVec.getLsbD_and, present, (maskBit _).mpr rfl] at bit
  by_cases duplicate : id ∈ accepted
  · have result : self.accept id = (false, self) := by
      simp only [accept, nonzero, gt_iff_lt, notAbove, narrow, ↓reduceIte]
      rw [if_pos (masked.mpr duplicate)]
    rw [result, if_pos duplicate]
    exact ⟨by simp [duplicate], records⟩
  · have result : self.accept id = (true, { self with
        bits := self.bits ||| (1#64 <<< (self.last - id).toNat) }) := by
      have clear := mt masked.mp duplicate
      simp only [accept, nonzero, gt_iff_lt, notAbove, narrow, clear, ↓reduceIte]
    rw [result, if_neg duplicate]
    refine ⟨by simp [duplicate], ?_, ?_, ?_⟩
    · have := records.last
      simp only [largest_cons]
      omega
    · intro k below
      simp only [BitVec.getLsbD_or, Bool.or_eq_true, List.mem_cons, exists_eq_or_imp]
      rw [records.bits k below, maskBit k]
      constructor
      · rintro (present | here)
        · exact Or.inr present
        · exact Or.inl (by omega)
      · rintro (here | present)
        · exact Or.inr (by omega)
        · exact Or.inl present
    · simp only [List.mem_cons, not_or]
      exact ⟨fun zero => nonzero zero.symm, records.nonzero⟩

/-- One call decides freshness and keeps the window in step with the ids. -/
theorem accept_records (records : Records self accepted) (id : UInt32) :
    ((self.accept id).1 = true ↔ Fresh accepted id) ∧
      Records (self.accept id).2 (if Fresh accepted id then id :: accepted else accepted) := by
  have last := records.last
  by_cases zero : id = 0
  · have stale : ¬ Fresh accepted id := fun fresh => fresh.1 zero
    have result : self.accept id = (false, self) := by simp [accept, zero]
    rw [result, if_neg stale]
    exact ⟨by simp [stale], records⟩
  · by_cases above : self.last < id
    · have order : self.last.toNat < id.toNat := UInt32.lt_iff_toNat_lt.mp above
      have fresh : Fresh accepted id := by
        refine ⟨zero, fun member => ?_, by omega⟩
        have := le_largest member
        omega
      rcases accept_above records zero above with ⟨accepts, next⟩
      rw [if_pos fresh]
      exact ⟨by simp [accepts, fresh], next⟩
    · by_cases near : self.last.toNat < id.toNat + 64
      · rcases accept_behind records zero above near with ⟨accepts, next⟩
        have freshIff : Fresh accepted id ↔ id ∉ accepted :=
          ⟨fun fresh => fresh.2.1, fun new => ⟨zero, new, by omega⟩⟩
        refine ⟨accepts.trans freshIff.symm, ?_⟩
        by_cases duplicate : id ∈ accepted
        · simpa [freshIff, duplicate] using next
        · simpa [freshIff, duplicate] using next
      · have stale : ¬ Fresh accepted id := fun fresh => near (by have := fresh.2.2; omega)
        have order : id.toNat ≤ self.last.toNat := by omega
        have behindValue : (self.last - id).toNat = self.last.toNat - id.toNat :=
          UInt32.toNat_sub_of_le _ _ (UInt32.le_iff_toNat_le.mpr order)
        have wide : self.last - id ≥ self.window := by
          rw [self.window_eq, ge_iff_le, UInt32.le_iff_toNat_le, behindValue]
          change 64 ≤ self.last.toNat - id.toNat
          omega
        have result : self.accept id = (false, self) := by
          simp only [accept, zero, gt_iff_lt, above, wide, ↓reduceIte]
        rw [result, if_neg stale]
        exact ⟨by simp [stale], records⟩

end Step

/-! ### Whole sequences of calls -/

/-- The step lemma along a sequence, from any window that records its past. -/
theorem acceptAll_records {self : ReplayWindow} {accepted : List UInt32}
    (records : Records self accepted) (ids : List UInt32) :
    Records (self.acceptAll ids) (self.acceptedIds ids ++ accepted) := by
  induction ids generalizing self accepted with
  | nil => simpa [acceptAll, acceptedIds] using records
  | cons id rest inductionHypothesis =>
      rcases accept_records records id with ⟨accepts, next⟩
      have tail := inductionHypothesis next
      by_cases fresh : Fresh accepted id
      · rw [if_pos fresh] at tail
        simpa [acceptAll, acceptedIds, accepts.mpr fresh] using tail
      · rw [if_neg fresh] at tail
        have refused : (self.accept id).1 = false := Bool.eq_false_iff.mpr (mt accepts.mp fresh)
        simpa [acceptAll, acceptedIds, refused] using tail

/-- No id is accepted twice, whatever was accepted before. -/
theorem acceptedIds_nodup {self : ReplayWindow} {accepted : List UInt32}
    (records : Records self accepted) (distinct : accepted.Nodup) (ids : List UInt32) :
    (self.acceptedIds ids ++ accepted).Nodup := by
  induction ids generalizing self accepted with
  | nil => simpa [acceptedIds] using distinct
  | cons id rest inductionHypothesis =>
      rcases accept_records records id with ⟨accepts, next⟩
      by_cases fresh : Fresh accepted id
      · rw [if_pos fresh] at next
        have tail := inductionHypothesis next (List.nodup_cons.mpr ⟨fresh.2.1, distinct⟩)
        simpa [acceptedIds, accepts.mpr fresh] using tail
      · rw [if_neg fresh] at next
        have refused : (self.accept id).1 = false := Bool.eq_false_iff.mpr (mt accepts.mp fresh)
        have tail := inductionHypothesis next distinct
        simpa [acceptedIds, refused] using tail

/-- A call on a window that began empty returns true exactly when the id is
nonzero, was never accepted before and lies less than 64 below the largest
accepted id. -/
theorem accept_after (earlier : List UInt32) (id : UInt32) :
    ((new.acceptAll earlier).accept id).1 = true ↔
      id ≠ 0 ∧ id ∉ new.acceptedIds earlier ∧
        largest (new.acceptedIds earlier) < id.toNat + 64 := by
  have records := acceptAll_records new_records earlier
  rw [List.append_nil] at records
  exact (accept_records records id).1

/-- The window still works at the top of the id range. -/
example : ((new.acceptAll [4294967295, 4294967233]).accept 4294967232).1 = true ∧
    ((new.acceptAll [4294967295]).accept 4294967231).1 = false := by decide

end ReplayWindow

end Unroxy.OpenVpn
