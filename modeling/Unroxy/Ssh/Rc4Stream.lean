import Unroxy.Ssh.Rc4

/-!
Owns what the OSSH layer relies on in `Rc4`: its table stays a permutation, and
where the bytes are cut into buffers makes no difference.

`new` is written here once more with its index into the key checked, so the
empty key, on which the code panics, is an error.

Does not own what is sent under the cipher.
-/

namespace Unroxy.Ssh

open Unroxy.Lib

namespace Rc4

/-! ### The table -/

/-- The table holds each of `0..=255` once. -/
def Permuted (s : Vector UInt8 256) : Prop := s.toList.Perm ((List.range 256).map UInt8.ofNat)

theorem swap_eq (s : Vector UInt8 256) (i j : Fin 256) : swap s i j = s.swap i j i.isLt j.isLt := by
  apply Vector.ext
  intro position below
  rw [swap, Vector.getElem_set, Vector.getElem_set, Vector.getElem_swap]
  show (if j.val = position then s[i.val] else if i.val = position then s[j.val] else _) = _
  by_cases second : j.val = position
  · subst second
    by_cases first : j.val = i.val
    · simp [first]
    · simp [first]
  · simp [second, Ne.symm second, eq_comm]

theorem Permuted.swap {s : Vector UInt8 256} (permuted : Permuted s) (i j : Fin 256) :
    Permuted (swap s i j) := by
  rw [Permuted, swap_eq]
  exact (Vector.swap_perm i.isLt j.isLt).toList.trans permuted

theorem permuted_ofFn : Permuted (Vector.ofFn fun i => UInt8.ofFin i) := by
  rw [Permuted, Vector.toList_ofFn]
  apply List.Perm.of_eq
  apply List.ext_getElem
  · rw [List.length_ofFn, List.length_map, List.length_range]
  · intro position below _
    rw [List.getElem_ofFn, List.getElem_map, List.getElem_range]
    rw [List.length_ofFn] at below
    apply UInt8.toNat_inj.mp
    rw [UInt8.toNat_ofNat', Nat.mod_eq_of_lt below]
    rfl

/-- The turns of `new` only swap. -/
theorem permuted_schedule (key : Bytes) (turns : List (Fin 256)) :
    ∀ {s : Vector UInt8 256} (j : UInt8), Permuted s →
      Permuted (turns.foldl (schedule key) (s, j)).1 := by
  induction turns with
  | nil => exact fun _ permuted => permuted
  | cons i rest inductionHypothesis =>
      intro s j permuted
      exact inductionHypothesis _ (permuted.swap i _)

theorem permuted_new (key : Bytes) : Permuted (new key).s := by
  have scheduled := permuted_schedule key (List.finRange 256) 0 permuted_ofFn
  simpa only [new] using scheduled

theorem permuted_next (self : Rc4) (permuted : Permuted self.s) : Permuted self.next.2.s :=
  permuted.swap _ _

/-! ### The key, checked -/

/-- One turn of the loop of `new`, with `key[i % key.len()]` checked. -/
def checkedSchedule (key : Bytes) (state : Vector UInt8 256 × UInt8) (i : Fin 256) :
    Checked (Vector UInt8 256 × UInt8) := do
  let (s, j) := state
  let j := j + s.get i + (← index key (i % key.length))
  return (swap s i j.toFin, j)

def checkedNew (key : Bytes) : Checked Rc4 := do
  let (s, _) ← (List.finRange 256).foldlM (checkedSchedule key)
    (Vector.ofFn fun i => UInt8.ofFin i, 0)
  return { s, i := 0, j := 0 }

theorem checkedSchedule_eq {key : Bytes} (nonempty : key ≠ []) (state : Vector UInt8 256 × UInt8)
    (i : Fin 256) : checkedSchedule key state i = .ok (schedule key state i) := by
  have below : i % key.length < key.length := Nat.mod_lt _ (List.length_pos_of_ne_nil nonempty)
  rw [checkedSchedule, schedule, index_of_lt below, List.getD_eq_getElem?_getD,
    List.getElem?_eq_getElem below]
  rfl

theorem checkedNew_eq {key : Bytes} (nonempty : key ≠ []) : checkedNew key = .ok (new key) := by
  have turns (indices : List (Fin 256)) : ∀ state, indices.foldlM (checkedSchedule key) state =
      .ok (indices.foldl (schedule key) state) := by
    induction indices with
    | nil => exact fun _ => rfl
    | cons i rest inductionHypothesis =>
        intro state
        rw [List.foldlM_cons, checkedSchedule_eq nonempty, List.foldl_cons]
        exact inductionHypothesis _
  rw [checkedNew, turns, new]
  generalize (List.finRange 256).foldl (schedule key) _ = result
  rfl

/-! ### Buffers -/

/-- `apply` on one buffer after the other. -/
def applyEach (self : Rc4) (buffers : List Bytes) : List Bytes × Rc4 :=
  Keystream.applyEach next self buffers

theorem permuted_applyEach {self : Rc4} (permuted : Permuted self.s) (buffers : List Bytes) :
    Permuted (self.applyEach buffers).2.s := by
  have behind : (self.applyEach buffers).2 = (self.apply buffers.flatten).2 :=
    congrArg Prod.snd (Keystream.applyEach_flatten next self buffers)
  rw [behind]
  exact Keystream.apply_keeps next permuted_next buffers.flatten permuted

/-- How the bytes are cut into these buffers shows neither in the result nor in
the cipher behind them, a cipher in the same state undoes the result in any
other buffers, and the table is a permutation behind each buffer. -/
structure Seamless (rc4 : Rc4) (buffers : List Bytes) : Prop where
  whole : ((rc4.applyEach buffers).1.flatten, (rc4.applyEach buffers).2) =
    rc4.apply buffers.flatten
  inPlace : (rc4.applyEach buffers).1.map List.length = buffers.map List.length
  restored : ∀ others : List Bytes, others.flatten = (rc4.applyEach buffers).1.flatten →
    (rc4.applyEach others).1.flatten = buffers.flatten
  permuted : ∀ done, done <+: buffers → Permuted (rc4.applyEach done).2.s

/-- A cipher with any key there can be takes its bytes in any buffers. -/
theorem seamless_new (key : Bytes) (nonempty : key ≠ []) :
    ∃ rc4, checkedNew key = .ok rc4 ∧ Permuted rc4.s ∧ ∀ buffers, rc4.Seamless buffers := by
  refine ⟨new key, checkedNew_eq nonempty, permuted_new key, fun buffers => ?_⟩
  exact {
    whole := Keystream.applyEach_flatten next _ buffers
    inPlace := Keystream.applyEach_lengths next _ buffers
    restored := fun others cut =>
      congrArg Prod.fst (Keystream.applyEach_applyEach next _ cut)
    permuted := fun done _ => permuted_applyEach (permuted_new key) done }

/-- Three buffers, one of them empty. -/
theorem seamless_new_key :
    ∃ rc4, checkedNew [75, 101, 121] = .ok rc4 ∧ Permuted rc4.s ∧
      rc4.Seamless [[80, 108, 97], [], [105, 110]] := by
  obtain ⟨rc4, created, permuted, seamless⟩ := seamless_new [75, 101, 121] (by decide)
  exact ⟨rc4, created, permuted, seamless [[80, 108, 97], [], [105, 110]]⟩

end Rc4

end Unroxy.Ssh
