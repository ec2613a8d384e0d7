import Mathlib.Data.List.Basic

/-!
Owns a cache of bounded size that makes room by dropping the entry that was put
or touched the longest time ago.

`peek` does not count as a use. The entry that was used last comes first.

Does not own what is cached.
-/

namespace Unroxy.Lib

structure Lru (κ ν : Type) (capacity : Nat) where
  entries : List (κ × ν)
  distinct : (entries.map Prod.fst).Nodup
  bounded : entries.length ≤ capacity
deriving DecidableEq, Repr

namespace Lru

variable {κ ν : Type} {capacity : Nat}

def empty : Lru κ ν capacity := ⟨[], List.nodup_nil, Nat.zero_le _⟩

variable [DecidableEq κ]

def peek (self : Lru κ ν capacity) (key : κ) : Option ν :=
  (self.entries.find? fun entry => entry.1 = key).map Prod.snd

/-- The entries without this key, and the new one in front of them. -/
def entered (entries : List (κ × ν)) (key : κ) (value : ν) : List (κ × ν) :=
  (key, value) :: entries.filter fun entry => entry.1 ≠ key

theorem entered_distinct {entries : List (κ × ν)} (distinct : (entries.map Prod.fst).Nodup)
    (key : κ) (value : ν) : ((entered entries key value).map Prod.fst).Nodup := by
  rw [entered, List.map_cons, List.nodup_cons]
  constructor
  · intro present
    obtain ⟨entry, member, isKey⟩ := List.mem_map.mp present
    simpa [isKey] using List.of_mem_filter member
  · exact distinct.sublist (List.filter_sublist.map _)

def put (self : Lru κ ν capacity) (key : κ) (value : ν) : Lru κ ν capacity where
  entries := (entered self.entries key value).take capacity
  distinct := (entered_distinct self.distinct key value).sublist ((List.take_sublist _ _).map _)
  bounded := List.length_take_le _ _

/-- A `get` finds what `peek` finds, and makes it the entry that was used last. -/
def touch (self : Lru κ ν capacity) (key : κ) : Lru κ ν capacity :=
  match self.peek key with
  | none => self
  | some value => self.put key value

variable (self : Lru κ ν capacity) {key other : κ} {value : ν}

theorem peek_put_self (room : 0 < capacity) : (self.put key value).peek key = some value := by
  obtain ⟨more, rfl⟩ := Nat.exists_eq_add_one.mpr room
  simp [put, peek, entered]

/-- Another entry stays as it is or is dropped. -/
theorem peek_put_of_ne (different : other ≠ key) :
    (self.put key value).peek other = self.peek other ∨
      (self.put key value).peek other = none := by
  have entered_other : ((entered self.entries key value).find? fun entry => entry.1 = other) =
      self.entries.find? fun entry => entry.1 = other := by
    rw [entered, List.find?_cons_of_neg (by simpa using different.symm), List.find?_filter]
    congr 1
    funext entry
    simp only [decide_eq_true_eq, decide_eq_decide]
    constructor
    · exact fun both => both.2
    · rintro rfl
      exact ⟨different, rfl⟩
  have parts := List.take_append_drop capacity (entered self.entries key value)
  rw [← parts, List.find?_append] at entered_other
  rw [peek, peek, put, ← entered_other]
  cases (List.take capacity (entered self.entries key value)).find? fun entry =>
      entry.1 = other with
  | none => exact .inr rfl
  | some entry => exact .inl rfl

/-- What is found is what was put last or was there before. -/
theorem peek_put_eq_some {found : ν} (room : 0 < capacity)
    (there : (self.put key value).peek other = some found) :
    (other = key ∧ found = value) ∨ self.peek other = some found := by
  by_cases same : other = key
  · subst same
    rw [self.peek_put_self room] at there
    exact .inl ⟨rfl, (Option.some.inj there).symm⟩
  · rcases self.peek_put_of_ne same with kept | dropped
    · exact .inr (kept ▸ there)
    · rw [dropped] at there
      cases there

/-- The put leaves this entry in place. -/
def Spares (key : κ) (value : ν) (entry : κ × ν) : Prop :=
  if entry.1 = key then entry.2 = value else (self.put key value).peek entry.1 ≠ none

instance [DecidableEq ν] (key : κ) (value : ν) (entry : κ × ν) :
    Decidable (self.Spares key value entry) :=
  inferInstanceAs (Decidable (if entry.1 = key then entry.2 = value else _ ≠ none))

variable {self}

theorem Spares.peek {entry : κ × ν} (spares : self.Spares key value entry) (room : 0 < capacity)
    (present : self.peek entry.1 = some entry.2) :
    (self.put key value).peek entry.1 = some entry.2 := by
  rw [Spares] at spares
  split at spares
  · next same => rw [same, spares, self.peek_put_self room]
  · next different =>
      rcases self.peek_put_of_ne different with kept | dropped
      · rw [kept, present]
      · exact absurd dropped spares

/-! ### What was used lately -/

theorem peek_touch_eq_some {found : ν} (room : 0 < capacity)
    (there : (self.touch key).peek other = some found) : self.peek other = some found := by
  rw [touch] at there
  split at there
  case h_1 => exact there
  case h_2 value present =>
    rcases self.peek_put_eq_some room there with ⟨rfl, rfl⟩ | before
    · exact present
    · exact before

/-- The key is there, and all that was used after it is among the others. -/
def Recent (self : Lru κ ν capacity) (key : κ) (others : List κ) : Prop :=
  ∃ front value back, self.entries = front ++ (key, value) :: back ∧
    ∀ entry ∈ front, entry.1 ∈ others

variable {others : List κ}

theorem Recent.peek (recent : self.Recent key others) : ∃ value, self.peek key = some value := by
  obtain ⟨front, value, back, entries, -⟩ := recent
  rw [Lru.peek, ← Option.isSome_iff_exists, Option.isSome_map, List.find?_isSome]
  refine ⟨(key, value), ?_, decide_eq_true rfl⟩
  rw [entries]
  exact List.mem_append_right _ List.mem_cons_self

theorem recent_put_self (room : 0 < capacity) : (self.put key value).Recent key others := by
  obtain ⟨more, rfl⟩ := Nat.exists_eq_add_one.mpr room
  exact ⟨[], value, _, rfl, fun entry among => absurd among List.not_mem_nil⟩

/-- The key stays while fewer others than there is room for are used. -/
theorem Recent.put (recent : self.Recent key others) (among : other ∈ others)
    (different : other ≠ key) (few : others.length < capacity) :
    (self.put other value).Recent key others := by
  obtain ⟨front, old, back, entries, newer⟩ := recent
  have kept : Lru.entered self.entries other value =
      ((other, value) :: front.filter fun entry => entry.1 ≠ other) ++
        (key, old) :: back.filter fun entry => entry.1 ≠ other := by
    rw [Lru.entered, entries, List.filter_append,
      List.filter_cons_of_pos (by simpa using different.symm), List.cons_append]
  have all : ∀ entry ∈ (other, value) :: front.filter fun entry => entry.1 ≠ other,
      entry.1 ∈ others := by
    intro entry member
    rcases List.mem_cons.mp member with rfl | old
    · exact among
    · exact newer entry (List.mem_of_mem_filter old)
  have distinct := entered_distinct self.distinct other value
  rw [kept, List.map_append, List.nodup_append] at distinct
  have short := List.Nodup.length_le_of_subset distinct.1 (by
    intro name member
    obtain ⟨entry, there, rfl⟩ := List.mem_map.mp member
    exact all entry there)
  rw [List.length_map] at short
  obtain ⟨more, space⟩ := Nat.exists_eq_add_of_lt (Nat.lt_of_le_of_lt short few)
  refine ⟨_, old, (back.filter fun entry => entry.1 ≠ other).take more, ?_, all⟩
  change (Lru.entered self.entries other value).take capacity = _
  rw [kept, space, Nat.add_assoc, List.take_length_add_append, List.take_succ_cons]

/-- A `get` of the key itself leaves nothing in front of it. -/
theorem Recent.touch (recent : self.Recent key others) (among : other = key ∨ other ∈ others)
    (few : others.length < capacity) : (self.touch other).Recent key others := by
  rw [Lru.touch]
  split
  case h_1 => exact recent
  case h_2 =>
    by_cases same : other = key
    · subst same
      exact recent_put_self (Nat.zero_lt_of_lt few)
    · exact recent.put (among.resolve_left same) same few

/-! ### What is left of many puts -/

/-- The cache after these puts, the latest first. -/
def ofPuts (capacity : Nat) : List (κ × ν) → Lru κ ν capacity
  | [] => empty
  | (key, value) :: earlier => (ofPuts capacity earlier).put key value

/-- What was put for the key last. -/
def latest (key : κ) (puts : List (κ × ν)) : Option ν :=
  (puts.find? fun entry => entry.1 = key).map Prod.snd

/-- The keys that were put since. -/
def since (key : κ) (puts : List (κ × ν)) : List κ :=
  (puts.takeWhile fun entry => entry.1 ≠ key).map Prod.fst

theorem latest_of_peek_ofPuts (room : 0 < capacity) {puts : List (κ × ν)}
    (there : (ofPuts capacity puts).peek key = some value) : latest key puts = some value := by
  induction puts with
  | nil => cases there
  | cons entry earlier inductionHypothesis =>
      rcases peek_put_eq_some _ room there with ⟨rfl, rfl⟩ | before
      · simp [latest]
      · by_cases same : entry.1 = key
        · have put : (ofPuts capacity (entry :: earlier)).peek key = some entry.2 := by
            rw [← same]
            exact peek_put_self _ room
          rw [put] at there
          simp [latest, same, Option.some.inj there]
        · have older := inductionHypothesis before
          unfold latest at older ⊢
          rw [List.find?_cons_of_neg (by simpa using same)]
          exact older

/-- The last put of a key is found if fewer others than there is room for were put
since. -/
theorem peek_ofPuts (few : others.length < capacity) :
    ∀ {puts : List (κ × ν)}, latest key puts = some value →
      (∀ other ∈ since key puts, other ∈ others) →
      (ofPuts capacity puts).peek key = some value ∧ (ofPuts capacity puts).Recent key others := by
  intro puts
  induction puts with
  | nil =>
      intro last
      cases last
  | cons entry earlier inductionHypothesis =>
      intro last newer
      have room : 0 < capacity := Nat.zero_lt_of_lt few
      by_cases same : entry.1 = key
      · subst same
        have found : entry.2 = value := by simpa [latest] using last
        rw [← found]
        exact ⟨peek_put_self _ room, recent_put_self room⟩
      · have names : since key (entry :: earlier) = entry.1 :: since key earlier := by
          simp [since, same]
        have older : latest key earlier = some value := by
          unfold latest at last ⊢
          rwa [List.find?_cons_of_neg (by simpa using same)] at last
        rw [names] at newer
        obtain ⟨found, recent⟩ := inductionHypothesis older fun other among =>
          newer other (List.mem_cons_of_mem _ among)
        have still : (ofPuts capacity (entry :: earlier)).Recent key others :=
          recent.put (newer entry.1 List.mem_cons_self) same few
        have either : (ofPuts capacity (entry :: earlier)).peek key =
              (ofPuts capacity earlier).peek key ∨
            (ofPuts capacity (entry :: earlier)).peek key = none :=
          peek_put_of_ne _ (Ne.symm same)
        refine ⟨?_, still⟩
        obtain ⟨kept, there⟩ := still.peek
        rcases either with unchanged | dropped
        · exact unchanged.trans found
        · rw [dropped] at there
          cases there

end Lru

end Unroxy.Lib
