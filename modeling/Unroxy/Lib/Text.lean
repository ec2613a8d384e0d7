import Mathlib.Data.List.DropRight
import Mathlib.Data.List.Infix

/-!
Owns the operations on texts that parsers are made of: cutting at a separator,
trimming, and reading an unsigned number.

A text is the list of its characters. Whitespace is the `White_Space` property of
Unicode; upper and lower case are those of the ASCII letters.

Does not own the grammars that are parsed with them.
-/

namespace Unroxy.Lib.Text

/-! ### Cutting at a separator -/

def isWhitespace (char : Char) : Bool :=
  let code := char.toNat
  (0x09 ≤ code && code ≤ 0x0D) || code = 0x20 || code = 0x85 || code = 0xA0 || code = 0x1680 ||
    (0x2000 ≤ code && code ≤ 0x200A) || code = 0x2028 || code = 0x2029 || code = 0x202F ||
    code = 0x205F || code = 0x3000

/-- What stands before the first separator, and what stands after it. -/
def splitOnce (separator : Char) : List Char → Option (List Char × List Char)
  | [] => none
  | char :: rest =>
      if char = separator then some ([], rest)
      else (splitOnce separator rest).map fun (head, tail) => (char :: head, tail)

/-- What stands before the last separator, and what stands after it. -/
def rsplitOnce (separator : Char) (text : List Char) : Option (List Char × List Char) :=
  (splitOnce separator text.reverse).map fun (tail, head) => (head.reverse, tail.reverse)

/-- The last of the parts that the separator cuts a text into. -/
def lastPart (separator : Char) (text : List Char) : List Char :=
  match rsplitOnce separator text with
  | none => text
  | some (_, tail) => tail

/-- The parts between whitespace, without the empty ones. -/
def splitWhitespace (text : List Char) : List (List Char) :=
  (text.splitOnP isWhitespace).filter fun part => part ≠ []

/-- What comes after a text that has to come first. -/
def stripStart (start text : List Char) : Option (List Char) :=
  if start.isPrefixOf text then some (text.drop start.length) else none

section Cuts

variable {separator : Char} {head tail text : List Char}

theorem splitOnce_append (absent : separator ∉ head) :
    splitOnce separator (head ++ separator :: tail) = some (head, tail) := by
  induction head with
  | nil => simp [splitOnce]
  | cons char head inductionHypothesis =>
      rw [List.mem_cons, not_or] at absent
      simp [splitOnce, Ne.symm absent.1, inductionHypothesis absent.2]

theorem splitOnce_eq_none (absent : separator ∉ text) : splitOnce separator text = none := by
  induction text with
  | nil => rfl
  | cons char text inductionHypothesis =>
      rw [List.mem_cons, not_or] at absent
      simp [splitOnce, Ne.symm absent.1, inductionHypothesis absent.2]

/-- A cut puts the text back together, and is the first one. -/
theorem splitOnce_eq_some (cut : splitOnce separator text = some (head, tail)) :
    text = head ++ separator :: tail ∧ separator ∉ head := by
  induction text generalizing head with
  | nil => cases cut
  | cons char text inductionHypothesis =>
      unfold splitOnce at cut
      split at cut
      next here =>
        cases cut
        exact ⟨by rw [here]; rfl, List.not_mem_nil⟩
      next other =>
        obtain ⟨⟨first, last⟩, later, same⟩ := Option.map_eq_some_iff.mp cut
        obtain ⟨rfl, rfl⟩ := Prod.mk.inj same
        obtain ⟨whole, absent⟩ := inductionHypothesis later
        exact ⟨by rw [whole]; rfl, by simp [Ne.symm other, absent]⟩

/-- What has no separator is not cut. -/
theorem splitOnce_starts {front back : List Char} (absent : separator ∉ front)
    (cut : splitOnce separator (front ++ back) = some (head, tail)) : front <+: head := by
  obtain ⟨whole, -⟩ := splitOnce_eq_some cut
  rcases List.prefix_or_prefix_of_prefix ⟨back, rfl⟩ ⟨separator :: tail, whole.symm⟩ with
    within | beyond
  · exact within
  · obtain ⟨more, rfl⟩ := beyond
    rw [List.append_assoc, List.append_cancel_left_eq] at whole
    cases more with
    | nil => simp
    | cons char more =>
        obtain ⟨rfl, -⟩ := List.cons.inj whole
        simp at absent

theorem rsplitOnce_append (absent : separator ∉ tail) :
    rsplitOnce separator (head ++ separator :: tail) = some (head, tail) := by
  have reversed : (head ++ separator :: tail).reverse =
      tail.reverse ++ separator :: head.reverse := by simp
  have absentReversed : separator ∉ tail.reverse := by simpa using absent
  simp [rsplitOnce, reversed, splitOnce_append absentReversed]

theorem rsplitOnce_eq_none (absent : separator ∉ text) : rsplitOnce separator text = none := by
  have absentReversed : separator ∉ text.reverse := by simpa using absent
  simp [rsplitOnce, splitOnce_eq_none absentReversed]

theorem rsplitOnce_eq_some (cut : rsplitOnce separator text = some (head, tail)) :
    text = head ++ separator :: tail := by
  obtain ⟨⟨back, front⟩, reversed, same⟩ := Option.map_eq_some_iff.mp cut
  obtain ⟨rfl, rfl⟩ := Prod.mk.inj same
  have whole := congrArg List.reverse (splitOnce_eq_some reversed).1
  simpa using whole

theorem lastPart_append (absent : separator ∉ tail) :
    lastPart separator (head ++ separator :: tail) = tail := by
  simp [lastPart, rsplitOnce_append absent]

theorem lastPart_eq_self (absent : separator ∉ text) : lastPart separator text = text := by
  simp [lastPart, rsplitOnce_eq_none absent]

/-- A character that does not cut is in one of the parts. -/
theorem mem_splitOn {char : Char} (member : char ∈ text) (uncut : char ≠ separator) :
    ∃ part ∈ text.splitOn separator, char ∈ part := by
  induction text with
  | nil => cases member
  | cons first text inductionHypothesis =>
      obtain ⟨part, parts, cut⟩ :=
        List.exists_cons_of_ne_nil (List.splitOn_ne_nil separator text)
      rw [List.splitOn_cons_eq_if_modifyHead, cut]
      rw [cut] at inductionHypothesis
      rcases List.mem_cons.mp member with rfl | later
      · simp [uncut]
      · obtain ⟨found, isPart, inside⟩ := inductionHypothesis later
        split
        next => exact ⟨found, List.mem_cons_of_mem _ isPart, inside⟩
        next =>
          rcases List.mem_cons.mp isPart with rfl | other
          · exact ⟨first :: found, List.mem_cons_self, List.mem_cons_of_mem _ inside⟩
          · exact ⟨found, List.mem_cons_of_mem _ other, inside⟩

theorem notMem_of_mem_splitOn {part : List Char} (isPart : part ∈ text.splitOn separator) :
    separator ∉ part := by
  induction text generalizing part with
  | nil =>
      rw [List.splitOn_nil, List.mem_singleton] at isPart
      simp [isPart]
  | cons first text inductionHypothesis =>
      obtain ⟨next, parts, cut⟩ :=
        List.exists_cons_of_ne_nil (List.splitOn_ne_nil separator text)
      rw [List.splitOn_cons_eq_if_modifyHead, cut] at isPart
      rw [cut] at inductionHypothesis
      split at isPart
      next =>
        rcases List.mem_cons.mp isPart with rfl | later
        · exact List.not_mem_nil
        · exact inductionHypothesis later
      next uncut =>
        have differs : first ≠ separator := by simpa using uncut
        rw [List.modifyHead_cons] at isPart
        rcases List.mem_cons.mp isPart with rfl | later
        · simp [Ne.symm differs, inductionHypothesis List.mem_cons_self]
        · exact inductionHypothesis (List.mem_cons_of_mem _ later)

/-- Of two starts that go apart a text has one at most. -/
theorem stripStart_eq_none {start other rest : List Char}
    (stripped : stripStart start text = some rest)
    (apart : ¬ start <+: other ∧ ¬ other <+: start) : stripStart other text = none := by
  unfold stripStart at stripped ⊢
  split at stripped
  next begins =>
    rw [if_neg]
    intro also
    rw [List.isPrefixOf_iff_prefix] at begins also
    exact (List.prefix_or_prefix_of_prefix begins also).elim apart.1 apart.2
  next => cases stripped

end Cuts

/-! ### Trimming -/

/-- The text without the characters of a kind at its two ends. -/
def trimMatches (kind : Char → Bool) (text : List Char) : List Char :=
  (text.dropWhile kind).rdropWhile kind

def trim (text : List Char) : List Char := trimMatches isWhitespace text

section Trimming

variable {kind : Char → Bool} {text : List Char} {char : Char}

theorem mem_dropWhile_of_kept (member : char ∈ text) (kept : kind char = false) :
    char ∈ text.dropWhile kind := by
  rw [← List.takeWhile_append_dropWhile (p := kind) (l := text), List.mem_append] at member
  rcases member with dropped | later
  · have matched := List.mem_takeWhile_imp dropped
    rw [kept] at matched
    cases matched
  · exact later

/-- Only such characters are trimmed off. -/
theorem mem_trimMatches (member : char ∈ text) (kept : kind char = false) :
    char ∈ trimMatches kind text := by
  have inFront := mem_dropWhile_of_kept member kept
  rw [trimMatches, List.rdropWhile, List.mem_reverse]
  exact mem_dropWhile_of_kept (List.mem_reverse.mpr inFront) kept

theorem trimMatches_cons (matched : kind char = true) :
    trimMatches kind (char :: text) = trimMatches kind text := by
  rw [trimMatches, List.dropWhile_cons_of_pos matched, ← trimMatches]

/-- A text is trimmed at its end if its first character stays. -/
theorem trimMatches_append {last : Char} (filled : text ≠ [])
    (clean : ∀ char ∈ text, kind char = false) (matched : kind last = true) :
    trimMatches kind (text ++ [last]) = text := by
  obtain ⟨first, more, rfl⟩ := List.exists_cons_of_ne_nil filled
  have kept : ¬ kind first = true := by simp [clean first List.mem_cons_self]
  rw [trimMatches, List.cons_append, List.dropWhile_cons_of_neg kept, ← List.cons_append,
    List.rdropWhile_concat_pos _ _ _ matched]
  apply List.rdropWhile_eq_self_iff.mpr
  intro nonempty
  simp [clean _ (List.getLast_mem nonempty)]

theorem trimMatches_eq_self (clean : ∀ char ∈ text, kind char = false) :
    trimMatches kind text = text := by
  have front : text.dropWhile kind = text := by
    apply List.dropWhile_eq_self_iff.mpr
    intro nonempty
    simp [clean _ (List.getElem_mem nonempty)]
  rw [trimMatches, front]
  apply List.rdropWhile_eq_self_iff.mpr
  intro nonempty
  simp [clean _ (List.getLast_mem nonempty)]

/-- What is around a text is trimmed off, and nothing of the text. -/
theorem trimMatches_padded {front back : List Char} (before : ∀ char ∈ front, kind char = true)
    (clean : ∀ char ∈ text, kind char = false) (after : ∀ char ∈ back, kind char = true) :
    trimMatches kind (front ++ (text ++ back)) = text := by
  have unpadded {more : List Char} (all : ∀ char ∈ more, kind char = true) {rest : List Char}
      (kept : ∀ char ∈ rest, kind char = false) : (more ++ rest).dropWhile kind = rest := by
    rw [List.dropWhile_append_of_pos all, List.dropWhile_eq_self_iff]
    intro nonempty
    simp [kept _ (List.getElem_mem nonempty)]
  rw [trimMatches, List.dropWhile_append_of_pos before]
  cases text with
  | nil =>
      have none : back.dropWhile kind = [] := List.dropWhile_eq_nil_iff.mpr after
      rw [List.nil_append, none]
      rfl
  | cons first rest =>
      have kept : ¬ kind first = true := by simp [clean first List.mem_cons_self]
      rw [List.cons_append, List.dropWhile_cons_of_neg kept, ← List.cons_append, List.rdropWhile,
        List.reverse_append, unpadded, List.reverse_reverse]
      · exact fun char among => after char (List.mem_reverse.mp among)
      · exact fun char among => clean char (List.mem_reverse.mp among)

end Trimming

/-! ### Case and length -/

def lower (text : List Char) : List Char := text.map Char.toLower

def upper (text : List Char) : List Char := text.map Char.toUpper

/-- How many bytes the text takes in UTF-8. -/
def utf8Len (text : List Char) : Nat :=
  text.foldl (fun size char => size + char.utf8Size) 0

/-- Only a letter is changed. -/
theorem eq_of_toLower_eq {char other : Char} (same : char.toLower = other)
    (unlettered : other.isLower = false) : char = other := by
  subst same
  unfold Char.toLower at unlettered ⊢
  split
  next upper =>
    exfalso
    rw [dif_pos upper] at unlettered
    change (decide (97 ≤ char.val + 32) && decide (char.val + 32 ≤ 122)) = false at unlettered
    have outside : 97 ≤ char.val + 32 → 122 < char.val + 32 := by simpa using unlettered
    grind
  next => rfl

theorem eq_of_lower_eq {text other : List Char} (same : lower text = other)
    (unlettered : ∀ char ∈ other, char.isLower = false) : text = other := by
  induction text generalizing other with
  | nil => exact same
  | cons char text inductionHypothesis =>
      subst same
      rw [lower, List.map_cons, List.cons.injEq]
      rw [lower, List.map_cons] at unlettered
      exact ⟨eq_of_toLower_eq rfl (unlettered _ List.mem_cons_self),
        inductionHypothesis rfl fun char member => unlettered char (List.mem_cons_of_mem _ member)⟩

/-- A character that has no case is in a text only if it is in the text in lower case. -/
theorem notMem_of_lower {char : Char} {text : List Char} (caseless : char.toLower = char)
    (absent : char ∉ lower text) : char ∉ text := by
  intro member
  apply absent
  rw [lower, List.mem_map]
  exact ⟨char, member, caseless⟩

/-! ### Unsigned numbers -/

def decimalOf (digits : List Char) : Nat :=
  digits.foldl (fun number digit => number * 10 + (digit.toNat - '0'.toNat)) 0

/-- A number below a bound; it may have a plus sign, and zeros before it. -/
def parseUnsigned (bound : Nat) (text : List Char) : Option Nat :=
  let digits :=
    match text with
    | '+' :: rest => rest
    | text => text
  if digits ≠ [] ∧ digits.all Char.isDigit ∧ decimalOf digits < bound then some (decimalOf digits)
  else none

section Numbers

variable {bound number : Nat} {text : List Char}

theorem parseUnsigned_digits (filled : text ≠ []) (digits : ∀ char ∈ text, char.isDigit)
    (small : decimalOf text < bound) : parseUnsigned bound text = some (decimalOf text) := by
  obtain ⟨first, more, rfl⟩ := List.exists_cons_of_ne_nil filled
  have unsigned : first ≠ '+' := by
    rintro rfl
    exact absurd (digits '+' List.mem_cons_self) (by decide)
  have all : (first :: more).all Char.isDigit := List.all_eq_true.mpr digits
  unfold parseUnsigned
  split
  next rest here => exact absurd (List.cons.inj here).1 unsigned
  next => simp only [ne_eq, filled, not_false_iff, all, small, and_self, if_true]

theorem parseUnsigned_eq_some (parsed : parseUnsigned bound text = some number) :
    ∀ char ∈ text, char.isDigit ∨ char = '+' := by
  unfold parseUnsigned at parsed
  split at parsed
  next rest =>
    simp only at parsed
    split at parsed
    next digits =>
      intro char member
      rcases List.mem_cons.mp member with rfl | later
      · exact .inr rfl
      · exact .inl (List.all_eq_true.mp digits.2.1 char later)
    next => cases parsed
  next =>
    simp only at parsed
    split at parsed
    next digits => exact fun char member => .inl (List.all_eq_true.mp digits.2.1 char member)
    next => cases parsed

end Numbers

end Unroxy.Lib.Text
