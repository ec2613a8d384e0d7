import Mathlib.Data.List.TakeWhile
import Mathlib.Data.List.Count
import Unroxy.Lib.Text

/-!
Owns how the addresses of the Internet are read: IPv4 in dotted decimal without
leading zeros, IPv6 in groups with at most one `::` and perhaps an IPv4 address at
the end.

A reader takes what it can off the front of a text, or leaves the text alone.
`Took` is what is known of the part that was taken: its characters, and how many
separators stand in it at least.

Does not own how addresses are written.
-/

namespace Unroxy.Lib.IpReader

/-! ### Readers -/

def digitOf (char : Char) : Option Nat :=
  if char.isDigit then some (char.toNat - '0'.toNat)
  else if char.isLower then some (char.toNat - 'a'.toNat + 10)
  else if char.isUpper then some (char.toNat - 'A'.toNat + 10)
  else none

def toDigit (radix : Nat) (char : Char) : Option Nat :=
  (digitOf char).filter fun digit => digit < radix

/-- A number below `bound` with at most `maxDigits` digits. -/
def readNumber (radix maxDigits : Nat) (allowZeroPrefix : Bool) (bound : Nat)
    (input : List Char) : Option (Nat × List Char) :=
  let digits := input.takeWhile fun char => (toDigit radix char).isSome
  let rest := input.dropWhile fun char => (toDigit radix char).isSome
  let number := digits.foldl (fun number char => number * radix + (toDigit radix char).getD 0) 0
  if digits.length > maxDigits then none
  else if digits = [] then none
  else if !allowZeroPrefix ∧ digits.head? = some '0' ∧ digits.length > 1 then none
  else if number < bound then some (number, rest)
  else none

/-- Every part but the first one has a separator before it. -/
def readSeparator {α : Type} (separator : Char) (index : Nat)
    (inner : List Char → Option (α × List Char)) (input : List Char) : Option (α × List Char) :=
  if index = 0 then inner input
  else
    match input with
    | [] => none
    | char :: rest => if char = separator then inner rest else none

def readOctets : Nat → Nat → List Char → Option (List Nat × List Char)
  | 0, _, input => some ([], input)
  | count + 1, index, input =>
      match readSeparator '.' index (readNumber 10 3 false 256) input with
      | none => none
      | some (octet, rest) =>
          match readOctets count (index + 1) rest with
          | none => none
          | some (octets, rest) => some (octet :: octets, rest)

def readIpv4Addr (input : List Char) : Option (List Nat × List Char) := readOctets 4 0 input

/-- The two groups that an embedded IPv4 address makes. -/
def embedded : List Nat → List Nat
  | [a, b, c, d] => [a * 256 + b, c * 256 + d]
  | _ => []

/-- At most `left` groups, and whether the last two of them are an IPv4 address. -/
def readGroups : Nat → Nat → List Char → (List Nat × Bool) × List Char
  | 0, _, input => (([], false), input)
  | left + 1, index, input =>
      -- An IPv4 address needs the place of two groups.
      match if 0 < left then readSeparator ':' index readIpv4Addr input else none with
      | some (octets, rest) => ((embedded octets, true), rest)
      | none =>
          match readSeparator ':' index (readNumber 16 4 true 65536) input with
          | none => (([], false), input)
          | some (group, rest) =>
              let ((groups, ipv4), rest) := readGroups left (index + 1) rest
              ((group :: groups, ipv4), rest)

def readIpv6Addr (input : List Char) : Option (List Nat × List Char) :=
  let ((head, ipv4), rest) := readGroups 8 0 input
  if head.length = 8 then some (head, rest)
  else if ipv4 then none
  else
    match rest with
    | ':' :: ':' :: rest =>
        let ((tail, _), rest) := readGroups (8 - (head.length + 1)) 0 rest
        some (head ++ List.replicate (8 - head.length - tail.length) 0 ++ tail, rest)
    | _ => none

inductive IpAddr where
  | v4 (octets : List Nat)
  | v6 (groups : List Nat)
deriving DecidableEq, Repr

def readIpAddr (input : List Char) : Option (IpAddr × List Char) :=
  match readIpv4Addr input with
  | some (octets, rest) => some (.v4 octets, rest)
  | none => (readIpv6Addr input).map fun (groups, rest) => (.v6 groups, rest)

/-- A text is an address if nothing is left after it. -/
def parseWith {α : Type} (reader : List Char → Option (α × List Char)) (text : List Char) :
    Option α :=
  match reader text with
  | some (address, []) => some address
  | _ => none

/-- No IPv4 address is longer than 15 bytes. -/
def parseIpv4 (text : List Char) : Option (List Nat) :=
  if Text.utf8Len text > 15 then none else parseWith readIpv4Addr text

def parseIpv6 (text : List Char) : Option (List Nat) := parseWith readIpv6Addr text

def parseIpAddr (text : List Char) : Option IpAddr := parseWith readIpAddr text

example : parseIpAddr "2001:db8::1:127.0.0.1".toList =
    some (.v6 [0x2001, 0xDB8, 0, 0, 0, 1, 0x7F00, 1]) := by
  decide

/-! ### What a reader takes -/

/-- The part of `input` before `rest` has letters, digits and characters of `kind`
only, and at least `least` separators. -/
def Took (kind : List Char) (separator : Char) (least : Nat) (input rest : List Char) : Prop :=
  ∃ taken, input = taken ++ rest ∧ (∀ char ∈ taken, char.isAlphanum ∨ char ∈ kind) ∧
    least ≤ taken.count separator

namespace Took

variable {kind : List Char} {separator : Char} {least more : Nat} {input middle rest : List Char}

theorem nothing : Took kind separator 0 input input :=
  ⟨[], rfl, fun _ absent => absurd absent List.not_mem_nil, Nat.zero_le _⟩

theorem append (first : Took kind separator least input middle)
    (second : Took kind separator more middle rest) :
    Took kind separator (least + more) input rest := by
  obtain ⟨front, rfl, plainFront, manyFront⟩ := first
  obtain ⟨back, rfl, plainBack, manyBack⟩ := second
  refine ⟨front ++ back, (List.append_assoc _ _ _).symm, ?_, ?_⟩
  · intro char member
    exact (List.mem_append.mp member).elim (plainFront char) (plainBack char)
  · rw [List.count_append]
    omega

theorem separated (allowed : separator ∈ kind) (later : Took kind separator least input rest) :
    Took kind separator (least + 1) (separator :: input) rest := by
  obtain ⟨taken, rfl, plain, many⟩ := later
  refine ⟨separator :: taken, rfl, ?_, ?_⟩
  · intro char member
    rcases List.mem_cons.mp member with rfl | member
    · exact .inr allowed
    · exact plain char member
  · rw [List.count_cons_self]
    omega

theorem weaken {wider : List Char} {other : Char} (took : Took kind separator least input rest)
    (widens : kind ⊆ wider) : Took wider other 0 input rest := by
  obtain ⟨taken, whole, plain, -⟩ := took
  exact ⟨taken, whole, fun char member => (plain char member).imp_right fun known => widens known,
    Nat.zero_le _⟩

/-- What was taken is the whole text if nothing is left. -/
theorem whole (took : Took kind separator least input []) :
    (∀ char ∈ input, char.isAlphanum ∨ char ∈ kind) ∧ least ≤ input.count separator := by
  obtain ⟨taken, rfl, plain, many⟩ := took
  rw [List.append_nil]
  exact ⟨plain, many⟩

end Took

section Readers

variable {input rest : List Char}

theorem isAlphanum_of_toDigit {radix : Nat} {char : Char} (digit : (toDigit radix char).isSome) :
    char.isAlphanum := by
  have known : (digitOf char).isSome := by
    obtain ⟨value, here⟩ := Option.isSome_iff_exists.mp digit
    rw [(Option.filter_eq_some_iff.mp here).1]
    rfl
  have kinds : char.isAlphanum = ((char.isUpper || char.isLower) || char.isDigit) := rfl
  rw [kinds]
  unfold digitOf at known
  split at known
  next decimal => simp [decimal]
  next =>
    split at known
    next lower => simp [lower]
    next =>
      split at known
      next upper => simp [upper]
      next => cases known

theorem readNumber_took {radix maxDigits bound number : Nat} {allowZeroPrefix : Bool}
    (kind : List Char) (separator : Char)
    (read : readNumber radix maxDigits allowZeroPrefix bound input = some (number, rest)) :
    Took kind separator 0 input rest := by
  have left : input.dropWhile (fun char => (toDigit radix char).isSome) = rest := by
    unfold readNumber at read
    grind
  refine ⟨input.takeWhile fun char => (toDigit radix char).isSome, ?_, ?_, Nat.zero_le _⟩
  · rw [← left, List.takeWhile_append_dropWhile]
  · intro char member
    have digit := List.mem_takeWhile_imp member
    exact .inl (isAlphanum_of_toDigit digit)

/-- How many separators stand before the part at an index. -/
def before (index : Nat) : Nat := if index = 0 then 0 else 1

theorem readSeparator_took {α : Type} {kind : List Char} {separator : Char} {least index : Nat}
    {inner : List Char → Option (α × List Char)} {value : α} (allowed : separator ∈ kind)
    (took : ∀ text, inner text = some (value, rest) → Took kind separator least text rest)
    (read : readSeparator separator index inner input = some (value, rest)) :
    Took kind separator (least + before index) input rest := by
  unfold readSeparator at read
  unfold before
  split at read
  next first => simpa [first] using took input read
  next later =>
    split at read
    next => cases read
    next char text =>
      split at read
      next here =>
        rw [if_neg later, here]
        exact (took text read).separated allowed
      next => cases read

/-- Every octet but the first one stands after a dot. -/
theorem readOctets_took {count index : Nat} {octets : List Nat}
    (read : readOctets count index input = some (octets, rest)) :
    ∃ dots, Took ['.'] '.' dots input rest ∧ count + before index ≤ dots + 1 := by
  induction count generalizing index input octets with
  | zero =>
      cases read
      refine ⟨0, .nothing, ?_⟩
      unfold before
      split <;> omega
  | succ count inductionHypothesis =>
      unfold readOctets at read
      split at read
      next => cases read
      next octet middle first =>
        split at read
        next => cases read
        next others last later =>
          cases read
          have firstTook := readSeparator_took List.mem_cons_self
            (fun _ => readNumber_took ['.'] '.') first
          obtain ⟨dots, laterTook, many⟩ := inductionHypothesis later
          refine ⟨_, firstTook.append laterTook, ?_⟩
          rw [before, if_neg (Nat.succ_ne_zero index)] at many
          omega

theorem readIpv4Addr_took {octets : List Nat} (read : readIpv4Addr input = some (octets, rest)) :
    Took ['.'] '.' 1 input rest := by
  obtain ⟨dots, ⟨taken, whole, plain, many⟩, enough⟩ := readOctets_took read
  exact ⟨taken, whole, plain, by omega⟩

theorem length_embedded_le (octets : List Nat) : (embedded octets).length ≤ 2 := by
  unfold embedded
  split <;> simp

/-- Every group stands after a colon, but the first one, and an IPv4 address at the
end makes two groups. -/
theorem readGroups_took {left index : Nat} {groups : List Nat} {ipv4 : Bool}
    (read : readGroups left index input = ((groups, ipv4), rest)) :
    ∃ colons, Took ['.', ':'] ':' colons input rest ∧
      groups.length + before index ≤ colons + 2 := by
  have atMost : before index ≤ 1 := by
    unfold before
    split <;> omega
  have colon : ':' ∈ ['.', ':'] := by decide
  induction left generalizing index input groups ipv4 with
  | zero =>
      cases read
      exact ⟨0, .nothing, by rw [List.length_nil]; omega⟩
  | succ left inductionHypothesis =>
      unfold readGroups at read
      split at read
      next octets last found =>
        cases read
        have short := length_embedded_le octets
        split at found
        next =>
          have took := readSeparator_took colon
            (fun _ inner => (readIpv4Addr_took inner).weaken (by decide)) found
          exact ⟨_, took, by omega⟩
        next => cases found
      next =>
        split at read
        next =>
          cases read
          exact ⟨0, .nothing, by rw [List.length_nil]; omega⟩
        next group middle found =>
          have firstTook := readSeparator_took colon
            (fun _ => readNumber_took ['.', ':'] ':') found
          cases more : readGroups left (index + 1) middle with
          | mk pair last =>
              obtain ⟨others, tail⟩ := pair
              rw [more] at read
              cases read
              obtain ⟨colons, laterTook, many⟩ := inductionHypothesis more (by simp [before])
              refine ⟨_, firstTook.append laterTook, ?_⟩
              rw [before, if_neg (Nat.succ_ne_zero index)] at many
              rw [List.length_cons]
              omega

/-- Either all eight groups are written out or there is a `::`. -/
theorem readIpv6Addr_took {groups : List Nat} (read : readIpv6Addr input = some (groups, rest)) :
    Took ['.', ':'] ':' 2 input rest := by
  cases front : readGroups 8 0 input with
  | mk pair middle =>
      obtain ⟨head, ipv4⟩ := pair
      obtain ⟨colons, ⟨taken, whole, plain, many⟩, enough⟩ := readGroups_took front
      simp only [readIpv6Addr, front] at read
      split at read
      next full =>
        cases read
        exact ⟨taken, whole, plain, by omega⟩
      next =>
        split at read
        next => cases read
        next =>
          split at read
          next after =>
            cases back : readGroups (8 - (head.length + 1)) 0 after with
            | mk pair last =>
                obtain ⟨tail, _⟩ := pair
                rw [back] at read
                cases read
                obtain ⟨others, backTook, -⟩ := readGroups_took back
                have colon : ':' ∈ ['.', ':'] := by decide
                have doubled := (backTook.separated colon).separated colon
                obtain ⟨taken, same, plainBack, manyBack⟩ :=
                  Took.append ⟨_, whole, plain, many⟩ doubled
                exact ⟨taken, same, plainBack, by omega⟩
          next => cases read

end Readers

/-! ### What an address looks like -/

section Addresses

variable {text : List Char}

theorem parseWith_eq_some {α : Type} {reader : List Char → Option (α × List Char)} {address : α} :
    parseWith reader text = some address ↔ reader text = some (address, []) := by
  unfold parseWith
  grind

/-- An IPv6 address has two colons at least. -/
theorem parseIpv6_eq_some {groups : List Nat} (parsed : parseIpv6 text = some groups) :
    (∀ char ∈ text, char.isAlphanum ∨ char ∈ ['.', ':']) ∧ 2 ≤ text.count ':' :=
  (readIpv6Addr_took (parseWith_eq_some.mp parsed)).whole

/-- An address that is no IPv6 address is one of numbers and dots. -/
theorem parseIpAddr_eq_some {address : IpAddr} (parsed : parseIpAddr text = some address)
    (plain : parseIpv6 text = none) :
    (∀ char ∈ text, char.isAlphanum ∨ char ∈ ['.']) ∧ '.' ∈ text := by
  have read := parseWith_eq_some.mp parsed
  unfold readIpAddr at read
  split at read
  next octets rest first =>
    cases read
    obtain ⟨chars, dots⟩ := (readIpv4Addr_took first).whole
    exact ⟨chars, List.count_pos_iff.mp dots⟩
  next =>
    obtain ⟨⟨groups, rest⟩, second, same⟩ := Option.map_eq_some_iff.mp read
    cases same
    rw [parseIpv6, parseWith_eq_some.mpr second] at plain
    cases plain

end Addresses

end Unroxy.Lib.IpReader
