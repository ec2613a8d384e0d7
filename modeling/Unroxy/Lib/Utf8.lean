import Mathlib.Data.List.Basic

/-!
Owns UTF-8: the bytes of a text, and the decoding that replaces what is no UTF-8,
one replacement character for each longest part that could begin a character.

The state between two bytes is what is known of a character that has begun.

Does not own what a text is made of.
-/

namespace Unroxy.Lib.Utf8

def replacement : Char := Char.ofNat 0xFFFD

/-- A character that has begun: its bits so far, how many bytes are left, and
between which bounds the next one is. -/
structure Begun where
  bits : Nat
  left : Nat
  low : Nat
  high : Nat
deriving DecidableEq, Repr

inductive State where
  | between
  | within (begun : Begun)
deriving DecidableEq, Repr

/-- The first byte of a character. -/
def first (byte : Nat) : List Char × State :=
  if byte < 0x80 then ([Char.ofNat byte], .between)
  else if 0xC2 ≤ byte ∧ byte ≤ 0xDF then ([], .within ⟨byte - 0xC0, 1, 0x80, 0xBF⟩)
  else if byte = 0xE0 then ([], .within ⟨0, 2, 0xA0, 0xBF⟩)
  else if byte = 0xED then ([], .within ⟨0xD, 2, 0x80, 0x9F⟩)
  else if 0xE1 ≤ byte ∧ byte ≤ 0xEF then ([], .within ⟨byte - 0xE0, 2, 0x80, 0xBF⟩)
  else if byte = 0xF0 then ([], .within ⟨0, 3, 0x90, 0xBF⟩)
  else if 0xF1 ≤ byte ∧ byte ≤ 0xF3 then ([], .within ⟨byte - 0xF0, 3, 0x80, 0xBF⟩)
  else if byte = 0xF4 then ([], .within ⟨4, 3, 0x80, 0x8F⟩)
  else ([replacement], .between)

def step : State → Nat → List Char × State
  | .between, byte => first byte
  | .within begun, byte =>
      if begun.low ≤ byte ∧ byte ≤ begun.high then
        let bits := begun.bits * 0x40 + byte % 0x40
        if begun.left = 1 then ([Char.ofNat bits], .between)
        else ([], .within ⟨bits, begun.left - 1, 0x80, 0xBF⟩)
      else
        -- The byte does not belong to the character, and may begin another one.
        let (chars, next) := first byte
        (replacement :: chars, next)

def decodeFrom : State → List UInt8 → List Char
  | .between, [] => []
  | .within _, [] => [replacement]
  | state, byte :: rest =>
      let (chars, next) := step state byte.toNat
      chars ++ decodeFrom next rest

def decodeLossy (bytes : List UInt8) : String := String.ofList (decodeFrom .between bytes)

/-- The bytes of an ASCII text. -/
def asciiBytes (text : String) : List UInt8 := text.toList.map fun char => UInt8.ofNat char.toNat

def Ascii (text : String) : Prop := ∀ char ∈ text.toList, char.toNat < 0x80

theorem decodeFrom_ascii {chars : List Char} (ascii : ∀ char ∈ chars, char.toNat < 0x80) :
    decodeFrom .between (chars.map fun char => UInt8.ofNat char.toNat) = chars := by
  induction chars with
  | nil => rfl
  | cons char rest inductionHypothesis =>
      have low : char.toNat < 0x80 := ascii char List.mem_cons_self
      have byte : (UInt8.ofNat char.toNat).toNat = char.toNat := by
        simp only [UInt8.toNat_ofNat']
        omega
      have one : step .between (UInt8.ofNat char.toNat).toNat = ([char], .between) := by
        rw [byte]
        change first char.toNat = _
        rw [first, if_pos low, Char.ofNat_toNat]
      have others := inductionHypothesis fun other member =>
        ascii other (List.mem_cons_of_mem _ member)
      rw [List.map_cons, decodeFrom, one]
      dsimp only
      rw [others]
      rfl

theorem decodeLossy_asciiBytes {text : String} (ascii : Ascii text) :
    decodeLossy (asciiBytes text) = text := by
  rw [decodeLossy, asciiBytes, decodeFrom_ascii ascii, String.ofList_toList]

/-! ### Encoding -/

/-- The bytes of a character. -/
def encodeChar (char : Char) : List UInt8 :=
  let bits := char.toNat
  if bits < 0x80 then [UInt8.ofNat bits]
  else if bits < 0x800 then [UInt8.ofNat (0xC0 + bits / 0x40), UInt8.ofNat (0x80 + bits % 0x40)]
  else if bits < 0x10000 then
    [UInt8.ofNat (0xE0 + bits / 0x1000), UInt8.ofNat (0x80 + bits / 0x40 % 0x40),
      UInt8.ofNat (0x80 + bits % 0x40)]
  else
    [UInt8.ofNat (0xF0 + bits / 0x40000), UInt8.ofNat (0x80 + bits / 0x1000 % 0x40),
      UInt8.ofNat (0x80 + bits / 0x40 % 0x40), UInt8.ofNat (0x80 + bits % 0x40)]

def encode (text : String) : List UInt8 := text.toList.flatMap encodeChar

theorem byte_toNat {value : Nat} (small : value < 256) : (UInt8.ofNat value).toNat = value := by
  rw [UInt8.toNat_ofNat']
  exact Nat.mod_eq_of_lt small

/-- A byte that belongs to the character, and is not its last. -/
theorem decodeFrom_more {begun : Begun} {byte : Nat} {rest : List UInt8} (small : byte < 256)
    (fits : begun.low ≤ byte ∧ byte ≤ begun.high) (more : begun.left ≠ 1) :
    decodeFrom (.within begun) (UInt8.ofNat byte :: rest) =
      decodeFrom (.within ⟨begun.bits * 0x40 + byte % 0x40, begun.left - 1, 0x80, 0xBF⟩) rest := by
  rw [decodeFrom, step, byte_toNat small, if_pos fits]
  dsimp only
  rw [if_neg more]
  rfl

/-- The last byte of the character. -/
theorem decodeFrom_last {begun : Begun} {byte : Nat} {rest : List UInt8} (small : byte < 256)
    (fits : begun.low ≤ byte ∧ byte ≤ begun.high) (last : begun.left = 1) :
    decodeFrom (.within begun) (UInt8.ofNat byte :: rest) =
      Char.ofNat (begun.bits * 0x40 + byte % 0x40) :: decodeFrom .between rest := by
  rw [decodeFrom, step, byte_toNat small, if_pos fits]
  dsimp only
  rw [if_pos last]
  rfl

theorem decodeFrom_first {byte : Nat} {begun : Begun} {rest : List UInt8} (small : byte < 256)
    (begins : first byte = ([], .within begun)) :
    decodeFrom .between (UInt8.ofNat byte :: rest) = decodeFrom (.within begun) rest := by
  rw [decodeFrom, step, byte_toNat small, begins]
  rfl

/-- The first byte of a character of three bytes, and what its second one can be. -/
theorem first_three {lead : Nat} (small : lead < 16) :
    ∃ low high, first (0xE0 + lead) = ([], .within ⟨lead, 2, low, high⟩) ∧
      ∀ second < 0x40, (lead = 0 → 0x20 ≤ second) → (lead = 0xD → second < 0x20) →
        low ≤ 0x80 + second ∧ 0x80 + second ≤ high := by
  unfold first
  by_cases zero : lead = 0
  · subst zero
    refine ⟨0xA0, 0xBF, rfl, ?_⟩
    intro second within atZero _
    have least := atZero rfl
    omega
  · by_cases thirteen : lead = 0xD
    · subst thirteen
      refine ⟨0x80, 0x9F, rfl, ?_⟩
      intro second within _ atThirteen
      have most := atThirteen rfl
      omega
    · refine ⟨0x80, 0xBF, ?_, ?_⟩
      · rw [if_neg (by omega), if_neg (by omega), if_neg (by omega), if_neg (by omega),
          if_pos (by omega), Nat.add_sub_cancel_left]
      · intro second within _ _
        omega

/-- The same for four bytes. -/
theorem first_four {lead : Nat} (small : lead < 5) :
    ∃ low high, first (0xF0 + lead) = ([], .within ⟨lead, 3, low, high⟩) ∧
      ∀ second < 0x40, (lead = 0 → 0x10 ≤ second) → (lead = 4 → second < 0x10) →
        low ≤ 0x80 + second ∧ 0x80 + second ≤ high := by
  unfold first
  by_cases zero : lead = 0
  · subst zero
    refine ⟨0x90, 0xBF, rfl, ?_⟩
    intro second within atZero _
    have least := atZero rfl
    omega
  · by_cases four : lead = 4
    · subst four
      refine ⟨0x80, 0x8F, rfl, ?_⟩
      intro second within _ atFour
      have most := atFour rfl
      omega
    · refine ⟨0x80, 0xBF, ?_, ?_⟩
      · rw [if_neg (by omega), if_neg (by omega), if_neg (by omega), if_neg (by omega),
          if_neg (by omega), if_neg (by omega), if_pos (by omega), Nat.add_sub_cancel_left]
      · intro second within _ _
        omega

theorem ofNat_of_eq {char : Char} {bits : Nat} (same : bits = char.toNat) :
    Char.ofNat bits = char := by
  rw [same, Char.ofNat_toNat]

theorem decodeFrom_encodeChar (char : Char) (rest : List UInt8) :
    decodeFrom .between (encodeChar char ++ rest) = char :: decodeFrom .between rest := by
  have valid : char.toNat < 0xD800 ∨ 0xDFFF < char.toNat ∧ char.toNat < 0x110000 := char.valid
  rw [encodeChar]
  split
  case isTrue one =>
    have ascii : step .between (UInt8.ofNat char.toNat).toNat = ([char], .between) := by
      rw [byte_toNat (by omega)]
      change first char.toNat = _
      rw [first, if_pos one, Char.ofNat_toNat]
    rw [List.cons_append, decodeFrom, ascii]
    rfl
  case isFalse =>
    split
    case isTrue two =>
      have lead : first (0xC0 + char.toNat / 0x40) =
          ([], .within ⟨char.toNat / 0x40, 1, 0x80, 0xBF⟩) := by
        rw [first, if_neg (by omega), if_pos (by omega), Nat.add_sub_cancel_left]
      rw [List.cons_append, decodeFrom_first (by omega) lead, List.cons_append,
        decodeFrom_last (by omega) (by dsimp only; omega) rfl, List.nil_append]
      congr 1
      exact ofNat_of_eq (by dsimp only; omega)
    case isFalse =>
      split
      case isTrue three =>
        obtain ⟨low, high, lead, bounds⟩ := @first_three (char.toNat / 0x1000) (by omega)
        have fits := bounds (char.toNat / 0x40 % 0x40) (by omega) (by omega) (by omega)
        rw [List.cons_append, decodeFrom_first (by omega) lead, List.cons_append,
          decodeFrom_more (by omega) fits (by dsimp only; omega), List.cons_append,
          decodeFrom_last (by omega) (by dsimp only; omega) rfl, List.nil_append]
        congr 1
        exact ofNat_of_eq (by dsimp only; omega)
      case isFalse =>
        obtain ⟨low, high, lead, bounds⟩ := @first_four (char.toNat / 0x40000) (by omega)
        have fits := bounds (char.toNat / 0x1000 % 0x40) (by omega) (by omega) (by omega)
        rw [List.cons_append, decodeFrom_first (by omega) lead, List.cons_append,
          decodeFrom_more (by omega) fits (by dsimp only; omega), List.cons_append,
          decodeFrom_more (by omega) (by dsimp only; omega) (by dsimp only; omega),
          List.cons_append, decodeFrom_last (by omega) (by dsimp only; omega) rfl, List.nil_append]
        congr 1
        exact ofNat_of_eq (by dsimp only; omega)

theorem decodeLossy_encode (text : String) : decodeLossy (encode text) = text := by
  have all (chars : List Char) : decodeFrom .between (chars.flatMap encodeChar) = chars := by
    induction chars with
    | nil => rfl
    | cons char rest inductionHypothesis =>
        rw [List.flatMap_cons, decodeFrom_encodeChar, inductionHypothesis]
  rw [decodeLossy, encode, all, String.ofList_toList]

end Unroxy.Lib.Utf8
