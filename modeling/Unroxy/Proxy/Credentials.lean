import Unroxy.Lib.Base64
import Unroxy.Lib.Text
import Unroxy.Lib.Utf8
import Unroxy.Proxy.Headers

/-!
Owns the name that a client gives in its credentials: `auth_username` and
`decode_username` of `proxy/server.rs`.

The decoder of the `base64` crate is a parameter.

Does not own what the name leads to.
-/

namespace Unroxy.Proxy

open Unroxy.Lib
open Unroxy.Lib.Text
open Unroxy.Lib.Utf8 (decodeLossy decodeLossy_encode)

variable {φ : Type}

/-- `decode_username`. -/
def decodeUsername (decode : List Char → Option (List UInt8)) (encoded : List Char) : String :=
  match decode encoded with
  | none => ""
  | some decoded =>
      String.ofList ((decodeLossy decoded).toList.takeWhile fun char => char ≠ ':')

/-- The header that `auth_username` reads. -/
def authHeader (headers : HeaderMap) : Option String :=
  (headers.get "proxy-authorization").or (headers.get "authorization")

/-- The name in the header, if it is one of the scheme `Basic`. -/
def basicUsername (decode : List Char → Option (List UInt8)) (header : List Char) : String :=
  match stripStart "Basic ".toList header with
  | none => ""
  | some encoded => decodeUsername decode (trim encoded)

/-- `auth_username`. -/
def authUsername (decode : List Char → Option (List UInt8)) (headers : HeaderMap) : String :=
  match (authHeader headers).bind HeaderValue.toStr with
  | none => ""
  | some header => basicUsername decode header.toList

/-! ### What a client gives -/

/-- The credentials of a client, with the blanks around them. -/
structure Credentials where
  user : String
  plain : ':' ∉ user.toList
  password : Option String
  front : List Char
  back : List Char
  before : ∀ char ∈ front, char = ' ' ∨ char = '\t'
  after : ∀ char ∈ back, char = ' ' ∨ char = '\t'

namespace Credentials

variable (credentials : Credentials)

def pair : String :=
  match credentials.password with
  | none => credentials.user
  | some password => credentials.user ++ ":" ++ password

def encoded : List Char := Base64.encode (Utf8.encode credentials.pair)

def text : List Char :=
  "Basic ".toList ++ (credentials.front ++ (credentials.encoded ++ credentials.back))

theorem takeWhile_pair :
    (credentials.pair.toList.takeWhile fun char => char ≠ ':') = credentials.user.toList := by
  have clean : ∀ char ∈ credentials.user.toList, decide (char ≠ ':') = true := by
    intro char among
    apply decide_eq_true
    rintro rfl
    exact credentials.plain among
  rw [pair]
  split
  · exact List.takeWhile_eq_self_iff.mpr clean
  · rw [String.append_assoc, String.toList_append, List.takeWhile_append_of_pos clean]
    simp

theorem visible_text : credentials.text.all HeaderValue.isVisibleAscii := by
  have blank {char : Char} (isBlank : char = ' ' ∨ char = '\t') :
      HeaderValue.isVisibleAscii char = true := by
    rcases isBlank with rfl | rfl
    · decide
    · decide
  have scheme : "Basic ".toList.all HeaderValue.isVisibleAscii = true := by decide
  have digits : ∀ char ∈ credentials.encoded, HeaderValue.isVisibleAscii char = true := by
    intro char among
    have bounds := Base64.encode_visible _ char among
    exact decide_eq_true (.inl ⟨Nat.le_trans (by decide) bounds.1, bounds.2⟩)
  rw [List.all_eq_true, text]
  simp only [List.mem_append]
  rintro char (word | front | digit | back)
  · exact List.all_eq_true.mp scheme char word
  · exact blank (credentials.before char front)
  · exact digits char digit
  · exact blank (credentials.after char back)

theorem trim_text :
    trim (credentials.front ++ (credentials.encoded ++ credentials.back)) = credentials.encoded := by
  have blank {char : Char} (isBlank : char = ' ' ∨ char = '\t') : isWhitespace char = true := by
    rcases isBlank with rfl | rfl
    · decide
    · decide
  apply trimMatches_padded
  · exact fun char among => blank (credentials.before char among)
  · intro char among
    have bounds := Base64.encode_visible _ char among
    unfold isWhitespace
    simp
    omega
  · exact fun char among => blank (credentials.after char among)

theorem basicUsername_text {decode : List Char → Option (List UInt8)}
    (decodes : ∀ bytes, decode (Base64.encode bytes) = some bytes) :
    basicUsername decode credentials.text = credentials.user := by
  have stripped : stripStart "Basic ".toList credentials.text =
      some (credentials.front ++ (credentials.encoded ++ credentials.back)) := by
    rw [text, stripStart, if_pos (List.isPrefixOf_iff_prefix.mpr ⟨_, rfl⟩), List.drop_left]
  have decoded : decode credentials.encoded = some (Utf8.encode credentials.pair) := decodes _
  rw [basicUsername, stripped]
  dsimp only
  rw [credentials.trim_text, decodeUsername, decoded]
  dsimp only
  rw [decodeLossy_encode, credentials.takeWhile_pair, String.ofList_toList]

end Credentials

/-- Names that differ in their case lead to one region. -/
theorem Proxy.region_eq (proxy : Proxy φ) {name other : String}
    (same : eqIgnoreAsciiCase name other) : proxy.region name = proxy.region other := by
  have lower : asciiLower name = asciiLower other := of_decide_eq_true same
  have empty : name.isEmpty = other.isEmpty := by
    have sizes := congrArg List.length lower
    rw [asciiLower, asciiLower, List.length_map, List.length_map, String.length_toList,
      String.length_toList] at sizes
    rw [Bool.eq_iff_iff, String.isEmpty_iff, String.isEmpty_iff, ← String.length_eq_zero_iff, sizes,
      String.length_eq_zero_iff]
  unfold Proxy.region eqIgnoreAsciiCase
  rw [empty, lower]

/-- A client that gives a name in its `Proxy-Authorization`, or in its
`Authorization` if it has no other, is known by exactly that name, whatever the
name, the password and the blanks around them, and goes through the region of that
name in any case. -/
theorem credentials_named (decode : List Char → Option (List UInt8))
    (decodes : ∀ bytes, decode (Base64.encode bytes) = some bytes) (headers : HeaderMap)
    (credentials : Credentials)
    (given : authHeader headers = some (String.ofList credentials.text)) :
    authUsername decode headers = credentials.user ∧
      ∀ (proxy : Proxy φ) name, eqIgnoreAsciiCase name credentials.user →
        proxy.region (authUsername decode headers) = proxy.region name := by
  have value : HeaderValue.toStr (String.ofList credentials.text) =
      some (String.ofList credentials.text) := by
    rw [HeaderValue.toStr, String.toList_ofList, if_pos credentials.visible_text]
  have named : authUsername decode headers = credentials.user := by
    rw [authUsername, given, Option.bind_some, value]
    dsimp only
    rw [String.toList_ofList, credentials.basicUsername_text decodes]
  refine ⟨named, fun proxy name same => ?_⟩
  rw [named]
  exact proxy.region_eq (eqIgnoreAsciiCase_symm same)

/-- A name outside ASCII, and another one in the header that does not count. -/
def twoNames : HeaderMap :=
  [("authorization", "Basic ZGUtVlBO"), ("proxy-authorization", "Basic  U2luZ2Fww7hyOjp4")]

theorem credentials_named_two :
    authUsername Base64.decode twoNames = "Singapør" ∧
      ∀ (proxy : Proxy Unit) name, eqIgnoreAsciiCase name "Singapør" →
        proxy.region (authUsername Base64.decode twoNames) = proxy.region name :=
  credentials_named Base64.decode Base64.decode_encode twoNames
    { user := "Singapør", plain := by decide +kernel, password := some ":x", front := [' ']
      back := [], before := by simp, after := by simp }
    (by decide +kernel)

end Unroxy.Proxy
