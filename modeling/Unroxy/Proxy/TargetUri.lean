import Unroxy.Proxy.RewritePath

/-!
Owns `Target::uri` of `proxy/server.rs`: the URI that the target of a rewrite path is
forwarded to.

`str::parse::<Uri>` is a parameter, with the characters that the `http` crate allows
in a path and in a query. `ParsesUris` is what is relied on: a URI parses if its parts
are valid, and an authority with more than one colon and no brackets is rejected.
`readUri` is a parser of that kind.

Does not own the parser of the `http` crate, and its limit on the length of a URI.
-/

namespace Unroxy.Proxy

open Unroxy.Lib.IpReader (parseIpv6 parseIpv6_eq_some)
open Unroxy.Lib.Text

/-- The error of `Target::uri`. -/
inductive TargetError where
  | missingTarget
deriving DecidableEq, Repr

def TargetError.message : TargetError → String
  | .missingTarget => "missing target host"

def Target.uri (parse : String → Option Uri) (self : Target) : Except TargetError Uri :=
  let uri := self.scheme ++ "://" ++ self.host ++ self.path
  let uri := if self.query = "" then uri else uri ++ "?" ++ self.query
  match parse uri with
  | some uri => .ok uri
  | none => .error .missingTarget

/-! ### The parser of the `http` crate -/

/-- A character of a domain or of an IPv4 address. -/
def isNameChar (char : Char) : Bool := char.isAlphanum ∨ char ∈ ['.', '-']

/-- What comes after the path. -/
def queryText : Option String → String
  | none => ""
  | some query => "?" ++ query

structure ParsesUris (parse : String → Option Uri) (pathChar queryChar : Char → Prop) :
    Prop where
  slash : pathChar '/'
  parses : ∀ (scheme : Scheme) (host path : String) (query : Option String),
    host ≠ "" → (∀ char ∈ host.toList, isNameChar char) →
    path.toList.head? = some '/' → (∀ char ∈ path.toList, pathChar char) →
    (∀ text ∈ query, ∀ char ∈ text.toList, queryChar char) →
    parse (scheme.text ++ "://" ++ host ++ path ++ queryText query) =
      some { scheme := some scheme.text, authority := some host, path, query }
  rejects : ∀ (scheme : Scheme) (authority path : String) (query : Option String),
    (∀ char ∈ authority.toList, char ∉ ['/', '?', '#', '@', '[', ']']) →
    1 < authority.toList.count ':' → path.toList.head? = some '/' →
    parse (scheme.text ++ "://" ++ authority ++ path ++ queryText query) = none

/-- A URI has valid characters only. -/
structure Uri.Valid (pathChar queryChar : Char → Prop) (uri : Uri) : Prop where
  path : ∀ char ∈ uri.path.toList, pathChar char
  query : ∀ text ∈ uri.query, ∀ char ∈ text.toList, queryChar char

/-! ### The URI of an accepted target -/

/-- `Target::uri` is the target, with a host that has neither userinfo nor port. -/
def Target.Usable (parse : String → Option Uri) (self : Target) : Prop :=
  self.uri parse = .ok
    { scheme := some self.scheme
      authority := some self.host
      path := self.path
      query := if self.query = "" then none else some self.query } ∧
    '@' ∉ self.host.toList ∧ ':' ∉ self.host.toList

section Usable

variable {parse : String → Option Uri} {pathChar queryChar : Char → Prop} {uri : Uri}
  {route : Route} {target : Target}

theorem Target.uri_eq (target : Target) :
    target.uri parse =
      match parse (target.scheme ++ "://" ++ target.host ++ target.path ++
        queryText (if target.query = "" then none else some target.query)) with
      | some uri => .ok uri
      | none => .error .missingTarget := by
  by_cases empty : target.query = ""
  · simp [Target.uri, empty, queryText]
  · simp [Target.uri, empty, queryText, String.append_assoc]

theorem Accepted.usable (laws : ParsesUris parse pathChar queryChar)
    (valid : uri.Valid pathChar queryChar) (accepted : Accepted uri target)
    (noIpv6 : parseIpv6 target.host.toList = none) : target.Usable parse := by
  obtain ⟨plain, dotted⟩ := isValidDomain_plain accepted.host noIpv6
  obtain ⟨scheme, sameScheme⟩ := accepted.scheme
  obtain ⟨more, slashed, inside⟩ := accepted.path
  have filled : target.host ≠ "" := by
    intro empty
    rw [empty] at dotted
    cases dotted
  have pathChars : ∀ char ∈ target.path.toList, pathChar char := by
    rw [slashed]
    intro char member
    rcases List.mem_cons.mp member with rfl | later
    · exact laws.slash
    · exact valid.path char (inside char later)
  have queryChars : ∀ text ∈ (if target.query = "" then none else some target.query),
      ∀ char ∈ text.toList, queryChar char := by
    intro text given
    split at given
    next => cases given
    next asked =>
      cases given
      apply valid.query
      rw [accepted.query] at asked ⊢
      cases query : uri.query with
      | none => simp [query] at asked
      | some query => rfl
  have parsed := laws.parses scheme target.host target.path _ filled
    (fun char member => decide_eq_true (plain char member)) (by rw [slashed]; rfl) pathChars
    queryChars
  refine ⟨?_, notMem_of_plain plain (by decide), notMem_of_plain plain (by decide)⟩
  rw [Target.uri_eq, sameScheme, parsed]

theorem Accepted.uri_ipv6 (laws : ParsesUris parse pathChar queryChar)
    (accepted : Accepted uri target) (ipv6 : parseIpv6 target.host.toList ≠ none) :
    target.uri parse = .error .missingTarget := by
  obtain ⟨groups, parsed⟩ := Option.ne_none_iff_exists'.mp ipv6
  obtain ⟨chars, colons⟩ := parseIpv6_eq_some parsed
  obtain ⟨scheme, sameScheme⟩ := accepted.scheme
  obtain ⟨more, slashed, -⟩ := accepted.path
  have undelimited : ∀ char ∈ target.host.toList, char ∉ ['/', '?', '#', '@', '[', ']'] := by
    intro char member delimiter
    have others : ['/', '?', '#', '@', '[', ']'].all
        fun other => !(other.isAlphanum || other ∈ ['.', ':']) := by decide
    have other := List.all_eq_true.mp others char delimiter
    simp only [Bool.not_eq_true', Bool.or_eq_false_iff, decide_eq_false_iff_not] at other
    rcases chars char member with letter | mark
    · exact absurd letter (by simp [other.1])
    · exact other.2 mark
  rw [Target.uri_eq, sameScheme,
    laws.rejects scheme target.host target.path _ undelimited colons (by rw [slashed]; rfl)]

/-- An accepted target is usable exactly if its host is not an IPv6 address, of which
no URI is made. -/
theorem usable_iff (laws : ParsesUris parse pathChar queryChar)
    (valid : uri.Valid pathChar queryChar) (accepts : parsePath uri = some (route, target)) :
    (target.Usable parse ↔ parseIpv6 target.host.toList = none) ∧
      (parseIpv6 target.host.toList ≠ none → target.uri parse = .error .missingTarget) := by
  have accepted := parsePath_accepted accepts
  refine ⟨⟨?_, accepted.usable laws valid⟩, accepted.uri_ipv6 laws⟩
  intro usable
  by_contra ipv6
  have failed := accepted.uri_ipv6 laws ipv6
  rw [usable.1] at failed
  cases failed

end Usable

/-! ### A parser of URIs -/

def isPathChar (char : Char) : Bool := 0x20 < char.toNat ∧ char ∉ ['?', '#']

def isQueryChar (char : Char) : Bool := 0x20 < char.toNat ∧ char ≠ '#'

def readScheme (text : List Char) : Option (Scheme × List Char) :=
  if "https://".toList.isPrefixOf text then some (.https, text.drop "https://".length)
  else if "http://".toList.isPrefixOf text then some (.http, text.drop "http://".length)
  else none

/-- The path, and the query if there is one. -/
def readPathAndQuery (text : List Char) : Option (String × Option String) :=
  match splitOnce '?' text with
  | none => if text.all isPathChar then some (String.ofList text, none) else none
  | some (path, query) =>
      if path.all isPathChar ∧ query.all isQueryChar then
        some (String.ofList path, some (String.ofList query))
      else none

/-- URIs in absolute form, with an authority of a name and a port only. -/
def readUri (text : String) : Option Uri :=
  match readScheme text.toList with
  | none => none
  | some (scheme, rest) =>
      let authority := rest.takeWhile fun char => char ∉ ['/', '?', '#']
      if authority = [] ∨ 1 < authority.count ':' ∨
          ¬ authority.all (fun char => isNameChar char ∨ char = ':') then
        none
      else
        match readPathAndQuery (rest.dropWhile fun char => char ∉ ['/', '?', '#']) with
        | none => none
        | some (path, query) =>
            some { scheme := some scheme.text, authority := String.ofList authority, path, query }

section Parser

variable {authority path : String} {query : Option String}

theorem readScheme_text (scheme : Scheme) (rest : List Char) :
    readScheme ((scheme.text ++ "://").toList ++ rest) = some (scheme, rest) := by
  cases scheme with
  | http => rfl
  | https => rfl

theorem readPathAndQuery_text (pathChars : ∀ char ∈ path.toList, isPathChar char)
    (queryChars : ∀ text ∈ query, ∀ char ∈ text.toList, isQueryChar char) :
    readPathAndQuery (path ++ queryText query).toList = some (path, query) := by
  have absent : '?' ∉ path.toList := by
    intro member
    exact absurd (pathChars _ member) (by decide)
  have pathAll : path.toList.all isPathChar := List.all_eq_true.mpr pathChars
  cases query with
  | none => simp [queryText, readPathAndQuery, splitOnce_eq_none absent, pathAll]
  | some text =>
      have queryAll : text.toList.all isQueryChar := List.all_eq_true.mpr (queryChars text rfl)
      have whole : (path ++ queryText (some text)).toList = path.toList ++ '?' :: text.toList := by
        simp [queryText]
      rw [whole, readPathAndQuery, splitOnce_append absent]
      simp [pathAll, queryAll]

/-- The authority ends where the path begins. -/
theorem readUri_text (scheme : Scheme)
    (undelimited : ∀ char ∈ authority.toList, char ∉ ['/', '?', '#'])
    (slashed : path.toList.head? = some '/') :
    readUri (scheme.text ++ "://" ++ authority ++ path ++ queryText query) =
      if authority.toList = [] ∨ 1 < authority.toList.count ':' ∨
          ¬ authority.toList.all (fun char => isNameChar char ∨ char = ':') then
        none
      else
        match readPathAndQuery (path ++ queryText query).toList with
        | none => none
        | some (path, query) => some { scheme := some scheme.text, authority, path, query } := by
  have whole : (scheme.text ++ "://" ++ authority ++ path ++ queryText query).toList =
      (scheme.text ++ "://").toList ++ (authority.toList ++ (path ++ queryText query).toList) := by
    simp
  obtain ⟨more, rest⟩ : ∃ more, (path ++ queryText query).toList = '/' :: more := by
    obtain ⟨tail, here⟩ := List.head?_eq_some_iff.mp slashed
    exact ⟨tail ++ (queryText query).toList, by simp [here]⟩
  have clean : ∀ char ∈ authority.toList, decide (char ∉ ['/', '?', '#']) = true :=
    fun char member => decide_eq_true (undelimited char member)
  rw [readUri, whole, readScheme_text]
  simp only [rest, List.takeWhile_append_of_pos clean, List.dropWhile_append_of_pos clean]
  simp

theorem parsesUris_readUri :
    ParsesUris readUri (fun char => isPathChar char) (fun char => isQueryChar char) where
  slash := by decide
  parses scheme host path query filled chars slashed pathChars queryChars := by
    have plain : ∀ char ∈ host.toList, char ∉ ['/', '?', '#'] := by
      intro char member delimiter
      have others : ['/', '?', '#'].all fun other => !isNameChar other := by decide
      have other := List.all_eq_true.mp others char delimiter
      simp [chars char member] at other
    have nonempty : host.toList ≠ [] := fun empty => filled (String.toList_eq_nil_iff.mp empty)
    have uncoloned : host.toList.count ':' = 0 := by
      apply List.count_eq_zero.mpr
      intro member
      exact absurd (chars _ member) (by decide)
    have named : host.toList.all (fun char => isNameChar char ∨ char = ':') := by
      apply List.all_eq_true.mpr
      intro char member
      exact decide_eq_true (.inl (chars char member))
    rw [readUri_text scheme plain slashed, readPathAndQuery_text pathChars queryChars, if_neg]
    rintro (empty | many | odd)
    · exact nonempty empty
    · omega
    · exact odd named
  rejects scheme authority path query undelimited colons slashed := by
    have plain : ∀ char ∈ authority.toList, char ∉ ['/', '?', '#'] := by
      intro char member delimiter
      exact undelimited char member (List.mem_append_left ['@', '[', ']'] delimiter)
    rw [readUri_text scheme plain slashed, if_pos (.inr (.inl colons))]

end Parser

theorem usable_credentials :
    parsePath ⟨none, none, "/user@example.com/a", some "q=1"⟩ =
        some (⟨none, none⟩, ⟨"https", "example.com", "/a", "q=1"⟩) ∧
      (⟨"https", "example.com", "/a", "q=1"⟩ : Target).Usable readUri := by
  have accepts : parsePath ⟨none, none, "/user@example.com/a", some "q=1"⟩ =
      some (⟨none, none⟩, ⟨"https", "example.com", "/a", "q=1"⟩) := by decide
  have valid : (⟨none, none, "/user@example.com/a", some "q=1"⟩ : Uri).Valid
      (fun char => isPathChar char) (fun char => isQueryChar char) :=
    { path := List.all_eq_true.mp (by decide)
      query := by
        rintro _ ⟨⟩
        exact List.all_eq_true.mp (by decide) }
  exact ⟨accepts, (usable_iff parsesUris_readUri valid accepts).1.mpr (by decide)⟩

/-- `/::1` is accepted, and no URI is made of its target. -/
theorem unusable_ipv6 :
    parsePath ⟨none, none, "/::1", none⟩ = some (⟨none, none⟩, ⟨"https", "::1", "/", ""⟩) ∧
      (⟨"https", "::1", "/", ""⟩ : Target).uri readUri = .error .missingTarget ∧
      ¬ (⟨"https", "::1", "/", ""⟩ : Target).Usable readUri := by
  have failed : (⟨"https", "::1", "/", ""⟩ : Target).uri readUri = .error .missingTarget := by
    decide
  refine ⟨by decide, failed, fun usable => ?_⟩
  have made := usable.1
  rw [failed] at made
  cases made

end Unroxy.Proxy
