import Unroxy.Lib.IpReader
import Unroxy.Lib.Text
import Unroxy.Proxy.Target

/-!
Owns `Protocol::parse` of `proxy/pool.rs`, and `Route`, `parse_path` and
`is_valid_domain` of `proxy/server.rs`: how a path such as
`/ssh/us/https://example.com/a` is read.

`RewritePath` is such a path by its parts, in every spelling they have. Texts are
lists of characters, lengths are those of UTF-8.

Does not own the URI that is made of the target.
-/

namespace Unroxy.Proxy

open Unroxy.Lib.IpReader (parseIpAddr parseIpAddr_eq_some parseIpv6)
open Unroxy.Lib.Text

def Protocol.asStr : Protocol → String
  | .ssh => "ssh"
  | .vpn => "vpn"

def Protocol.parse (value : String) : Option Protocol :=
  if eqIgnoreAsciiCase value "ssh" then some .ssh
  else if eqIgnoreAsciiCase value "vpn" then some .vpn
  else none

structure Route where
  region : Option String
  protocol : Option Protocol
deriving DecidableEq, Repr

def isValidDomain (domain : List Char) : Bool :=
  if domain = [] ∨ utf8Len domain > 253 then false
  else if (parseIpAddr domain).isSome then true
  else if '.' ∉ domain then false
  else
    (domain.splitOn '.').all fun part =>
      part ≠ [] ∧ utf8Len part ≤ 63 ∧ part.head? ≠ some '-' ∧ part.getLast? ≠ some '-' ∧
        part.all fun char => char.isAlphanum ∨ char = '-'

/-- The loop over the segments that may name a protocol and a region. -/
def readRoute : Nat → Route → List Char → Route × List Char
  | 0, route, rest => (route, rest)
  | turns + 1, route, rest =>
      match splitOnce '/' rest with
      | none => (route, rest)
      | some (head, tail) =>
          if head = [] ∨ '.' ∈ head ∨ ':' ∈ head then (route, rest)
          else
            match if route.protocol.isNone then Protocol.parse (String.ofList head) else none with
            | some parsed => readRoute turns { route with protocol := some parsed } tail
            | none =>
                if route.region.isNone then
                  readRoute turns { route with region := some (String.ofList (upper head)) } tail
                else (route, rest)

/-- The scheme, and what comes after its tag. -/
def splitScheme (rest : List Char) : String × List Char :=
  if "https://".toList.isPrefixOf (lower rest) then ("https", rest.drop "https://".length)
  else if "http://".toList.isPrefixOf (lower rest) then ("http", rest.drop "http://".length)
  else if "https:".toList.isPrefixOf (lower rest) then ("https", rest.drop "https:".length)
  else if "http:".toList.isPrefixOf (lower rest) then ("http", rest.drop "http:".length)
  else ("https", rest)

def trimSlashes (text : List Char) : List Char := text.dropWhile fun char => char = '/'

/-- The host with what stands before it, and the path. -/
def splitHost (rest : List Char) : List Char × List Char :=
  if '/' ∈ rest then (rest.takeWhile fun char => char ≠ '/', rest.dropWhile fun char => char ≠ '/')
  else (rest, ['/'])

def parsePath (uri : Uri) : Option (Route × Target) :=
  let rest := trimSlashes uri.path.toList
  if rest = [] then none
  else
    let (route, rest) := readRoute 2 { region := none, protocol := none } rest
    let (scheme, rest) := splitScheme rest
    let rest := trimSlashes rest
    if rest = [] then none
    else
      let (authority, path) := splitHost rest
      let domain := lastPart '@' authority
      if !isValidDomain domain then none
      else
        some (route,
          { scheme
            host := String.ofList domain
            path := String.ofList path
            query := uri.query.getD "" })

example : parsePath ⟨none, none, "/ssh/ca/example.com/a", some "q=1"⟩ =
    some (⟨some "CA", some .ssh⟩, ⟨"https", "example.com", "/a", "q=1"⟩) := by
  decide

example : parsePath ⟨none, none, "/exa%20mple.com/x", none⟩ = none := by
  decide

/-! ### Domains -/

section Domains

variable {domain : List Char}

/-- A domain that is accepted has letters, digits, dots and hyphens, and a dot, unless
it is an IPv6 address. -/
theorem isValidDomain_plain (valid : isValidDomain domain) (noIpv6 : parseIpv6 domain = none) :
    (∀ char ∈ domain, char.isAlphanum ∨ char ∈ ['.', '-']) ∧ '.' ∈ domain := by
  unfold isValidDomain at valid
  split at valid
  next => cases valid
  next =>
    split at valid
    next address =>
      obtain ⟨found, parsed⟩ := Option.isSome_iff_exists.mp address
      obtain ⟨plain, dotted⟩ := parseIpAddr_eq_some parsed noIpv6
      refine ⟨fun char member => (plain char member).imp_right ?_, dotted⟩
      exact fun dot => List.mem_singleton.mp dot ▸ List.mem_cons_self
    next =>
      split at valid
      next => cases valid
      next dotted =>
        refine ⟨?_, Decidable.not_not.mp dotted⟩
        intro char member
        by_cases dot : char = '.'
        · exact .inr (dot ▸ List.mem_cons_self)
        obtain ⟨part, isPart, inside⟩ := mem_splitOn member dot
        have checked := List.all_eq_true.mp valid part isPart
        have chars := (of_decide_eq_true checked).2.2.2.2
        have plain : char.isAlphanum ∨ char = '-' :=
          of_decide_eq_true (List.all_eq_true.mp chars char inside)
        rcases plain with letter | rfl
        · exact .inl letter
        · exact .inr (by decide)

/-- The delimiters of a URI are not in such a domain. -/
theorem notMem_of_plain {delimiter : Char}
    (plain : ∀ char ∈ domain, char.isAlphanum ∨ char ∈ ['.', '-'])
    (delimits : ¬ (delimiter.isAlphanum ∨ delimiter ∈ ['.', '-'])) :
    delimiter ∉ domain :=
  fun member => delimits (plain delimiter member)

end Domains

/-! ### Rewrite paths by their parts -/

/-- The name of a protocol, in any case. -/
structure ProtocolWord where
  protocol : Protocol
  text : List Char
  spelled : lower text = protocol.asStr.toList

structure RegionName where
  text : List Char
  filled : text ≠ []
  plain : '/' ∉ text ∧ '.' ∉ text ∧ ':' ∉ text

/-- The region is not named like a protocol. -/
def RegionName.Foreign (self : RegionName) : Prop :=
  ∀ protocol : Protocol, lower self.text ≠ protocol.asStr.toList

/-- The segments before the target, in either order. A region that is named like a
protocol has to come after one. -/
inductive RouteForm where
  | bare
  | protocol (word : ProtocolWord)
  | region (name : RegionName) (foreign : name.Foreign)
  | protocolRegion (word : ProtocolWord) (name : RegionName)
  | regionProtocol (name : RegionName) (foreign : name.Foreign) (word : ProtocolWord)

namespace RouteForm

def text : RouteForm → List Char
  | .bare => []
  | .protocol word => word.text ++ ['/']
  | .region name _ => name.text ++ ['/']
  | .protocolRegion word name => word.text ++ '/' :: name.text ++ ['/']
  | .regionProtocol name _ word => name.text ++ '/' :: word.text ++ ['/']

def route : RouteForm → Route
  | .bare => ⟨none, none⟩
  | .protocol word => ⟨none, some word.protocol⟩
  | .region name _ => ⟨some (String.ofList (upper name.text)), none⟩
  | .protocolRegion word name | .regionProtocol name _ word =>
      ⟨some (String.ofList (upper name.text)), some word.protocol⟩

end RouteForm

/-- `http` or `https` in any case, a colon and up to two slashes. -/
structure SchemeTag where
  scheme : Scheme
  slashes : Nat
  few : slashes ≤ 2
  text : List Char
  spelled : lower text = scheme.text.toList ++ ':' :: List.replicate slashes '/'

structure RewritePath where
  route : RouteForm
  tag : Option SchemeTag
  user : Option (List Char)
  user_plain : ∀ name ∈ user, '/' ∉ name
  user_untagged : tag = none → ∀ name ∈ user,
    ¬ "http:".toList <+: lower name ∧ ¬ "https:".toList <+: lower name
  domain : List Char
  valid : isValidDomain domain
  no_ipv6 : parseIpv6 domain = none
  path : List Char
  rooted : path = [] ∨ ∃ rest, path = '/' :: rest

namespace RewritePath

/-- The host with the userinfo before it. -/
def authority (self : RewritePath) : List Char :=
  match self.user with
  | none => self.domain
  | some name => name ++ '@' :: self.domain

def tagText (self : RewritePath) : List Char :=
  match self.tag with
  | none => []
  | some tag => tag.text

def text (self : RewritePath) : List Char :=
  '/' :: (self.route.text ++ (self.tagText ++ (self.authority ++ self.path)))

def target (self : RewritePath) (query : Option String) : Target where
  scheme :=
    match self.tag with
    | none => "https"
    | some tag => tag.scheme.text
  host := String.ofList self.domain
  path := if self.path = [] then "/" else String.ofList self.path
  query := query.getD ""

end RewritePath

/-! ### The segments before the target -/

section Segments

variable {route : Route} {turns : Nat} {head tail front back : List Char}

theorem ProtocolWord.parse (word : ProtocolWord) :
    Protocol.parse (String.ofList word.text) = some word.protocol := by
  have same : asciiLower (String.ofList word.text) = word.protocol.asStr.toList := by
    rw [asciiLower, String.toList_ofList]
    exact word.spelled
  unfold Protocol.parse eqIgnoreAsciiCase
  rw [same]
  cases word.protocol with
  | ssh => decide
  | vpn => decide

/-- A segment that the loop does not stop at. -/
structure Named (segment : List Char) : Prop where
  filled : segment ≠ []
  unslashed : '/' ∉ segment
  undotted : '.' ∉ segment
  uncoloned : ':' ∉ segment

theorem ProtocolWord.named (word : ProtocolWord) : Named word.text := by
  have absent : '/' ∉ lower word.text ∧ '.' ∉ lower word.text ∧ ':' ∉ lower word.text ∧
      lower word.text ≠ [] := by
    rw [word.spelled]
    cases word.protocol with
    | ssh => decide
    | vpn => decide
  obtain ⟨unslashed, undotted, uncoloned, filled⟩ := absent
  exact
    { filled := by
        intro empty
        apply filled
        rw [empty]
        rfl
      unslashed := notMem_of_lower (by decide) unslashed
      undotted := notMem_of_lower (by decide) undotted
      uncoloned := notMem_of_lower (by decide) uncoloned }

theorem RegionName.named (name : RegionName) : Named name.text where
  filled := name.filled
  unslashed := name.plain.1
  undotted := name.plain.2.1
  uncoloned := name.plain.2.2

theorem RegionName.Foreign.parse {name : RegionName} (foreign : name.Foreign) :
    Protocol.parse (String.ofList name.text) = none := by
  have same : asciiLower (String.ofList name.text) = lower name.text := by
    rw [asciiLower, String.toList_ofList]
    rfl
  have noSsh : lower name.text ≠ asciiLower "ssh" := foreign .ssh
  have noVpn : lower name.text ≠ asciiLower "vpn" := foreign .vpn
  simp [Protocol.parse, eqIgnoreAsciiCase, same, noSsh, noVpn]

/-- A route that is not empty begins with one of the names. -/
theorem RouteForm.text_cases (form : RouteForm) :
    form.text = [] ∨ ∃ segment rest, Named segment ∧ form.text = segment ++ '/' :: rest := by
  cases form with
  | bare => exact .inl rfl
  | protocol word => exact .inr ⟨word.text, [], word.named, rfl⟩
  | region name _ => exact .inr ⟨name.text, [], name.named, rfl⟩
  | protocolRegion word name =>
      exact .inr ⟨word.text, name.text ++ ['/'], word.named, by simp [RouteForm.text]⟩
  | regionProtocol name _ word =>
      exact .inr ⟨name.text, word.text ++ ['/'], name.named, by simp [RouteForm.text]⟩

/-- The loop stops at a segment with a dot or a colon, wherever that ends. -/
theorem readRoute_stops (unslashed : '/' ∉ front) (marked : '.' ∈ front ∨ ':' ∈ front) :
    readRoute turns route (front ++ back) = (route, front ++ back) := by
  cases turns with
  | zero => rfl
  | succ turns =>
      cases cut : splitOnce '/' (front ++ back) with
      | none => simp [readRoute, cut]
      | some parts =>
          have within := (splitOnce_starts unslashed cut).subset
          have stops : parts.1 = [] ∨ '.' ∈ parts.1 ∨ ':' ∈ parts.1 :=
            .inr (marked.imp (fun dot => within dot) fun colon => within colon)
          simp only [readRoute, cut, if_pos stops]

theorem readRoute_named (named : Named head) :
    readRoute (turns + 1) route (head ++ '/' :: tail) =
      match if route.protocol.isNone then Protocol.parse (String.ofList head) else none with
      | some parsed => readRoute turns { route with protocol := some parsed } tail
      | none =>
          if route.region.isNone then
            readRoute turns { route with region := some (String.ofList (upper head)) } tail
          else (route, head ++ '/' :: tail) := by
  have goesOn : ¬ (head = [] ∨ '.' ∈ head ∨ ':' ∈ head) := by
    simp [named.filled, named.undotted, named.uncoloned]
  simp only [readRoute, splitOnce_append named.unslashed, if_neg goesOn]

theorem readRoute_protocol (word : ProtocolWord) (unset : route.protocol = none) :
    readRoute (turns + 1) route (word.text ++ '/' :: tail) =
      readRoute turns { route with protocol := some word.protocol } tail := by
  simp [readRoute_named word.named, unset, word.parse]

theorem readRoute_region (name : RegionName) (unset : route.region = none)
    (other : route.protocol ≠ none ∨ name.Foreign) :
    readRoute (turns + 1) route (name.text ++ '/' :: tail) =
      readRoute turns { route with region := some (String.ofList (upper name.text)) } tail := by
  have noProtocol : (if route.protocol.isNone then Protocol.parse (String.ofList name.text)
      else none) = none := by
    rcases other with known | foreign
    · simp [known]
    · simp [foreign.parse]
  simp only [readRoute_named name.named, noProtocol, unset, Option.isNone_none, if_true]

/-- The loop reads the segments that are there, whatever comes after them. -/
theorem readRoute_text (form : RouteForm) (unslashed : '/' ∉ front)
    (marked : '.' ∈ front ∨ ':' ∈ front) :
    readRoute 2 { region := none, protocol := none } (form.text ++ (front ++ back)) =
      (form.route, front ++ back) := by
  have stops : ∀ turns route, readRoute turns route (front ++ back) = (route, front ++ back) :=
    fun _ _ => readRoute_stops unslashed marked
  cases form with
  | bare => exact stops _ _
  | protocol word =>
      rw [RouteForm.text, List.append_assoc, List.singleton_append, readRoute_protocol word rfl]
      exact stops _ _
  | region name foreign =>
      rw [RouteForm.text, List.append_assoc, List.singleton_append,
        readRoute_region name rfl (.inr foreign)]
      exact stops _ _
  | protocolRegion word name =>
      have whole : (RouteForm.protocolRegion word name).text ++ (front ++ back) =
          word.text ++ '/' :: (name.text ++ '/' :: (front ++ back)) := by
        simp [RouteForm.text]
      rw [whole, readRoute_protocol word rfl,
        readRoute_region name rfl (.inl (Option.some_ne_none _))]
      exact stops _ _
  | regionProtocol name foreign word =>
      have whole : (RouteForm.regionProtocol name foreign word).text ++ (front ++ back) =
          name.text ++ '/' :: (word.text ++ '/' :: (front ++ back)) := by
        simp [RouteForm.text]
      rw [whole, readRoute_region name rfl (.inr foreign), readRoute_protocol word rfl]
      exact stops _ _

end Segments

/-! ### The tag and the host -/

section Tags

variable {front back : List Char}

theorem SchemeTag.shape (tag : SchemeTag) :
    ∃ word, tag.text = word ++ ':' :: List.replicate tag.slashes '/' ∧
      lower word = tag.scheme.text.toList := by
  obtain ⟨word, slashes, whole, spelled, marks⟩ := List.map_eq_append_iff.mp tag.spelled
  have unlettered : ∀ char ∈ ':' :: List.replicate tag.slashes '/', char.isLower = false := by
    intro char member
    rcases List.mem_cons.mp member with rfl | slash
    · rfl
    · rw [List.eq_of_mem_replicate slash]
      rfl
  exact ⟨word, by rw [whole, eq_of_lower_eq marks unlettered], spelled⟩

theorem trimSlashes_append (slashes : ∀ char ∈ front, char = '/') :
    trimSlashes (front ++ back) = trimSlashes back := by
  have dropped : ∀ char ∈ front, decide (char = '/') = true :=
    fun char member => decide_eq_true (slashes char member)
  exact List.dropWhile_append_of_pos dropped

theorem trimSlashes_unslashed (filled : front ≠ []) (unslashed : '/' ∉ front) :
    trimSlashes (front ++ back) = front ++ back := by
  obtain ⟨first, more, rfl⟩ := List.exists_cons_of_ne_nil filled
  rw [List.mem_cons, not_or] at unslashed
  exact List.dropWhile_cons_of_neg (by simpa using Ne.symm unslashed.1)

/-- Two slashes after the colon are cut off with the tag, or trimmed after it. -/
theorem trimSlashes_drop_two
    (two : "//".toList.isPrefixOf (lower back)) : trimSlashes (back.drop 2) = trimSlashes back := by
  obtain ⟨more, whole⟩ := List.isPrefixOf_iff_prefix.mp two
  obtain ⟨slashes, rest, rfl, marks, -⟩ := List.map_eq_append_iff.mp whole.symm
  have unlettered : ∀ char ∈ ['/', '/'], char.isLower = false := by simp
  rw [eq_of_lower_eq marks unlettered]
  rfl

theorem splitScheme_spelled {word : List Char} (scheme : Scheme)
    (spelled : lower word = scheme.text.toList) :
    (splitScheme (word ++ ':' :: back)).1 = scheme.text ∧
      trimSlashes (splitScheme (word ++ ':' :: back)).2 = trimSlashes back := by
  have lowered : lower (word ++ ':' :: back) = scheme.text.toList ++ ':' :: lower back := by
    rw [← spelled]
    simp [lower]
  have length : word.length = scheme.text.toList.length := by
    rw [← spelled, lower, List.length_map]
  have after : ∀ count,
      (word ++ ':' :: back).drop (word.length + (count + 1)) = back.drop count := by simp
  rw [length] at after
  unfold splitScheme
  rw [lowered]
  by_cases two : "//".toList.isPrefixOf (lower back)
  · rw [← trimSlashes_drop_two two, ← after 2]
    cases scheme with
    | http =>
        rw [if_neg (by exact Bool.false_ne_true), if_pos (by exact two)]
        exact ⟨rfl, rfl⟩
    | https =>
        rw [if_pos (by exact two)]
        exact ⟨rfl, rfl⟩
  · have cut := congrArg trimSlashes (after 0)
    cases scheme with
    | http =>
        rw [if_neg (by exact Bool.false_ne_true), if_neg (by exact two),
          if_neg (by exact Bool.false_ne_true), if_pos (by exact rfl)]
        exact ⟨rfl, cut⟩
    | https =>
        rw [if_neg (by exact two), if_neg (by exact Bool.false_ne_true), if_pos (by exact rfl)]
        exact ⟨rfl, cut⟩

theorem splitScheme_tagged (tag : SchemeTag) (filled : front ≠ []) (unslashed : '/' ∉ front) :
    (splitScheme (tag.text ++ (front ++ back))).1 = tag.scheme.text ∧
      trimSlashes (splitScheme (tag.text ++ (front ++ back))).2 = front ++ back := by
  obtain ⟨word, whole, spelled⟩ := tag.shape
  have slashes : ∀ char ∈ List.replicate tag.slashes '/', char = '/' :=
    fun _ => List.eq_of_mem_replicate
  have read := @splitScheme_spelled (List.replicate tag.slashes '/' ++ (front ++ back)) word
    tag.scheme spelled
  rw [trimSlashes_append slashes, trimSlashes_unslashed filled unslashed] at read
  rw [whole, List.append_assoc]
  exact read

/-- What begins like a text without the mark does so before the mark. -/
theorem prefix_of_unmarked {start : List Char} {mark : Char}
    (begins : start <+: front ++ mark :: back) (unmarked : mark ∉ start) : start <+: front := by
  rcases List.prefix_or_prefix_of_prefix begins ⟨mark :: back, rfl⟩ with within | beyond
  · exact within
  · obtain ⟨rest, rfl⟩ := beyond
    cases rest with
    | nil => simp
    | cons char rest =>
        have marked := List.prefix_append_right_inj front |>.mp begins
        obtain ⟨rfl, -⟩ := List.cons_prefix_cons.mp marked
        simp at unmarked

/-- Without a tag the scheme is `https` and nothing is cut off. -/
theorem splitScheme_untagged {rest : List Char} (noHttp : ¬ "http:".toList <+: lower rest)
    (noHttps : ¬ "https:".toList <+: lower rest) : splitScheme rest = ("https", rest) := by
  have noHttpSlashes : ¬ "http://".toList <+: lower rest :=
    fun begins => noHttp (List.IsPrefix.trans (by decide) begins)
  have noHttpsSlashes : ¬ "https://".toList <+: lower rest :=
    fun begins => noHttps (List.IsPrefix.trans (by decide) begins)
  simp only [splitScheme, List.isPrefixOf_iff_prefix, noHttp, noHttps, noHttpSlashes,
    noHttpsSlashes, if_false]

end Tags

namespace RewritePath

variable (form : RewritePath)

theorem domain_plain : ∀ char ∈ form.domain, char.isAlphanum ∨ char ∈ ['.', '-'] :=
  (isValidDomain_plain form.valid form.no_ipv6).1

theorem dot_mem_authority : '.' ∈ form.authority := by
  have dotted := (isValidDomain_plain form.valid form.no_ipv6).2
  unfold authority
  split
  · exact dotted
  · exact List.mem_append_right _ (List.mem_cons_of_mem _ dotted)

theorem slash_notMem_authority : '/' ∉ form.authority := by
  have absent : '/' ∉ form.domain := notMem_of_plain form.domain_plain (by decide)
  unfold authority
  split
  next => exact absent
  next name here => simp [form.user_plain name here, absent]

theorem authority_filled : form.authority ≠ [] := by
  intro empty
  have dotted := form.dot_mem_authority
  rw [empty] at dotted
  cases dotted

theorem lastPart_authority : lastPart '@' form.authority = form.domain := by
  have absent : '@' ∉ form.domain := notMem_of_plain form.domain_plain (by decide)
  unfold authority
  split
  · exact lastPart_eq_self absent
  · exact lastPart_append absent

theorem splitHost_authority :
    splitHost (form.authority ++ form.path) =
      (form.authority, if form.path = [] then ['/'] else form.path) := by
  have absent := form.slash_notMem_authority
  have clean : ∀ char ∈ form.authority, decide (char ≠ '/') = true := by
    intro char member
    apply decide_eq_true
    rintro rfl
    exact absent member
  rcases form.rooted with empty | ⟨rest, rooted⟩
  · rw [empty, List.append_nil, splitHost, if_neg absent, if_pos rfl]
  · rw [rooted, splitHost, if_pos (by simp), if_neg (List.cons_ne_nil _ _),
      List.takeWhile_append_of_pos clean, List.dropWhile_append_of_pos clean]
    simp

/-- An untagged target begins with a scheme only if the userinfo does. -/
theorem untagged_begins {start : List Char} (coloned : ':' ∈ start) (unslashed : '/' ∉ start)
    (unsigned : '@' ∉ start) (begins : start <+: lower (form.authority ++ form.path)) :
    ∃ name ∈ form.user, start <+: lower name := by
  have inAuthority : start <+: lower form.authority := by
    rcases form.rooted with empty | ⟨rest, rooted⟩
    · rwa [empty, List.append_nil] at begins
    · rw [rooted, lower, List.map_append, List.map_cons] at begins
      exact prefix_of_unmarked begins unslashed
  unfold authority at inAuthority
  split at inAuthority
  next =>
    obtain ⟨char, inside, same⟩ := List.mem_map.mp (inAuthority.subset coloned)
    have plain : ':' ∉ form.domain := notMem_of_plain form.domain_plain (by decide)
    exact absurd (eq_of_toLower_eq same rfl ▸ inside) plain
  next name here =>
    rw [lower, List.map_append, List.map_cons] at inAuthority
    exact ⟨name, here, prefix_of_unmarked inAuthority unsigned⟩

theorem splitScheme_target :
    (splitScheme (form.tagText ++ (form.authority ++ form.path))).1 = (form.target none).scheme ∧
      trimSlashes (splitScheme (form.tagText ++ (form.authority ++ form.path))).2 =
        form.authority ++ form.path := by
  unfold tagText target
  cases tagged : form.tag with
  | some tag => exact splitScheme_tagged tag form.authority_filled form.slash_notMem_authority
  | none =>
      have noHttp : ¬ "http:".toList <+: lower (form.authority ++ form.path) := by
        intro begins
        obtain ⟨name, here, inUser⟩ :=
          form.untagged_begins (by decide) (by decide) (by decide) begins
        exact (form.user_untagged tagged name here).1 inUser
      have noHttps : ¬ "https:".toList <+: lower (form.authority ++ form.path) := by
        intro begins
        obtain ⟨name, here, inUser⟩ :=
          form.untagged_begins (by decide) (by decide) (by decide) begins
        exact (form.user_untagged tagged name here).2 inUser
      change (splitScheme (form.authority ++ form.path)).1 = "https" ∧
        trimSlashes (splitScheme (form.authority ++ form.path)).2 = form.authority ++ form.path
      rw [splitScheme_untagged noHttp noHttps]
      exact ⟨rfl, trimSlashes_unslashed form.authority_filled form.slash_notMem_authority⟩

/-- What comes after the route begins with the tag, or with the authority if there is
none: a part without a slash that has a colon or a dot. -/
theorem target_starts :
    ∃ front back, form.tagText ++ (form.authority ++ form.path) = front ++ back ∧
      '/' ∉ front ∧ ('.' ∈ front ∨ ':' ∈ front) := by
  unfold tagText
  cases form.tag with
  | none =>
      exact ⟨form.authority, form.path, rfl, form.slash_notMem_authority,
        .inl form.dot_mem_authority⟩
  | some tag =>
      obtain ⟨word, whole, spelled⟩ := tag.shape
      have absent : '/' ∉ lower word := by
        rw [spelled]
        cases tag.scheme with
        | http => decide
        | https => decide
      refine ⟨word ++ [':'], List.replicate tag.slashes '/' ++ (form.authority ++ form.path),
        ?_, ?_, ?_⟩
      · simp [whole]
      · simp [notMem_of_lower (by decide) absent]
      · simp

/-- The slash that the path begins with is the only one that is trimmed. -/
theorem trimSlashes_text :
    trimSlashes form.text = form.route.text ++ (form.tagText ++ (form.authority ++ form.path)) := by
  have slash : ∀ char ∈ ['/'], char = '/' := fun _ => List.mem_singleton.mp
  obtain ⟨front, back, whole, unslashed, marked⟩ := form.target_starts
  have filled : front ≠ [] := by
    rintro rfl
    simp at marked
  have trimmed : trimSlashes form.text =
      trimSlashes (form.route.text ++ (form.tagText ++ (form.authority ++ form.path))) :=
    @trimSlashes_append ['/'] _ slash
  rw [trimmed, whole]
  rcases form.route.text_cases with bare | ⟨segment, rest, named, text⟩
  · rw [bare, List.nil_append]
    exact trimSlashes_unslashed filled unslashed
  · rw [text, List.append_assoc]
    exact trimSlashes_unslashed named.filled named.unslashed

theorem readRoute_target :
    readRoute 2 { region := none, protocol := none }
        (form.route.text ++ (form.tagText ++ (form.authority ++ form.path))) =
      (form.route.route, form.tagText ++ (form.authority ++ form.path)) := by
  obtain ⟨front, back, whole, unslashed, marked⟩ := form.target_starts
  rw [whole]
  exact readRoute_text form.route unslashed marked

/-- A rewrite path is read as the parts that it was put together from. -/
theorem parsePath_text (scheme authority query : Option String) :
    parsePath { scheme, authority, path := String.ofList form.text, query } =
      some (form.route.route, form.target query) := by
  have filled : form.route.text ++ (form.tagText ++ (form.authority ++ form.path)) ≠ [] := by
    simp [form.authority_filled]
  have filledHost : form.authority ++ form.path ≠ [] := by simp [form.authority_filled]
  obtain ⟨sameScheme, rest⟩ := form.splitScheme_target
  have valid : (!isValidDomain form.domain) ≠ true := by simp [form.valid]
  have samePath : String.ofList (if form.path = [] then ['/'] else form.path) =
      (form.target query).path := by
    rw [apply_ite String.ofList]
    rfl
  simp only [parsePath, String.toList_ofList, form.trimSlashes_text, if_neg filled,
    form.readRoute_target, rest, if_neg filledHost, form.splitHost_authority,
    form.lastPart_authority, if_neg valid, sameScheme, samePath]
  rfl

end RewritePath

/-! ### What is accepted -/

section Accepted

variable {uri : Uri} {route : Route} {target : Target}

theorem readRoute_suffix (turns : Nat) (route : Route) (rest : List Char) :
    (readRoute turns route rest).2 <:+ rest := by
  induction turns generalizing route rest with
  | zero => exact List.suffix_refl rest
  | succ turns inductionHypothesis =>
      unfold readRoute
      split
      next => exact List.suffix_refl rest
      next head tail cut =>
        have later : tail <:+ rest := by
          rw [(splitOnce_eq_some cut).1]
          exact ⟨head ++ ['/'], by simp⟩
        split
        next => exact List.suffix_refl rest
        next =>
          split
          next => exact (inductionHypothesis _ tail).trans later
          next =>
            split
            next => exact (inductionHypothesis _ tail).trans later
            next => exact List.suffix_refl rest

theorem splitScheme_cases (rest : List Char) :
    (∃ scheme : Scheme, (splitScheme rest).1 = scheme.text) ∧ (splitScheme rest).2 <:+ rest := by
  unfold splitScheme
  split
  next => exact ⟨⟨.https, rfl⟩, List.drop_suffix _ _⟩
  next =>
    split
    next => exact ⟨⟨.http, rfl⟩, List.drop_suffix _ _⟩
    next =>
      split
      next => exact ⟨⟨.https, rfl⟩, List.drop_suffix _ _⟩
      next =>
        split
        next => exact ⟨⟨.http, rfl⟩, List.drop_suffix _ _⟩
        next => exact ⟨⟨.https, rfl⟩, List.suffix_refl rest⟩

/-- The path begins with a slash, and is a part of what was split unless it is only that. -/
theorem splitHost_path (rest : List Char) :
    ∃ more, (splitHost rest).2 = '/' :: more ∧ ∀ char ∈ more, char ∈ rest := by
  unfold splitHost
  split
  next slashed =>
    cases after : rest.dropWhile fun char => char ≠ '/' with
    | nil =>
        have plain := List.dropWhile_eq_nil_iff.mp after '/' slashed
        simp at plain
    | cons first more =>
        have slash := List.head?_dropWhile_not (fun char => decide (char ≠ '/')) rest
        have within : rest.dropWhile (fun char => decide (char ≠ '/')) ⊆ rest :=
          (List.dropWhile_suffix _).subset
        rw [after] at slash within
        refine ⟨more, ?_, fun char member => within (List.mem_cons_of_mem _ member)⟩
        simpa using slash
  next => exact ⟨[], rfl, fun _ absent => absurd absent List.not_mem_nil⟩

/-- What is known of the target of a path that is accepted. -/
structure Accepted (uri : Uri) (target : Target) : Prop where
  scheme : ∃ scheme : Scheme, target.scheme = scheme.text
  host : isValidDomain target.host.toList
  path : ∃ more, target.path.toList = '/' :: more ∧ ∀ char ∈ more, char ∈ uri.path.toList
  query : target.query = uri.query.getD ""

theorem trimSlashes_suffix (text : List Char) : trimSlashes text <:+ text :=
  List.dropWhile_suffix _

theorem parsePath_accepted (accepts : parsePath uri = some (route, target)) :
    Accepted uri target := by
  have routeRest := (readRoute_suffix 2 { region := none, protocol := none }
    (trimSlashes uri.path.toList)).trans (trimSlashes_suffix _)
  simp only [parsePath] at accepts
  split at accepts
  next => cases accepts
  next =>
    split at accepts
    next => cases accepts
    next =>
      split at accepts
      next => cases accepts
      next valid =>
        obtain ⟨-, rfl⟩ := Prod.mk.inj (Option.some.inj accepts)
        obtain ⟨isScheme, schemeRest⟩ := splitScheme_cases
          (readRoute 2 { region := none, protocol := none } (trimSlashes uri.path.toList)).2
        have within := ((trimSlashes_suffix _).trans (schemeRest.trans routeRest)).subset
        obtain ⟨more, slashed, inside⟩ := splitHost_path (trimSlashes (splitScheme
          (readRoute 2 { region := none, protocol := none } (trimSlashes uri.path.toList)).2).2)
        exact
          { scheme := isScheme
            host := by simpa using valid
            path := ⟨more, by rw [String.toList_ofList, slashed],
              fun char member => within (inside char member)⟩
            query := rfl }

end Accepted

end Unroxy.Proxy
