import Unroxy.Lib.IpReader
import Unroxy.Lib.Text
import Unroxy.Proxy.Target

/-!
Owns `split_authority` of `proxy/server.rs`: the host and the port that a CONNECT
request is tunnelled to.

`AuthorityForm` is an authority by its parts, the port of which may be there without
a digit.

Does not own who is asked for the tunnel.
-/

namespace Unroxy.Proxy

open Unroxy.Lib.Address
open Unroxy.Lib.IpReader (parseIpv6 parseIpv6_eq_some)
open Unroxy.Lib.Text

def isBracket (char : Char) : Bool := char = '[' ∨ char = ']'

/-- The host and the port, if there is a number after the last colon and no bracket
between them. -/
def givenPort (authority : List Char) : Option (List Char × Nat) :=
  match rsplitOnce ':' authority with
  | none => none
  | some (host, port) =>
      match parseUnsigned 65536 port with
      | none => none
      | some port => if ']' ∉ host ∨ host.getLast? = some ']' then some (host, port) else none

def splitAuthority (authority scheme : String) : String × UInt16 :=
  match givenPort authority.toList with
  | some (host, port) => (String.ofList (trimMatches isBracket host), UInt16.ofNat port)
  | none =>
      (String.ofList (trimMatches isBracket authority.toList), if scheme = "https" then 443 else 80)

example : splitAuthority "[::1]:1194" "https" = ("::1", 1194) := by
  decide

/-! ### Authorities by their parts -/

/-- A domain or an IPv4 address, or an IPv6 address that is put in brackets. -/
inductive HostForm where
  | named (name : List Char) (plain : ∀ char ∈ name, HostChar char)
  | ipv6 (address : List Char) (parsed : parseIpv6 address ≠ none)

namespace HostForm

def text : HostForm → List Char
  | .named name _ => name
  | .ipv6 address _ => '[' :: address ++ [']']

/-- The host without brackets. -/
def bare : HostForm → List Char
  | .named name _ => name
  | .ipv6 address _ => address

end HostForm

inductive PortForm where
  | absent
  | empty
  | given (port : Port)

namespace PortForm

def text : PortForm → List Char
  | .absent => []
  | .empty => [':']
  | .given port => ':' :: port.digits.toList

def number (scheme : Scheme) : PortForm → UInt16
  | .absent | .empty => scheme.defaultPort
  | .given port => UInt16.ofNat (decimal port.digits.toList)

end PortForm

structure AuthorityForm where
  user : Option (List Char)
  user_plain : ∀ name ∈ user, '@' ∉ name
  host : HostForm
  port : PortForm

namespace AuthorityForm

def userText (self : AuthorityForm) : List Char :=
  match self.user with
  | none => []
  | some name => name ++ ['@']

def text (self : AuthorityForm) : String :=
  String.ofList (self.userText ++ (self.host.text ++ self.port.text))

/-- The host without brackets and userinfo, and the port or that of the scheme. -/
def parts (self : AuthorityForm) (scheme : Scheme) : String × UInt16 :=
  (String.ofList self.host.bare, self.port.number scheme)

end AuthorityForm

/-! ### What is trimmed -/

section Trimmed

variable {name address text : List Char}

theorem isBracket_of_hostChar {char : Char} (plain : HostChar char) : isBracket char = false := by
  have absent := plain.2.2
  apply decide_eq_false
  rintro (rfl | rfl)
  · exact absent (by decide)
  · exact absent (by decide)

section Ipv6

variable (parsed : parseIpv6 address ≠ none)

include parsed

theorem ipv6_plain : ∀ char ∈ address, char.isAlphanum ∨ char ∈ ['.', ':'] := by
  obtain ⟨groups, here⟩ := Option.ne_none_iff_exists'.mp parsed
  exact (parseIpv6_eq_some here).1

theorem ipv6_filled : address ≠ [] := by
  obtain ⟨groups, here⟩ := Option.ne_none_iff_exists'.mp parsed
  have colons := (parseIpv6_eq_some here).2
  rintro rfl
  simp at colons

theorem ipv6_unbracketed : ∀ char ∈ address, isBracket char = false := by
  intro char member
  apply decide_eq_false
  have plain := ipv6_plain parsed char member
  rintro (rfl | rfl)
  · exact absurd plain (by decide)
  · exact absurd plain (by decide)

theorem trimMatches_ipv6 : trimMatches isBracket (HostForm.ipv6 address parsed).text = address := by
  rw [HostForm.text, List.cons_append, trimMatches_cons rfl,
    trimMatches_append (ipv6_filled parsed) (ipv6_unbracketed parsed) rfl]

/-- A colon after the brackets keeps the second one. -/
theorem trimMatches_ipv6_colon :
    trimMatches isBracket ((HostForm.ipv6 address parsed).text ++ [':']) =
      address ++ [']', ':'] := by
  obtain ⟨first, more, rfl⟩ := List.exists_cons_of_ne_nil (ipv6_filled parsed)
  have kept : ¬ isBracket first = true := by
    simp [ipv6_unbracketed parsed first List.mem_cons_self]
  have whole : (HostForm.ipv6 (first :: more) parsed).text ++ [':'] =
      '[' :: first :: (more ++ [']'] ++ [':']) := by simp [HostForm.text]
  rw [whole, trimMatches_cons rfl, trimMatches, List.dropWhile_cons_of_neg kept,
    ← List.cons_append, List.rdropWhile_concat_neg _ _ _ (by decide)]
  simp

end Ipv6

theorem trimMatches_host (host : HostForm) : trimMatches isBracket host.text = host.bare := by
  cases host with
  | named name plain =>
      exact trimMatches_eq_self fun char member => isBracket_of_hostChar (plain char member)
  | ipv6 address parsed => exact trimMatches_ipv6 parsed

end Trimmed

/-! ### What is split -/

section Split

variable {authority : List Char} {host digits : List Char} {port : Nat}

theorem givenPort_eq_some (given : givenPort authority = some (host, port)) :
    ∃ digits, authority = host ++ ':' :: digits ∧ parseUnsigned 65536 digits = some port := by
  unfold givenPort at given
  split at given
  next => cases given
  next front back cut =>
    split at given
    next => cases given
    next number parsed =>
      split at given
      next =>
        cases given
        exact ⟨back, rsplitOnce_eq_some cut, parsed⟩
      next => cases given

/-- No port is given after the last colon. -/
theorem givenPort_eq_none (uncoloned : ':' ∉ digits)
    (unparsed : parseUnsigned 65536 digits = none) :
    givenPort (host ++ ':' :: digits) = none := by
  simp only [givenPort, rsplitOnce_append uncoloned, unparsed]

theorem givenPort_digits (given : Port) (closed : ']' ∉ host ∨ host.getLast? = some ']') :
    givenPort (host ++ ':' :: given.digits.toList) =
      some (host, decimal given.digits.toList) := by
  have uncoloned : ':' ∉ given.digits.toList :=
    fun member => absurd (given.decimals ':' member) (by decide)
  have filled : given.digits.toList ≠ [] :=
    fun empty => given.filled (String.toList_eq_nil_iff.mp empty)
  have parsed : parseUnsigned 65536 given.digits.toList = some (decimal given.digits.toList) :=
    parseUnsigned_digits filled given.decimals given.small
  simp only [givenPort, rsplitOnce_append uncoloned, parsed, if_pos closed]

/-- A host alone is not taken for a host and a port, not even an IPv6 address. -/
theorem givenPort_host (host : HostForm) : givenPort host.text = none := by
  cases given : givenPort host.text with
  | none => rfl
  | some both =>
      obtain ⟨digits, split, parsed⟩ := givenPort_eq_some given
      cases host with
      | named name plain =>
          have member : ':' ∈ (HostForm.named name plain).text := by
            rw [split]
            simp
          exact absurd (plain ':' member) (by decide)
      | ipv6 address _ =>
          -- The last part ends with the bracket, which no number has.
          have last : (':' :: digits).getLast? = some ']' := by
            rw [← List.getLast?_append_cons, ← split]
            exact List.getLast?_concat
          have closed : ']' ∈ digits := by simpa using List.mem_of_getLast? last
          exact absurd (parseUnsigned_eq_some parsed ']' closed) (by decide)

/-- An at sign is never left out: no port has one, and only brackets are trimmed. -/
theorem at_mem_splitAuthority {authority : String} (scheme : String)
    (signed : '@' ∈ authority.toList) : '@' ∈ (splitAuthority authority scheme).1.toList := by
  have kept : ∀ text, '@' ∈ text → '@' ∈ (String.ofList (trimMatches isBracket text)).toList := by
    intro text member
    rw [String.toList_ofList]
    exact mem_trimMatches member rfl
  unfold splitAuthority
  split
  next host port given =>
    obtain ⟨digits, split, parsed⟩ := givenPort_eq_some given
    rw [split, List.mem_append, List.mem_cons] at signed
    rcases signed with inHost | colon | inPort
    · exact kept _ inHost
    · exact absurd colon (by decide)
    · exact absurd (parseUnsigned_eq_some parsed _ inPort) (by decide)
  next => exact kept _ signed

end Split

namespace AuthorityForm

variable (form : AuthorityForm) (scheme : Scheme)

theorem text_of_plain (plain : form.user = none) :
    form.text.toList = form.host.text ++ form.port.text := by
  simp [text, userText, plain]

theorem at_notMem_bare : '@' ∉ form.host.bare := by
  cases form.host with
  | named name plain => exact fun member => absurd (plain '@' member) (by decide)
  | ipv6 address parsed => exact fun member => absurd (ipv6_plain parsed '@' member) (by decide)

theorem splitAuthority_absent (plain : form.user = none) (absent : form.port = .absent) :
    splitAuthority form.text scheme.text = form.parts scheme := by
  have whole : form.text.toList = form.host.text := by
    rw [form.text_of_plain plain, absent]
    exact List.append_nil _
  simp only [splitAuthority, whole, givenPort_host, trimMatches_host, parts, absent]
  cases scheme with
  | http => rfl
  | https => rfl

theorem splitAuthority_given (plain : form.user = none) {port : Port}
    (given : form.port = .given port) :
    splitAuthority form.text scheme.text = form.parts scheme := by
  have whole : form.text.toList = form.host.text ++ ':' :: port.digits.toList := by
    rw [form.text_of_plain plain, given]
    rfl
  have closed : ']' ∉ form.host.text ∨ form.host.text.getLast? = some ']' := by
    cases form.host with
    | named name isPlain =>
        exact .inl fun member => absurd (isPlain ']' member) (by decide)
    | ipv6 address parsed => exact .inr List.getLast?_concat
  simp only [splitAuthority, whole, givenPort_digits port closed, trimMatches_host, parts, given]
  rfl

/-- The colon of an empty port stays with the host. -/
theorem splitAuthority_empty (plain : form.user = none) (empty : form.port = .empty) :
    splitAuthority form.text scheme.text ≠ form.parts scheme := by
  have whole : form.text.toList = form.host.text ++ [':'] := by
    rw [form.text_of_plain plain, empty]
    rfl
  have unparsed : givenPort (form.host.text ++ [':']) = none :=
    givenPort_eq_none List.not_mem_nil rfl
  intro same
  have longer := congrArg (fun pair : String × UInt16 => pair.1.toList.length) same
  simp only [splitAuthority, whole, unparsed, parts, String.toList_ofList] at longer
  cases host : form.host with
  | named name isPlain =>
      have clean : ∀ char ∈ name ++ [':'], isBracket char = false := by
        intro char member
        rcases List.mem_append.mp member with inName | colon
        · exact isBracket_of_hostChar (isPlain char inName)
        · rw [List.mem_singleton.mp colon]
          rfl
      rw [host, HostForm.text, trimMatches_eq_self clean] at longer
      simp [HostForm.bare] at longer
  | ipv6 address parsed =>
      rw [host, trimMatches_ipv6_colon parsed] at longer
      simp [HostForm.bare] at longer

theorem splitAuthority_user {name : List Char} (given : form.user = some name) :
    splitAuthority form.text scheme.text ≠ form.parts scheme := by
  have signed : '@' ∈ form.text.toList := by simp [text, userText, given]
  intro same
  have kept := at_mem_splitAuthority scheme.text signed
  rw [same, parts, String.toList_ofList] at kept
  exact form.at_notMem_bare kept

/-- An authority is split into its parts exactly if it has no userinfo, and a digit in
its port if it has one. -/
theorem splitAuthority_iff :
    splitAuthority form.text scheme.text = form.parts scheme ↔
      form.user = none ∧ form.port ≠ .empty := by
  constructor
  · intro same
    cases user : form.user with
    | some name => exact absurd same (form.splitAuthority_user scheme user)
    | none => exact ⟨rfl, fun empty => form.splitAuthority_empty scheme user empty same⟩
  · rintro ⟨plain, filled⟩
    cases port : form.port with
    | absent => exact form.splitAuthority_absent scheme plain port
    | empty => exact absurd port filled
    | given digits => exact form.splitAuthority_given scheme plain port

/-- The userinfo stays with the host, and so does the colon of an empty port. -/
theorem splitAuthority_keeps_more :
    splitAuthority "user@example.com" "https" = ("user@example.com", 443) ∧
      splitAuthority "example.com:" "https" = ("example.com:", 443) ∧
      ¬ ∀ (form : AuthorityForm) (scheme : Scheme),
        splitAuthority form.text scheme.text = form.parts scheme := by
  refine ⟨by decide, by decide, fun always => ?_⟩
  have plain : ∀ char ∈ "example.com".toList, HostChar char := hostChar_of_all (by decide)
  have same : splitAuthority "user@example.com" "https" = ("example.com", 443) :=
    always ⟨some "user".toList, by decide, .named "example.com".toList plain, .absent⟩ .https
  exact absurd same (by decide)

end AuthorityForm

end Unroxy.Proxy
