import Mathlib.Data.List.TakeWhile
import Unroxy.Lib.Address
import Unroxy.Proxy.Server

/-!
Owns `Target` and `absolute` of `proxy/server.rs`: where a request with an absolute
URI is forwarded to, and by what.

A URI is given by the parts that the `http` crate finds in it, and `bareHost` is
the host that crate finds in an authority. The username is the one that
`auth_username` finds in the headers.

Does not own the URIs of rewrite paths, and what the forward does with the target.
-/

namespace Unroxy.Proxy

open Unroxy.Lib.Address
open Unroxy.Lib.Utf8 (Ascii)

variable {φ : Type}

/-- The errors of `absolute`. -/
inductive Error where
  | unsupportedScheme
  | forwardUnavailable
deriving DecidableEq, Repr

def Error.message : Error → String
  | .unsupportedScheme => "unsupported scheme"
  | .forwardUnavailable => "forwarding unavailable"

structure Uri where
  scheme : Option String
  authority : Option String
  path : String
  query : Option String
deriving DecidableEq, Repr

structure Target where
  scheme : String
  host : String
  path : String
  query : String
deriving DecidableEq, Repr

/-- The forward that is called, and the target it is called with. -/
def absolute (proxy : Proxy φ) (username : String) (uri : Uri) : Except Error (φ × Target) :=
  let scheme := uri.scheme.getD "http"
  if scheme ≠ "http" ∧ scheme ≠ "https" then
    .error .unsupportedScheme
  else
    match proxy.forwardFor username none with
    | none => .error .forwardUnavailable
    | some forward =>
        .ok (forward,
          { scheme
            host := uri.authority.getD ""
            path := uri.path
            query := uri.query.getD "" })

/-! ### Authorities -/

/-- `Uri::host`, for an authority without userinfo and with no IPv6 literal. -/
def bareHost (authority : String) : String :=
  String.ofList (authority.toList.takeWhile fun char => char ≠ ':')

/-- What SOCKS can name a host by is 255 bytes long at most. -/
structure Domain where
  name : String
  plain : ∀ char ∈ name.toList, HostChar char
  short : name.length ≤ 255

inductive Host where
  | named (domain : Domain)
  | ipv4 (a b c d : UInt8)

def Host.text : Host → String
  | .named domain => domain.name
  | .ipv4 a b c d => ipv4Text a b c d

theorem Host.plain (host : Host) : ∀ char ∈ host.text.toList, HostChar char := by
  cases host with
  | named domain => exact domain.plain
  | ipv4 a b c d => exact hostChar_ipv4Text a b c d

theorem Host.short (host : Host) : host.text.length ≤ 255 := by
  cases host with
  | named domain => exact domain.short
  | ipv4 a b c d =>
      have short := length_ipv4Text a b c d
      change (ipv4Text a b c d).length ≤ 255
      omega

def decimal (digits : List Char) : Nat :=
  digits.foldl (fun number digit => number * 10 + (digit.toNat - '0'.toNat)) 0

/-- The digits of an explicit port. -/
structure Port where
  digits : String
  filled : digits ≠ ""
  decimals : ∀ char ∈ digits.toList, char.isDigit
  small : decimal digits.toList < 65536

structure Authority where
  host : Host
  port : Option Port

def Authority.text (self : Authority) : String :=
  match self.port with
  | none => self.host.text
  | some port => self.host.text ++ ":" ++ port.digits

theorem bareHost_text (authority : Authority) : bareHost authority.text = authority.host.text := by
  have clean : ∀ char ∈ authority.host.text.toList, decide (char ≠ ':') = true := by
    intro char member
    have plain := (authority.host.plain char member).2.2
    apply decide_eq_true
    rintro rfl
    exact plain List.mem_cons_self
  rw [bareHost, Authority.text]
  split
  · rw [List.takeWhile_eq_self_iff.mpr clean, String.ofList_toList]
  · rw [String.append_assoc, String.toList_append, List.takeWhile_append_of_pos clean]
    simp

theorem ascii_text (authority : Authority) : Ascii authority.text := by
  have host := ascii_of_hostChar authority.host.plain
  unfold Authority.text
  cases authority.port with
  | none => exact host
  | some port =>
      have digits : Ascii port.digits :=
        ascii_of_hostChar fun char member => hostChar_of_isDigit (port.decimals char member)
      have colon : Ascii ":" := by
        intro char member
        rw [List.mem_singleton.mp member]
        decide
      dsimp only
      intro char member
      rw [String.toList_append, String.toList_append] at member
      rcases List.mem_append.mp member with front | back
      · rcases List.mem_append.mp front with first | second
        · exact host char first
        · exact colon char second
      · exact digits char back

inductive Scheme where
  | http
  | https
deriving DecidableEq, Repr

def Scheme.text : Scheme → String
  | .http => "http"
  | .https => "https"

def Scheme.defaultPort : Scheme → UInt16
  | .http => 80
  | .https => 443

/-- The URI of a request in absolute form. -/
structure AbsoluteForm where
  scheme : Scheme
  authority : Authority
  path : String
  query : Option String

namespace AbsoluteForm

def uri (self : AbsoluteForm) : Uri where
  scheme := some self.scheme.text
  authority := some self.authority.text
  path := self.path
  query := self.query

/-- The port that is connected to. -/
def port (self : AbsoluteForm) : UInt16 :=
  match self.authority.port with
  | some port => UInt16.ofNat (decimal port.digits.toList)
  | none => self.scheme.defaultPort

/-- The target that `absolute` makes. -/
def target (self : AbsoluteForm) : Target where
  scheme := self.scheme.text
  host := self.authority.text
  path := self.path
  query := self.query.getD ""

/-- Only the forward can be missing. -/
theorem absolute_uri (proxy : Proxy φ) (username : String) (form : AbsoluteForm) :
    absolute proxy username form.uri =
      match proxy.forwardFor username none with
      | none => .error .forwardUnavailable
      | some forward => .ok (forward, form.target) := by
  have supported : ¬ (form.scheme.text ≠ "http" ∧ form.scheme.text ≠ "https") := by
    cases form.scheme with
    | http => decide
    | https => decide
  exact if_neg supported

theorem host_absolute {proxy : Proxy φ} {username : String} {form : AbsoluteForm} {forward : φ}
    {target : Target} (forwards : absolute proxy username form.uri = .ok (forward, target)) :
    target.host = form.authority.text := by
  rw [absolute_uri] at forwards
  split at forwards
  · cases forwards
  · injection forwards with both
    injection both with _ here
    rw [← here]
    rfl

end AbsoluteForm

end Unroxy.Proxy
