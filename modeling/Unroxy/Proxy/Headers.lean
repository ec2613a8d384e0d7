import Unroxy.Lib.Multimap
import Unroxy.Ssh.Exits

/-!
Owns the headers that are taken out of requests and responses, and those that
are put in: `strip_client_headers` and `strip_hop_headers` of `proxy/server.rs`,
`set_egress_headers` of `forward.rs`.

A name is in lower case, and a value is given by its bytes as characters. Which texts
can stand in a header, and as what value, is for the `http` crate to say.

Does not own the lookup of an ISP.
-/

namespace Unroxy.Proxy

open Unroxy.Lib
open Unroxy.Ssh (Exit)

abbrev HeaderMap := Multimap String String

namespace HeaderValue

def isVisibleAscii (char : Char) : Bool :=
  32 ≤ char.toNat ∧ char.toNat < 127 ∨ char = '\t'

/-- `HeaderValue::to_str`. -/
def toStr (value : String) : Option String :=
  if value.toList.all isVisibleAscii then some value else none

end HeaderValue

/-- The texts that `HeaderValue::from_str` of the `http` crate takes, with the values it
makes of them: visible ASCII it takes as it is. -/
structure HeaderValues where
  fromStr : String → Option String
  visible : ∀ text, text.toList.all HeaderValue.isVisibleAscii → fromStr text = some text

def clientHeaders : List String :=
  ["x-forwarded-for", "x-real-ip", "x-originating-ip", "true-client-ip", "client-ip", "forwarded",
    "x-forwarded-host", "x-forwarded-proto", "cf-connecting-ip", "proxy-authorization"]

def hopHeaders : List String :=
  ["connection", "proxy-connection", "keep-alive", "proxy-authenticate", "proxy-authorization",
    "te", "trailer", "transfer-encoding", "upgrade"]

def stripClientHeaders (headers : HeaderMap) : HeaderMap := headers.removeAll clientHeaders

def stripHopHeaders (headers : HeaderMap) : HeaderMap := headers.removeAll hopHeaders

variable (crate : HeaderValues)

/-- The value takes the place of all others, if it is one. -/
def setHeader (headers : HeaderMap) (name text : String) : HeaderMap :=
  match crate.fromStr text with
  | some value => headers.insert name value
  | none => headers

/-- `set_egress_headers`, where `isp` is what `lookup_within` finds for the address. -/
def setEgressHeaders (isp : String → String) (headers : HeaderMap) (exit : Option Exit) :
    HeaderMap :=
  match exit with
  | none => headers
  | some exit =>
      if exit.ip.isEmpty then
        headers
      else
        let headers := setHeader crate headers "x-unroxy-ip" exit.ip
        let isp := isp exit.ip
        if isp.isEmpty then headers else setHeader crate headers "x-unroxy-isp" isp

/-- The values of a header that is set to this text, where it had these before. -/
def HeaderValues.replaced (text : String) (before : List String) : List String :=
  match crate.fromStr text with
  | some value => [value]
  | none => before

theorem values_setHeader (headers : HeaderMap) (name text other : String) :
    (setHeader crate headers name text).values other =
      if other = name then crate.replaced text (headers.values other)
      else headers.values other := by
  unfold setHeader HeaderValues.replaced
  cases crate.fromStr text with
  | some value => simp
  | none => simp

/-- Every text without control characters, as it is. On ASCII this is what the crate
does; a character beyond it would be the bytes of its encoding. -/
def HeaderValues.noControls : HeaderValues where
  fromStr text :=
    if text.toList.all fun char => HeaderValue.isVisibleAscii char ∨ 127 < char.toNat then
      some text
    else none
  visible text visible := by
    apply if_pos
    rw [List.all_eq_true] at visible ⊢
    intro char among
    exact decide_eq_true (.inl (visible char among))

end Unroxy.Proxy
