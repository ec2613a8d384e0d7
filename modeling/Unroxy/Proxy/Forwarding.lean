import Unroxy.Proxy.Headers
import Unroxy.Proxy.Request
import Unroxy.Proxy.TargetUri

/-!
Owns the first half of `send` of `forward.rs`: the request that goes out for a
client's request, and what of the client's headers the attempts hand to the HTTP
client.

The parser of URIs, `Uri::host` and the values of headers are parameters.

Does not own the attempts, and what the HTTP client adds to a request.
-/

namespace Unroxy.Proxy

open Unroxy.Lib

variable {τ ρ : Type}

/-- The client's request. -/
structure Incoming where
  method : Method
  headers : HeaderMap
  body : List UInt8
deriving DecidableEq, Repr

/-- `Display` of a URI. -/
def Uri.text (self : Uri) : String :=
  (match self.scheme with
    | some scheme => scheme ++ "://"
    | none => "") ++ self.authority.getD "" ++ self.path ++ queryText self.query

def outgoingHeaders (crate : HeaderValues) (target : Target) (headers : HeaderMap) : HeaderMap :=
  setHeader crate (stripHopHeaders (stripClientHeaders headers)) "host" target.host

/-- What `send` gives to the transport. -/
def outgoing (parse : String → Option Uri) (hostOf : Uri → Option String) (crate : HeaderValues)
    (incoming : Incoming) (target : Target) : Except TargetError Upstream.Request := do
  let uri ← target.uri parse
  return {
    method := incoming.method
    uri := uri.text
    host := hostOf uri
    headers := outgoingHeaders crate target incoming.headers
    body := incoming.body }

theorem values_outgoingHeaders (crate : HeaderValues) (target : Target) (headers : HeaderMap)
    (name : String) :
    (outgoingHeaders crate target headers).values name =
      if name = "host" then crate.replaced target.host (headers.values "host")
      else if name ∈ hopHeaders ++ clientHeaders then [] else headers.values name := by
  rw [outgoingHeaders, values_setHeader, stripHopHeaders, stripClientHeaders,
    Multimap.values_removeAll, Multimap.values_removeAll]
  simp only [List.mem_append]
  by_cases host : name = "host"
  · have kept : "host" ∉ hopHeaders ∧ "host" ∉ clientHeaders := by decide
    simp [host, kept]
  · by_cases hop : name ∈ hopHeaders
    · simp [host, hop]
    · simp [host, hop]

namespace Upstream.Call

/-- Every message is the request, but for its body. -/
theorem Metered.sent_request {call : Call τ ρ} (metered : call.Metered) {sent : Sent}
    (among : sent ∈ call.sends) :
    ∃ body, (body = call.request.body ∨ body = []) ∧
      sent = { call.request.original with body } := by
  rcases metered.sent with ⟨unsent, -⟩ | ⟨-, again, all⟩
  · rw [unsent] at among
    cases among
  · rw [all] at among
    rcases List.mem_append.mp among with repeated | first
    · exact ⟨[], .inr rfl, List.eq_of_mem_replicate repeated⟩
    · exact ⟨call.request.body, .inl rfl, List.mem_singleton.mp first⟩

end Upstream.Call

open Upstream Call

/-- Whatever a client sends and however the attempts go: what is handed to the HTTP
client has the method of the client and the URI of the target, no header that names
the client or belongs to its connection, the target as its only `host` if that can
stand in a header and else the client's own, and the other headers with the values
that the client gave them. -/
theorem sends_target (parse : String → Option Uri) (hostOf : Uri → Option String)
    (crate : HeaderValues) (incoming : Incoming) (target : Target) (request : Upstream.Request)
    (made : outgoing parse hostOf crate incoming target = .ok request)
    (clients : Nat → Option Upstream.Error)
    (steps : List (Step τ ρ)) :
    ∀ sent ∈ (run (step clients) (new request) steps).sends,
      sent.method = incoming.method ∧
      (∃ uri, target.uri parse = .ok uri ∧ sent.uri = uri.text) ∧
      (sent.body = incoming.body ∨ sent.body = []) ∧
      (∀ name ∈ hopHeaders ++ clientHeaders, Multimap.values sent.headers name = []) ∧
      Multimap.values sent.headers "host" =
        crate.replaced target.host (incoming.headers.values "host") ∧
      ∀ name ∉ hopHeaders ++ clientHeaders, name ≠ "host" →
        Multimap.values sent.headers name = incoming.headers.values name := by
  intro sent among
  obtain ⟨uri, parsed, made⟩ : ∃ uri, target.uri parse = .ok uri ∧ request =
      { method := incoming.method, uri := uri.text, host := hostOf uri,
        headers := outgoingHeaders crate target incoming.headers, body := incoming.body } := by
    unfold outgoing at made
    cases found : target.uri parse with
    | error error => rw [found] at made; cases made
    | ok uri => rw [found] at made; cases made; exact ⟨uri, rfl, rfl⟩
  obtain ⟨metered, same⟩ := run_metered clients request steps
  obtain ⟨body, fits, rfl⟩ := metered.sent_request among
  rw [same] at fits ⊢
  subst made
  refine ⟨rfl, ⟨uri, parsed, rfl⟩, fits, ?_, ?_, ?_⟩
  · intro name stripped
    have different : name ≠ "host" := by
      rintro rfl
      revert stripped
      decide
    change (outgoingHeaders crate target incoming.headers).values name = []
    rw [values_outgoingHeaders, if_neg different, if_pos stripped]
  · change (outgoingHeaders crate target incoming.headers).values "host" = _
    rw [values_outgoingHeaders, if_pos rfl]
  · intro name kept different
    change (outgoingHeaders crate target incoming.headers).values name = _
    rw [values_outgoingHeaders, if_neg different, if_neg kept]

/-- A client that names itself, in a request that is sent twice. -/
def namedIncoming : Incoming where
  method := .get
  headers := [("host", "localhost:8080"), ("x-forwarded-for", "10.0.0.1"),
    ("connection", "keep-alive"), ("accept", "text/html"), ("accept", "text/plain")]
  body := []

def exampleTarget : Target where
  scheme := "https"
  host := "example.com"
  path := "/"
  query := ""

/-- What goes out for it. -/
def namedRequest : Upstream.Request where
  method := .get
  uri := "https://example.com/"
  host := some "example.com"
  headers := [("accept", "text/html"), ("accept", "text/plain"), ("host", "example.com")]
  body := []

theorem sends_target_named :
    ∃ sent ∈ (run (step fun _ => none) (new namedRequest : Upstream.Call Unit Unit)
        sentTwice).sends,
      sent.uri = "https://example.com/" ∧ Multimap.values sent.headers "host" = ["example.com"] ∧
      Multimap.values sent.headers "x-forwarded-for" = [] ∧
      Multimap.values sent.headers "accept" = ["text/html", "text/plain"] := by
  have made : outgoing readUri (fun uri => uri.authority) .noControls namedIncoming
      exampleTarget = .ok namedRequest := by
    decide +kernel
  have read : exampleTarget.uri readUri = .ok ⟨some "https", some "example.com", "/", none⟩ := by
    decide +kernel
  have among : namedRequest.original ∈ (run (step fun _ => none)
      (new namedRequest : Upstream.Call Unit Unit) sentTwice).sends := by decide +kernel
  obtain ⟨-, ⟨uri, parsed, same⟩, -, stripped, host, kept⟩ :=
    sends_target readUri _ _ namedIncoming exampleTarget namedRequest made _ sentTwice _ among
  rw [read] at parsed
  cases parsed
  exact ⟨_, among, same, host.trans (by decide), stripped _ (by decide),
    kept _ (by decide) (by decide)⟩

end Unroxy.Proxy
