import Unroxy.Proxy.Credentials
import Unroxy.Proxy.Forwarding
import Unroxy.Proxy.SplitAuthority

/-!
Owns `handle`, `handle_connect`, `rewrite` and `error_response` of
`proxy/server.rs`, up to where they first wait for something.

A client may name a region in its credentials and give an absolute URI, or give a
rewrite path that begins with the region: `forms_agree` says that the two are one
request.

Does not own the waiting, and the text of the index page.
-/

namespace Unroxy.Proxy

open Unroxy.Lib
open Unroxy.Lib.Text

variable {τ φ ρ : Type}

/-- `Error` of `proxy/server.rs`, whole. -/
inductive HandleError where
  | unknownRegion
  | unsupportedScheme
  | missingTarget
  | forwardUnavailable
  | tunnel (reason : String)
  | upstream (reason : String)
  | io (reason : String)
  | forward (reason : String)
deriving DecidableEq, Repr

namespace HandleError

def message : HandleError → String
  | .unknownRegion => "unknown proxy region"
  | .unsupportedScheme => "unsupported scheme"
  | .missingTarget => "missing target host"
  | .forwardUnavailable => "forwarding unavailable"
  | .tunnel reason => "ssh: " ++ reason
  | .upstream reason => "upstream: " ++ reason
  | .io reason => "io: " ++ reason
  | .forward reason => "forward: " ++ reason

/-- The status of `error_response`. -/
def status : HandleError → Nat
  | .unsupportedScheme | .missingTarget => 400
  | .forwardUnavailable => 501
  | .unknownRegion | .tunnel _ | .forward _ | .upstream _ => 502
  | .io _ => 503

def ofAbsolute : Error → HandleError
  | .unsupportedScheme => .unsupportedScheme
  | .forwardUnavailable => .forwardUnavailable

def ofTarget : TargetError → HandleError
  | .missingTarget => .missingTarget

@[simp] theorem message_ofAbsolute (error : Error) :
    (ofAbsolute error).message = error.message := by
  cases error <;> rfl

@[simp] theorem message_ofTarget (error : TargetError) :
    (ofTarget error).message = error.message := by
  cases error
  rfl

end HandleError

def Method.isConnect (self : Method) : Bool := self = .other "CONNECT"

/-- A request as `hyper` reads it. -/
structure HttpRequest extends Incoming where
  uri : Uri
deriving DecidableEq, Repr

/-- What the `http` and the `base64` crate compute: a URI from its text, the host in
an authority, the value of a header, and the bytes behind encoded text. -/
structure Crates where
  parseUri : String → Option Uri
  hostIn : String → String
  headers : HeaderValues
  decode : List Char → Option (List UInt8)

/-- `Uri::host`. -/
def Crates.host (crates : Crates) (uri : Uri) : Option String := uri.authority.map crates.hostIn

/-- What the `send` of `forward.rs` gives to the transport. -/
def Crates.outgoing (crates : Crates) (incoming : Incoming) (target : Target) :
    Except TargetError Upstream.Request :=
  Proxy.outgoing crates.parseUri crates.host crates.headers incoming target

/-! ### Where a request goes -/

/-- What `handle` waits for first, or what it answers without waiting. -/
inductive Dispatched (φ : Type) where
  | connect (pool : PoolId) (host : String) (port : UInt16)
  | forward (forward : φ) (target : Target)
  | index (host : String)
  | refused (error : HandleError)
deriving DecidableEq, Repr

/-- The authority that `handle_connect` finds. -/
def connectAuthority (request : HttpRequest) : Option String :=
  request.uri.authority.or ((request.headers.get "host").bind HeaderValue.toStr)

def handleConnect (crates : Crates) (proxy : Proxy φ) (pools : Pools τ) (request : HttpRequest) :
    Dispatched φ :=
  match connectAuthority request with
  | none => .refused .missingTarget
  | some authority =>
      let (host, port) := splitAuthority authority "https"
      let username := authUsername crates.decode request.headers
      .connect (proxy.poolFor pools username none).1 host port

/-- The host that `index_page` shows. -/
def indexHost (host : Option String) : String :=
  ((host.bind HeaderValue.toStr).filter fun value => !value.isEmpty).getD "localhost:8080"

def rewrite (proxy : Proxy φ) (request : HttpRequest) : Dispatched φ :=
  match parsePath request.uri with
  | none => .index (indexHost (request.headers.get "host"))
  | some (route, target) =>
      match proxy.forwardFor (route.region.getD "") route.protocol with
      | none => .refused .forwardUnavailable
      | some forward => .forward forward target

def handle (crates : Crates) (proxy : Proxy φ) (pools : Pools τ) (request : HttpRequest) :
    Dispatched φ :=
  if request.method.isConnect then
    handleConnect crates proxy pools request
  else if (crates.host request.uri).isSome then
    match absolute proxy (authUsername crates.decode request.headers) request.uri with
    | .error error => .refused (.ofAbsolute error)
    | .ok (forward, target) => .forward forward target
  else
    rewrite proxy request

/-- A CONNECT request makes no pool. -/
theorem poolFor_none (proxy : Proxy φ) (pools : Pools τ) (username : String) :
    proxy.poolFor pools username none =
      (((proxy.region username).map Region.merged).getD proxy.defaultPool, pools) := by
  rw [Proxy.poolFor]
  cases proxy.region username with
  | none => rfl
  | some region => rfl

theorem Proxy.forwardFor_eq (proxy : Proxy φ) {name other : String}
    (same : eqIgnoreAsciiCase name other) (protocol : Option Protocol) :
    proxy.forwardFor name protocol = proxy.forwardFor other protocol := by
  unfold Proxy.forwardFor
  rw [proxy.region_eq same]

/-! ### Requests that a host cannot tell apart -/

namespace Upstream

structure Sent.Alike (left right : Sent) : Prop where
  method : left.method = right.method
  uri : left.uri = right.uri
  body : left.body = right.body
  targetHost : left.targetHost = right.targetHost
  headers : ∀ name, Multimap.values left.headers name = Multimap.values right.headers name

structure Request.Alike (left right : Request) : Prop where
  method : left.method = right.method
  uri : left.uri = right.uri
  host : left.host = right.host
  body : left.body = right.body
  headers : ∀ name, Multimap.values left.headers name = Multimap.values right.headers name

theorem Request.Alike.sent {left right : Request} (alike : left.Alike right)
    (body : List UInt8) :
    Sent.Alike { left.original with body } { right.original with body } where
  method := alike.method
  uri := alike.uri
  body := rfl
  targetHost := by
    change (left.host.getD "").toLower = (right.host.getD "").toLower
    rw [alike.host]
  headers := alike.headers

theorem Request.Alike.attempts {left right : Request} (alike : left.Alike right) :
    left.attempts = right.attempts := by
  rw [Request.attempts, Request.attempts, Request.retryable, Request.retryable, alike.method]

/-- The calls have chosen the same exits, they are in the same place, and what they
sent is alike. -/
structure Call.Alike (left right : Call τ ρ) : Prop where
  request : left.request.Alike right.request
  attempt : left.attempt = right.attempt
  body : left.body = right.body
  tried : left.tried = right.tried
  last : left.last = right.last
  phase : left.phase = right.phase
  selections : left.selections = right.selections
  sends : List.Forall₂ Sent.Alike left.sends right.sends

namespace Call

variable {left right : Call τ ρ}

theorem alike_new {first second : Request} (alike : first.Alike second) :
    (new first : Call τ ρ).Alike (new second) where
  request := alike
  attempt := rfl
  body := congrArg some alike.body
  tried := rfl
  last := rfl
  phase := rfl
  selections := rfl
  sends := .nil

theorem Alike.refuse (alike : left.Alike right) : left.refuse.Alike right.refuse :=
  { alike with phase := by simp [Call.refuse, alike.last] }

theorem Alike.select (alike : left.Alike right) (candidate : Candidate τ)
    (candidates : List (Candidate τ)) :
    (left.select candidate candidates).Alike (right.select candidate candidates) :=
  { alike with
    phase := rfl
    selections := by simp [Call.select, alike.selections] }

theorem Alike.retry (alike : left.Alike right) (error : Error) :
    (left.retry error).Alike (right.retry error) :=
  { alike with
    attempt := by simp [Call.retry, alike.attempt]
    last := rfl
    phase := by simp [Call.retry, alike.attempt, alike.request.attempts] }

theorem Alike.send (alike : left.Alike right) (candidate : Candidate τ) :
    (left.send candidate).Alike (right.send candidate) :=
  { alike with
    body := rfl
    phase := rfl
    sends := by
      have sent := alike.request.sent (left.body.getD [])
      rw [sends_send, sends_send, ← alike.body]
      exact .cons sent alike.sends }

theorem Alike.look (alike : left.Alike right) (late : Bool) (candidates : List (Candidate τ))
    (isReady : Candidate τ → Bool) :
    (left.look late candidates isReady).Alike (right.look late candidates isReady) := by
  unfold Call.look
  rw [alike.tried]
  split
  · exact alike.refuse
  · split
    · exact alike.refuse
    · exact alike
    · exact alike.select _ candidates

theorem Alike.client (alike : left.Alike right) (clients : Nat → Option Error)
    (candidate : Candidate τ) :
    (left.client clients candidate).Alike (right.client clients candidate) := by
  unfold Call.client
  rw [alike.attempt]
  split
  · exact alike.retry _
  · exact alike.send candidate

theorem Alike.reply (alike : left.Alike right) (candidate : Candidate τ)
    (outcome : Except Error ρ) :
    (left.reply candidate outcome).Alike (right.reply candidate outcome) := by
  cases outcome with
  | ok response => exact { alike with phase := rfl }
  | error error =>
      have tried : Alike { left with tried := left.tried ++ [candidate.key] }
          { right with tried := right.tried ++ [candidate.key] } :=
        { alike with tried := by simp [alike.tried] }
      exact tried.retry error

theorem Alike.step (alike : left.Alike right) (clients : Nat → Option Error)
    (next : Step τ ρ) : (left.step clients next).Alike (right.step clients next) := by
  unfold Call.step
  rw [alike.phase]
  split
  · exact alike.look _ _ _
  · exact alike.client clients _
  · exact alike.reply _ _
  · exact alike

/-- Whatever happens to two calls that are alike, they stay so. -/
theorem Alike.run (alike : left.Alike right) (clients : Nat → Option Error)
    (steps : List (Step τ ρ)) :
    (Lib.run (Call.step clients) left steps).Alike (Lib.run (Call.step clients) right steps) := by
  induction steps generalizing left right with
  | nil => exact alike
  | cons next rest inductionHypothesis => exact inductionHypothesis (alike.step clients next)

end Call

end Upstream

theorem isVisibleAscii_of_isAlphanum {char : Char} (letter : char.isAlphanum) :
    HeaderValue.isVisibleAscii char := by
  have size : char.toNat = char.val.toNat := rfl
  have kinds : ((decide (char.val ≥ 65 ∧ char.val ≤ 90) || (char.val ≥ 97 && char.val ≤ 122)) ||
      (char.val ≥ 48 && char.val ≤ 57)) = true := letter
  simp only [Bool.or_eq_true, Bool.and_eq_true, decide_eq_true_eq, ge_iff_le,
    UInt32.le_iff_toNat_le, UInt32.reduceToNat] at kinds
  apply decide_eq_true
  omega

/-- Headers that differ in nothing but what is stripped and in `host` go out alike. -/
theorem outgoing_alike (crates : Crates) {target : Target} {left right : Incoming}
    (host : (crates.headers.fromStr target.host).isSome) (method : left.method = right.method)
    (body : left.body = right.body)
    (headers : ∀ name ∉ hopHeaders ++ clientHeaders, name ≠ "host" →
      left.headers.values name = right.headers.values name) :
    (∃ error, crates.outgoing left target = .error error ∧
        crates.outgoing right target = .error error) ∨
      ∃ first second, crates.outgoing left target = .ok first ∧
        crates.outgoing right target = .ok second ∧ first.Alike second := by
  unfold Crates.outgoing outgoing
  cases target.uri crates.parseUri with
  | error error => exact .inl ⟨error, rfl, rfl⟩
  | ok uri =>
      refine .inr ⟨_, _, rfl, rfl, method, rfl, rfl, body, fun name => ?_⟩
      change (outgoingHeaders crates.headers target left.headers).values name =
        (outgoingHeaders crates.headers target right.headers).values name
      rw [values_outgoingHeaders, values_outgoingHeaders]
      by_cases isHost : name = "host"
      · obtain ⟨value, taken⟩ := Option.isSome_iff_exists.mp host
        simp [isHost, HeaderValues.replaced, taken]
      · by_cases stripped : name ∈ hopHeaders ++ clientHeaders
        · simp [isHost, stripped]
        · simp only [isHost, stripped, if_false]
          exact headers name stripped isHost

/-! ### One request in two forms -/

/-- A request to an absolute URI with the region in its credentials, and to the
rewrite path of the same target, which begins with the region. -/
structure TwoForms (decode : List Char → Option (List UInt8)) where
  form : RewritePath
  unprotocoled : form.route.route.protocol = none
  query : Option String
  method : Method
  exchanges : ¬ method.isConnect
  body : List UInt8
  headers : HeaderMap
  credentialed : HeaderMap
  named : eqIgnoreAsciiCase (form.route.route.region.getD "") (authUsername decode credentialed)
  same : ∀ name ∉ hopHeaders ++ clientHeaders, name ≠ "host" →
    credentialed.values name = headers.values name

namespace TwoForms

variable {decode : List Char → Option (List UInt8)} (forms : TwoForms decode)

def region : String := forms.form.route.route.region.getD ""

def target : Target := forms.form.target forms.query

def direct : HttpRequest where
  method := forms.method
  headers := forms.credentialed
  body := forms.body
  uri :=
    { scheme := some forms.target.scheme
      authority := some forms.target.host
      path := forms.target.path
      query := forms.query }

def rewritten : HttpRequest where
  method := forms.method
  headers := forms.headers
  body := forms.body
  uri :=
    { scheme := none
      authority := none
      path := String.ofList forms.form.text
      query := forms.query }

theorem scheme_target : forms.target.scheme = "http" ∨ forms.target.scheme = "https" := by
  unfold target RewritePath.target
  cases forms.form.tag with
  | none => exact .inr rfl
  | some tag =>
      cases found : tag.scheme with
      | http => exact .inl (by simp [found, Scheme.text])
      | https => exact .inr (by simp [found, Scheme.text])

theorem host_target : forms.target.host.toList.all HeaderValue.isVisibleAscii := by
  rw [target, RewritePath.target, String.toList_ofList, List.all_eq_true]
  intro char member
  rcases forms.form.domain_plain char member with letter | mark
  · exact isVisibleAscii_of_isAlphanum letter
  · have marks : ['.', '-'].all HeaderValue.isVisibleAscii := by decide
    exact List.all_eq_true.mp marks char mark

theorem handle_rewritten (crates : Crates) (proxy : Proxy φ) (pools : Pools τ) :
    handle crates proxy pools forms.rewritten =
      match proxy.forwardFor forms.region none with
      | none => .refused .forwardUnavailable
      | some forward => .forward forward forms.target := by
  have parsed : parsePath forms.rewritten.uri = some (forms.form.route.route, forms.target) :=
    forms.form.parsePath_text none none forms.query
  have exchanges : ¬ forms.rewritten.method.isConnect := forms.exchanges
  rw [handle, if_neg exchanges, rewrite, parsed]
  simp only [forms.unprotocoled]
  rfl

theorem handle_direct {crates : Crates} (forms : TwoForms crates.decode) (proxy : Proxy φ)
    (pools : Pools τ) :
    handle crates proxy pools forms.direct =
      match proxy.forwardFor forms.region none with
      | none => .refused .forwardUnavailable
      | some forward => .forward forward forms.target := by
  have exchanges : ¬ forms.direct.method.isConnect := forms.exchanges
  have hosted : (crates.host forms.direct.uri).isSome := rfl
  have usual : ¬ (forms.target.scheme ≠ "http" ∧ forms.target.scheme ≠ "https") := by
    rcases forms.scheme_target with http | https
    · simp [http]
    · simp [https]
  have forward : proxy.forwardFor (authUsername crates.decode forms.direct.headers) none =
      proxy.forwardFor forms.region none :=
    (proxy.forwardFor_eq forms.named none).symm
  have absolute : absolute proxy (authUsername crates.decode forms.direct.headers)
        forms.direct.uri =
      match proxy.forwardFor forms.region none with
      | none => .error .forwardUnavailable
      | some forward => .ok (forward, forms.target) := by
    rw [Proxy.absolute, forward]
    exact if_neg usual
  rw [handle, if_neg exchanges, if_pos hosted, absolute]
  cases proxy.forwardFor forms.region none with
  | none => rfl
  | some forward => rfl

end TwoForms

/-- A request to an absolute URI, whose credentials name a region in any case, and
the request with the rewrite path that begins with the region are one: they are
refused together, or one forward gets them with one target. And what then goes
out, in all the attempts and wherever these lead, is alike in everything that a
host can see but the order of the names of its headers. -/
theorem forms_agree (crates : Crates) (proxy : Proxy φ) (pools : Pools τ)
    (forms : TwoForms crates.decode) :
    handle crates proxy pools forms.direct = handle crates proxy pools forms.rewritten ∧
      (handle crates proxy pools forms.direct =
        match proxy.forwardFor forms.region none with
        | none => .refused .forwardUnavailable
        | some forward => .forward forward forms.target) ∧
      ((∃ error,
          crates.outgoing forms.direct.toIncoming forms.target = .error error ∧
          crates.outgoing forms.rewritten.toIncoming forms.target = .error error) ∨
        ∃ first second,
          crates.outgoing forms.direct.toIncoming forms.target = .ok first ∧
          crates.outgoing forms.rewritten.toIncoming forms.target = .ok second ∧
          ∀ (clients : Nat → Option Upstream.Error) (steps : List (Upstream.Step τ ρ)),
            (run (Upstream.Call.step clients) (.new first) steps).Alike
              (run (Upstream.Call.step clients) (.new second) steps)) := by
  refine ⟨?_, forms.handle_direct proxy pools, ?_⟩
  · rw [forms.handle_direct, forms.handle_rewritten]
  · have sameMethod : forms.direct.toIncoming.method = forms.rewritten.toIncoming.method := rfl
    have sameBody : forms.direct.toIncoming.body = forms.rewritten.toIncoming.body := rfl
    have taken : (crates.headers.fromStr forms.target.host).isSome := by
      rw [crates.headers.visible _ forms.host_target]
      rfl
    rcases outgoing_alike crates taken sameMethod sameBody forms.same with
      failed | ⟨first, second, direct, rewritten, same⟩
    · exact .inl failed
    · refine .inr ⟨first, second, direct, rewritten, fun clients steps => ?_⟩
      exact (Upstream.Call.alike_new same).run clients steps

/-- `/us/http://example.com/a?q=1`, and the same through a proxy. -/
def usForms : TwoForms Base64.decode where
  form :=
    { route := .region ⟨"us".toList, by decide, by decide⟩ (by
        intro protocol
        cases protocol with
        | ssh => decide
        | vpn => decide)
      tag := some ⟨.http, 2, by decide, "http://".toList, by decide⟩
      user := none
      user_plain := by simp
      user_untagged := by simp
      domain := "example.com".toList
      valid := by decide
      no_ipv6 := by decide
      path := "/a".toList
      rooted := .inr ⟨"a".toList, rfl⟩ }
  unprotocoled := rfl
  query := some "q=1"
  method := .get
  exchanges := by decide
  body := []
  headers := [("host", "localhost:8080"), ("accept", "text/html")]
  credentialed := [("host", "example.com"), ("proxy-connection", "keep-alive"),
    ("proxy-authorization", "Basic VXM6eA=="), ("accept", "text/html")]
  named := by decide +kernel
  same := by
    intro name kept notHost
    have noConnection : name ≠ "proxy-connection" := by
      rintro rfl
      exact kept (by decide)
    have noCredentials : name ≠ "proxy-authorization" := by
      rintro rfl
      exact kept (by decide)
    simp [Multimap.values, notHost.symm, noConnection.symm, noCredentials.symm]

def usCrates : Crates where
  parseUri := readUri
  hostIn := id
  headers := .noControls
  decode := Base64.decode

def usProxy : Proxy String where
  defaultPool := 0
  defaultForward := some "anywhere"
  protocolPools := []
  protocolForwards := []
  regions :=
    [{ name := "US", username := "US", variants := [⟨.ssh, 1, some "US"⟩], merged := 2 }]

/-- What goes out for them. -/
def usRequest : Upstream.Request where
  method := .get
  uri := "http://example.com/a?q=1"
  host := some "example.com"
  headers := [("accept", "text/html"), ("host", "example.com")]
  body := []

theorem forms_agree_us :
    handle usCrates usProxy (.empty : Pools Unit) usForms.direct =
        .forward "US" ⟨"http", "example.com", "/a", "q=1"⟩ ∧
      handle usCrates usProxy (.empty : Pools Unit) usForms.rewritten =
        .forward "US" ⟨"http", "example.com", "/a", "q=1"⟩ ∧
      ∃ first second,
        usCrates.outgoing usForms.direct.toIncoming usForms.target = .ok first ∧
        usCrates.outgoing usForms.rewritten.toIncoming usForms.target = .ok second ∧
        (run (Upstream.Call.step fun _ => none) (.new first : Upstream.Call Unit Unit)
            Upstream.Call.sentTwice).Alike
          (run (Upstream.Call.step fun _ => none) (.new second) Upstream.Call.sentTwice) := by
  obtain ⟨same, found, sent⟩ :=
    forms_agree (ρ := Unit) usCrates usProxy (.empty : Pools Unit) usForms
  have direct : handle usCrates usProxy (.empty : Pools Unit) usForms.direct =
      .forward "US" ⟨"http", "example.com", "/a", "q=1"⟩ :=
    found.trans (by decide +kernel)
  have made : usCrates.outgoing usForms.direct.toIncoming usForms.target = .ok usRequest := by
    decide +kernel
  refine ⟨direct, same.symm.trans direct, ?_⟩
  rcases sent with ⟨error, failed, -⟩ | ⟨first, second, direct, rewritten, alike⟩
  · cases made.symm.trans failed
  · exact ⟨first, second, direct, rewritten, alike _ _⟩

end Unroxy.Proxy
