import Ratewall.Auth.Gate
import Ratewall.Circuit.Breaker
import Ratewall.Foundation.Program
import Ratewall.Http.Client
import Ratewall.RateLimit

/-! Owns the request path of `router.rs`: `proxy_fallback` and `forward` as
programs, call by call and exit by exit. A call is an await point or an operation
on state that requests share: the clock, the limiter, the breakers, the metrics
registry, the wire. Everything between two calls is computed. `proxyFallback`
continues as `rateLimit` and `route`, and `forward` as `exchange`, `conclude`,
`relay` and `deliver`; the cuts are at the comments of the source.

Log lines are left out, as are the latencies that only they show. -/

namespace Ratewall.Router

open Ratewall.Rust
open Ratewall.Foundation
open Ratewall.Config
open Ratewall.Circuit
open Ratewall.Http
open Ratewall.Auth
open Ratewall.RateLimit

/-- The handle of the metrics registry. -/
structure Metrics where
deriving DecidableEq, Repr

structure RequestTimer where
  pfx : Text
  started : Nat
deriving DecidableEq, Repr

structure ProxyState (scheme : Ed25519) where
  backends : Std.TreeMap Text Text
  auth : Option (AuthState scheme)
  limiter : Option RateLimiter
  breakers : Option Breakers
  backendTimeout : Duration
  metrics : Option Metrics

namespace ProxyState

variable {scheme : Ed25519}

def new (routes : List Route) : ProxyState scheme where
  backends := routes.foldl (fun map route => map.insert route.routePrefix route.backend) ∅
  auth := none
  limiter := none
  breakers := none
  backendTimeout := Duration.fromSecs 30
  metrics := none

def withAuth (state : ProxyState scheme) (auth : AuthState scheme) : ProxyState scheme :=
  { state with auth := some auth }

def withLimiter (state : ProxyState scheme) (limiter : RateLimiter) : ProxyState scheme :=
  { state with limiter := some limiter }

def withBreakers (state : ProxyState scheme) (breakers : Breakers) (timeoutSecs : UInt64) :
    ProxyState scheme :=
  { state with breakers := some breakers, backendTimeout := Duration.fromSecs timeoutSecs }

def withMetrics (state : ProxyState scheme) (metrics : Metrics) : ProxyState scheme :=
  { state with metrics := some metrics }

def backendFor (state : ProxyState scheme) (pfx : Text) : Option Text := state.backends[pfx]?

def breakerFor (state : ProxyState scheme) (pfx : Text) : Option CircuitBreaker :=
  state.breakers.bind fun breakers => breakers.get pfx

end ProxyState

/-! ### Calls -/

inductive Op where
  | unixNow
  | decide (limiter : RateLimiter) (key : Text)
  | incRateLimited (pfx : Text)
  | tryAdmit (breaker : CircuitBreaker)
  | incCircuitOpen (pfx : Text)
  | collect (body : Body)
  | instantNow
  | send (outbound : Outbound)
  | record (breaker : CircuitBreaker) (success : Bool)
  | readBody
  | finish (timer : RequestTimer) (statusClass : Text)

@[reducible] def Answer : Op → Type
  | .unixNow => UInt64
  | .decide _ _ => Decision
  | .tryAdmit _ => Admit
  | .instantNow => Nat
  | .send _ => Nat → Hop
  | _ => Unit

/-- The calls that the source awaits. The handler of a request whose client goes away is
dropped at one of them. -/
def awaits : Op → Bool
  | .decide _ _ => true
  | .collect _ => true
  | .send _ => true
  | .readBody => true
  | _ => false

abbrev Handler := Program Op Answer Response

@[reducible] def ask (op : Op) : Program Op Answer (Answer op) := Program.perform op

/-! ### Headers -/

def isHopByHopName (name : Text) : Bool :=
  ["connection".toList, "keep-alive".toList, "proxy-authenticate".toList,
    "proxy-authorization".toList, "te".toList, "trailers".toList, "transfer-encoding".toList,
    "upgrade".toList].contains name

def isHopByHop (name : HeaderName) : Bool := isHopByHopName name.text

/-- The headers of the outbound request, onto the ones that it starts with. A value
that is not text is dropped; one that is survives the way through `str` unchanged. -/
def outboundHeaders (own headers : HeaderMap) : HeaderMap :=
  headers.fields.foldl
    (fun out field =>
      if isHopByHop field.1 then out
      else
        match field.2.toStr with
        | some _ => out.append field
        | none => out)
    own

/-- The headers of the response builder, or its error. -/
def copyHeaders (headers : HeaderMap) : Option HeaderMap :=
  headers.fields.foldlM
    (fun builder field =>
      if isHopByHopName field.1.text then some builder
      else
        match HeaderName.fromBytes (asBytes field.1.text), HeaderValue.fromBytes field.2.bytes with
        | some name, some value => builder.tryAppend (name, value)
        | _, _ => some builder)
    HeaderMap.empty

def statusClass (status : StatusCode) : Text := decimal (status.code / 100) ++ "xx".toList

/-! ### The gateway's own answers -/

def noRoute (pfx : Text) : Response :=
  intoResponse .notFound [] ("no route for prefix ".toList ++ debugText pfx)

def circuitOpen (pfx : Text) : Response :=
  intoResponse .serviceUnavailable [(HeaderName.retryAfter, HeaderValue.ofNumber 5)]
    ("backend ".toList ++ debugText pfx ++ " unavailable (circuit open)".toList)

def bodyUnreadable : Response := intoResponse .badRequest [] "failed to read request body".toList

def unreachable (pfx : Text) : Response :=
  intoResponse .badGateway [] ("backend ".toList ++ debugText pfx ++ " unreachable".toList)

def buildFailed : Response := intoResponse .badGateway [] "response build failed".toList

def rateLimited (retryAfter : UInt64) : Response :=
  intoResponse .tooManyRequests [(HeaderName.retryAfter, HeaderValue.ofNumber retryAfter.toNat)]
    "rate limit exceeded".toList

/-! ### Forwarding -/

/-- The cap on a buffered request body: 32 MiB. -/
def bodyLimit : Nat := 32 * 1024 * 1024

/-- `RequestBuilder::send`. A target that is no URL fails before anything is
sent. -/
def send (urls : UrlCrate) (outbound : Outbound) :
    Program Op Answer (Except SendError WireResponse) :=
  match urls.parse outbound.target with
  | none => pure (.error .builder)
  | some url => do
      let hops ← ask (.send outbound)
      pure (ending urls url hops).result

def recordOutcome (breaker : Option CircuitBreaker) (success : Bool) : Program Op Answer Unit :=
  match breaker with
  | some breaker => ask (.record breaker success)
  | none => pure ()

def finishTimer (timer : Option RequestTimer) (statusClass : Text) : Program Op Answer Unit :=
  match timer with
  | some timer => ask (.finish timer statusClass)
  | none => pure ()

/-- The copy of the backend's response. -/
def deliver (timer : Option RequestTimer) (response : WireResponse) : Handler := do
  let axumStatus := (StatusCode.fromU16 response.status.code).getD .badGateway
  let builder := copyHeaders response.headers
  ask .readBody
  let payload :=
    match response.bytes with
    | .ok bytes => bytes
    | .error _ => []
  finishTimer timer (statusClass axumStatus)
  match builder with
  | some headers => pure { status := axumStatus, headers := headers, body := payload }
  | none => pure buildFailed

/-- Everything after the head of the backend's response. -/
def relay (breaker : Option CircuitBreaker) (timer : Option RequestTimer) (response : WireResponse) :
    Handler := do
  recordOutcome breaker true
  deliver timer response

def conclude (pfx : Text) (breaker : Option CircuitBreaker) (timer : Option RequestTimer) :
    Except SendError WireResponse → Handler
  | .ok response => relay breaker timer response
  | .error _ => do
      recordOutcome breaker false
      finishTimer timer "5xx".toList
      pure (unreachable pfx)

section

variable (urls : UrlCrate) {scheme : Ed25519} (state : ProxyState scheme)

def countRateLimited (pfx : Text) : Program Op Answer Unit :=
  match state.metrics with
  | some _ => ask (.incRateLimited pfx)
  | none => pure ()

def countCircuitOpen (pfx : Text) : Program Op Answer Unit :=
  match state.metrics with
  | some _ => ask (.incCircuitOpen pfx)
  | none => pure ()

/-- `Metrics::start_request`, when the registry is there. -/
def startTimer (pfx : Text) : Program Op Answer (Option RequestTimer) :=
  match state.metrics with
  | some _ => do
      let started ← ask .instantNow
      pure (some ⟨pfx, started⟩)
  | none => pure none

def queryText : Option Text → Text
  | some query => '?' :: query
  | none => []

/-- The text that `forward` makes of the backend, the suffix and the query. -/
def target (backend suffix : Text) (request : Request) : Text :=
  backend ++ suffix ++ queryText request.query

/-- The request that `Client::request`, `header` and `body` build. -/
def outboundRequest (backend suffix : Text) (request : Request) (bodyBytes : List UInt8) :
    Outbound where
  method := (Method.fromBytes (asBytes request.method.text)).getD .get
  target := target backend suffix request
  headers := outboundHeaders (ownHeaders urls (target backend suffix request)) request.headers
  timeoutNanos := state.backendTimeout.asNanos
  body := bodyBytes

/-- Everything after the breaker let the request through. -/
def exchange (pfx : Text) (breaker : Option CircuitBreaker) (backend suffix : Text)
    (request : Request) : Handler := do
  ask (.collect request.body)
  match request.body.toBytes bodyLimit with
  | .error _ => pure bodyUnreadable
  | .ok bodyBytes => do
      let timer ← startTimer state pfx
      let sent ← send urls (outboundRequest urls state backend suffix request bodyBytes)
      conclude pfx breaker timer sent

def forward (pfx suffix : Text) (request : Request) : Handler :=
  match state.backendFor pfx with
  | none => pure (noRoute pfx)
  | some backend =>
      match state.breakerFor pfx with
      | none => exchange urls state pfx none backend suffix request
      | some breaker => do
          let admission ← ask (.tryAdmit breaker)
          match admission with
          | .call => exchange urls state pfx (some breaker) backend suffix request
          | .shortCircuit => do
              countCircuitOpen state pfx
              pure (circuitOpen pfx)

/-! ### The fallback -/

/-- The prefix and the suffix that a path is split into. -/
def splitPath (path : Text) : Text × Text :=
  let trimmed := trimStartMatches '/' path
  match splitOnce '/' trimmed with
  | some (pfx, rest) => (pfx, '/' :: rest)
  | none => (trimmed, ['/'])

/-- The prefix that a rate-limited request is charged to. -/
def rejectedPrefix (path : Text) : Text :=
  match splitOnce '/' (trimStartMatches '/' path) with
  | some (pfx, _) => pfx
  | none => []

omit urls state in
theorem splitPath_cases (path : Text) :
    ('/' ∉ trimStartMatches '/' path ∧ splitPath path = (trimStartMatches '/' path, ['/']) ∧
        rejectedPrefix path = []) ∨
      ∃ pfx rest, trimStartMatches '/' path = pfx ++ '/' :: rest ∧ '/' ∉ pfx ∧
        splitPath path = (pfx, '/' :: rest) ∧ rejectedPrefix path = pfx := by
  unfold splitPath rejectedPrefix
  cases found : splitOnce '/' (trimStartMatches '/' path) with
  | none => exact Or.inl ⟨splitOnce_eq_none_iff.mp found, by simp [found], rfl⟩
  | some parts =>
      obtain ⟨joined, free⟩ := splitOnce_eq_some found
      exact Or.inr ⟨parts.1, parts.2, joined, free, by simp [found], rfl⟩

def route (request : Request) : Handler :=
  let (pfx, rest) := splitPath request.path
  if pfx.isEmpty then pure (intoResponse .notFound [] "not found".toList)
  else forward urls state pfx rest request

def rateLimit (subject : Option Text) (request : Request) : Handler :=
  match state.limiter with
  | none => route urls state request
  | some limiter => do
      let decision ← ask (.decide limiter (limitKey subject "unkeyed".toList))
      match decision with
      | .limit retryAfter => do
          countRateLimited state (rejectedPrefix request.path)
          pure (rateLimited retryAfter)
      | .allow => route urls state request
      | .opened => route urls state request

def proxyFallback (json : Json.Codec) (request : Request) : Handler :=
  match state.auth with
  | none => rateLimit urls state none request
  | some auth => do
      let now ← ask .unixNow
      match checkBearer json auth request now with
      | .ok subject => rateLimit urls state (some subject) request
      | .error response => pure response

end

/-- How far a gated request has come: nowhere yet, to the gate's refusal, or into
the rate limiter. -/
theorem follows_proxyFallback {urls : UrlCrate} {scheme : Ed25519} {state : ProxyState scheme}
    {json : Json.Codec} {auth : AuthState scheme} {request : Request}
    {trace : List (Sigma Answer)} {rest : Handler} (gated : state.auth = some auth)
    (follows : (proxyFallback urls state json request).Follows trace rest) :
    trace = [] ∨ ∃ now later, trace = ⟨.unixNow, now⟩ :: later ∧
      ((∃ refusal, checkBearer json auth request now = .error refusal ∧ later = [] ∧
          rest = .done refusal) ∨
        ∃ subject, checkBearer json auth request now = .ok subject ∧
          (rateLimit urls state (some subject) request).Follows later rest) := by
  simp only [proxyFallback, gated, Program.perform_bind, Program.follows_call_iff] at follows
  rcases follows with ⟨nothing, -⟩ | ⟨now, later, made, continues⟩
  · exact Or.inl nothing
  · refine Or.inr ⟨now, later, made, ?_⟩
    cases checked : checkBearer json auth request now with
    | error refusal =>
        simp only [checked, Program.pure_eq_done, Program.follows_done_iff] at continues
        exact Or.inl ⟨refusal, rfl, continues⟩
    | ok subject =>
        simp only [checked] at continues
        exact Or.inr ⟨subject, rfl, continues⟩

end Ratewall.Router
