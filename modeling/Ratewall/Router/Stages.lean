import Ratewall.Router.Assembly
import Ratewall.Router.Exchange

/-! Owns the stages of `proxy_fallback` in an assembled gateway: the gate, the
limiter, the route table and the breaker, in this order, each with its exit. A
request that one of them turns away has made no call of a later one. The gate's
own exit depends on nothing but whether a token could be extracted. -/

namespace Ratewall.Router

open Ratewall.Rust
open Ratewall.Foundation
open Ratewall.Foundation.Program
open Ratewall.Config
open Ratewall.Circuit
open Ratewall.Http
open Ratewall.Auth
open Ratewall.RateLimit

section

variable (json : Json.Codec) {scheme : Ed25519} (auth : AuthState scheme) (request : Request)

/-- The token verifies at the moment that the gate reads off the clock. -/
def Verified (trace : Trace) (subject : Text) : Prop :=
  ∃ now later, trace = ⟨.unixNow, now⟩ :: later ∧ checkBearer json auth request now = .ok subject

/-- The gate turns the request away. -/
def GateRefuses (trace : Trace) : Prop :=
  ∃ now later refusal, trace = ⟨.unixNow, now⟩ :: later ∧
    checkBearer json auth request now = .error refusal

end

/-- The limiter has answered `Limit`. -/
def LimiterRefuses (trace : Trace) : Prop :=
  ∃ limiter key retryAfter, ⟨.decide limiter key, .limit retryAfter⟩ ∈ trace

/-- The limiter has answered, and let the request pass. -/
def LimiterPasses (trace : Trace) : Prop :=
  ∃ limiter key decision, ⟨.decide limiter key, decision⟩ ∈ trace ∧
    ∀ retryAfter, decision ≠ .limit retryAfter

/-- The request has come to the route table, which has no route for it. -/
def RouterRefuses {scheme : Ed25519} (state : ProxyState scheme) (request : Request)
    (trace : Trace) : Prop :=
  LimiterPasses trace ∧
    ((splitPath request.path).1 = [] ∨ state.backendFor (splitPath request.path).1 = none)

/-- A breaker has answered `ShortCircuit`. -/
def BreakerRefuses (trace : Trace) : Prop :=
  ∃ breaker, ⟨.tryAdmit breaker, .shortCircuit⟩ ∈ trace

/-! ### The exchange -/

def statusClasses : List Text :=
  ["1xx".toList, "2xx".toList, "3xx".toList, "4xx".toList, "5xx".toList, "6xx".toList, "7xx".toList,
    "8xx".toList, "9xx".toList]

theorem statusClass_mem (status : StatusCode) : statusClass status ∈ statusClasses := by
  have all : ∀ hundred ∈ List.range' 1 9, decimal hundred ++ "xx".toList ∈ statusClasses := by
    decide
  apply all
  rw [List.mem_range'_1]
  have range := status.valid
  omega

theorem noBar_of_statusClasses : ∀ statusClass ∈ statusClasses, '|' ∉ statusClass := by
  simp [statusClasses]

/-- The calls of a request for a prefix that was let through to the target. -/
def Forwards (pfx target : Text) : Op → Prop
  | .collect _ => True
  | .instantNow => True
  | .send outbound => outbound.target = target
  | .record _ _ => True
  | .readBody => True
  | .finish timer statusClass => timer.pfx = pfx ∧ statusClass ∈ statusClasses
  | _ => False

section

variable {urls : UrlCrate} {scheme : Ed25519} {state : ProxyState scheme} {pfx aim : Text}
  {breaker : Option CircuitBreaker} {timer : Option RequestTimer}

private theorem forwards_ask (op : Op) (forwards : Forwards pfx aim op) :
    All (Forwards pfx aim) (ask op) :=
  ⟨forwards, fun _ => trivial⟩

private theorem forwards_recordOutcome (success : Bool) :
    All (Forwards pfx aim) (recordOutcome breaker success) := by
  cases breaker with
  | none => exact trivial
  | some breaker => exact forwards_ask (.record breaker success) trivial

private theorem forwards_finishTimer (own : ∀ started, timer = some started → started.pfx = pfx)
    {statusClass : Text} (listed : statusClass ∈ statusClasses) :
    All (Forwards pfx aim) (finishTimer timer statusClass) := by
  cases timer with
  | none => exact trivial
  | some started => exact forwards_ask (.finish started statusClass) ⟨own started rfl, listed⟩

private theorem forwards_conclude (own : ∀ started, timer = some started → started.pfx = pfx)
    (sent : Except SendError WireResponse) :
    All (Forwards pfx aim) (conclude pfx breaker timer sent) := by
  cases sent with
  | ok response =>
      apply All.bind (forwards_recordOutcome true)
      intro _
      apply All.bind (forwards_ask .readBody trivial)
      intro _
      apply All.bind (forwards_finishTimer own (statusClass_mem _))
      intro _
      split
      next => exact trivial
      next => exact trivial
  | error err =>
      apply All.bind (forwards_recordOutcome false)
      intro _
      apply All.bind (forwards_finishTimer own (by decide))
      intro _
      exact trivial

private theorem forwards_send {outbound : Outbound} (aimed : outbound.target = aim) :
    All (Forwards pfx aim) (send urls outbound) := by
  unfold send
  split
  next => exact trivial
  next => exact ⟨aimed, fun _ => trivial⟩

/-- An exchange sends to the target of its request and nowhere else. -/
theorem forwards_exchange (backend suffix : Text) (request : Request) :
    All (Forwards pfx (target backend suffix request))
      (exchange urls state pfx breaker backend suffix request) := by
  have sends : ∀ bodyBytes timer, (∀ started, timer = some started → started.pfx = pfx) →
      All (Forwards pfx (target backend suffix request))
        (send urls (outboundRequest urls state backend suffix request bodyBytes) >>=
          fun sent => conclude pfx breaker timer sent) := by
    intro bodyBytes timer own
    refine All.bind (forwards_send ?_) fun sent => forwards_conclude own sent
    rfl
  apply All.bind (forwards_ask (.collect request.body) trivial)
  intro _
  split
  next => exact trivial
  next bodyBytes _ =>
    unfold startTimer
    split
    next =>
      refine ⟨trivial, fun started => sends bodyBytes _ ?_⟩
      intro timer same
      rw [← Option.some.inj same]
    next =>
      apply sends bodyBytes none
      intro timer same
      cases same

end

/-! ### How far a request has come -/

/-- The prefix has a backend and a breaker. -/
structure Routed {scheme : Ed25519} (state : ProxyState scheme) (pfx : Text) (backend : Text)
    (breaker : CircuitBreaker) : Prop where
  nonempty : pfx ≠ []
  known : state.backendFor pfx = some backend
  guarded : state.breakerFor pfx = some breaker

section

variable (json : Json.Codec) {scheme : Ed25519} (state : ProxyState scheme) (auth : AuthState scheme)
  (limiter : RateLimiter) (request : Request)

/-- The calls that a request can have made since the limiter let it pass, with what
is still before it. -/
inductive Onward : Trace → Handler → Prop
  | unrouted {response : Response}
      (unknown : (splitPath request.path).1 = [] ∨
        state.backendFor (splitPath request.path).1 = none)
      (notFound : response.status = .notFound) : Onward [] (.done response)
  | routed {backend : Text} {breaker : CircuitBreaker}
      (known : Routed state (splitPath request.path).1 backend breaker) (next : Admit → Handler) :
      Onward [] (.call (.tryAdmit breaker) next)
  | shortCircuited {backend : Text} {breaker : CircuitBreaker}
      (known : Routed state (splitPath request.path).1 backend breaker) (next : Unit → Handler) :
      Onward [⟨.tryAdmit breaker, .shortCircuit⟩]
        (.call (.incCircuitOpen (splitPath request.path).1) next)
  | shed {backend : Text} {breaker : CircuitBreaker}
      (known : Routed state (splitPath request.path).1 backend breaker) :
      Onward [⟨.tryAdmit breaker, .shortCircuit⟩,
        ⟨.incCircuitOpen (splitPath request.path).1, ()⟩]
        (.done (circuitOpen (splitPath request.path).1))
  | forwarded {backend : Text} {breaker : CircuitBreaker} {later : Trace}
      (known : Routed state (splitPath request.path).1 backend breaker)
      (forwards : ∀ made ∈ later, Forwards (splitPath request.path).1
        (target backend (splitPath request.path).2 request) made.1) (rest : Handler) :
      Onward (⟨.tryAdmit breaker, .call⟩ :: later) rest

/-- The calls up to the decision of the limiter. -/
def decided (now : UInt64) (subject : Text) (decision : Decision) : Trace :=
  [⟨.unixNow, now⟩, ⟨.decide limiter (limitKey (some subject) "unkeyed".toList), decision⟩]

/-- The calls that a request can have made, with what is still before it. -/
inductive Course : Trace → Handler → Prop
  | arrived (rest : Handler) : Course [] rest
  | refused {now : UInt64} {refusal : Response}
      (refuses : checkBearer json auth request now = .error refusal) :
      Course [⟨.unixNow, now⟩] (.done refusal)
  | verified {now : UInt64} {subject : Text} (rest : Handler)
      (verifies : checkBearer json auth request now = .ok subject) : Course [⟨.unixNow, now⟩] rest
  | limited {now : UInt64} {subject : Text} {retryAfter : UInt64}
      (verifies : checkBearer json auth request now = .ok subject) (next : Unit → Handler) :
      Course (decided limiter now subject (.limit retryAfter))
        (.call (.incRateLimited (rejectedPrefix request.path)) next)
  | counted {now : UInt64} {subject : Text} {retryAfter : UInt64}
      (verifies : checkBearer json auth request now = .ok subject) :
      Course (decided limiter now subject (.limit retryAfter) ++
        [⟨.incRateLimited (rejectedPrefix request.path), ()⟩]) (.done (rateLimited retryAfter))
  | passed {now : UInt64} {subject : Text} {decision : Decision} {later : Trace} {rest : Handler}
      (verifies : checkBearer json auth request now = .ok subject)
      (passes : ∀ retryAfter, decision ≠ .limit retryAfter)
      (onward : Onward state request later rest) :
      Course (decided limiter now subject decision ++ later) rest

end

section

variable {json : Json.Codec} {urls : UrlCrate} {scheme : Ed25519} {state : ProxyState scheme}
  {auth : AuthState scheme} {limiter : RateLimiter} {request : Request} {trace : Trace}
  {rest : Handler} {now : UInt64} {subject : Text}

private theorem onward_of_route {routes : List Route} {cfg : BreakerConfig}
    (wired : Wired state routes cfg) (metered : state.metrics = some {})
    (follows : (route urls state request).Follows trace rest) :
    Onward state request trace rest := by
  unfold route at follows
  cases empty : (splitPath request.path).1.isEmpty with
  | true =>
      simp only [empty, if_true, pure_eq_done, follows_done_iff] at follows
      obtain ⟨rfl, rfl⟩ := follows
      exact Onward.unrouted (Or.inl (List.isEmpty_iff.mp empty)) rfl
  | false =>
      have nonempty : (splitPath request.path).1 ≠ [] := by
        intro isEmpty
        simp [isEmpty] at empty
      simp only [empty, Bool.false_eq_true, if_false, forward] at follows
      cases known : state.backendFor (splitPath request.path).1 with
      | none =>
          simp only [known, pure_eq_done, follows_done_iff] at follows
          obtain ⟨rfl, rfl⟩ := follows
          exact Onward.unrouted (Or.inr known) rfl
      | some backend =>
          obtain ⟨breaker, guarded⟩ := wired.guarded known
          have isRouted : Routed state (splitPath request.path).1 backend breaker :=
            ⟨nonempty, known, guarded⟩
          simp only [known, guarded, perform_bind, follows_call_iff] at follows
          rcases follows with ⟨rfl, rfl⟩ | ⟨admission, later, rfl, continues⟩
          · exact Onward.routed isRouted _
          · cases admission with
            | call =>
                exact Onward.forwarded isRouted
                  ((forwards_exchange backend _ request).of_follows continues) rest
            | shortCircuit =>
                simp only [countCircuitOpen, metered, perform_bind, follows_call_iff, pure_eq_done,
                  follows_done_iff] at continues
                rcases continues with ⟨rfl, rfl⟩ | ⟨-, last, rfl, rfl, rfl⟩
                · exact Onward.shortCircuited isRouted _
                · exact Onward.shed isRouted

private theorem course_of_rateLimit {routes : List Route} {cfg : BreakerConfig}
    (wired : Wired state routes cfg) (limits : state.limiter = some limiter)
    (metered : state.metrics = some {}) (verifies : checkBearer json auth request now = .ok subject)
    {later : Trace}
    (follows : (rateLimit urls state (some subject) request).Follows later rest) :
    Course json state auth limiter request (⟨.unixNow, now⟩ :: later) rest := by
  simp only [rateLimit, limits, perform_bind, follows_call_iff] at follows
  rcases follows with ⟨rfl, -⟩ | ⟨decision, final, rfl, continues⟩
  · exact Course.verified rest verifies
  · cases decision with
    | limit retryAfter =>
        simp only [countRateLimited, metered, perform_bind, follows_call_iff, pure_eq_done,
          follows_done_iff] at continues
        rcases continues with ⟨rfl, rfl⟩ | ⟨-, last, rfl, rfl, rfl⟩
        · exact Course.limited verifies _
        · exact Course.counted verifies
    | allow => exact Course.passed verifies (by simp) (onward_of_route wired metered continues)
    | opened => exact Course.passed verifies (by simp) (onward_of_route wired metered continues)

/-- Every request of an assembled gateway is on one of the courses. -/
theorem course_of_follows (routes : List Route) (auth : AuthState scheme) (limiter : RateLimiter)
    (cfg : BreakerConfig) (timeoutSecs : UInt64)
    (follows : (proxyFallback urls (ProxyState.assembled routes auth limiter cfg timeoutSecs) json
      request).Follows trace rest) :
    Course json (ProxyState.assembled routes auth limiter cfg timeoutSecs) auth limiter request trace
      rest := by
  have gated : (ProxyState.assembled routes auth limiter cfg timeoutSecs).auth = some auth := rfl
  rcases follows_proxyFallback gated follows with rfl |
    ⟨now, later, rfl, ⟨refusal, refuses, rfl, rfl⟩ | ⟨subject, verifies, continues⟩⟩
  · exact Course.arrived rest
  · exact Course.refused refuses
  · exact course_of_rateLimit (wired_assembled routes auth limiter cfg timeoutSecs) rfl rfl verifies
      continues

end

/-! ### What an exit has called -/

section

variable {json : Json.Codec} {scheme : Ed25519} {state : ProxyState scheme}
  {auth : AuthState scheme} {limiter : RateLimiter} {request : Request} {trace : Trace}
  {rest : Handler}

/-- A request that the gate refuses has done nothing but read the clock. -/
theorem Course.of_gateRefuses (course : Course json state auth limiter request trace rest)
    (refuses : GateRefuses json auth request trace) :
    ∃ now refusal, trace = [⟨.unixNow, now⟩] ∧ rest = .done refusal ∧
      checkBearer json auth request now = .error refusal := by
  obtain ⟨now, later, refusal, same, refused⟩ := refuses
  cases course with
  | arrived rest => cases same
  | refused refuses => exact ⟨_, _, rfl, rfl, refuses⟩
  | verified rest verifies =>
      cases same
      simp [verifies] at refused
  | limited verifies next =>
      cases same
      simp [verifies] at refused
  | counted verifies =>
      cases same
      simp [verifies] at refused
  | passed verifies passes onward =>
      cases same
      simp [verifies] at refused

private theorem Onward.not_decide (onward : Onward state request trace rest) {limiter : RateLimiter}
    {key : Text} {decision : Decision} : ⟨.decide limiter key, decision⟩ ∉ trace := by
  cases onward with
  | forwarded known forwards rest =>
      intro member
      rcases List.mem_cons.mp member with same | later
      · cases same
      · exact forwards _ later
  | _ => simp

/-- A request over its limit has passed the gate and asked Redis. -/
theorem Course.of_limiterRefuses (course : Course json state auth limiter request trace rest)
    (refuses : LimiterRefuses trace) :
    ∃ now subject retryAfter, checkBearer json auth request now = .ok subject ∧
      ((trace = decided limiter now subject (.limit retryAfter) ∧
          ∃ next, rest = .call (.incRateLimited (rejectedPrefix request.path)) next) ∨
        (trace = decided limiter now subject (.limit retryAfter) ++
            [⟨.incRateLimited (rejectedPrefix request.path), ()⟩] ∧
          rest = .done (rateLimited retryAfter))) := by
  obtain ⟨other, key, retryAfter, member⟩ := refuses
  cases course with
  | limited verifies next => exact ⟨_, _, _, verifies, Or.inl ⟨rfl, next, rfl⟩⟩
  | counted verifies => exact ⟨_, _, _, verifies, Or.inr ⟨rfl, rfl⟩⟩
  | passed verifies passes onward =>
      rcases List.mem_append.mp member with here | later
      · simp only [decided, List.mem_cons, List.not_mem_nil, or_false] at here
        rcases here with same | same
        · cases same
        · cases same
          exact absurd rfl (passes retryAfter)
      · exact absurd later onward.not_decide
  | _ => simp at member

/-- A request that the limiter lets through has passed the gate and goes on. -/
theorem Course.of_limiterPasses (course : Course json state auth limiter request trace rest)
    (passes : LimiterPasses trace) :
    ∃ now subject decision later, checkBearer json auth request now = .ok subject ∧
      (∀ retryAfter, decision ≠ .limit retryAfter) ∧
      trace = decided limiter now subject decision ++ later ∧ Onward state request later rest := by
  obtain ⟨other, key, decision, member, passes⟩ := passes
  cases course with
  | limited verifies next =>
      simp only [decided, List.mem_cons, List.not_mem_nil, or_false] at member
      rcases member with same | same
      · cases same
      · cases same
        exact absurd rfl (passes _)
  | counted verifies =>
      simp only [decided, List.cons_append, List.nil_append, List.mem_cons, List.not_mem_nil,
        or_false] at member
      rcases member with same | same | same
      · cases same
      · cases same
        exact absurd rfl (passes _)
      · cases same
  | passed verifies passes onward => exact ⟨_, _, _, _, verifies, passes, rfl, onward⟩
  | _ => simp at member

/-- Whoever has asked a breaker has passed the limiter. -/
theorem Course.of_tryAdmit (course : Course json state auth limiter request trace rest)
    {breaker : CircuitBreaker} {admission : Admit} (asked : ⟨.tryAdmit breaker, admission⟩ ∈ trace) :
    LimiterPasses trace := by
  cases course with
  | passed verifies passes onward =>
      exact ⟨limiter, _, _,
        List.mem_append_left _ (List.mem_cons_of_mem _ List.mem_cons_self), passes⟩
  | _ => simp [decided] at asked

theorem sends_decided (now : UInt64) (subject : Text) (decision : Decision) :
    sends (decided limiter now subject decision) = [] := rfl

/-- Whoever has sent anything has passed every stage. -/
theorem Course.of_sends (course : Course json state auth limiter request trace rest)
    (sent : sends trace ≠ []) :
    ∃ now subject decision backend breaker later, checkBearer json auth request now = .ok subject ∧
      (∀ retryAfter, decision ≠ .limit retryAfter) ∧
      Routed state (splitPath request.path).1 backend breaker ∧
      trace = decided limiter now subject decision ++ ⟨.tryAdmit breaker, .call⟩ :: later := by
  cases course with
  | passed verifies passes onward =>
      cases onward with
      | forwarded known forwards rest => exact ⟨_, _, _, _, _, _, verifies, passes, known, rfl⟩
      | _ => exact absurd rfl sent
  | _ => exact absurd rfl sent

end

/-! ### What a refused caller sees -/

/-- Two requests that the gate refuses get the same response if both carry a token
or neither does, whatever the two gateways and the rest of the requests are. -/
theorem refused_callers_see_alike (json : Json.Codec) (urls : UrlCrate) {scheme : Ed25519}
    (state state' : ProxyState scheme) (auth auth' : AuthState scheme)
    (gated : state.auth = some auth) (gated' : state'.auth = some auth')
    (request request' : Request) (trace trace' : Trace) (response response' : Response)
    (returns : (proxyFallback urls state json request).Returns trace response)
    (returns' : (proxyFallback urls state' json request').Returns trace' response')
    (refuses : GateRefuses json auth request trace)
    (refuses' : GateRefuses json auth' request' trace')
    (alike : (extractToken request).isSome = (extractToken request').isSome) :
    response = response' := by
  have answered : ∀ {state : ProxyState scheme} {auth : AuthState scheme} {request : Request}
      {trace : Trace} {response : Response}, state.auth = some auth →
      (proxyFallback urls state json request).Returns trace response →
      GateRefuses json auth request trace →
      response = if (extractToken request).isSome then unauthorizedResponse
        else missingTokenResponse := by
    intro state auth request trace response gated returns refuses
    obtain ⟨now, later, refusal, rfl, refused⟩ := refuses
    rcases follows_proxyFallback gated (returns_iff_follows.mp returns) with nothing |
      ⟨now', later', same, ⟨refusal', refused', -, ended⟩ | ⟨subject, verified, -⟩⟩
    · cases nothing
    · injection ended with ended
      rw [ended]
      exact refusal_of_checkBearer json refused'
    · cases same
      rw [refused] at verified
      cases verified
  rw [answered gated returns refuses, answered gated' returns' refuses', alike]

/-- A request without a token to a gateway that has its route, and one to a gateway
without any. -/
theorem refused_callers_see_alike_without_tokens :
    ∃ response response',
      (proxyFallback plainUrls (crmState.withAuth OwnKeys.demoGateway.auth) Json.Text.flatCodec
        crmRequest).Returns [⟨.unixNow, 0⟩] response ∧
      (proxyFallback plainUrls ((ProxyState.new []).withAuth OwnKeys.demoGateway.auth)
        Json.Text.flatCodec { crmRequest with path := "/admin/keys".toList }).Returns
          [⟨.unixNow, 5⟩] response' ∧ response = response' := by
  have first : (proxyFallback plainUrls (crmState.withAuth OwnKeys.demoGateway.auth)
      Json.Text.flatCodec crmRequest).Returns [⟨.unixNow, 0⟩] missingTokenResponse :=
    ⟨0, [], rfl, rfl, rfl⟩
  have second : (proxyFallback plainUrls ((ProxyState.new []).withAuth OwnKeys.demoGateway.auth)
      Json.Text.flatCodec { crmRequest with path := "/admin/keys".toList }).Returns
        [⟨.unixNow, 5⟩] missingTokenResponse :=
    ⟨5, [], rfl, rfl, rfl⟩
  exact ⟨_, _, first, second, refused_callers_see_alike Json.Text.flatCodec plainUrls
    (crmState.withAuth OwnKeys.demoGateway.auth) ((ProxyState.new []).withAuth
      OwnKeys.demoGateway.auth) _ _ rfl rfl crmRequest _ _ _ _ _ first second
    ⟨0, [], missingTokenResponse, rfl, rfl⟩ ⟨5, [], missingTokenResponse, rfl, rfl⟩ rfl⟩

end Ratewall.Router
