import Ratewall.Router.Stages

/-! Owns what one admitted request comes to on the wire. `forward` calls `send` once, with
the client's method and body, and copies what `send` returns. The client that `new` builds
follows redirects, so one `send` is one exchange only while the backend does not ask for
more, and what is copied is the response at the end of the chain. -/

namespace Ratewall.Router

open Ratewall.Rust
open Ratewall.Foundation
open Ratewall.Foundation.Program
open Ratewall.Config
open Ratewall.Circuit
open Ratewall.Http
open Ratewall.Auth
open Ratewall.RateLimit

/-- The request was sent once, with the bytes that were collected, and its outcome was
concluded. -/
def SentOnce (urls : UrlCrate) {scheme : Ed25519} (state : ProxyState scheme)
    (backend suffix : Text) (request : Request) (trace : Trace) (response : Response) : Prop :=
  ∃ pfx breaker timer bodyBytes url hops last,
    request.body.toBytes bodyLimit = .ok bodyBytes ∧
    sends trace = [(outboundRequest urls state backend suffix request bodyBytes, hops)] ∧
    urls.parse (target backend suffix request) = some url ∧
    (conclude pfx breaker timer (ending urls url hops).result).Returns last response

section

variable {urls : UrlCrate} {scheme : Ed25519} {state : ProxyState scheme}
  {backend pfx suffix : Text} {request : Request} {trace : Trace} {response : Response}
  {breaker : Option CircuitBreaker}

theorem SentOnce.append_quiet {quiet : Trace} (noSend : sends quiet = [])
    (sent : SentOnce urls state backend suffix request trace response) :
    SentOnce urls state backend suffix request (quiet ++ trace) response := by
  obtain ⟨pfx, breaker, timer, bodyBytes, url, hops, last, collected, once, rest⟩ := sent
  refine ⟨pfx, breaker, timer, bodyBytes, url, hops, last, collected, ?_, rest⟩
  rw [sends_append, noSend, once]
  rfl

private theorem exchange_sent
    (returns : (exchange urls state pfx breaker backend suffix request).Returns trace response) :
    sends trace = [] ∨ SentOnce urls state backend suffix request trace response := by
  unfold exchange at returns
  obtain ⟨collected, rest, _, rfl, isCollect, returns⟩ := returns_bind_iff.mp returns
  rw [returns_perform_iff.mp isCollect]
  split at returns
  next =>
    obtain ⟨rfl, -⟩ := returns
    exact Or.inl rfl
  next bodyBytes whole =>
    obtain ⟨started, rest, timer, rfl, starting, returns⟩ := returns_bind_iff.mp returns
    obtain ⟨wired, rest, sent, rfl, sending, returns⟩ := returns_bind_iff.mp returns
    have noSend := (startTimer_returns starting).1
    have noSend' := (conclude_returns returns).1
    rcases send_returns sending with ⟨rfl, rfl⟩ | ⟨url, hops, rfl, parsed, rfl⟩
    · left
      rw [sends_append, sends_append, sends_append, noSend, noSend']
      rfl
    · right
      apply SentOnce.append_quiet rfl
      apply SentOnce.append_quiet noSend
      refine ⟨pfx, breaker, timer, bodyBytes, url, hops, rest, whole, ?_, parsed, returns⟩
      rw [sends_append, noSend']
      rfl

private theorem forward_sent
    (returns : (forward urls state pfx suffix request).Returns trace response) :
    sends trace = [] ∨ ∃ backend, state.backendFor pfx = some backend ∧
      SentOnce urls state backend suffix request trace response := by
  unfold forward at returns
  split at returns
  next =>
    obtain ⟨rfl, -⟩ := returns
    exact Or.inl rfl
  next backend known =>
    split at returns
    next =>
      rcases exchange_sent returns with quiet | sent
      · exact Or.inl quiet
      · exact Or.inr ⟨backend, known, sent⟩
    next breaker _ =>
      obtain ⟨asked, rest, admission, rfl, isAdmit, returns⟩ := returns_bind_iff.mp returns
      rw [returns_perform_iff.mp isAdmit]
      cases admission with
      | call =>
          rcases exchange_sent returns with quiet | sent
          · exact Or.inl quiet
          · exact Or.inr ⟨backend, known, SentOnce.append_quiet rfl sent⟩
      | shortCircuit =>
          left
          obtain ⟨counted, last, _, rfl, counting, returns⟩ := returns_bind_iff.mp returns
          obtain ⟨rfl, -⟩ := returns
          show sends (counted ++ []) = []
          rw [sends_append, countCircuitOpen_returns counting]
          rfl

private theorem countRateLimited_returns {result : Unit}
    (returns : (countRateLimited state pfx).Returns trace result) : sends trace = [] := by
  unfold countRateLimited at returns
  split at returns
  next =>
    rw [returns_perform_iff.mp returns]
    rfl
  next =>
    obtain ⟨rfl, -⟩ := returns
    rfl

/-- The backend that the path selects was sent the request, if anything was sent. -/
def SentToRoute (urls : UrlCrate) {scheme : Ed25519} (state : ProxyState scheme)
    (request : Request) (trace : Trace) (response : Response) : Prop :=
  ∃ backend, state.backendFor (splitPath request.path).1 = some backend ∧
    SentOnce urls state backend (splitPath request.path).2 request trace response

theorem SentToRoute.append_quiet {quiet : Trace} (noSend : sends quiet = [])
    (sent : SentToRoute urls state request trace response) :
    SentToRoute urls state request (quiet ++ trace) response := by
  obtain ⟨backend, known, once⟩ := sent
  exact ⟨backend, known, once.append_quiet noSend⟩

private theorem rateLimit_sent {subject : Option Text}
    (returns : (rateLimit urls state subject request).Returns trace response) :
    sends trace = [] ∨ SentToRoute urls state request trace response := by
  have routed : ∀ {trace}, (route urls state request).Returns trace response →
      sends trace = [] ∨ SentToRoute urls state request trace response := by
    intro trace returns
    unfold route at returns
    cases bare : (splitPath request.path).1.isEmpty with
    | true =>
        simp only [bare, if_true] at returns
        obtain ⟨rfl, -⟩ := returns
        exact Or.inl rfl
    | false =>
        simp only [bare, Bool.false_eq_true, if_false] at returns
        exact forward_sent returns
  unfold rateLimit at returns
  split at returns
  next => exact routed returns
  next limiter _ =>
    obtain ⟨asked, rest, decision, rfl, isDecide, returns⟩ := returns_bind_iff.mp returns
    rw [returns_perform_iff.mp isDecide]
    cases decision with
    | limit retryAfter =>
        left
        obtain ⟨counted, last, _, rfl, counting, returns⟩ := returns_bind_iff.mp returns
        obtain ⟨rfl, -⟩ := returns
        show sends (counted ++ []) = []
        rw [sends_append, countRateLimited_returns counting]
        rfl
    | allow =>
        rcases routed returns with quiet | sent
        · exact Or.inl quiet
        · exact Or.inr (SentToRoute.append_quiet rfl sent)
    | opened =>
        rcases routed returns with quiet | sent
        · exact Or.inl quiet
        · exact Or.inr (SentToRoute.append_quiet rfl sent)

private theorem proxyFallback_sent {json : Json.Codec}
    (returns : (proxyFallback urls state json request).Returns trace response) :
    sends trace = [] ∨ SentToRoute urls state request trace response := by
  unfold proxyFallback at returns
  split at returns
  next => exact rateLimit_sent returns
  next auth _ =>
    obtain ⟨asked, rest, now, rfl, isNow, returns⟩ := returns_bind_iff.mp returns
    rw [returns_perform_iff.mp isNow]
    split at returns
    next subject _ =>
      rcases rateLimit_sent returns with quiet | sent
      · exact Or.inl quiet
      · exact Or.inr (SentToRoute.append_quiet rfl sent)
    next =>
      obtain ⟨rfl, -⟩ := returns
      exact Or.inl rfl

/-! ### What the client gets -/

/-- The response has the status and the end-to-end headers of the one on the wire. -/
structure Relays (wire : WireResponse) (response : Response) : Prop where
  status : response.status = wire.status
  headers : response.headers.fields =
    wire.headers.fields.filter fun field => !isHopByHopName field.1.text

private theorem conclude_relays {timer : Option RequestTimer} {wire : WireResponse}
    (returns : (conclude pfx breaker timer (.ok wire)).Returns trace response) :
    Relays wire response := by
  refine ⟨(conclude_returns returns).2.2.1, ?_⟩
  obtain ⟨_, _, _, -, -, delivered⟩ := returns_bind_iff.mp returns
  exact deliver_returns_headers delivered

/-- One exchange, at the configured place and with the client's method and body, whose
response the client gets. -/
structure RelayedAsIs (urls : UrlCrate) (url : urls.Url) (request : Request)
    (bodyBytes : List UInt8) (made : List (WireRequest urls)) (first : WireResponse)
    (response : Response) : Prop where
  once : made = [⟨url, request.method, bodyBytes⟩]
  relays : Relays first response

end

/-- The requests that an outbound request comes to. -/
def onWire (urls : UrlCrate) (url : urls.Url) (outbound : Outbound) (hops : Nat → Hop) :
    List (WireRequest urls) :=
  exchanges urls hops maxRedirects 0 ⟨url, outbound.method, outbound.body⟩

/-- Whatever the backend asks for, the client gets the response to the last of the
requests on the wire, or the gateway's own 502. -/
theorem relays_last_exchange (json : Json.Codec) (urls : UrlCrate) {scheme : Ed25519}
    (state : ProxyState scheme) (request : Request) (trace : Trace) (response : Response)
    (returns : (proxyFallback urls state json request).Returns trace response)
    (outbound : Outbound) (hops : Nat → Hop) (sent : (outbound, hops) ∈ sends trace) :
    ∃ url, urls.parse outbound.target = some url ∧
      ((∃ last wire, (onWire urls url outbound hops).getLast? = some last ∧
          ending urls url hops = .answered last.url wire ∧ Relays wire response) ∨
        ∃ pfx, response = unreachable pfx) := by
  rcases proxyFallback_sent returns with quiet | ⟨backend, known, settled⟩
  · rw [quiet] at sent
    cases sent
  · obtain ⟨pfx, breaker, timer, bodyBytes, url, hops', _, whole, once, parsed, concluded⟩ :=
      settled
    rw [once, List.mem_singleton] at sent
    obtain ⟨rfl, rfl⟩ := Prod.mk.inj sent
    refine ⟨url, parsed, ?_⟩
    cases ended : ending urls url hops with
    | answered place wire =>
        rw [ended] at concluded
        obtain ⟨last, found, same⟩ := @getLast?_exchanges urls hops maxRedirects 0
          ⟨url, _, _⟩ place (Or.inr ⟨wire, ended⟩)
        exact Or.inl ⟨last, wire, found, same ▸ rfl, conclude_relays concluded⟩
    | unsent place =>
        rw [ended] at concluded
        exact Or.inr ⟨pfx, (conclude_returns concluded).2.2⟩
    | unanswered place =>
        rw [ended] at concluded
        exact Or.inr ⟨pfx, (conclude_returns concluded).2.2⟩
    | unreadable place =>
        rw [ended] at concluded
        exact Or.inr ⟨pfx, (conclude_returns concluded).2.2⟩
    | tooManyRedirects =>
        rw [ended] at concluded
        exact Or.inr ⟨pfx, (conclude_returns concluded).2.2⟩

/-- An admitted request whose backend answers is one exchange, relayed as it is, exactly
when the response leads nowhere else: it is none of 301, 302, 303, 307, 308, or it has no
`Location` that makes a URL. -/
theorem relayed_as_is_iff_not_redirected (json : Json.Codec) (urls : UrlCrate) {scheme : Ed25519}
    (state : ProxyState scheme) (request : Request) (trace : Trace) (response : Response)
    (returns : (proxyFallback urls state json request).Returns trace response)
    (outbound : Outbound) (hops : Nat → Hop) (sent : (outbound, hops) ∈ sends trace)
    (first : WireResponse) (answered : hops 0 = .answered first) :
    ∃ backend url bodyBytes, state.backendFor (splitPath request.path).1 = some backend ∧
      urls.parse (target backend (splitPath request.path).2 request) = some url ∧
      request.body.toBytes bodyLimit = .ok bodyBytes ∧ sends trace = [(outbound, hops)] ∧
      (RelayedAsIs urls url request bodyBytes (onWire urls url outbound hops) first response ↔
        redirectTarget urls url first = none) := by
  rcases proxyFallback_sent returns with quiet | ⟨backend, known, settled⟩
  · rw [quiet] at sent
    cases sent
  · obtain ⟨pfx, breaker, timer, bodyBytes, url, hops', last, whole, once, parsed, concluded⟩ :=
      settled
    rw [once, List.mem_singleton] at sent
    obtain ⟨rfl, rfl⟩ := Prod.mk.inj sent
    refine ⟨backend, url, bodyBytes, known, parsed, whole, once, ?_⟩
    have method : (outboundRequest urls state backend (splitPath request.path).2 request
        bodyBytes).method = request.method := by
      show (Method.fromBytes (asBytes request.method.text)).getD .get = request.method
      rw [Method.fromBytes_asBytes, Option.getD_some]
    have single : onWire urls url (outboundRequest urls state backend (splitPath request.path).2 request
        bodyBytes) hops = [⟨url, request.method, bodyBytes⟩] ↔
        redirectTarget urls url first = none := by
      unfold onWire
      rw [method]
      exact exchanges_eq_singleton_iff answered
    constructor
    · rintro ⟨exchanged, -⟩
      exact single.mp exchanged
    · intro stays
      refine ⟨single.mpr stays, ?_⟩
      rw [ending_of_not_redirected answered stays] at concluded
      exact conclude_relays concluded

private theorem returns_crmTrace (transfer : Transfer) :
    (proxyFallback plainUrls crmState Json.Text.flatCodec crmRequest).Returns (crmTrace transfer)
      ⟨.ok, HeaderMap.empty, payloadOf (okResponse transfer)⟩ := forward_crmTrace transfer

theorem relayed_as_is_iff_not_redirected_on_ok :
    RelayedAsIs plainUrls ("crm:8000".toList, "/".toList) crmRequest []
      (onWire plainUrls ("crm:8000".toList, "/".toList) crmOutbound (crmHops .complete))
      (okResponse .complete) ⟨.ok, HeaderMap.empty, [104, 105]⟩ := by
  obtain ⟨backend, url, bodyBytes, known, parsed, whole, -, relayed⟩ :=
    relayed_as_is_iff_not_redirected Json.Text.flatCodec plainUrls crmState crmRequest
      (crmTrace .complete) _ (returns_crmTrace .complete) crmOutbound (crmHops .complete)
      List.mem_cons_self (okResponse .complete) rfl
  cases known
  cases parsed
  cases whole
  exact relayed.mpr rfl

/-! ### A backend that redirects -/

def elsewhere : HeaderValue := ⟨asBytes "http://elsewhere/x".toList, by decide⟩

def foundElsewhere : WireResponse where
  status := ⟨302, by decide⟩
  headers := headersOf [(HeaderName.location, elsewhere)]
  body := []
  transfer := .complete
  few := by decide

def redirectingHops : Nat → Hop
  | 0 => .answered foundElsewhere
  | _ => .answered (okResponse .complete)

def redirectedTrace : Trace :=
  [⟨.tryAdmit crmBreaker, .call⟩, ⟨.collect ⟨[], none⟩, ()⟩,
    ⟨.send crmOutbound, redirectingHops⟩, ⟨.record crmBreaker true, ()⟩, ⟨.readBody, ()⟩]

private theorem returns_redirectedTrace :
    (proxyFallback plainUrls crmState Json.Text.flatCodec crmRequest).Returns redirectedTrace
      ⟨.ok, HeaderMap.empty, [104, 105]⟩ :=
  ⟨.call, _, rfl, (), _, rfl, redirectingHops, _, rfl, (), _, rfl, (), _, rfl, rfl, rfl⟩

/-- The backend's `Location` names another host; the gateway asks there, and the client
gets that host's 200 in place of the backend's 302. -/
theorem redirect_is_followed :
    ¬ ∀ (request : Request) (trace : Trace) (response : Response),
      (proxyFallback plainUrls crmState Json.Text.flatCodec request).Returns trace response →
      ∀ outbound hops, (outbound, hops) ∈ sends trace →
      ∀ first, hops 0 = .answered first →
      ∀ url, plainUrls.parse outbound.target = some url →
      ∀ bodyBytes, request.body.toBytes bodyLimit = .ok bodyBytes →
        RelayedAsIs plainUrls url request bodyBytes (onWire plainUrls url outbound hops) first
          response := by
  intro always
  have relayed := always crmRequest redirectedTrace _ returns_redirectedTrace crmOutbound
    redirectingHops List.mem_cons_self foundElsewhere rfl ("crm:8000".toList, "/".toList)
    crmOutbound_parses [] rfl
  have asked : (onWire plainUrls ("crm:8000".toList, "/".toList) crmOutbound
      redirectingHops).length = 2 := by decide +kernel
  rw [relayed.once] at asked
  cases asked

end Ratewall.Router
