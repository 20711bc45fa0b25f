import Ratewall.Router.Discipline

/-! Owns what a request needs of its surroundings to be served: which calls it can
still be led to when every backend answers, and what the calls that it can make
at all say about it. A request that can record at all has a body that can be
buffered, and one that can record a success can be led there with a backend that
answers. -/

namespace Ratewall.Router

open Ratewall.Rust
open Ratewall.Foundation
open Ratewall.Foundation.Program
open Ratewall.Circuit
open Ratewall.Http
open Ratewall.Auth

def IsSuccess : Op → Prop
  | .record _ success => success = true
  | _ => False

private theorem Quiet.not_isSuccess {op : Op} (quiet : Quiet op) : ¬ IsSuccess op := by
  intro isSuccess
  cases op with
  | record breaker success => cases quiet
  | _ => cases isSuccess

def AtRecord (wanted : Bool → Prop) (handler : Handler) : Prop :=
  ∃ breaker success next, handler = .call (.record breaker success) next ∧ wanted success

def AtTryAdmit (onward : Handler → Prop) (handler : Handler) : Prop :=
  ∃ breaker next, handler = .call (.tryAdmit breaker) next ∧ onward (next .call)

section

variable (urls : UrlCrate)

/-- The exchange ends with a complete response. -/
def Answers (hops : Nat → Hop) (url : urls.Url) : Prop :=
  ∃ last response, ending urls url hops = .answered last response ∧ response.transfer = .complete

/-- What well-behaved surroundings answer to the calls that are not the breaker's. -/
def Given : (op : Op) → Answer op → Prop
  | .tryAdmit _, _ => False
  | .record _ _, _ => False
  | .send outbound, hops =>
      ∀ url, urls.parse outbound.target = some url → Answers urls hops url
  | _, _ => True

/-- The handler can still be led to a record, of an outcome that is wanted. -/
def Records (wanted : Bool → Prop) : Handler → Prop := Reaches (Given urls) (AtRecord wanted)

/-- The handler can still be led to its `try_admit`, and on from there when it is
admitted. -/
def Asks (onward : Handler → Prop) : Handler → Prop := Reaches (Given urls) (AtTryAdmit onward)

/-- Admitted, the request can end with a recorded success. -/
abbrev Serves : Handler → Prop := Asks urls (Records urls fun success => success = true)

end

section

variable {urls : UrlCrate}

theorem Given.quiet {op : Op} {answer : Answer op} (given : Given urls op answer) : Quiet op := by
  cases op with
  | tryAdmit breaker => cases given
  | record breaker success => cases given
  | _ => exact trivial

/-- A course that every exchange can take: the backend answers 200 at once. -/
def answering : Nat → Hop := fun _ =>
  .answered ⟨.ok, HeaderMap.empty, [], .complete, Nat.zero_le _⟩

theorem answers_answering (url : urls.Url) : Answers urls answering url := ⟨url, _, rfl, rfl⟩

/-- Every quiet call has an answer that well-behaved surroundings can give. -/
theorem exists_given {op : Op} (quiet : Quiet op) : ∃ answer, Given urls op answer := by
  cases op with
  | tryAdmit breaker => cases quiet
  | record breaker success => cases quiet
  | send outbound => exact ⟨answering, fun url _ => answers_answering url⟩
  | unixNow => exact ⟨0, trivial⟩
  | decide limiter key => exact ⟨.allow, trivial⟩
  | instantNow => exact ⟨0, trivial⟩
  | _ => exact ⟨(), trivial⟩

/-- An admitted request that is certain to record can be led there. -/
theorem records_of_inevitable {breaker : Option CircuitBreaker} {buffers : Prop}
    {handler : Handler} (orderly : Orderly breaker buffers .admitted handler)
    (inevitable : Inevitable IsRecord handler) : Records urls (fun _ => True) handler := by
  induction handler with
  | done response => cases inevitable
  | call op next inductionHypothesis =>
      by_cases quiet : Quiet op
      · obtain ⟨answer, given⟩ := @exists_given urls _ quiet
        refine Or.inr ⟨answer, given, inductionHypothesis answer ?_ ?_⟩
        · have rest := orderly.2 answer
          rw [quiet.after] at rest
          exact rest
        · rcases inevitable with isRecord | later
          · exact absurd isRecord quiet.not_isRecord
          · exact later answer
      · cases op with
        | tryAdmit asked => cases (orderly.here.asksOnce asked next rfl).1
        | record told success => exact Or.inl ⟨told, success, next, rfl, trivial⟩
        | _ => exact absurd trivial quiet

end

/-! ### What the calls of a handler say about its request -/

section

variable (urls : UrlCrate) {scheme : Ed25519} (state : ProxyState scheme)

private theorem quiet_deliver (timer : Option RequestTimer) (response : WireResponse) :
    All Quiet (deliver timer response) := by
  unfold deliver
  apply All.bind (quiet_ask .readBody trivial)
  intro _
  apply All.bind (quiet_finishTimer timer _)
  intro _
  split
  next => exact trivial
  next => exact trivial

private theorem quiet_unreachable (pfx : Text) (timer : Option RequestTimer) :
    All Quiet (finishTimer timer "5xx".toList >>= fun _ => pure (unreachable pfx)) := by
  apply All.bind (quiet_finishTimer timer _)
  intro _
  exact trivial

private theorem quiet_conclude_unguarded (pfx : Text) (timer : Option RequestTimer)
    (sent : Except SendError WireResponse) : All Quiet (conclude pfx none timer sent) := by
  cases sent with
  | ok response => exact quiet_deliver timer response
  | error err => exact quiet_unreachable pfx timer

private theorem quiet_exchange_unguarded (pfx backend suffix : Text) (request : Request) :
    All Quiet (exchange urls state pfx none backend suffix request) := by
  apply All.bind (quiet_ask (.collect request.body) trivial)
  intro _
  split
  next => exact trivial
  next =>
    apply All.bind quiet_startTimer
    intro timer
    apply All.bind (quiet_send urls _)
    intro sent
    exact quiet_conclude_unguarded pfx timer sent

private theorem quiet_refused (pfx : Text) :
    All Quiet (countCircuitOpen state pfx >>= fun _ => pure (circuitOpen pfx)) := by
  apply All.bind quiet_countCircuitOpen
  intro _
  exact trivial

private theorem quiet_limited (pfx : Text) (retryAfter : UInt64) :
    All Quiet (countRateLimited state pfx >>= fun _ => pure (rateLimited retryAfter)) := by
  apply All.bind quiet_countRateLimited
  intro _
  exact trivial

/-- A property of all quiet calls, and of every call of the exchange with its own
breaker, is one of every call of the handler. -/
theorem all_proxyFallback {property : Op → Prop} (json : Json.Codec) (request : Request)
    (quiet : ∀ op, Quiet op → property op) (asks : ∀ breaker, property (.tryAdmit breaker))
    (exchanges : ∀ pfx breaker backend suffix,
      All property (exchange urls state pfx (some breaker) backend suffix request)) :
    All property (proxyFallback urls state json request) := by
  have routed : All property (route urls state request) := by
    unfold route
    split
    next pfx rest _ =>
      split
      next => exact trivial
      next =>
        unfold forward
        split
        next => exact trivial
        next backend _ =>
          split
          next => exact (quiet_exchange_unguarded urls state pfx backend rest request).mono quiet
          next breaker _ =>
            refine ⟨asks breaker, ?_⟩
            intro admission
            cases admission with
            | call => exact exchanges pfx breaker backend rest
            | shortCircuit => exact (quiet_refused state pfx).mono quiet
  have limited : ∀ subject, All property (rateLimit urls state subject request) := by
    intro subject
    unfold rateLimit
    split
    next => exact routed
    next limiter _ =>
      refine ⟨quiet _ trivial, ?_⟩
      intro decision
      cases decision with
      | limit retryAfter => exact (quiet_limited state _ retryAfter).mono quiet
      | allow => exact routed
      | opened => exact routed
  unfold proxyFallback
  split
  next => exact limited none
  next auth _ =>
    apply All.bind ((quiet_ask .unixNow trivial).mono quiet)
    intro now
    split
    next subject _ => exact limited (some subject)
    next => exact trivial

/-- Whoever records has buffered its body. -/
theorem records_only_buffered (json : Json.Codec) (request : Request) :
    All (fun op => IsRecord op → Buffers request) (proxyFallback urls state json request) := by
  apply all_proxyFallback
  · intro op quiet isRecord
    exact absurd isRecord quiet.not_isRecord
  · intro breaker isRecord
    cases isRecord
  · intro pfx breaker backend suffix
    by_cases buffers : Buffers request
    · exact All.of_forall (fun _ _ => buffers) _
    · have collects : All (fun op => IsRecord op → Buffers request) (ask (.collect request.body)) :=
        ⟨fun isRecord => absurd isRecord id, fun _ => trivial⟩
      apply All.bind collects
      intro _
      split
      next => exact trivial
      next bytes buffered => exact absurd ⟨bytes, buffered⟩ buffers

/-- Whoever can record a success would do so with a backend that answers. -/
theorem attains_exchange (pfx : Text) (breaker : CircuitBreaker) (backend suffix : Text)
    (request : Request) :
    Attains IsSuccess (Given urls) (AtRecord fun success => success = true)
      (exchange urls state pfx (some breaker) backend suffix request) := by
  have sends : ∀ bodyBytes timer, Attains IsSuccess (Given urls)
      (AtRecord fun success => success = true)
      (send urls (outboundRequest urls state backend suffix request bodyBytes) >>= fun sent =>
        conclude pfx (some breaker) timer sent) := by
    intro bodyBytes timer
    unfold send
    split
    next =>
      apply Attains.of_never
      refine ⟨Bool.false_ne_true, ?_⟩
      intro _
      exact (quiet_unreachable pfx timer).mono fun _ => Quiet.not_isSuccess
    next url _ =>
      apply Attains.of_reaches
      exact Or.inr ⟨answering, fun url _ => answers_answering url, Or.inl ⟨breaker, true, _, rfl, rfl⟩⟩
  apply Attains.perform_bind (fun isSuccess => isSuccess) fun _ => trivial
  intro _
  split
  next => exact trivial
  next bodyBytes _ =>
    unfold startTimer
    split
    next =>
      apply Attains.call (fun isSuccess => isSuccess) fun _ => trivial
      intro started
      exact sends bodyBytes _
    next => exact sends bodyBytes none

private theorem attains_route (request : Request) :
    Attains IsSuccess (Given urls) (AtTryAdmit (Records urls fun success => success = true))
      (route urls state request) := by
  unfold route
  split
  next pfx rest _ =>
    split
    next => exact trivial
    next =>
      unfold forward
      split
      next => exact trivial
      next backend _ =>
        split
        next =>
          apply Attains.of_never
          exact (quiet_exchange_unguarded urls state pfx backend rest request).mono
            fun _ => Quiet.not_isSuccess
        next breaker _ =>
          refine ⟨fun isSuccess => absurd isSuccess id, ?_⟩
          intro admission
          cases admission with
          | call =>
              apply (attains_exchange urls state pfx breaker backend rest request).mono
              intro op reports isSuccess
              exact Or.inl ⟨breaker, _, rfl, reports isSuccess⟩
          | shortCircuit =>
              apply (quiet_refused state pfx).mono
              intro op quiet isSuccess
              exact absurd isSuccess quiet.not_isSuccess

private theorem attains_rateLimit (subject : Option Text) (request : Request) :
    Attains IsSuccess (Given urls) (AtTryAdmit (Records urls fun success => success = true))
      (rateLimit urls state subject request) := by
  unfold rateLimit
  split
  next => exact attains_route urls state request
  next limiter _ =>
    apply Attains.call (fun isSuccess => isSuccess) fun _ => trivial
    intro decision
    cases decision with
    | limit retryAfter =>
        apply Attains.of_never
        exact (quiet_limited state _ retryAfter).mono fun _ => Quiet.not_isSuccess
    | allow => exact attains_route urls state request
    | opened => exact attains_route urls state request

theorem succeeds_only_servable (json : Json.Codec) (request : Request) :
    All (fun op => IsSuccess op → Serves urls (proxyFallback urls state json request))
      (proxyFallback urls state json request) := by
  show Attains IsSuccess (Given urls) (AtTryAdmit (Records urls fun success => success = true)) _
  unfold proxyFallback
  split
  next => exact attains_rateLimit urls state none request
  next auth _ =>
    apply Attains.perform_bind (fun isSuccess => isSuccess) fun _ => trivial
    intro now
    split
    next subject _ => exact attains_rateLimit urls state (some subject) request
    next => exact trivial

end

end Ratewall.Router
