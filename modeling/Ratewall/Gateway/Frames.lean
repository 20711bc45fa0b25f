import Ratewall.Gateway.World
import Ratewall.Router.Stages

/-! Owns what a request that is turned away leaves untouched. A call of the handler
spares a part of the world when none of the actions that it comes down to changes
it, in whatever world they are taken: so nothing that other requests do in between
matters. Each exit of `proxy_fallback` spares what belongs to the stages after
it, and only a request that passed all of them contacts a backend. -/

namespace Ratewall.Gateway

open Ratewall.Rust
open Ratewall.Foundation
open Ratewall.Foundation.Program
open Ratewall.Config
open Ratewall.Circuit
open Ratewall.Http
open Ratewall.Auth
open Ratewall.RateLimit
open Ratewall.Metrics
open Ratewall.Router

variable {α : Type}

/-- The action, so answered, does not change what is seen of the world. -/
def Keeps (view : World → α) (taken : Sigma Outcome) : Prop :=
  ∀ (world : World) (id : Nat) (offer : Outcome taken.1),
    (world.act id taken.1 offer).1 = taken.2 → view (world.act id taken.1 offer).2 = view world

/-- Nothing that the call, so answered, comes down to changes what is seen. -/
def Spares (view : World → α) (made : Sigma Answer) : Prop :=
  ∀ block, (meaning made.1).Returns block made.2 → ∀ taken ∈ block, Keeps view taken

/-- Whatever it is answered, the action does not change what is seen. -/
def Steady (view : World → α) (action : Action) : Prop :=
  ∀ (world : World) (id : Nat) (offer : Outcome action),
    view (world.act id action offer).2 = view world

/-! ### Parts of the world -/

def cellsOf (world : World) : Cell → Inner := world.shared.cells

def storeOf (world : World) : Redis.Store := world.server.store

def registryOf (world : World) : Registry := world.registry

/-- The registry apart from the rate-limited total of one label. -/
def apartFromLimited (pfx : Text) (world : World) :
    (Text → PrefixCounters) × Std.TreeMap Text Histogram × Std.TreeMap Text Nat ×
      Std.TreeMap Text Nat :=
  (fun label =>
      if label = pfx then { world.registry.counters label with rateLimitedTotal := 0 }
      else world.registry.counters label,
    world.registry.latencies, world.registry.statusTotals, world.registry.breakerState)

/-! ### What calls spare -/

private theorem spares_of_all {view : World → α} {op : Op} (all : All (Steady view) (meaning op))
    (answer : Answer op) : Spares view ⟨op, answer⟩ := by
  intro block returns taken member world id offer _
  exact all.of_follows (returns_iff_follows.mp returns) taken member world id offer

private theorem registry_keeps (world : World) (id : Nat) (op : RegistryOp)
    (offer : RegistryAnswer op) :
    (world.act id (.registry op) offer).2.shared = world.shared ∧
      (world.act id (.registry op) offer).2.server = world.server := by
  cases op <;> exact ⟨rfl, rfl⟩

private theorem spares_unixNow (view : World → α) (now : UInt64) : Spares view ⟨.unixNow, now⟩ := by
  apply @spares_of_all _ view .unixNow
  exact ⟨fun _ _ _ => rfl, fun _ => trivial⟩

/-- A check of the limiter changes nothing but Redis. -/
theorem spares_decide {view : World → α} {limiter : RateLimiter} {key : Text}
    (steady : ∀ op, Steady view (.redis op)) (decision : Decision) :
    Spares view ⟨.decide limiter key, decision⟩ := by
  apply @spares_of_all _ view (.decide limiter key)
  apply all_onRedis
  exact All.of_forall steady _

/-- In Redis, it changes only counters of its own key. -/
theorem spares_decide_store {limiter : RateLimiter} {key other : Text}
    (foreign : ∀ window, other ≠ limiter.windowKey key window) (decision : Decision) :
    Spares (fun world => storeOf world other) ⟨.decide limiter key, decision⟩ := by
  apply @spares_of_all _ (fun world => storeOf world other) (.decide limiter key)
  apply all_onRedis
  refine ⟨fun _ _ _ => rfl, ?_⟩
  intro now
  refine ⟨fun _ _ _ => rfl, ?_⟩
  intro connected
  cases connected with
  | false => exact trivial
  | true =>
      refine ⟨?_, fun _ => trivial⟩
      intro world id offer
      exact Function.update_of_ne (foreign _) _ _

private theorem spares_incRateLimited {view : World → α} (steady : ∀ op, Steady view (.registry op))
    (pfx : Text) : Spares view ⟨.incRateLimited pfx, ()⟩ := by
  apply @spares_of_all _ view (.incRateLimited pfx)
  apply all_onRegistry
  exact All.of_forall steady _

private theorem spares_incCircuitOpen {view : World → α} (steady : ∀ op, Steady view (.registry op))
    (pfx : Text) : Spares view ⟨.incCircuitOpen pfx, ()⟩ := by
  apply @spares_of_all _ view (.incCircuitOpen pfx)
  apply all_onRegistry
  exact All.of_forall steady _

private theorem steady_cells_redis (op : CounterOp) : Steady cellsOf (.redis op) := fun _ _ _ => rfl

private theorem steady_registry_redis (op : CounterOp) :
    Steady registryOf (.redis op) := fun _ _ _ => rfl

private theorem steady_cells_registry (op : RegistryOp) : Steady cellsOf (.registry op) := by
  intro world id offer
  exact congrArg Shared.cells (registry_keeps world id op offer).1

private theorem steady_store_registry (key : Text) (op : RegistryOp) :
    Steady (fun world => storeOf world key) (.registry op) := by
  intro world id offer
  exact congrFun (congrArg Server.store (registry_keeps world id op offer).2) key

/-- A breaker that turns a request away does not change. -/
theorem spares_shortCircuit (breaker : CircuitBreaker) :
    Spares cellsOf ⟨.tryAdmit breaker, .shortCircuit⟩ := by
  intro block returns taken member
  obtain ⟨answer, later, rfl, rfl, rfl⟩ := returns
  obtain rfl := List.mem_singleton.mp member
  intro world id offer answered
  rcases tryAdmit_cases world.shared id breaker with ⟨-, result⟩ | ⟨-, -, result⟩ | ⟨-, result⟩
  · have admitted : Admit.call = .shortCircuit := (congrArg Prod.fst result).symm.trans answered
    cases admitted
  · have admitted : Admit.call = .shortCircuit := (congrArg Prod.fst result).symm.trans answered
    cases admitted
  · exact congrArg (fun after => after.2.cells) result

/-- Counting a rejection changes the rate-limited total of its label. -/
theorem spares_apartFromLimited (pfx : Text) :
    Spares (apartFromLimited pfx) ⟨.incRateLimited pfx, ()⟩ := by
  apply @spares_of_all _ (apartFromLimited pfx) (.incRateLimited pfx)
  apply all_onRegistry
  refine ⟨?_, fun _ => ⟨?_, fun _ => trivial⟩⟩
  · intro world id offer
    have same := Registry.counters_countersFor world.registry pfx
    simp only [apartFromLimited, World.act, same]
    rfl
  · intro world id offer
    have added : (fun label =>
          if label = pfx then
            { (world.registry.after (.fetchAdd pfx .rateLimited)).counters label with
              rateLimitedTotal := 0 }
          else (world.registry.after (.fetchAdd pfx .rateLimited)).counters label) =
        fun label =>
          if label = pfx then { world.registry.counters label with rateLimitedTotal := 0 }
          else world.registry.counters label := by
      funext label
      rw [Registry.counters_fetchAdd]
      by_cases here : label = pfx
      · by_cases present : pfx ∈ world.registry.perPrefix
        · simp [here, present, PrefixCounters.add]
        · simp [here, present]
      · simp [here, Ne.symm here]
    exact Prod.ext added rfl

/-! ### The exits -/

section

variable {json : Json.Codec} {scheme : Ed25519} {state : ProxyState scheme}
  {auth : AuthState scheme} {limiter : RateLimiter} {request : Request} {trace : Trace}
  {rest : Handler}

/-- The calls up to the decision of the limiter change nothing but Redis. -/
theorem spares_decided {view : World → α} (steady : ∀ op, Steady view (.redis op)) (now : UInt64)
    (subject : Text) (decision : Decision) :
    ∀ made ∈ decided limiter now subject decision, Spares view made := by
  intro made member
  simp only [decided, List.mem_cons, List.not_mem_nil, or_false] at member
  rcases member with rfl | rfl
  · exact spares_unixNow view now
  · exact spares_decide steady decision

private theorem steady_apartFromLimited_redis (pfx : Text) (op : CounterOp) :
    Steady (apartFromLimited pfx) (.redis op) := fun _ _ _ => rfl

private theorem verified_decided {now : UInt64} {subject : Text} {decision : Decision}
    (later : Trace) (verifies : checkBearer json auth request now = .ok subject) :
    Verified json auth request (decided limiter now subject decision ++ later) subject :=
  ⟨now, _, rfl, verifies⟩

private theorem spares_of_gateRefuses (course : Course json state auth limiter request trace rest)
    (refuses : GateRefuses json auth request trace) :
    sends trace = [] ∧ (∃ response, rest = .done response ∧ response.status = .unauthorized) ∧
      ∀ made ∈ trace, Spares storeOf made ∧ Spares cellsOf made ∧ Spares registryOf made := by
  obtain ⟨now, refusal, rfl, rfl, refused⟩ := course.of_gateRefuses refuses
  refine ⟨rfl, ⟨refusal, rfl, ?_⟩, ?_⟩
  · rw [refusal_of_checkBearer json refused]
    split <;> rfl
  · intro made member
    obtain rfl := List.mem_singleton.mp member
    exact ⟨spares_unixNow _ _, spares_unixNow _ _, spares_unixNow _ _⟩

/-- What a request that the limiter turned away can have called. -/
theorem mem_of_limiterRefuses (course : Course json state auth limiter request trace rest)
    (refuses : LimiterRefuses trace) :
    ∃ now subject retryAfter, checkBearer json auth request now = .ok subject ∧
      Verified json auth request trace subject ∧ sends trace = [] ∧
      (∀ response, rest = .done response → response = rateLimited retryAfter) ∧
      ∀ made ∈ trace, made ∈ decided limiter now subject (.limit retryAfter) ∨
        made = ⟨.incRateLimited (rejectedPrefix request.path), ()⟩ := by
  obtain ⟨now, subject, retryAfter, verifies, ⟨rfl, next, rfl⟩ | ⟨rfl, rfl⟩⟩ :=
    course.of_limiterRefuses refuses
  · refine ⟨now, subject, retryAfter, verifies, verified_decided [] verifies, rfl, ?_, ?_⟩
    · intro response same
      cases same
    · intro made member
      exact Or.inl member
  · refine ⟨now, subject, retryAfter, verifies, verified_decided _ verifies, rfl, ?_, ?_⟩
    · intro response same
      cases same
      rfl
    · intro made member
      rcases List.mem_append.mp member with here | last
      · exact Or.inl here
      · exact Or.inr (List.mem_singleton.mp last)

private theorem spares_of_limiterRefuses
    (course : Course json state auth limiter request trace rest) (refuses : LimiterRefuses trace) :
    sends trace = [] ∧ (∀ response, rest = .done response → response.status = .tooManyRequests) ∧
      (∃ subject, Verified json auth request trace subject ∧ ∀ made ∈ trace, ∀ key,
        (∀ window, key ≠ limiter.windowKey (limitKey (some subject) "unkeyed".toList) window) →
          Spares (fun world => storeOf world key) made) ∧
      ∀ made ∈ trace, Spares cellsOf made ∧
        Spares (apartFromLimited (rejectedPrefix request.path)) made := by
  obtain ⟨now, subject, retryAfter, verifies, verified, silent, ended, calls⟩ :=
    mem_of_limiterRefuses course refuses
  refine ⟨silent, ?_, ⟨subject, verified, ?_⟩, ?_⟩
  · intro response done
    rw [ended response done]
    rfl
  · intro made member key foreign
    rcases calls made member with here | rfl
    · simp only [decided, List.mem_cons, List.not_mem_nil, or_false] at here
      rcases here with rfl | rfl
      · exact spares_unixNow _ now
      · exact spares_decide_store foreign _
    · exact spares_incRateLimited (steady_store_registry key) _
  · intro made member
    rcases calls made member with here | rfl
    · exact ⟨spares_decided steady_cells_redis now subject _ made here,
        spares_decided (steady_apartFromLimited_redis _) now subject _ made here⟩
    · exact ⟨spares_incRateLimited steady_cells_registry _, spares_apartFromLimited _⟩

private theorem spares_of_routerRefuses (course : Course json state auth limiter request trace rest)
    (refuses : RouterRefuses state request trace) :
    sends trace = [] ∧ (∃ response, rest = .done response ∧ response.status = .notFound) ∧
      ∀ made ∈ trace, Spares cellsOf made ∧ Spares registryOf made := by
  obtain ⟨now, subject, decision, later, -, -, rfl, onward⟩ := course.of_limiterPasses refuses.1
  have unrouted : ∀ {backend : Text} {breaker : CircuitBreaker},
      ¬Routed state (splitPath request.path).1 backend breaker := by
    intro backend breaker routed
    rcases refuses.2 with empty | unknown
    · exact routed.nonempty empty
    · rw [routed.known] at unknown
      cases unknown
  cases onward with
  | @unrouted response unknown notFound =>
      refine ⟨rfl, ⟨response, rfl, notFound⟩, ?_⟩
      intro made member
      rw [List.append_nil] at member
      exact ⟨spares_decided steady_cells_redis now subject _ made member,
        spares_decided steady_registry_redis now subject _ made member⟩
  | routed known next => exact absurd known unrouted
  | shortCircuited known next => exact absurd known unrouted
  | shed known => exact absurd known unrouted
  | forwarded known forwards rest => exact absurd known unrouted

/-- What a request that a breaker turned away can have called since the limiter. -/
theorem mem_of_breakerRefuses (course : Course json state auth limiter request trace rest)
    (refuses : BreakerRefuses trace) :
    sends trace = [] ∧
      (∀ response, rest = .done response → response = circuitOpen (splitPath request.path).1) ∧
      ∃ now subject decision, ∀ made ∈ trace, made ∈ decided limiter now subject decision ∨
        (∃ breaker, made = ⟨.tryAdmit breaker, .shortCircuit⟩) ∨
        made = ⟨.incCircuitOpen (splitPath request.path).1, ()⟩ := by
  obtain ⟨breaker, asked⟩ := refuses
  obtain ⟨now, subject, decision, later, -, -, rfl, onward⟩ :=
    course.of_limiterPasses (course.of_tryAdmit asked)
  have askedLater : ⟨.tryAdmit breaker, .shortCircuit⟩ ∈ later := by
    rcases List.mem_append.mp asked with here | later
    · simp [decided] at here
    · exact later
  cases onward with
  | unrouted unknown notFound => simp at askedLater
  | routed known next => simp at askedLater
  | @shortCircuited backend breaker known next =>
      refine ⟨rfl, ?_, now, subject, decision, ?_⟩
      · intro response same
        cases same
      · intro made member
        rcases List.mem_append.mp member with here | last
        · exact Or.inl here
        · exact Or.inr (Or.inl ⟨breaker, List.mem_singleton.mp last⟩)
  | @shed backend breaker known =>
      refine ⟨rfl, ?_, now, subject, decision, ?_⟩
      · intro response same
        cases same
        rfl
      · intro made member
        simp only [List.mem_append, List.mem_cons, List.not_mem_nil, or_false] at member
        rcases member with here | same | same
        · exact Or.inl here
        · exact Or.inr (Or.inl ⟨breaker, same⟩)
        · exact Or.inr (Or.inr same)
  | forwarded known forwards rest =>
      rcases List.mem_cons.mp askedLater with same | member
      · cases same
      · exact absurd (forwards _ member) (by simp [Forwards])

private theorem spares_of_breakerRefuses
    (course : Course json state auth limiter request trace rest) (refuses : BreakerRefuses trace) :
    sends trace = [] ∧
      (∀ response, rest = .done response → response.status = .serviceUnavailable) ∧
      ∀ made ∈ trace, Spares cellsOf made := by
  obtain ⟨silent, ended, now, subject, decision, calls⟩ := mem_of_breakerRefuses course refuses
  refine ⟨silent, ?_, ?_⟩
  · intro response done
    rw [ended response done]
    rfl
  · intro made member
    rcases calls made member with here | ⟨breaker, rfl⟩ | rfl
    · exact spares_decided steady_cells_redis now subject decision made here
    · exact spares_shortCircuit breaker
    · exact spares_incCircuitOpen steady_cells_registry _

private theorem passed_of_sends (course : Course json state auth limiter request trace rest)
    (sent : sends trace ≠ []) :
    ∃ subject decision backend breaker, Verified json auth request trace subject ∧
      ⟨.decide limiter (limitKey (some subject) "unkeyed".toList), decision⟩ ∈ trace ∧
      (∀ retryAfter, decision ≠ .limit retryAfter) ∧
      state.backendFor (splitPath request.path).1 = some backend ∧
      state.breakerFor (splitPath request.path).1 = some breaker ∧
      ⟨.tryAdmit breaker, .call⟩ ∈ trace := by
  obtain ⟨now, subject, decision, backend, breaker, later, verifies, passes, known, rfl⟩ :=
    course.of_sends sent
  have asked : ⟨.decide limiter (limitKey (some subject) "unkeyed".toList), decision⟩ ∈
      decided limiter now subject decision := List.mem_cons_of_mem _ List.mem_cons_self
  exact ⟨subject, decision, backend, breaker, verified_decided _ verifies,
    List.mem_append_left _ asked, passes, known.known, known.guarded,
    List.mem_append_right _ List.mem_cons_self⟩

end

/-- Each stage that turns a request away leaves what belongs to later stages alone,
and a backend is contacted only by a request that passed them all. -/
theorem rejections_spare_later_stages (json : Json.Codec) (urls : UrlCrate) {scheme : Ed25519}
    (routes : List Route) (auth : AuthState scheme) (limiter : RateLimiter) (cfg : BreakerConfig)
    (timeoutSecs : UInt64) (request : Request) (trace : Trace) (rest : Handler)
    (follows : (proxyFallback urls (ProxyState.assembled routes auth limiter cfg timeoutSecs) json
      request).Follows trace rest) :
    (GateRefuses json auth request trace →
      sends trace = [] ∧ (∃ response, rest = .done response ∧ response.status = .unauthorized) ∧
      ∀ made ∈ trace, Spares storeOf made ∧ Spares cellsOf made ∧ Spares registryOf made) ∧
    (LimiterRefuses trace →
      sends trace = [] ∧ (∀ response, rest = .done response → response.status = .tooManyRequests) ∧
      (∃ subject, Verified json auth request trace subject ∧ ∀ made ∈ trace, ∀ key,
        (∀ window, key ≠ limiter.windowKey (limitKey (some subject) "unkeyed".toList) window) →
          Spares (fun world => storeOf world key) made) ∧
      ∀ made ∈ trace, Spares cellsOf made ∧
        Spares (apartFromLimited (rejectedPrefix request.path)) made) ∧
    (RouterRefuses (ProxyState.assembled routes auth limiter cfg timeoutSecs) request trace →
      sends trace = [] ∧ (∃ response, rest = .done response ∧ response.status = .notFound) ∧
      ∀ made ∈ trace, Spares cellsOf made ∧ Spares registryOf made) ∧
    (BreakerRefuses trace →
      sends trace = [] ∧ (∀ response, rest = .done response → response.status = .serviceUnavailable) ∧
      ∀ made ∈ trace, Spares cellsOf made) ∧
    (sends trace ≠ [] →
      ∃ subject decision backend breaker, Verified json auth request trace subject ∧
        ⟨.decide limiter (limitKey (some subject) "unkeyed".toList), decision⟩ ∈ trace ∧
        (∀ retryAfter, decision ≠ .limit retryAfter) ∧
        (ProxyState.assembled routes auth limiter cfg timeoutSecs).backendFor
          (splitPath request.path).1 = some backend ∧
        (ProxyState.assembled routes auth limiter cfg timeoutSecs).breakerFor
          (splitPath request.path).1 = some breaker ∧
        ⟨.tryAdmit breaker, .call⟩ ∈ trace) := by
  have course := course_of_follows routes auth limiter cfg timeoutSecs follows
  exact ⟨spares_of_gateRefuses course, spares_of_limiterRefuses course,
    spares_of_routerRefuses course, spares_of_breakerRefuses course, passed_of_sends course⟩

def demoState : ProxyState checksumScheme :=
  ProxyState.assembled crmRoutes OwnKeys.demoGateway.auth strictLimiter crmBreaker.cfg 30

/-- The demo request with its token, up to the limiter's answer. -/
def decidedTrace (decision : Decision) : Trace :=
  [⟨.unixNow, (1500 : UInt64)⟩,
    ⟨.decide strictLimiter (limitKey (some demoUsername) "unkeyed".toList), decision⟩]

def limitedTrace : Trace := decidedTrace (.limit 60) ++ [⟨.incRateLimited [], ()⟩]

def shedTrace : Trace :=
  decidedTrace .allow ++
    [⟨.tryAdmit crmBreaker, .shortCircuit⟩, ⟨.incCircuitOpen "crm".toList, ()⟩]

def demoOutbound : Outbound :=
  outboundRequest plainUrls demoState "http://crm:8000".toList "/".toList OwnKeys.demoRequest []

def sentTrace : Trace :=
  decidedTrace .opened ++ [⟨.tryAdmit crmBreaker, .call⟩, ⟨.collect OwnKeys.demoRequest.body, ()⟩,
    ⟨.instantNow, (0 : Nat)⟩, ⟨.send demoOutbound, fun _ => .unanswered⟩]

/-- Behind the gate the demo request goes wherever the rest of the program leads. -/
theorem follows_demoRequest {later : Trace} {rest : Handler}
    (follows : (rateLimit plainUrls demoState (some demoUsername) OwnKeys.demoRequest).Follows later
      rest) :
    (proxyFallback plainUrls demoState Json.Text.flatCodec OwnKeys.demoRequest).Follows
      (⟨.unixNow, (1500 : UInt64)⟩ :: later) rest := by
  refine ⟨_, rfl, ?_⟩
  simp only [Program.bind]
  rw [OwnKeys.checkBearer_demoRequest]
  exact follows

/-- The limiter turns the demo request away and no breaker is touched; a breaker turns
it away and nothing is sent; or it is sent, and its token was verified before. -/
theorem rejections_spare_later_stages_on_demo_request :
    ((rateLimited 60).status = .tooManyRequests ∧ sends limitedTrace = [] ∧
      ∀ made ∈ limitedTrace, Spares cellsOf made) ∧
    ((circuitOpen "crm".toList).status = .serviceUnavailable ∧ sends shedTrace = [] ∧
      ∀ made ∈ shedTrace, Spares cellsOf made) ∧
    ∃ subject, Verified Json.Text.flatCodec OwnKeys.demoGateway.auth OwnKeys.demoRequest sentTrace
      subject := by
  have limits := rejections_spare_later_stages Json.Text.flatCodec plainUrls crmRoutes
    OwnKeys.demoGateway.auth strictLimiter crmBreaker.cfg 30 OwnKeys.demoRequest limitedTrace
    (.done (rateLimited 60)) (follows_demoRequest ⟨_, rfl, _, rfl, rfl⟩)
  have sheds := rejections_spare_later_stages Json.Text.flatCodec plainUrls crmRoutes
    OwnKeys.demoGateway.auth strictLimiter crmBreaker.cfg 30 OwnKeys.demoRequest shedTrace
    (.done (circuitOpen "crm".toList)) (follows_demoRequest ⟨_, rfl, _, rfl, _, rfl, rfl⟩)
  have passes := rejections_spare_later_stages Json.Text.flatCodec plainUrls crmRoutes
    OwnKeys.demoGateway.auth strictLimiter crmBreaker.cfg 30 OwnKeys.demoRequest sentTrace _
    (follows_demoRequest ⟨_, rfl, _, rfl, _, rfl, _, rfl, _, rfl, rfl⟩)
  obtain ⟨unsent, answered, -, spared⟩ :=
    limits.2.1 ⟨strictLimiter, _, 60, List.mem_cons_of_mem _ List.mem_cons_self⟩
  obtain ⟨unsent', answered', spared'⟩ :=
    sheds.2.2.2.1 ⟨crmBreaker, by simp [shedTrace, decidedTrace]⟩
  obtain ⟨subject, _, _, _, verified, -⟩ := passes.2.2.2.2 (by simp [sentTrace, sends, sendOf])
  exact ⟨⟨answered _ rfl, unsent, fun made member => (spared made member).1⟩,
    ⟨answered' _ rfl, unsent', spared'⟩, subject, verified⟩

end Ratewall.Gateway
