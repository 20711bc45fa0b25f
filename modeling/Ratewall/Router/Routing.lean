import Ratewall.Router.Exchange
import Ratewall.Router.Assembly

/-! Owns which backend a path selects: that `trim_start_matches`, `split_once` and
the lookup together match one whole segment of the path against the table, and
that the prefix and the suffix give the path back up to the slashes in front. It
does not own what becomes of the suffix in the target. -/

namespace Ratewall.Router

open Ratewall.Rust
open Ratewall.Foundation
open Ratewall.Config
open Ratewall.Circuit
open Ratewall.Http
open Ratewall.Auth
open Ratewall.RateLimit

/-- `pfx` is the first segment of the path, after all slashes in front. -/
def Matches (pfx path : Text) : Prop :=
  trimStartMatches '/' path = pfx ∨ ∃ rest, trimStartMatches '/' path = pfx ++ '/' :: rest

/-- Apart from the slashes in front the paths are one, or the one is the bare prefix
and the other has one slash after it. -/
def SameUpToSlashes (pfx path other : Text) : Prop :=
  trimStartMatches '/' path = trimStartMatches '/' other ∨
    (trimStartMatches '/' path = pfx ∧ trimStartMatches '/' other = pfx ++ ['/']) ∨
    (trimStartMatches '/' path = pfx ++ ['/'] ∧ trimStartMatches '/' other = pfx)

section

variable (urls : UrlCrate) {scheme : Ed25519} (state : ProxyState scheme)

/-- The lookup of `forward`, behind the check of the empty prefix. -/
def selected (path : Text) : Option Route :=
  if (splitPath path).1.isEmpty then none
  else (state.backendFor (splitPath path).1).map fun backend => ⟨(splitPath path).1, backend⟩

/-- The answer to a path that selects nothing. -/
def unrouted (path : Text) : Response :=
  if (splitPath path).1.isEmpty then intoResponse .notFound [] "not found".toList
  else noRoute (splitPath path).1

/-- What `forward` does once it has found the backend, from the breaker on. -/
def forwardTo (chosen : Route) (suffix : Text) (request : Request) : Handler :=
  match state.breakerFor chosen.routePrefix with
  | none => exchange urls state chosen.routePrefix none chosen.backend suffix request
  | some breaker => do
      let admission ← ask (.tryAdmit breaker)
      match admission with
      | .call => exchange urls state chosen.routePrefix (some breaker) chosen.backend suffix request
      | .shortCircuit => do
          countCircuitOpen state chosen.routePrefix
          pure (circuitOpen chosen.routePrefix)

private theorem route_eq (request : Request) :
    route urls state request =
      match selected state request.path with
      | none => pure (unrouted request.path)
      | some chosen => forwardTo urls state chosen (splitPath request.path).2 request := by
  by_cases bare : (splitPath request.path).1.isEmpty = true
  · simp only [route, selected, unrouted, if_pos bare]
  · simp only [route, selected, unrouted, if_neg bare, forward]
    cases state.backendFor (splitPath request.path).1 with
    | none => rfl
    | some backend => rfl

/-- The routing comes right after the gate and the limiter. -/
theorem follows_route (json : Json.Codec) {auth : AuthState scheme} {limiter : RateLimiter}
    (gated : state.auth = some auth) (limited : state.limiter = some limiter) (request : Request)
    {now : UInt64} {subject : Text} (verified : checkBearer json auth request now = .ok subject)
    {decision : Decision} (passed : ∀ retryAfter, decision ≠ .limit retryAfter) :
    (proxyFallback urls state json request).Follows
      [⟨.unixNow, now⟩,
        ⟨.decide limiter (limitKey (some subject) "unkeyed".toList), decision⟩]
      (route urls state request) := by
  simp only [proxyFallback, gated, Program.perform_bind]
  refine ⟨_, rfl, ?_⟩
  simp only [verified, rateLimit, limited, Program.perform_bind]
  refine ⟨_, rfl, ?_⟩
  cases decision with
  | limit retryAfter => exact absurd rfl (passed retryAfter)
  | allow => rfl
  | opened => rfl

end

/-! ### Prefixes without slashes -/

section

variable {pfx path other : Text}

private theorem slash_free_of_isCleanPrefix (clean : isCleanPrefix pfx = true) : '/' ∉ pfx := by
  intro inside
  simp only [isCleanPrefix, Bool.and_eq_true, List.all_eq_true] at clean
  exact absurd (clean.2 '/' inside) (by decide)

private theorem splitPath_of_bare (free : '/' ∉ pfx) (bare : trimStartMatches '/' path = pfx) :
    splitPath path = (pfx, ['/']) := by
  unfold splitPath
  rw [bare]
  simp only [splitOnce_eq_none_iff.mpr free]

private theorem splitPath_of_cons (free : '/' ∉ pfx) {rest : Text}
    (joined : trimStartMatches '/' path = pfx ++ '/' :: rest) :
    splitPath path = (pfx, '/' :: rest) := by
  unfold splitPath
  rw [joined]
  simp only [splitOnce_append free]

private theorem matches_iff (free : '/' ∉ pfx) : Matches pfx path ↔ (splitPath path).1 = pfx := by
  constructor
  · rintro (bare | ⟨rest, joined⟩)
    · rw [splitPath_of_bare free bare]
    · rw [splitPath_of_cons free joined]
  · rintro rfl
    rcases splitPath_cases path with ⟨-, parts, -⟩ | ⟨first, rest, joined, -, parts, -⟩
    · rw [parts]
      exact Or.inl rfl
    · rw [parts]
      exact Or.inr ⟨rest, joined⟩

/-- The prefix and the suffix leave open only whether a single slash followed. -/
theorem sameUpToSlashes_of_splitPath (same : splitPath path = splitPath other) :
    SameUpToSlashes (splitPath path).1 path other := by
  rcases splitPath_cases path with ⟨-, parts, -⟩ | ⟨first, rest, joined, -, parts, -⟩ <;>
    rcases splitPath_cases other with ⟨-, parts', -⟩ | ⟨first', rest', joined', -, parts', -⟩
  · rw [parts, parts'] at same
    exact Or.inl (Prod.mk.inj same).1
  · rw [parts, parts'] at same
    obtain ⟨samePrefix, sameRest⟩ := Prod.mk.inj same
    refine Or.inr (Or.inl ⟨by rw [parts], ?_⟩)
    rw [parts, joined', ← sameRest, ← samePrefix]
  · rw [parts, parts'] at same
    obtain ⟨samePrefix, sameRest⟩ := Prod.mk.inj same
    refine Or.inr (Or.inr ⟨?_, ?_⟩)
    · rw [parts, joined, sameRest]
    · rw [parts]
      exact samePrefix.symm
  · rw [parts, parts'] at same
    obtain ⟨samePrefix, sameRest⟩ := Prod.mk.inj same
    refine Or.inl ?_
    rw [joined, joined', sameRest]
    exact congrArg (· ++ '/' :: rest') samePrefix

end

private theorem selected_eq_some_iff {scheme : Ed25519} {state : ProxyState scheme}
    {routes : List Route}
    {cfg : BreakerConfig} (wired : Wired state routes cfg) {config : GatewayConfig}
    (accepted : config.validate = .ok routes) {path : Text} {chosen : Route} :
    selected state path = some chosen ↔ chosen ∈ routes ∧ (splitPath path).1 = chosen.routePrefix := by
  unfold selected
  split
  next bare =>
    constructor
    · intro found
      cases found
    · rintro ⟨member, same⟩
      have clean := GatewayConfig.clean_of_mem accepted member
      rw [← same] at clean
      exact absurd (List.isEmpty_iff.mp bare) (nonempty_of_isCleanPrefix clean)
  next =>
    rw [Option.map_eq_some_iff]
    constructor
    · rintro ⟨backend, found, rfl⟩
      obtain ⟨entry, member, samePrefix, sameBackend⟩ := wired.backendFor_cases found
      rw [← samePrefix, ← sameBackend]
      exact ⟨member, rfl⟩
    · rintro ⟨member, same⟩
      refine ⟨chosen.backend, ?_, ?_⟩
      · rw [same]
        exact wired.backendFor_of_mem accepted member
      · rw [same]

/-- A request that the gate and the limiter let through goes to the route whose prefix
is the first segment of its path, with the rest of the path as it is; a path without
such a route gets the 404 answers of `unrouted`. -/
theorem routing_matches_one_segment (json : Json.Codec) (urls : UrlCrate) {scheme : Ed25519}
    (config : GatewayConfig) (routes : List Route) (accepted : config.validate = .ok routes)
    (auth : AuthState scheme) (limiter : RateLimiter) (cfg : BreakerConfig) (timeoutSecs : UInt64)
    (request : Request) :
    let state := ProxyState.assembled routes auth limiter cfg timeoutSecs
    (∀ now subject decision, checkBearer json auth request now = .ok subject →
      (∀ retryAfter, decision ≠ .limit retryAfter) →
      (proxyFallback urls state json request).Follows
        [⟨.unixNow, now⟩,
          ⟨.decide limiter (limitKey (some subject) "unkeyed".toList), decision⟩]
        (match selected state request.path with
          | none => pure (unrouted request.path)
          | some chosen => forwardTo urls state chosen (splitPath request.path).2 request)) ∧
    (∀ chosen, selected state request.path = some chosen ↔
      chosen ∈ routes ∧ Matches chosen.routePrefix request.path) ∧
    (∀ first ∈ routes, ∀ second ∈ routes, Matches first.routePrefix request.path →
      Matches second.routePrefix request.path → first = second) ∧
    (∀ chosen ∈ routes,
      (trimStartMatches '/' request.path = chosen.routePrefix →
        (splitPath request.path).2 = ['/']) ∧
      ∀ rest, trimStartMatches '/' request.path = chosen.routePrefix ++ '/' :: rest →
        (splitPath request.path).2 = '/' :: rest) ∧
    ∀ other, splitPath other = splitPath request.path →
      SameUpToSlashes (splitPath other).1 other request.path := by
  intro state
  have wired : Wired state routes cfg := wired_assembled routes auth limiter cfg timeoutSecs
  have free : ∀ chosen ∈ routes, '/' ∉ chosen.routePrefix := fun chosen member =>
    slash_free_of_isCleanPrefix (GatewayConfig.clean_of_mem accepted member)
  refine ⟨?_, ?_, ?_, ?_, ?_⟩
  · intro now subject decision verified passed
    rw [← route_eq]
    exact follows_route urls state json rfl rfl request verified passed
  · intro chosen
    rw [selected_eq_some_iff wired accepted]
    refine and_congr_right fun member => ?_
    rw [matches_iff (free chosen member)]
  · intro first firstMember second secondMember firstMatches secondMatches
    rw [matches_iff (free first firstMember)] at firstMatches
    rw [matches_iff (free second secondMember)] at secondMatches
    exact GatewayConfig.eq_of_routePrefix accepted firstMember secondMember
      (firstMatches.symm.trans secondMatches)
  · intro chosen member
    refine ⟨?_, ?_⟩
    · intro bare
      rw [splitPath_of_bare (free chosen member) bare]
    · intro rest joined
      rw [splitPath_of_cons (free chosen member) joined]
  · intro other same
    exact sameUpToSlashes_of_splitPath same

/-- Prefixes that begin alike. -/
def nestedRoutes : List Route :=
  [⟨"crm".toList, "http://a".toList⟩, ⟨"crm-x".toList, "http://b".toList⟩,
    ⟨"crm2".toList, "http://c".toList⟩]

def nestedConfig : GatewayConfig :=
  .ofRoutes (.ofList (nestedRoutes.map fun route => (route.routePrefix, route.backend)))

theorem routing_matches_one_segment_among_nested :
    selected (ProxyState.assembled nestedRoutes OwnKeys.demoGateway.auth
        ⟨100, Duration.fromSecs 60, []⟩ crmBreaker.cfg 30) "//crm-x//a%2Fb/".toList =
      some ⟨"crm-x".toList, "http://b".toList⟩ :=
  ((routing_matches_one_segment Json.Text.flatCodec plainUrls nestedConfig nestedRoutes rfl
    OwnKeys.demoGateway.auth ⟨100, Duration.fromSecs 60, []⟩ crmBreaker.cfg 30
    { crmRequest with path := "//crm-x//a%2Fb/".toList }).2.1 _).mpr
    ⟨by simp [nestedRoutes], Or.inr ⟨"/a%2Fb/".toList, rfl⟩⟩

end Ratewall.Router
