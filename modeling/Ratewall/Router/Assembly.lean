import Ratewall.Foundation.Slots
import Ratewall.Router.Forward

/-! Owns the state that `main.rs` builds from the validated routes: `ProxyState::new`
and the chain of `with_*` calls. The table of backends and the table of breakers
are filled from one list of routes, so a prefix is in both or in neither. -/

namespace Ratewall.Router

open Ratewall.Rust
open Ratewall.Foundation
open Ratewall.Config
open Ratewall.Circuit
open Ratewall.Auth
open Ratewall.RateLimit

variable {scheme : Ed25519}

/-- The state of the running binary. -/
def ProxyState.assembled (routes : List Route) (auth : AuthState scheme) (limiter : RateLimiter)
    (cfg : BreakerConfig) (timeoutSecs : UInt64) : ProxyState scheme :=
  ((((ProxyState.new routes).withAuth auth).withLimiter limiter).withBreakers
    (Breakers.new routes cfg) timeoutSecs).withMetrics {}

def prefixes (routes : List Route) : List Text := routes.map Route.routePrefix

/-- Both tables of the state come from the routes. -/
structure Wired (state : ProxyState scheme) (routes : List Route) (cfg : BreakerConfig) : Prop where
  backends : state.backends = (ProxyState.new routes : ProxyState scheme).backends
  breakers : state.breakers = some (Breakers.new routes cfg)

theorem wired_assembled (routes : List Route) (auth : AuthState scheme) (limiter : RateLimiter)
    (cfg : BreakerConfig) (timeoutSecs : UInt64) :
    Wired (ProxyState.assembled routes auth limiter cfg timeoutSecs) routes cfg := ⟨rfl, rfl⟩

section

variable {state : ProxyState scheme} {routes : List Route} {cfg : BreakerConfig} {pfx : Text}

/-- A backend is found only under the prefix of a route. -/
theorem Wired.backendFor_cases (wired : Wired state routes cfg) {backend : Text}
    (known : state.backendFor pfx = some backend) :
    ∃ route ∈ routes, route.routePrefix = pfx ∧ route.backend = backend := by
  unfold ProxyState.backendFor at known
  rw [wired.backends] at known
  rcases foldl_insert_cases known with empty | found
  · simp at empty
  · exact found

/-- Exactly the prefixes of the routes have a backend. -/
theorem Wired.backendFor_isSome_iff (wired : Wired state routes cfg) :
    (state.backendFor pfx).isSome ↔ pfx ∈ prefixes routes := by
  unfold ProxyState.backendFor
  rw [wired.backends, ← Std.TreeMap.mem_iff_isSome_getElem?]
  have filled := @foldl_insert_mem_iff _ _ _ _ _ _ Route.routePrefix Route.backend ∅ routes pfx
  simpa [prefixes, ProxyState.new] using filled

/-- A validated route is in the table under its own prefix. -/
theorem Wired.backendFor_of_mem (wired : Wired state routes cfg) {config : GatewayConfig}
    (accepted : config.validate = .ok routes) {route : Route} (yielded : route ∈ routes) :
    state.backendFor route.routePrefix = some route.backend := by
  obtain ⟨backend, found⟩ := Option.isSome_iff_exists.mp
    (wired.backendFor_isSome_iff.mpr (List.mem_map_of_mem yielded))
  obtain ⟨other, member, same, rfl⟩ := wired.backendFor_cases found
  rw [found, GatewayConfig.eq_of_routePrefix accepted member yielded same]

theorem Wired.breakerFor_isSome_iff (wired : Wired state routes cfg) :
    (state.breakerFor pfx).isSome ↔ pfx ∈ prefixes routes := by
  unfold ProxyState.breakerFor
  rw [wired.breakers]
  have filled := @foldl_insert_mem_iff _ _ _ _ _ _ (fun entry : Route × Nat => entry.1.routePrefix)
    (fun entry => (⟨cfg, entry.2⟩ : CircuitBreaker)) ∅ routes.zipIdx pfx
  have listed : routes.zipIdx.map (fun entry => entry.1.routePrefix) = prefixes routes := by
    calc routes.zipIdx.map (fun entry => entry.1.routePrefix)
        = (routes.zipIdx.map Prod.fst).map Route.routePrefix := List.map_map.symm
      _ = prefixes routes := by rw [List.zipIdx_map_fst, prefixes]
  rw [listed] at filled
  simpa [Breakers.get, Breakers.new, Breakers.insertAll, ← Std.TreeMap.mem_iff_isSome_getElem?]
    using filled

/-- Whatever can be forwarded to has a breaker. -/
theorem Wired.guarded (wired : Wired state routes cfg) {backend : Text}
    (known : state.backendFor pfx = some backend) : ∃ breaker, state.breakerFor pfx = some breaker := by
  apply Option.isSome_iff_exists.mp
  rw [wired.breakerFor_isSome_iff, ← wired.backendFor_isSome_iff, known]
  rfl

/-- All breakers have the one configuration. -/
theorem Wired.breakerFor_cfg (wired : Wired state routes cfg) {breaker : CircuitBreaker}
    (guarded : state.breakerFor pfx = some breaker) : breaker.cfg = cfg := by
  unfold ProxyState.breakerFor at guarded
  rw [wired.breakers] at guarded
  exact (Breakers.get_new guarded).1

end

end Ratewall.Router
