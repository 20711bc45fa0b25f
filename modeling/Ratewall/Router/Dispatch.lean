import Ratewall.Auth.Startup
import Ratewall.Router.Assembly

/-! Owns the application around the proxy: the explicit routes of `build_router`,
the `/auth` nest that `main` adds when it issues tokens itself, and how `axum` picks
between them and the fallback. An explicit route matches its path to the letter and
answers other methods itself; everything else is the fallback's.

The prefixes that `validate` accepts and the paths that are taken here are chosen
independently. A configured route is reachable on all its paths exactly when its
prefix is none of the taken first segments. -/

namespace Ratewall.Router

open Ratewall.Rust
open Ratewall.Config
open Ratewall.Circuit
open Ratewall.Http
open Ratewall.Auth
open Ratewall.RateLimit

inductive Endpoint where
  | healthz
  | readyz
  | metricsEndpoint
  | login
  | methodNotAllowed
  | proxyFallback
deriving DecidableEq, Repr

/-- One `.route(path, method_router)`. -/
structure PathRoute where
  path : Text
  methods : List Method
  endpoint : Endpoint

/-- `routing::get` serves `HEAD` as well. -/
def onGet (path : Text) (endpoint : Endpoint) : PathRoute := ⟨path, [.get, .head], endpoint⟩

def onPost (path : Text) (endpoint : Endpoint) : PathRoute := ⟨path, [.post], endpoint⟩

def buildRouter : List PathRoute :=
  [onGet "/healthz".toList .healthz, onGet "/readyz".toList .readyz,
    onGet "/metrics".toList .metricsEndpoint]

/-- `auth_login::router`. -/
def loginRouter : List PathRoute := [onPost "/login".toList .login]

/-- `Router::nest` of a router without a fallback of its own: its routes move below
the path, and what none of them matches is left to the outer fallback. -/
def nest (path : Text) (inner table : List PathRoute) : List PathRoute :=
  table ++ inner.map fun route => { route with path := path ++ route.path }

def application {scheme : Ed25519} (login : Option (LoginState scheme)) : List PathRoute :=
  match login with
  | some _ => nest "/auth".toList loginRouter buildRouter
  | none => buildRouter

def dispatch (table : List PathRoute) (method : Method) (path : Text) : Endpoint :=
  match table.find? fun route => route.path = path with
  | none => .proxyFallback
  | some route => if method ∈ route.methods then route.endpoint else .methodNotAllowed

/-- `main` up to the application that it serves. -/
def startApplication {scheme : Ed25519} (config : GatewayConfig)
    (signingKey : Except AuthError (scheme.SigningKey × Bool))
    (issuerKey : Option scheme.VerifyingKey) (limiter : RateLimiter) :
    Option (ProxyState scheme × List PathRoute) :=
  match config.validate, startAuth config signingKey issuerKey with
  | .ok routes, some (auth, login) =>
      some (ProxyState.assembled routes auth limiter
          ⟨config.breaker.failureThreshold, Duration.fromSecs config.breaker.cooldownSecs⟩
          config.breaker.timeoutSecs,
        application login)
  | _, _ => none

/-! ### What the explicit routes take -/

/-- The path is the segment itself or goes on below it. -/
def FirstSegment (pfx path : Text) : Prop :=
  path = '/' :: pfx ∨ ∃ rest, path = '/' :: (pfx ++ '/' :: rest)

private theorem splitPath_of_firstSegment {pfx path : Text} (clean : isCleanPrefix pfx = true)
    (first : FirstSegment pfx path) : (splitPath path).1 = pfx := by
  have free : '/' ∉ pfx := by
    intro member
    have checked : isPrefixChar '/' = true :=
      List.all_eq_true.mp (Bool.and_eq_true_iff.mp clean).2 '/' member
    cases checked
  have trimmed : ∀ rest, trimStartMatches '/' ('/' :: (pfx ++ rest)) = pfx ++ rest := by
    intro rest
    cases pfx with
    | nil => cases clean
    | cons c others =>
        have differs : c ≠ '/' := fun same => free (same ▸ List.mem_cons_self)
        simp [trimStartMatches, differs]
  rcases first with rfl | ⟨rest, rfl⟩
  · have whole := trimmed []
    rw [List.append_nil] at whole
    unfold splitPath
    rw [whole]
    simp only [splitOnce_eq_none_iff.mpr free]
  · unfold splitPath
    rw [trimmed]
    simp only [splitOnce_append free]

private theorem dispatch_eq_proxyFallback_iff {table : List PathRoute} {method : Method}
    {path : Text} (explicit : ∀ route ∈ table, route.endpoint ≠ .proxyFallback) :
    dispatch table method path = .proxyFallback ↔ path ∉ table.map PathRoute.path := by
  unfold dispatch
  cases found : table.find? fun route => route.path = path with
  | none =>
      have none : ∀ route ∈ table, route.path ≠ path := by simpa using found
      simpa using none
  | some route =>
      have member := List.mem_of_find?_eq_some found
      have same : route.path = path := by simpa using List.find?_some found
      have taken : path ∈ table.map PathRoute.path := same ▸ List.mem_map_of_mem member
      refine iff_of_false ?_ (not_not.mpr taken)
      show ¬ (if method ∈ route.methods then route.endpoint else .methodNotAllowed) = .proxyFallback
      by_cases served : method ∈ route.methods
      · rw [if_pos served]
        exact explicit route member
      · rw [if_neg served]
        simp

section

variable {scheme : Ed25519}

private theorem explicit_application (login : Option (LoginState scheme)) :
    ∀ route ∈ application login, route.endpoint ≠ .proxyFallback := by
  cases login with
  | none =>
      show ∀ route ∈ buildRouter, route.endpoint ≠ .proxyFallback
      decide
  | some state =>
      show ∀ route ∈ nest "/auth".toList loginRouter buildRouter, route.endpoint ≠ .proxyFallback
      decide

private theorem paths_application (login : Option (LoginState scheme)) :
    (application login).map PathRoute.path =
      ["/healthz".toList, "/readyz".toList, "/metrics".toList] ++
        if login.isSome then ["/auth/login".toList] else [] := by
  cases login with
  | none => rfl
  | some state => rfl

/-- In both modes `main` assembles one state from the validated routes, and the
login is there exactly when the gateway issues its own tokens. -/
theorem startApplication_eq_some {config : GatewayConfig}
    {signingKey : Except AuthError (scheme.SigningKey × Bool)}
    {issuerKey : Option scheme.VerifyingKey} {limiter : RateLimiter} {state : ProxyState scheme}
    {table : List PathRoute} {routes : List Route} (accepted : config.validate = .ok routes)
    (started : startApplication config signingKey issuerKey limiter = some (state, table)) :
    ∃ auth cfg timeoutSecs, state = ProxyState.assembled routes auth limiter cfg timeoutSecs ∧
      ∃ login : Option (LoginState scheme), table = application login ∧
        login.isSome = config.auth.issuesOwnTokens := by
  unfold startApplication at started
  rw [accepted] at started
  cases authenticated : startAuth config signingKey issuerKey with
  | none =>
      rw [authenticated] at started
      cases started
  | some states =>
      obtain ⟨auth, login⟩ := states
      rw [authenticated] at started
      have pair := Prod.mk.inj (Option.some.inj started)
      exact ⟨auth, _, _, pair.1.symm, login, pair.2.symm, startAuth_login_isSome authenticated⟩

/-- The request is the proxy's, and goes to the backend of the route: the gate is in
front, the path is split at the prefix, and the table has the backend. -/
structure Reached (state : ProxyState scheme) (table : List PathRoute) (route : Route)
    (method : Method) (path : Text) : Prop where
  dispatched : dispatch table method path = .proxyFallback
  gated : state.auth.isSome = true
  split : (splitPath path).1 = route.routePrefix
  routed : state.backendFor route.routePrefix = some route.backend

def builtInSegments : List Text := ["healthz".toList, "readyz".toList, "metrics".toList]

/-- A configured route is reached by every method on every path below its prefix
exactly when the prefix is not the name of a built-in endpoint and, where the
gateway issues tokens, not `auth`. -/
theorem route_reached_iff_not_builtIn (config : GatewayConfig) (routes : List Route)
    (accepted : config.validate = .ok routes)
    (signingKey : Except AuthError (scheme.SigningKey × Bool))
    (issuerKey : Option scheme.VerifyingKey) (limiter : RateLimiter) (state : ProxyState scheme)
    (table : List PathRoute)
    (started : startApplication config signingKey issuerKey limiter = some (state, table))
    (route : Route) (configured : route ∈ routes) :
    (∀ method path, FirstSegment route.routePrefix path → Reached state table route method path) ↔
      route.routePrefix ∉ builtInSegments ∧
        (config.auth.issuesOwnTokens = true → route.routePrefix ≠ "auth".toList) := by
  obtain ⟨auth, cfg, timeoutSecs, rfl, login, rfl, own⟩ := startApplication_eq_some accepted started
  have wired := wired_assembled routes auth limiter cfg timeoutSecs
  have clean := GatewayConfig.clean_of_mem accepted configured
  have free := @dispatch_eq_proxyFallback_iff (application login)
  rw [paths_application, own] at free
  constructor
  · intro reached
    refine ⟨fun builtIn => ?_, fun issuing isAuth => ?_⟩
    · have dispatched := (reached .get ('/' :: route.routePrefix) (Or.inl rfl)).dispatched
      have taken : ∀ segment ∈ builtInSegments, '/' :: segment ∈
          ["/healthz".toList, "/readyz".toList, "/metrics".toList] := by decide
      exact (free (explicit_application login)).mp dispatched
        (List.mem_append_left _ (taken _ builtIn))
    · have below : FirstSegment route.routePrefix "/auth/login".toList :=
        Or.inr ⟨"login".toList, by rw [isAuth]; rfl⟩
      have dispatched := (reached .post _ below).dispatched
      refine (free (explicit_application login)).mp dispatched (List.mem_append_right _ ?_)
      rw [issuing]
      exact List.mem_cons_self
  · rintro ⟨notBuiltIn, notAuth⟩ method path first
    have split := splitPath_of_firstSegment clean first
    refine ⟨(free (explicit_application login)).mpr ?_, rfl, split,
      wired.backendFor_of_mem accepted configured⟩
    intro taken
    rcases List.mem_append.mp taken with fixed | nested
    · have segments : ∀ found ∈ ["/healthz".toList, "/readyz".toList, "/metrics".toList],
          (splitPath found).1 ∈ builtInSegments := by decide
      exact notBuiltIn (split ▸ segments path fixed)
    · cases issuing : config.auth.issuesOwnTokens with
      | false =>
          rw [issuing] at nested
          cases nested
      | true =>
          rw [issuing] at nested
          obtain rfl := List.mem_singleton.mp nested
          exact notAuth issuing split.symm

end

def oneRoute (routePrefix : Text) : GatewayConfig :=
  .ofRoutes (.ofList [(routePrefix, "http://crm:8000".toList)])

/-- The application of a gateway with one route and its own keys. -/
def oneRouteState (routePrefix : Text) : ProxyState checksumScheme :=
  ProxyState.assembled [⟨routePrefix, "http://crm:8000".toList⟩]
    ⟨checksumScheme.verifyingKey checksumKey, some ownIssuer⟩ ⟨100, Duration.fromSecs 60, []⟩
    BreakerConfig.default 15

theorem route_reached_iff_not_builtIn_on_crm :
    Reached (oneRouteState "crm".toList) (nest "/auth".toList loginRouter buildRouter)
      ⟨"crm".toList, "http://crm:8000".toList⟩ .post "/crm/users".toList :=
  (route_reached_iff_not_builtIn (oneRoute "crm".toList) _ rfl (.ok (checksumKey, true)) none
    ⟨100, Duration.fromSecs 60, []⟩ (oneRouteState "crm".toList) _ rfl
    ⟨"crm".toList, "http://crm:8000".toList⟩ List.mem_cons_self).mpr ⟨by decide, by decide⟩ .post
    "/crm/users".toList (Or.inr ⟨"users".toList, rfl⟩)

/-- `metrics` is accepted as a prefix, and its requests get the gateway's own
metrics, without a token. -/
theorem metrics_route_not_reached :
    ¬ ∀ (config : GatewayConfig) (routes : List Route), config.validate = .ok routes →
      ∀ (state : ProxyState checksumScheme) (table : List PathRoute),
        startApplication config (.ok (checksumKey, true)) none ⟨100, Duration.fromSecs 60, []⟩ =
          some (state, table) →
        ∀ route ∈ routes, ∀ method path, FirstSegment route.routePrefix path →
          Reached state table route method path := by
  intro always
  have reached := always (oneRoute "metrics".toList) _ rfl (oneRouteState "metrics".toList) _ rfl
    ⟨"metrics".toList, "http://crm:8000".toList⟩ List.mem_cons_self .get "/metrics".toList
    (Or.inl rfl)
  have answered : dispatch (nest "/auth".toList loginRouter buildRouter) .get "/metrics".toList =
      .metricsEndpoint := by decide
  exact absurd (answered.symm.trans reached.dispatched) (by decide)

end Ratewall.Router
