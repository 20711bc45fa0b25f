import Ratewall.Rust.Text
import Ratewall.Rust.Time
import Std.Data.TreeMap

/-! Owns `config.rs`: the sections of the configuration with their defaults, and
`validate`, which turns the route table into route bindings or refuses the whole
configuration with its first defect. A `BTreeMap` is walked in the order of its
keys. Paths of files are text, since nothing here reads them. -/

namespace Ratewall.Config

open Ratewall.Rust

/-- A validated route binding: `/{routePrefix}/*` goes to `backend`. -/
structure Route where
  routePrefix : Text
  backend : Text
deriving DecidableEq, Repr

structure AuthConfig where
  keysDir : Option Text
  issuer : Option Text
  issuerPublicKeyPem : Option Text
  tokenTtlSecs : UInt64
deriving DecidableEq, Repr

def AuthConfig.default : AuthConfig :=
  { keysDir := none, issuer := none, issuerPublicKeyPem := none, tokenTtlSecs := 900 }

def AuthConfig.issuesOwnTokens (auth : AuthConfig) : Bool :=
  auth.issuer.isNone && auth.issuerPublicKeyPem.isNone

structure RateLimitConfig where
  redisUrl : Text
  limit : UInt32
  windowSecs : UInt64
deriving DecidableEq, Repr

def RateLimitConfig.default : RateLimitConfig :=
  { redisUrl := "redis://redis:6379".toList, limit := 100, windowSecs := 60 }

/-- `config::BreakerConfig`. The thresholds that a breaker itself holds are
`circuit::BreakerConfig`. -/
structure BreakerSection where
  failureThreshold : UInt32
  cooldownSecs : UInt64
  timeoutSecs : UInt64
deriving DecidableEq, Repr

def BreakerSection.default : BreakerSection :=
  { failureThreshold := 5, cooldownSecs := 30, timeoutSecs := 15 }

structure GatewayConfig where
  port : UInt16
  routes : Std.TreeMap Text Text
  auth : AuthConfig
  ratelimit : RateLimitConfig
  breaker : BreakerSection

/-- A configuration that gives the route table and nothing else. -/
def GatewayConfig.ofRoutes (routes : Std.TreeMap Text Text) : GatewayConfig where
  port := 8080
  routes := routes
  auth := .default
  ratelimit := .default
  breaker := .default

inductive ConfigError where
  | parse (message : Text)
  | invalidPrefix (routePrefix : Text)
  | invalidBackend (routePrefix backend : Text)
  | noRoutes
  | invalidAuth (message : Text)
  | invalidRateLimit (message : Text)
  | invalidBreaker (message : Text)
deriving DecidableEq, Repr

/-! ### Validation -/

def refuseIf (defect : Bool) (error : ConfigError) : Except ConfigError Unit :=
  if defect then .error error else .ok ()

def validateAuth (auth : AuthConfig) : Except ConfigError Unit := do
  refuseIf (auth.issuer.isSome != auth.issuerPublicKeyPem.isSome)
    (.invalidAuth "issuer and issuer_public_key_pem must be set together".toList)
  refuseIf (!auth.issuesOwnTokens && auth.keysDir.isNone)
    (.invalidAuth "keys_dir is required to hold the verifier's own signing key".toList)

def validateRateLimit (ratelimit : RateLimitConfig) : Except ConfigError Unit := do
  refuseIf (ratelimit.limit == 0) (.invalidRateLimit "limit must be at least 1".toList)
  refuseIf (ratelimit.windowSecs == 0) (.invalidRateLimit "window_secs must be at least 1".toList)
  refuseIf ratelimit.redisUrl.isEmpty (.invalidRateLimit "redis_url must not be empty".toList)

def validateBreaker (breaker : BreakerSection) : Except ConfigError Unit := do
  refuseIf (breaker.failureThreshold == 0)
    (.invalidBreaker "failure_threshold must be at least 1".toList)
  refuseIf (breaker.cooldownSecs == 0) (.invalidBreaker "cooldown_secs must be at least 1".toList)
  refuseIf (breaker.timeoutSecs == 0) (.invalidBreaker "timeout_secs must be at least 1".toList)

def isPrefixChar (c : Char) : Bool := c.isAlphanum || c == '-' || c == '_'

def isCleanPrefix (routePrefix : Text) : Bool :=
  !routePrefix.isEmpty && routePrefix.all isPrefixChar

/-- The check of a backend. The length is that of the UTF-8 form. -/
def isBackend (backend : Text) : Bool :=
  ("http://".toList.isPrefixOf backend || "https://".toList.isPrefixOf backend) &&
    decide ((asBytes "http://".toList).length < (asBytes backend).length)

def validateRoute (routePrefix backend : Text) : Except ConfigError Route := do
  refuseIf (!isCleanPrefix routePrefix) (.invalidPrefix routePrefix)
  refuseIf (!isBackend backend) (.invalidBackend routePrefix backend)
  pure ⟨routePrefix, trimEndMatches '/' backend⟩

def validateRoutes : List (Text × Text) → Except ConfigError (List Route)
  | [] => .ok []
  | entry :: entries => do
      let route ← validateRoute entry.1 entry.2
      let routes ← validateRoutes entries
      pure (route :: routes)

def GatewayConfig.validate (config : GatewayConfig) : Except ConfigError (List Route) := do
  validateAuth config.auth
  refuseIf config.routes.isEmpty .noRoutes
  validateRateLimit config.ratelimit
  validateBreaker config.breaker
  validateRoutes config.routes.toList

/-- `GatewayConfig::from_toml`. `fromStr` stands for `toml::from_str`, with the text of
its error. -/
def GatewayConfig.fromToml (fromStr : Text → Except Text GatewayConfig) (text : Text) :
    Except ConfigError GatewayConfig := do
  let config ← (fromStr text).mapError .parse
  let _ ← config.validate
  pure config

/-! ### What was accepted -/

@[simp] theorem refuseIf_bind_ok_iff {α : Type} {defect : Bool} {error : ConfigError}
    {next : Unit → Except ConfigError α} {found : α} :
    (refuseIf defect error >>= next) = .ok found ↔ defect = false ∧ next () = .ok found := by
  cases defect with
  | true => simp [refuseIf, bind, Except.bind]
  | false => simp [refuseIf, bind, Except.bind]

theorem bind_ok_iff {α β : Type} {first : Except ConfigError α} {next : α → Except ConfigError β}
    {found : β} :
    (first >>= next) = .ok found ↔ ∃ between, first = .ok between ∧ next between = .ok found := by
  cases first with
  | error error => simp [bind, Except.bind]
  | ok value => simp [bind, Except.bind]

/-- A file is accepted when it parses and validates. -/
theorem GatewayConfig.fromToml_ok_iff {fromStr : Text → Except Text GatewayConfig} {text : Text}
    {config : GatewayConfig} :
    GatewayConfig.fromToml fromStr text = .ok config ↔
      fromStr text = .ok config ∧ ∃ routes, config.validate = .ok routes := by
  unfold GatewayConfig.fromToml
  cases parsed : fromStr text with
  | error message => simp [Except.mapError, bind, Except.bind]
  | ok found =>
      show (do let _ ← found.validate; pure found) = Except.ok config ↔ _
      rw [bind_ok_iff]
      constructor
      · rintro ⟨routes, accepted, same⟩
        obtain rfl : found = config := Except.ok.inj same
        exact ⟨rfl, routes, accepted⟩
      · rintro ⟨same, routes, accepted⟩
        obtain rfl : found = config := Except.ok.inj same
        exact ⟨routes, accepted, rfl⟩

private theorem validateRoute_ok_iff {routePrefix backend : Text} {route : Route} :
    validateRoute routePrefix backend = .ok route ↔
      isCleanPrefix routePrefix = true ∧ isBackend backend = true ∧
        route = ⟨routePrefix, trimEndMatches '/' backend⟩ := by
  simp only [validateRoute, refuseIf_bind_ok_iff, Bool.not_eq_false', pure, Except.pure,
    Except.ok.injEq]
  rw [@eq_comm _ route]

/-- The routes are the entries of the table, in its order. -/
theorem validateRoutes_ok_iff {entries : List (Text × Text)} {routes : List Route} :
    validateRoutes entries = .ok routes ↔
      (∀ entry ∈ entries, isCleanPrefix entry.1 = true ∧ isBackend entry.2 = true) ∧
        routes = entries.map fun entry => ⟨entry.1, trimEndMatches '/' entry.2⟩ := by
  induction entries generalizing routes with
  | nil =>
      simp only [validateRoutes, Except.ok.injEq, List.not_mem_nil, false_implies, implies_true,
        true_and, List.map_nil]
      exact eq_comm
  | cons entry entries ih =>
      simp only [validateRoutes, bind_ok_iff, validateRoute_ok_iff, ih, pure, Except.pure,
        Except.ok.injEq, List.forall_mem_cons, List.map_cons]
      constructor
      · rintro ⟨route, ⟨clean, valid, rfl⟩, tail, ⟨others, rfl⟩, rfl⟩
        exact ⟨⟨⟨clean, valid⟩, others⟩, rfl⟩
      · rintro ⟨⟨⟨clean, valid⟩, others⟩, rfl⟩
        exact ⟨_, ⟨clean, valid, rfl⟩, _, ⟨others, rfl⟩, rfl⟩

private theorem GatewayConfig.validateRoutes_of_validate {config : GatewayConfig}
    {routes : List Route} (accepted : config.validate = .ok routes) :
    validateRoutes config.routes.toList = .ok routes := by
  simp only [GatewayConfig.validate, bind_ok_iff] at accepted
  obtain ⟨_, _, _, _, _, _, _, _, routed⟩ := accepted
  exact routed

section

variable {config : GatewayConfig} {routes : List Route}

/-- Each route comes from an entry of the table that passed both checks. -/
theorem GatewayConfig.mem_routes_iff (accepted : config.validate = .ok routes) {route : Route} :
    route ∈ routes ↔ ∃ backend, config.routes[route.routePrefix]? = some backend ∧
      isCleanPrefix route.routePrefix = true ∧ isBackend backend = true ∧
      route.backend = trimEndMatches '/' backend := by
  obtain ⟨checked, rfl⟩ := validateRoutes_ok_iff.mp (validateRoutes_of_validate accepted)
  rw [List.mem_map]
  constructor
  · rintro ⟨entry, member, rfl⟩
    obtain ⟨clean, valid⟩ := checked entry member
    exact ⟨entry.2, Std.TreeMap.mem_toList_iff_getElem?_eq_some.mp member, clean, valid, rfl⟩
  · rintro ⟨backend, found, -, -, trimmed⟩
    refine ⟨(route.routePrefix, backend), ?_, ?_⟩
    · exact Std.TreeMap.mem_toList_iff_getElem?_eq_some.mpr found
    · rw [← trimmed]

theorem GatewayConfig.clean_of_mem (accepted : config.validate = .ok routes) {route : Route}
    (member : route ∈ routes) : isCleanPrefix route.routePrefix = true := by
  obtain ⟨_, _, clean, _, _⟩ := (mem_routes_iff accepted).mp member
  exact clean

/-- No two routes have one prefix. -/
theorem GatewayConfig.eq_of_routePrefix (accepted : config.validate = .ok routes)
    {route other : Route} (member : route ∈ routes) (otherMember : other ∈ routes)
    (same : route.routePrefix = other.routePrefix) : route = other := by
  obtain ⟨backend, found, _, _, trimmed⟩ := (mem_routes_iff accepted).mp member
  obtain ⟨backend', found', _, _, trimmed'⟩ := (mem_routes_iff accepted).mp otherMember
  rw [same, found'] at found
  cases route
  cases other
  simp_all

end

/-- An accepted backend names one of two schemes. -/
theorem scheme_of_isBackend {backend : Text} (valid : isBackend backend = true) :
    ∃ scheme rest, (scheme = "http".toList ∨ scheme = "https".toList) ∧
      backend = scheme ++ ':' :: '/' :: '/' :: rest := by
  simp only [isBackend, Bool.and_eq_true, Bool.or_eq_true, List.isPrefixOf_iff_prefix] at valid
  rcases valid.1 with ⟨rest, joined⟩ | ⟨rest, joined⟩
  · exact ⟨"http".toList, rest, Or.inl rfl, joined.symm⟩
  · exact ⟨"https".toList, rest, Or.inr rfl, joined.symm⟩

theorem nonempty_of_isCleanPrefix {routePrefix : Text} (clean : isCleanPrefix routePrefix = true) :
    routePrefix ≠ [] := by
  intro empty
  simp [isCleanPrefix, empty] at clean

end Ratewall.Config
