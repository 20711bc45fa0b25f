import Ratewall.Config
import Ratewall.Http.Grammar

/-! Owns the comparison of `validate` with the documented rules of the configuration:
what the documents ask for is said on its own, and the theorem says on which
configurations the code judges by it. The code departs from it in three places: it asks
for `keys_dir` in the mode that does not need one, it measures every backend against the
shorter scheme, and it knows the schemes in lower case only. -/

namespace Ratewall.Config

open Ratewall.Rust
open Ratewall.Http

/-- An absolute http(s) URL with a host, by the generic syntax: all its parts are
spelled as they may be. Schemes are compared without regard to case. -/
def AbsoluteHttp (backend : Text) : Prop :=
  ∃ scheme authority, (Uri.split backend).scheme = some scheme ∧
    (Uri.split backend).authority = some authority ∧
    (scheme.map Char.toLower = "http".toList ∨ scheme.map Char.toLower = "https".toList) ∧
    isAuthority authority = true ∧ hostOf authority ≠ [] ∧
    (Uri.split backend).isSpelled = true

def LowerCaseScheme (backend : Text) : Prop :=
  (Uri.split backend).scheme = some "http".toList ∨
    (Uri.split backend).scheme = some "https".toList

/-- The documented rules that are not about backends. -/
structure RestDocumented (config : GatewayConfig) : Prop where
  issuer : config.auth.issuer.isSome = config.auth.issuerPublicKeyPem.isSome
  routes : config.routes.toList ≠ []
  limit : 1 ≤ config.ratelimit.limit
  windowSecs : 1 ≤ config.ratelimit.windowSecs
  redisUrl : config.ratelimit.redisUrl ≠ []
  failureThreshold : 1 ≤ config.breaker.failureThreshold
  cooldownSecs : 1 ≤ config.breaker.cooldownSecs
  timeoutSecs : 1 ≤ config.breaker.timeoutSecs
  prefixes : ∀ entry ∈ config.routes.toList,
    entry.1 ≠ [] ∧ ∀ c ∈ entry.1, c.isAlpha ∨ c.isDigit ∨ c = '-' ∨ c = '_'

def Documented (config : GatewayConfig) : Prop :=
  RestDocumented config ∧ ∀ entry ∈ config.routes.toList, AbsoluteHttp entry.2

/-- The routes of a table: its entries, without the trailing slashes of their backends. -/
def routesOf (table : Std.TreeMap Text Text) : List Route :=
  table.toList.map fun entry => ⟨entry.1, trimEndMatches '/' entry.2⟩

/-- `validate` does what the documents say of it: it accepts the documented
configurations and returns their routes in the order of the keys. -/
def ValidatesAsDocumented (config : GatewayConfig) : Prop :=
  ((∃ routes, config.validate = .ok routes) ↔ Documented config) ∧
    ∀ routes, config.validate = .ok routes →
      routes = routesOf config.routes ∧
      (routes.Pairwise fun first second =>
        compare first.routePrefix second.routePrefix = .lt) ∧
      ∀ route ∈ routes, AbsoluteHttp route.backend

/-- A `keys_dir` is there, or tokens are issued and the default directory serves. -/
def KeysPlaced (auth : AuthConfig) : Prop :=
  auth.issuesOwnTokens = true ∨ auth.keysDir.isSome = true

/-! ### The two checks of a backend -/

section

variable {backend scheme rest : Text}

private theorem free_of_toLower (http : scheme.map Char.toLower = "http".toList ∨
    scheme.map Char.toLower = "https".toList) :
    scheme ≠ [] ∧ ∀ c ∈ scheme, c ∉ schemeStops := by
  have letters : schemeStops.all fun stop =>
      !"http".toList.contains stop.toLower && !"https".toList.contains stop.toLower := by decide
  refine ⟨?_, ?_⟩
  · rintro rfl
    rcases http with empty | empty
    · cases empty
    · cases empty
  · intro c member stops
    have lowered : c.toLower ∈ scheme.map Char.toLower := List.mem_map_of_mem member
    have apart := List.all_eq_true.mp letters c stops
    simp only [Bool.and_eq_true, Bool.not_eq_true', List.contains_eq_mem, decide_eq_false_iff_not]
      at apart
    rcases http with same | same
    · rw [same] at lowered
      exact apart.1 lowered
    · rw [same] at lowered
      exact apart.2 lowered

/-- What stands behind the scheme of an absolute http(s) URL. -/
def PlaceAndPath (rest : Text) : Prop :=
  isAuthority (upTo authorityStops rest) = true ∧ hostOf (upTo authorityStops rest) ≠ [] ∧
    (Uri.ofParts none none (since authorityStops rest)).isSpelled = true

private theorem absoluteHttp_iff : AbsoluteHttp backend ↔ ∃ scheme rest,
    backend = scheme ++ ':' :: '/' :: '/' :: rest ∧
      (scheme.map Char.toLower = "http".toList ∨ scheme.map Char.toLower = "https".toList) ∧
      PlaceAndPath rest := by
  constructor
  · rintro ⟨scheme, authority, schemed, authorised, http, placed, hosted, spells⟩
    obtain ⟨rest, rfl, rfl⟩ := exists_of_split schemed authorised
    obtain ⟨nonempty, free⟩ := free_of_toLower http
    rw [split_of_authority nonempty free] at spells
    exact ⟨scheme, rest, rfl, http, placed, hosted, spells⟩
  · rintro ⟨scheme, rest, rfl, http, placed, hosted, spells⟩
    obtain ⟨nonempty, free⟩ := free_of_toLower http
    unfold AbsoluteHttp
    rw [split_of_authority nonempty free]
    exact ⟨scheme, upTo authorityStops rest, rfl, rfl, http, placed, hosted, spells⟩

/-- Where there is a host, the text behind the slashes does not start with another one. -/
theorem other_of_host (hosted : hostOf (upTo authorityStops rest) ≠ []) :
    ∃ c ∈ rest, c ≠ '/' := by
  cases rest with
  | nil => exact absurd rfl hosted
  | cons c rest =>
      refine ⟨c, List.mem_cons_self, ?_⟩
      rintro rfl
      rw [upTo_cons_stop (by decide)] at hosted
      exact hosted rfl

/-- The authority ends before the trailing slashes begin. -/
theorem upTo_append_slashes (rest : Text) (count : Nat) :
    upTo authorityStops (rest ++ slashes count) = upTo authorityStops rest := by
  cases count with
  | zero => rw [slashes, List.replicate_zero, List.append_nil]
  | succ count => exact upTo_append_stop (by decide)

private theorem since_append_slashes (rest : Text) (count : Nat) :
    since authorityStops (rest ++ slashes count) = since authorityStops rest ++ slashes count := by
  cases count with
  | zero => rw [slashes, List.replicate_zero, List.append_nil, List.append_nil]
  | succ count => exact since_append_stop (by decide)

/-- The documented form survives the trimming of slashes. -/
theorem PlaceAndPath.trimmed (whole : PlaceAndPath rest) :
    PlaceAndPath (trimEndMatches '/' rest) := by
  obtain ⟨count, joined⟩ := trimEndMatches_slashes rest
  rw [joined] at whole
  obtain ⟨placed, hosted, spells⟩ := whole
  rw [upTo_append_slashes] at placed hosted
  rw [since_append_slashes] at spells
  exact ⟨placed, hosted, isSpelled_of_append_slashes spells⟩

theorem AbsoluteHttp.trimmed (absolute : AbsoluteHttp backend) :
    AbsoluteHttp (trimEndMatches '/' backend) := by
  obtain ⟨scheme, rest, rfl, http, whole⟩ := absoluteHttp_iff.mp absolute
  have split : scheme ++ ':' :: '/' :: '/' :: rest = (scheme ++ [':', '/', '/']) ++ rest := by simp
  refine absoluteHttp_iff.mpr ⟨scheme, trimEndMatches '/' rest, ?_, http, whole.trimmed⟩
  rw [split, trimEndMatches_append (other_of_host whole.2.1)]
  simp

private theorem lowerCaseScheme_of_isBackend (valid : isBackend backend = true) :
    LowerCaseScheme backend := by
  obtain ⟨scheme, rest, http, rfl⟩ := scheme_of_isBackend valid
  have lower : scheme.map Char.toLower = "http".toList ∨
      scheme.map Char.toLower = "https".toList := by
    rcases http with rfl | rfl
    · exact Or.inl rfl
    · exact Or.inr rfl
  obtain ⟨nonempty, free⟩ := free_of_toLower lower
  unfold LowerCaseScheme
  rw [split_of_authority nonempty free]
  rcases http with rfl | rfl
  · exact Or.inl rfl
  · exact Or.inr rfl

private theorem asBytes_append (first second : Text) :
    asBytes (first ++ second) = asBytes first ++ asBytes second := List.flatMap_append

private theorem asBytes_length_pos (nonempty : rest ≠ []) : 0 < (asBytes rest).length := by
  cases rest with
  | nil => exact absurd rfl nonempty
  | cons c rest =>
      have size := Char.utf8Size_pos c
      simp only [asBytes, List.flatMap_cons, List.length_append, String.length_utf8EncodeChar]
      omega

private theorem AbsoluteHttp.isBackend_iff (absolute : AbsoluteHttp backend) :
    isBackend backend = true ↔ LowerCaseScheme backend := by
  refine ⟨lowerCaseScheme_of_isBackend, ?_⟩
  intro lower
  obtain ⟨scheme, rest, rfl, http, -, hosted, -⟩ := absoluteHttp_iff.mp absolute
  obtain ⟨nonempty, free⟩ := free_of_toLower http
  obtain ⟨c, member, -⟩ := other_of_host hosted
  have longer : 0 < (asBytes rest).length := asBytes_length_pos (List.ne_nil_of_mem member)
  unfold LowerCaseScheme at lower
  rw [split_of_authority nonempty free] at lower
  simp only [isBackend, Bool.and_eq_true, Bool.or_eq_true, List.isPrefixOf_iff_prefix,
    decide_eq_true_eq]
  rcases lower with same | same
  · obtain rfl : scheme = "http".toList := Option.some.inj same
    have split : "http".toList ++ ':' :: '/' :: '/' :: rest = "http://".toList ++ rest := rfl
    rw [split, asBytes_append, List.length_append]
    exact ⟨Or.inl (List.prefix_append _ _), by omega⟩
  · obtain rfl : scheme = "https".toList := Option.some.inj same
    have split : "https".toList ++ ':' :: '/' :: '/' :: rest = "https://".toList ++ rest := rfl
    have sizes : (asBytes "https://".toList).length = (asBytes "http://".toList).length + 1 := by
      decide
    rw [split, asBytes_append, List.length_append, sizes]
    exact ⟨Or.inr (List.prefix_append _ _), by omega⟩

end

/-! ### The checks together -/

@[simp] theorem refuseIf_ok_iff {defect : Bool} {error : ConfigError} :
    refuseIf defect error = .ok () ↔ defect = false := by
  cases defect with
  | true => simp [refuseIf]
  | false => simp [refuseIf]

private theorem validateAuth_ok_iff {auth : AuthConfig} :
    validateAuth auth = .ok () ↔
      auth.issuer.isSome = auth.issuerPublicKeyPem.isSome ∧ KeysPlaced auth := by
  unfold validateAuth KeysPlaced
  rw [refuseIf_bind_ok_iff, refuseIf_ok_iff]
  cases auth.keysDir with
  | none => simp
  | some dir => simp

private theorem nonzero_iff64 {value : UInt64} : (value == 0) = false ↔ 1 ≤ value := by
  rw [beq_eq_false_iff_ne, UInt64.le_iff_toNat_le, Ne, ← UInt64.toNat_inj]
  exact Nat.one_le_iff_ne_zero.symm

private theorem nonzero_iff32 {value : UInt32} : (value == 0) = false ↔ 1 ≤ value := by
  rw [beq_eq_false_iff_ne, UInt32.le_iff_toNat_le, Ne, ← UInt32.toNat_inj]
  exact Nat.one_le_iff_ne_zero.symm

/-- What the limiter section must have. -/
theorem validateRateLimit_ok_iff {ratelimit : RateLimitConfig} :
    validateRateLimit ratelimit = .ok () ↔
      1 ≤ ratelimit.limit ∧ 1 ≤ ratelimit.windowSecs ∧ ratelimit.redisUrl ≠ [] := by
  unfold validateRateLimit
  rw [refuseIf_bind_ok_iff, refuseIf_bind_ok_iff, refuseIf_ok_iff, nonzero_iff64,
    nonzero_iff32, List.isEmpty_eq_false_iff]

private theorem validateBreaker_ok_iff {breaker : BreakerSection} :
    validateBreaker breaker = .ok () ↔
      1 ≤ breaker.failureThreshold ∧ 1 ≤ breaker.cooldownSecs ∧ 1 ≤ breaker.timeoutSecs := by
  unfold validateBreaker
  rw [refuseIf_bind_ok_iff, refuseIf_bind_ok_iff, refuseIf_ok_iff, nonzero_iff64,
    nonzero_iff64, nonzero_iff32]

private theorem isCleanPrefix_iff {routePrefix : Text} :
    isCleanPrefix routePrefix = true ↔
      routePrefix ≠ [] ∧ ∀ c ∈ routePrefix, c.isAlpha ∨ c.isDigit ∨ c = '-' ∨ c = '_' := by
  simp [isCleanPrefix, isPrefixChar, Char.isAlphanum, or_assoc]

private theorem restDocumented_iff {config : GatewayConfig} :
    RestDocumented config ↔
      config.auth.issuer.isSome = config.auth.issuerPublicKeyPem.isSome ∧
        config.routes.isEmpty = false ∧ validateRateLimit config.ratelimit = .ok () ∧
        validateBreaker config.breaker = .ok () ∧
        ∀ entry ∈ config.routes.toList, isCleanPrefix entry.1 = true := by
  simp only [validateRateLimit_ok_iff, validateBreaker_ok_iff, isCleanPrefix_iff,
    ← Std.TreeMap.isEmpty_toList, List.isEmpty_eq_false_iff]
  constructor
  · rintro ⟨issuer, routes, limit, windowSecs, redisUrl, failureThreshold, cooldownSecs,
      timeoutSecs, prefixes⟩
    exact ⟨issuer, routes, ⟨limit, windowSecs, redisUrl⟩,
      ⟨failureThreshold, cooldownSecs, timeoutSecs⟩, prefixes⟩
  · rintro ⟨issuer, routes, ⟨limit, windowSecs, redisUrl⟩,
      ⟨failureThreshold, cooldownSecs, timeoutSecs⟩, prefixes⟩
    exact ⟨issuer, routes, limit, windowSecs, redisUrl, failureThreshold, cooldownSecs,
      timeoutSecs, prefixes⟩

private theorem GatewayConfig.validate_ok_iff {config : GatewayConfig} {routes : List Route} :
    config.validate = .ok routes ↔
      RestDocumented config ∧ KeysPlaced config.auth ∧
        (∀ entry ∈ config.routes.toList, isBackend entry.2 = true) ∧
        routes = routesOf config.routes := by
  rw [restDocumented_iff]
  simp only [GatewayConfig.validate, bind_ok_iff, validateRoutes_ok_iff]
  constructor
  · rintro ⟨⟨⟩, checked, ⟨⟩, nonempty, ⟨⟩, limited, ⟨⟩, guarded, entries, rfl⟩
    obtain ⟨issuer, placed⟩ := validateAuth_ok_iff.mp checked
    exact ⟨⟨issuer, refuseIf_ok_iff.mp nonempty, limited, guarded,
      fun entry member => (entries entry member).1⟩, placed,
      fun entry member => (entries entry member).2, rfl⟩
  · rintro ⟨⟨issuer, nonempty, limited, guarded, clean⟩, placed, valid, rfl⟩
    exact ⟨(), validateAuth_ok_iff.mpr ⟨issuer, placed⟩, (), refuseIf_ok_iff.mpr nonempty, (),
      limited, (), guarded, fun entry member => ⟨clean entry member, valid entry member⟩, rfl⟩

/-- `validate` judges a configuration by the documented rules exactly when this holds:
another rule is broken anyway; or all backends are as documented, and then no `keys_dir`
is missing where the code wants one and every scheme is in lower case; or some backend
is not as documented, and then the code refuses one of them or misses a `keys_dir`. -/
def JudgedAlike (config : GatewayConfig) : Prop :=
  RestDocumented config →
    ((∀ entry ∈ config.routes.toList, AbsoluteHttp entry.2) →
      KeysPlaced config.auth ∧ ∀ entry ∈ config.routes.toList, LowerCaseScheme entry.2) ∧
    ((∃ entry ∈ config.routes.toList, ¬ AbsoluteHttp entry.2) →
      ¬ KeysPlaced config.auth ∨ ∃ entry ∈ config.routes.toList, isBackend entry.2 = false)

private theorem pairwise_routesOf (table : Std.TreeMap Text Text) :
    (routesOf table).Pairwise fun first second =>
      compare first.routePrefix second.routePrefix = .lt := by
  unfold routesOf
  rw [List.pairwise_map]
  exact Std.TreeMap.ordered_keys_toList

theorem validates_as_documented_iff (config : GatewayConfig) :
    ValidatesAsDocumented config ↔ JudgedAlike config := by
  unfold ValidatesAsDocumented JudgedAlike Documented
  simp only [GatewayConfig.validate_ok_iff]
  constructor
  · rintro ⟨accepts, -⟩ rest
    refine ⟨?_, ?_⟩
    · intro absolute
      obtain ⟨-, -, placed, valid, -⟩ := accepts.mpr ⟨rest, absolute⟩
      exact ⟨placed, fun entry member =>
        (absolute entry member).isBackend_iff.mp (valid entry member)⟩
    · rintro ⟨entry, member, relative⟩
      by_contra! passed
      obtain ⟨placed, valid⟩ := passed
      have accepted := accepts.mp ⟨_, rest, placed, fun entry member => by
        simpa using valid entry member, rfl⟩
      exact relative (accepted.2 entry member)
  · intro judged
    have absolute : RestDocumented config → KeysPlaced config.auth →
        (∀ entry ∈ config.routes.toList, isBackend entry.2 = true) →
        ∀ entry ∈ config.routes.toList, AbsoluteHttp entry.2 := by
      intro rest placed valid entry member
      by_contra relative
      rcases (judged rest).2 ⟨entry, member, relative⟩ with unplaced | ⟨other, inside, invalid⟩
      · exact unplaced placed
      · rw [valid other inside] at invalid
        cases invalid
    refine ⟨⟨?_, ?_⟩, ?_⟩
    · rintro ⟨routes, rest, placed, valid, -⟩
      exact ⟨rest, absolute rest placed valid⟩
    · rintro ⟨rest, documented⟩
      obtain ⟨placed, lower⟩ := (judged rest).1 documented
      exact ⟨_, rest, placed, fun entry member =>
        (documented entry member).isBackend_iff.mpr (lower entry member), rfl⟩
    · rintro routes ⟨rest, placed, valid, rfl⟩
      refine ⟨rfl, pairwise_routesOf config.routes, ?_⟩
      intro route yielded
      obtain ⟨entry, member, rfl⟩ := List.mem_map.mp yielded
      exact (absolute rest placed valid entry member).trimmed

def crmTable (backend : Text) : Std.TreeMap Text Text := .ofList [("crm".toList, backend)]

/-- The external issuer of the README, on a route of the README. -/
def externalIssuer : GatewayConfig :=
  { GatewayConfig.ofRoutes (crmTable "http://crm:3000".toList) with
    auth := { AuthConfig.default with
      issuer := some "https://your-idp.example".toList
      issuerPublicKeyPem := some "/keys/idp-public.pem".toList } }

/-- The README's external issuer is refused, and backends without a host or without a
readable port are accepted. -/
theorem not_validates_as_documented :
    ¬ ValidatesAsDocumented externalIssuer ∧
      ¬ ValidatesAsDocumented (.ofRoutes (crmTable "https://".toList)) ∧
      ¬ ValidatesAsDocumented (.ofRoutes (crmTable "http://crm:notaport".toList)) := by
  refine ⟨?_, ?_, ?_⟩
  · rintro ⟨accepts, -⟩
    have documented : Documented externalIssuer := by
      have entries : externalIssuer.routes.toList =
        [("crm".toList, "http://crm:3000".toList)] := rfl
      have prefixes : ∀ entry ∈ externalIssuer.routes.toList,
          entry.1 ≠ [] ∧ ∀ c ∈ entry.1, c.isAlpha ∨ c.isDigit ∨ c = '-' ∨ c = '_' := by
        rw [entries, List.forall_mem_singleton, ← isCleanPrefix_iff]
        rfl
      refine ⟨⟨rfl, by decide, by decide, by decide, by decide, by decide, by decide, by decide,
        prefixes⟩, ?_⟩
      rw [entries, List.forall_mem_singleton]
      exact ⟨"http".toList, "crm:3000".toList, rfl, rfl, Or.inl rfl, by decide, by decide,
        by decide⟩
    obtain ⟨routes, accepted⟩ := accepts.mpr documented
    cases accepted
  · rintro ⟨accepts, -⟩
    obtain ⟨-, absolute⟩ := accepts.mp ⟨_, rfl⟩
    have entries : (GatewayConfig.ofRoutes (crmTable "https://".toList)).routes.toList =
      [("crm".toList, "https://".toList)] := rfl
    rw [entries, List.forall_mem_singleton] at absolute
    obtain ⟨scheme, authority, -, authorised, -, -, hosted, -⟩ := absolute
    obtain rfl : [] = authority := Option.some.inj authorised
    exact hosted rfl
  · rintro ⟨accepts, -⟩
    obtain ⟨-, absolute⟩ := accepts.mp ⟨_, rfl⟩
    have entries : (GatewayConfig.ofRoutes (crmTable "http://crm:notaport".toList)).routes.toList =
      [("crm".toList, "http://crm:notaport".toList)] := rfl
    rw [entries, List.forall_mem_singleton] at absolute
    obtain ⟨scheme, authority, -, authorised, -, placed, -⟩ := absolute
    obtain rfl : "crm:notaport".toList = authority := Option.some.inj authorised
    exact absurd placed (by decide)

end Ratewall.Config
