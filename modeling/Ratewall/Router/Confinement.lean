import Ratewall.Http.PathSegments
import Ratewall.Router.Target

/-! Owns whether a request stays under the base path of its backend. The suffix is handed
on as it came, and the URL parser resolves its dot segments together with the base path, so
a suffix that climbs above the place where it starts leaves the base. -/

namespace Ratewall.Router

open Ratewall.Rust
open Ratewall.Foundation
open Ratewall.Foundation.Program
open Ratewall.Config
open Ratewall.Circuit
open Ratewall.Http
open Ratewall.Auth
open Ratewall.RateLimit

/-- `http::Uri` takes neither blanks nor control characters. -/
structure VisibleUri (request : Request) : Prop where
  path : ∀ c ∈ request.path, ' ' < c
  query : ∀ query, request.query = some query → ∀ c ∈ query, ' ' < c

/-- The segments of a suffix as the parser reads them. -/
def suffixSegments (suffix : Text) : List Text := segments (slashed suffix)

/-- Where a suffix leads from the place where it starts. -/
def suffixCourse (suffix : Text) : Descent.Course Text :=
  Descent.course segmentKind (suffixSegments suffix)

/-- The names of the base path that a suffix climbs out of. -/
def leftBehind (backend suffix : Text) : List Text :=
  let names := baseNames (parsed backend).path
  names.drop (names.length - (suffixCourse suffix).up)

/-- The backend has opened a query or a fragment, which the suffix ends up in, or what the
suffix climbs out of is spelled again by what it goes down to. -/
def Confined (escape : Char → Text) (backend suffix : Text) : Prop :=
  (∃ c ∈ backend, c ∈ pathStops) ∨
    (pathText (leftBehind backend suffix)).flatMap escape <+:
      (pathText (suffixCourse suffix).down ++ trailing (suffixSegments suffix)).flatMap escape

/-- A suffix that never climbs above its start is confined. -/
theorem confined_of_level (escape : Char → Text) (backend : Text) {suffix : Text}
    (level : (suffixCourse suffix).up = 0) : Confined escape backend suffix := by
  have nothing : leftBehind backend suffix = [] := by
    unfold leftBehind
    rw [level]
    simp
  right
  rw [nothing]
  exact List.nil_prefix

/-- A backend without a base path has nothing to leave. -/
theorem confined_of_no_base (escape : Char → Text) {backend : Text} (suffix : Text)
    (bare : baseNames (parsed backend).path = []) : Confined escape backend suffix := by
  have nothing : leftBehind backend suffix = [] := by
    unfold leftBehind
    rw [bare]
    exact List.drop_nil
  right
  rw [nothing]
  exact List.nil_prefix

section

variable {scheme rest tail : Text} {request : Request}

private theorem queryText_cases (query : Option Text) :
    queryText query = [] ∨ ∃ more, queryText query = '?' :: more := by
  cases query with
  | none => exact Or.inl rfl
  | some more => exact Or.inr ⟨more, rfl⟩

/-- The path that is requested, once a suffix and a query have been appended, begins with
the base path exactly if the suffix is confined. -/
theorem basePath_prefix_iff_confined (escape : Char → Text)
    (http : scheme = "http".toList ∨ scheme = "https".toList)
    (tailFree : ∀ c ∈ tail, c ∉ pathStops) (visible : ∀ c ∈ tail, ' ' < c) :
    (basePath (parsed (scheme ++ ':' :: '/' :: '/' :: rest)).path).flatMap escape <+:
        (resolvedPath (parsed (target (scheme ++ ':' :: '/' :: '/' :: rest) ('/' :: tail)
          request)).path).flatMap escape ↔
      Confined escape (scheme ++ ':' :: '/' :: '/' :: rest) ('/' :: tail) := by
  have opens : (∃ c ∈ scheme ++ ':' :: '/' :: '/' :: rest, c ∈ pathStops) ↔
      ∃ c ∈ rest, c ∈ pathStops := by
    have split : scheme ++ ':' :: '/' :: '/' :: rest = (scheme ++ [':', '/', '/']) ++ rest := by
      simp
    rw [split]
    constructor
    · rintro ⟨c, member, stop⟩
      rcases List.mem_append.mp member with before | behind
      · exact absurd stop (beforeHost_free http c before)
      · exact ⟨c, behind, stop⟩
    · rintro ⟨c, member, stop⟩
      exact ⟨c, List.mem_append_right _ member, stop⟩
  unfold Confined
  rw [opens, target_eq]
  by_cases stop : ∃ c ∈ rest, c ∈ pathStops
  · rw [parsed_path_of_stop http stop]
    constructor
    · intro _
      exact Or.inl stop
    · intro _
      exact basePath_prefix_self escape _
  · have free : ∀ c ∈ rest, c ∉ pathStops := by
      intro c member opened
      exact stop ⟨c, member, opened⟩
    rw [parsed_path_suffix http free tailFree (queryText_cases request.query),
      untabbed_of_visible visible, basePath_prefix_iff escape (parsed_path_rooted http rest)]
    constructor
    · intro spelled
      exact Or.inr spelled
    · rintro (opened | spelled)
      · exact absurd opened stop
      · exact spelled

/-- A target ends in a character that the parser does not drop. -/
theorem last_visible (tailVisible : ∀ c ∈ tail, ' ' < c) (visible : VisibleUri request) :
    ∀ c ∈ (rest ++ '/' :: (tail ++ queryText request.query)).getLast?, ' ' < c := by
  intro c last
  rw [List.getLast?_append_of_ne_nil _ (List.cons_ne_nil _ _)] at last
  rcases List.mem_cons.mp (List.mem_of_mem_getLast? last) with rfl | member
  · decide
  · rcases List.mem_append.mp member with inTail | inQuery
    · exact tailVisible c inTail
    · cases asked : request.query with
      | none =>
          rw [asked] at inQuery
          cases inQuery
      | some query =>
          rw [asked] at inQuery
          rcases List.mem_cons.mp inQuery with rfl | inside
          · decide
          · exact visible.query query asked c inside

/-- What is left of an accepted backend is still a URL, if it has a host. -/
theorem exists_of_hasHost {backend : Text} (valid : isBackend backend = true)
    (host : HasHost (trimEndMatches '/' backend)) :
    ∃ scheme rest, (scheme = "http".toList ∨ scheme = "https".toList) ∧
      trimEndMatches '/' backend = scheme ++ ':' :: '/' :: '/' :: rest := by
  obtain ⟨scheme, rest, http, rfl⟩ := scheme_of_isBackend valid
  by_cases other : ∃ c ∈ rest, c ≠ '/'
  · exact ⟨scheme, trimEndMatches '/' rest, http, trimmed_of_other other⟩
  · push Not at other
    rw [trimmed_of_slashes http other] at host
    obtain ⟨authority, named, -⟩ := host
    rcases http with rfl | rfl
    · cases named
    · cases named

end

/-- A routed request is sent to the target, and the path that is then requested begins with
the base path of the backend exactly if the suffix is confined. A base path without dot
segments is taken as it is written. -/
theorem stays_under_base_iff_confined (json : Json.Codec) (urls : UrlCrate)
    (pathOf : urls.Url → Text) (escape : Char → Text)
    (resolves : ResolvesPaths urls pathOf escape) {scheme : Ed25519} (config : GatewayConfig)
    (routes : List Route) (accepted : config.validate = .ok routes) (auth : AuthState scheme)
    (limiter : RateLimiter) (cfg : BreakerConfig) (timeoutSecs : UInt64) (route : Route)
    (yielded : route ∈ routes) (host : HasHost route.backend) (request : Request)
    (parsedUri : ParsedUri request) (visible : VisibleUri request)
    (aimed : (splitPath request.path).1 = route.routePrefix) :
    (∀ trace rest, (proxyFallback urls (ProxyState.assembled routes auth limiter cfg timeoutSecs)
        json request).Follows trace rest →
      ∀ sent ∈ sends trace,
        sent.1.target = target route.backend (splitPath request.path).2 request) ∧
    (∀ url, urls.parse (target route.backend (splitPath request.path).2 request) = some url →
      ((basePath (parsed route.backend).path).flatMap escape <+: pathOf url ↔
        Confined escape route.backend (splitPath request.path).2)) ∧
    ((∀ segment ∈ segments (parsed route.backend).path, segmentKind segment = .name) →
      basePath (parsed route.backend).path = (parsed route.backend).path) := by
  obtain ⟨backend, found, -, valid, trimmed⟩ := (GatewayConfig.mem_routes_iff accepted).mp yielded
  rw [trimmed] at host
  obtain ⟨protocol, rest, http, whole⟩ := exists_of_hasHost valid host
  rw [whole] at host
  refine ⟨?_, ?_, ?_⟩
  · intro trace rest follows
    exact target_of_sent (backendFor_of_aimed auth limiter cfg timeoutSecs accepted yielded aimed)
      follows
  · intro url requested
    obtain ⟨tail, suffix, inside⟩ := splitPath_suffix request.path
    have tailFree : ∀ c ∈ tail, c ∉ pathStops :=
      fun c member => parsedUri.path c (inside c member)
    have tailVisible : ∀ c ∈ tail, ' ' < c := fun c member => visible.path c (inside c member)
    rw [trimmed, whole, suffix] at requested ⊢
    rw [← basePath_prefix_iff_confined escape http tailFree tailVisible]
    rw [target_eq] at requested ⊢
    rw [resolves.path http (hasHost_append http host) (last_visible tailVisible visible) requested]
  · intro names
    rw [trimmed, whole] at names ⊢
    exact basePath_of_names (parsed_path_rooted http rest) names

private theorem visibleUri_pathRequest {path : Text}
    (visible : (path.all fun c => decide (' ' < c)) = true) : VisibleUri (pathRequest path) := by
  constructor
  · intro c member
    simpa using List.all_eq_true.mp visible c member
  · intro query asked
    cases asked

/-- A suffix that goes up no further than it went down, with both spellings of a dot. -/
theorem stays_under_base_iff_confined_inside :
    "/api".toList <+: plainPath "http://crm:8000/api/users/%2E%2e/./x".toList := by
  have under := (stays_under_base_iff_confined Json.Text.flatCodec writtenUrls plainPath _
    writtenUrls_resolvesPaths (crmConfig "http://crm:8000/api/".toList)
    [⟨"crm".toList, "http://crm:8000/api".toList⟩] rfl OwnKeys.demoGateway.auth
    ⟨100, Duration.fromSecs 60, []⟩ crmBreaker.cfg 30
    ⟨"crm".toList, "http://crm:8000/api".toList⟩ (by simp)
    ⟨"crm:8000".toList, by decide, by decide⟩ (pathRequest "/crm/users/%2E%2e/./x".toList)
    (parsedUri_pathRequest rfl) (visibleUri_pathRequest (by decide)) rfl).2.1
    "http://crm:8000/api/users/%2E%2e/./x".toList rfl
  have base : (basePath (parsed "http://crm:8000/api".toList).path).flatMap (fun c => [c]) =
      "/api".toList := by decide
  rw [base] at under
  exact under.mpr (confined_of_level _ _ (by decide))

/-- One `..` leaves the base path `/api` for `/admin`. -/
theorem request_leaves_base :
    ¬ ∀ (urls : UrlCrate) (pathOf : urls.Url → Text) (escape : Char → Text),
      ResolvesPaths urls pathOf escape →
      ∀ (config : GatewayConfig) (routes : List Route), config.validate = .ok routes →
      ∀ route ∈ routes, HasHost route.backend →
      ∀ request : Request, ParsedUri request → VisibleUri request →
        (splitPath request.path).1 = route.routePrefix →
      ∀ url, urls.parse (target route.backend (splitPath request.path).2 request) = some url →
        (basePath (parsed route.backend).path).flatMap escape <+: pathOf url := by
  intro always
  have under := always writtenUrls plainPath _ writtenUrls_resolvesPaths
    (crmConfig "http://crm:8000/api".toList) [⟨"crm".toList, "http://crm:8000/api".toList⟩] rfl
    ⟨"crm".toList, "http://crm:8000/api".toList⟩ (by simp)
    ⟨"crm:8000".toList, by decide, by decide⟩ (pathRequest "/crm/../admin".toList)
    (parsedUri_pathRequest rfl) (visibleUri_pathRequest (by decide)) rfl
    "http://crm:8000/api/../admin".toList rfl
  have requested : plainPath "http://crm:8000/api/../admin".toList = "/admin".toList := by decide
  have base : (basePath (parsed "http://crm:8000/api".toList).path).flatMap (fun c => [c]) =
      "/api".toList := by decide
  rw [base, requested] at under
  revert under
  decide

end Ratewall.Router
