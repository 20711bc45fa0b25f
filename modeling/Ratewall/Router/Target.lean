import Ratewall.Http.Uri
import Ratewall.Router.Stages

/-! Owns where a request is sent: the target is the text of the backend, the suffix
and the query one after the other, so what each becomes in the URL depends on
where the text before it leaves off. `validate` asks of a backend that it starts
with `http://` or `https://` and is longer than the first; it does not ask that a
host follows, nor that no query or fragment has been opened. -/

namespace Ratewall.Router

open Ratewall.Rust
open Ratewall.Foundation
open Ratewall.Foundation.Program
open Ratewall.Config
open Ratewall.Circuit
open Ratewall.Http
open Ratewall.Auth
open Ratewall.RateLimit

/-- The target keeps the scheme and the host of the backend, its path is the path of
the backend with the suffix, and its query is that of the request. -/
structure Faithful (target backend suffix : Text) (query : Option Text) : Prop where
  scheme : (Uri.split target).scheme = (Uri.split backend).scheme
  authority : (Uri.split target).authority = (Uri.split backend).authority
  host : ∃ host, (Uri.split backend).authority = some host ∧ host ≠ []
  path : (Uri.split target).path = (Uri.split backend).path ++ suffix
  query : (Uri.split target).query = query

/-- The path and the query of `http::Uri`: the path ends before the first `?` or
`#`, the query before the first `#`. -/
structure ParsedUri (request : Request) : Prop where
  path : ∀ c ∈ request.path, c ∉ pathStops
  query : ∀ query, request.query = some query → ∀ c ∈ query, c ∉ queryStops

/-- After the scheme a host begins, and nothing opens a query or a fragment. -/
def namesHost (backend : Text) : Bool :=
  match stripPrefix "http://".toList backend <|> stripPrefix "https://".toList backend with
  | some (c :: rest) => c != '/' && (c :: rest).all fun c => !pathStops.contains c
  | _ => false

/-! ### The suffix -/

/-- The suffix begins with a slash and holds only what the path held. -/
theorem splitPath_suffix (path : Text) :
    ∃ rest, (splitPath path).2 = '/' :: rest ∧ ∀ c ∈ rest, c ∈ path := by
  rcases splitPath_cases path with ⟨-, bare, -⟩ | ⟨pfx, rest, joined, -, parts, -⟩
  · exact ⟨[], by rw [bare], by simp⟩
  · refine ⟨rest, by rw [parts], ?_⟩
    intro c member
    have inside : c ∈ trimStartMatches '/' path := by
      rw [joined]
      exact List.mem_append_right _ (List.mem_cons_of_mem _ member)
    exact (List.dropWhile_sublist _).subset inside

/-! ### The backend -/

section

variable {scheme rest : Text} (http : scheme = "http".toList ∨ scheme = "https".toList)

include http

private theorem namesHost_iff : namesHost (scheme ++ ':' :: '/' :: '/' :: rest) = true ↔
    (∃ c more, rest = c :: more ∧ c ≠ '/') ∧ ∀ c ∈ rest, c ∉ pathStops := by
  have strips : namesHost (scheme ++ ':' :: '/' :: '/' :: rest) =
      match rest with
      | c :: rest => c != '/' && (c :: rest).all fun c => !pathStops.contains c
      | [] => false := by
    rcases http with rfl | rfl
    · cases rest <;> rfl
    · cases rest <;> rfl
  rw [strips]
  cases rest with
  | nil => simp
  | cons c rest => simp

/-- A backend of slashes alone is trimmed to its scheme. -/
theorem trimmed_of_slashes (slashes : ∀ c ∈ rest, c = '/') :
    trimEndMatches '/' (scheme ++ ':' :: '/' :: '/' :: rest) = scheme ++ [':'] := by
  have split : scheme ++ ':' :: '/' :: '/' :: rest = (scheme ++ [':']) ++ '/' :: '/' :: rest := by
    simp
  rw [split, trimEndMatches_all (by simpa using slashes)]
  rcases http with rfl | rfl
  · decide
  · decide

omit http in
theorem trimmed_of_other (other : ∃ c ∈ rest, c ≠ '/') :
    trimEndMatches '/' (scheme ++ ':' :: '/' :: '/' :: rest) =
      scheme ++ ':' :: '/' :: '/' :: trimEndMatches '/' rest := by
  have split : scheme ++ ':' :: '/' :: '/' :: rest = (scheme ++ [':', '/', '/']) ++ rest := by simp
  rw [split, trimEndMatches_append other]
  simp

end

private theorem trimEndMatches_free_iff {rest : Text} :
    (∀ c ∈ trimEndMatches '/' rest, c ∉ pathStops) ↔ ∀ c ∈ rest, c ∉ pathStops := by
  have slash : '/' ∉ pathStops := by decide
  constructor
  · intro free c member stops
    have differs : c ≠ '/' := by
      intro same
      exact slash (same ▸ stops)
    exact free c ((mem_trimEndMatches differs).mpr member) stops
  · intro free c member
    exact free c ((List.rdropWhile_prefix _ _).subset member)

private theorem trimEndMatches_cons {c : Char} (differs : c ≠ '/') (more : Text) :
    ∃ others, trimEndMatches '/' (c :: more) = c :: others := by
  have kept : c ∈ trimEndMatches '/' (c :: more) :=
    (mem_trimEndMatches differs).mpr List.mem_cons_self
  obtain ⟨removed, joined⟩ : trimEndMatches '/' (c :: more) <+: c :: more :=
    List.rdropWhile_prefix _ _
  cases trimmed : trimEndMatches '/' (c :: more) with
  | nil =>
      rw [trimmed] at kept
      cases kept
  | cons first others =>
      rw [trimmed] at joined
      injection joined with same _
      exact ⟨others, by rw [same]⟩

/-- The trailing slashes decide neither where the host begins nor what it holds. -/
theorem trimEndMatches_host_iff {rest : Text} :
    ((∃ c more, trimEndMatches '/' rest = c :: more ∧ c ∉ authorityStops) ∧
        ∀ c ∈ trimEndMatches '/' rest, c ∉ pathStops) ↔
      (∃ c more, rest = c :: more ∧ c ≠ '/') ∧ ∀ c ∈ rest, c ∉ pathStops := by
  rw [trimEndMatches_free_iff]
  constructor
  · rintro ⟨⟨c, more, trimmed, stops⟩, free⟩
    obtain ⟨removed, joined⟩ : trimEndMatches '/' rest <+: rest := List.rdropWhile_prefix _ _
    rw [trimmed] at joined
    refine ⟨⟨c, more ++ removed, joined.symm, ?_⟩, free⟩
    intro same
    exact stops (same ▸ by decide)
  · rintro ⟨⟨c, more, rfl, differs⟩, free⟩
    obtain ⟨others, trimmed⟩ := trimEndMatches_cons differs more
    refine ⟨⟨c, others, trimmed, ?_⟩, free⟩
    intro stops
    have either : c = '/' ∨ c ∈ pathStops := by
      simpa [authorityStops, pathStops] using stops
    rcases either with slash | stop
    · exact differs slash
    · exact free c List.mem_cons_self stop

/-! ### The target -/

section

variable {scheme rest : Text} {request : Request} {suffix : Text}

/-- The target is the backend, a slash, the suffix and the query. -/
theorem target_eq (rest tail : Text) (request : Request) :
    target (scheme ++ ':' :: '/' :: '/' :: rest) ('/' :: tail) request =
      scheme ++ ':' :: '/' :: '/' :: (rest ++ '/' :: (tail ++ queryText request.query)) := by
  simp [target]

/-- Where the host is named, the suffix is still in the path when it ends. -/
theorem ofParts_target {authority : Option Text} {base tail : Text} (parsed : ParsedUri request)
    (baseFree : ∀ c ∈ base, c ∉ pathStops) (tailFree : ∀ c ∈ tail, c ∉ pathStops) :
    Uri.ofParts (some scheme) authority (base ++ '/' :: (tail ++ queryText request.query)) =
      ⟨some scheme, authority, base ++ '/' :: tail, request.query, none⟩ := by
  have free : ∀ c ∈ base ++ '/' :: tail, c ∉ pathStops := by
    intro c member
    simp only [List.mem_append, List.mem_cons] at member
    rcases member with inBase | rfl | inTail
    · exact baseFree c inBase
    · decide
    · exact tailFree c inTail
  cases asked : request.query with
  | none =>
      rw [queryText, List.append_nil]
      exact ofParts_path free
  | some query =>
      have split : base ++ '/' :: (tail ++ '?' :: query) = (base ++ '/' :: tail) ++ '?' :: query := by
        simp
      rw [queryText, split]
      exact ofParts_query free (parsed.query query asked)

private theorem upTo_ne_nil_iff {stops text : Text} :
    upTo stops text ≠ [] ↔ ∃ c more, text = c :: more ∧ c ∉ stops := by
  cases text with
  | nil => simp [upTo]
  | cons c more => simp [upTo]

private theorem faithful_iff_host (http : scheme = "http".toList ∨ scheme = "https".toList)
    (parsed : ParsedUri request) {tail : Text} (tailFree : ∀ c ∈ tail, c ∉ pathStops) :
    Faithful (target (scheme ++ ':' :: '/' :: '/' :: rest) ('/' :: tail) request)
        (scheme ++ ':' :: '/' :: '/' :: rest) ('/' :: tail) request.query ↔
      (∃ c more, rest = c :: more ∧ c ∉ authorityStops) ∧ ∀ c ∈ rest, c ∉ pathStops := by
  have backendSplit := @split_of_authority scheme rest (scheme_ne_nil http) (scheme_free http)
  have targetSplit := @split_of_authority scheme
    (rest ++ '/' :: (tail ++ queryText request.query)) (scheme_ne_nil http) (scheme_free http)
  rw [← target_eq, upTo_append_stop (by decide), since_append_stop (by decide)] at targetSplit
  rw [← upTo_ne_nil_iff, ← since_free_iff]
  constructor
  · intro faithful
    obtain ⟨host, named, nonempty⟩ := faithful.host
    rw [backendSplit] at named
    refine ⟨Option.some.inj named ▸ nonempty, ?_⟩
    -- A stop in the base would hide the suffix from the path.
    by_contra stops
    push Not at stops
    have hidden := faithful.path
    rw [targetSplit, backendSplit] at hidden
    simp only [Uri.ofParts] at hidden
    rw [upTo_append_of_stop stops] at hidden
    simpa using congrArg List.length hidden
  · rintro ⟨nonempty, free⟩
    rw [ofParts_target parsed free tailFree] at targetSplit
    rw [ofParts_path free] at backendSplit
    constructor
    · rw [targetSplit, backendSplit]
    · rw [targetSplit, backendSplit]
    · exact ⟨_, by rw [backendSplit], nonempty⟩
    · rw [targetSplit, backendSplit]
    · rw [targetSplit]

/-- A text that ends with its scheme names no host. -/
theorem not_faithful_of_scheme (http : scheme = "http".toList ∨ scheme = "https".toList)
    {aim : Text} {query : Option Text} : ¬Faithful aim (scheme ++ [':']) suffix query := by
  intro faithful
  obtain ⟨host, named, -⟩ := faithful.host
  rw [split_of_scheme (scheme_ne_nil http) (scheme_free http)] at named
  cases named

/-- What is left of an accepted backend keeps requests in place exactly when the
backend names a host and opens neither a query nor a fragment. -/
theorem faithful_iff_namesHost {backend : Text} (valid : isBackend backend = true)
    (parsed : ParsedUri request) :
    Faithful (target (trimEndMatches '/' backend) (splitPath request.path).2 request)
        (trimEndMatches '/' backend) (splitPath request.path).2 request.query ↔
      namesHost backend = true := by
  obtain ⟨scheme, rest, http, rfl⟩ := scheme_of_isBackend valid
  obtain ⟨tail, suffix, inside⟩ := splitPath_suffix request.path
  have tailFree : ∀ c ∈ tail, c ∉ pathStops := fun c member => parsed.path c (inside c member)
  rw [suffix, namesHost_iff http]
  by_cases other : ∃ c ∈ rest, c ≠ '/'
  · rw [trimmed_of_other other, faithful_iff_host http parsed tailFree, trimEndMatches_host_iff]
  · push Not at other
    rw [trimmed_of_slashes http other]
    constructor
    · intro faithful
      exact absurd faithful (not_faithful_of_scheme http)
    · rintro ⟨⟨c, more, rfl, differs⟩, -⟩
      exact absurd (other c List.mem_cons_self) differs

end

private theorem Onward.sends_target {scheme : Ed25519} {state : ProxyState scheme}
    {request : Request}
    {trace : Trace} {rest : Handler} (onward : Onward state request trace rest) {backend : Text}
    (known : state.backendFor (splitPath request.path).1 = some backend) :
    ∀ sent ∈ sends trace, sent.1.target = target backend (splitPath request.path).2 request := by
  cases onward with
  | @forwarded found breaker later routed forwards rest =>
      intro sent member
      have same : found = backend := Option.some.inj (routed.known.symm.trans known)
      obtain ⟨made, inside, isSend⟩ := List.mem_filterMap.mp member
      rcases List.mem_cons.mp inside with rfl | inLater
      · cases isSend
      · have forward := forwards made inLater
        obtain ⟨op, answer⟩ := made
        cases op with
        | send outbound =>
            cases isSend
            rw [← same]
            exact forward
        | _ => cases isSend
  | _ => simp [sends, sendOf]

section

variable {json : Json.Codec} {urls : UrlCrate} {scheme : Ed25519} {routes : List Route}
  {auth : AuthState scheme} {limiter : RateLimiter} {cfg : BreakerConfig} {timeoutSecs : UInt64}
  {route : Route} {request : Request}

/-- A request for an accepted route finds the backend of that route. -/
theorem backendFor_of_aimed {config : GatewayConfig} (auth : AuthState scheme)
    (limiter : RateLimiter) (cfg : BreakerConfig) (timeoutSecs : UInt64)
    (accepted : config.validate = .ok routes) (yielded : route ∈ routes)
    (aimed : (splitPath request.path).1 = route.routePrefix) :
    (ProxyState.assembled routes auth limiter cfg timeoutSecs).backendFor
      (splitPath request.path).1 = some route.backend := by
  have wired := wired_assembled routes auth limiter cfg timeoutSecs
  rw [aimed]
  exact wired.backendFor_of_mem accepted yielded

/-- Whatever is sent for a request goes to the target at its route's backend. -/
theorem target_of_sent {trace : Trace} {rest : Handler}
    (known : (ProxyState.assembled routes auth limiter cfg timeoutSecs).backendFor
      (splitPath request.path).1 = some route.backend)
    (follows : (proxyFallback urls (ProxyState.assembled routes auth limiter cfg timeoutSecs)
      json request).Follows trace rest) :
    ∀ sent ∈ sends trace,
      sent.1.target = target route.backend (splitPath request.path).2 request := by
  intro sent member
  have sent_ne : sends trace ≠ [] := List.ne_nil_of_mem member
  cases course_of_follows routes auth limiter cfg timeoutSecs follows with
  | passed verifies passes onward =>
      rw [sends_append, sends_decided, List.nil_append] at member
      exact onward.sends_target known sent member
  | _ => exact absurd rfl sent_ne

end

/-- A request that is routed to an accepted backend is sent to the target, which keeps
the request in place exactly when the configured backend names a host and opens
neither a query nor a fragment. -/
theorem target_faithful_iff (json : Json.Codec) (urls : UrlCrate) {scheme : Ed25519}
    (config : GatewayConfig) (routes : List Route) (accepted : config.validate = .ok routes)
    (auth : AuthState scheme) (limiter : RateLimiter) (cfg : BreakerConfig) (timeoutSecs : UInt64)
    (route : Route) (yielded : route ∈ routes) (request : Request) (parsed : ParsedUri request)
    (aimed : (splitPath request.path).1 = route.routePrefix) :
    (ProxyState.assembled routes auth limiter cfg timeoutSecs).backendFor
        (splitPath request.path).1 = some route.backend ∧
    (∀ trace rest, (proxyFallback urls (ProxyState.assembled routes auth limiter cfg timeoutSecs)
        json request).Follows trace rest →
      ∀ sent ∈ sends trace,
        sent.1.target = target route.backend (splitPath request.path).2 request) ∧
    (Faithful (target route.backend (splitPath request.path).2 request) route.backend
        (splitPath request.path).2 request.query ↔
      ∃ backend, config.routes[route.routePrefix]? = some backend ∧ namesHost backend = true) := by
  have known := backendFor_of_aimed auth limiter cfg timeoutSecs accepted yielded aimed
  refine ⟨known, fun trace rest follows => target_of_sent known follows, ?_⟩
  · obtain ⟨backend, found, -, valid, trimmed⟩ := (GatewayConfig.mem_routes_iff accepted).mp yielded
    rw [trimmed, faithful_iff_namesHost valid parsed]
    constructor
    · intro names
      exact ⟨backend, found, names⟩
    · rintro ⟨other, foundOther, names⟩
      rw [found] at foundOther
      rw [Option.some.inj foundOther]
      exact names

def crmConfig (backend : Text) : GatewayConfig := .ofRoutes (.ofList [("crm".toList, backend)])

def pathRequest (path : Text) : Request := { crmRequest with path := path }

theorem parsedUri_pathRequest {path : Text}
    (free : (path.all fun c => !pathStops.contains c) = true) : ParsedUri (pathRequest path) := by
  constructor
  · intro c member
    simpa using List.all_eq_true.mp free c member
  · intro query asked
    cases asked

/-- A backend with a host, a port and a base path. -/
theorem target_faithful_iff_on_base_path :
    Faithful "http://crm:8000/api/users".toList "http://crm:8000/api".toList "/users".toList none :=
  (target_faithful_iff Json.Text.flatCodec plainUrls (crmConfig "http://crm:8000/api/".toList)
    [⟨"crm".toList, "http://crm:8000/api".toList⟩] rfl OwnKeys.demoGateway.auth
    ⟨100, Duration.fromSecs 60, []⟩ crmBreaker.cfg 30
    ⟨"crm".toList, "http://crm:8000/api".toList⟩ (by simp) (pathRequest "/crm/users".toList)
    (parsedUri_pathRequest rfl) rfl).2.2.mpr
    ⟨"http://crm:8000/api/".toList, rfl, rfl⟩

/-- `https://` is accepted as a backend, and then the path of the request chooses the
host. -/
theorem request_chooses_host :
    ¬ ∀ (config : GatewayConfig) (routes : List Route), config.validate = .ok routes →
      ∀ route ∈ routes, ∀ request : Request, ParsedUri request →
        (splitPath request.path).1 = route.routePrefix →
        Faithful (target route.backend (splitPath request.path).2 request) route.backend
          (splitPath request.path).2 request.query := by
  intro always
  have faithful := always (crmConfig "https://".toList) [⟨"crm".toList, "https:".toList⟩] rfl
    ⟨"crm".toList, "https:".toList⟩ (by simp) (pathRequest "/crm//evil.example/x".toList)
    (parsedUri_pathRequest rfl) rfl
  have chosen : (Uri.split (target "https:".toList
      (splitPath "/crm//evil.example/x".toList).2
      (pathRequest "/crm//evil.example/x".toList))).authority = some "evil.example".toList := by
    decide
  have configured : (Uri.split "https:".toList).authority = none := by decide
  have kept := faithful.authority
  rw [configured] at kept
  cases kept.symm.trans chosen

end Ratewall.Router
