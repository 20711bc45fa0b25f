import Ratewall.Foundation.Quota
import Ratewall.Foundation.Trail
import Ratewall.Gateway.Labels

/-! Owns what the rejections of the limiter are charged to. Each is counted once,
under the label that the rejection path makes of the path. The forwarding path
takes a path without a second slash for a prefix, the rejection path takes it for
nothing: so the count of a route misses exactly the rejections of its bare path. -/

namespace Ratewall.Gateway

open Ratewall.Rust
open Ratewall.Foundation
open Ratewall.Foundation.Program
open Ratewall.Config
open Ratewall.Circuit
open Ratewall.Http
open Ratewall.Auth
open Ratewall.RateLimit
open Ratewall.Metrics
open Ratewall.Router

/-- The request that the step answers with a 429 before any breaker was asked: one
that the limiter turned away. -/
def limitedBy (before : Worlds) : WorldEvent → List Request
  | .exec id offer =>
      match before.threads id with
      | some ⟨note, .call action next⟩ =>
          let answer := (before.shared.act id action (offer action)).1
          match next answer with
          | .done response =>
              if response.status = .tooManyRequests ∧
                  (World.observe note action answer).phase = .fresh then [note.request]
              else []
          | .call _ _ => []
      | _ => []
  | _ => []

section

variable (json : Json.Codec) (urls : UrlCrate) {scheme : Ed25519} (state : ProxyState scheme)

/-- The requests that the limiter turned away in a run, in order. -/
def limited (start : Worlds) (events : List WorldEvent) : List Request :=
  trail (worldStep json urls state) limitedBy start events

end

/-- What a rejected request is charged to. -/
def chargedTo (label : Text) (request : Request) : Bool := rejectedPrefix request.path = label

/-- What it would have been routed by. -/
def routedTo (label : Text) (request : Request) : Bool := (splitPath request.path).1 = label

/-! ### One step -/

section

variable {json : Json.Codec} {urls : UrlCrate} {scheme : Ed25519} {state : ProxyState scheme}
  {routes : List Route} {cfg : BreakerConfig} {before after : Worlds} {event : WorldEvent}
  {shown : List Request}

private theorem not_labelled_countingRejection (metered : state.metrics = some {}) {phase : Phase}
    {request other : Request} {retryAfter : UInt64} :
    ¬Labelled state routes request phase (countingRejection other retryAfter) := by
  rintro (⟨-, retryAfter', exits⟩ | ⟨fits, -⟩)
  · rw [rejecting_eq metered] at exits
    cases exits
  · exact fits.2.2 _ rfl

/-- A request either is about to count its rejection, or counts none, gets no 429
before the breaker, and comes to count one only by looking up its own label. -/
theorem standing_cases (metered : state.metrics = some {}) {note : Note} {action : Action}
    {next : Outcome action → Program Action Outcome Response}
    (standing : Standing state routes note (.call action next)) :
    (note.phase = .fresh ∧ ∃ retryAfter,
        .call action next = countingRejection note.request retryAfter) ∨
      ((∀ pfx, action ≠ .registry (.fetchAdd pfx .rateLimited)) ∧
        ∀ answer,
          (∀ response, next answer = .done response → phaseAfter note.phase action answer = .fresh →
            response.status ≠ .tooManyRequests) ∧
          ∀ retryAfter, next answer = countingRejection note.request retryAfter →
            action = .registry (.countersFor (rejectedPrefix note.request.path))) := by
  rcases standing with labelled | here | ⟨retryAfter, ended⟩
  · rcases labelled with ⟨-, retryAfter, exits⟩ | ⟨fits, continues⟩
    · rw [rejecting_eq metered] at exits
      cases exits
      refine Or.inr ⟨by simp, ?_⟩
      intro answer
      constructor
      · intro response ended
        cases ended
      · intro _ _
        rfl
    · refine Or.inr ⟨?_, ?_⟩
      · rintro pfx rfl
        exact fits.2.2 pfx rfl
      · intro answer
        have later := continues answer
        constructor
        · intro response ended isFresh
          rw [ended] at later
          rcases later with ⟨-, retryAfter, exits⟩ | ends
          · rw [rejecting_eq metered] at exits
            cases exits
          · exact ends isFresh
        · intro retryAfter counts
          rw [counts] at later
          exact absurd later (not_labelled_countingRejection metered)
  · exact Or.inl here
  · cases ended

/-- The rejections counted so far are those that were answered. -/
structure Charged (state : ProxyState scheme) (routes : List Route) (worlds : Worlds)
    (shown : List Request) : Prop where
  standing : Pool.Threads (Standing state routes) worlds
  present : ∀ id note retryAfter,
    worlds.threads id = some ⟨note, countingRejection note.request retryAfter⟩ →
      rejectedPrefix note.request.path ∈ worlds.shared.registry.perPrefix
  total : ∀ label, (worlds.shared.registry.counters label).rateLimitedTotal =
    shown.countP (chargedTo label)

private theorem charged_init (world : World) (empty : world.registry = {}) :
    Charged state routes (Pool.init world) [] := by
  refine ⟨Pool.threads_init _ world, ?_, ?_⟩
  · intro id note retryAfter found
    cases found
  · intro label
    simp only [Pool.init, empty, List.countP_nil]
    rfl

private theorem mem_perPrefix_act {label : Text} (world : World)
    (present : label ∈ world.registry.perPrefix) (id : Nat) (action : Action)
    (offer : Outcome action) : label ∈ (world.act id action offer).2.registry.perPrefix := by
  cases action with
  | handler op =>
      rw [act_handler_registry]
      exact present
  | redis op => exact present
  | registry op =>
      rw [act_registry_registry]
      exact Registry.mem_perPrefix_after present op

private theorem rateLimitedTotal_act (world : World) (id : Nat) {action : Action}
    (offer : Outcome action)
    (other : ∀ pfx, action ≠ .registry (.fetchAdd pfx .rateLimited)) (label : Text) :
    ((world.act id action offer).2.registry.counters label).rateLimitedTotal =
      (world.registry.counters label).rateLimitedTotal := by
  cases action with
  | handler op => rw [act_handler_registry]
  | redis op => rfl
  | registry op =>
      rw [act_registry_registry]
      apply Registry.rateLimitedTotal_after
      intro pfx same
      exact other pfx (congrArg _ same)

section

variable {id : Nat} {offer : (action : Action) → Outcome action} {note : Note}

/-- The pool after the next call of a request was answered. -/
def answeredNext (before : Worlds) (id : Nat) (note : Note) (action : Action)
    (next : Outcome action → Program Action Outcome Response) (answered : Outcome action × World) :
    Worlds :=
  { before with
    shared := answered.2
    threads := Function.update before.threads id
      (some ⟨World.observe note action answered.1, next answered.1⟩) }

private theorem limitedBy_counting (isFresh : note.phase = .fresh) {retryAfter : UInt64}
    (found : before.threads id = some ⟨note, countingRejection note.request retryAfter⟩) :
    limitedBy before (.exec id offer) = [note.request] := by
  rw [countingRejection] at found
  simp [limitedBy, found, observe_eq, phaseAfter, isFresh, rateLimited, intoResponse]

private theorem limitedBy_other {action : Action}
    {next : Outcome action → Program Action Outcome Response}
    (found : before.threads id = some ⟨note, .call action next⟩)
    (ended : ∀ answer response, next answer = .done response →
      phaseAfter note.phase action answer = .fresh → response.status ≠ .tooManyRequests) :
    limitedBy before (.exec id offer) = [] := by
  simp only [limitedBy, found, observe_eq]
  split
  next response done =>
    rw [if_neg]
    rintro ⟨status, isFresh⟩
    exact ended _ response done isFresh status
  next => rfl

/-- The request counts its rejection and is answered. -/
theorem charged_counting (charged : Charged state routes before shown)
    (isFresh : note.phase = .fresh) {retryAfter : UInt64}
    (found : before.threads id = some ⟨note, countingRejection note.request retryAfter⟩)
    (standing : Pool.Threads (Standing state routes) (answeredNext before id note _
      (fun _ => .done (rateLimited retryAfter)) (before.shared.act id
        (.registry (.fetchAdd (rejectedPrefix note.request.path) .rateLimited)) ()))) :
    Charged state routes (answeredNext before id note _
        (fun _ => .done (rateLimited retryAfter)) (before.shared.act id
          (.registry (.fetchAdd (rejectedPrefix note.request.path) .rateLimited)) ()))
      (shown ++ limitedBy before (.exec id offer)) := by
  refine ⟨standing, ?_, ?_⟩
  · intro other otherNote retryAfter' held
    rcases filled_cases held with ⟨-, same⟩ | ⟨-, held⟩
    · cases same
    · exact mem_perPrefix_act _ (charged.present other otherNote retryAfter' held) _ _ _
  · intro label
    have present := charged.present id note retryAfter found
    have added := act_registry_registry before.shared id
      (.fetchAdd (rejectedPrefix note.request.path) .rateLimited) ()
    simp only [answeredNext, added, Registry.counters_fetchAdd, limitedBy_counting isFresh found,
      List.countP_append, ← charged.total label, List.countP_singleton, chargedTo, present,
      and_true, decide_eq_true_eq]
    split
    next => rfl
    next => rfl

/-- The request does anything else. -/
theorem charged_other {action : Action} {next : Outcome action → Program Action Outcome Response}
    {answered : Outcome action × World} (charged : Charged state routes before shown)
    (found : before.threads id = some ⟨note, .call action next⟩)
    (acted : answered = before.shared.act id action (offer action))
    (other : ∀ pfx, action ≠ .registry (.fetchAdd pfx .rateLimited))
    (ended : ∀ answer response, next answer = .done response →
      phaseAfter note.phase action answer = .fresh → response.status ≠ .tooManyRequests)
    (counts : ∀ answer retryAfter, next answer = countingRejection note.request retryAfter →
      action = .registry (.countersFor (rejectedPrefix note.request.path)))
    (standing : Pool.Threads (Standing state routes)
      (answeredNext before id note action next answered)) :
    Charged state routes (answeredNext before id note action next answered)
      (shown ++ limitedBy before (.exec id offer)) := by
  subst acted
  rw [limitedBy_other found ended, List.append_nil]
  refine ⟨standing, ?_, ?_⟩
  · intro thread otherNote retryAfter held
    rcases filled_cases held with ⟨-, same⟩ | ⟨-, held⟩
    · rw [observe_eq] at same
      injection same with isNote isNext
      subst isNote
      have lookedUp := counts _ retryAfter isNext.symm
      subst lookedUp
      exact Std.TreeMap.mem_insertIfNew_self
    · exact mem_perPrefix_act _ (charged.present thread otherNote retryAfter held) _ _ _
  · intro label
    rw [← charged.total label]
    exact rateLimitedTotal_act before.shared id (offer action) other label

end

/-- A step that answers one call of one request. -/
theorem charged_exec (metered : state.metrics = some {}) {id : Nat}
    {offer : (action : Action) → Outcome action} {note : Note} {action : Action}
    {next : Outcome action → Program Action Outcome Response}
    (charged : Charged state routes before shown)
    (found : before.threads id = some ⟨note, .call action next⟩)
    (standing : Pool.Threads (Standing state routes) (answeredNext before id note action next
      (before.shared.act id action (offer action)))) :
    Charged state routes (answeredNext before id note action next
        (before.shared.act id action (offer action)))
      (shown ++ limitedBy before (.exec id offer)) := by
  have stands : Standing state routes note (.call action next) := charged.standing id _ found
  rcases standing_cases metered stands with ⟨isFresh, retryAfter, counts⟩ | ⟨other, answers⟩
  · cases counts
    exact charged_counting charged isFresh found standing
  · exact charged_other charged found rfl other (fun answer => (answers answer).1)
      (fun answer => (answers answer).2) standing

private theorem charged_step (wired : Wired state routes cfg) (metered : state.metrics = some {})
    (charged : Charged state routes before shown)
    (stepped : worldStep json urls state before event = some after) :
    Charged state routes after (shown ++ limitedBy before event) := by
  have standing := standing_step wired metered charged.standing stepped
  rcases Pool.step_cases stepped with ⟨request, rfl, rfl⟩ |
    ⟨id, offer, note, action, next, rfl, found, rfl⟩ | ⟨id, thread, rfl, -, rfl⟩ |
    ⟨change, rfl, rfl⟩
  · have quiet : limitedBy before (.spawn request) = [] := rfl
    rw [quiet, List.append_nil]
    refine ⟨standing, ?_, charged.total⟩
    intro other note retryAfter held
    rcases filled_cases held with ⟨-, same⟩ | ⟨-, held⟩
    · injection same with isNote isBody
      have labelled := labelled_worldHandler json urls wired metered request
      have counts : worldHandler json urls state request = _ := isBody.symm
      rw [counts] at labelled
      exact absurd labelled (not_labelled_countingRejection metered)
    · exact charged.present other note retryAfter held
  · exact charged_exec metered charged found standing
  · have quiet : limitedBy before (.drop id) = [] := rfl
    rw [quiet, List.append_nil]
    refine ⟨standing, ?_, charged.total⟩
    intro other note retryAfter held
    exact charged.present other note retryAfter (emptied_cases held).2
  · have quiet : limitedBy before (.ambient change) = [] := rfl
    have kept : (before.shared.change state change).registry.perPrefix =
        before.shared.registry.perPrefix := by
      cases change with
      | gateway change => rfl
      | clock millis => rfl
      | scrape => exact Registry.publish_perPrefix _ _
    rw [quiet, List.append_nil]
    refine ⟨standing, ?_, ?_⟩
    · intro id note retryAfter held
      show _ ∈ (before.shared.change state change).registry.perPrefix
      rw [kept]
      exact charged.present id note retryAfter held
    · intro label
      rw [← charged.total label]
      show ((before.shared.change state change).registry.perPrefix.getD label {}).rateLimitedTotal = _
      rw [kept]
      rfl

end

/-! ### Runs -/

/-- Both paths derive the same prefix, except from a path that is a prefix and nothing
else. -/
theorem rejectedPrefix_eq_iff (path : Text) :
    rejectedPrefix path = (splitPath path).1 ↔
      trimStartMatches '/' path = [] ∨ '/' ∈ trimStartMatches '/' path := by
  rcases splitPath_cases path with ⟨noSlash, split, rejected⟩ |
    ⟨pfx, rest, joined, -, split, rejected⟩
  · rw [split, rejected]
    constructor
    · intro same
      exact Or.inl same.symm
    · rintro (empty | slash)
      · exact empty.symm
      · exact absurd slash noSlash
  · rw [split, rejected, joined]
    exact iff_of_true rfl (Or.inr (List.mem_append_right _ List.mem_cons_self))

/-- For a configured label, being charged to it is being routed by it with a slash
behind it. -/
theorem chargedTo_iff {label : Text} (nonempty : label ≠ []) (request : Request) :
    chargedTo label request = true ↔
      routedTo label request = true ∧ '/' ∈ trimStartMatches '/' request.path := by
  simp only [chargedTo, routedTo, decide_eq_true_eq]
  rcases splitPath_cases request.path with ⟨noSlash, split, rejected⟩ |
    ⟨pfx, rest, joined, -, split, rejected⟩
  · rw [rejected]
    constructor
    · intro empty
      exact absurd empty.symm nonempty
    · rintro ⟨-, slash⟩
      exact absurd slash noSlash
  · rw [split, rejected, joined]
    exact (and_iff_left (List.mem_append_right _ List.mem_cons_self)).symm

private theorem countP_chargedTo_iff {label : Text} (nonempty : label ≠ []) (log : List Request) :
    log.countP (chargedTo label) = log.countP (routedTo label) ↔
      ∀ request ∈ log, (splitPath request.path).1 = label →
        '/' ∈ trimStartMatches '/' request.path := by
  rw [countP_eq_iff fun request _ charged => ((chargedTo_iff nonempty request).mp charged).1]
  constructor
  · intro all request member routed
    have charged := all request member (decide_eq_true routed)
    exact ((chargedTo_iff nonempty request).mp charged).2
  · intro all request member routed
    exact (chargedTo_iff nonempty request).mpr
      ⟨routed, all request member (of_decide_eq_true routed)⟩

/-- The prefix of the rejection path is that of the forwarding path exactly for paths
that are not a bare prefix, and in a run the rejections counted for each
configured prefix are those of the requests for it exactly when no request for a
bare configured prefix was turned away. Short of 2^64 rejections of a prefix, that is:
the code wraps there, and the model counts on. -/
theorem rejections_charged_iff (json : Json.Codec) (urls : UrlCrate) {scheme : Ed25519}
    (config : GatewayConfig) (routes : List Route) (accepted : config.validate = .ok routes)
    (auth : AuthState scheme) (limiter : RateLimiter) (cfg : BreakerConfig) (timeoutSecs : UInt64)
    (instant millis : Nat) (events : List WorldEvent) (final : Worlds)
    (ran : run (worldStep json urls (ProxyState.assembled routes auth limiter cfg timeoutSecs))
      (Pool.init (World.init instant millis)) events = some final) :
    (∀ path, rejectedPrefix path = (splitPath path).1 ↔
      trimStartMatches '/' path = [] ∨ '/' ∈ trimStartMatches '/' path) ∧
    ((∀ pfx ∈ prefixes routes,
        (final.shared.registry.counters pfx).rateLimitedTotal =
          (limited json urls (ProxyState.assembled routes auth limiter cfg timeoutSecs)
            (Pool.init (World.init instant millis)) events).countP (routedTo pfx)) ↔
      ∀ request ∈ limited json urls (ProxyState.assembled routes auth limiter cfg timeoutSecs)
          (Pool.init (World.init instant millis)) events,
        (splitPath request.path).1 ∈ prefixes routes →
          '/' ∈ trimStartMatches '/' request.path) := by
  refine ⟨rejectedPrefix_eq_iff, ?_⟩
  have wired := wired_assembled routes auth limiter cfg timeoutSecs
  have charged := trail_invariant
    (Charged (ProxyState.assembled routes auth limiter cfg timeoutSecs) routes)
    (fun charged stepped => charged_step wired rfl charged stepped)
    (charged_init (World.init instant millis) rfl) ran
  have known : ∀ {pfx}, pfx ∈ prefixes routes → pfx ≠ [] := by
    intro pfx listed
    obtain ⟨route, member, rfl⟩ := List.mem_map.mp listed
    exact nonempty_of_isCleanPrefix (GatewayConfig.clean_of_mem accepted member)
  constructor
  · intro totals request member listed
    have equal := totals _ listed
    rw [charged.total] at equal
    exact (countP_chargedTo_iff (known listed) _).mp equal request member rfl
  · intro slashed pfx listed
    rw [charged.total]
    apply (countP_chargedTo_iff (known listed) _).mpr
    rintro request member rfl
    exact slashed request member listed

/-- The requests of the strict gateway that its limiter turned away. -/
def worldLimited (events : List WorldEvent) : List Request :=
  limited Json.Text.flatCodec plainUrls strictState (Pool.init (World.init 0 1500000)) events

/-- The second request is for a path below the prefix. -/
theorem rejections_charged_iff_below_prefix :
    ∃ final, worldRun (twice "/crm/a".toList "/crm/b".toList) = some final ∧
      (final.shared.registry.counters "crm".toList).rateLimitedTotal = 1 ∧
      (worldLimited (twice "/crm/a".toList "/crm/b".toList)).countP (routedTo "crm".toList) = 1 := by
  have counted : (worldRun (twice "/crm/a".toList "/crm/b".toList)).map (fun final =>
      (final.shared.registry.counters "crm".toList).rateLimitedTotal) = some 1 := by
    decide +kernel
  have slashed : ((worldLimited (twice "/crm/a".toList "/crm/b".toList)).all fun request =>
      (trimStartMatches '/' request.path).contains '/') = true := by
    decide +kernel
  obtain ⟨final, ran, total⟩ := Option.map_eq_some_iff.mp counted
  have charged := (rejections_charged_iff Json.Text.flatCodec plainUrls
    (crmConfig "http://crm:8000".toList) crmRoutes rfl OwnKeys.demoGateway.auth strictLimiter
    crmBreaker.cfg 30 0 1500000 _ final ran).2.mpr fun request member _ =>
      List.contains_iff_mem.mp (List.all_eq_true.mp slashed request member)
  exact ⟨final, ran, total, (charged "crm".toList (by decide)).symm.trans total⟩

/-- A rejection of the bare prefix is charged to no route. -/
theorem bare_prefix_charged_to_nothing :
    ¬ ∀ (json : Json.Codec) (urls : UrlCrate) (scheme : Ed25519) (config : GatewayConfig)
      (routes : List Route), config.validate = .ok routes →
      ∀ (auth : AuthState scheme) (limiter : RateLimiter) (cfg : BreakerConfig)
      (timeoutSecs : UInt64) (instant millis : Nat) (events : List WorldEvent) (final : Worlds),
      run (worldStep json urls (ProxyState.assembled routes auth limiter cfg timeoutSecs))
        (Pool.init (World.init instant millis)) events = some final →
      ∀ pfx ∈ prefixes routes,
        (final.shared.registry.counters pfx).rateLimitedTotal =
          (limited json urls (ProxyState.assembled routes auth limiter cfg timeoutSecs)
            (Pool.init (World.init instant millis)) events).countP (routedTo pfx) := by
  intro always
  have counted : (worldRun (twice "/crm/a".toList "/crm".toList)).map (fun final =>
      (final.shared.registry.counters "crm".toList).rateLimitedTotal) = some 0 := by
    decide +kernel
  have rejected : (worldLimited (twice "/crm/a".toList "/crm".toList)).countP
      (routedTo "crm".toList) = 1 := by
    decide +kernel
  obtain ⟨final, ran, total⟩ := Option.map_eq_some_iff.mp counted
  have same := always Json.Text.flatCodec plainUrls checksumScheme
    (crmConfig "http://crm:8000".toList) crmRoutes rfl OwnKeys.demoGateway.auth strictLimiter
    crmBreaker.cfg 30 0 1500000 _ final ran "crm".toList (by decide)
  rw [total] at same
  exact absurd (same.trans rejected) (by decide)

end Ratewall.Gateway
