import Ratewall.Gateway.World
import Ratewall.Router.Target

/-! Owns which labels the requests of an assembled gateway enter into the registry.
Past the breaker a request names the prefix that it was routed by. Before it, the
only request that touches the registry is one that the limiter has turned away,
and it names whatever stands first in its path: so the labels stay within the
configured prefixes exactly as long as every path that is turned away starts with
one of these. -/

namespace Ratewall.Gateway

open Ratewall.Rust
open Ratewall.Foundation
open Ratewall.Foundation.Program
open Ratewall.Config
open Ratewall.Circuit
open Ratewall.Http
open Ratewall.Auth
open Ratewall.RateLimit
open Ratewall.Metrics
open Ratewall.Router

/-! ### Where a request stands -/

def phaseAfter (phase : Phase) : (action : Action) → Outcome action → Phase
  | .handler op, answer => phase.after op answer
  | _, _ => phase

theorem observe_eq (note : Note) (action : Action) (answer : Outcome action) :
    World.observe note action answer = { note with phase := phaseAfter note.phase action answer } := by
  cases action with
  | handler op => rfl
  | redis op => rfl
  | registry op => rfl

/-- What is left of a request that the limiter has told to go away. -/
def rejecting {scheme : Ed25519} (state : ProxyState scheme) (request : Request)
    (retryAfter : UInt64) : Program Action Outcome Response :=
  Program.expand meaning (countRateLimited state (rejectedPrefix request.path) >>= fun _ =>
    pure (rateLimited retryAfter))

/-- The same, once the counters of the label have been looked up. -/
def countingRejection (request : Request) (retryAfter : UInt64) : Program Action Outcome Response :=
  .call (.registry (.fetchAdd (rejectedPrefix request.path) .rateLimited)) fun _ =>
    .done (rateLimited retryAfter)

/-- A request touches the registry only past the breaker, and then as it should. -/
def Fits (routes : List Route) (phase : Phase) : Action → Prop
  | .registry op => phase ≠ .fresh ∧ op.Ordinary (prefixes routes) statusClasses
  | _ => True

/-- Before the breaker, nobody but the limiter answers 429. -/
def Ends (phase : Phase) (response : Response) : Prop :=
  phase = .fresh → response.status ≠ .tooManyRequests

section

variable {scheme : Ed25519} (state : ProxyState scheme) (routes : List Route)

def Exits (request : Request) (phase : Phase) (program : Program Action Outcome Response) : Prop :=
  phase = .fresh ∧ ∃ retryAfter, program = rejecting state request retryAfter

/-- Everything up to the limiter's refusal is as it should be. -/
def Labelled (request : Request) : Phase → Program Action Outcome Response → Prop :=
  Unless phaseAfter (Exits state request) (Fits routes) Ends

/-- Where a request of the gateway stands. -/
def Standing (note : Note) (program : Program Action Outcome Response) : Prop :=
  Labelled state routes note.request note.phase program ∨
    (note.phase = .fresh ∧ ∃ retryAfter, program = countingRejection note.request retryAfter) ∨
    ∃ retryAfter, program = .done (rateLimited retryAfter)

end

private theorem after_ne_fresh {phase : Phase} (past : phase ≠ .fresh) (action : Action)
    (answer : Outcome action) : phaseAfter phase action answer ≠ .fresh := by
  cases action with
  | handler op =>
      cases op with
      | tryAdmit breaker =>
          cases answer with
          | call => exact Phase.noConfusion
          | shortCircuit => exact Phase.noConfusion
      | record breaker success => exact Phase.noConfusion
      | _ => exact past
  | redis op => exact past
  | registry op => exact past

section

variable {scheme : Ed25519} {state : ProxyState scheme} {routes : List Route} {request : Request}
  {cfg : BreakerConfig}

/-- Past the breaker, a program is labelled when all its calls are. -/
theorem labelled_past {phase : Phase} (past : phase ≠ .fresh)
    {program : Program Action Outcome Response}
    (all : All (fun action => ∀ phase, phase ≠ .fresh → Fits routes phase action) program) :
    Labelled state routes request phase program :=
  @Unless.of_all _ _ _ _ _ _ _ _ _ (· ≠ .fresh) program
    (fun _ past action answer => after_ne_fresh past action answer)
    (fun _ past _ isFresh => absurd isFresh past) past all

private theorem fits_onRegistry {β : Type} {program : Program RegistryOp RegistryAnswer β}
    (ordinary : All (RegistryOp.Ordinary (prefixes routes) statusClasses) program) :
    All (fun action => ∀ phase, phase ≠ .fresh → Fits routes phase action) (onRegistry program) := by
  apply all_onRegistry
  apply ordinary.mono
  intro op isOrdinary phase past
  exact ⟨past, isOrdinary⟩

private theorem fits_meaning {pfx aim : Text} (known : pfx ∈ prefixes routes) {op : Op}
    (forwards : Forwards pfx aim op) :
    All (fun action => ∀ phase, phase ≠ .fresh → Fits routes phase action) (meaning op) := by
  cases op with
  | finish timer statusClass =>
      obtain ⟨rfl, listed⟩ := forwards
      exact fits_onRegistry
        (ordinary_finish known (noBar_of_statusClasses statusClass listed) listed timer.started)
  | unixNow => cases forwards
  | decide limiter key => cases forwards
  | incRateLimited pfx => cases forwards
  | incCircuitOpen pfx => cases forwards
  | tryAdmit breaker => cases forwards
  | _ => exact ⟨fun _ _ => trivial, fun _ => trivial⟩

private theorem labelled_done {response : Response} (other : response.status ≠ .tooManyRequests) :
    Labelled state routes request .fresh (.done response) := Or.inr fun _ => other

/-- Calls before the breaker can be put in front. -/
theorem labelled_call {op : Op} {next : Answer op → Handler}
    (all : All (fun action => Fits routes .fresh action ∧
      ∀ answer, phaseAfter .fresh action answer = .fresh) (meaning op))
    (rest : ∀ answer, Labelled state routes request .fresh (Program.expand meaning (next answer))) :
    Labelled state routes request .fresh (Program.expand meaning (ask op >>= next)) :=
  Unless.bind_of_all all rest

private theorem labelled_route (urls : UrlCrate) (wired : Wired state routes cfg)
    (metered : state.metrics = some {}) :
    Labelled state routes request .fresh (Program.expand meaning (route urls state request)) := by
  have notFound : StatusCode.notFound ≠ .tooManyRequests := by decide
  unfold route
  cases empty : (splitPath request.path).1.isEmpty with
  | true =>
    simp only [empty, if_true]
    exact labelled_done notFound
  | false =>
    simp only [empty, Bool.false_eq_true, if_false, forward]
    cases known : state.backendFor (splitPath request.path).1 with
    | none => exact labelled_done notFound
    | some backend =>
        have listed : (splitPath request.path).1 ∈ prefixes routes := by
          apply wired.backendFor_isSome_iff.mp
          rw [known]
          rfl
        obtain ⟨breaker, guarded⟩ := wired.guarded known
        simp only [guarded]
        refine Or.inr ⟨trivial, ?_⟩
        intro admission
        cases admission with
        | call =>
            apply labelled_past Phase.noConfusion
            apply All.expand
            apply (forwards_exchange backend _ request).mono
            intro op forwards
            exact fits_meaning listed forwards
        | shortCircuit =>
            apply labelled_past Phase.noConfusion
            apply All.expand
            unfold countCircuitOpen
            rw [metered]
            exact ⟨fits_onRegistry (ordinary_incCircuitOpen listed), fun _ => trivial⟩

private theorem labelled_rateLimit (urls : UrlCrate) (wired : Wired state routes cfg)
    (metered : state.metrics = some {}) (subject : Option Text) :
    Labelled state routes request .fresh
      (Program.expand meaning (rateLimit urls state subject request)) := by
  unfold rateLimit
  cases state.limiter with
  | none => exact labelled_route urls wired metered
  | some limiter =>
      apply labelled_call
      · apply all_onRedis
        exact All.of_forall (fun _ => ⟨trivial, fun _ => rfl⟩) _
      · intro decision
        cases decision with
        | limit retryAfter => exact Unless.exit ⟨rfl, retryAfter, rfl⟩
        | allow => exact labelled_route urls wired metered
        | opened => exact labelled_route urls wired metered

/-- A request keeps to the labels that its course allows. -/
theorem labelled_worldHandler (json : Json.Codec) (urls : UrlCrate) (wired : Wired state routes cfg)
    (metered : state.metrics = some {}) (request : Request) :
    Labelled state routes request .fresh (worldHandler json urls state request) := by
  unfold worldHandler proxyFallback
  cases state.auth with
  | none => exact labelled_rateLimit urls wired metered none
  | some auth =>
      apply labelled_call
      · exact ⟨⟨trivial, fun _ => rfl⟩, fun _ => trivial⟩
      · intro now
        cases checked : checkBearer json auth request now with
        | error refusal =>
            apply labelled_done
            rw [refusal_of_checkBearer json checked]
            split <;> decide
        | ok subject => exact labelled_rateLimit urls wired metered (some subject)

theorem rejecting_eq (metered : state.metrics = some {}) (request : Request) (retryAfter : UInt64) :
    rejecting state request retryAfter =
      .call (.registry (.countersFor (rejectedPrefix request.path))) fun _ =>
        countingRejection request retryAfter := by
  unfold rejecting countRateLimited
  rw [metered]
  rfl

private theorem standing_answer (metered : state.metrics = some {}) {note : Note} {action : Action}
    {next : Outcome action → Program Action Outcome Response}
    (standing : Standing state routes note (.call action next)) (answer : Outcome action) :
    Standing state routes (World.observe note action answer) (next answer) := by
  rw [observe_eq]
  rcases standing with labelled | ⟨isFresh, retryAfter, here⟩ | ⟨retryAfter, ended⟩
  · rcases labelled with ⟨isFresh, retryAfter, exits⟩ | ⟨-, continues⟩
    · rw [rejecting_eq metered] at exits
      cases exits
      exact Or.inr (Or.inl ⟨isFresh, retryAfter, rfl⟩)
    · exact Or.inl (continues answer)
  · cases here
    exact Or.inr (Or.inr ⟨retryAfter, rfl⟩)
  · cases ended

end

/-! ### Runs -/

theorem act_handler_registry (world : World) (id : Nat) (op : Op) (offer : Answer op) :
    (world.act id (.handler op) offer).2.registry = world.registry := by
  cases op <;> rfl

theorem act_registry_registry (world : World) (id : Nat) (op : RegistryOp)
    (offer : RegistryAnswer op) :
    (world.act id (.registry op) offer).2.registry = world.registry.after op := by
  cases op <;> rfl

section

variable {scheme : Ed25519} (state : ProxyState scheme) (routes : List Route)

/-- A request whose rejection is about to be counted names a configured prefix. -/
def ChargesKnown (before : Worlds) : WorldEvent → Prop
  | .exec id _ => ∀ note retryAfter,
      before.threads id = some ⟨note, rejecting state note.request retryAfter⟩ →
        rejectedPrefix note.request.path ∈ prefixes routes
  | _ => True

end

section

variable {json : Json.Codec} {urls : UrlCrate} {scheme : Ed25519} {state : ProxyState scheme}
  {routes : List Route} {cfg : BreakerConfig} {before after : Worlds} {event : WorldEvent}

/-- Every request of the world stands at a place of the handler, after every step. -/
theorem standing_step (wired : Wired state routes cfg) (metered : state.metrics = some {})
    (standing : Pool.Threads (Standing state routes) before)
    (stepped : worldStep json urls state before event = some after) :
    Pool.Threads (Standing state routes) after := by
  apply Pool.threads_step _ _ standing stepped
  · intro request _
    exact Or.inl (labelled_worldHandler json urls wired metered request)
  · intro note action next held answer
    exact standing_answer metered held answer

/-- What is entered into the registry is known, unless it is the label of a
rejection. -/
theorem within_iff_charged (metered : state.metrics = some {}) {note : Note} {op : RegistryOp}
    {next : RegistryAnswer op → Program Action Outcome Response}
    (standing : Standing state routes note (.call (.registry op) next)) :
    op.Within (prefixes routes) statusClasses ↔
      ∀ retryAfter, .call (.registry op) next = rejecting state note.request retryAfter →
        rejectedPrefix note.request.path ∈ prefixes routes := by
  have charged : ∀ {retryAfter}, .call (.registry op) next =
      rejecting state note.request retryAfter →
      op = .countersFor (rejectedPrefix note.request.path) := by
    intro retryAfter same
    rw [rejecting_eq metered] at same
    cases same
    rfl
  rcases standing with labelled | ⟨-, retryAfter, here⟩ | ⟨retryAfter, ended⟩
  · rcases labelled with ⟨-, retryAfter, exits⟩ | ⟨⟨-, within, -⟩, -⟩
    -- at the exit, the call is the lookup of the rejection's own label
    · constructor
      · intro within _ _
        rw [charged exits] at within
        exact within
      · intro known
        rw [charged exits]
        exact known retryAfter exits
    · constructor
      · intro _ _ same
        rw [charged same] at within
        exact within
      · intro _
        exact within
  · cases here
    constructor
    · intro _ _ same
      cases charged same
    · intro _
      exact trivial
  · cases ended

private theorem breakerStates_known (wired : Wired state routes cfg) (shared : Shared) :
    ∀ entry ∈ breakerStates state shared, entry.1 ∈ prefixes routes := by
  intro entry member
  obtain ⟨breaker, guarded, -⟩ := mem_breakerStates.mp member
  apply wired.breakerFor_isSome_iff.mp
  rw [guarded]
  rfl

private theorem chargesKnown_exec_iff {id : Nat} {offer : (action : Action) → Outcome action}
    {note : Note} {program : Program Action Outcome Response}
    (found : before.threads id = some ⟨note, program⟩) :
    ChargesKnown state routes before (.exec id offer) ↔
      ∀ retryAfter, program = rejecting state note.request retryAfter →
        rejectedPrefix note.request.path ∈ prefixes routes := by
  constructor
  · intro known retryAfter same
    exact known note retryAfter (by rw [found, same])
  · intro known other retryAfter held
    obtain ⟨rfl, same⟩ := Pool.same_thread found held
    exact known retryAfter same

private theorem labels_step_iff (wired : Wired state routes cfg) (metered : state.metrics = some {})
    (standing : Pool.Threads (Standing state routes) before)
    (stepped : worldStep json urls state before event = some after) :
    after.shared.registry.LabelsWithin (prefixes routes) statusClasses ↔
      before.shared.registry.LabelsWithin (prefixes routes) statusClasses ∧
        ChargesKnown state routes before event := by
  rcases Pool.step_cases stepped with ⟨request, rfl, rfl⟩ |
    ⟨id, offer, note, action, next, rfl, found, rfl⟩ | ⟨id, thread, rfl, -, rfl⟩ |
    ⟨change, rfl, rfl⟩
  · exact (and_iff_left trivial).symm
  · have stands := standing id _ found
    have charged := @chargesKnown_exec_iff _ state routes before id offer _ _ found
    -- A rejection that is about to be counted is a call of the registry.
    have unrelated : (∀ op, action ≠ .registry op) →
        ChargesKnown state routes before (.exec id offer) := by
      intro other
      apply charged.mpr
      intro retryAfter same
      rw [rejecting_eq metered] at same
      injection same with isRegistry _
      exact absurd isRegistry (other _)
    cases action with
    | handler op =>
        rw [and_iff_left (unrelated (by simp))]
        exact iff_of_eq (congrArg _ (act_handler_registry before.shared id op (offer (.handler op))))
    | redis op =>
        rw [and_iff_left (unrelated (by simp))]
        exact Iff.rfl
    | registry op =>
        rw [charged, ← within_iff_charged metered stands, ← labelsWithin_after_iff,
          ← act_registry_registry before.shared id op (offer (.registry op))]
        exact Iff.rfl
  · exact (and_iff_left trivial).symm
  · rw [and_iff_left (show ChargesKnown state routes before (.ambient change) from trivial)]
    cases change with
    | gateway change => exact Iff.rfl
    | clock millis => exact Iff.rfl
    | scrape =>
        have published := @labelsWithin_publish_iff (prefixes routes) statusClasses
          before.shared.registry (breakerStates state before.shared.shared)
        rw [and_iff_left (breakerStates_known wired before.shared.shared)] at published
        exact published

end

/-- The labels of the registry stay within the configured prefixes and the status
classes exactly in the runs in which every rejection that is counted names a
configured prefix. -/
theorem labels_bounded_iff (json : Json.Codec) (urls : UrlCrate) {scheme : Ed25519}
    (routes : List Route) (auth : AuthState scheme) (limiter : RateLimiter) (cfg : BreakerConfig)
    (timeoutSecs : UInt64) (instant millis : Nat) (events : List WorldEvent) (final : Worlds)
    (ran : run (worldStep json urls (ProxyState.assembled routes auth limiter cfg timeoutSecs))
      (Pool.init (World.init instant millis)) events = some final) :
    final.shared.registry.LabelsWithin (prefixes routes) statusClasses ↔
      Meets (worldStep json urls (ProxyState.assembled routes auth limiter cfg timeoutSecs))
        (ChargesKnown (ProxyState.assembled routes auth limiter cfg timeoutSecs) routes)
        (Pool.init (World.init instant millis)) events := by
  have wired := wired_assembled routes auth limiter cfg timeoutSecs
  have bounded := holds_iff_meets (fun standing stepped => standing_step wired rfl standing stepped)
    (fun standing stepped => labels_step_iff wired rfl standing stepped)
    (Pool.threads_init _ (World.init instant millis)) ran
  rw [bounded]
  exact and_iff_right labelsWithin_empty

/-- Where every request names a configured prefix, so does every rejection. -/
theorem chargesKnown_of_spawned (json : Json.Codec) (urls : UrlCrate) {scheme : Ed25519}
    (state : ProxyState scheme) {routes : List Route} {events : List WorldEvent}
    (named : ∀ event ∈ events, ∀ request, event = .spawn request →
      rejectedPrefix request.path ∈ prefixes routes) (world : World) :
    Meets (worldStep json urls state) (ChargesKnown state routes) (Pool.init world) events := by
  have spawned := @meets_of_forall _ _ (worldStep json urls state) _ events named (Pool.init world)
  apply meets_of_invariant _ _ (Pool.threads_init
    (fun note _ => rejectedPrefix note.request.path ∈ prefixes routes) world) spawned
  · intro before event after threads named stepped
    apply Pool.threads_step _ _ threads stepped
    · intro request isSpawn
      exact named request isSpawn
    · intro note action next held answer
      show rejectedPrefix (World.observe note action answer).request.path ∈ prefixes routes
      rw [observe_eq]
      exact held
  · intro before event threads _
    cases event with
    | exec id offer =>
        intro note retryAfter found
        exact threads id _ found
    | _ => exact trivial

/-! ### A limited caller -/

/-- The surroundings of a gateway whose Redis answers and whose backends do not. -/
def backendsDown : (action : Action) → Outcome action
  | .handler op => offers (fun _ => .unanswered) op
  | .redis op => answered op
  | .registry (.elapsed _) => 0
  | .registry (.scaled nanos) => nanos
  | .registry (.countersFor _) => ()
  | .registry (.fetchAdd _ _) => ()
  | .registry (.countStatus _) => ()
  | .registry (.latencyFor _) => ()
  | .registry (.addBucket _ _) => ()
  | .registry (.addCount _) => ()
  | .registry (.addSum _ _) => ()

/-- A gateway that allows a caller one request in a minute. -/
def strictState : ProxyState checksumScheme :=
  .assembled crmRoutes OwnKeys.demoGateway.auth strictLimiter crmBreaker.cfg 30

def callerRequest (path : Text) : Request := { OwnKeys.demoRequest with path := path }

/-- The caller comes for one path, is allowed, and comes for another. -/
def twice (first second : Text) : List WorldEvent :=
  [.spawn (callerRequest first), .spawn (callerRequest second)] ++
    List.replicate 4 (.exec 0 backendsDown) ++ List.replicate 6 (.exec 1 backendsDown)

def worldRun (events : List WorldEvent) : Option Worlds :=
  run (worldStep Json.Text.flatCodec plainUrls strictState) (Pool.init (World.init 0 1500000)) events

/-- Both requests are for a path of the route, and the second is turned away. -/
theorem labels_bounded_iff_on_known_path :
    ∃ final, worldRun (twice "/crm/a".toList "/crm/b".toList) = some final ∧
      (final.shared.registry.counters "crm".toList).rateLimitedTotal = 1 ∧
      final.shared.registry.LabelsWithin (prefixes crmRoutes) statusClasses := by
  have counted : (worldRun (twice "/crm/a".toList "/crm/b".toList)).map (fun final =>
      (final.shared.registry.counters "crm".toList).rateLimitedTotal) = some 1 := by
    decide +kernel
  obtain ⟨final, ran, total⟩ := Option.map_eq_some_iff.mp counted
  refine ⟨final, ran, total, ?_⟩
  apply (labels_bounded_iff Json.Text.flatCodec plainUrls crmRoutes OwnKeys.demoGateway.auth
    strictLimiter crmBreaker.cfg 30 0 1500000 _ final ran).mpr
  apply chargesKnown_of_spawned
  intro event member request isSpawn
  subst isSpawn
  simp only [twice, List.mem_append, List.mem_cons, List.not_mem_nil, or_false, List.mem_replicate,
    reduceCtorEq, and_false] at member
  rcases member with same | same
  · cases same
    decide
  · cases same
    decide

/-- A rejected path that is not of any route becomes a label. -/
theorem unknown_path_becomes_label :
    ¬ ∀ (json : Json.Codec) (urls : UrlCrate) (scheme : Ed25519) (config : GatewayConfig)
      (routes : List Route), config.validate = .ok routes →
      ∀ (auth : AuthState scheme) (limiter : RateLimiter) (cfg : BreakerConfig)
      (timeoutSecs : UInt64) (instant millis : Nat) (events : List WorldEvent) (final : Worlds),
      run (worldStep json urls (ProxyState.assembled routes auth limiter cfg timeoutSecs))
        (Pool.init (World.init instant millis)) events = some final →
      final.shared.registry.LabelsWithin (prefixes routes) statusClasses := by
  intro always
  have entered : (worldRun (twice "/nope/a".toList "/nope/b".toList)).map (fun final =>
      final.shared.registry.perPrefix.contains "nope".toList) = some true := by
    decide +kernel
  obtain ⟨final, ran, present⟩ := Option.map_eq_some_iff.mp entered
  have within := always Json.Text.flatCodec plainUrls checksumScheme
    (crmConfig "http://crm:8000".toList) crmRoutes rfl OwnKeys.demoGateway.auth strictLimiter
    crmBreaker.cfg 30 0 1500000 _ final ran
  have listed := within.perPrefix "nope".toList (Std.TreeMap.mem_iff_contains.mpr present)
  exact absurd listed (by decide)

end Ratewall.Gateway
