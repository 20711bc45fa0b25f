import Ratewall.Gateway.Refinement
import Ratewall.Router.Service

/-! Owns `readyz` and the loop that the manifests close around it: a pod gets
requests only while its readiness probe answers 200, and `readyz` answers 503 for
as long as some breaker is open or Redis does not answer. It also owns what it
means that the loop can still recover. It does not own when that is so. -/

namespace Ratewall.Gateway

open Ratewall.Rust
open Ratewall.Foundation
open Ratewall.Config
open Ratewall.Circuit
open Ratewall.Http
open Ratewall.Auth
open Ratewall.Router

section

variable (json : Json.Codec) (urls : UrlCrate) {scheme : Ed25519} (state : ProxyState scheme)

/-! ### The endpoint -/

def breakerStates (shared : Shared) : List (Text × State) :=
  match state.breakers with
  | some breakers => breakers.states shared.cells
  | none => []

def components (shared : Shared) : List (Text × Bool) :=
  ((breakerStates state shared).map fun entry =>
      ("backend:".toList ++ entry.1, decide (entry.2 ≠ .opened))) ++
    match state.limiter with
    | some _ => [("redis".toList, shared.pong)]
    | none => []

def ready (shared : Shared) : Bool := (components state shared).all Prod.snd

def readyz (shared : Shared) : Response :=
  jsonResponse (if ready state shared then .ok else .serviceUnavailable)
    (json.toVec (.json ((components state shared).map fun entry => (entry.1, .bool entry.2))))

/-! ### The closed loop -/

/-- Requests are delivered only while `readyz` answers 200. -/
def loop (before : Running) : Event → Option Running
  | .spawn request =>
      if (readyz json state before.shared).status = .ok then
        step json urls state before (.spawn request)
      else none
  | event => step json urls state before event

/-- The surroundings behave: every backend answers with a complete response, Redis
answers, and no client disconnects. -/
def Benign : Event → Prop
  | .exec _ offer => ∀ outbound, Given urls (.send outbound) (offer (.send outbound))
  | .drop _ => False
  | .ambient (.redis answers) => answers = true
  | _ => True

def AllClosed (gateway : Running) : Prop :=
  ∀ pfx breaker, state.breakerFor pfx = some breaker →
    (gateway.shared.cells breaker.inner).state = .closed

/-- Some continuation in which the surroundings behave closes every breaker. -/
def Recoverable (gateway : Running) : Prop :=
  ∃ recovered, Leads (loop json urls state) (Benign urls) gateway recovered ∧
    AllClosed state recovered

def Reached (gateway : Running) : Prop :=
  ∃ start events, run (loop json urls state) (init start) events = some gateway

end

section

variable {json : Json.Codec} {urls : UrlCrate} {scheme : Ed25519} {state : ProxyState scheme}
  {before after : Running} {event : Event}

/-- The states that `/readyz` reads are those of the breakers that the routes have. -/
theorem mem_breakerStates {shared : Shared} {pfx : Text} {phase : State} :
    (pfx, phase) ∈ breakerStates state shared ↔
      ∃ breaker, state.breakerFor pfx = some breaker ∧
        (shared.cells breaker.inner).state = phase := by
  unfold breakerStates ProxyState.breakerFor
  cases state.breakers with
  | none => simp
  | some breakers =>
      simp only [Breakers.states, List.mem_map, Option.bind_some, Breakers.get]
      constructor
      · rintro ⟨⟨found, breaker⟩, member, same⟩
        injection same with samePrefix samePhase
        subst samePrefix
        exact ⟨breaker, Std.TreeMap.mem_toList_iff_getElem?_eq_some.mp member, samePhase⟩
      · rintro ⟨breaker, found, same⟩
        exact ⟨(pfx, breaker), Std.TreeMap.mem_toList_iff_getElem?_eq_some.mpr found,
          by rw [← same]⟩

/-- Ready means that no breaker is open and that Redis answers, where there is a
limiter. -/
theorem ready_iff {shared : Shared} :
    ready state shared = true ↔
      (∀ pfx breaker, state.breakerFor pfx = some breaker →
        (shared.cells breaker.inner).state ≠ .opened) ∧
      (∀ limiter, state.limiter = some limiter → shared.pong = true) := by
  have backends : ((breakerStates state shared).map fun entry =>
      ("backend:".toList ++ entry.1, decide (entry.2 ≠ .opened))).all Prod.snd = true ↔
      ∀ pfx breaker, state.breakerFor pfx = some breaker →
        (shared.cells breaker.inner).state ≠ .opened := by
    simp only [List.all_map, List.all_eq_true, Function.comp, decide_eq_true_eq]
    constructor
    · intro all pfx breaker known
      exact all (pfx, _) (mem_breakerStates.mpr ⟨breaker, known, rfl⟩)
    · rintro all ⟨pfx, phase⟩ member
      obtain ⟨breaker, known, rfl⟩ := mem_breakerStates.mp member
      exact all pfx breaker known
  unfold ready components
  rw [List.all_append, Bool.and_eq_true, backends]
  cases state.limiter with
  | none => simp
  | some limiter => simp

/-- The status of `/readyz` says no more than readiness. -/
theorem readyz_status_iff {shared : Shared} :
    (readyz json state shared).status = .ok ↔ ready state shared = true := by
  show (if ready state shared then StatusCode.ok else .serviceUnavailable) = .ok ↔ _
  cases ready state shared with
  | true => simp
  | false =>
      simp only [Bool.false_eq_true, if_false, iff_false]
      decide

theorem step_of_loop (stepped : loop json urls state before event = some after) :
    step json urls state before event = some after := by
  unfold loop at stepped
  split at stepped
  next =>
    split at stepped
    next => exact stepped
    next => cases stepped
  next => exact stepped

/-- While a breaker is open, nothing is delivered. -/
theorem ready_of_spawn {request : Request}
    (stepped : loop json urls state before (.spawn request) = some after) :
    ready state before.shared = true := by
  simp only [loop] at stepped
  split at stepped
  next answered => exact readyz_status_iff.mp answered
  next => cases stepped

theorem loop_spawn (isReady : ready state before.shared = true) (request : Request) :
    loop json urls state before (.spawn request) = step json urls state before (.spawn request) := by
  simp only [loop]
  rw [if_pos (readyz_status_iff.mpr isReady)]

private theorem run_of_loop {start final : Running} {events : List Event}
    (ran : run (loop json urls state) start events = some final) :
    run (step json urls state) start events = some final := by
  induction events generalizing start with
  | nil => exact ran
  | cons event rest inductionHypothesis =>
      obtain ⟨after, stepped, tail⟩ := run_cons_iff.mp ran
      exact run_cons_iff.mpr ⟨after, step_of_loop stepped, inductionHypothesis tail⟩

/-! ### What is reached -/

theorem Reached.leads (reached : Reached json urls state before)
    (leads : Leads (loop json urls state) (Benign urls) before after) :
    Reached json urls state after := by
  obtain ⟨start, first, ran⟩ := reached
  obtain ⟨second, -, ranLater⟩ := leads
  exact ⟨start, first ++ second, run_append_iff.mpr ⟨before, ran, ranLater⟩⟩

theorem Reached.step (reached : Reached json urls state before)
    (stepped : loop json urls state before event = some after) : Reached json urls state after := by
  obtain ⟨start, events, ran⟩ := reached
  exact ⟨start, events ++ [event], run_snoc_iff.mpr ⟨before, ran, stepped⟩⟩

/-- In a reached gateway every request keeps to the order of its calls. -/
theorem Reached.wellRun {gateway : Running} (reached : Reached json urls state gateway) :
    WellRun state gateway := by
  obtain ⟨start, events, ran⟩ := reached
  exact run_invariant (fun wellRun stepped => wellRun_step wellRun (step_of_loop stepped))
    (wellRun_init start) ran

/-- What the calls that a request has left say about it. -/
structure Told (json : Json.Codec) (urls : UrlCrate) (state : ProxyState scheme) (note : Note)
    (handler : Handler) : Prop where
  records : Program.All (fun op => IsRecord op → Buffers note.request) handler
  succeeds : Program.All
    (fun op => IsSuccess op → Serves urls (proxyFallback urls state json note.request)) handler

/-- In a reached gateway the records of every request tell what its exchange allows. -/
theorem Reached.told {gateway : Running} (reached : Reached json urls state gateway) :
    gateway.Threads (Told json urls state) := by
  obtain ⟨start, events, ran⟩ := reached
  have preserved : ∀ {before : Running} {event : Event} {after : Running},
      before.Threads (Told json urls state) → Gateway.step json urls state before event = some after →
        after.Threads (Told json urls state) := by
    intro before event after holds stepped
    apply Pool.threads_step _ _ holds stepped
    · intro request _
      exact ⟨records_only_buffered urls state json request,
        succeeds_only_servable urls state json request⟩
    · intro note op next told answer
      exact ⟨told.records.2 answer, told.succeeds.2 answer⟩
  exact run_invariant preserved (Pool.threads_init _ _) (run_of_loop ran)

/-- An open breaker was opened in the past. -/
theorem Reached.openedAt {routes : List Route} {cfg : BreakerConfig}
    (wired : state.breakers = some (Breakers.new routes cfg)) {gateway : Running}
    (reached : Reached json urls state gateway) {pfx : Text} {breaker : CircuitBreaker}
    (known : state.breakerFor pfx = some breaker)
    (isOpen : (gateway.shared.cells breaker.inner).state = .opened) :
    ∃ opened, (gateway.shared.cells breaker.inner).openedAt = some opened ∧
      opened ≤ gateway.shared.now := by
  obtain ⟨start, events, ran⟩ := reached
  have aged := gateway_aged json urls state routes cfg wired start events gateway (run_of_loop ran)
    pfx breaker known
  obtain ⟨opened, since, past, -⟩ := aged.opened isOpen
  exact ⟨opened, since, past⟩

end

end Ratewall.Gateway
