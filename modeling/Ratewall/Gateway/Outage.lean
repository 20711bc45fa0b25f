import Ratewall.Gateway.Recovery

/-! Owns when the loop around `readyz` cannot recover: attendance of the requests
in the gateway, once it is lost, is not brought back by any continuation. With
the other direction this says exactly from which states the loop recovers, and
that a breaker which opens after its last request is one from which it does not. -/

namespace Ratewall.Gateway

open Ratewall.Rust
open Ratewall.Foundation
open Ratewall.Foundation.Program
open Ratewall.Config
open Ratewall.Circuit
open Ratewall.Http
open Ratewall.Auth
open Ratewall.Router

section

variable {json : Json.Codec} {urls : UrlCrate} {scheme : Ed25519} {state : ProxyState scheme}
  {before after gateway : Running} {event : Event} {pfx : Text} {breaker : CircuitBreaker}

/-! ### What no continuation brings back -/

theorem Benign.given {id : Nat} {offer : (op : Op) → Answer op} {op : Op}
    (benign : Benign urls (.exec id offer)) (quiet : Quiet op) : Given urls op (offer op) := by
  cases op with
  | tryAdmit breaker => cases quiet
  | record breaker success => cases quiet
  | send outbound => exact benign outbound
  | _ => exact trivial

private theorem attends_of_closed
    (isClosed : (gateway.shared.cells breaker.inner).state = .closed) :
    Attends json urls state gateway pfx breaker := by
  refine ⟨?_, ?_, ?_⟩ <;> simp [isClosed]

section

variable {shared : Shared} {id nextId : Nat} {thread : Thread Op Answer Response Note}

private theorem HasRecorder.of_update
    (recorder : HasRecorder ⟨shared, Function.update before.threads id (some thread), nextId⟩ pfx) :
    HasRecorder before pfx ∨ (prefixOf thread.note.request = pfx ∧ thread.note.phase = .admitted ∧
      Buffers thread.note.request) := by
  obtain ⟨other, note, op, next, held, routed, admitted, buffers⟩ := recorder
  rcases filled_cases held with ⟨-, rfl⟩ | ⟨-, found⟩
  · exact Or.inr ⟨routed, admitted, buffers⟩
  · exact Or.inl ⟨other, note, op, next, found, routed, admitted, buffers⟩

/-- As long as the breaker stays as it is, attendance that is there later was there
before, unless the acting request brings it. -/
theorem Attends.of_update
    (cell : shared.cells breaker.inner = before.shared.cells breaker.inner)
    (records : prefixOf thread.note.request = pfx → thread.note.phase = .admitted →
      Buffers thread.note.request → HasRecorder before pfx)
    (asked : prefixOf thread.note.request = pfx → thread.note.phase = .fresh →
      Asks urls (fun _ => True) thread.program →
        (before.shared.cells breaker.inner).state = .opened →
          ∃ handler, before.threads id = some ⟨thread.note, handler⟩ ∧
            Asks urls (fun _ => True) handler)
    (attends : Attends json urls state
      ⟨shared, Function.update before.threads id (some thread), nextId⟩ pfx breaker) :
    Attends json urls state before pfx breaker := by
  have recorder : HasRecorder ⟨shared, Function.update before.threads id (some thread), nextId⟩ pfx →
      HasRecorder before pfx := by
    intro later
    rcases later.of_update with earlier | ⟨routed, admitted, buffers⟩
    · exact earlier
    · exact records routed admitted buffers
  refine ⟨?_, ?_, ?_⟩
  · rw [← cell]
    exact attends.servable
  · rw [← cell]
    intro half
    exact recorder (attends.recorder half)
  · intro isOpen
    obtain ⟨other, note, handler, held, routed, fresh, asks, buffers⟩ :=
      attends.asker (by rw [← isOpen, ← cell])
    rcases filled_cases held with ⟨-, rfl⟩ | ⟨-, found⟩
    · obtain ⟨earlier, found, asksEarlier⟩ := asked routed fresh asks isOpen
      exact ⟨id, note, earlier, found, routed, fresh, asksEarlier, buffers.imp_right recorder⟩
    · exact ⟨other, note, handler, found, routed, fresh, asks, buffers.imp_right recorder⟩

/-- What a request to another prefix does is no attendance. -/
theorem Attends.of_foreign
    (cell : shared.cells breaker.inner = before.shared.cells breaker.inner)
    (foreign : prefixOf thread.note.request ≠ pfx)
    (attends : Attends json urls state
      ⟨shared, Function.update before.threads id (some thread), nextId⟩ pfx breaker) :
    Attends json urls state before pfx breaker :=
  attends.of_update cell (fun routed => absurd routed foreign) fun routed => absurd routed foreign

end

private theorem attends_before_tryAdmit (separate : Separate state) {id : Nat} {note : Note}
    {asked : CircuitBreaker} {next : Admit → Handler}
    (found : before.threads id = some ⟨note, .call (.tryAdmit asked) next⟩)
    (fresh : note.phase = .fresh) (guarded : state.breakerFor (prefixOf note.request) = some asked)
    (known : state.breakerFor pfx = some breaker)
    (attends : Attends json urls state
      { before with
        shared := (tryAdmit before.shared id asked).2
        threads := Function.update before.threads id (some
          ⟨{ note with
              phase := note.phase.after (.tryAdmit asked) (tryAdmit before.shared id asked).1 },
            next (tryAdmit before.shared id asked).1⟩) }
      pfx breaker) :
    Attends json urls state before pfx breaker := by
  by_cases own : prefixOf note.request = pfx
  · subst own
    obtain rfl := Option.some.inj (guarded.symm.trans known)
    rcases tryAdmit_cases before.shared id asked with ⟨isClosed, -⟩ | ⟨isOpen, -, result⟩ |
      ⟨-, result⟩
    · exact attends_of_closed isClosed
    · rw [result] at attends
      have half : (Function.update before.shared.cells asked.inner
          { before.shared.cells asked.inner with state := .halfOpen } asked.inner).state =
            .halfOpen := by rw [Function.update_self]
      have asker : HasAsker urls before (prefixOf note.request) := by
        refine ⟨id, note, _, found, rfl, fresh, Or.inl ⟨asked, next, rfl, trivial⟩, ?_⟩
        rcases (attends.recorder half).of_update with earlier | ⟨-, -, buffers⟩
        · exact Or.inr earlier
        · exact Or.inl buffers
      refine ⟨fun _ => attends.servable ?_, ?_, fun _ => asker⟩
      · show (Function.update before.shared.cells asked.inner _ asked.inner).state ≠ .closed
        rw [half]
        decide
      · simp [isOpen]
    · rw [result] at attends
      apply attends.of_update rfl
      · intro _ admitted
        cases admitted
      · intro _ stillFresh
        cases stillFresh
  · have away : breaker.inner ≠ asked.inner := separate.away known guarded (Ne.symm own)
    exact attends.of_foreign
      (congrArg Calls.inner ((touches_tryAdmit before.shared id asked).calls _ away)) own

private theorem attends_before_record (separate : Separate state) {id : Nat} {note : Note}
    {told : CircuitBreaker} {success : Bool} {next : Unit → Handler}
    (found : before.threads id = some ⟨note, .call (.record told success) next⟩)
    (admitted : note.phase = .admitted)
    (guarded : state.breakerFor (prefixOf note.request) = some told)
    (reveals : Told json urls state note (.call (.record told success) next))
    (known : state.breakerFor pfx = some breaker)
    (attends : Attends json urls state
      { before with
        shared := record before.shared id told success
        threads := Function.update before.threads id
          (some ⟨{ note with phase := .recorded }, next ()⟩) }
      pfx breaker) :
    Attends json urls state before pfx breaker := by
  by_cases own : prefixOf note.request = pfx
  · subst own
    obtain rfl := Option.some.inj (guarded.symm.trans known)
    have cell : (record before.shared id told success).cells told.inner =
        CircuitBreaker.record told.cfg before.shared.now success (before.shared.cells told.inner) :=
      Function.update_self ..
    cases phase : (before.shared.cells told.inner).state with
    | closed => exact attends_of_closed phase
    | opened =>
        have stays : CircuitBreaker.record told.cfg before.shared.now success
            (before.shared.cells told.inner) = before.shared.cells told.inner := by
          simp [CircuitBreaker.record, phase]
        apply attends.of_update (cell.trans stays)
        · intro _ isAdmitted
          cases isAdmitted
        · intro _ stillFresh
          cases stillFresh
    | halfOpen =>
        refine ⟨?_, ?_, ?_⟩
        · intro _
          cases success with
          | true => exact ⟨note.request, rfl, reveals.succeeds.1 rfl⟩
          | false =>
              apply attends.servable
              show ((record before.shared id told false).cells told.inner).state ≠ .closed
              rw [cell, CircuitBreaker.record_halfOpen phase]
              simp
        · intro _
          exact ⟨id, note, .record told success, next, found, rfl, admitted, reveals.records.1 trivial⟩
        · rw [phase]
          intro isOpen
          cases isOpen
  · have away : breaker.inner ≠ told.inner := separate.away known guarded (Ne.symm own)
    exact attends.of_foreign
      (congrArg Calls.inner ((touches_record before.shared id told success).calls _ away)) own

/-- No step of the loop brings attendance back that was lost, as long as the
surroundings behave. -/
theorem attends_before (separate : Separate state) (reached : Reached json urls state before)
    (benign : Benign urls event) (stepped : loop json urls state before event = some after)
    (known : state.breakerFor pfx = some breaker)
    (attends : Attends json urls state after pfx breaker) :
    Attends json urls state before pfx breaker := by
  rcases step_cases reached.wellRun (step_of_loop stepped) with ⟨request, rfl, rfl⟩ |
    ⟨id, offer, note, op, next, rfl, found, quiet, rfl⟩ |
    ⟨id, offer, note, asked, next, rfl, found, fresh, guarded, rfl⟩ |
    ⟨id, offer, note, told, success, next, rfl, found, admitted, guarded, rfl⟩ |
    ⟨id, thread, rfl, found, rfl⟩ | ⟨change, rfl, rfl⟩
  · apply attends.of_update rfl
    · intro _ isAdmitted
      cases isAdmitted
    · intro _ _ _ isOpen
      exact absurd isOpen ((ready_iff.mp (ready_of_spawn stepped)).1 pfx breaker known)
  · apply attends.of_update rfl
    · intro routed admitted buffers
      exact ⟨id, note, op, next, found, routed, admitted, buffers⟩
    · intro _ _ asks _
      exact ⟨.call op next, found, Or.inr ⟨offer op, benign.given quiet, asks⟩⟩
  · exact attends_before_tryAdmit separate found fresh guarded known attends
  · exact attends_before_record separate found admitted guarded (reached.told id _ found) known attends
  · cases benign
  · cases change with
    | tick nanos => exact ⟨attends.servable, attends.recorder, attends.asker⟩
    | redis answers => exact ⟨attends.servable, attends.recorder, attends.asker⟩

private theorem attended_of_recoverable {routes : List Route} {cfg : BreakerConfig}
    (wired : state.breakers = some (Breakers.new routes cfg))
    (reached : Reached json urls state gateway) (recoverable : Recoverable json urls state gateway) :
    Attended json urls state gateway := by
  intro pfx breaker known
  obtain ⟨recovered, ⟨events, benign, ran⟩, allClosed⟩ := recoverable
  induction events generalizing gateway with
  | nil =>
      obtain rfl : gateway = recovered := by simpa using ran
      exact attends_of_closed (allClosed pfx breaker known)
  | cons event rest inductionHypothesis =>
      obtain ⟨after, stepped, tail⟩ := run_cons_iff.mp ran
      have later := inductionHypothesis (reached.step stepped)
        (fun event member => benign event (List.mem_cons_of_mem _ member)) tail
      exact attends_before (separate_new wired) reached (benign event List.mem_cons_self) stepped known
        later

/-- The loop can recover from a state exactly if the requests that are in the
gateway there attend to every breaker that is not closed. -/
theorem recoverable_iff_attended (json : Json.Codec) (urls : UrlCrate) (state : ProxyState scheme)
    (routes : List Route) (cfg : BreakerConfig)
    (wired : state.breakers = some (Breakers.new routes cfg)) (start : Nat) (events : List Event)
    (gateway : Running) (ran : run (loop json urls state) (init start) events = some gateway) :
    Recoverable json urls state gateway ↔ Attended json urls state gateway := by
  have reached : Reached json urls state gateway := ⟨start, events, ran⟩
  constructor
  · intro recoverable
    exact attended_of_recoverable wired reached recoverable
  · intro attended
    exact recoverable_of_attended wired reached attended

end

/-! ### One route -/

/-- The first of two requests opens the breaker while the second is still ahead of
its `try_admit`. -/
def trippedAhead : List Event :=
  .spawn crmRequest :: .spawn crmRequest ::
    List.replicate 4 (.exec 0 (offers fun _ => .unanswered))

private theorem crm_of_guarded {pfx : Text} {breaker : CircuitBreaker}
    (known : crmState.breakerFor pfx = some breaker) :
    pfx = "crm".toList ∧ breaker = crmBreaker := by
  have member : pfx ∈ crmRoutes.map Route.routePrefix := mem_of_guarded rfl known
  have same : pfx = "crm".toList := by simpa [crmRoutes] using member
  subst same
  exact ⟨rfl, (Option.some.inj known).symm⟩

private theorem servable_crm : Servable Json.Text.flatCodec plainUrls crmState "crm".toList := by
  refine ⟨crmRequest, rfl, Or.inl ⟨crmBreaker, _, rfl, ?_⟩⟩
  refine Or.inr ⟨(), trivial, Or.inr ⟨answering, fun url _ => answers_answering url, ?_⟩⟩
  exact Or.inl ⟨crmBreaker, true, _, rfl, rfl⟩

theorem recoverable_iff_attended_on_request_ahead :
    ∃ gateway, run (loop Json.Text.flatCodec plainUrls crmState) (init 0) trippedAhead =
        some gateway ∧
      (gateway.shared.cells crmBreaker.inner).state = .opened ∧
      Recoverable Json.Text.flatCodec plainUrls crmState gateway := by
  refine ⟨_, rfl, rfl, ?_⟩
  apply (recoverable_iff_attended Json.Text.flatCodec plainUrls crmState crmRoutes crmBreaker.cfg rfl
    0 trippedAhead _ rfl).mpr
  intro pfx breaker known
  obtain ⟨rfl, rfl⟩ := crm_of_guarded known
  refine ⟨fun _ => servable_crm, ?_, ?_⟩
  · intro half
    cases half
  · intro _
    exact ⟨1, ⟨crmRequest, .fresh⟩, _, rfl, rfl, rfl, Or.inl ⟨crmBreaker, _, rfl, trivial⟩,
      Or.inl buffers_crmRequest⟩

/-- One request whose backend does not answer opens the breaker and is gone. No
other is delivered, and the breaker stays open whatever the backend does. -/
theorem tripped_breaker_never_recovers :
    ¬ ∀ (json : Json.Codec) (urls : UrlCrate) (scheme : Ed25519) (state : ProxyState scheme)
      (routes : List Route) (cfg : BreakerConfig),
      state.breakers = some (Breakers.new routes cfg) →
      ∀ (start : Nat) (events : List Event) (gateway : Running),
        run (loop json urls state) (init start) events = some gateway →
          Recoverable json urls state gateway := by
  intro always
  have claimed := always Json.Text.flatCodec plainUrls checksumScheme crmState crmRoutes
    crmBreaker.cfg rfl 0 tripped _ rfl
  have attended := attended_of_recoverable rfl ⟨0, tripped, rfl⟩ claimed
  obtain ⟨id, note, handler, found, -, fresh, -⟩ := (attended "crm".toList crmBreaker rfl).asker rfl
  match id, found with
  | 0, found =>
      cases found
      cases fresh
  | id + 1, found => cases found

end Ratewall.Gateway
