import Ratewall.Circuit.Representation
import Ratewall.Gateway.Probe

/-! Owns the connection of the running gateway to the single breaker: seen through
one breaker, every run of the gateway is a run of concurrent calls, with the
requests as callers. So whatever holds of all runs of `Calls` holds of every
breaker of the gateway. -/

namespace Ratewall.Gateway

open Ratewall.Rust
open Ratewall.Foundation
open Ratewall.Config
open Ratewall.Circuit
open Ratewall.Http
open Ratewall.Auth
open Ratewall.Router

section

variable {json : Json.Codec} {urls : UrlCrate} {scheme : Ed25519} {state : ProxyState scheme}
  {before after : Running} {event : Event}

/-- The history agrees with the requests: one that has not asked is nowhere in
flight, one that was admitted and has not recorded is in flight at its breaker. -/
structure Accounted (state : ProxyState scheme) (gateway : Running) : Prop where
  wellRun : WellRun state gateway
  unborn : ∀ id, gateway.nextId ≤ id → ∀ cell, gateway.shared.inFlight cell id = none
  fresh : ∀ id thread, gateway.threads id = some thread → thread.note.phase = .fresh →
    ∀ cell, gateway.shared.inFlight cell id = none
  admitted : ∀ id thread breaker, gateway.threads id = some thread →
    thread.note.phase = .admitted →
    state.breakerFor (prefixOf thread.note.request) = some breaker →
      ∃ call, gateway.shared.inFlight breaker.inner id = some call

private theorem accounted_init (start : Nat) : Accounted state (init start) where
  wellRun := wellRun_init start
  unborn := by
    intro id _ cell
    rfl
  fresh := by
    intro id thread found
    cases found
  admitted := by
    intro id thread breaker found
    cases found

/-- Only the entry of the acting request changes, and only at its own breaker. -/
structure TouchesOnly (before after : Shared) (cell : Cell) (id : Nat) : Prop where
  inFlight : ∀ other caller, other ≠ cell ∨ caller ≠ id →
    after.inFlight other caller = before.inFlight other caller
  calls : ∀ other, other ≠ cell → after.calls other = before.calls other

private theorem update_update_of_ne {slots : Cell → Nat → Option Call} {cell other : Cell}
    {id caller : Nat} {entry : Option Call} (away : other ≠ cell ∨ caller ≠ id) :
    Function.update slots cell (Function.update (slots cell) id entry) other caller =
      slots other caller := by
  by_cases same : other = cell
  · subst same
    have different : caller ≠ id := by
      rcases away with away | away
      · exact absurd rfl away
      · exact away
    rw [Function.update_self, Function.update_of_ne different]
  · rw [Function.update_of_ne same]

theorem touches_tryAdmit (shared : Shared) (id : Nat) (breaker : CircuitBreaker) :
    TouchesOnly shared (tryAdmit shared id breaker).2 breaker.inner id := by
  rcases tryAdmit_cases shared id breaker with ⟨-, result⟩ | ⟨-, -, result⟩ | ⟨-, result⟩
  · rw [result]
    refine ⟨fun other caller away => update_update_of_ne away, ?_⟩
    intro other different
    simp [Shared.calls, Function.update_of_ne different]
  · rw [result]
    refine ⟨fun other caller away => update_update_of_ne away, ?_⟩
    intro other different
    simp [Shared.calls, Function.update_of_ne different]
  · rw [result]
    exact ⟨fun _ _ _ => rfl, fun _ _ => rfl⟩

theorem touches_record (shared : Shared) (id : Nat) (breaker : CircuitBreaker) (success : Bool) :
    TouchesOnly shared (record shared id breaker success) breaker.inner id := by
  refine ⟨fun other caller away => update_update_of_ne away, ?_⟩
  intro other different
  simp [Shared.calls, record, Function.update_of_ne different]

/-! ### Each step of the gateway is a step of the calls -/

private theorem calls_tryAdmit {shared : Shared} {id : Nat} {breaker : CircuitBreaker}
    (idle : shared.inFlight breaker.inner id = none) :
    Calls.step breaker.cfg (shared.calls breaker.inner) (.tryAdmit id) =
      some ((tryAdmit shared id breaker).2.calls breaker.inner) := by
  unfold tryAdmit Calls.step Shared.calls
  simp only [idle]
  cases answer : CircuitBreaker.tryAdmit breaker.cfg shared.now (shared.cells breaker.inner) with
  | mk admission inner =>
      cases admission with
      | call => simp
      | shortCircuit => simp

private theorem calls_record {shared : Shared} {id : Nat} {breaker : CircuitBreaker} {call : Call}
    (filled : shared.inFlight breaker.inner id = some call) (success : Bool) :
    Calls.step breaker.cfg (shared.calls breaker.inner) (.record id success) =
      some ((record shared id breaker success).calls breaker.inner) := by
  unfold record Calls.step Shared.calls
  simp [filled]

/-- A step on which one request acts at its breaker keeps the accounts of all the
others. -/
private theorem accounted_acting (accounted : Accounted state before) {id : Nat} {note : Note}
    {handler : Handler} {shared : Shared} {old : Thread Op Answer Response Note} {cell : Cell}
    (wellRun : WellRun state { before with
      shared := shared
      threads := Function.update before.threads id (some ⟨note, handler⟩) })
    (found : before.threads id = some old) (touches : TouchesOnly before.shared shared cell id)
    (notFresh : note.phase ≠ .fresh)
    (filled : note.phase = .admitted → ∀ breaker,
      state.breakerFor (prefixOf note.request) = some breaker →
        ∃ call, shared.inFlight breaker.inner id = some call) :
    Accounted state { before with
      shared := shared
      threads := Function.update before.threads id (some ⟨note, handler⟩) } where
  wellRun := wellRun
  unborn := by
    intro other above anywhere
    have different : other ≠ id := by
      rintro rfl
      rw [accounted.wellRun.fresh other above] at found
      cases found
    exact (touches.inFlight anywhere other (Or.inr different)).trans
      (accounted.unborn other above anywhere)
  fresh := by
    intro other thread held phase anywhere
    rcases filled_cases held with ⟨rfl, rfl⟩ | ⟨different, held⟩
    · exact absurd phase notFresh
    · exact (touches.inFlight anywhere other (Or.inr different)).trans
        (accounted.fresh other thread held phase anywhere)
  admitted := by
    intro other thread breaker held phase guarded
    rcases filled_cases held with ⟨rfl, rfl⟩ | ⟨different, held⟩
    · exact filled phase breaker guarded
    · obtain ⟨call, entry⟩ := accounted.admitted other thread breaker held phase guarded
      exact ⟨call, (touches.inFlight breaker.inner other (Or.inr different)).trans entry⟩

private theorem accounted_step (accounted : Accounted state before)
    (stepped : step json urls state before event = some after) : Accounted state after := by
  have wellRun := wellRun_step accounted.wellRun stepped
  rcases step_cases accounted.wellRun stepped with ⟨request, -, rfl⟩ |
    ⟨id, offer, note, op, next, -, found, -, rfl⟩ |
    ⟨id, offer, note, asked, next, -, found, -, guarded, rfl⟩ |
    ⟨id, offer, note, told, success, next, -, found, -, -, rfl⟩ |
    ⟨id, thread, -, found, rfl⟩ | ⟨change, -, rfl⟩
  · refine ⟨wellRun, ?_, ?_, ?_⟩
    · intro id above cell
      have later : before.nextId + 1 ≤ id := above
      exact accounted.unborn id (by omega) cell
    · intro id thread held phase cell
      rcases filled_cases held with ⟨rfl, -⟩ | ⟨-, held⟩
      · exact accounted.unborn _ le_rfl cell
      · exact accounted.fresh id thread held phase cell
    · intro id thread breaker held phase guarded
      rcases filled_cases held with ⟨-, rfl⟩ | ⟨-, held⟩
      · cases phase
      · exact accounted.admitted id thread breaker held phase guarded
  · refine ⟨wellRun, accounted.unborn, ?_, ?_⟩
    · intro other thread held phase cell
      rcases filled_cases held with ⟨rfl, rfl⟩ | ⟨-, held⟩
      · exact accounted.fresh _ _ found phase cell
      · exact accounted.fresh other thread held phase cell
    · intro other thread breaker held phase guarded
      rcases filled_cases held with ⟨rfl, rfl⟩ | ⟨-, held⟩
      · exact accounted.admitted _ _ breaker found phase guarded
      · exact accounted.admitted other thread breaker held phase guarded
  · apply accounted_acting accounted wellRun found (touches_tryAdmit before.shared id asked)
    · cases (tryAdmit before.shared id asked).1 <;> simp [Phase.after]
    · intro phase breaker known
      have same : asked = breaker := Option.some.inj (guarded.symm.trans known)
      subst same
      rcases tryAdmit_cases before.shared id asked with ⟨-, result⟩ | ⟨-, -, result⟩ | ⟨-, result⟩
      · rw [result]
        exact ⟨⟨before.shared.now, false⟩, by simp⟩
      · rw [result]
        exact ⟨⟨before.shared.now, true⟩, by simp⟩
      · rw [result] at phase
        cases phase
  · apply accounted_acting accounted wellRun found (touches_record before.shared id told success)
    · simp
    · intro phase
      cases phase
  · refine ⟨wellRun, accounted.unborn, ?_, ?_⟩
    · intro other thread held
      exact accounted.fresh other thread (emptied_cases held).2
    · intro other thread breaker held
      exact accounted.admitted other thread breaker (emptied_cases held).2
  · have kept : (ambient before.shared change).inFlight = before.shared.inFlight := by
      cases change <;> rfl
    refine ⟨wellRun, ?_, ?_, ?_⟩
    · intro id above cell
      rw [show (ambient before.shared change).inFlight = _ from kept]
      exact accounted.unborn id above cell
    · intro id thread held phase cell
      rw [show (ambient before.shared change).inFlight = _ from kept]
      exact accounted.fresh id thread held phase cell
    · intro id thread breaker held phase guarded
      rw [show (ambient before.shared change).inFlight = _ from kept]
      exact accounted.admitted id thread breaker held phase guarded

private theorem calls_simulate (separate : Separate state) {pfx : Text} {breaker : CircuitBreaker}
    (known : state.breakerFor pfx = some breaker) (accounted : Accounted state before)
    (stepped : step json urls state before event = some after) :
    ∃ shown, run (Calls.step breaker.cfg) (before.shared.calls breaker.inner) shown =
      some (after.shared.calls breaker.inner) := by
  rcases step_cases accounted.wellRun stepped with ⟨request, -, rfl⟩ |
    ⟨id, offer, note, op, next, -, found, -, rfl⟩ |
    ⟨id, offer, note, asked, next, -, found, fresh, guarded, rfl⟩ |
    ⟨id, offer, note, told, success, next, -, found, admitted, guarded, rfl⟩ |
    ⟨id, thread, -, found, rfl⟩ | ⟨change, -, rfl⟩
  · exact ⟨[], rfl⟩
  · exact ⟨[], rfl⟩
  · by_cases same : breaker.inner = asked.inner
    · have samePrefix := separate _ _ _ _ known guarded same
      rw [samePrefix, guarded] at known
      obtain rfl := Option.some.inj known
      refine ⟨[.tryAdmit id], ?_⟩
      simp [run, calls_tryAdmit (accounted.fresh id _ found fresh asked.inner)]
    · exact ⟨[], congrArg some ((touches_tryAdmit before.shared id asked).calls _ same).symm⟩
  · by_cases same : breaker.inner = told.inner
    · have samePrefix := separate _ _ _ _ known guarded same
      rw [samePrefix, guarded] at known
      obtain rfl := Option.some.inj known
      obtain ⟨call, filled⟩ := accounted.admitted id _ told found admitted guarded
      refine ⟨[.record id success], ?_⟩
      simp [run, calls_record filled]
    · exact ⟨[], congrArg some ((touches_record before.shared id told success).calls _ same).symm⟩
  · exact ⟨[], rfl⟩
  · cases change with
    | tick nanos => exact ⟨[.tick nanos], rfl⟩
    | redis answers => exact ⟨[], rfl⟩

/-- Seen through one breaker, a run of the gateway is a run of concurrent calls. -/
theorem gateway_refines_calls (json : Json.Codec) (urls : UrlCrate) (state : ProxyState scheme)
    (routes : List Route) (cfg : BreakerConfig)
    (wired : state.breakers = some (Breakers.new routes cfg)) (start : Nat) (events : List Event)
    (gateway : Running) (ran : run (step json urls state) (init start) events = some gateway)
    (pfx : Text) (breaker : CircuitBreaker) (known : state.breakerFor pfx = some breaker) :
    ∃ shown, run (Calls.step breaker.cfg) (Calls.init start) shown =
      some (gateway.shared.calls breaker.inner) :=
  run_refines (fun accounted stepped => accounted_step accounted stepped)
    (fun accounted stepped => calls_simulate (separate_new wired) known accounted stepped)
    (accounted_init start) ran

/-- Hence the ages of the calls at each breaker are as the single breaker has
them. -/
theorem gateway_aged (json : Json.Codec) (urls : UrlCrate) (state : ProxyState scheme)
    (routes : List Route) (cfg : BreakerConfig)
    (wired : state.breakers = some (Breakers.new routes cfg)) (start : Nat) (events : List Event)
    (gateway : Running) (ran : run (step json urls state) (init start) events = some gateway)
    (pfx : Text) (breaker : CircuitBreaker) (known : state.breakerFor pfx = some breaker) :
    Calls.Aged breaker.cfg (gateway.shared.calls breaker.inner) := by
  obtain ⟨shown, shows⟩ := gateway_refines_calls json urls state routes cfg wired start events
    gateway ran pfx breaker known
  exact Calls.aged_of_run shows

/-- And the fields of each breaker fit its state, whatever its callers do. -/
theorem gateway_represents (json : Json.Codec) (urls : UrlCrate) (state : ProxyState scheme)
    (routes : List Route) (cfg : BreakerConfig)
    (wired : state.breakers = some (Breakers.new routes cfg)) (start : Nat) (events : List Event)
    (gateway : Running) (ran : run (step json urls state) (init start) events = some gateway)
    (pfx : Text) (breaker : CircuitBreaker) (known : state.breakerFor pfx = some breaker)
    (positive : 1 ≤ breaker.cfg.failureThreshold) :
    Clocked.Represents breaker.cfg gateway.shared.now (gateway.shared.cells breaker.inner) := by
  obtain ⟨shown, shows⟩ := gateway_refines_calls json urls state routes cfg wired start events
    gateway ran pfx breaker known
  obtain ⟨heard, hears⟩ := Calls.clocked_of_run shows
  exact Clocked.represents_of_run positive hears

end

end Ratewall.Gateway
