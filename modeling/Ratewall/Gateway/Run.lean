import Ratewall.Circuit.Calls
import Ratewall.Foundation.Pool
import Ratewall.Router.Discipline

/-! Owns the running gateway: any number of concurrent requests, each a handler
of `router.rs`, over the breakers' cells, the clock and Redis. One step answers
one call of one request, lets a client disconnect, or lets time pass. The calls
in flight at each breaker and the probe of its current half-open period are
history, as for a single breaker. -/

namespace Ratewall.Gateway

open Ratewall.Rust
open Ratewall.Foundation
open Ratewall.Foundation.Program
open Ratewall.Circuit
open Ratewall.Http
open Ratewall.Auth
open Ratewall.Router

structure Shared where
  cells : Cell → Inner
  now : Nat
  pong : Bool
  inFlight : Cell → Nat → Option Call
  probe : Cell → Option Nat

def Shared.init (start : Nat) : Shared where
  cells := fun _ => Inner.fresh
  now := start
  pong := true
  inFlight := fun _ _ => none
  probe := fun _ => none

/-- What one breaker and its history look like. -/
def Shared.calls (shared : Shared) (cell : Cell) : Calls where
  inner := shared.cells cell
  now := shared.now
  inFlight := shared.inFlight cell
  probe := shared.probe cell

def tryAdmit (shared : Shared) (id : Nat) (breaker : CircuitBreaker) : Admit × Shared :=
  let cell := breaker.inner
  match CircuitBreaker.tryAdmit breaker.cfg shared.now (shared.cells cell) with
  | (.shortCircuit, inner) =>
      (.shortCircuit, { shared with cells := Function.update shared.cells cell inner })
  | (.call, inner) =>
      let isProbe : Bool := (shared.cells cell).state = .opened
      (.call,
        { shared with
          cells := Function.update shared.cells cell inner
          inFlight := Function.update shared.inFlight cell
            (Function.update (shared.inFlight cell) id (some ⟨shared.now, isProbe⟩))
          probe := Function.update shared.probe cell
            (if isProbe then some id else shared.probe cell) })

def record (shared : Shared) (id : Nat) (breaker : CircuitBreaker) (success : Bool) : Shared :=
  let cell := breaker.inner
  { shared with
    cells := Function.update shared.cells cell
      (CircuitBreaker.record breaker.cfg shared.now success (shared.cells cell))
    inFlight := Function.update shared.inFlight cell
      (Function.update (shared.inFlight cell) id none) }

/-- How the shared state answers. What it does not hold itself, it takes from the
surroundings; that includes the wall clock and the readings that latencies are
taken from. -/
def act (shared : Shared) (id : Nat) : (op : Op) → Answer op → Answer op × Shared
  | .tryAdmit breaker, _ => tryAdmit shared id breaker
  | .record breaker success, _ => ((), record shared id breaker success)
  | _, offer => (offer, shared)

inductive Change where
  | tick (nanos : Nat)
  | redis (answers : Bool)
deriving DecidableEq, Repr

def ambient (shared : Shared) : Change → Shared
  | .tick nanos => { shared with now := shared.now + nanos }
  | .redis answers => { shared with pong := answers }

/-- What is known about a request in the gateway. -/
structure Note where
  request : Request
  phase : Phase

abbrev Running := Pool Op Answer Response Note Shared
abbrev Event := Pool.Event Op Answer Request Change

section

variable (json : Json.Codec) (urls : UrlCrate) {scheme : Ed25519} (state : ProxyState scheme)

def system : System Op Answer Response Note Shared Request Change where
  body := proxyFallback urls state json
  note := fun request => ⟨request, .fresh⟩
  act := act
  observe := fun note op answer => { note with phase := note.phase.after op answer }
  ambient := ambient

def step : Running → Event → Option Running := Pool.step (system json urls state)

def init (start : Nat) : Running := Pool.init (Shared.init start)

end

/-! ### What an answer does to the breakers -/

/-- A quiet call finds the breakers and leaves them as they are. -/
theorem act_quiet {op : Op} (quiet : Quiet op) (shared : Shared) (id : Nat) (offer : Answer op) :
    act shared id op offer = (offer, shared) := by
  cases op with
  | tryAdmit breaker => cases quiet
  | record breaker success => cases quiet
  | _ => rfl

/-- All that asking a breaker can do to the shared state. -/
theorem tryAdmit_cases (shared : Shared) (id : Nat) (breaker : CircuitBreaker) :
    ((shared.cells breaker.inner).state = .closed ∧
      tryAdmit shared id breaker = (.call, { shared with
        inFlight := Function.update shared.inFlight breaker.inner
          (Function.update (shared.inFlight breaker.inner) id (some ⟨shared.now, false⟩)) })) ∨
    ((shared.cells breaker.inner).state = .opened ∧
      CircuitBreaker.waited breaker.cfg shared.now (shared.cells breaker.inner) = true ∧
      tryAdmit shared id breaker = (.call, { shared with
        cells := Function.update shared.cells breaker.inner
          { shared.cells breaker.inner with state := .halfOpen }
        inFlight := Function.update shared.inFlight breaker.inner
          (Function.update (shared.inFlight breaker.inner) id (some ⟨shared.now, true⟩))
        probe := Function.update shared.probe breaker.inner (some id) })) ∨
    ((shared.cells breaker.inner).state ≠ .closed ∧
      tryAdmit shared id breaker = (.shortCircuit, shared)) := by
  unfold tryAdmit
  rcases CircuitBreaker.tryAdmit_cases breaker.cfg shared.now (shared.cells breaker.inner) with
    ⟨phase, answer⟩ | ⟨phase, due, answer⟩ | ⟨phase, -, answer⟩ | ⟨phase, answer⟩
  · refine Or.inl ⟨phase, ?_⟩
    simp [answer, phase]
  · refine Or.inr (Or.inl ⟨phase, due, ?_⟩)
    simp [answer, phase]
  · refine Or.inr (Or.inr ⟨by simp [phase], ?_⟩)
    simp [answer]
  · refine Or.inr (Or.inr ⟨by simp [phase], ?_⟩)
    simp [answer]

/-- Once the cooldown is over, whoever asks becomes the probe. -/
theorem tryAdmit_probe {shared : Shared} {breaker : CircuitBreaker}
    (isOpen : (shared.cells breaker.inner).state = .opened)
    (due : CircuitBreaker.waited breaker.cfg shared.now (shared.cells breaker.inner) = true)
    (id : Nat) :
    (tryAdmit shared id breaker).1 = .call ∧
      ((tryAdmit shared id breaker).2.cells breaker.inner).state = .halfOpen := by
  simp [tryAdmit, CircuitBreaker.tryAdmit, isOpen, due]

/-! ### The invariant of every run -/

section

variable {json : Json.Codec} {urls : UrlCrate} {scheme : Ed25519} {state : ProxyState scheme}
  {before after : Running} {event : Event}

/-- A request in the gateway keeps to the order of calls that its handler has. -/
def Sound (state : ProxyState scheme) (note : Note) (handler : Handler) : Prop :=
  Orderly (state.breakerFor (prefixOf note.request)) (Buffers note.request) note.phase handler

structure WellRun (state : ProxyState scheme) (gateway : Running) : Prop where
  sound : gateway.Threads (Sound state)
  fresh : gateway.Fresh

theorem wellRun_init (start : Nat) : WellRun state (init start) :=
  ⟨Pool.threads_init _ _, Pool.fresh_init _⟩

/-- Every step keeps the requests to the order of their calls. -/
theorem wellRun_step (wellRun : WellRun state before)
    (stepped : step json urls state before event = some after) : WellRun state after := by
  refine ⟨?_, Pool.fresh_step wellRun.fresh stepped⟩
  apply Pool.threads_step _ _ wellRun.sound stepped
  · intro request _
    exact orderly_proxyFallback urls state json request
  · intro note op next sound answer
    exact sound.2 answer

/-- Everything a step can do to a well-run gateway. -/
theorem step_cases (wellRun : WellRun state before)
    (stepped : step json urls state before event = some after) :
    (∃ request, event = .spawn request ∧ after = { before with
      threads := Function.update before.threads before.nextId
        (some ⟨⟨request, .fresh⟩, proxyFallback urls state json request⟩)
      nextId := before.nextId + 1 }) ∨
    (∃ id offer note op next, event = .exec id offer ∧
      before.threads id = some ⟨note, .call op next⟩ ∧ Quiet op ∧ after = { before with
        threads := Function.update before.threads id (some ⟨note, next (offer op)⟩) }) ∨
    (∃ id offer note breaker next, event = .exec id offer ∧
      before.threads id = some ⟨note, .call (.tryAdmit breaker) next⟩ ∧ note.phase = .fresh ∧
      state.breakerFor (prefixOf note.request) = some breaker ∧ after = { before with
        shared := (tryAdmit before.shared id breaker).2
        threads := Function.update before.threads id (some
          ⟨{ note with
              phase := note.phase.after (.tryAdmit breaker) (tryAdmit before.shared id breaker).1 },
            next (tryAdmit before.shared id breaker).1⟩) }) ∨
    (∃ id offer note breaker success next, event = .exec id offer ∧
      before.threads id = some ⟨note, .call (.record breaker success) next⟩ ∧
      note.phase = .admitted ∧ state.breakerFor (prefixOf note.request) = some breaker ∧
      after = { before with
        shared := record before.shared id breaker success
        threads := Function.update before.threads id
          (some ⟨{ note with phase := .recorded }, next ()⟩) }) ∨
    (∃ id thread, event = .drop id ∧ before.threads id = some thread ∧
      after = { before with threads := Function.update before.threads id none }) ∨
    (∃ change, event = .ambient change ∧
      after = { before with shared := ambient before.shared change }) := by
  rcases Pool.step_cases stepped with ⟨request, rfl, rfl⟩ |
    ⟨id, offer, note, op, next, rfl, found, rfl⟩ | ⟨id, thread, rfl, found, rfl⟩ | ⟨change, rfl, rfl⟩
  · exact Or.inl ⟨request, rfl, rfl⟩
  · right
    have here := (wellRun.sound id _ found).here
    by_cases quiet : Quiet op
    · refine Or.inl ⟨id, offer, note, op, next, rfl, found, quiet, ?_⟩
      simp only [system, act_quiet quiet, quiet.after]
    · right
      cases op with
      | tryAdmit breaker =>
          obtain ⟨fresh, guarded⟩ := here.asksOnce breaker next rfl
          exact Or.inl ⟨id, offer, note, breaker, next, rfl, found, fresh, guarded, rfl⟩
      | record breaker success =>
          obtain ⟨admitted, guarded⟩ := here.recordsOnce breaker success next rfl
          exact Or.inr (Or.inl
            ⟨id, offer, note, breaker, success, next, rfl, found, admitted, guarded, rfl⟩)
      | _ => exact absurd trivial quiet
  · exact Or.inr (Or.inr (Or.inr (Or.inr (Or.inl ⟨id, thread, rfl, found, rfl⟩))))
  · exact Or.inr (Or.inr (Or.inr (Or.inr (Or.inr ⟨change, rfl, rfl⟩))))

end

end Ratewall.Gateway
