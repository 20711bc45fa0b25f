import Ratewall.Router.Forward

/-! Owns the order in which one request talks to its breaker: it asks `try_admit`
at most once, records only after the answer was `Call`, at most once, and touches
no breaker but that of its own prefix. An admitted request is certain to record
if its body can be buffered; on the one path where the body cannot, `forward`
returns without a record. -/

namespace Ratewall.Router

open Ratewall.Rust
open Ratewall.Foundation
open Ratewall.Foundation.Program
open Ratewall.Circuit
open Ratewall.Http
open Ratewall.Auth

inductive Phase where
  | fresh
  | refused
  | admitted
  | recorded
deriving DecidableEq, Repr

def Phase.after (phase : Phase) : (op : Op) → Answer op → Phase
  | .tryAdmit _, .call => .admitted
  | .tryAdmit _, .shortCircuit => .refused
  | .record _ _, _ => .recorded
  | _, _ => phase

def IsRecord : Op → Prop
  | .record _ _ => True
  | _ => False

/-- A call that is not one of the breaker's. -/
def Quiet : Op → Prop
  | .tryAdmit _ => False
  | .record _ _ => False
  | _ => True

theorem Quiet.after {op : Op} (quiet : Quiet op) (phase : Phase) (answer : Answer op) :
    phase.after op answer = phase := by
  cases op with
  | tryAdmit breaker => cases quiet
  | record breaker success => cases quiet
  | _ => rfl

/-- A quiet call tells no breaker an outcome. -/
theorem Quiet.not_isRecord {op : Op} (quiet : Quiet op) : ¬ IsRecord op := by
  intro isRecord
  cases op with
  | record breaker success => cases quiet
  | _ => cases isRecord

/-- What holds at every point of a handler that runs under `breaker`; `buffers`
says that the body of its request can be read. -/
structure Disciplined (breaker : Option CircuitBreaker) (buffers : Prop) (phase : Phase)
    (handler : Handler) : Prop where
  asksOnce : ∀ asked next, handler = .call (.tryAdmit asked) next →
    phase = .fresh ∧ breaker = some asked
  recordsOnce : ∀ told success next, handler = .call (.record told success) next →
    phase = .admitted ∧ breaker = some told
  settles : phase = .admitted → buffers → Inevitable IsRecord handler

abbrev Orderly (breaker : Option CircuitBreaker) (buffers : Prop) : Phase → Handler → Prop :=
  Always Phase.after (Disciplined breaker buffers)

def Buffers (request : Request) : Prop := ∃ bytes, request.body.toBytes bodyLimit = .ok bytes

section

variable {breaker : Option CircuitBreaker} {buffers : Prop} {phase : Phase}

private theorem disciplined_done {response : Response} (open' : phase = .admitted → ¬ buffers) :
    Disciplined breaker buffers phase (.done response) where
  asksOnce := by
    intro asked next same
    cases same
  recordsOnce := by
    intro told success next same
    cases same
  settles := by
    intro admitted holds
    exact absurd holds (open' admitted)

private theorem disciplined_quiet {op : Op} {next : Answer op → Handler} (quiet : Quiet op)
    (settles : phase = .admitted → buffers → ∀ answer, Inevitable IsRecord (next answer)) :
    Disciplined breaker buffers phase (.call op next) where
  asksOnce := by
    intro asked later same
    cases same
    cases quiet
  recordsOnce := by
    intro told success later same
    cases same
    cases quiet
  settles := by
    intro admitted holds
    exact Or.inr (settles admitted holds)

/-- Calls that are not the breaker's can be put in front of anything. -/
theorem orderly_bind {α : Type} {program : Program Op Answer α} {next : α → Handler}
    (quiet : All Quiet program) (rest : ∀ found, Orderly breaker buffers phase (next found)) :
    Orderly breaker buffers phase (program >>= next) := by
  apply Always.bind_of_all (fun op quiet answer => quiet.after phase answer) quiet _ rest
  intro op later quiet holds
  exact disciplined_quiet quiet fun admitted buffered answer => (holds answer).settles admitted buffered

private theorem orderly_done {response : Response} (notAdmitted : phase ≠ .admitted) :
    Orderly breaker buffers phase (.done response) :=
  disciplined_done fun admitted => absurd admitted notAdmitted

private theorem orderly_record {told : CircuitBreaker} {success : Bool} {next : Unit → Handler}
    (rest : ∀ answer, Orderly (some told) buffers .recorded (next answer)) :
    Orderly (some told) buffers .admitted (.call (.record told success) next) := by
  refine ⟨⟨?_, ?_, ?_⟩, rest⟩
  · intro asked later same
    cases same
  · intro told' success' later same
    cases same
    exact ⟨rfl, rfl⟩
  · intro _ _
    exact Or.inl trivial

end

/-! ### The helpers -/

section

variable {scheme : Ed25519} {state : ProxyState scheme} {pfx : Text} {buffers : Prop}

theorem quiet_ask (op : Op) (quiet : Quiet op) : All Quiet (ask op) :=
  ⟨quiet, fun _ => trivial⟩

/-- Stopping a timer touches no breaker, and neither do the calls below. -/
theorem quiet_finishTimer (timer : Option RequestTimer) (statusClass : Text) :
    All Quiet (finishTimer timer statusClass) := by
  cases timer with
  | none => exact trivial
  | some timer => exact ⟨trivial, fun _ => trivial⟩

theorem quiet_countCircuitOpen : All Quiet (countCircuitOpen state pfx) := by
  unfold countCircuitOpen
  split
  next => exact ⟨trivial, fun _ => trivial⟩
  next => exact trivial

theorem quiet_countRateLimited : All Quiet (countRateLimited state pfx) := by
  unfold countRateLimited
  split
  next => exact ⟨trivial, fun _ => trivial⟩
  next => exact trivial

theorem quiet_startTimer : All Quiet (startTimer state pfx) := by
  unfold startTimer
  split
  next => exact ⟨trivial, fun _ => trivial⟩
  next => exact trivial

/-- An upstream exchange touches no breaker, however it ends. -/
theorem quiet_send (urls : UrlCrate) (outbound : Outbound) : All Quiet (send urls outbound) := by
  unfold send
  split
  next => exact trivial
  next => exact ⟨trivial, fun _ => trivial⟩

private theorem orderly_deliver {breaker : Option CircuitBreaker} {phase : Phase}
    (notAdmitted : phase ≠ .admitted) (timer : Option RequestTimer) (response : WireResponse) :
    Orderly breaker buffers phase (deliver timer response) := by
  unfold deliver
  apply orderly_bind (quiet_ask .readBody trivial)
  intro _
  apply orderly_bind (quiet_finishTimer timer _)
  intro _
  split
  next => exact orderly_done notAdmitted
  next => exact orderly_done notAdmitted

private theorem orderly_conclude (breaker : CircuitBreaker) (timer : Option RequestTimer)
    (sent : Except SendError WireResponse) :
    Orderly (some breaker) buffers .admitted (conclude pfx (some breaker) timer sent) := by
  cases sent with
  | ok response =>
      apply orderly_record
      intro _
      exact orderly_deliver (by decide) timer response
  | error err =>
      apply orderly_record
      intro _
      apply orderly_bind (quiet_finishTimer timer _)
      intro _
      exact orderly_done (by decide)

private theorem orderly_conclude_unguarded (timer : Option RequestTimer)
    (sent : Except SendError WireResponse) :
    Orderly none buffers .fresh (conclude pfx none timer sent) := by
  cases sent with
  | ok response => exact orderly_deliver (by decide) timer response
  | error err =>
      apply orderly_bind (quiet_finishTimer timer _)
      intro _
      exact orderly_done (by decide)

end

/-! ### The handler -/

section

variable (urls : UrlCrate) {scheme : Ed25519} (state : ProxyState scheme)

private theorem orderly_exchange (pfx : Text) (breaker : CircuitBreaker) (backend suffix : Text)
    (request : Request) :
    Orderly (some breaker) (Buffers request) .admitted
      (exchange urls state pfx (some breaker) backend suffix request) := by
  apply orderly_bind (quiet_ask (.collect request.body) trivial)
  intro _
  split
  next err failed =>
    apply disciplined_done
    rintro _ ⟨bytes, buffered⟩
    rw [failed] at buffered
    cases buffered
  next bytes buffered =>
    apply orderly_bind quiet_startTimer
    intro timer
    apply orderly_bind (quiet_send urls _)
    intro sent
    exact orderly_conclude breaker timer sent

private theorem orderly_exchange_unguarded (pfx backend suffix : Text) (request : Request) :
    Orderly none (Buffers request) .fresh (exchange urls state pfx none backend suffix request) := by
  apply orderly_bind (quiet_ask (.collect request.body) trivial)
  intro _
  split
  next => exact orderly_done (by decide)
  next =>
    apply orderly_bind quiet_startTimer
    intro timer
    apply orderly_bind (quiet_send urls _)
    intro sent
    exact orderly_conclude_unguarded timer sent

private theorem orderly_forward (pfx suffix : Text) (request : Request) :
    Orderly (state.breakerFor pfx) (Buffers request) .fresh
      (forward urls state pfx suffix request) := by
  unfold forward
  split
  next => exact orderly_done (by decide)
  next backend _ =>
    split
    next unguarded =>
      rw [unguarded]
      exact orderly_exchange_unguarded urls state pfx backend suffix request
    next breaker guarded =>
      rw [guarded]
      refine ⟨⟨?_, ?_, ?_⟩, ?_⟩
      · intro asked next same
        cases same
        exact ⟨rfl, rfl⟩
      · intro told success next same
        cases same
      · intro admitted
        cases admitted
      · intro admission
        cases admission with
        | call => exact orderly_exchange urls state pfx breaker backend suffix request
        | shortCircuit =>
            show Orderly _ _ .refused _
            apply orderly_bind quiet_countCircuitOpen
            intro _
            exact orderly_done (by decide)

/-- The prefix that a request is routed by. -/
def prefixOf (request : Request) : Text := (splitPath request.path).1

private theorem orderly_route (request : Request) :
    Orderly (state.breakerFor (prefixOf request)) (Buffers request) .fresh
      (route urls state request) := by
  unfold route
  split
  next pfx rest split =>
    split
    next => exact orderly_done (by decide)
    next =>
      have same : pfx = prefixOf request := by rw [prefixOf, split]
      rw [← same]
      exact orderly_forward urls state pfx rest request

private theorem orderly_rateLimit (subject : Option Text) (request : Request) :
    Orderly (state.breakerFor (prefixOf request)) (Buffers request) .fresh
      (rateLimit urls state subject request) := by
  unfold rateLimit
  split
  next => exact orderly_route urls state request
  next limiter _ =>
    apply orderly_bind (quiet_ask (.decide limiter _) trivial)
    intro decision
    split
    next =>
      apply orderly_bind quiet_countRateLimited
      intro _
      exact orderly_done (by decide)
    next => exact orderly_route urls state request
    next => exact orderly_route urls state request

/-- A whole request asks its breaker at most once, and records only what it was admitted
for. -/
theorem orderly_proxyFallback (json : Json.Codec) (request : Request) :
    Orderly (state.breakerFor (prefixOf request)) (Buffers request) .fresh
      (proxyFallback urls state json request) := by
  unfold proxyFallback
  split
  next => exact orderly_rateLimit urls state none request
  next auth _ =>
    apply orderly_bind (quiet_ask .unixNow trivial)
    intro now
    split
    next subject _ => exact orderly_rateLimit urls state (some subject) request
    next => exact orderly_done (by decide)

end

end Ratewall.Router
