import Ratewall.Foundation.Trail
import Ratewall.Gateway.Probe
import Ratewall.Router.Assembly

/-! Owns the independence of the breakers: what is answered to the requests of one
prefix, and what its breaker holds in the end, is a function of the `try_admit`
and `record` calls made for that prefix and of the moments at which they are
made. Whatever happens to the other prefixes in between shows in neither. -/

namespace Ratewall.Gateway

open Ratewall.Rust
open Ratewall.Foundation
open Ratewall.Config
open Ratewall.Circuit
open Ratewall.Http
open Ratewall.Auth
open Ratewall.Router

inductive BreakerCall where
  | tryAdmit
  | record (success : Bool)
deriving DecidableEq, Repr

/-- A call on one breaker at a moment. `record` answers nothing. -/
def applyCall (cfg : BreakerConfig) (call : Nat × BreakerCall) (inner : Inner) :
    Option Admit × Inner :=
  match call.2 with
  | .tryAdmit =>
      let answered := CircuitBreaker.tryAdmit cfg call.1 inner
      (some answered.1, answered.2)
  | .record success => (none, CircuitBreaker.record cfg call.1 success inner)

/-- The breaker call of a step, with the prefix of the request that makes it and
the answer that the request gets. -/
def breakerAccess (gateway : Running) : Event → Option (Access Text (Nat × BreakerCall) (Option Admit))
  | .exec id _ =>
      match gateway.threads id with
      | some ⟨note, .call (.tryAdmit breaker) _⟩ =>
          some ⟨prefixOf note.request, (gateway.shared.now, .tryAdmit),
            some (tryAdmit gateway.shared id breaker).1⟩
      | some ⟨note, .call (.record _ success) _⟩ =>
          some ⟨prefixOf note.request, (gateway.shared.now, .record success), none⟩
      | _ => none
  | _ => none

section

variable (json : Json.Codec) (urls : UrlCrate) {scheme : Ed25519} (state : ProxyState scheme)

/-- The calls on the breaker of one prefix in the order of the run, each with its
moment and its answer. -/
def breakerHistory (start : Running) (events : List Event) (pfx : Text) :
    List ((Nat × BreakerCall) × Option Admit) :=
  historyOf (trail (step json urls state)
    (fun gateway event => (breakerAccess gateway event).toList) start events) pfx

/-- The contents of the breaker of a prefix. A prefix without one reads as a fresh
breaker. -/
def breakerOf (gateway : Running) (pfx : Text) : Inner :=
  (state.breakerFor pfx).elim Inner.fresh fun breaker => gateway.shared.cells breaker.inner

end

section

variable {json : Json.Codec} {urls : UrlCrate} {scheme : Ed25519} {state : ProxyState scheme}
  {routes : List Route} {cfg : BreakerConfig} {before after : Running} {event : Event}

private theorem breakerOf_guarded {gateway : Running} {pfx : Text} {breaker : CircuitBreaker}
    (guarded : state.breakerFor pfx = some breaker) :
    breakerOf state gateway pfx = gateway.shared.cells breaker.inner := by
  simp [breakerOf, guarded]

private theorem breakerOf_congr (same : after.shared.cells = before.shared.cells) :
    breakerOf state after = breakerOf state before := by
  funext pfx
  simp [breakerOf, same]

private theorem breakerAccess_quiet {id : Nat} {offer : (op : Op) → Answer op} {note : Note}
    {op : Op} {next : Answer op → Handler} (found : before.threads id = some ⟨note, .call op next⟩)
    (quiet : Quiet op) : breakerAccess before (.exec id offer) = none := by
  simp only [breakerAccess, found]
  cases op with
  | tryAdmit breaker => cases quiet
  | record breaker success => cases quiet
  | _ => rfl

private theorem breakerAccess_tryAdmit {id : Nat} {offer : (op : Op) → Answer op} {note : Note}
    {breaker : CircuitBreaker} {next : Admit → Handler}
    (found : before.threads id = some ⟨note, .call (.tryAdmit breaker) next⟩) :
    breakerAccess before (.exec id offer) = some ⟨prefixOf note.request,
      (before.shared.now, .tryAdmit), some (tryAdmit before.shared id breaker).1⟩ := by
  simp only [breakerAccess, found]

private theorem breakerAccess_record {id : Nat} {offer : (op : Op) → Answer op} {note : Note}
    {breaker : CircuitBreaker} {success : Bool} {next : Unit → Handler}
    (found : before.threads id = some ⟨note, .call (.record breaker success) next⟩) :
    breakerAccess before (.exec id offer) =
      some ⟨prefixOf note.request, (before.shared.now, .record success), none⟩ := by
  simp only [breakerAccess, found]

/-- The call on the cell is the breaker's own. -/
theorem tryAdmit_spec (shared : Shared) (id : Nat) (breaker : CircuitBreaker) :
    (tryAdmit shared id breaker).1 =
        (CircuitBreaker.tryAdmit breaker.cfg shared.now (shared.cells breaker.inner)).1 ∧
      (tryAdmit shared id breaker).2.cells = Function.update shared.cells breaker.inner
        (CircuitBreaker.tryAdmit breaker.cfg shared.now (shared.cells breaker.inner)).2 := by
  unfold tryAdmit
  cases answer : CircuitBreaker.tryAdmit breaker.cfg shared.now (shared.cells breaker.inner) with
  | mk admission inner => cases admission <;> simp [answer]

/-- A step that calls no breaker changes none. -/
theorem accesses_none (silent : breakerAccess before event = none)
    (same : after.shared.cells = before.shared.cells) :
    Accesses (applyCall cfg) (breakerOf state) before after (breakerAccess before event) where
  called := by
    intro access called
    rw [silent] at called
    cases called
  others := by
    intro pfx _
    rw [breakerOf_congr same]

/-- A call for one prefix changes the cell of its breaker, and no other prefix has
that cell. -/
theorem accesses_call (separate : Separate state) {pfx : Text} {breaker : CircuitBreaker}
    (guarded : state.breakerFor pfx = some breaker) {call : Nat × BreakerCall}
    {answer : Option Admit} {inner : Inner}
    (seen : breakerAccess before event = some ⟨pfx, call, answer⟩)
    (applied : applyCall cfg call (before.shared.cells breaker.inner) = (answer, inner))
    (written : after.shared.cells = Function.update before.shared.cells breaker.inner inner) :
    Accesses (applyCall cfg) (breakerOf state) before after (breakerAccess before event) where
  called := by
    intro access called
    rw [seen] at called
    obtain rfl := Option.some.inj called
    rw [breakerOf_guarded guarded, breakerOf_guarded guarded, applied, written, Function.update_self]
  others := by
    intro other away
    have different : pfx ≠ other := away _ seen
    unfold breakerOf
    cases known : state.breakerFor other with
    | none => rfl
    | some second =>
        have apart : second.inner ≠ breaker.inner :=
          (separate.away guarded known different).symm
        simp [written, Function.update_of_ne apart]

private theorem accesses_step (wired : Wired state routes cfg) (wellRun : WellRun state before)
    (stepped : step json urls state before event = some after) :
    Accesses (applyCall cfg) (breakerOf state) before after (breakerAccess before event) := by
  have separate : Separate state := separate_new wired.breakers
  rcases step_cases wellRun stepped with ⟨request, rfl, rfl⟩ |
    ⟨id, offer, note, op, next, rfl, found, quiet, rfl⟩ |
    ⟨id, offer, note, breaker, next, rfl, found, fresh, guarded, rfl⟩ |
    ⟨id, offer, note, breaker, success, next, rfl, found, admitted, guarded, rfl⟩ |
    ⟨id, thread, rfl, found, rfl⟩ | ⟨change, rfl, rfl⟩
  · exact accesses_none rfl rfl
  · exact accesses_none (breakerAccess_quiet found quiet) rfl
  · obtain ⟨answered, written⟩ := tryAdmit_spec before.shared id breaker
    apply accesses_call separate guarded (breakerAccess_tryAdmit found) _ written
    rw [answered, wired.breakerFor_cfg guarded]
    rfl
  · apply accesses_call separate guarded (breakerAccess_record found) _ rfl
    rw [wired.breakerFor_cfg guarded]
    rfl
  · exact accesses_none rfl rfl
  · apply accesses_none rfl
    cases change <;> rfl

/-- Two runs of one gateway in which a prefix sees the same calls at the same
moments answer them alike and leave its breaker alike, whatever the other prefixes
do in either; and every prefix with a backend has a breaker that no other prefix
has. -/
theorem breakers_fail_independently (json : Json.Codec) (urls : UrlCrate)
    (state : ProxyState scheme) (routes : List Route) (cfg : BreakerConfig)
    (wired : Wired state routes cfg) :
    (∀ (pfx : Text) (start start' : Nat) (events events' : List Event) (final final' : Running),
      run (step json urls state) (init start) events = some final →
      run (step json urls state) (init start') events' = some final' →
      (breakerHistory json urls state (init start) events pfx).map Prod.fst =
        (breakerHistory json urls state (init start') events' pfx).map Prod.fst →
      breakerHistory json urls state (init start) events pfx =
          breakerHistory json urls state (init start') events' pfx ∧
        breakerOf state final pfx = breakerOf state final' pfx) ∧
    (∀ pfx backend, state.backendFor pfx = some backend →
      ∃ breaker, state.breakerFor pfx = some breaker ∧
        ∀ other second, state.breakerFor other = some second →
          second.inner = breaker.inner → other = pfx) := by
  constructor
  · intro pfx start start' events events' final final' ran ran' same
    have replayed : ∀ {start events final},
        run (step json urls state) (init start) events = some final →
        breakerHistory json urls state (init start) events pfx =
          replies (applyCall cfg) (breakerOf state (init start) pfx)
            ((breakerHistory json urls state (init start) events pfx).map Prod.fst) ∧
        breakerOf state final pfx = settle (applyCall cfg) (breakerOf state (init start) pfx)
            ((breakerHistory json urls state (init start) events pfx).map Prod.fst) :=
      fun {start} _ _ ran => history_eq_replay wellRun_step (accesses_step wired) (wellRun_init start)
        ran pfx
    have initially : breakerOf state (init start) pfx = breakerOf state (init start') pfx :=
      congrFun (breakerOf_congr rfl) pfx
    obtain ⟨answers, content⟩ := replayed ran
    obtain ⟨answers', content'⟩ := replayed ran'
    constructor
    · rw [answers, answers', same, initially]
    · rw [content, content', same, initially]
  · intro pfx backend known
    obtain ⟨breaker, guarded⟩ := wired.guarded known
    refine ⟨breaker, guarded, ?_⟩
    intro other second guardedOther shared
    exact separate_new wired.breakers other pfx second breaker guardedOther guarded shared

end

/-! ### Two prefixes with one backend -/

def pairRoutes : List Route :=
  [⟨"crm".toList, "http://app:8000".toList⟩, ⟨"hrm".toList, "http://app:8000".toList⟩]

def pairState : ProxyState checksumScheme :=
  (ProxyState.new pairRoutes).withBreakers (Breakers.new pairRoutes crmBreaker.cfg) 30

def hrmRequest : Request := { crmRequest with path := "/hrm".toList }

def crmAlone : List Event := [.spawn crmRequest, .exec 0 (offers fun _ => .unanswered)]

/-- The same request after one to `hrm` has opened that prefix's breaker. -/
def crmAfterHrm : List Event :=
  [.spawn hrmRequest, .exec 0 (offers fun _ => .unanswered), .exec 0 (offers fun _ => .unanswered),
    .exec 0 (offers fun _ => .unanswered), .exec 0 (offers fun _ => .unanswered),
    .spawn crmRequest, .exec 1 (offers fun _ => .unanswered)]

theorem breakers_fail_independently_on_shared_backend :
    ∃ alone after : Running,
      run (step Json.Text.flatCodec plainUrls pairState) (init 0) crmAlone = some alone ∧
        run (step Json.Text.flatCodec plainUrls pairState) (init 0) crmAfterHrm = some after ∧
        (breakerOf pairState after "hrm".toList).state = .opened ∧
        breakerOf pairState alone "crm".toList = breakerOf pairState after "crm".toList := by
  refine ⟨_, _, rfl, rfl, rfl, ?_⟩
  exact ((breakers_fail_independently Json.Text.flatCodec plainUrls pairState pairRoutes
    crmBreaker.cfg ⟨rfl, rfl⟩).1 "crm".toList 0 0 crmAlone crmAfterHrm _ _ rfl rfl rfl).2

end Ratewall.Gateway
