import Ratewall.Gateway.Run
import Ratewall.Router.Exchange

/-! Owns the question whether a half-open breaker has its probe in flight. A
half-open breaker has no timeout, so the only way out is a record of an admitted
request. It holds in every run whose probes can buffer their bodies and are not
disconnected; a probe that cannot, returns without a record and leaves the
breaker half open for good. -/

namespace Ratewall.Gateway

open Ratewall.Rust
open Ratewall.Foundation
open Ratewall.Foundation.Program
open Ratewall.Config
open Ratewall.Circuit
open Ratewall.Http
open Ratewall.Auth
open Ratewall.Router

section

variable {json : Json.Codec} {urls : UrlCrate} {scheme : Ed25519} {state : ProxyState scheme}
  {before after : Running} {event : Event}

/-- Some request to the prefix was answered `Call` and has not returned. -/
def HasAdmitted (gateway : Running) (pfx : Text) : Prop :=
  ∃ id note op next, gateway.threads id = some ⟨note, .call op next⟩ ∧
    prefixOf note.request = pfx ∧ (note.phase = .admitted ∨ note.phase = .recorded)

/-- No request to the prefix is on its way. -/
def Idle (gateway : Running) (pfx : Text) : Prop :=
  ∀ id note op next, gateway.threads id = some ⟨note, .call op next⟩ → prefixOf note.request ≠ pfx

/-- A half-open breaker has an admitted request in flight, so that an idle one is
closed or open. -/
def ProbeInFlight (state : ProxyState scheme) (gateway : Running) : Prop :=
  ∀ pfx breaker, state.breakerFor pfx = some breaker →
    ((gateway.shared.cells breaker.inner).state = .halfOpen → HasAdmitted gateway pfx) ∧
      (Idle gateway pfx → (gateway.shared.cells breaker.inner).state = .closed ∨
        (gateway.shared.cells breaker.inner).state = .opened)

/-- The step does not lose a probe: a request that becomes one can buffer its body,
and a client that disconnects does not take the unrecorded probe of a half-open
breaker with it. -/
def KeepsProbe (state : ProxyState scheme) (gateway : Running) : Event → Prop
  | .exec id _ => ∀ note breaker next,
      gateway.threads id = some ⟨note, .call (.tryAdmit breaker) next⟩ →
      (gateway.shared.cells breaker.inner).state = .opened →
      CircuitBreaker.waited breaker.cfg gateway.shared.now (gateway.shared.cells breaker.inner) =
        true → Buffers note.request
  | .drop id => ∀ thread breaker, gateway.threads id = some thread →
      state.breakerFor (prefixOf thread.note.request) = some breaker →
      (gateway.shared.cells breaker.inner).state = .halfOpen →
      gateway.shared.probe breaker.inner = some id → thread.note.phase ≠ .admitted
  | _ => True

/-- The request that took the breaker of the prefix to `HalfOpen`, certain to
record. -/
structure Probe (gateway : Running) (pfx : Text) (cell : Cell) (id : Nat) (note : Note)
    (handler : Handler) : Prop where
  current : gateway.shared.probe cell = some id
  found : gateway.threads id = some ⟨note, handler⟩
  routed : prefixOf note.request = pfx
  admitted : note.phase = .admitted
  settles : Inevitable IsRecord handler

structure Probed (state : ProxyState scheme) (gateway : Running) : Prop where
  wellRun : WellRun state gateway
  probe : ∀ pfx breaker, state.breakerFor pfx = some breaker →
    (gateway.shared.cells breaker.inner).state = .halfOpen →
      ∃ id note handler, Probe gateway pfx breaker.inner id note handler

/-- Breakers of different prefixes sit in different cells. -/
def Separate (state : ProxyState scheme) : Prop :=
  ∀ left right first second, state.breakerFor left = some first →
    state.breakerFor right = some second → first.inner = second.inner → left = right

/-- Each route has a breaker of its own. -/
theorem separate_new {routes : List Route} {cfg : BreakerConfig}
    (wired : state.breakers = some (Breakers.new routes cfg)) : Separate state := by
  intro left right first second foundLeft foundRight same
  unfold ProxyState.breakerFor at foundLeft foundRight
  rw [wired] at foundLeft foundRight
  exact Breakers.pfx_eq_of_cell_eq foundLeft foundRight same

/-- So two prefixes never share a cell. -/
theorem Separate.away (separate : Separate state) {left right : Text}
    {first second : CircuitBreaker} (foundLeft : state.breakerFor left = some first)
    (foundRight : state.breakerFor right = some second) (different : left ≠ right) :
    first.inner ≠ second.inner := by
  intro same
  exact different (separate left right first second foundLeft foundRight same)

theorem Probe.inFlight {gateway : Running} {pfx : Text} {cell : Cell} {id : Nat} {note : Note}
    {handler : Handler} (probe : Probe gateway pfx cell id note handler) :
    HasAdmitted gateway pfx := by
  obtain ⟨-, found, routed, admitted, settles⟩ := probe
  cases handler with
  | done response => cases settles
  | call op next => exact ⟨id, note, op, next, found, routed, Or.inl admitted⟩

/-- A half-open breaker has its probe in flight. -/
theorem Probed.inFlight {gateway : Running} (probed : Probed state gateway) :
    ProbeInFlight state gateway := by
  intro pfx breaker guarded
  have half : (gateway.shared.cells breaker.inner).state = .halfOpen → HasAdmitted gateway pfx := by
    intro half
    obtain ⟨id, note, handler, probe⟩ := probed.probe pfx breaker guarded half
    exact probe.inFlight
  refine ⟨half, ?_⟩
  intro idle
  cases phase : (gateway.shared.cells breaker.inner).state with
  | closed => exact Or.inl rfl
  | opened => exact Or.inr rfl
  | halfOpen =>
      obtain ⟨id, note, op, next, found, routed, -⟩ := half phase
      exact absurd routed (idle id note op next found)

/-- A probe that the step does not touch stays the probe. -/
theorem Probe.untouched {pfx : Text} {cell : Cell} {id : Nat} {note : Note} {handler : Handler}
    (probe : Probe before pfx cell id note handler)
    (kept : after.shared.probe cell = before.shared.probe cell)
    (same : after.threads id = before.threads id) : Probe after pfx cell id note handler where
  current := kept.trans probe.current
  found := same.trans probe.found
  routed := probe.routed
  admitted := probe.admitted
  settles := probe.settles

private theorem probe_quiet {pfx : Text} {breaker : CircuitBreaker} {id : Nat} {note : Note}
    {op : Op} {next : Answer op → Handler} {answer : Answer op}
    (found : before.threads id = some ⟨note, .call op next⟩) (quiet : Quiet op)
    (old : ∃ id note handler, Probe before pfx breaker.inner id note handler) :
    ∃ id' note' handler, Probe
      { before with threads := Function.update before.threads id (some ⟨note, next answer⟩) }
      pfx breaker.inner id' note' handler := by
  obtain ⟨probeId, probeNote, handler, probe⟩ := old
  by_cases same : probeId = id
  · subst same
    obtain ⟨sameNote, sameHandler⟩ := Pool.same_thread found probe.found
    have settles := probe.settles
    rw [← sameHandler] at settles
    refine ⟨probeId, note, next answer, probe.current, Function.update_self .., ?_, ?_, ?_⟩
    · rw [sameNote]
      exact probe.routed
    · rw [sameNote]
      exact probe.admitted
    · rcases settles with record | later
      · exact absurd record quiet.not_isRecord
      · exact later answer
  · exact ⟨probeId, probeNote, handler, probe.untouched rfl (Function.update_of_ne same ..)⟩

private theorem probe_tryAdmit (separate : Separate state) {id : Nat} {note : Note}
    {asked : CircuitBreaker} {next : Admit → Handler} (probed : Probed state before)
    (found : before.threads id = some ⟨note, .call (.tryAdmit asked) next⟩)
    (fresh : note.phase = .fresh) (guarded : state.breakerFor (prefixOf note.request) = some asked)
    (buffers : (before.shared.cells asked.inner).state = .opened →
      CircuitBreaker.waited asked.cfg before.shared.now (before.shared.cells asked.inner) = true →
        Buffers note.request)
    {pfx : Text} {breaker : CircuitBreaker} (known : state.breakerFor pfx = some breaker)
    (half : ((tryAdmit before.shared id asked).2.cells breaker.inner).state = .halfOpen) :
    ∃ id' note' handler, Probe
      { before with
        shared := (tryAdmit before.shared id asked).2
        threads := Function.update before.threads id (some
          ⟨{ note with
              phase := note.phase.after (.tryAdmit asked) (tryAdmit before.shared id asked).1 },
            next (tryAdmit before.shared id asked).1⟩) }
      pfx breaker.inner id' note' handler := by
  have others : ∀ probeId probeNote handler,
      Probe before pfx breaker.inner probeId probeNote handler → probeId ≠ id := by
    rintro probeId probeNote handler probe rfl
    have admitted := probe.admitted
    rw [← (Pool.same_thread found probe.found).1, fresh] at admitted
    cases admitted
  rcases tryAdmit_cases before.shared id asked with ⟨closed, result⟩ | ⟨opened, due, result⟩ |
    ⟨_, result⟩
  · rw [result] at half ⊢
    obtain ⟨probeId, probeNote, handler, probe⟩ := probed.probe pfx breaker known half
    exact ⟨probeId, probeNote, handler, probe.untouched rfl
      (Function.update_of_ne (others _ _ _ probe) ..)⟩
  · rw [result] at half ⊢
    by_cases same : breaker.inner = asked.inner
    · have samePrefix : pfx = prefixOf note.request := separate _ _ _ _ known guarded same
      have sound := probed.wellRun.sound id _ found
      refine ⟨id, { note with phase := .admitted }, next .call, ?_, Function.update_self ..,
        samePrefix.symm, rfl, ?_⟩
      · show Function.update before.shared.probe asked.inner (some id) breaker.inner = some id
        rw [same, Function.update_self]
      · exact (sound.2 .call).here.settles rfl (buffers opened due)
    · have kept : Function.update before.shared.cells asked.inner
          { before.shared.cells asked.inner with state := .halfOpen } breaker.inner =
            before.shared.cells breaker.inner := Function.update_of_ne same ..
      have halfBefore : (before.shared.cells breaker.inner).state = .halfOpen := by
        rw [← kept]
        exact half
      obtain ⟨probeId, probeNote, handler, probe⟩ := probed.probe pfx breaker known halfBefore
      exact ⟨probeId, probeNote, handler, probe.untouched (Function.update_of_ne same ..)
        (Function.update_of_ne (others _ _ _ probe) ..)⟩
  · rw [result] at half ⊢
    obtain ⟨probeId, probeNote, handler, probe⟩ := probed.probe pfx breaker known half
    exact ⟨probeId, probeNote, handler, probe.untouched rfl
      (Function.update_of_ne (others _ _ _ probe) ..)⟩

private theorem probe_record {id : Nat} {note : Note} {told : CircuitBreaker} {success : Bool}
    {next : Unit → Handler} (probed : Probed state before)
    (found : before.threads id = some ⟨note, .call (.record told success) next⟩)
    (guarded : state.breakerFor (prefixOf note.request) = some told)
    {pfx : Text} {breaker : CircuitBreaker} (known : state.breakerFor pfx = some breaker)
    (half : ((record before.shared id told success).cells breaker.inner).state = .halfOpen) :
    ∃ id' note' handler, Probe
      { before with
        shared := record before.shared id told success
        threads := Function.update before.threads id
          (some ⟨{ note with phase := .recorded }, next ()⟩) }
      pfx breaker.inner id' note' handler := by
  by_cases same : breaker.inner = told.inner
  · have stays : (CircuitBreaker.record told.cfg before.shared.now success
        (before.shared.cells told.inner)).state = .halfOpen := by
      have updated := half
      simp only [record, same, Function.update_self] at updated
      exact updated
    exact absurd stays (CircuitBreaker.record_not_halfOpen _ _ _ _)
  · have kept : (record before.shared id told success).cells breaker.inner =
        before.shared.cells breaker.inner := Function.update_of_ne same ..
    rw [kept] at half
    obtain ⟨probeId, probeNote, handler, probe⟩ := probed.probe pfx breaker known half
    have different : probeId ≠ id := by
      rintro rfl
      have routed := probe.routed
      rw [← (Pool.same_thread found probe.found).1] at routed
      rw [routed, known] at guarded
      exact same (congrArg CircuitBreaker.inner (Option.some.inj guarded))
    exact ⟨probeId, probeNote, handler, probe.untouched rfl (Function.update_of_ne different ..)⟩

private theorem probed_step (separate : Separate state) (probed : Probed state before)
    (keeps : KeepsProbe state before event)
    (stepped : step json urls state before event = some after) : Probed state after := by
  refine ⟨wellRun_step probed.wellRun stepped, ?_⟩
  intro pfx breaker known half
  rcases step_cases probed.wellRun stepped with ⟨request, rfl, rfl⟩ |
    ⟨id, offer, note, op, next, rfl, found, quiet, rfl⟩ |
    ⟨id, offer, note, asked, next, rfl, found, fresh, guarded, rfl⟩ |
    ⟨id, offer, note, told, success, next, rfl, found, -, guarded, rfl⟩ |
    ⟨id, thread, rfl, found, rfl⟩ | ⟨change, rfl, rfl⟩
  · obtain ⟨id, note, handler, probe⟩ := probed.probe pfx breaker known half
    have different : id ≠ before.nextId := by
      rintro rfl
      have absent := probed.wellRun.fresh before.nextId le_rfl
      rw [probe.found] at absent
      cases absent
    exact ⟨id, note, handler, probe.untouched rfl (Function.update_of_ne different ..)⟩
  · exact probe_quiet found quiet (probed.probe pfx breaker known half)
  · exact probe_tryAdmit separate probed found fresh guarded (keeps note asked next found) known half
  · exact probe_record probed found guarded known half
  · obtain ⟨probeId, note, handler, probe⟩ := probed.probe pfx breaker known half
    have different : probeId ≠ id := by
      rintro rfl
      have here := probe.found
      rw [found] at here
      obtain rfl := Option.some.inj here
      have guarded : state.breakerFor (prefixOf note.request) = some breaker := by
        rw [probe.routed]
        exact known
      exact keeps _ breaker found guarded half probe.current probe.admitted
    exact ⟨probeId, note, handler, probe.untouched rfl (Function.update_of_ne different ..)⟩
  · have kept : (ambient before.shared change).cells = before.shared.cells ∧
        (ambient before.shared change).probe = before.shared.probe := by
      cases change <;> exact ⟨rfl, rfl⟩
    rw [show (ambient before.shared change).cells = before.shared.cells from kept.1] at half
    obtain ⟨id, note, handler, probe⟩ := probed.probe pfx breaker known half
    exact ⟨id, note, handler, probe.untouched (congrFun kept.2 _) rfl⟩

/-- In every run that loses no probe, a half-open breaker has its probe in flight
in every state that is reached. -/
theorem half_open_has_probe (json : Json.Codec) (urls : UrlCrate) (state : ProxyState scheme)
    (routes : List Route) (cfg : BreakerConfig)
    (wired : state.breakers = some (Breakers.new routes cfg)) (start : Nat) (events : List Event)
    (keeps : Meets (step json urls state) (KeepsProbe state) (init start) events)
    (gateway : Running) (ran : run (step json urls state) (init start) events = some gateway) :
    ProbeInFlight state gateway := by
  have initially : Probed state (init start) := by
    refine ⟨wellRun_init start, ?_⟩
    intro pfx breaker _ half
    cases half
  have probed : Probed state gateway :=
    run_invariant_of_meets
      (fun holds keeps stepped => probed_step (separate_new wired) holds keeps stepped)
      initially keeps ran
  exact probed.inFlight

end

/-! ### Runs in which all bodies arrive -/

/-- Requests come with bodies that can be buffered, and no client disconnects. -/
def Buffered : Event → Prop
  | .spawn request => Buffers request
  | .drop _ => False
  | _ => True

private theorem keepsProbe_of_buffered {json : Json.Codec} {urls : UrlCrate} {scheme : Ed25519}
    {state : ProxyState scheme} {start : Nat} {events : List Event}
    (buffered : ∀ event ∈ events, Buffered event) :
    Meets (step json urls state) (KeepsProbe state) (init start) events := by
  have meets : Meets (step json urls state) (fun _ event => Buffered event) (init start) events :=
    meets_of_forall buffered (init start)
  apply @meets_of_invariant _ _ _ _ (Pool.Threads fun note _ => Buffers note.request) _ _ _ _ _
    (Pool.threads_init _ _) meets
  · intro before event after holds buffered stepped
    apply Pool.threads_step _ _ holds stepped
    · rintro request rfl
      exact buffered
    · intro note op next buffers answer
      exact buffers
  · intro before event holds buffered
    cases event with
    | exec id offer =>
        intro note breaker next found _ _
        exact holds id _ found
    | drop id => cases buffered
    | _ => exact trivial

/-- What the surroundings answer when every exchange takes the given course. -/
def offers (hops : Nat → Hop) : (op : Op) → Answer op
  | .unixNow => 0
  | .decide _ _ => .opened
  | .tryAdmit _ => .call
  | .instantNow => 0
  | .send _ => hops
  | .incRateLimited _ => ()
  | .incCircuitOpen _ => ()
  | .collect _ => ()
  | .record _ _ => ()
  | .readBody => ()
  | .finish _ _ => ()

/-- One request whose backend does not answer, from the breaker to the record, and
then the wait for the cooldown. -/
def tripped : List Event :=
  [.spawn crmRequest, .exec 0 (offers fun _ => .unanswered), .exec 0 (offers fun _ => .unanswered),
    .exec 0 (offers fun _ => .unanswered), .exec 0 (offers fun _ => .unanswered),
    .ambient (.tick 30000000000)]

theorem buffers_crmRequest : Buffers crmRequest := ⟨[], rfl⟩

/-- A breaker that was tripped, a cooldown later, with the second request under way. -/
theorem half_open_has_probe_on_second_request :
    ∃ gateway, run (step Json.Text.flatCodec plainUrls crmState) (init 0)
        (tripped ++ [.spawn crmRequest, .exec 1 (offers fun _ => .unanswered)]) = some gateway ∧
      (gateway.shared.cells crmBreaker.inner).state = .halfOpen ∧
      ProbeInFlight crmState gateway := by
  refine ⟨_, rfl, rfl, ?_⟩
  apply half_open_has_probe Json.Text.flatCodec plainUrls crmState crmRoutes crmBreaker.cfg rfl 0
    (tripped ++ [.spawn crmRequest, .exec 1 (offers fun _ => .unanswered)])
  · apply keepsProbe_of_buffered
    simp [tripped, Buffered, buffers_crmRequest]
  · rfl

/-- The body of the request is cut off by its client. -/
def cutRequest : Request := { crmRequest with method := .post, body := ⟨[], some "reset".toList⟩ }

/-- The second request is admitted as the probe, cannot buffer its body and is
answered 400. No request is left, and the breaker stays half open. -/
theorem cut_probe_leaves_half_open :
    ¬ ∀ (json : Json.Codec) (urls : UrlCrate) (scheme : Ed25519) (state : ProxyState scheme)
      (routes : List Route) (cfg : BreakerConfig),
      state.breakers = some (Breakers.new routes cfg) →
      ∀ (start : Nat) (events : List Event) (gateway : Running),
        run (step json urls state) (init start) events = some gateway →
          ProbeInFlight state gateway := by
  intro always
  have claimed := always Json.Text.flatCodec plainUrls checksumScheme crmState crmRoutes
    crmBreaker.cfg rfl 0 (tripped ++ [.spawn cutRequest, .exec 1 (offers fun _ => .unanswered),
      .exec 1 (offers fun _ => .unanswered)]) _ rfl
  obtain ⟨id, note, op, next, found, -⟩ := (claimed "crm".toList crmBreaker rfl).1 rfl
  match id, found with
  | 0, found => cases found
  | 1, found => cases found
  | id + 2, found => cases found

end Ratewall.Gateway
