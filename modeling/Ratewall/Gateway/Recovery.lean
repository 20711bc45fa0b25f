import Ratewall.Gateway.Readiness

/-! Owns how the loop around `readyz` recovers. An open breaker leaves that state
only through a request, and none is delivered while it is open. So the loop
depends on the requests that are already in the gateway: one ahead of its
`try_admit` for an open breaker, and an admitted one that is going to record for
a half-open one. With them, every breaker can be closed. It does not own what
happens without them. -/

namespace Ratewall.Gateway

open Ratewall.Rust
open Ratewall.Foundation
open Ratewall.Foundation.Program
open Ratewall.Config
open Ratewall.Circuit
open Ratewall.Http
open Ratewall.Auth
open Ratewall.Router

section

variable (json : Json.Codec) (urls : UrlCrate) {scheme : Ed25519} (state : ProxyState scheme)

/-- An admitted request to the prefix is on its way, and its body can be buffered. -/
def HasRecorder (gateway : Running) (pfx : Text) : Prop :=
  ∃ id note op next, gateway.threads id = some ⟨note, .call op next⟩ ∧
    prefixOf note.request = pfx ∧ note.phase = .admitted ∧ Buffers note.request

/-- A request to the prefix can still reach its `try_admit`. Its own body can be
buffered, or that of an admitted one. -/
def HasAsker (gateway : Running) (pfx : Text) : Prop :=
  ∃ id note handler, gateway.threads id = some ⟨note, handler⟩ ∧ prefixOf note.request = pfx ∧
    note.phase = .fresh ∧ Asks urls (fun _ => True) handler ∧
      (Buffers note.request ∨ HasRecorder gateway pfx)

/-- Some request to the prefix can be authorised, buffered and sent. -/
def Servable (pfx : Text) : Prop :=
  ∃ request, prefixOf request = pfx ∧ Serves urls (proxyFallback urls state json request)

structure Attends (gateway : Running) (pfx : Text) (breaker : CircuitBreaker) : Prop where
  servable : (gateway.shared.cells breaker.inner).state ≠ .closed → Servable json urls state pfx
  recorder : (gateway.shared.cells breaker.inner).state = .halfOpen → HasRecorder gateway pfx
  asker : (gateway.shared.cells breaker.inner).state = .opened → HasAsker urls gateway pfx

/-- The requests in the gateway attend to every breaker that is not closed. -/
def Attended (gateway : Running) : Prop :=
  ∀ pfx breaker, state.breakerFor pfx = some breaker → Attends json urls state gateway pfx breaker

def Phased (property : State → Prop) (gateway : Running) (pfx : Text) : Prop :=
  ∀ breaker, state.breakerFor pfx = some breaker →
    property (gateway.shared.cells breaker.inner).state

/-- Nothing changes for the other prefixes. -/
structure Elsewhere (pfx : Text) (before after : Running) : Prop where
  threads : ∀ id thread, before.threads id = some thread →
    prefixOf thread.note.request ≠ pfx → after.threads id = some thread
  cells : ∀ other breaker, state.breakerFor other = some breaker → other ≠ pfx →
    after.shared.cells breaker.inner = before.shared.cells breaker.inner

/-- A continuation on behalf of one prefix. -/
structure Works (pfx : Text) (before after : Running) : Prop where
  leads : Leads (loop json urls state) (Benign urls) before after
  elsewhere : Elsewhere state pfx before after

end

section

variable {json : Json.Codec} {urls : UrlCrate} {scheme : Ed25519} {state : ProxyState scheme}
  {before middle after gateway : Running} {event : Event} {pfx : Text} {breaker : CircuitBreaker}

theorem Works.trans (first : Works json urls state pfx before middle)
    (second : Works json urls state pfx middle after) : Works json urls state pfx before after where
  leads := first.leads.trans second.leads
  elsewhere := {
    threads := by
      intro id thread found other
      exact second.elsewhere.threads id thread (first.elsewhere.threads id thread found other) other
    cells := by
      intro other breaker known different
      rw [second.elsewhere.cells other breaker known different]
      exact first.elsewhere.cells other breaker known different }

theorem HasRecorder.elsewhere {other : Text} (recorder : HasRecorder before other)
    (elsewhere : Elsewhere state pfx before after) (different : other ≠ pfx) :
    HasRecorder after other := by
  obtain ⟨id, note, op, next, found, routed, admitted, buffers⟩ := recorder
  refine ⟨id, note, op, next, elsewhere.threads id _ found ?_, routed, admitted, buffers⟩
  rw [← routed] at different
  exact different

theorem Attends.elsewhere {other : Text} (attends : Attends json urls state before other breaker)
    (known : state.breakerFor other = some breaker)
    (elsewhere : Elsewhere state pfx before after) (different : other ≠ pfx) :
    Attends json urls state after other breaker := by
  have same := elsewhere.cells other breaker known different
  refine ⟨?_, ?_, ?_⟩
  · rw [same]
    exact attends.servable
  · rw [same]
    intro half
    exact (attends.recorder half).elsewhere elsewhere different
  · rw [same]
    intro isOpen
    obtain ⟨id, note, handler, found, routed, fresh, asks, buffers⟩ := attends.asker isOpen
    refine ⟨id, note, handler, elsewhere.threads id _ found ?_, routed, fresh, asks, ?_⟩
    · rw [← routed] at different
      exact different
    · rcases buffers with own | recorder
      · exact Or.inl own
      · exact Or.inr (recorder.elsewhere elsewhere different)

/-! ### Scheduling for one prefix -/

/-- The requests of the prefix, and its breaker, may change. -/
theorem elsewhere_update {id nextId : Nat} {thread : Thread Op Answer Response Note}
    {shared : Shared}
    (own : ∀ old, before.threads id = some old → prefixOf old.note.request = pfx)
    (cells : ∀ other breaker, state.breakerFor other = some breaker → other ≠ pfx →
      shared.cells breaker.inner = before.shared.cells breaker.inner) :
    Elsewhere state pfx before
      ⟨shared, Function.update before.threads id (some thread), nextId⟩ where
  threads := by
    intro found entry held other
    have different : found ≠ id := by
      rintro rfl
      exact other (own entry held)
    show Function.update before.threads id (some thread) found = some entry
    rw [Function.update_of_ne different]
    exact held
  cells := cells

private theorem own_of_found {id : Nat} {note : Note} {handler : Handler}
    (found : before.threads id = some ⟨note, handler⟩) (routed : prefixOf note.request = pfx)
    (old : Thread Op Answer Response Note) (held : before.threads id = some old) :
    prefixOf old.note.request = pfx := by
  rw [found] at held
  obtain rfl := Option.some.inj held
  exact routed

private theorem works_ambient {change : Change} (benign : Benign urls (.ambient change)) :
    Works json urls state pfx gateway { gateway with shared := ambient gateway.shared change } where
  leads := Leads.single benign rfl
  elsewhere := {
    threads := fun _ _ found _ => found
    cells := by
      intro other breaker _ _
      cases change <;> rfl }

private theorem works_spawn (reached : Reached json urls state gateway)
    (isReady : ready state gateway.shared = true) (request : Request) :
    Works json urls state pfx gateway { gateway with
      threads := Function.update gateway.threads gateway.nextId
        (some ⟨⟨request, .fresh⟩, proxyFallback urls state json request⟩)
      nextId := gateway.nextId + 1 } where
  leads := by
    have benign : Benign urls (.spawn request) := trivial
    exact Leads.single benign (loop_spawn isReady request)
  elsewhere := by
    apply elsewhere_update _ fun _ _ _ _ => rfl
    intro old held
    rw [reached.wellRun.fresh gateway.nextId le_rfl] at held
    cases held

/-- An offer that gives the answer to this call, and behaves on all others. -/
theorem exists_benign_offer {op : Op} {answer : Answer op} (given : Given urls op answer) (id : Nat) :
    ∃ offer : (op : Op) → Answer op, offer op = answer ∧ Benign urls (.exec id offer) := by
  classical
  refine ⟨Function.update (offers answering) op answer, Function.update_self .., ?_⟩
  intro outbound
  by_cases same : Op.send outbound = op
  · subst same
    rw [Function.update_self]
    exact given
  · rw [Function.update_of_ne same]
    exact fun url _ => answers_answering url

private theorem benign_offers (id : Nat) : Benign urls (.exec id (offers answering)) :=
  fun _ url _ => answers_answering url

/-- Scheduling one request alone takes it to any point that it can be led to. -/
theorem leads_of_reaches {goal : Handler → Prop} {id : Nat} {note : Note} {handler : Handler}
    (reaches : Reaches (Given urls) goal handler)
    (found : gateway.threads id = some ⟨note, handler⟩) :
    ∃ there, goal there ∧ Leads (loop json urls state) (Benign urls) gateway { gateway with
      threads := Function.update gateway.threads id (some ⟨note, there⟩) } := by
  induction handler generalizing gateway with
  | done response =>
      refine ⟨.done response, reaches, ?_⟩
      rw [← found, Function.update_eq_self]
      exact Leads.refl gateway
  | call op next inductionHypothesis =>
      rcases reaches with holds | ⟨answer, given, later⟩
      · refine ⟨.call op next, holds, ?_⟩
        rw [← found, Function.update_eq_self]
        exact Leads.refl gateway
      · obtain ⟨offer, offered, benign⟩ := exists_benign_offer given id
        obtain ⟨there, holds, leads⟩ := @inductionHypothesis answer
          { gateway with threads := Function.update gateway.threads id (some ⟨note, next answer⟩) }
          later (Function.update_self ..)
        simp only [Function.update_idem] at leads
        refine ⟨there, holds, (Leads.single benign ?_).trans leads⟩
        show Pool.step (system json urls state) gateway (.exec id offer) = _
        simp only [Pool.step, found, system, act_quiet given.quiet, given.quiet.after, offered]

private theorem works_of_reaches {goal : Handler → Prop} {id : Nat} {note : Note}
    {handler : Handler} (reaches : Reaches (Given urls) goal handler)
    (found : gateway.threads id = some ⟨note, handler⟩) (routed : prefixOf note.request = pfx) :
    ∃ there, goal there ∧ Works json urls state pfx gateway { gateway with
      threads := Function.update gateway.threads id (some ⟨note, there⟩) } := by
  obtain ⟨there, holds, leads⟩ := leads_of_reaches reaches found
  exact ⟨there, holds, leads, elsewhere_update (own_of_found found routed) fun _ _ _ _ => rfl⟩

private theorem works_tryAdmit (separate : Separate state) {id : Nat} {note : Note}
    {next : Admit → Handler} (known : state.breakerFor pfx = some breaker)
    (found : gateway.threads id = some ⟨note, .call (.tryAdmit breaker) next⟩)
    (routed : prefixOf note.request = pfx) :
    Works json urls state pfx gateway { gateway with
      shared := (tryAdmit gateway.shared id breaker).2
      threads := Function.update gateway.threads id (some
        ⟨{ note with
            phase := note.phase.after (.tryAdmit breaker) (tryAdmit gateway.shared id breaker).1 },
          next (tryAdmit gateway.shared id breaker).1⟩) } where
  leads := by
    apply Leads.single (benign_offers id)
    show Pool.step (system json urls state) gateway (.exec id (offers answering)) = _
    simp only [Pool.step, found, system, act]
  elsewhere := by
    apply elsewhere_update (own_of_found found routed)
    intro other foreign knownOther different
    exact congrArg Calls.inner ((touches_tryAdmit gateway.shared id breaker).calls _
      (separate.away knownOther known different))

private theorem works_record (separate : Separate state) {id : Nat} {note : Note} {success : Bool}
    {next : Unit → Handler} (known : state.breakerFor pfx = some breaker)
    (found : gateway.threads id = some ⟨note, .call (.record breaker success) next⟩)
    (routed : prefixOf note.request = pfx) :
    Works json urls state pfx gateway { gateway with
      shared := record gateway.shared id breaker success
      threads := Function.update gateway.threads id
        (some ⟨{ note with phase := .recorded }, next ()⟩) } where
  leads := by
    apply Leads.single (benign_offers id)
    show Pool.step (system json urls state) gateway (.exec id (offers answering)) = _
    simp only [Pool.step, found, system, act, Phase.after]
  elsewhere := by
    apply elsewhere_update (own_of_found found routed)
    intro other foreign knownOther different
    exact congrArg Calls.inner ((touches_record gateway.shared id breaker success).calls _
      (separate.away knownOther known different))

/-! ### The way of one breaker back to closed -/

private theorem threads_placed (gateway : Running) (id : Nat)
    (thread : Thread Op Answer Response Note) :
    Pool.threads { gateway with threads := Function.update gateway.threads id (some thread) } id =
      some thread := Function.update_self ..

/-- After the cooldown, a request ahead of its `try_admit` can be made the probe. -/
theorem becomes_probe_of_waited (separate : Separate state)
    (reached : Reached json urls state gateway) (known : state.breakerFor pfx = some breaker)
    (isOpen : (gateway.shared.cells breaker.inner).state = .opened)
    (due : CircuitBreaker.waited breaker.cfg gateway.shared.now
      (gateway.shared.cells breaker.inner) = true)
    {onward : Handler → Prop} {id : Nat} {note : Note} {handler : Handler}
    (found : gateway.threads id = some ⟨note, handler⟩) (routed : prefixOf note.request = pfx)
    (asks : Asks urls onward handler) :
    ∃ probing rest, Works json urls state pfx gateway probing ∧
      (probing.shared.cells breaker.inner).state = .halfOpen ∧ onward rest ∧
      probing.threads = Function.update gateway.threads id
        (some ⟨{ note with phase := .admitted }, rest⟩) := by
  obtain ⟨there, ⟨asked, next, rfl, goesOn⟩, comes⟩ := works_of_reaches asks found routed
  have arrived := (reached.leads comes.leads).wellRun
  have same : breaker = asked := by
    obtain ⟨-, guarded⟩ :=
      (arrived.sound id _ (threads_placed gateway id _)).here.asksOnce asked next rfl
    rw [routed] at guarded
    exact Option.some.inj (known.symm.trans guarded)
  subst same
  obtain ⟨answered, half⟩ := tryAdmit_probe isOpen due id
  have admits := comes.trans (works_tryAdmit separate known (threads_placed gateway id _) routed)
  refine ⟨_, next .call, admits, half, goesOn, ?_⟩
  simp only [Function.update_idem, answered, Phase.after]

/-- So an open breaker can be probed: wait for the cooldown, then schedule the
request. -/
theorem becomes_probe {routes : List Route} {cfg : BreakerConfig}
    (wired : state.breakers = some (Breakers.new routes cfg))
    (reached : Reached json urls state gateway) (known : state.breakerFor pfx = some breaker)
    (isOpen : (gateway.shared.cells breaker.inner).state = .opened) {onward : Handler → Prop}
    {id : Nat} {note : Note} {handler : Handler}
    (found : gateway.threads id = some ⟨note, handler⟩) (routed : prefixOf note.request = pfx)
    (asks : Asks urls onward handler) :
    ∃ probing rest, Works json urls state pfx gateway probing ∧
      (probing.shared.cells breaker.inner).state = .halfOpen ∧ onward rest ∧
      probing.threads = Function.update gateway.threads id
        (some ⟨{ note with phase := .admitted }, rest⟩) := by
  obtain ⟨opened, since, past⟩ := reached.openedAt wired known isOpen
  have waits : Works json urls state pfx gateway
      { gateway with shared := ambient gateway.shared (.tick breaker.cfg.cooldown.asNanos) } :=
    works_ambient trivial
  have due : CircuitBreaker.waited breaker.cfg
      (gateway.shared.now + breaker.cfg.cooldown.asNanos)
      (gateway.shared.cells breaker.inner) = true := by
    rw [CircuitBreaker.waited_iff]
    refine ⟨opened, since, ?_⟩
    unfold elapsed
    omega
  obtain ⟨probing, rest, works, probed⟩ := becomes_probe_of_waited (separate_new wired)
    (reached.leads waits.leads) known isOpen due found routed asks
  exact ⟨probing, rest, waits.trans works, probed⟩

/-- A request on its way to a record can be taken there. -/
theorem takes_record (separate : Separate state) (reached : Reached json urls state gateway)
    (known : state.breakerFor pfx = some breaker)
    (half : (gateway.shared.cells breaker.inner).state = .halfOpen) {wanted : Bool → Prop}
    {id : Nat} {note : Note} {handler : Handler}
    (found : gateway.threads id = some ⟨note, handler⟩) (routed : prefixOf note.request = pfx)
    (records : Records urls wanted handler) :
    ∃ recorded success thread, Works json urls state pfx gateway recorded ∧ wanted success ∧
      recorded.shared.cells breaker.inner =
        (if success then Inner.fresh else CircuitBreaker.openAt gateway.shared.now) ∧
      recorded.threads = Function.update gateway.threads id (some thread) := by
  obtain ⟨there, ⟨told, success, next, rfl, isWanted⟩, comes⟩ := works_of_reaches records found routed
  have arrived := (reached.leads comes.leads).wellRun
  have same : breaker = told := by
    obtain ⟨-, guarded⟩ :=
      (arrived.sound id _ (threads_placed gateway id _)).here.recordsOnce told success next rfl
    rw [routed] at guarded
    exact Option.some.inj (known.symm.trans guarded)
  subst same
  have tells := comes.trans (works_record separate known (threads_placed gateway id _) routed)
  refine ⟨_, success, _, tells, isWanted, ?_, Function.update_idem ..⟩
  show Function.update gateway.shared.cells breaker.inner _ breaker.inner = _
  rw [Function.update_self]
  exact CircuitBreaker.record_halfOpen half success

/-- A recorder in a reached gateway can still record. -/
theorem HasRecorder.records (recorder : HasRecorder gateway pfx)
    (reached : Reached json urls state gateway) :
    ∃ id note handler, gateway.threads id = some ⟨note, handler⟩ ∧ prefixOf note.request = pfx ∧
      Records urls (fun _ => True) handler := by
  obtain ⟨id, note, op, next, found, routed, admitted, buffers⟩ := recorder
  refine ⟨id, note, .call op next, found, routed, ?_⟩
  have sound : Orderly _ _ note.phase (.call op next) := reached.wellRun.sound id _ found
  rw [admitted] at sound
  exact records_of_inevitable sound (sound.here.settles rfl buffers)

/-- An open breaker with a request ahead of its `try_admit` can be taken to half
open, with a request that is going to record. -/
theorem half_opens {routes : List Route} {cfg : BreakerConfig}
    (wired : state.breakers = some (Breakers.new routes cfg))
    (reached : Reached json urls state gateway) (known : state.breakerFor pfx = some breaker)
    (isOpen : (gateway.shared.cells breaker.inner).state = .opened)
    (asker : HasAsker urls gateway pfx) :
    ∃ probing, Works json urls state pfx gateway probing ∧
      (probing.shared.cells breaker.inner).state = .halfOpen ∧ HasRecorder probing pfx := by
  obtain ⟨id, note, handler, found, routed, fresh, asks, buffers⟩ := asker
  obtain ⟨probing, rest, works, half, -, threads⟩ :=
    becomes_probe wired reached known isOpen found routed asks
  refine ⟨probing, works, half, ?_⟩
  rcases buffers with own | ⟨other, noteOther, op, next, foundOther, routedOther, admitted, buffers⟩
  · have here : probing.threads id = some ⟨{ note with phase := .admitted }, rest⟩ := by
      rw [threads, Function.update_self]
    have settles : Inevitable IsRecord rest :=
      ((reached.leads works.leads).wellRun.sound id _ here).here.settles rfl own
    cases rest with
    | done response => cases settles
    | call op next => exact ⟨id, { note with phase := .admitted }, op, next, here, routed, rfl, own⟩
  · have different : other ≠ id := by
      rintro rfl
      rw [← (Pool.same_thread found foundOther).1, fresh] at admitted
      cases admitted
    refine ⟨other, noteOther, op, next, ?_, routedOther, admitted, buffers⟩
    rw [threads, Function.update_of_ne different]
    exact foundOther

/-- A half-open breaker with a request that is going to record can be closed while
no breaker is open: deliver a second request first, in case the record is one of
a failure. -/
theorem closes {routes : List Route} {cfg : BreakerConfig}
    (wired : state.breakers = some (Breakers.new routes cfg))
    (reached : Reached json urls state gateway) (known : state.breakerFor pfx = some breaker)
    (noneOpen : ∀ pfx breaker, state.breakerFor pfx = some breaker →
      (gateway.shared.cells breaker.inner).state ≠ .opened)
    (half : (gateway.shared.cells breaker.inner).state = .halfOpen)
    (recorder : HasRecorder gateway pfx) (servable : Servable json urls state pfx) :
    ∃ closed, Works json urls state pfx gateway closed ∧
      (closed.shared.cells breaker.inner).state = .closed := by
  obtain ⟨request, routedRequest, serves⟩ := servable
  obtain ⟨id, note, handler, found, routed, records⟩ := recorder.records reached
  have pongs : Works json urls state pfx gateway
      { gateway with shared := ambient gateway.shared (.redis true) } := works_ambient rfl
  have isReady : ready state (ambient gateway.shared (.redis true)) = true :=
    ready_iff.mpr ⟨noneOpen, fun _ _ => rfl⟩
  have spawns := pongs.trans (works_spawn (reached.leads pongs.leads) isReady request)
  have different : id ≠ gateway.nextId := by
    rintro rfl
    rw [reached.wellRun.fresh gateway.nextId le_rfl] at found
    cases found
  obtain ⟨recorded, success, thread, tells, -, cell, threads⟩ := takes_record (separate_new wired)
    (reached.leads spawns.leads) known half
    ((Function.update_of_ne different ..).trans found) routed records
  have works := spawns.trans tells
  cases success with
  | true => exact ⟨recorded, works, by rw [cell]; rfl⟩
  | false =>
      have isOpen : (recorded.shared.cells breaker.inner).state = .opened := by
        rw [cell]
        rfl
      have waiting : recorded.threads gateway.nextId =
          some ⟨⟨request, .fresh⟩, proxyFallback urls state json request⟩ := by
        rw [threads, Function.update_of_ne different.symm]
        exact Function.update_self ..
      obtain ⟨probing, rest, probes, halfAgain, onward, threadsAgain⟩ :=
        becomes_probe wired (reached.leads works.leads) known isOpen waiting routedRequest serves
      have admitted : probing.threads gateway.nextId = some ⟨⟨request, .admitted⟩, rest⟩ := by
        rw [threadsAgain, Function.update_self]
      obtain ⟨closed, success, -, ends, succeeded, cellAgain, -⟩ := takes_record (separate_new wired)
        (reached.leads (works.trans probes).leads) known halfAgain admitted routedRequest onward
      refine ⟨closed, (works.trans probes).trans ends, ?_⟩
      rw [cellAgain, succeeded]
      rfl

/-! ### All breakers -/

/-- Only routes have breakers. -/
theorem mem_of_guarded {routes : List Route} {cfg : BreakerConfig}
    (wired : state.breakers = some (Breakers.new routes cfg))
    (known : state.breakerFor pfx = some breaker) : pfx ∈ routes.map Route.routePrefix := by
  unfold ProxyState.breakerFor at known
  rw [wired] at known
  obtain ⟨-, sits⟩ := Breakers.get_new known
  obtain ⟨route, found, same⟩ := Option.map_eq_some_iff.mp sits
  exact List.mem_map.mpr ⟨route, List.mem_of_getElem? found, same⟩

private theorem Attended.works (attended : Attended json urls state before)
    (works : Works json urls state pfx before after) (known : state.breakerFor pfx = some breaker)
    (attends : Attends json urls state after pfx breaker) : Attended json urls state after := by
  intro other found knownOther
  by_cases same : other = pfx
  · subst same
    obtain rfl := Option.some.inj (known.symm.trans knownOther)
    exact attends
  · exact (attended other found knownOther).elsewhere knownOther works.elsewhere same

private theorem Phased.works {property : State → Prop} {other : Text}
    (phased : Phased state property before other)
    (works : Works json urls state pfx before after) (known : state.breakerFor pfx = some breaker)
    (holds : property (after.shared.cells breaker.inner).state) :
    Phased state property after other := by
  intro found knownOther
  by_cases same : other = pfx
  · subst same
    obtain rfl := Option.some.inj (known.symm.trans knownOther)
    exact holds
  · rw [works.elsewhere.cells other found knownOther same]
    exact phased found knownOther

private theorem phased_of_known {property : State → Prop}
    (known : state.breakerFor pfx = some breaker)
    (holds : property (gateway.shared.cells breaker.inner).state) :
    Phased state property gateway pfx := by
  intro found knownAgain
  obtain rfl := Option.some.inj (known.symm.trans knownAgain)
  exact holds

/-- No breaker has to stay open. -/
theorem half_opens_all {routes : List Route} {cfg : BreakerConfig}
    (wired : state.breakers = some (Breakers.new routes cfg))
    (reached : Reached json urls state gateway) (attended : Attended json urls state gateway) :
    ∃ after, Leads (loop json urls state) (Benign urls) gateway after ∧
      Attended json urls state after ∧ ∀ pfx, Phased state (· ≠ .opened) after pfx := by
  have settle : ∀ (gateway : Running) (pfx : Text),
      Reached json urls state gateway ∧ Attended json urls state gateway →
      ∃ after, Leads (loop json urls state) (Benign urls) gateway after ∧
        (Reached json urls state after ∧ Attended json urls state after) ∧
        Phased state (· ≠ .opened) after pfx ∧
        ∀ other, Phased state (· ≠ .opened) gateway other →
          Phased state (· ≠ .opened) after other := by
    rintro gateway pfx ⟨reached, attended⟩
    by_cases opened : ∃ breaker, state.breakerFor pfx = some breaker ∧
      (gateway.shared.cells breaker.inner).state = .opened
    · obtain ⟨breaker, known, isOpen⟩ := opened
      have attends := attended pfx breaker known
      obtain ⟨probing, works, half, recorder⟩ :=
        half_opens wired reached known isOpen (attends.asker isOpen)
      have notOpen : (probing.shared.cells breaker.inner).state ≠ .opened := by simp [half]
      refine ⟨probing, works.leads, ⟨reached.leads works.leads, ?_⟩, phased_of_known known notOpen,
        fun other phased => phased.works works known notOpen⟩
      apply attended.works works known
      refine ⟨fun _ => attends.servable (by simp [isOpen]), fun _ => recorder, ?_⟩
      intro stillOpen
      exact absurd stillOpen notOpen
    · refine ⟨gateway, Leads.refl gateway, ⟨reached, attended⟩, ?_, fun _ phased => phased⟩
      intro breaker known isOpen
      exact opened ⟨breaker, known, isOpen⟩
  obtain ⟨after, leads, ⟨-, attendedAfter⟩, settled, -⟩ :=
    Leads.sweep settle (routes.map Route.routePrefix) ⟨reached, attended⟩
  refine ⟨after, leads, attendedAfter, ?_⟩
  intro pfx breaker known
  exact settled pfx (mem_of_guarded wired known) breaker known

/-- And then every breaker can be closed. -/
theorem closes_all {routes : List Route} {cfg : BreakerConfig}
    (wired : state.breakers = some (Breakers.new routes cfg))
    (reached : Reached json urls state gateway) (attended : Attended json urls state gateway)
    (noneOpen : ∀ pfx, Phased state (· ≠ .opened) gateway pfx) :
    Recoverable json urls state gateway := by
  have settle : ∀ (gateway : Running) (pfx : Text),
      Reached json urls state gateway ∧ Attended json urls state gateway ∧
        (∀ pfx, Phased state (· ≠ .opened) gateway pfx) →
      ∃ after, Leads (loop json urls state) (Benign urls) gateway after ∧
        (Reached json urls state after ∧ Attended json urls state after ∧
          ∀ pfx, Phased state (· ≠ .opened) after pfx) ∧
        Phased state (· = .closed) after pfx ∧
        ∀ other, Phased state (· = .closed) gateway other →
          Phased state (· = .closed) after other := by
    rintro gateway pfx ⟨reached, attended, noneOpen⟩
    by_cases halfOpen : ∃ breaker, state.breakerFor pfx = some breaker ∧
      (gateway.shared.cells breaker.inner).state = .halfOpen
    · obtain ⟨breaker, known, half⟩ := halfOpen
      have attends := attended pfx breaker known
      obtain ⟨after, works, isClosed⟩ := closes wired reached known noneOpen half
        (attends.recorder half) (attends.servable (by simp [half]))
      refine ⟨after, works.leads, ⟨reached.leads works.leads, ?_, ?_⟩,
        phased_of_known known isClosed, fun other phased => phased.works works known isClosed⟩
      · apply attended.works works known
        refine ⟨?_, ?_, ?_⟩ <;> simp [isClosed]
      · intro other
        exact (noneOpen other).works works known (by simp [isClosed])
    · refine ⟨gateway, Leads.refl gateway, ⟨reached, attended, noneOpen⟩, ?_, fun _ phased => phased⟩
      intro breaker known
      cases phase : (gateway.shared.cells breaker.inner).state with
      | closed => rfl
      | opened => exact absurd phase (noneOpen pfx breaker known)
      | halfOpen => exact absurd ⟨breaker, known, phase⟩ halfOpen
  obtain ⟨after, leads, -, settled, -⟩ :=
    Leads.sweep settle (routes.map Route.routePrefix) ⟨reached, attended, noneOpen⟩
  refine ⟨after, leads, ?_⟩
  intro pfx breaker known
  exact settled pfx (mem_of_guarded wired known) breaker known

/-- A reached gateway with all breakers attended can become ready again. -/
theorem recoverable_of_attended {routes : List Route} {cfg : BreakerConfig}
    (wired : state.breakers = some (Breakers.new routes cfg))
    (reached : Reached json urls state gateway) (attended : Attended json urls state gateway) :
    Recoverable json urls state gateway := by
  obtain ⟨middle, leads, attendedMiddle, noneOpen⟩ := half_opens_all wired reached attended
  obtain ⟨recovered, rest, allClosed⟩ :=
    closes_all wired (reached.leads leads) attendedMiddle noneOpen
  exact ⟨recovered, leads.trans rest, allClosed⟩

end

end Ratewall.Gateway
