import Ratewall.Gateway.Fleet
import Ratewall.Gateway.Labels

/-! Owns what a fleet lets through. A request is sent on only after the gate has verified
its token and the limiter has let it pass; and whatever the replicas do, and however
their calls interleave, the exchanges that Redis counted for one subject in one window
are at most the limit. Exchanges that Redis could not count are not bounded. -/

namespace Ratewall.Gateway

open Ratewall.Rust
open Ratewall.Foundation
open Ratewall.Foundation.Program
open Ratewall.Config
open Ratewall.Circuit
open Ratewall.Http
open Ratewall.Auth
open Ratewall.RateLimit
open Ratewall.Metrics
open Ratewall.Router

/-- Neither the gate's nor the limiter's call, nor the exchange. -/
def Incidental : Op → Prop
  | .unixNow => False
  | .decide _ _ => False
  | .send _ => False
  | _ => True

section

variable {pfx : Text} {scheme : Ed25519} {state : ProxyState scheme}

private theorem incidental_ask (op : Op) (incidental : Incidental op) : All Incidental (ask op) :=
  ⟨incidental, fun _ => trivial⟩

private theorem incidental_finishTimer (timer : Option RequestTimer) (statusClass : Text) :
    All Incidental (finishTimer timer statusClass) := by
  cases timer with
  | none => exact trivial
  | some timer => exact incidental_ask (.finish timer statusClass) trivial

private theorem incidental_recordOutcome (breaker : Option CircuitBreaker) (success : Bool) :
    All Incidental (recordOutcome breaker success) := by
  cases breaker with
  | none => exact trivial
  | some breaker => exact incidental_ask (.record breaker success) trivial

private theorem incidental_countRateLimited : All Incidental (countRateLimited state pfx) := by
  unfold countRateLimited
  split
  next => exact incidental_ask _ trivial
  next => exact trivial

private theorem incidental_countCircuitOpen : All Incidental (countCircuitOpen state pfx) := by
  unfold countCircuitOpen
  split
  next => exact incidental_ask _ trivial
  next => exact trivial

private theorem incidental_startTimer : All Incidental (startTimer state pfx) := by
  unfold startTimer
  split
  next => exact ⟨trivial, fun _ => trivial⟩
  next => exact trivial

private theorem incidental_conclude (breaker : Option CircuitBreaker) (timer : Option RequestTimer)
    (sent : Except SendError WireResponse) : All Incidental (conclude pfx breaker timer sent) := by
  cases sent with
  | error err =>
      apply All.bind (incidental_recordOutcome breaker false)
      intro _
      apply All.bind (incidental_finishTimer timer _)
      intro _
      exact trivial
  | ok response =>
      apply All.bind (incidental_recordOutcome breaker true)
      intro _
      apply All.bind (incidental_ask .readBody trivial)
      intro _
      apply All.bind (incidental_finishTimer timer _)
      intro _
      split
      next => exact trivial
      next => exact trivial

end

/-! ### One request -/

section

variable {ρ : Type}

/-- The limiter has let the request of a verified subject pass. -/
def Journey.Cleared (journey : Journey ρ) : Prop :=
  journey.subject.isSome = true ∧
    (journey.decision = some .allow ∨ journey.decision = some .opened)

/-- Whom the limiter turned away, the gateway tells to wait as long as it was told. -/
def Journey.Answered (journey : Journey ρ) (response : Response) : Prop :=
  ∀ retryAfter, journey.decision = some (.limit retryAfter) → response = rateLimited retryAfter

theorem Journey.Cleared.answered {journey : Journey ρ} (cleared : journey.Cleared)
    (response : Response) : journey.Answered response := by
  intro retryAfter refused
  rcases cleared.2 with allowed | opened
  · simp [allowed] at refused
  · simp [opened] at refused

/-- The order in which a request is told things, and under which key it is counted. -/
def Journey.Fits (limiter : RateLimiter) : Journey ρ → ρ × Action → Prop
  | journey, (_, .handler .unixNow) => journey.decision = none
  | journey, (_, .handler (.send _)) => journey.Cleared ∧ journey.sent = false
  | journey, (_, .redis .systemTime) => journey.decision = none
  | journey, (_, .redis .connect) => journey.decision = none
  | journey, (_, .redis (.transact key secs)) =>
      journey.decision = none ∧ secs = limiter.windowSecs ∧
        ∃ window, journey.window = some window ∧
          key = limiter.windowKey (limitKey journey.subject "unkeyed".toList) window
  | _, _ => True

variable (json : Json.Codec) (urls : UrlCrate) {scheme : Ed25519} (limiter : RateLimiter)
  (replicas : ρ → Replica scheme)

abbrev Proceeds {α : Type} (ends : Journey ρ → α → Prop) :
    Journey ρ → Program (ρ × Action) FleetOutcome α → Prop :=
  Conforms (Journey.observe json limiter replicas) (Journey.Fits limiter) ends

/-- A request of the fleet is where its journey says, and ends with the answer that it
calls for. -/
def OnJourney (journey : Journey ρ) (program : Program (ρ × Action) FleetOutcome Response) :
    Prop :=
  Proceeds json limiter replicas Journey.Answered journey program

variable {json urls limiter replicas} {journey : Journey ρ} {replica : ρ}

private theorem onReplica_expand {α : Type} (handler : Program Op Answer α) :
    onReplica replica (Program.expand meaning handler) =
      Program.expand (fun op => onReplica replica (meaning op)) handler :=
  expand_expand _ handler

private theorem onReplica_bind {α β : Type} (handler : Program Op Answer α)
    (next : α → Program Op Answer β) :
    onReplica replica (Program.expand meaning (handler >>= next)) =
      onReplica replica (Program.expand meaning handler) >>= fun found =>
        onReplica replica (Program.expand meaning (next found)) := by
  rw [expand_bind]
  exact expand_bind _ _

private theorem stays_onRegistry {α : Type} (program : Program RegistryOp RegistryAnswer α) :
    All (fun made => journey.Fits limiter made ∧
        ∀ answer, journey.observe json limiter replicas made answer = journey)
      (onReplica replica (onRegistry program)) := by
  apply All.expand
  apply all_onRegistry
  exact All.of_forall (fun _ => ⟨⟨trivial, fun _ => rfl⟩, fun _ => trivial⟩) _

private theorem stays_meaning {op : Op} (incidental : Incidental op) :
    All (fun made => journey.Fits limiter made ∧
        ∀ answer, journey.observe json limiter replicas made answer = journey)
      (onReplica replica (meaning op)) := by
  cases op with
  | unixNow => cases incidental
  | decide limiter key => cases incidental
  | send outbound => cases incidental
  | incRateLimited pfx => exact stays_onRegistry _
  | incCircuitOpen pfx => exact stays_onRegistry _
  | finish timer statusClass => exact stays_onRegistry _
  | _ => exact ⟨⟨trivial, fun _ => rfl⟩, fun _ => trivial⟩

/-- Incidental calls leave the journey where it is. -/
theorem proceeds_incidental {α : Type} {handler : Program Op Answer α} (incidental : All Incidental handler) :
    Proceeds json limiter replicas (fun reached _ => reached = journey) journey
      (onReplica replica (Program.expand meaning handler)) := by
  rw [onReplica_expand]
  apply Conforms.of_all
  apply All.expand
  exact incidental.mono fun _ => stays_meaning

private theorem onJourney_incidental {handler : Handler} (incidental : All Incidental handler)
    (cleared : journey.Cleared) :
    OnJourney json limiter replicas journey (onReplica replica (Program.expand meaning handler)) := by
  apply (proceeds_incidental incidental).mono
  rintro reached response rfl
  exact cleared.answered response

private theorem onJourney_done {response : Response} (answered : journey.Answered response) :
    OnJourney json limiter replicas journey
      (onReplica replica (Program.expand meaning (.done response))) :=
  conforms_done.mpr answered

/-- Incidental calls can be put in front. -/
theorem onJourney_bind {α : Type} {handler : Program Op Answer α} {next : α → Handler}
    (incidental : All Incidental handler)
    (rest : ∀ found, OnJourney json limiter replicas journey
      (onReplica replica (Program.expand meaning (next found)))) :
    OnJourney json limiter replicas journey
      (onReplica replica (Program.expand meaning (handler >>= next))) := by
  rw [onReplica_bind]
  apply Conforms.bind (proceeds_incidental incidental)
  rintro reached found rfl
  exact rest found

private theorem onJourney_exchange {state : ProxyState scheme} {pfx backend suffix : Text}
    {breaker : Option CircuitBreaker} {request : Request} (cleared : journey.Cleared)
    (unsent : journey.sent = false) :
    OnJourney json limiter replicas journey (onReplica replica (Program.expand meaning
      (exchange urls state pfx breaker backend suffix request))) := by
  apply onJourney_bind (incidental_ask (.collect request.body) trivial)
  intro _
  split
  next => exact onJourney_done (cleared.answered bodyUnreadable)
  next bodyBytes _ =>
    apply onJourney_bind incidental_startTimer
    intro timer
    unfold send
    split
    next => exact onJourney_incidental (incidental_conclude breaker timer (.error .builder)) cleared
    next url _ =>
      refine conforms_call.mpr ⟨⟨cleared, unsent⟩, ?_⟩
      intro hops
      exact onJourney_incidental (incidental_conclude breaker timer _) cleared

private theorem onJourney_route {state : ProxyState scheme} {request : Request}
    (cleared : journey.Cleared) (unsent : journey.sent = false) :
    OnJourney json limiter replicas journey
      (onReplica replica (Program.expand meaning (route urls state request))) := by
  unfold route
  split
  next pfx rest _ =>
    split
    next => exact onJourney_done (cleared.answered _)
    next =>
      unfold forward
      split
      next => exact onJourney_done (cleared.answered _)
      next backend _ =>
        split
        next => exact onJourney_exchange cleared unsent
        next breaker _ =>
          apply onJourney_bind (incidental_ask (.tryAdmit breaker) trivial)
          intro admission
          cases admission with
          | call => exact onJourney_exchange cleared unsent
          | shortCircuit =>
              exact onJourney_bind incidental_countCircuitOpen fun _ =>
                onJourney_done (cleared.answered _)

/-- What becomes of a request once the limiter has decided. -/
def afterDecision (urls : UrlCrate) (state : ProxyState scheme) (request : Request) :
    Decision → Handler
  | .limit retryAfter => do
      countRateLimited state (rejectedPrefix request.path)
      pure (rateLimited retryAfter)
  | .allow => route urls state request
  | .opened => route urls state request

private theorem rateLimit_eq {state : ProxyState scheme} (limits : state.limiter = some limiter)
    (subject : Option Text) (request : Request) :
    rateLimit urls state subject request =
      (ask (.decide limiter (limitKey subject "unkeyed".toList)) >>=
        afterDecision urls state request) := by
  unfold rateLimit
  rw [limits]
  simp only [perform_bind]
  congr 1
  funext decision
  cases decision with
  | limit retryAfter => rfl
  | allow => rfl
  | opened => rfl

private theorem onJourney_afterDecision {state : ProxyState scheme} {request : Request}
    {decision : Decision} (verified : journey.subject.isSome = true)
    (unsent : journey.sent = false) (decided : journey.decision = some decision) :
    OnJourney json limiter replicas journey
      (onReplica replica (Program.expand meaning (afterDecision urls state request decision))) := by
  cases decision with
  | limit retryAfter =>
      apply onJourney_bind incidental_countRateLimited
      intro _
      apply onJourney_done
      intro told refused
      rw [decided] at refused
      injection refused with same
      injection same with same
      rw [same]
  | allow => exact onJourney_route ⟨verified, Or.inl decided⟩ unsent
  | opened => exact onJourney_route ⟨verified, Or.inr decided⟩ unsent

private theorem onJourney_rateLimit {state : ProxyState scheme} {request : Request} {subject : Text}
    (limits : state.limiter = some limiter) (verified : journey.subject = some subject)
    (undecided : journey.decision = none) (unsent : journey.sent = false) :
    OnJourney json limiter replicas journey (onReplica replica (Program.expand meaning
      (rateLimit urls state (some subject) request))) := by
  have isSome : journey.subject.isSome = true := by
    rw [verified]
    rfl
  rw [rateLimit_eq limits]
  refine conforms_call.mpr ⟨undecided, fun now => conforms_call.mpr ⟨undecided, ?_⟩⟩
  intro connected
  cases connected with
  | false =>
      exact @onJourney_afterDecision _ json urls _ limiter replicas { journey with
        window := some (limiter.windowKeySuffix now)
        decision := some .opened } replica state request .opened isSome unsent rfl
  | true =>
      refine conforms_call.mpr ⟨⟨undecided, rfl, limiter.windowKeySuffix now, rfl, ?_⟩, ?_⟩
      · show limiter.windowKey (limitKey (some subject) "unkeyed".toList) _ =
          limiter.windowKey (limitKey journey.subject "unkeyed".toList) _
        rw [verified]
      · intro reply
        exact @onJourney_afterDecision _ json urls _ limiter replicas { journey with
          window := some (limiter.windowKeySuffix now)
          decision := some (limiter.decision reply) } replica state request
          (limiter.decision reply) isSome unsent rfl

private theorem onJourney_fleetHandler (urls : UrlCrate) (input : ρ × Request) :
    OnJourney json limiter replicas ⟨input.1, input.2, none, none, none, false⟩
      (fleetHandler json urls limiter replicas input.1 input.2) := by
  have gate : ((replicas input.1).state limiter).auth = some (replicas input.1).auth := rfl
  unfold fleetHandler worldHandler proxyFallback
  simp only [gate, Program.perform_bind]
  refine conforms_call.mpr ⟨rfl, ?_⟩
  intro now
  have seen : Journey.observe json limiter replicas
      ⟨input.1, input.2, none, none, none, false⟩ (input.1, .handler .unixNow) now =
      ⟨input.1, input.2, (checkBearer json (replicas input.1).auth input.2 now).toOption, none, none,
        false⟩ := rfl
  simp only [seen, Program.bind]
  cases checkBearer json (replicas input.1).auth input.2 now with
  | error refusal =>
      apply onJourney_done
      intro retryAfter refused
      cases refused
  | ok subject => exact onJourney_rateLimit rfl rfl rfl rfl

/-- A request that was turned away is told nothing more, and gets the 429. -/
theorem rateLimited_of_onJourney {retryAfter : UInt64}
    (refused : journey.decision = some (.limit retryAfter))
    {program : Program (ρ × Action) FleetOutcome Response}
    (onJourney : OnJourney json limiter replicas journey program)
    {trace : List (Sigma FleetOutcome)} {response : Response}
    (returns : program.Returns trace response) : response = rateLimited retryAfter := by
  induction program generalizing journey trace with
  | done found =>
      obtain ⟨-, rfl⟩ := returns
      exact conforms_done.mp onJourney retryAfter refused
  | call made next inductionHypothesis =>
      obtain ⟨answer, later, -, returns⟩ := returns
      obtain ⟨fits, onward⟩ := conforms_call.mp onJourney
      refine inductionHypothesis answer ?_ (onward answer) returns
      obtain ⟨place, action⟩ := made
      have decided : journey.decision ≠ none := by simp [refused]
      have uncleared : ¬ journey.Cleared := by
        rintro ⟨-, cleared⟩
        simp [refused] at cleared
      cases action with
      | registry op => exact refused
      | handler op =>
          cases op with
          | unixNow => exact absurd fits decided
          | send outbound => exact absurd fits.1 uncleared
          | _ => exact refused
      | redis op =>
          cases op with
          | systemTime => exact absurd fits decided
          | connect => exact absurd fits decided
          | transact key secs => exact absurd fits.1 decided

end

/-! ### Runs -/

section

variable {ρ : Type} [DecidableEq ρ] {json : Json.Codec} {urls : UrlCrate} {scheme : Ed25519}
  {limiter : RateLimiter} {replicas : ρ → Replica scheme} {before after : Fleets ρ}
  {event : FleetEvent ρ}

private theorem onJourney_step (onJourney : before.Threads (OnJourney json limiter replicas))
    (stepped : fleetStep json urls limiter replicas before event = some after) :
    after.Threads (OnJourney json limiter replicas) := by
  apply Pool.threads_step _ _ onJourney stepped
  · intro input _
    exact onJourney_fleetHandler urls input
  · intro journey made next here answer
    exact (conforms_call.mp here).2 answer

/-- The counters of a key, as the fleet's Redis holds them. -/
def fleetCounters (limiter : RateLimiter) (fleets : Fleets ρ) (key : Text) :
    Nat → Option Redis.Counter :=
  fun window => fleets.shared.server.store (limiter.windowKey key window)

private theorem server_act (fleet : Fleet ρ) (id : Nat) (replica : ρ) {action : Action}
    (other : ∀ key secs, action ≠ .redis (.transact key secs)) (offer : Outcome action) :
    (fleet.act id (replica, action) offer).2.server.store = fleet.server.store := by
  cases action with
  | handler op => cases op <;> rfl
  | registry op => cases op <;> rfl
  | redis op =>
      cases op with
      | systemTime => rfl
      | connect => rfl
      | transact key secs => exact absurd rfl (other key secs)

private theorem accesses_fleetStep (onJourney : before.Threads (OnJourney json limiter replicas))
    (stepped : fleetStep json urls limiter replicas before event = some after) :
    Accesses limiter.charge (fleetCounters limiter) before after (charged limiter before event) := by
  have silent : charged limiter before event = none →
      after.shared.server.store = before.shared.server.store →
      Accesses limiter.charge (fleetCounters limiter) before after (charged limiter before event) := by
    intro nothing same
    rw [nothing]
    refine ⟨by simp, ?_⟩
    intro key _
    unfold fleetCounters
    rw [same]
  rcases Pool.step_cases stepped with ⟨input, rfl, rfl⟩ |
    ⟨id, offer, journey, ⟨replica, action⟩, next, rfl, found, rfl⟩ | ⟨id, thread, rfl, -, rfl⟩ |
    ⟨happening, rfl, rfl⟩
  · exact silent rfl rfl
  · by_cases counts : ∃ key secs, action = .redis (.transact key secs)
    · obtain ⟨key, secs, rfl⟩ := counts
      have fits : journey.Fits limiter (replica, .redis (.transact key secs)) :=
        (conforms_call.mp (onJourney id _ found)).1
      obtain ⟨-, rfl, window, read, rfl⟩ := fits
      simp only [charged, found]
      refine ⟨?_, ?_⟩
      · intro access same
        obtain rfl := Option.some.inj same
        rw [read]
        refine Prod.ext rfl ?_
        exact (countersOf_own before.shared.server.store _ _ _).symm
      · intro key away
        exact countersOf_other before.shared.server.store (away _ rfl).symm _ _
    · push Not at counts
      apply silent
      · simp only [charged, found]
        split
        next same =>
          injection same with same
          injection same with _ same
          injection same with same
          injection same with _ same
          exact absurd same (counts _ _)
        next => rfl
      · exact server_act before.shared id replica counts _
  · exact silent rfl rfl
  · apply silent rfl
    obtain ⟨replica, happening⟩ := happening
    cases happening <;> rfl

/-- A transaction that Redis executes is executed in the window that its key names. -/
def inTime (limiter : RateLimiter) (before : Fleets ρ) : FleetEvent ρ → Bool
  | .exec id offer =>
      match before.threads id with
      | some ⟨journey, .call (replica, .redis (.transact key secs)) _⟩ =>
          let offered : Reply := offer (replica, .redis (.transact key secs))
          decide (offered = .failed false) ||
            decide (journey.window = some (limiter.windowAt before.shared.server.now))
      | _ => true
  | _ => true

omit [DecidableEq ρ] in
/-- What is charged is a transaction of the moment. -/
theorem charged_cases {access : LedgerEntry (Option Text)}
    (shown : charged limiter before event = some access) :
    ∃ id offer journey replica key secs next, event = .exec id offer ∧
      before.threads id = some ⟨journey, .call (replica, .redis (.transact key secs)) next⟩ ∧
      access = ⟨limitKey journey.subject "unkeyed".toList,
        ⟨journey.subject, journey.window.getD 0, before.shared.server.now,
          some (Reply.fate (offer (replica, .redis (.transact key secs))))⟩,
        ⟨some (before.shared.server.act id (.transact key secs)
            (offer (replica, .redis (.transact key secs)))).1,
          limiter.decision (before.shared.server.act id (.transact key secs)
            (offer (replica, .redis (.transact key secs)))).1⟩⟩ := by
  cases event with
  | exec id offer =>
      simp only [charged] at shown
      split at shown
      next journey replica key secs next found =>
        exact ⟨id, offer, journey, replica, key, secs, next, rfl, found,
          (Option.some.inj shown).symm⟩
      next => cases shown
  | spawn input => cases shown
  | drop id => cases shown
  | ambient happening => cases shown

omit [DecidableEq ρ] in
private theorem timely_charged (timely : inTime limiter before event = true)
    {access : LedgerEntry (Option Text)}
    (shown : charged limiter before event = some access) : access.input.Timely limiter := by
  obtain ⟨id, offer, journey, replica, key, secs, next, rfl, found, rfl⟩ := charged_cases shown
  intro executed
  have sent : offer (replica, .redis (.transact key secs)) ≠ Reply.failed false := by
    intro lost
    simp [Charge.executed, lost, Reply.fate] at executed
  simp only [inTime, found, sent, decide_false, Bool.false_or, decide_eq_true_eq] at timely
  simp [timely]

private theorem now_le_fleetStep
    (stepped : fleetStep json urls limiter replicas before event = some after) :
    before.shared.server.now ≤ after.shared.server.now := by
  rcases Pool.step_cases stepped with ⟨input, -, rfl⟩ |
    ⟨id, offer, journey, ⟨replica, action⟩, next, -, -, rfl⟩ | ⟨id, thread, -, -, rfl⟩ |
    ⟨⟨replica, happening⟩, -, rfl⟩
  · exact Nat.le_refl _
  · have same : (before.shared.act id (replica, action) (offer (replica, action))).2.server.now =
        before.shared.server.now := by
      cases action with
      | handler op => cases op <;> rfl
      | registry op => cases op <;> rfl
      | redis op => cases op <;> rfl
    exact same.ge
  · exact Nat.le_refl _
  · cases happening with
    | clock millis => exact Nat.le_add_right _ _
    | gateway change => exact Nat.le_refl _
    | scrape => exact Nat.le_refl _

private theorem ordered_fleetLedger {start : Fleet ρ} {final : Fleets ρ}
    {events : List (FleetEvent ρ)}
    (ran : run (fleetStep json urls limiter replicas) (Pool.init start) events = some final) :
    Ordered (fleetLedger json urls limiter replicas (Pool.init start) events) := by
  have related : (∀ access ∈ fleetLedger json urls limiter replicas (Pool.init start) events,
      access.input.moment ≤ final.shared.server.now) ∧
        Ordered (fleetLedger json urls limiter replicas (Pool.init start) events) := by
    apply trail_invariant (fun (fleets : Fleets ρ) (ledger : Ledger (Option Text)) =>
      (∀ access ∈ ledger, access.input.moment ≤ fleets.shared.server.now) ∧ Ordered ledger) _
      ⟨by simp, List.Pairwise.nil⟩ ran
    intro before event after ledger related stepped
    obtain ⟨past, ordered⟩ := related
    have later := now_le_fleetStep stepped
    have momentOf : ∀ access ∈ (charged limiter before event).toList,
        access.input.moment = before.shared.server.now := by
      intro access member
      obtain ⟨_, _, _, _, _, _, _, -, -, rfl⟩ := charged_cases (Option.mem_toList.mp member)
      rfl
    constructor
    · intro access member
      rcases List.mem_append.mp member with old | new
      · exact Nat.le_trans (past access old) later
      · exact Nat.le_trans (momentOf access new).le later
    · refine List.pairwise_append.mpr ⟨ordered, ?_, ?_⟩
      · cases charged limiter before event with
        | none => exact List.Pairwise.nil
        | some access => exact List.pairwise_singleton _ _
      · intro access old other new
        rw [momentOf other new]
        exact past access old
  exact related.2

/-- The charges of a fleet over an empty Redis make a ledger. -/
theorem replayed_fleetLedger {locals : ρ → Local} {millis : Nat} {final : Fleets ρ}
    {events : List (FleetEvent ρ)}
    (timely : Meets (fleetStep json urls limiter replicas)
      (fun before event => inTime limiter before event = true)
      (Pool.init (Fleet.init locals millis)) events)
    (ran : run (fleetStep json urls limiter replicas) (Pool.init (Fleet.init locals millis)) events =
      some final) :
    Replayed limiter
      (fleetLedger json urls limiter replicas (Pool.init (Fleet.init locals millis)) events) where
  told key := (history_eq_replay onJourney_step accesses_fleetStep
    (Pool.threads_init _ (Fleet.init locals millis)) ran key).1
  timely := by
    have related : ∀ access ∈ [] ++
        fleetLedger json urls limiter replicas (Pool.init (Fleet.init locals millis)) events,
        access.input.Timely limiter := by
      apply trail_invariant_of_meets
        (fun (_ : Fleets ρ) (ledger : Ledger (Option Text)) =>
          ∀ access ∈ ledger, access.input.Timely limiter) _ (by simp) timely ran
      intro before event after ledger kept timely _ access member
      rcases List.mem_append.mp member with old | new
      · exact kept access old
      · exact timely_charged timely (Option.mem_toList.mp new)
    simpa using related

/-! ### Grants and exchanges -/

/-- The limiter has allowed the subject's request in the window. -/
def Journey.grantedIn (subject : Text) (window : Nat) (journey : Journey ρ) : Bool :=
  decide (journey.subject = some subject) &&
    (decide (journey.window = some window) && decide (journey.decision = some .allow))

/-- A grant that is not used yet. -/
def Journey.unused (subject : Text) (window : Nat) (journey : Journey ρ) : Nat :=
  if journey.grantedIn subject window = true ∧ journey.sent = false then 1 else 0

/-- The charge that grants it. -/
def grants (subject : Text) (window : Nat) (access : LedgerEntry (Option Text)) :
    Bool :=
  allowed (limitKey (some subject) "unkeyed".toList) access && access.input.window == window

omit [DecidableEq ρ] in
private theorem unused_of_undecided {subject : Text} {window : Nat} {journey : Journey ρ}
    (other : journey.decision ≠ some .allow) : journey.unused subject window = 0 := by
  simp [Journey.unused, Journey.grantedIn, other]

/-- A call uses at most the grant of its request. -/
theorem uses_exec {id : Nat} {offer : (made : ρ × Action) → FleetOutcome made}
    {journey : Journey ρ} {replica : ρ} {action : Action}
    {next : Outcome action → Program (ρ × Action) FleetOutcome Response}
    (fits : journey.Fits limiter (replica, action))
    (found : before.threads id = some ⟨journey, .call (replica, action) next⟩) (subject : Text)
    (window : Nat) :
    (journey.observe json limiter replicas (replica, action)
          (before.shared.act id (replica, action) (offer (replica, action))).1).unused subject window +
        (exchanged before (.exec id offer)).countP (Journey.grantedIn subject window) ≤
      journey.unused subject window +
        (charged limiter before (.exec id offer)).toList.countP (grants subject window) := by
  cases action with
  | handler op =>
      cases op with
      | unixNow =>
          have undecided : journey.decision = none := fits
          have none : (journey.observe json limiter replicas (replica, .handler .unixNow)
              (before.shared.act id (replica, .handler .unixNow) (offer (replica, .handler .unixNow))).1
              ).unused subject window = 0 :=
            unused_of_undecided (by simp [Journey.observe, undecided])
          rw [none]
          simp [exchanged, found]
      | send outbound =>
          have unsent : journey.sent = false := fits.2
          simp [exchanged, found, Journey.observe, Journey.unused, unsent, List.countP_singleton]
      | _ => simp [exchanged, found, Journey.observe]
  | registry op => simp [exchanged, found, Journey.observe]
  | redis op =>
      cases op with
      | systemTime =>
          have undecided : journey.decision = none := fits
          have none : (journey.observe json limiter replicas (replica, .redis .systemTime)
              (before.shared.act id (replica, .redis .systemTime)
                (offer (replica, .redis .systemTime))).1).unused subject window = 0 :=
            unused_of_undecided (by simp [Journey.observe, undecided])
          rw [none]
          simp [exchanged, found]
      | connect =>
          have undecided : journey.decision = none := fits
          have none : (journey.observe json limiter replicas (replica, .redis .connect)
              (before.shared.act id (replica, .redis .connect)
                (offer (replica, .redis .connect))).1).unused subject window = 0 := by
            apply unused_of_undecided
            simp only [Journey.observe]
            split
            next => simp [undecided]
            next => simp
          rw [none]
          simp [exchanged, found]
      | transact key secs =>
          obtain ⟨-, -, named, read, -⟩ := fits
          have idle : exchanged before (.exec id offer) = [] := by simp [exchanged, found]
          simp only [idle, List.countP_nil, Nat.add_zero, charged, found, Option.toList_some,
            List.countP_singleton]
          refine Nat.le_trans ?_ (Nat.le_add_left _ _)
          unfold Journey.unused
          split
          next granted =>
            have facts := granted.1
            simp only [Journey.observe, Journey.grantedIn, Bool.and_eq_true, decide_eq_true_eq,
              Option.some.injEq] at facts
            obtain ⟨subjectIs, windowIs, allows⟩ := facts
            rw [if_pos]
            simp only [grants, allowed, Bool.and_eq_true, decide_eq_true_eq, beq_iff_eq]
            exact ⟨⟨by rw [of_decide_eq_true subjectIs], allows⟩,
              by rw [of_decide_eq_true windowIs]; rfl⟩
          next => exact Nat.zero_le _

/-- The exchanges of a subject in a window are at most the grants that it was given. -/
theorem exchanges_le_grants {start : Fleet ρ} {final : Fleets ρ} {events : List (FleetEvent ρ)}
    (ran : run (fleetStep json urls limiter replicas) (Pool.init start) events = some final)
    (subject : Text) (window : Nat) :
    (fleetExchanges json urls limiter replicas (Pool.init start) events).countP
        (Journey.grantedIn subject window) ≤
      (fleetLedger json urls limiter replicas (Pool.init start) events).countP
        (grants subject window) := by
  have balance := @trail_balance _ _ _ (fleetStep json urls limiter replicas) exchanged _
    (fun fleets event => (charged limiter fleets event).toList) (Journey.grantedIn subject window)
    (grants subject window) (Pool.tally (Journey.unused subject window))
    (fun fleets => fleets.Threads (OnJourney json limiter replicas) ∧ fleets.Fresh) ?_ ?_
    (Pool.init start) final events ⟨Pool.threads_init _ start, Pool.fresh_init start⟩ ran
  · rw [Pool.tally_init, Nat.zero_add] at balance
    exact Nat.le_trans (Nat.le_add_left _ _) balance
  · intro before event after holds stepped
    exact ⟨onJourney_step holds.1 stepped, Pool.fresh_step holds.2 stepped⟩
  · intro before event after holds stepped
    apply Pool.spent_step holds.2 _ _ _ stepped
    · intro input
      exact unused_of_undecided (by simp [fleetSystem])
    · rintro id offer journey ⟨replica, action⟩ next rfl found
      have fits : journey.Fits limiter (replica, action) :=
        (conforms_call.mp (holds.1 id _ found)).1
      exact uses_exec fits found subject window
    · intro other
      cases event with
      | exec id offer => exact absurd rfl (other id offer)
      | spawn input => exact Nat.zero_le _
      | drop id => exact Nat.zero_le _
      | ambient happening => exact Nat.zero_le _

/-- Every exchange is one of a request that the gate and the limiter let pass. -/
theorem exchanges_cleared {start : Fleet ρ} {final : Fleets ρ} {events : List (FleetEvent ρ)}
    (ran : run (fleetStep json urls limiter replicas) (Pool.init start) events = some final) :
    ∀ journey ∈ fleetExchanges json urls limiter replicas (Pool.init start) events,
      journey.Cleared := by
  apply And.right
  apply trail_invariant (fun (fleets : Fleets ρ) (shown : List (Journey ρ)) =>
    fleets.Threads (OnJourney json limiter replicas) ∧ ∀ journey ∈ shown, journey.Cleared) _
    ⟨Pool.threads_init _ start, by simp⟩ ran
  intro before event after shown holds stepped
  refine ⟨onJourney_step holds.1 stepped, ?_⟩
  intro journey member
  rcases List.mem_append.mp member with old | new
  · exact holds.2 journey old
  · cases event with
    | exec id offer =>
        simp only [exchanged] at new
        split at new
        next passing replica outbound next found =>
          have fits : passing.Fits limiter (replica, .handler (.send outbound)) :=
            (conforms_call.mp (holds.1 id _ found)).1
          rw [List.mem_singleton.mp new]
          exact fits.1
        next => cases new
    | spawn input => cases new
    | drop id => cases new
    | ambient happening => cases new

end

/-- Whatever any number of replicas do over one Redis, an exchange with a backend is made
only for a subject whose token was verified and whom the limiter has let pass; and as
long as Redis executes each transaction in the window that its key names, the exchanges
that were allowed to one subject in one window are, over all replicas, at most the limit. -/
theorem fleet_within_quota {ρ : Type} [DecidableEq ρ] (json : Json.Codec) (urls : UrlCrate)
    {scheme : Ed25519} (limiter : RateLimiter) (replicas : ρ → Replica scheme)
    (locals : ρ → Local) (millis : Nat) (events : List (FleetEvent ρ)) (final : Fleets ρ)
    (ran : run (fleetStep json urls limiter replicas) (Pool.init (Fleet.init locals millis)) events =
      some final)
    (timely : Meets (fleetStep json urls limiter replicas)
      (fun before event => inTime limiter before event = true)
      (Pool.init (Fleet.init locals millis)) events) :
    let exchanges := fleetExchanges json urls limiter replicas
      (Pool.init (Fleet.init locals millis)) events
    (∀ journey ∈ exchanges, journey.Cleared) ∧
      ∀ subject window,
        exchanges.countP (Journey.grantedIn subject window) ≤ limiter.limit.toNat := by
  intro exchanges
  refine ⟨exchanges_cleared ran, ?_⟩
  intro subject window
  have replayed := replayed_fleetLedger timely ran
  refine Nat.le_trans (exchanges_le_grants ran subject window) (Nat.le_trans ?_
    (replayed.allowed_le_limit (limitKey (some subject) "unkeyed".toList) window))
  -- a grant is an executed transaction, and so of the window that its key names
  apply List.countP_mono_left
  intro access member granted
  simp only [grants, Bool.and_eq_true, beq_iff_eq] at granted
  obtain ⟨earlier, later, split⟩ := List.append_of_mem member
  have decision := granted.1
  simp only [allowed, Bool.and_eq_true, decide_eq_true_eq] at decision
  have executed := (replayed.counted split (by simp [decision.2])).1
  have named := replayed.timely access member executed
  rw [Bool.and_eq_true, beq_iff_eq, ← named]
  exact granted

/-- Two replicas of the gateway that allows a caller one request in a minute. -/
def strictReplicas : Bool → Replica checksumScheme :=
  fun _ => ⟨crmRoutes, OwnKeys.demoGateway.auth, crmBreaker.cfg, 30⟩

def strictFleet : Fleet Bool :=
  Fleet.init (fun _ => ⟨Shared.init 0, {}⟩) 1500000

def fleetDown : (made : Bool × Action) → FleetOutcome made := fun made => backendsDown made.2

/-- The caller comes to both replicas at once. -/
def atBoth : List (FleetEvent Bool) :=
  [.spawn (false, callerRequest "/crm/a".toList), .spawn (true, callerRequest "/crm/b".toList)] ++
    List.replicate 8 (.exec 0 fleetDown) ++ List.replicate 4 (.exec 1 fleetDown)

def strictRun (events : List (FleetEvent Bool)) : Option (Fleets Bool) :=
  run (fleetStep Json.Text.flatCodec plainUrls strictLimiter strictReplicas) (Pool.init strictFleet)
    events

theorem fleet_within_quota_at_both :
    ∃ final, strictRun atBoth = some final ∧
      (fleetExchanges Json.Text.flatCodec plainUrls strictLimiter strictReplicas
        (Pool.init strictFleet) atBoth).length = 1 ∧
      (fleetExchanges Json.Text.flatCodec plainUrls strictLimiter strictReplicas
        (Pool.init strictFleet) atBoth).countP (Journey.grantedIn demoUsername 25) ≤ 1 := by
  have runs : (strictRun atBoth).isSome = true := by decide +kernel
  have once : (fleetExchanges Json.Text.flatCodec plainUrls strictLimiter strictReplicas
      (Pool.init strictFleet) atBoth).length = 1 := by
    decide +kernel
  obtain ⟨final, ran⟩ := Option.isSome_iff_exists.mp runs
  refine ⟨final, ran, once, ?_⟩
  exact (fleet_within_quota Json.Text.flatCodec plainUrls strictLimiter strictReplicas
    (fun _ => ⟨Shared.init 0, {}⟩) 1500000 atBoth final ran (by decide +kernel)).2 demoUsername 25

/-- A transaction whose caller is to wait leaves the caller's handler nothing to return
but the 429 that says so. -/
def TellsRefusal (limiter : RateLimiter) {ρ : Type} [DecidableEq ρ] (before : Fleets ρ)
    (event : FleetEvent ρ) : Prop :=
  ∀ id offer journey made next access retryAfter, event = .exec id offer →
    before.threads id = some ⟨journey, .call made next⟩ →
    charged limiter before event = some access → access.answer.decision = .limit retryAfter →
    ∀ trace response, (next (before.shared.act id made (offer made)).1).Returns trace response →
      response = rateLimited retryAfter

private theorem tellsRefusal_of_onJourney
    {ρ : Type} [DecidableEq ρ] {json : Json.Codec} {scheme : Ed25519}
    {limiter : RateLimiter} {replicas : ρ → Replica scheme} {before : Fleets ρ}
    {event : FleetEvent ρ} (onJourney : before.Threads (OnJourney json limiter replicas)) :
    TellsRefusal limiter before event := by
  intro id offer journey made next access retryAfter same found shown refused trace response returns
  obtain ⟨id', offer', journey', replica, key, secs, next', same', found', rfl⟩ :=
    charged_cases shown
  rw [same] at same'
  cases same'
  rw [found] at found'
  cases found'
  have onward := (conforms_call.mp (onJourney id _ found)).2
    (before.shared.act id (replica, .redis (.transact key secs))
      (offer (replica, .redis (.transact key secs)))).1
  exact rateLimited_of_onJourney (congrArg some refused) onward returns

/-- In every such run, a caller that a transaction refused is answered 429 with the time to
wait; and if it waits as long as it was told to, at whichever replica it comes back, it is
refused again only once `limit` further transactions for it were executed since. -/
theorem fleet_refused_again {ρ : Type} [DecidableEq ρ] (json : Json.Codec) (urls : UrlCrate)
    {scheme : Ed25519} (limiter : RateLimiter) (replicas : ρ → Replica scheme)
    (locals : ρ → Local) (millis : Nat) (events : List (FleetEvent ρ)) (final : Fleets ρ)
    (ran : run (fleetStep json urls limiter replicas) (Pool.init (Fleet.init locals millis)) events =
      some final)
    (timely : Meets (fleetStep json urls limiter replicas)
      (fun before event => inTime limiter before event = true)
      (Pool.init (Fleet.init locals millis)) events) :
    Meets (fleetStep json urls limiter replicas) (TellsRefusal limiter)
      (Pool.init (Fleet.init locals millis)) events ∧
    ∀ (earlier between later : Ledger (Option Text)) (first second : LedgerEntry (Option Text))
      (retryAfter again : UInt64),
      fleetLedger json urls limiter replicas (Pool.init (Fleet.init locals millis)) events =
        earlier ++ first :: between ++ second :: later →
      second.cell = first.cell → first.answer.decision = .limit retryAfter →
      first.input.moment + 1000 * retryAfter.toNat ≤ second.input.moment →
      second.answer.decision = .limit again →
      limiter.limit.toNat ≤
        executedIn limiter between first.cell (limiter.windowAt second.input.moment) := by
  refine ⟨?_, ?_⟩
  · apply meets_of_invariant (fun onJourney _ stepped => onJourney_step onJourney stepped) _
      (Pool.threads_init (OnJourney json limiter replicas) (Fleet.init locals millis)) timely
    intro before event onJourney _
    exact tellsRefusal_of_onJourney onJourney
  · intro earlier between later first second retryAfter again split same refused waited refusedAgain
    exact (replayed_fleetLedger timely ran).refused_again (ordered_fleetLedger ran) split same
      refused waited refusedAgain

/-- And once more after the minute that it was told to wait. -/
def atBothAgain : List (FleetEvent Bool) :=
  atBoth ++ [.ambient (false, .clock 60000),
      .spawn (true, callerRequest "/crm/a".toList), .spawn (false, callerRequest "/crm/b".toList)] ++
    List.replicate 4 (.exec 2 fleetDown) ++ List.replicate 4 (.exec 3 fleetDown)

/-- The transaction of the caller that is executed at this moment. -/
def demoCharge (moment window value : Nat) (decision : Decision) : LedgerEntry (Option Text) :=
  ⟨limitKey (some demoUsername) "unkeyed".toList,
    ⟨some demoUsername, window, moment, some .delivered⟩, ⟨some (.count value), decision⟩⟩

theorem fleet_refused_again_at_both :
    (fleetLedger Json.Text.flatCodec plainUrls strictLimiter strictReplicas
        (Pool.init strictFleet) atBothAgain).map (fun access => access.answer.decision) =
      [.allow, .limit 60, .allow, .limit 60] ∧
      1 ≤ executedIn strictLimiter [demoCharge 1560000 26 1 .allow]
        (limitKey (some demoUsername) "unkeyed".toList) (strictLimiter.windowAt 1560000) := by
  have runs : (strictRun atBothAgain).isSome = true := by decide +kernel
  have ledger : fleetLedger Json.Text.flatCodec plainUrls strictLimiter strictReplicas
      (Pool.init strictFleet) atBothAgain =
        [demoCharge 1500000 25 1 .allow, demoCharge 1500000 25 2 (.limit 60),
          demoCharge 1560000 26 1 .allow, demoCharge 1560000 26 2 (.limit 60)] := by
    decide +kernel
  obtain ⟨final, ran⟩ := Option.isSome_iff_exists.mp runs
  refine ⟨by rw [ledger]; rfl, ?_⟩
  exact (fleet_refused_again Json.Text.flatCodec plainUrls strictLimiter strictReplicas
    (fun _ => ⟨Shared.init 0, {}⟩) 1500000 atBothAgain final ran (by decide +kernel)).2
    [demoCharge 1500000 25 1 .allow] [demoCharge 1560000 26 1 .allow] []
    (demoCharge 1500000 25 2 (.limit 60)) (demoCharge 1560000 26 2 (.limit 60)) 60 60 ledger rfl rfl
    (by decide) rfl

end Ratewall.Gateway
