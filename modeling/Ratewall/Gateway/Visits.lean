import Ratewall.Gateway.Locked
import Ratewall.Router.Stages

/-! Owns the order in which a single thread goes about the registry. A request
that has come to `start_request` counts itself, then its status, then looks its
histogram up, then adds to every bucket that its duration falls into and to the
count last; it takes each map's lock around its own entry and no other. A scrape
looks at the keys and loads the series, one after the other, with all four locks
held. -/

namespace Ratewall.Gateway

open Ratewall.Rust
open Ratewall.Foundation
open Ratewall.Foundation.Program
open Ratewall.Config
open Ratewall.Circuit
open Ratewall.Http
open Ratewall.Auth
open Ratewall.RateLimit
open Ratewall.Metrics
open Ratewall.Router

/-- A duration falls into a bucket when it is not above the bound. -/
def FallsInto (nanos index : Nat) : Prop :=
  ∃ bound, latencyBuckets[index]? = some bound ∧ nanos ≤ bound

namespace Visit

def FitsOp (visit : Visit) : RegistryOp → Prop
  | .countersFor pfx =>
      .perPrefix ∈ visit.held ∧
        (visit.stage = .waiting ∨ visit.stage = .sent ∧ pfx = visit.pfx)
  | .fetchAdd pfx counter =>
      visit.opened = some pfx ∧ (counter = .requests → visit.stage = .listed ∧ pfx = visit.pfx)
  | .countStatus key =>
      .statusTotals ∈ visit.held ∧ visit.stage = .counted ∧ (responseLabels key).2 = visit.pfx
  | .elapsed _ => visit.stage = .classed
  | .latencyFor pfx => .latencies ∈ visit.held ∧ visit.stage = .classed ∧ pfx = visit.pfx
  | .addBucket pfx index =>
      visit.stage = .timed ∧ pfx = visit.pfx ∧ visit.added (.bucket pfx index) = 0 ∧
        FallsInto visit.nanos index
  | .addCount pfx =>
      visit.stage = .timed ∧ pfx = visit.pfx ∧
        ∀ index, FallsInto visit.nanos index → visit.added (.bucket pfx index) = 1
  | .scaled _ => True
  | .addSum pfx _ => visit.stage = .observed ∧ pfx = visit.pfx

/-- The walk of a scrape has come to the series. -/
def Next (visit : Visit) (series : Series) : Prop :=
  ∃ keys past rest, visit.keys = some keys ∧ seriesOf keys = past ++ series :: rest ∧
    ∀ other, (visit.values other).isSome ↔ other ∈ past

def Fits (visit : Visit) : Access → Prop
  | .action (.handler .instantNow) => visit.stage = .waiting
  | .action (.registry op) => visit.keys = none ∧ visit.FitsOp op
  | .acquire lock => lock ∉ visit.held ∧ visit.keys = none
  | .release lock => lock ∈ visit.held
  | .render .keys =>
      (∀ lock, lock ∈ visit.held) ∧ visit.keys = none ∧ ∀ series, visit.values series = none
  | .render (.load series) => (∀ lock, lock ∈ visit.held) ∧ visit.Next series
  | _ => True

/-- The value that a scrape shows for a series. What it has no line for is zero. -/
def shown (visit : Visit) (series : Series) : Nat := (visit.values series).getD 0

/-- Every series of the keys was loaded, and the response shows what was loaded. -/
def Rendered (seconds : Nat → Text) (visit : Visit) (keys : Keys) (response : Response) : Prop :=
  visit.keys = some keys ∧ (∀ series, (visit.values series).isSome ↔ series ∈ seriesOf keys) ∧
    ((seriesOf keys).Nodup → response = scrapeResponse (exposition seconds keys visit.shown))

def Ends (seconds : Nat → Text) (visit : Visit) (response : Response) : Prop :=
  match visit.arrival with
  | .request _ => visit.stage = .waiting ∨ visit.stage = .observed
  | .scrape => visit.stage = .waiting ∧ ∃ keys, visit.Rendered seconds keys response

end Visit

abbrev Mannered (seconds : Nat → Text) : Visit → Job Response → Prop :=
  Conforms Visit.observe Visit.Fits (Visit.Ends seconds)

/-! ### Requests -/

/-- What a call of the handler comes down to, locks included. -/
def detail (op : Op) : Job (Answer op) := (meaning op).expand locked

private theorem requestJob_eq (json : Json.Codec) (urls : UrlCrate) {scheme : Ed25519}
    (state : ProxyState scheme) (request : Request) :
    requestJob json urls state request = (proxyFallback urls state json request).expand detail :=
  expand_expand locked _

private theorem expand_onRegistry {α : Type} (program : Program RegistryOp RegistryAnswer α) :
    (onRegistry program).expand locked = program.expand registryJob := by
  unfold onRegistry
  rw [expand_expand]
  congr 1
  funext op
  exact expand_perform (Action.registry op)

/-- Calls that have nothing to do with the metrics. -/
def Inert : Op → Prop
  | .instantNow => False
  | .incRateLimited _ => False
  | .incCircuitOpen _ => False
  | .finish _ _ => False
  | _ => True

def Silent : Access → Prop
  | .action (.handler .instantNow) => False
  | .action (.handler _) => True
  | .action (.redis _) => True
  | _ => False

/-- A silent access fits every visit and is not seen by it. -/
theorem Silent.keeps {access : Access} (silent : Silent access) (visit : Visit) :
    visit.Fits access ∧ ∀ answer, visit.observe access answer = visit := by
  cases access with
  | action action =>
      cases action with
      | handler op =>
          cases op with
          | instantNow => cases silent
          | _ => exact ⟨trivial, fun _ => rfl⟩
      | redis op => exact ⟨trivial, fun _ => rfl⟩
      | registry op => cases silent
  | _ => cases silent

private theorem silent_detail {op : Op} (inert : Inert op) : All Silent (detail op) := by
  cases op with
  | instantNow => cases inert
  | incRateLimited pfx => cases inert
  | incCircuitOpen pfx => cases inert
  | finish timer statusClass => cases inert
  | decide limiter key =>
      apply All.expand
      apply all_onRedis
      apply All.of_forall
      intro redis
      exact ⟨trivial, fun _ => trivial⟩
  | _ => exact ⟨trivial, fun _ => trivial⟩

section

variable {seconds : Nat → Text} {visit : Visit} {α : Type}

/-- Inert calls can be put in front of anything. -/
theorem conforms_inert {ends : Visit → α → Prop} {op : Op} {next : Answer op → Program Op Answer α}
    (inert : Inert op)
    (rest : ∀ answer, Conforms Visit.observe Visit.Fits ends visit ((next answer).expand detail)) :
    Conforms Visit.observe Visit.Fits ends visit ((ask op >>= next).expand detail) := by
  have kept : Conforms Visit.observe Visit.Fits (fun reached _ => reached = visit) visit (detail op) :=
    Conforms.of_all ((silent_detail inert).mono fun _ silent => silent.keeps visit)
  apply Conforms.bind kept
  rintro reached answer rfl
  exact rest answer

/-- The visit while it makes the step. -/
def Visit.under (visit : Visit) (op : RegistryOp) : Visit :=
  { visit with held := (lockOf op).toList }

/-- A step of the registry, with its lock around it if it has one. -/
theorem conforms_registryJob {op : RegistryOp} (free : visit.held = []) (unread : visit.keys = none)
    (fit : (visit.under op).FitsOp op) :
    Conforms Visit.observe Visit.Fits
      (fun reached answer => reached = visit.observe (.action (.registry op)) answer) visit
      (registryJob op) := by
  obtain ⟨arrival, stage, opened, statusKey, nanos, added, held, keys, values⟩ := visit
  cases free
  cases unread
  unfold registryJob
  unfold Visit.under at fit
  cases needed : lockOf op with
  | none =>
      rw [needed] at fit
      exact conforms_perform ⟨rfl, fit⟩ fun answer => rfl
  | some lock =>
      rw [needed] at fit
      refine conforms_call.mpr
        ⟨⟨by simp, rfl⟩, fun _ => conforms_call.mpr ⟨⟨rfl, fit⟩, fun answer => ?_⟩⟩
      refine conforms_call.mpr ⟨?_, fun _ => conforms_done.mpr ?_⟩
      · show lock ∈ Visit.held (Visit.advance _ op answer)
        rw [Visit.advance_held]
        exact List.mem_cons_self
      · cases op with
        | countersFor pfx => cases needed; rfl
        | countStatus key => cases needed; rfl
        | latencyFor pfx => cases needed; rfl
        | _ => cases needed

private theorem conforms_step {ends : Visit → α → Prop} {op : RegistryOp}
    {next : RegistryAnswer op → Program RegistryOp RegistryAnswer α} (free : visit.held = [])
    (unread : visit.keys = none)
    (fit : (visit.under op).FitsOp op)
    (rest : ∀ answer, Conforms Visit.observe Visit.Fits ends
      (visit.observe (.action (.registry op)) answer) ((next answer).expand registryJob)) :
    Conforms Visit.observe Visit.Fits ends visit ((Metrics.step op >>= next).expand registryJob) := by
  apply Conforms.bind (conforms_registryJob free unread fit)
  rintro reached answer rfl
  exact rest answer

private theorem conforms_last {op : RegistryOp} {ends : Visit → RegistryAnswer op → Prop}
    (free : visit.held = []) (unread : visit.keys = none) (fit : (visit.under op).FitsOp op)
    (ensures : ∀ answer, ends (visit.observe (.action (.registry op)) answer) answer) :
    Conforms Visit.observe Visit.Fits ends visit ((Metrics.step op).expand registryJob) := by
  rw [expand_perform]
  apply (conforms_registryJob free unread fit).mono
  rintro reached answer rfl
  exact ensures answer

/-- A rejection is counted under any label, before anything is sent. -/
theorem conforms_counted {counter : Counter} (free : visit.held = []) (unread : visit.keys = none)
    (waiting : visit.stage = .waiting) (other : counter ≠ .requests) (pfx : Text) :
    Conforms Visit.observe Visit.Fits
      (fun reached _ => reached.arrival = visit.arrival ∧ reached.stage = .waiting) visit
      (expand registryJob (do
        Metrics.step (.countersFor pfx)
        Metrics.step (.fetchAdd pfx counter))) := by
  have lists : (visit.under (.countersFor pfx)).FitsOp (.countersFor pfx) :=
    ⟨List.mem_cons_self, Or.inl waiting⟩
  apply conforms_step free unread lists
  rintro ⟨⟩
  have stays : (visit.observe (.action (.registry (.countersFor pfx))) ()).stage = .waiting := by
    simp [Visit.observe, Visit.advance, waiting]
  apply @conforms_last _ (.fetchAdd pfx counter)
  · exact free
  · exact unread
  · exact ⟨rfl, fun isRequests => absurd isRequests other⟩
  · rintro ⟨⟩
    cases counter with
    | requests => exact absurd rfl other
    | rateLimited => exact ⟨rfl, stays⟩
    | circuitOpen => exact ⟨rfl, stays⟩

/-- Adds to every bucket of the list that the duration falls into. -/
theorem conforms_observeBuckets {buckets : List (Nat × Nat)} (free : visit.held = [])
    (unread : visit.keys = none) (timed : visit.stage = .timed)
    (bounds : ∀ entry ∈ buckets, latencyBuckets[entry.2]? = some entry.1)
    (distinct : (buckets.map Prod.snd).Nodup)
    (untouched : ∀ index ∈ buckets.map Prod.snd, visit.added (.bucket visit.pfx index) = 0) :
    Conforms Visit.observe Visit.Fits
      (fun reached _ => ∃ added, reached = { visit with added := added } ∧
        (∀ entry ∈ buckets, visit.nanos ≤ entry.1 → added (.bucket visit.pfx entry.2) = 1) ∧
        ∀ index, index ∉ buckets.map Prod.snd →
          added (.bucket visit.pfx index) = visit.added (.bucket visit.pfx index))
      visit ((observeBuckets visit.pfx visit.nanos buckets).expand registryJob) := by
  induction buckets generalizing visit with
  | nil => exact conforms_done.mpr ⟨visit.added, rfl, by simp, fun _ _ => rfl⟩
  | cons entry rest ih =>
      obtain ⟨bound, index⟩ := entry
      rw [List.map_cons, List.nodup_cons] at distinct
      obtain ⟨new, distinct⟩ := distinct
      have boundsRest : ∀ entry ∈ rest, latencyBuckets[entry.2]? = some entry.1 :=
        fun entry member => bounds entry (List.mem_cons_of_mem _ member)
      unfold observeBuckets
      split
      next falls =>
        have fit : (visit.under (.addBucket visit.pfx index)).FitsOp (.addBucket visit.pfx index) :=
          ⟨timed, rfl, untouched index List.mem_cons_self,
            bound, bounds (bound, index) List.mem_cons_self, falls⟩
        have others : ∀ other ∈ rest.map Prod.snd,
            visit.added (.bucket visit.pfx other) +
              RegistryOp.adds (.addBucket visit.pfx index) (.bucket visit.pfx other) = 0 := by
          intro other member
          have different : other ≠ index := fun same => new (same ▸ member)
          simp [RegistryOp.adds, different, untouched other (List.mem_cons_of_mem _ member)]
        apply conforms_step free unread fit
        rintro ⟨⟩
        apply (@ih (visit.observe (.action (.registry (.addBucket visit.pfx index))) ()) free unread
          timed boundsRest distinct others).mono
        rintro reached answer ⟨added, rfl, reaches, keeps⟩
        have adds : ∀ other, other ∉ rest.map Prod.snd → added (.bucket visit.pfx other) =
            visit.added (.bucket visit.pfx other) +
              RegistryOp.adds (.addBucket visit.pfx index) (.bucket visit.pfx other) := keeps
        refine ⟨added, rfl, ?_, ?_⟩
        · intro entry member within
          rcases List.mem_cons.mp member with rfl | member
          · rw [adds index new, untouched index List.mem_cons_self]
            simp [RegistryOp.adds]
          · exact reaches entry member within
        · intro other notListed
          rw [List.map_cons, List.mem_cons, not_or] at notListed
          rw [adds other notListed.2]
          simp [RegistryOp.adds, notListed.1]
      next beyond =>
        apply (ih free unread timed boundsRest distinct
          fun other member => untouched other (List.mem_cons_of_mem _ member)).mono
        rintro reached answer ⟨added, rfl, reaches, keeps⟩
        refine ⟨added, rfl, ?_, ?_⟩
        · intro entry member within
          rcases List.mem_cons.mp member with rfl | member
          · exact absurd within beyond
          · exact reaches entry member within
        · intro other notListed
          rw [List.map_cons, List.mem_cons, not_or] at notListed
          exact keeps other notListed.2

/-- A request right before `send`. -/
def sentVisit (request : Request) : Visit := { arrival := .request request, stage := .sent }

private theorem conforms_observe {arrival : Arrival} {pfx : Text} {nanos : Nat}
    (came : visit.arrival = arrival) (own : visit.pfx = pfx) (measured : visit.nanos = nanos)
    (timed : visit.stage = .timed) (free : visit.held = []) (unread : visit.keys = none)
    (untouched : ∀ index, visit.added (.bucket visit.pfx index) = 0) :
    Conforms Visit.observe Visit.Fits
      (fun reached _ => reached.arrival = arrival ∧ reached.stage = .observed) visit
      ((Metrics.observe pfx nanos).expand registryJob) := by
  subst came own measured
  have indices : latencyBuckets.zipIdx.map Prod.snd = List.range latencyBuckets.length := by
    rfl
  have bounds : ∀ entry ∈ latencyBuckets.zipIdx, latencyBuckets[entry.2]? = some entry.1 :=
    fun entry member => List.mem_zipIdx_iff_getElem?.mp member
  have distinct : (latencyBuckets.zipIdx.map Prod.snd).Nodup := by
    rw [indices]
    exact List.nodup_range
  unfold Metrics.observe
  rw [expand_bind]
  apply Conforms.bind (conforms_observeBuckets free unread timed bounds distinct
    fun index _ => untouched index)
  rintro reached ⟨⟩ ⟨added, rfl, reaches, -⟩
  have fit : (Visit.under { visit with added := added } (.addCount visit.pfx)).FitsOp
      (.addCount visit.pfx) := by
    refine ⟨timed, rfl, ?_⟩
    rintro index ⟨bound, found, within⟩
    exact reaches (bound, index) (List.mem_zipIdx_iff_getElem?.mpr found) within
  refine conforms_step free unread fit ?_
  rintro ⟨⟩
  refine conforms_step free unread trivial ?_
  intro scaled
  apply @conforms_last _ (.addSum visit.pfx scaled)
  · exact free
  · exact unread
  · exact ⟨rfl, rfl⟩
  · rintro ⟨⟩
    exact ⟨rfl, rfl⟩

private theorem responseLabels_statusKey
    {statusClass : Text} (noBar : '|' ∉ statusClass) (pfx : Text) :
    responseLabels (statusKey statusClass pfx) = (statusClass, pfx) := by
  unfold responseLabels statusKey
  rw [splitOnce_append noBar]
  rfl

private theorem conforms_finish {statusClass : Text} (noBar : '|' ∉ statusClass) (request : Request)
    (started : Nat) :
    Conforms Visit.observe Visit.Fits
      (fun reached _ => reached.arrival = .request request ∧ reached.stage = .observed)
      (sentVisit request)
      ((finish (prefixOf request) started (some statusClass)).expand registryJob) := by
  have labels := responseLabels_statusKey noBar (prefixOf request)
  refine conforms_step rfl rfl ⟨List.mem_cons_self, Or.inr ⟨rfl, rfl⟩⟩ ?_
  rintro ⟨⟩
  refine conforms_step rfl rfl ⟨rfl, fun _ => ⟨rfl, rfl⟩⟩ ?_
  rintro ⟨⟩
  refine conforms_step rfl rfl ⟨List.mem_cons_self, rfl, congrArg Prod.snd labels⟩ ?_
  rintro ⟨⟩
  refine conforms_step rfl rfl rfl ?_
  intro nanos
  refine conforms_step rfl rfl ⟨List.mem_cons_self, rfl, rfl⟩ ?_
  rintro ⟨⟩
  exact conforms_observe rfl rfl rfl rfl rfl rfl fun _ => rfl

/-! The handler -/

/-- A request before anything is sent. -/
def waitingVisit (request : Request) : Visit := { arrival := .request request }

variable {request : Request}

private theorem mannered_done (came : visit.arrival = .request request)
    (settled : visit.stage = .waiting ∨ visit.stage = .observed) (response : Response) :
    Mannered seconds visit (.done response) := by
  rw [Mannered, conforms_done, Visit.Ends, came]
  exact settled

private theorem mannered_rejected {counter : Counter} (other : counter ≠ .requests) (pfx : Text)
    (response : Response) :
    Mannered seconds (waitingVisit request)
      (expand locked (onRegistry (do
        Metrics.step (.countersFor pfx)
        Metrics.step (.fetchAdd pfx counter))) >>= fun _ => .done response) := by
  rw [expand_onRegistry]
  apply Conforms.bind (@conforms_counted (waitingVisit request) _ rfl rfl rfl other pfx)
  rintro reached ⟨⟩ ⟨came, waiting⟩
  exact mannered_done came (Or.inl waiting) response

private theorem mannered_finish {statusClass : Text} (listed : statusClass ∈ statusClasses)
    (started : Nat) (response : Response) :
    Mannered seconds (sentVisit request)
      ((finishTimer (some ⟨prefixOf request, started⟩) statusClass >>= fun _ =>
        (.done response : Handler)).expand detail) := by
  have finishes := conforms_finish (noBar_of_statusClasses statusClass listed) request started
  rw [← expand_onRegistry] at finishes
  apply Conforms.bind finishes
  rintro reached ⟨⟩ ⟨came, observed⟩
  exact mannered_done came (Or.inr observed) response

private theorem mannered_deliver (started : Nat) (response : WireResponse) :
    Mannered seconds (sentVisit request)
      ((deliver (some ⟨prefixOf request, started⟩) response).expand detail) := by
  have finishes := fun status found =>
    @mannered_finish seconds request _ (statusClass_mem status) started found
  unfold deliver
  refine conforms_inert trivial ?_
  intro _
  cases copyHeaders response.headers with
  | none => exact finishes _ _
  | some headers => exact finishes _ _

private theorem mannered_conclude (pfx : Text) (breaker : Option CircuitBreaker) (started : Nat)
    (sent : Except SendError WireResponse) :
    Mannered seconds (sentVisit request)
      ((conclude pfx breaker (some ⟨prefixOf request, started⟩) sent).expand detail) := by
  have failed : "5xx".toList ∈ statusClasses := by decide
  cases sent with
  | ok response =>
      cases breaker with
      | none => exact mannered_deliver started response
      | some breaker => exact conforms_inert trivial fun _ => mannered_deliver started response
  | error err =>
      cases breaker with
      | none => exact mannered_finish failed started _
      | some breaker => exact conforms_inert trivial fun _ => mannered_finish failed started _

section

variable {urls : UrlCrate} {scheme : Ed25519} {state : ProxyState scheme} {metrics : Router.Metrics}

private theorem mannered_exchange (measured : state.metrics = some metrics)
    (breaker : Option CircuitBreaker) (backend suffix : Text) :
    Mannered seconds (waitingVisit request)
      ((exchange urls state (prefixOf request) breaker backend suffix request).expand detail) := by
  unfold exchange startTimer
  rw [measured]
  refine conforms_inert trivial ?_
  intro _
  cases request.body.toBytes bodyLimit with
  | error err => exact mannered_done rfl (Or.inl rfl) _
  | ok bodyBytes =>
      refine conforms_call.mpr ⟨rfl, ?_⟩
      intro started
      show Mannered seconds (sentVisit request) (expand detail (send urls _ >>= fun sent => _))
      unfold send
      split
      next => exact mannered_conclude (prefixOf request) breaker started (.error .builder)
      next url _ =>
        refine conforms_inert trivial ?_
        intro hops
        exact mannered_conclude (prefixOf request) breaker started (ending urls url hops).result

private theorem mannered_route (measured : state.metrics = some metrics) :
    Mannered seconds (waitingVisit request) ((route urls state request).expand detail) := by
  have onward : Mannered seconds (waitingVisit request)
      ((forward urls state (prefixOf request) (splitPath request.path).2 request).expand detail) := by
    unfold forward
    split
    next => exact mannered_done rfl (Or.inl rfl) _
    next backend _ =>
      split
      next => exact mannered_exchange measured none backend _
      next breaker _ =>
        refine conforms_inert trivial ?_
        intro admission
        cases admission with
        | call => exact mannered_exchange measured (some breaker) backend _
        | shortCircuit =>
            unfold countCircuitOpen
            rw [measured]
            exact mannered_rejected (by decide) _ _
  unfold route
  show Mannered seconds (waitingVisit request) (expand detail (if (splitPath request.path).1.isEmpty
    then pure (intoResponse .notFound [] "not found".toList)
    else forward urls state (splitPath request.path).1 (splitPath request.path).2 request))
  split
  next => exact mannered_done rfl (Or.inl rfl) _
  next => exact onward

private theorem mannered_rateLimit (measured : state.metrics = some metrics)
    (subject : Option Text) :
    Mannered seconds (waitingVisit request) ((rateLimit urls state subject request).expand detail) := by
  unfold rateLimit
  split
  next => exact mannered_route measured
  next limiter _ =>
    refine conforms_inert trivial ?_
    intro decision
    cases decision with
    | limit retryAfter =>
        unfold countRateLimited
        rw [measured]
        exact mannered_rejected (by decide) _ _
    | allow => exact mannered_route measured
    | opened => exact mannered_route measured

/-- A metered request makes its additions in the order of the code. -/
theorem mannered_request (json : Json.Codec) (measured : state.metrics = some metrics) :
    Mannered seconds (waitingVisit request) (requestJob json urls state request) := by
  rw [requestJob_eq]
  unfold proxyFallback
  split
  next => exact mannered_rateLimit measured none
  next auth _ =>
    refine conforms_inert trivial ?_
    intro now
    cases checkBearer json auth request now with
    | ok subject => exact mannered_rateLimit measured (some subject)
    | error response => exact mannered_done rfl (Or.inl rfl) response

end

/-! Scrapes -/

private theorem conforms_underLock {ends : Visit → α → Prop} {lock : Lock} {section' : Job α}
    (new : lock ∉ visit.held) (unread : visit.keys = none) (body : Conforms Visit.observe Visit.Fits
      (fun reached found => lock ∈ reached.held ∧
        ends { reached with held := reached.held.filter fun other => other ≠ lock } found)
      { visit with held := lock :: visit.held } section') :
    Conforms Visit.observe Visit.Fits ends visit (underLock lock section') := by
  refine conforms_call.mpr ⟨⟨new, unread⟩, fun _ => ?_⟩
  apply Conforms.bind body
  rintro reached found ⟨holds, ensures⟩
  exact conforms_call.mpr ⟨holds, fun _ => conforms_done.mpr ensures⟩

private theorem conforms_renderSeries {keys : Keys} {series : List Series} {past rest : List Series}
    {out : Text} (read : visit.keys = some keys) (holds : ∀ lock, lock ∈ visit.held)
    (walk : seriesOf keys = past ++ (series ++ rest))
    (seen : ∀ other, (visit.values other).isSome ↔ other ∈ past) :
    Conforms Visit.observe Visit.Fits
      (fun reached found => reached = { visit with values := reached.values } ∧
        (∀ other, (reached.values other).isSome ↔ other ∈ past ++ series) ∧
        ((seriesOf keys).Nodup → (∀ other ∈ past, reached.values other = visit.values other) ∧
          found = out ++ series.flatMap fun series => series.text seconds (reached.shown series)))
      visit ((renderSeries seconds series out).expand fun op => access (.render op)) := by
  induction series generalizing visit past out with
  | nil => exact conforms_done.mpr ⟨rfl, by simpa using seen, fun _ => ⟨fun _ _ => rfl, by simp⟩⟩
  | cons first later ih =>
      have next : visit.Next first := ⟨keys, past, later ++ rest, read, walk, seen⟩
      refine conforms_call.mpr ⟨⟨holds, next⟩, ?_⟩
      intro value
      have walkOn : seriesOf keys = (past ++ [first]) ++ (later ++ rest) := by
        simpa using walk
      have seenOn : ∀ other, ((visit.observe (.render (.load first)) value).values other).isSome ↔
          other ∈ past ++ [first] := by
        intro other
        by_cases same : other = first
        · simp [Visit.observe, same]
        · simp [Visit.observe, same, seen]
      refine Conforms.mono (ih read holds walkOn seenOn) ?_
      rintro reached found ⟨only, loaded, exact'⟩
      refine ⟨only, by simpa using loaded, ?_⟩
      intro distinct
      obtain ⟨kept, text⟩ := exact' distinct
      have fresh : first ∉ past := by
        rw [walk, List.nodup_append] at distinct
        intro again
        exact distinct.2.2 first again first List.mem_cons_self rfl
      refine ⟨?_, ?_⟩
      · intro other member
        have different : other ≠ first := fun same => fresh (same ▸ member)
        rw [kept other (List.mem_append_left _ member)]
        simp [Visit.observe, different]
      · have own : reached.shown first = value := by
          have here := kept first (by simp)
          simp only [Visit.shown, here]
          simp [Visit.observe]
        rw [text, List.flatMap_cons, own, List.append_assoc]

private theorem conforms_renderFamilies {keys : Keys} {rest : List Family} {past : List Series}
    {out : Text} (read : visit.keys = some keys) (holds : ∀ lock, lock ∈ visit.held)
    (walk : seriesOf keys = past ++ rest.flatMap Family.series)
    (seen : ∀ other, (visit.values other).isSome ↔ other ∈ past) :
    Conforms Visit.observe Visit.Fits
      (fun reached found => reached = { visit with values := reached.values } ∧
        (∀ other, (reached.values other).isSome ↔ other ∈ seriesOf keys) ∧
        ((seriesOf keys).Nodup → (∀ other ∈ past, reached.values other = visit.values other) ∧
          found = out ++ rest.flatMap fun family => family.text seconds reached.shown))
      visit ((renderFamilies seconds rest out).expand fun op => access (.render op)) := by
  induction rest generalizing visit past out with
  | nil =>
      have all : seriesOf keys = past := by simpa using walk
      rw [all]
      exact conforms_done.mpr ⟨rfl, seen, fun _ => ⟨fun _ _ => rfl, by simp⟩⟩
  | cons family later ih =>
      rw [List.flatMap_cons] at walk
      unfold renderFamilies
      rw [expand_bind]
      apply Conforms.bind (conforms_renderSeries read holds walk seen)
      rintro reached written ⟨only, loaded, exact'⟩
      have readOn : reached.keys = some keys := by rw [only]; exact read
      have holdsOn : ∀ lock, lock ∈ reached.held := by rw [only]; exact holds
      have walkOn : seriesOf keys = (past ++ family.series) ++ later.flatMap Family.series := by
        rw [walk, List.append_assoc]
      refine Conforms.mono (ih readOn holdsOn walkOn loaded) ?_
      rintro final found ⟨onlyOn, loadedOn, exactOn⟩
      refine ⟨by rw [onlyOn, only], loadedOn, ?_⟩
      intro distinct
      obtain ⟨kept, text⟩ := exact' distinct
      obtain ⟨keptOn, textOn⟩ := exactOn distinct
      refine ⟨?_, ?_⟩
      · intro other member
        rw [keptOn other (List.mem_append_left _ member), kept other member]
      · have same : ∀ series ∈ family.series, reached.shown series = final.shown series := by
          intro series member
          rw [Visit.shown, Visit.shown, keptOn series (List.mem_append_right _ member)]
        have lines : (family.series.flatMap fun series => series.text seconds (reached.shown series)) =
            family.series.flatMap fun series => series.text seconds (final.shown series) :=
          List.flatMap_congr fun series member => by rw [same series member]
        rw [textOn, text, lines, List.flatMap_cons, Family.text, List.append_assoc,
          List.append_assoc, List.append_assoc]

private theorem conforms_render (free : visit.keys = none) (holds : ∀ lock, lock ∈ visit.held)
    (unseen : ∀ series, visit.values series = none) :
    Conforms Visit.observe Visit.Fits
      (fun reached found => ∃ keys,
        reached = { visit with keys := some keys, values := reached.values } ∧
        (∀ other, (reached.values other).isSome ↔ other ∈ seriesOf keys) ∧
        ((seriesOf keys).Nodup → found = exposition seconds keys reached.shown))
      visit ((render seconds).expand fun op => access (.render op)) := by
  refine conforms_call.mpr ⟨⟨holds, free, unseen⟩, ?_⟩
  intro keys
  have seen : ∀ other, ((visit.observe (.render .keys) keys).values other).isSome ↔ other ∈ [] := by
    intro other
    simp [Visit.observe, unseen]
  have walk : seriesOf keys = [] ++ (families keys).flatMap Family.series := rfl
  refine Conforms.mono (conforms_renderFamilies rfl holds walk seen) ?_
  rintro reached found ⟨only, loaded, exact'⟩
  exact ⟨keys, only, loaded, fun distinct => by simpa [exposition] using (exact' distinct).2⟩

private theorem conforms_renderJob (free : visit.held = []) (unread : visit.keys = none)
    (unseen : ∀ series, visit.values series = none) :
    Conforms Visit.observe Visit.Fits
      (fun reached found => (reached.arrival = visit.arrival ∧ reached.stage = visit.stage) ∧
        ∃ keys, reached.keys = some keys ∧
        (∀ other, (reached.values other).isSome ↔ other ∈ seriesOf keys) ∧
        ((seriesOf keys).Nodup → found = exposition seconds keys reached.shown))
      visit (renderJob seconds) := by
  have taken : ∀ lock : Lock, lock ∈ [.breakerState, .statusTotals, .latencies, .perPrefix] := by
    intro lock
    cases lock <;> decide
  refine conforms_underLock (by simp [free]) unread ?_
  refine conforms_underLock (by simp [free]) unread ?_
  refine conforms_underLock (by simp [free]) unread ?_
  refine conforms_underLock (by simp [free]) unread ?_
  refine Conforms.mono (conforms_render unread (by simpa [free] using taken) unseen) ?_
  rintro reached found ⟨keys, only, loaded, text⟩
  rw [only]
  simp only [free]
  exact ⟨by decide, by decide, by decide, by decide, ⟨trivial, trivial⟩, keys, rfl, loaded, text⟩

private theorem conforms_readStates (breakers : List (Text × CircuitBreaker)) :
    Conforms Visit.observe Visit.Fits (fun reached _ => reached = visit) visit
      (readStates breakers) := by
  induction breakers with
  | nil => exact conforms_done.mpr rfl
  | cons entry rest ih =>
      refine conforms_call.mpr ⟨trivial, fun state => ?_⟩
      apply Conforms.bind ih
      rintro reached states rfl
      exact conforms_done.mpr rfl

private theorem conforms_publishStates (free : visit.held = []) (unread : visit.keys = none)
    (states : List (Text × State)) :
    Conforms Visit.observe Visit.Fits (fun reached _ => reached = visit) visit
      (publishStates states) := by
  induction states with
  | nil => exact conforms_done.mpr rfl
  | cons entry rest ih =>
      have published : Conforms Visit.observe Visit.Fits (fun reached _ => reached = visit) visit
          (underLock .breakerState (access (.setBreakerState entry.1 entry.2))) := by
        refine conforms_underLock (by simp [free]) unread (conforms_perform trivial fun _ => ?_)
        refine ⟨List.mem_cons_self, ?_⟩
        obtain ⟨arrival, stage, opened, statusKey, nanos, added, held, keys, values⟩ := visit
        cases free
        rfl
      apply Conforms.bind published
      rintro reached ⟨⟩ rfl
      exact ih

/-- A scrape loads what it shows and adds nothing. -/
theorem mannered_scrape {scheme : Ed25519} {state : ProxyState scheme} {metrics : Router.Metrics}
    (measured : state.metrics = some metrics) :
    Mannered seconds { arrival := .scrape } (metricsEndpoint seconds state) := by
  have rendered : Mannered seconds { arrival := .scrape }
      (renderJob seconds >>= fun body => .done (scrapeResponse body)) := by
    apply Conforms.bind (conforms_renderJob rfl rfl fun _ => rfl)
    rintro reached body ⟨⟨came, waiting⟩, keys, read, loaded, text⟩
    rw [conforms_done, Visit.Ends, came]
    exact ⟨waiting, keys, read, loaded, fun distinct => congrArg scrapeResponse (text distinct)⟩
  unfold metricsEndpoint
  rw [measured]
  cases state.breakers with
  | none => exact rendered
  | some breakers =>
      apply Conforms.bind (conforms_readStates _)
      rintro reached states rfl
      apply Conforms.bind (conforms_publishStates rfl rfl states)
      rintro reached ⟨⟩ rfl
      exact rendered

end

end Ratewall.Gateway
