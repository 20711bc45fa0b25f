import Ratewall.RateLimit.Budget
import Ratewall.Router.Assembly

/-! Owns the budgets of routes and of clients. `proxy_fallback` asks the limiter
before it parses the path, under a key that names the caller and the window and no
prefix. So all routes of a caller share one budget, and requests to one of them can
use up what another was to have. Without a gate there is no caller to name, and the
key has a constant in the place of the client's address: then all clients share one
budget too. -/

namespace Ratewall.Router

open Ratewall.Rust
open Ratewall.Foundation
open Ratewall.Config
open Ratewall.RateLimit

/-- A request where the limiter is asked. -/
structure Arrival where
  subject : Option Text
  path : Text
deriving DecidableEq, Repr

/-- The request is for the prefix. -/
def Arrival.isFor (pfx : Text) (arrival : Arrival) : Bool := (splitPath arrival.path).1 = pfx

/-- What one subject is told in a run of the limiter. -/
def toldInRun (limiter : RateLimiter) (subject : Text) (start : Nat)
    (events : List (LimitingEvent Arrival)) : List (Charge Arrival × Verdict) :=
  toldTo Arrival.subject subject
    (limitLog (requestKey Arrival.subject) limiter ⟨.empty, start⟩ events)

abbrev limiterStep (limiter : RateLimiter) :
    Limiting Arrival → LimitingEvent Arrival → Option (Limiting Arrival) :=
  limitingStep limiter (requestKey Arrival.subject)

/-- The requests of a subject for one prefix are told the same without its requests
for another prefix exactly when, for each of them that hears from Redis, the hits
that stand under its key with those requests and without them lie on the same side
of the limit. -/
theorem route_budgets_apart_iff (limiter : RateLimiter) (subject watched removed : Text)
    (distinct : watched ≠ removed) (start start' : Nat)
    (events events' : List (LimitingEvent Arrival)) (final final' : Limiting Arrival)
    (ran : run (limiterStep limiter) (Pool.init ⟨.empty, start⟩) events = some final)
    (ran' : run (limiterStep limiter) (Pool.init ⟨.empty, start'⟩) events' = some final')
    (without : (toldInRun limiter subject start' events').map Prod.fst =
      ((toldInRun limiter subject start events).map Prod.fst).filter fun charge =>
        !charge.input.isFor removed) :
    decisionsOf (Arrival.isFor watched) (toldInRun limiter subject start events) =
        decisionsOf (Arrival.isFor watched) (toldInRun limiter subject start' events') ↔
      ∀ earlier charge later,
        (toldInRun limiter subject start events).map Prod.fst = earlier ++ charge :: later →
        charge.input.isFor watched = true → charge.fate = some .delivered →
        Redis.Sets charge.moment limiter.windowSecs.toNat →
        limiter.SameSide
          (standing limiter.lifetime charge.moment (hitsBefore earlier charge.window))
          (standing limiter.lifetime charge.moment
            (hitsBefore (earlier.filter fun other => !other.input.isFor removed)
              charge.window)) := by
  apply decisions_without_iff _ _ ran ran' (toldTo_eq_history ran subject)
    (toldTo_eq_history ran' subject) without
  intro arrival isWatched
  unfold Arrival.isFor at isWatched ⊢
  have isPrefix := of_decide_eq_true isWatched
  exact decide_eq_false (by rw [isPrefix]; exact distinct)

def crmArrival : Arrival := ⟨some "alice".toList, "/crm/accounts".toList⟩
def hrmArrival : Arrival := ⟨some "alice".toList, "/hrm/leave".toList⟩

def pairLimiter : RateLimiter := ⟨2, Duration.fromSecs 60, []⟩

def hrmThenCrm : List (LimitingEvent Arrival) := decides 0 hrmArrival ++ decides 1 crmArrival

def crmOnly : List (LimitingEvent Arrival) := decides 0 crmArrival

def chargeAtZero (arrival : Arrival) : Charge Arrival := ⟨arrival, 0, 0, some .delivered⟩

/-- Within a limit of two, one request for each prefix. -/
theorem route_budgets_apart_iff_within_limit :
    decisionsOf (Arrival.isFor "crm".toList)
        (toldInRun pairLimiter "alice".toList 0 hrmThenCrm) =
      decisionsOf (Arrival.isFor "crm".toList) (toldInRun pairLimiter "alice".toList 0 crmOnly) ∧
    pairLimiter.SameSide
      (standing pairLimiter.lifetime 0 (hitsBefore [chargeAtZero hrmArrival] 0))
      (standing pairLimiter.lifetime 0 (hitsBefore ([chargeAtZero hrmArrival].filter
        fun other => !other.input.isFor "hrm".toList) 0)) := by
  have both : decisionsOf (Arrival.isFor "crm".toList)
        (toldInRun pairLimiter "alice".toList 0 hrmThenCrm) =
      [(chargeAtZero crmArrival, .allow)] := rfl
  have alone : decisionsOf (Arrival.isFor "crm".toList)
        (toldInRun pairLimiter "alice".toList 0 crmOnly) =
      [(chargeAtZero crmArrival, .allow)] := rfl
  have split : (toldInRun pairLimiter "alice".toList 0 hrmThenCrm).map Prod.fst =
      [chargeAtZero hrmArrival] ++ chargeAtZero crmArrival :: [] := rfl
  have without : (toldInRun pairLimiter "alice".toList 0 crmOnly).map Prod.fst =
      ((toldInRun pairLimiter "alice".toList 0 hrmThenCrm).map Prod.fst).filter fun charge =>
        !charge.input.isFor "hrm".toList := by
    rw [split]
    rfl
  obtain ⟨final, ran⟩ : ∃ final,
      run (limiterStep pairLimiter) (Pool.init ⟨.empty, 0⟩) hrmThenCrm = some final := ⟨_, rfl⟩
  obtain ⟨final', ran'⟩ : ∃ final,
      run (limiterStep pairLimiter) (Pool.init ⟨.empty, 0⟩) crmOnly = some final := ⟨_, rfl⟩
  have sides := (route_budgets_apart_iff pairLimiter "alice".toList "crm".toList "hrm".toList
    (by decide) 0 0 hrmThenCrm crmOnly final final' ran ran' without).mp (both.trans alone.symm)
  exact ⟨both.trans alone.symm, sides _ _ _ split rfl rfl (by decide)⟩

/-- With a limit of one, the request to `hrm` uses up what the one to `crm` was to
have. -/
theorem route_budgets_mix :
    ¬ ∀ (limiter : RateLimiter) (routes : List Route) (subject watched removed : Text),
      watched ∈ prefixes routes → removed ∈ prefixes routes → watched ≠ removed →
      ∀ (start start' : Nat) (events events' : List (LimitingEvent Arrival))
        (final final' : Limiting Arrival),
        run (limiterStep limiter) (Pool.init ⟨.empty, start⟩) events = some final →
        run (limiterStep limiter) (Pool.init ⟨.empty, start'⟩) events' = some final' →
        (toldInRun limiter subject start' events').map Prod.fst =
          ((toldInRun limiter subject start events).map Prod.fst).filter (fun charge =>
            !charge.input.isFor removed) →
        decisionsOf (Arrival.isFor watched) (toldInRun limiter subject start events) =
          decisionsOf (Arrival.isFor watched) (toldInRun limiter subject start' events') := by
  intro always
  have claimed := always strictLimiter
    [⟨"crm".toList, "http://crm:8000".toList⟩, ⟨"hrm".toList, "http://hrm:8000".toList⟩]
    "alice".toList "crm".toList "hrm".toList (by decide) (by decide) (by decide) 0 0
    hrmThenCrm crmOnly _ _ rfl rfl rfl
  have first : (decisionsOf (Arrival.isFor "crm".toList) (toldInRun strictLimiter "alice".toList 0
      hrmThenCrm)).map Prod.snd = [.limit 60] := by decide +kernel
  rw [claimed] at first
  cases first

/-! ### Clients without a token -/

/-- A request, and the address of the connection that it came over. -/
structure Connected where
  clientIp : Text
  request : Http.Request

/-- The limit key that `proxy_fallback` derives without a gate. -/
def ungatedKey : Connected → Text := requestKey fun _ => none

def Connected.isFrom (clientIp : Text) (connected : Connected) : Bool :=
  connected.clientIp = clientIp

/-- Without a gate the limiter comes first, under the constant key. -/
theorem proxyFallback_ungated (urls : Http.UrlCrate) {scheme : Auth.Ed25519}
    {state : ProxyState scheme} {limiter : RateLimiter} (json : Json.Codec)
    (connected : Connected) (ungated : state.auth = none) (limited : state.limiter = some limiter) :
    ∃ next, proxyFallback urls state json connected.request =
      .call (.decide limiter (ungatedKey connected)) next := by
  simp only [proxyFallback, ungated, rateLimit, limited]
  exact ⟨_, rfl⟩

/-- What all clients are told in a run of the limiter. -/
def toldUngated (limiter : RateLimiter) (start : Nat) (events : List (LimitingEvent Connected)) :
    List (Charge Connected × Verdict) :=
  (limitLog ungatedKey limiter ⟨.empty, start⟩ events).map fun access =>
    (access.input, access.answer)

private theorem toldUngated_eq_history {limiter : RateLimiter} {start : Nat}
    {events : List (LimitingEvent Connected)} {final : Limiting Connected}
    (ran : run (limitingStep limiter ungatedKey) (Pool.init ⟨.empty, start⟩) events = some final) :
    toldUngated limiter start events =
      historyOf (limitLog ungatedKey limiter ⟨.empty, start⟩ events)
        (limitKey none "unkeyed".toList) := by
  unfold toldUngated historyOf
  congr 1
  symm
  apply List.filter_eq_self.mpr
  intro access member
  exact decide_eq_true (cell_of_mem_limitLog ran access member)

/-- Without a gate every request is put to the limiter under the one key. The
requests of one client are then told the same as without all other clients exactly
when, for each of them that hears from Redis, the hits of all clients that stand under
the key and those of this client alone lie on the same side of the limit. -/
theorem client_budgets_apart_iff (urls : Http.UrlCrate) {scheme : Auth.Ed25519}
    (state : ProxyState scheme) (json : Json.Codec) (ungated : state.auth = none)
    (limiter : RateLimiter) (limited : state.limiter = some limiter) (clientIp : Text)
    (start start' : Nat) (events events' : List (LimitingEvent Connected))
    (final final' : Limiting Connected)
    (ran : run (limitingStep limiter ungatedKey) (Pool.init ⟨.empty, start⟩) events = some final)
    (ran' : run (limitingStep limiter ungatedKey) (Pool.init ⟨.empty, start'⟩) events' =
      some final')
    (alone : (toldUngated limiter start' events').map Prod.fst =
      ((toldUngated limiter start events).map Prod.fst).filter fun charge =>
        charge.input.isFrom clientIp) :
    (∀ connected : Connected, ∃ next, proxyFallback urls state json connected.request =
        .call (.decide limiter (ungatedKey connected)) next) ∧
      (decisionsOf (Connected.isFrom clientIp) (toldUngated limiter start events) =
          decisionsOf (Connected.isFrom clientIp) (toldUngated limiter start' events') ↔
        ∀ earlier charge later,
          (toldUngated limiter start events).map Prod.fst = earlier ++ charge :: later →
          charge.input.isFrom clientIp = true → charge.fate = some .delivered →
          Redis.Sets charge.moment limiter.windowSecs.toNat →
          limiter.SameSide
            (standing limiter.lifetime charge.moment (hitsBefore earlier charge.window))
            (standing limiter.lifetime charge.moment
              (hitsBefore (earlier.filter fun other => other.input.isFrom clientIp)
                charge.window))) := by
  refine ⟨fun connected => proxyFallback_ungated urls json connected ungated limited, ?_⟩
  have others : ∀ connected : Connected,
      (!(!connected.isFrom clientIp)) = connected.isFrom clientIp := fun _ => Bool.not_not _
  have decided := @decisions_without_iff Connected ungatedKey limiter
    (Connected.isFrom clientIp) (fun connected => !connected.isFrom clientIp)
    (fun connected isFrom => by rw [isFrom]; rfl) _ _ _ _ _ _ _ ran ran' _ _
    (toldUngated_eq_history ran) (toldUngated_eq_history ran')
  simp only [others] at decided
  exact decided alone

def fromClient (clientIp : Text) : Connected where
  clientIp := clientIp
  request := ⟨.get, "/crm".toList, none, .empty, ⟨[], none⟩⟩

def ungatedState (limiter : RateLimiter) : ProxyState Auth.checksumScheme :=
  (ProxyState.new [⟨"crm".toList, "http://crm:8000".toList⟩]).withLimiter limiter

/-- A request of another client, then one of the watched client. -/
def otherThenOwn : List (LimitingEvent Connected) :=
  decides 0 (fromClient "10.0.0.2".toList) ++ decides 1 (fromClient "10.0.0.1".toList)

def ownOnly : List (LimitingEvent Connected) := decides 0 (fromClient "10.0.0.1".toList)

def clientCharge (clientIp : Text) : Charge Connected :=
  ⟨fromClient clientIp, 0, 0, some .delivered⟩

/-- Within a limit of two, one request of each client. -/
theorem client_budgets_apart_iff_within_limit :
    decisionsOf (Connected.isFrom "10.0.0.1".toList) (toldUngated pairLimiter 0 otherThenOwn) =
      decisionsOf (Connected.isFrom "10.0.0.1".toList) (toldUngated pairLimiter 0 ownOnly) ∧
    pairLimiter.SameSide
      (standing pairLimiter.lifetime 0 (hitsBefore [clientCharge "10.0.0.2".toList] 0))
      (standing pairLimiter.lifetime 0 (hitsBefore ([clientCharge "10.0.0.2".toList].filter
        fun other => other.input.isFrom "10.0.0.1".toList) 0)) := by
  have both : decisionsOf (Connected.isFrom "10.0.0.1".toList)
        (toldUngated pairLimiter 0 otherThenOwn) =
      [(clientCharge "10.0.0.1".toList, .allow)] := rfl
  have own : decisionsOf (Connected.isFrom "10.0.0.1".toList)
        (toldUngated pairLimiter 0 ownOnly) =
      [(clientCharge "10.0.0.1".toList, .allow)] := rfl
  have split : (toldUngated pairLimiter 0 otherThenOwn).map Prod.fst =
      [clientCharge "10.0.0.2".toList] ++ clientCharge "10.0.0.1".toList :: [] := rfl
  have alone : (toldUngated pairLimiter 0 ownOnly).map Prod.fst =
      ((toldUngated pairLimiter 0 otherThenOwn).map Prod.fst).filter fun charge =>
        charge.input.isFrom "10.0.0.1".toList := by
    rw [split]
    rfl
  obtain ⟨final, ran⟩ : ∃ final, run (limitingStep pairLimiter ungatedKey)
      (Pool.init ⟨.empty, 0⟩) otherThenOwn = some final := ⟨_, rfl⟩
  obtain ⟨final', ran'⟩ : ∃ final, run (limitingStep pairLimiter ungatedKey)
      (Pool.init ⟨.empty, 0⟩) ownOnly = some final := ⟨_, rfl⟩
  have sides := (client_budgets_apart_iff Http.plainUrls (ungatedState pairLimiter)
    Json.Text.flatCodec rfl pairLimiter rfl "10.0.0.1".toList 0 0 otherThenOwn ownOnly final final'
    ran ran' alone).2.mp (both.trans own.symm)
  exact ⟨both.trans own.symm, sides _ _ _ split rfl rfl (by decide)⟩

/-- With a limit of one, the request of one client uses up what another was to
have. -/
theorem client_budgets_mix :
    ¬ ∀ (limiter : RateLimiter) (clientIp : Text) (start start' : Nat)
      (events events' : List (LimitingEvent Connected)) (final final' : Limiting Connected),
      run (limitingStep limiter ungatedKey) (Pool.init ⟨.empty, start⟩) events = some final →
      run (limitingStep limiter ungatedKey) (Pool.init ⟨.empty, start'⟩) events' = some final' →
      (toldUngated limiter start' events').map Prod.fst =
        ((toldUngated limiter start events).map Prod.fst).filter (fun charge =>
          charge.input.isFrom clientIp) →
      decisionsOf (Connected.isFrom clientIp) (toldUngated limiter start events) =
        decisionsOf (Connected.isFrom clientIp) (toldUngated limiter start' events') := by
  intro always
  have claimed := always strictLimiter "10.0.0.1".toList 0 0 otherThenOwn ownOnly _ _ rfl rfl rfl
  have first : (decisionsOf (Connected.isFrom "10.0.0.1".toList) (toldUngated strictLimiter 0
      otherThenOwn)).map Prod.snd = [.limit 60] := by decide +kernel
  rw [claimed] at first
  cases first

end Ratewall.Router
