import Ratewall.Foundation.Lock
import Ratewall.Gateway.World
import Ratewall.Metrics.Render

/-! Owns the gateway at the grain of `metrics.rs`: requests and scrapes side by side,
where taking a lock, giving it back, a critical section, a `fetch_add` and a load
are one step each. A request is the request of `World` with the three operations
that lock a map put between its lock and its release; the other steps of the
registry need no lock, since they go through an `Arc` that was handed out before.
A scrape is `metrics_endpoint`: it publishes the breakers' states and then renders
under all four locks.

A request or a scrape that has started runs to its end. One that never moves again
stands for a client that went away before anything was sent. -/

namespace Ratewall.Gateway

open Ratewall.Rust
open Ratewall.Foundation
open Ratewall.Foundation.Program
open Ratewall.Circuit
open Ratewall.Http
open Ratewall.Auth
open Ratewall.RateLimit
open Ratewall.Metrics
open Ratewall.Router

/-- The four mutexes of `Inner`. -/
inductive Lock where
  | perPrefix
  | latencies
  | statusTotals
  | breakerState
deriving DecidableEq, Repr

inductive Access where
  | action (action : Action)
  | acquire (lock : Lock)
  | release (lock : Lock)
  | breakerState (breaker : CircuitBreaker)
  | setBreakerState (pfx : Text) (state : State)
  | render (op : RenderOp)

@[reducible] def Granted : Access → Type
  | .action action => Outcome action
  | .breakerState _ => State
  | .render op => RenderAnswer op
  | _ => Unit

abbrev Job := Program Access Granted

@[reducible] def access (op : Access) : Job (Granted op) := perform op

def underLock {α : Type} (lock : Lock) (section' : Job α) : Job α := do
  access (.acquire lock)
  let found ← section'
  access (.release lock)
  pure found

/-! ### Requests -/

/-- The lock that a step of the registry is taken under. -/
def lockOf : RegistryOp → Option Lock
  | .countersFor _ => some .perPrefix
  | .countStatus _ => some .statusTotals
  | .latencyFor _ => some .latencies
  | _ => none

def registryJob (op : RegistryOp) : Job (RegistryAnswer op) :=
  match lockOf op with
  | some lock => underLock lock (access (.action (.registry op)))
  | none => access (.action (.registry op))

def locked : (action : Action) → Job (Outcome action)
  | .registry op => registryJob op
  | .handler op => access (.action (.handler op))
  | .redis op => access (.action (.redis op))

section

variable (json : Json.Codec) (urls : UrlCrate) {scheme : Ed25519} (state : ProxyState scheme)

def requestJob (request : Request) : Job Response :=
  (worldHandler json urls state request).expand locked

end

/-! ### Scrapes -/

/-- `Breakers::states`, one breaker after the other. -/
def readStates : List (Text × CircuitBreaker) → Job (List (Text × State))
  | [] => pure []
  | (pfx, breaker) :: rest => do
      let state ← access (.breakerState breaker)
      let states ← readStates rest
      pure ((pfx, state) :: states)

def publishStates : List (Text × State) → Job Unit
  | [] => pure ()
  | (pfx, state) :: rest => do
      underLock .breakerState (access (.setBreakerState pfx state))
      publishStates rest

/-- `Metrics::render`. The guards are dropped in the reverse of their order. -/
def renderJob (seconds : Nat → Text) : Job Text :=
  underLock .perPrefix (underLock .latencies (underLock .statusTotals (underLock .breakerState
    ((render seconds).expand fun op => access (.render op)))))

def expositionType : HeaderValue :=
  ⟨asBytes "text/plain; version=0.0.4; charset=utf-8".toList, by decide⟩

def scrapeResponse (body : Text) : Response where
  status := .ok
  headers := HeaderMap.empty.append (HeaderName.contentType, expositionType)
  body := asBytes body

def metricsEndpoint (seconds : Nat → Text) {scheme : Ed25519} (state : ProxyState scheme) :
    Job Response := do
  match state.metrics, state.breakers with
  | some _, some breakers => do
      let states ← readStates breakers.perBackend.toList
      publishStates states
  | _, _ => pure ()
  let body ←
    match state.metrics with
    | some _ => renderJob seconds
    | none => pure []
  pure (scrapeResponse body)

/-! ### What is shared -/

structure LockedWorld where
  world : World
  locks : Lock → Option Nat

def LockedWorld.registry (hall : LockedWorld) : Registry := hall.world.registry

def lockUse : Access → LockUse Lock
  | .acquire lock => .acquire lock
  | .release lock => .release lock
  | _ => .none

/-- What an access does to the world behind the locks. -/
def World.grant (world : World) (id : Nat) :
    (access : Access) → Granted access → Granted access × World
  | .action action, offer => world.act id action offer
  | .acquire _, _ => ((), world)
  | .release _, _ => ((), world)
  | .breakerState breaker, _ => ((world.shared.cells breaker.inner).state, world)
  | .setBreakerState pfx state, _ =>
      ((), { world with registry := world.registry.setBreakerState pfx state })
  | .render .keys, _ => (world.registry.keys, world)
  | .render (.load series), _ => (world.registry.read series, world)

def LockedWorld.act (hall : LockedWorld) (id : Nat) (access : Access) (offer : Granted access) :
    Granted access × LockedWorld :=
  ((hall.world.grant id access offer).1,
    { world := (hall.world.grant id access offer).2
      locks := (lockUse access).owners id hall.locks })

inductive Passage where
  | gateway (change : Change)
  | clock (millis : Nat)
deriving DecidableEq, Repr

def LockedWorld.pass (hall : LockedWorld) : Passage → LockedWorld
  | .gateway change =>
      { hall with world := { hall.world with shared := ambient hall.world.shared change } }
  | .clock millis =>
      { hall with world := { hall.world with server := hall.world.server.tick millis } }

/-! ### History -/

inductive Arrival where
  | request (request : Request)
  | scrape

/-- How far a request has come with its metrics: nowhere, to `start_request`, which
stands right before `send`, to its counters, and through the parts of `finish`. -/
inductive Stage where
  | waiting
  | sent
  | listed
  | counted
  | classed
  | timed
  | observed
deriving DecidableEq, Repr

def Stage.rank : Stage → Nat
  | .waiting => 0
  | .sent => 1
  | .listed => 2
  | .counted => 3
  | .classed => 4
  | .timed => 5
  | .observed => 6

/-- What a thread has seen and done. `opened` is the label whose counters it has,
`statusKey` the key that it counted its status under, `nanos` the duration that it
measured, `added` what it added to each atomic; `keys` and `values` are what a
scrape has read. -/
structure Visit where
  arrival : Arrival
  stage : Stage := .waiting
  opened : Option Text := none
  statusKey : Option Text := none
  nanos : Nat := 0
  added : Atomic → Nat := fun _ => 0
  held : List Lock := []
  keys : Option Keys := none
  values : Series → Option Nat := fun _ => none

namespace Visit

def pfx (visit : Visit) : Text :=
  match visit.arrival with
  | .request request => prefixOf request
  | .scrape => []

/-- What a step of the registry means for the thread that makes it. -/
def advance (visit : Visit) : (op : RegistryOp) → RegistryAnswer op → Visit
  | .countersFor pfx, _ =>
      { visit with
        opened := some pfx
        stage := if visit.stage = .sent then .listed else visit.stage }
  | .fetchAdd _ .requests, _ => { visit with stage := .counted }
  | .countStatus key, _ => { visit with stage := .classed, statusKey := some key }
  | .elapsed _, nanos => { visit with nanos := nanos }
  | .latencyFor _, _ => { visit with stage := .timed }
  | .addCount _, _ => { visit with stage := .observed }
  | _, _ => visit

def observe (visit : Visit) : (access : Access) → Granted access → Visit
  | .action (.handler .instantNow), _ => { visit with stage := .sent }
  | .action (.registry op), answer =>
      { visit.advance op answer with added := fun atomic => visit.added atomic + op.adds atomic }
  | .acquire lock, _ => { visit with held := lock :: visit.held }
  | .release lock, _ => { visit with held := visit.held.filter fun other => other ≠ lock }
  | .render .keys, keys => { visit with keys := some keys }
  | .render (.load series), value =>
      { visit with values := Function.update visit.values series (some value) }
  | _, _ => visit

section

variable (visit : Visit) (op : RegistryOp) (answer : RegistryAnswer op)

/-- A step of the registry leaves alone what belongs to the locks and to scrapes. -/
theorem advance_eq :
    (visit.advance op answer).held = visit.held ∧ (visit.advance op answer).keys = visit.keys ∧
      (visit.advance op answer).values = visit.values := by
  cases op with
  | fetchAdd pfx counter => cases counter <;> exact ⟨rfl, rfl, rfl⟩
  | _ => exact ⟨rfl, rfl, rfl⟩

@[simp] theorem advance_held : (visit.advance op answer).held = visit.held :=
  (advance_eq visit op answer).1

@[simp] theorem advance_keys : (visit.advance op answer).keys = visit.keys :=
  (advance_eq visit op answer).2.1

@[simp] theorem advance_values : (visit.advance op answer).values = visit.values :=
  (advance_eq visit op answer).2.2

end

/-- A visit holds the locks that its accesses took and did not give back. -/
theorem held_observe (visit : Visit) (access : Access) (answer : Granted access) :
    (visit.observe access answer).held = (lockUse access).held visit.held := by
  cases access with
  | action action =>
      cases action with
      | handler op => cases op <;> rfl
      | redis op => rfl
      | registry op => exact advance_held visit op answer
  | render op => cases op <;> rfl
  | _ => rfl

end Visit

/-! ### The machine -/

section

variable (json : Json.Codec) (urls : UrlCrate) (seconds : Nat → Text) {scheme : Ed25519}
  (state : ProxyState scheme)

def lockedSystem : System Access Granted Response Visit LockedWorld Arrival Passage where
  body := fun arrival =>
    match arrival with
    | .request request => requestJob json urls state request
    | .scrape => metricsEndpoint seconds state
  note := fun arrival => { arrival := arrival }
  act := LockedWorld.act
  observe := Visit.observe
  ambient := LockedWorld.pass

def lockedLocking : Pool.Locking (lockedSystem json urls seconds state) Lock where
  use := lockUse
  locks := LockedWorld.locks
  held := Visit.held
  locks_act := fun _ _ _ _ => rfl
  locks_ambient := by
    intro hall passage
    cases passage with
    | gateway change => rfl
    | clock millis => rfl
  held_note := fun _ => rfl
  held_observe := Visit.held_observe

abbrev Hall := Pool Access Granted Response Visit LockedWorld
abbrev HallEvent := Pool.Event Access Granted Arrival Passage

def lockedStep : Hall → HallEvent → Option Hall :=
  Pool.lockStep (lockedLocking json urls seconds state)

end

/-- A gateway that has just started: nobody has a lock. -/
def LockedWorld.init (instant millis : Nat) : LockedWorld :=
  ⟨World.init instant millis, fun _ => none⟩

end Ratewall.Gateway
