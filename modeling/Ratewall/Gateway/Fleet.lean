import Ratewall.Foundation.Tally
import Ratewall.Gateway.World
import Ratewall.RateLimit.Ledger

/-! Owns a fleet: any number of replicas of the gateway, each with its own routes, keys,
breakers, registry and monotonic clock, over one Redis and one wall clock. A call of a
request is answered by the world that its replica lives in, so one replica is exactly
the gateway of `World`. What a request has been told by the gate and the limiter, and
whether it has been sent on, is history. -/

namespace Ratewall.Gateway

open Ratewall.Rust
open Ratewall.Foundation
open Ratewall.Foundation.Program
open Ratewall.Config
open Ratewall.Circuit
open Ratewall.Http
open Ratewall.Auth
open Ratewall.RateLimit
open Ratewall.Metrics
open Ratewall.Router

/-- The settings of a replica. The limiter's are common to all. -/
structure Replica (scheme : Ed25519) where
  routes : List Route
  auth : AuthState scheme
  cfg : BreakerConfig
  timeoutSecs : UInt64

def Replica.state {scheme : Ed25519} (replica : Replica scheme) (limiter : RateLimiter) :
    ProxyState scheme :=
  ProxyState.assembled replica.routes replica.auth limiter replica.cfg replica.timeoutSecs

/-- What a replica shares with no other. -/
structure Local where
  shared : Shared
  registry : Registry

structure Fleet (ρ : Type) where
  server : Server
  locals : ρ → Local

section

variable {ρ : Type}

/-- The world as one replica sees it. -/
def Fleet.world (fleet : Fleet ρ) (replica : ρ) : World where
  shared := (fleet.locals replica).shared
  server := fleet.server
  registry := (fleet.locals replica).registry

def Fleet.put [DecidableEq ρ] (fleet : Fleet ρ) (replica : ρ) (world : World) : Fleet ρ where
  server := world.server
  locals := Function.update fleet.locals replica ⟨world.shared, world.registry⟩

@[reducible] def FleetOutcome (made : ρ × Action) : Type := Outcome made.2

def onReplica {α : Type} (replica : ρ) (program : Program Action Outcome α) :
    Program (ρ × Action) FleetOutcome α :=
  program.expand fun action => perform (replica, action)

def Fleet.act [DecidableEq ρ] (fleet : Fleet ρ) (id : Nat) (made : ρ × Action) (offer : FleetOutcome made) :
    FleetOutcome made × Fleet ρ :=
  let answered := (fleet.world made.1).act id made.2 offer
  (answered.1, fleet.put made.1 answered.2)

/-- A request at a replica, with what the gate and the limiter have told it -/
structure Journey (ρ : Type) where
  replica : ρ
  request : Request
  subject : Option Text
  window : Option Nat
  decision : Option Decision
  sent : Bool

abbrev Fleets (ρ : Type) := Pool (ρ × Action) FleetOutcome Response (Journey ρ) (Fleet ρ)

abbrev FleetEvent (ρ : Type) :=
  Pool.Event (ρ × Action) FleetOutcome (ρ × Request) (ρ × Happening)

section

variable (json : Json.Codec) (urls : UrlCrate) {scheme : Ed25519} (limiter : RateLimiter)
  (replicas : ρ → Replica scheme)

def fleetHandler (replica : ρ) (request : Request) :
    Program (ρ × Action) FleetOutcome Response :=
  onReplica replica (worldHandler json urls ((replicas replica).state limiter) request)

def Journey.observe (journey : Journey ρ) :
    (made : ρ × Action) → FleetOutcome made → Journey ρ
  | (_, .handler .unixNow), now =>
      { journey with
        subject := (checkBearer json (replicas journey.replica).auth journey.request now).toOption }
  | (_, .handler (.send _)), _ => { journey with sent := true }
  | (_, .redis .systemTime), now =>
      { journey with window := some (limiter.windowKeySuffix now) }
  | (_, .redis .connect), connected =>
      if connected then journey else { journey with decision := some .opened }
  | (_, .redis (.transact _ _)), reply =>
      { journey with decision := some (limiter.decision reply) }
  | _, _ => journey

/-- The wall clock is the fleet's; everything else happens to one replica. -/
def Fleet.change [DecidableEq ρ] (fleet : Fleet ρ) (happening : ρ × Happening) : Fleet ρ :=
  fleet.put happening.1
    ((fleet.world happening.1).change ((replicas happening.1).state limiter) happening.2)

def fleetSystem [DecidableEq ρ] :
    System (ρ × Action) FleetOutcome Response (Journey ρ) (Fleet ρ) (ρ × Request)
      (ρ × Happening) where
  body := fun input => fleetHandler json urls limiter replicas input.1 input.2
  note := fun input => ⟨input.1, input.2, none, none, none, false⟩
  act := Fleet.act
  observe := Journey.observe json limiter replicas
  ambient := Fleet.change limiter replicas

def fleetStep [DecidableEq ρ] : Fleets ρ → FleetEvent ρ → Option (Fleets ρ) :=
  Pool.step (fleetSystem json urls limiter replicas)

end

/-- Replicas that have just started, over an empty Redis. -/
def Fleet.init (locals : ρ → Local) (millis : Nat) : Fleet ρ := ⟨⟨.empty, millis⟩, locals⟩

/-! ### What a run shows -/

/-- The transactions, each with what its caller is told. -/
def charged (limiter : RateLimiter) (before : Fleets ρ) :
    FleetEvent ρ → Option (LedgerEntry (Option Text))
  | .exec id offer =>
      match before.threads id with
      | some ⟨journey, .call (replica, .redis (.transact key secs)) _⟩ =>
          let offered : Reply := offer (replica, .redis (.transact key secs))
          let reply : Reply := (before.shared.server.act id (.transact key secs) offered).1
          some ⟨limitKey journey.subject "unkeyed".toList,
            ⟨journey.subject, journey.window.getD 0, before.shared.server.now, some offered.fate⟩,
            ⟨some reply, limiter.decision reply⟩⟩
      | _ => none
  | _ => none

/-- The exchanges with backends, each with the journey of its request. -/
def exchanged (before : Fleets ρ) : FleetEvent ρ → List (Journey ρ)
  | .exec id _ =>
      match before.threads id with
      | some ⟨journey, .call (_, .handler (.send _)) _⟩ => [journey]
      | _ => []
  | _ => []

section

variable (json : Json.Codec) (urls : UrlCrate) {scheme : Ed25519} (limiter : RateLimiter)
  (replicas : ρ → Replica scheme)

def fleetLedger [DecidableEq ρ] (start : Fleets ρ) (events : List (FleetEvent ρ)) : Ledger (Option Text) :=
  trail (fleetStep json urls limiter replicas) (fun pool event => (charged limiter pool event).toList)
    start events

def fleetExchanges [DecidableEq ρ] (start : Fleets ρ) (events : List (FleetEvent ρ)) : List (Journey ρ) :=
  trail (fleetStep json urls limiter replicas) exchanged start events

end

end

end Ratewall.Gateway
