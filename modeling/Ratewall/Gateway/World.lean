import Ratewall.Gateway.Readiness
import Ratewall.Metrics
import Ratewall.RateLimit.Limiting
import Ratewall.Router.Assembly

/-! Owns the gateway together with what it shares with its surroundings: the
breakers, Redis, both clocks and the metrics registry. A request is its handler
with every call to the limiter and to the registry replaced by the calls that
these make in turn, so that requests interleave inside them as well. Redis and the
clocks answer from their own state here; the surroundings only choose which
replies are lost, how exchanges go and how time passes. -/

namespace Ratewall.Gateway

open Ratewall.Rust
open Ratewall.Foundation
open Ratewall.Foundation.Program
open Ratewall.Config
open Ratewall.Circuit
open Ratewall.Http
open Ratewall.Auth
open Ratewall.RateLimit
open Ratewall.Metrics
open Ratewall.Router

structure World where
  shared : Shared
  server : Server
  registry : Registry

inductive Action where
  | handler (op : Op)
  | redis (op : CounterOp)
  | registry (op : RegistryOp)

@[reducible] def Outcome : Action → Type
  | .handler op => Answer op
  | .redis op => CounterAnswer op
  | .registry op => RegistryAnswer op

def onRedis {α : Type} (program : Program CounterOp CounterAnswer α) : Program Action Outcome α :=
  program.expand fun op => perform (Action.redis op)

def onRegistry {α : Type} (program : Program RegistryOp RegistryAnswer α) :
    Program Action Outcome α :=
  program.expand fun op => perform (Action.registry op)

/-- What a call of the handler comes down to. -/
def meaning : (op : Op) → Program Action Outcome (Answer op)
  | .decide limiter key => onRedis (limiter.decide key)
  | .incRateLimited pfx => onRegistry (incRateLimited pfx)
  | .incCircuitOpen pfx => onRegistry (incCircuitOpen pfx)
  | .finish timer statusClass => onRegistry (finish timer.pfx timer.started (some statusClass))
  | op => perform (Action.handler op)

theorem all_onRedis {property : Action → Prop} {β : Type}
    {program : Program CounterOp CounterAnswer β}
    (all : All (fun op => property (.redis op)) program) : All property (onRedis program) := by
  apply All.expand
  apply all.mono
  intro op holds
  exact ⟨holds, fun _ => trivial⟩

theorem all_onRegistry {property : Action → Prop} {β : Type}
    {program : Program RegistryOp RegistryAnswer β}
    (all : All (fun op => property (.registry op)) program) :
    All property (onRegistry program) := by
  apply All.expand
  apply all.mono
  intro op holds
  exact ⟨holds, fun _ => trivial⟩

/-- The answer to an action, and what it leaves behind. -/
def World.act (world : World) (id : Nat) :
    (action : Action) → Outcome action → Outcome action × World
  | .handler .unixNow, _ => (UInt64.ofNat (world.server.now / 1000), world)
  | .handler .instantNow, _ => (world.shared.now, world)
  | .handler op, offer =>
      ((Gateway.act world.shared id op offer).1,
        { world with shared := (Gateway.act world.shared id op offer).2 })
  | .redis op, offer =>
      ((world.server.act id op offer).1,
        { world with server := (world.server.act id op offer).2 })
  | .registry (.elapsed started), _ => (elapsed world.shared.now started, world)
  | .registry op, offer => (offer, { world with registry := world.registry.after op })

inductive Happening where
  | gateway (change : Change)
  | clock (millis : Nat)
  | scrape
deriving DecidableEq, Repr

section

variable (json : Json.Codec) (urls : UrlCrate) {scheme : Ed25519} (state : ProxyState scheme)

/-- A scrape publishes the state of every breaker. -/
def World.change (world : World) : Happening → World
  | .gateway change => { world with shared := ambient world.shared change }
  | .clock millis => { world with server := world.server.tick millis }
  | .scrape =>
      { world with registry := world.registry.publish (breakerStates state world.shared) }

def World.observe (note : Note) : (action : Action) → Outcome action → Note
  | .handler op, answer => { note with phase := note.phase.after op answer }
  | _, _ => note

def worldHandler (request : Request) : Program Action Outcome Response :=
  (proxyFallback urls state json request).expand meaning

def worldSystem : System Action Outcome Response Note World Request Happening where
  body := worldHandler json urls state
  note := fun request => ⟨request, .fresh⟩
  act := World.act
  observe := World.observe
  ambient := World.change state

abbrev Worlds := Pool Action Outcome Response Note World
abbrev WorldEvent := Pool.Event Action Outcome Request Happening

def worldStep : Worlds → WorldEvent → Option Worlds := Pool.step (worldSystem json urls state)

end

/-- A gateway that has just started, at the given readings of the two clocks, with
an empty Redis. -/
def World.init (instant millis : Nat) : World :=
  { shared := Shared.init instant, server := ⟨.empty, millis⟩, registry := {} }

end Ratewall.Gateway
