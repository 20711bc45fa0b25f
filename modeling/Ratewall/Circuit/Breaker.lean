import Ratewall.Config
import Ratewall.Foundation.Slots

/-! Owns the circuit breaker of `circuit.rs`: its three states, `try_admit`,
`record` and the table with one breaker for each route. A `CircuitBreaker` is a
handle: its configuration and the cell that its `Arc<Mutex<Inner>>` points to.
Every operation is one critical section and reads the clock inside it, so an
operation here takes the reading `now` and the contents of the cell, and gives
what it leaves there. `openAt` is the private `open`; `waited` is the test of
the cooldown inside `try_admit`, which a breaker without a timestamp never
passes.

The two `_cases` theorems say everything an operation can do. All later facts
about runs come from them. -/

namespace Ratewall.Circuit

open Ratewall.Rust
open Ratewall.Config

inductive State where
  | closed
  | opened
  | halfOpen
deriving DecidableEq, Repr

inductive Admit where
  | call
  | shortCircuit
deriving DecidableEq, Repr

structure BreakerConfig where
  failureThreshold : UInt32
  cooldown : Duration
deriving DecidableEq, Repr

def BreakerConfig.default : BreakerConfig :=
  { failureThreshold := 5, cooldown := Duration.fromSecs 30 }

structure Inner where
  state : State
  consecutiveFailures : UInt32
  openedAt : Option Nat
deriving DecidableEq, Repr

def Inner.fresh : Inner :=
  { state := .closed, consecutiveFailures := 0, openedAt := none }

namespace CircuitBreaker

def openAt (now : Nat) : Inner :=
  { state := .opened, consecutiveFailures := 0, openedAt := some now }

def waited (cfg : BreakerConfig) (now : Nat) (inner : Inner) : Bool :=
  (inner.openedAt.map fun opened => decide (cfg.cooldown.asNanos ≤ elapsed now opened)).getD false

def tryAdmit (cfg : BreakerConfig) (now : Nat) (inner : Inner) : Admit × Inner :=
  match inner.state with
  | .closed => (.call, inner)
  | .opened =>
      if waited cfg now inner then
        -- this caller is the probe
        (.call, { inner with state := .halfOpen })
      else
        (.shortCircuit, inner)
  | .halfOpen => (.shortCircuit, inner)

def record (cfg : BreakerConfig) (now : Nat) (success : Bool) (inner : Inner) : Inner :=
  match inner.state with
  | .closed =>
      if success then
        { inner with consecutiveFailures := 0 }
      else
        let failures := inner.consecutiveFailures + 1
        if failures ≥ cfg.failureThreshold then openAt now
        else { inner with consecutiveFailures := failures }
  | .halfOpen =>
      if success then { state := .closed, consecutiveFailures := 0, openedAt := none }
      else openAt now
  | .opened => inner

end CircuitBreaker

/-! ### What the operations can do -/

namespace CircuitBreaker

variable {cfg : BreakerConfig} {now : Nat} {inner : Inner}

theorem waited_iff :
    waited cfg now inner = true ↔
      ∃ opened, inner.openedAt = some opened ∧ cfg.cooldown.asNanos ≤ elapsed now opened := by
  unfold waited
  cases inner.openedAt <;> simp

/-- All that `try_admit` can do: let a call through, start the probe, or refuse. -/
theorem tryAdmit_cases (cfg : BreakerConfig) (now : Nat) (inner : Inner) :
    (inner.state = .closed ∧ tryAdmit cfg now inner = (.call, inner)) ∨
    (inner.state = .opened ∧ waited cfg now inner = true ∧
      tryAdmit cfg now inner = (.call, { inner with state := .halfOpen })) ∨
    (inner.state = .opened ∧ waited cfg now inner = false ∧
      tryAdmit cfg now inner = (.shortCircuit, inner)) ∨
    (inner.state = .halfOpen ∧ tryAdmit cfg now inner = (.shortCircuit, inner)) := by
  unfold tryAdmit
  cases phase : inner.state with
  | closed => simp
  | opened => cases due : waited cfg now inner <;> simp
  | halfOpen => simp

/-- All that `record` can do, by state, outcome and the failures counted so far. -/
theorem record_cases (cfg : BreakerConfig) (now : Nat) (success : Bool) (inner : Inner) :
    (inner.state = .closed ∧ success = true ∧
      record cfg now success inner = { inner with consecutiveFailures := 0 }) ∨
    (inner.state = .closed ∧ success = false ∧
      inner.consecutiveFailures + 1 < cfg.failureThreshold ∧
      record cfg now success inner =
        { inner with consecutiveFailures := inner.consecutiveFailures + 1 }) ∨
    (inner.state = .closed ∧ success = false ∧
      cfg.failureThreshold ≤ inner.consecutiveFailures + 1 ∧
      record cfg now success inner = openAt now) ∨
    (inner.state = .halfOpen ∧ success = true ∧ record cfg now success inner = Inner.fresh) ∨
    (inner.state = .halfOpen ∧ success = false ∧ record cfg now success inner = openAt now) ∨
    (inner.state = .opened ∧ record cfg now success inner = inner) := by
  unfold record
  cases phase : inner.state with
  | closed =>
      cases success with
      | true => simp
      | false =>
          by_cases trips : cfg.failureThreshold ≤ inner.consecutiveFailures + 1
          · simp [trips]
          · have below : inner.consecutiveFailures + 1 < cfg.failureThreshold :=
              UInt32.not_le.mp trips
            simp [trips, below]
  | opened => simp
  | halfOpen => cases success <;> simp [Inner.fresh]

/-- Half open, the outcome alone decides. -/
theorem record_halfOpen (half : inner.state = .halfOpen) (success : Bool) :
    record cfg now success inner = if success then Inner.fresh else openAt now := by
  unfold record
  rw [half]
  rfl

/-- No outcome leaves a breaker half open. -/
theorem record_not_halfOpen (cfg : BreakerConfig) (now : Nat) (success : Bool) (inner : Inner) :
    (record cfg now success inner).state ≠ .halfOpen := by
  rcases record_cases cfg now success inner with ⟨phase, -, same⟩ | ⟨phase, -, -, same⟩ |
    ⟨-, -, -, same⟩ | ⟨-, -, same⟩ | ⟨-, -, same⟩ | ⟨phase, same⟩
  · simp [same, phase]
  · simp [same, phase]
  · simp [same, openAt]
  · simp [same, Inner.fresh]
  · simp [same, openAt]
  · simp [same, phase]

@[simp] theorem openAt_state (now : Nat) : (openAt now).state = .opened := rfl

@[simp] theorem openAt_openedAt (now : Nat) : (openAt now).openedAt = some now := rfl

@[simp] theorem fresh_state : Inner.fresh.state = .closed := rfl

end CircuitBreaker

/-! ### One breaker for each route -/

abbrev Cell := Nat

structure CircuitBreaker where
  cfg : BreakerConfig
  inner : Cell
deriving DecidableEq, Repr

structure Breakers where
  perBackend : Std.TreeMap Text CircuitBreaker

namespace Breakers

def insertAll (cfg : BreakerConfig) (table : Std.TreeMap Text CircuitBreaker)
    (entries : List (Route × Nat)) : Std.TreeMap Text CircuitBreaker :=
  entries.foldl (fun table entry => table.insert entry.1.routePrefix ⟨cfg, entry.2⟩) table

/-- `Breakers::new`: every route gets a cell of its own, all share the
thresholds. A repeated prefix keeps its last breaker, as `collect` does. -/
def new (routes : List Route) (cfg : BreakerConfig) : Breakers :=
  ⟨insertAll cfg ∅ routes.zipIdx⟩

def get (breakers : Breakers) (pfx : Text) : Option CircuitBreaker :=
  breakers.perBackend[pfx]?

def states (breakers : Breakers) (cells : Cell → Inner) : List (Text × State) :=
  breakers.perBackend.toList.map fun entry => (entry.1, (cells entry.2.inner).state)

/-- The breaker of a prefix sits in the cell of one of its routes. -/
theorem get_new {routes : List Route} {cfg : BreakerConfig} {pfx : Text} {breaker : CircuitBreaker}
    (found : (new routes cfg).get pfx = some breaker) :
    breaker.cfg = cfg ∧ routes[breaker.inner]?.map Route.routePrefix = some pfx := by
  unfold get new insertAll at found
  rcases Foundation.foldl_insert_cases found with empty | ⟨⟨route, index⟩, member, rfl, rfl⟩
  · simp at empty
  · refine ⟨rfl, ?_⟩
    rw [List.mk_mem_zipIdx_iff_getElem?.mp member]
    rfl

/-- Different prefixes have breakers in different cells. -/
theorem pfx_eq_of_cell_eq {routes : List Route} {cfg : BreakerConfig} {left right : Text}
    {first second : CircuitBreaker} (foundLeft : (new routes cfg).get left = some first)
    (foundRight : (new routes cfg).get right = some second) (same : first.inner = second.inner) :
    left = right := by
  have one := (get_new foundLeft).2
  have two := (get_new foundRight).2
  rw [same, two] at one
  exact (Option.some.inj one).symm

end Breakers

end Ratewall.Circuit
