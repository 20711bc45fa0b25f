import Ratewall.Circuit.Clocked
import Ratewall.Foundation.Slots

/-! Owns one breaker shared by any number of concurrent calls. A call asks
`try_admit`; once admitted it is in flight until it records, at most once and at
any later moment. The table of calls in flight and the probe of the current
half-open period are history variables: the breaker does not see them, which is
the point of every result here.

A record that reaches a half-open breaker without being the probe's comes from
a call that has been in flight for a full cooldown. Whoever keeps every other
call shorter than that makes the probe alone decide; nothing else does. -/

namespace Ratewall.Circuit

open Ratewall.Rust
open Ratewall.Foundation

abbrev CallId := Nat

/-- An admitted call: when it was admitted, and whether its `try_admit` took the
breaker from `Open` to `HalfOpen`. -/
structure Call where
  admittedAt : Nat
  isProbe : Bool
deriving DecidableEq, Repr

structure Calls where
  inner : Inner
  now : Nat
  inFlight : CallId → Option Call
  probe : Option CallId

namespace Calls

inductive Event where
  | tick (nanos : Nat)
  | tryAdmit (id : CallId)
  | record (id : CallId) (success : Bool)
deriving DecidableEq, Repr

def init (start : Nat) : Calls :=
  { inner := Inner.fresh, now := start, inFlight := fun _ => none, probe := none }

/-- One event. A call in flight does not ask again, and only a call in flight
records. -/
def step (cfg : BreakerConfig) (before : Calls) : Event → Option Calls
  | .tick nanos => some { before with now := before.now + nanos }
  | .tryAdmit id =>
      match before.inFlight id, CircuitBreaker.tryAdmit cfg before.now before.inner with
      | some _, _ => none
      | none, (.shortCircuit, inner) => some { before with inner := inner }
      | none, (.call, inner) =>
          let isProbe : Bool := before.inner.state = .opened
          some
            { before with
              inner := inner
              inFlight := Function.update before.inFlight id (some ⟨before.now, isProbe⟩)
              probe := if isProbe then some id else before.probe }
  | .record id success =>
      match before.inFlight id with
      | none => none
      | some _ => some
          { before with
            inner := CircuitBreaker.record cfg before.now success before.inner
            inFlight := Function.update before.inFlight id none }

variable {cfg : BreakerConfig} {before after : Calls} {event : Event}

/-- All that a step can do: time passes, a call is admitted or refused, or one records.
-/
theorem step_cases (stepped : step cfg before event = some after) :
    (∃ nanos, event = .tick nanos ∧ after = { before with now := before.now + nanos }) ∨
    (∃ id, event = .tryAdmit id ∧ before.inner.state = .closed ∧
      after = { before with
        inFlight := Function.update before.inFlight id (some ⟨before.now, false⟩) }) ∨
    (∃ id, event = .tryAdmit id ∧ before.inner.state = .opened ∧
      CircuitBreaker.waited cfg before.now before.inner = true ∧
      after = { before with
        inner := { before.inner with state := .halfOpen }
        inFlight := Function.update before.inFlight id (some ⟨before.now, true⟩)
        probe := some id }) ∨
    (∃ id, event = .tryAdmit id ∧ after = before) ∨
    (∃ id success call, event = .record id success ∧ before.inFlight id = some call ∧
      after = { before with
        inner := CircuitBreaker.record cfg before.now success before.inner
        inFlight := Function.update before.inFlight id none }) := by
  cases event with
  | tick nanos => exact Or.inl ⟨nanos, rfl, (Option.some.inj stepped).symm⟩
  | tryAdmit id =>
      right
      simp only [step] at stepped
      cases slot : before.inFlight id with
      | some call => simp [slot] at stepped
      | none =>
          rcases CircuitBreaker.tryAdmit_cases cfg before.now before.inner with
            ⟨phase, answer⟩ | ⟨phase, due, answer⟩ | ⟨phase, -, answer⟩ | ⟨phase, answer⟩
          · rw [slot, answer] at stepped
            refine Or.inl ⟨id, rfl, phase, ?_⟩
            simpa [phase] using stepped.symm
          · rw [slot, answer] at stepped
            refine Or.inr (Or.inl ⟨id, rfl, phase, due, ?_⟩)
            simpa [phase] using stepped.symm
          · rw [slot, answer] at stepped
            exact Or.inr (Or.inr (Or.inl ⟨id, rfl, by simpa using stepped.symm⟩))
          · rw [slot, answer] at stepped
            exact Or.inr (Or.inr (Or.inl ⟨id, rfl, by simpa using stepped.symm⟩))
  | record id success =>
      simp only [step] at stepped
      cases slot : before.inFlight id with
      | none => simp [slot] at stepped
      | some call =>
          rw [slot] at stepped
          exact Or.inr (Or.inr (Or.inr (Or.inr
            ⟨id, success, call, rfl, slot, (Option.some.inj stepped).symm⟩)))

/-! ### The breaker inside -/

/-- The breaker without the history of its calls. -/
def clocked (calls : Calls) : Clocked := ⟨calls.inner, calls.now⟩

def Event.clocked : Event → Clocked.Event
  | .tick nanos => .tick nanos
  | .tryAdmit _ => .tryAdmit
  | .record _ success => .record success

private theorem clocked_step (stepped : step cfg before event = some after) :
    Clocked.step cfg before.clocked event.clocked = some after.clocked := by
  cases event with
  | tick nanos =>
      obtain rfl := Option.some.inj stepped
      rfl
  | tryAdmit id =>
      simp only [step] at stepped
      split at stepped
      next => cases stepped
      next answer =>
        obtain rfl := Option.some.inj stepped
        simp [Clocked.step, Clocked.next, Event.clocked, clocked, answer]
      next answer =>
        obtain rfl := Option.some.inj stepped
        simp [Clocked.step, Clocked.next, Event.clocked, clocked, answer]
  | record id success =>
      simp only [step] at stepped
      split at stepped
      next => cases stepped
      next =>
        obtain rfl := Option.some.inj stepped
        rfl

/-- So what is proved of every run of a breaker holds of every run of its calls. -/
theorem clocked_of_run {start : Calls} {events : List Event} {calls : Calls}
    (ran : run (step cfg) start events = some calls) :
    ∃ shown, run (Clocked.step cfg) start.clocked shown = some calls.clocked :=
  run_refines (fun {_ _ _} _ _ => trivial)
    (fun {_ event _} _ stepped => ⟨[event.clocked], by simp [run, clocked_step stepped]⟩) trivial ran

/-! ### How old a foreign call is -/

/-- The invariant of every run. Nobody is admitted between an opening and the
probe after it, so all other calls in flight are older than the opening. -/
structure Aged (cfg : BreakerConfig) (calls : Calls) : Prop where
  past : ∀ id call, calls.inFlight id = some call → call.admittedAt ≤ calls.now
  opened : calls.inner.state = .opened → ∃ opened, calls.inner.openedAt = some opened ∧
    opened ≤ calls.now ∧ ∀ id call, calls.inFlight id = some call → call.admittedAt ≤ opened
  halfOpen : calls.inner.state = .halfOpen → ∃ opened,
    opened + cfg.cooldown.asNanos ≤ calls.now ∧
      ∀ id call, calls.inFlight id = some call → calls.probe ≠ some id →
        call.admittedAt ≤ opened

private theorem aged_init (cfg : BreakerConfig) (start : Nat) : Aged cfg (init start) where
  past := by
    intro id call filled
    cases filled
  opened := by
    intro phase
    cases phase
  halfOpen := by
    intro phase
    cases phase

private theorem aged_tick (aged : Aged cfg before) (nanos : Nat) :
    Aged cfg { before with now := before.now + nanos } where
  past := by
    intro id call filled
    exact Nat.le_add_right_of_le (aged.past id call filled)
  opened := by
    intro phase
    obtain ⟨opened, stamp, past, older⟩ := aged.opened phase
    exact ⟨opened, stamp, Nat.le_add_right_of_le past, older⟩
  halfOpen := by
    intro phase
    obtain ⟨opened, cooled, older⟩ := aged.halfOpen phase
    exact ⟨opened, Nat.le_add_right_of_le cooled, older⟩

private theorem aged_admit_closed (aged : Aged cfg before) (phase : before.inner.state = .closed)
    (id : CallId) :
    Aged cfg { before with
      inFlight := Function.update before.inFlight id (some ⟨before.now, false⟩) } where
  past := by
    intro other call filled
    rcases filled_cases filled with ⟨-, rfl⟩ | ⟨-, old⟩
    · exact le_rfl
    · exact aged.past other call old
  opened := by
    intro opened
    exact absurd (phase.symm.trans opened) (by decide)
  halfOpen := by
    intro half
    exact absurd (phase.symm.trans half) (by decide)

private theorem aged_admit_probe (aged : Aged cfg before) (phase : before.inner.state = .opened)
    (due : CircuitBreaker.waited cfg before.now before.inner = true) (id : CallId) :
    Aged cfg { before with
      inner := { before.inner with state := .halfOpen }
      inFlight := Function.update before.inFlight id (some ⟨before.now, true⟩)
      probe := some id } where
  past := by
    intro other call filled
    rcases filled_cases filled with ⟨-, rfl⟩ | ⟨-, old⟩
    · exact le_rfl
    · exact aged.past other call old
  opened := by
    intro opened
    cases opened
  halfOpen := by
    intro _
    obtain ⟨opened, stamp, past, older⟩ := aged.opened phase
    obtain ⟨opened', stamp', cooled⟩ := CircuitBreaker.waited_iff.mp due
    have same : opened' = opened := Option.some.inj (stamp'.symm.trans stamp)
    have cooldown : opened + cfg.cooldown.asNanos ≤ before.now := by
      rw [same, elapsed] at cooled
      omega
    refine ⟨opened, cooldown, ?_⟩
    intro other call filled notProbe
    rcases filled_cases filled with ⟨rfl, -⟩ | ⟨-, old⟩
    · exact absurd rfl notProbe
    · exact older other call old

private theorem aged_record (aged : Aged cfg before) (id : CallId) (success : Bool) :
    Aged cfg { before with
      inner := CircuitBreaker.record cfg before.now success before.inner
      inFlight := Function.update before.inFlight id none } := by
  have older : ∀ other call, Function.update before.inFlight id none other = some call →
      call.admittedAt ≤ before.now := by
    intro other call filled
    exact aged.past other call (emptied_cases filled).2
  -- a record either keeps the phase, closes, or opens at this very moment
  rcases CircuitBreaker.record_cases cfg before.now success before.inner with
    ⟨phase, -, same⟩ | ⟨phase, -, -, same⟩ | ⟨-, -, -, same⟩ | ⟨-, -, same⟩ | ⟨-, -, same⟩ |
      ⟨phase, same⟩
  · rw [same]
    exact ⟨older, fun h => absurd (phase.symm.trans h) (by decide),
      fun h => absurd (phase.symm.trans h) (by decide)⟩
  · rw [same]
    exact ⟨older, fun h => absurd (phase.symm.trans h) (by decide),
      fun h => absurd (phase.symm.trans h) (by decide)⟩
  · rw [same]
    exact ⟨older, fun _ => ⟨before.now, rfl, le_rfl, older⟩, fun h => (by cases h)⟩
  · rw [same]
    exact ⟨older, fun h => (by cases h), fun h => (by cases h)⟩
  · rw [same]
    exact ⟨older, fun _ => ⟨before.now, rfl, le_rfl, older⟩, fun h => (by cases h)⟩
  · rw [same]
    obtain ⟨opened, stamp, past, bound⟩ := aged.opened phase
    refine ⟨older, fun _ => ⟨opened, stamp, past, ?_⟩,
      fun h => absurd (phase.symm.trans h) (by decide)⟩
    intro other call filled
    exact bound other call (emptied_cases filled).2

private theorem aged_step (aged : Aged cfg before) (stepped : step cfg before event = some after) :
    Aged cfg after := by
  rcases step_cases stepped with ⟨nanos, -, rfl⟩ | ⟨id, -, phase, rfl⟩ | ⟨id, -, phase, due, rfl⟩ |
    ⟨id, -, rfl⟩ | ⟨id, success, call, -, -, rfl⟩
  · exact aged_tick aged nanos
  · exact aged_admit_closed aged phase id
  · exact aged_admit_probe aged phase due id
  · exact aged
  · exact aged_record aged id success

/-- So the ages are as described in every state that a run reaches. -/
theorem aged_of_run {start : Nat} {events : List Event} {calls : Calls}
    (ran : run (step cfg) (init start) events = some calls) : Aged cfg calls :=
  run_invariant (fun aged stepped => aged_step aged stepped) (aged_init cfg start) ran

/-- A record is timely when its call is the probe of the current half-open
period or has been in flight for less than the cooldown. -/
def Timely (cfg : BreakerConfig) (calls : Calls) : Event → Prop
  | .record id _ => calls.probe = some id ∨
      ∀ call ∈ calls.inFlight id, calls.now < call.admittedAt + cfg.cooldown.asNanos
  | _ => True

instance (cfg : BreakerConfig) (calls : Calls) (event : Event) :
    Decidable (Timely cfg calls event) :=
  match event with
  | .record id _ => inferInstanceAs (Decidable (calls.probe = some id ∨
      ∀ call ∈ calls.inFlight id, calls.now < call.admittedAt + cfg.cooldown.asNanos))
  | .tick _ => isTrue trivial
  | .tryAdmit _ => isTrue trivial

/-- Of a foreign call that could record now, the age is at least a cooldown. -/
theorem Aged.foreign {calls : Calls} (aged : Aged cfg calls) {id : CallId} {call : Call}
    (half : calls.inner.state = .halfOpen) (filled : calls.inFlight id = some call)
    (notProbe : calls.probe ≠ some id) : call.admittedAt + cfg.cooldown.asNanos ≤ calls.now := by
  obtain ⟨opened, cooled, older⟩ := aged.halfOpen half
  have admitted := older id call filled notProbe
  omega

/-- So a timely record that finds the breaker half open is the probe's. -/
theorem Aged.probe_of_timely {calls : Calls} (aged : Aged cfg calls) {id : CallId} {call : Call}
    {success : Bool} (half : calls.inner.state = .halfOpen)
    (filled : calls.inFlight id = some call) (timely : Timely cfg calls (.record id success)) :
    calls.probe = some id := by
  rcases timely with probe | young
  · exact probe
  · by_contra notProbe
    have old := aged.foreign half filled notProbe
    have := young call filled
    omega

/-- When a record of a call that is not the probe finds the breaker half open,
at least a cooldown has passed since that call was admitted. Hence a half-open
period is decided by its own probe whenever calls record in less than that. -/
theorem foreign_record_needs_cooldown (cfg : BreakerConfig) (start : Nat) (events : List Event)
    (calls after : Calls) (ran : run (step cfg) (init start) events = some calls)
    (id : CallId) (success : Bool) (stepped : step cfg calls (.record id success) = some after)
    (half : calls.inner.state = .halfOpen) :
    ∃ call, calls.inFlight id = some call ∧
      (calls.probe ≠ some id → cfg.cooldown.asNanos ≤ calls.now - call.admittedAt) ∧
      (calls.now - call.admittedAt < cfg.cooldown.asNanos → calls.probe = some id) := by
  have aged : Aged cfg calls := aged_of_run ran
  rcases step_cases stepped with ⟨_, isTick, -⟩ | ⟨_, isAdmit, -⟩ | ⟨_, isAdmit, -⟩ |
    ⟨_, isAdmit, -⟩ | ⟨other, success', call, same, filled, -⟩
  · cases isTick
  · cases isAdmit
  · cases isAdmit
  · cases isAdmit
  · cases same
    have old : calls.probe ≠ some id → cfg.cooldown.asNanos ≤ calls.now - call.admittedAt := by
      intro notProbe
      have bound := aged.foreign half filled notProbe
      omega
    refine ⟨call, filled, old, ?_⟩
    intro young
    by_contra notProbe
    have bound := old notProbe
    omega

/-- The first failure opens the breaker for thirty seconds. -/
def oneStrike : BreakerConfig := { failureThreshold := 1, cooldown := Duration.fromSecs 30 }

/-- A call of the closed period succeeds while the probe is out, a cooldown after its
admission. -/
theorem foreign_record_needs_cooldown_on_late_success :
    ∃ calls after call,
      run (step oneStrike) (init 0)
        [.tryAdmit 0, .tryAdmit 1, .record 0 false, .tick 30000000000, .tryAdmit 2] = some calls ∧
      step oneStrike calls (.record 1 true) = some after ∧ calls.inFlight 1 = some call ∧
      calls.probe ≠ some 1 ∧ oneStrike.cooldown.asNanos ≤ calls.now - call.admittedAt := by
  obtain ⟨call, filled, old, -⟩ :=
    foreign_record_needs_cooldown oneStrike 0
      [.tryAdmit 0, .tryAdmit 1, .record 0 false, .tick 30000000000, .tryAdmit 2] _ _ rfl 1 true
      rfl rfl
  have notProbe : (some 2 : Option CallId) ≠ some 1 := by decide
  exact ⟨_, _, call, rfl, rfl, filled, notProbe, old notProbe⟩

/-! ### Who ends a half-open period -/

/-- A step from `HalfOpen` to `Closed` is a success of the probe. -/
def ClosedByProbe (cfg : BreakerConfig) (calls : Calls) (event : Event) : Prop :=
  ∀ after, step cfg calls event = some after → calls.inner.state = .halfOpen →
    after.inner.state = .closed → ∃ id, event = .record id true ∧ calls.probe = some id

private theorem closedByProbe_of_timely
    (aged : Aged cfg before) (timely : Timely cfg before event) :
    ClosedByProbe cfg before event := by
  intro after stepped half closed
  rcases step_cases stepped with ⟨_, -, rfl⟩ | ⟨_, -, phase, rfl⟩ | ⟨_, -, phase, -⟩ | ⟨_, -, rfl⟩ |
    ⟨id, success, call, rfl, filled, rfl⟩
  · exact absurd (half.symm.trans closed) (by decide)
  · exact absurd (half.symm.trans phase) (by decide)
  · exact absurd (half.symm.trans phase) (by decide)
  · exact absurd (half.symm.trans closed) (by decide)
  · have probe : before.probe = some id := aged.probe_of_timely half filled timely
    simp only [CircuitBreaker.record_halfOpen half] at closed
    cases success with
    | true => exact ⟨id, rfl, probe⟩
    | false => cases closed

/-- In every run whose records are timely, only the probe closes a half-open
breaker. -/
theorem timely_closed_by_probe (cfg : BreakerConfig) (start : Nat) (events : List Event)
    (timely : Meets (step cfg) (Timely cfg) (init start) events) :
    Meets (step cfg) (ClosedByProbe cfg) (init start) events :=
  meets_of_invariant (fun aged _ stepped => aged_step aged stepped)
    (fun aged timely => closedByProbe_of_timely aged timely) (aged_init cfg start) timely

/-- A failed probe and the successful one a cooldown after it, with a call of
the closed period that records in time. -/
def failedProbe : List Event :=
  [.tryAdmit 0, .tryAdmit 1, .record 0 false, .record 1 true, .tick 30000000000, .tryAdmit 2,
    .record 2 false, .tick 30000000000, .tryAdmit 3]

theorem timely_closed_by_probe_after_failed_probe :
    Meets (step oneStrike) (Timely oneStrike) (init 0) (failedProbe ++ [.record 3 true]) ∧
      Meets (step oneStrike) (ClosedByProbe oneStrike) (init 0) (failedProbe ++ [.record 3 true]) :=
  ⟨by decide, timely_closed_by_probe oneStrike 0 _ (by decide)⟩

/-- A call admitted before the breaker opened succeeds while the probe is out,
and the breaker closes on its word. -/
theorem late_success_closes_for_probe :
    ¬ ∀ (cfg : BreakerConfig) (start : Nat) (events : List Event), 1 ≤ cfg.failureThreshold →
      Meets (step cfg) (ClosedByProbe cfg) (init start) events := by
  intro always
  have run := always oneStrike 0
    [.tryAdmit 0, .tryAdmit 1, .record 0 false, .tick 30000000000, .tryAdmit 2, .record 1 true]
    (by decide)
  have last := (((((run.tail rfl).tail rfl).tail rfl).tail rfl).tail rfl).1
  obtain ⟨id, same, probe⟩ := last _ rfl rfl rfl
  cases same
  exact absurd probe (by decide)

/-- No two different probes are in flight. -/
def SoloProbe (calls : Calls) : Prop :=
  ∀ first second call call', calls.inFlight first = some call →
    calls.inFlight second = some call' → call.isProbe = true → call'.isProbe = true →
      first = second

/-- A probe in flight is the probe of the current half-open period. -/
def ProbesCurrent (calls : Calls) : Prop :=
  ∀ id call, calls.inFlight id = some call → call.isProbe = true →
    calls.inner.state = .halfOpen ∧ calls.probe = some id

private theorem ProbesCurrent.solo {calls : Calls} (current : ProbesCurrent calls) :
    SoloProbe calls := by
  intro first second call call' filled filled' isProbe isProbe'
  have left := (current first call filled isProbe).2
  have right := (current second call' filled' isProbe').2
  exact Option.some.inj (left.symm.trans right)

private theorem probesCurrent_record (aged : Aged cfg before) (current : ProbesCurrent before)
    {id : CallId} {success : Bool} {call : Call} (filled : before.inFlight id = some call)
    (timely : Timely cfg before (.record id success)) :
    ProbesCurrent { before with
      inner := CircuitBreaker.record cfg before.now success before.inner
      inFlight := Function.update before.inFlight id none } := by
  intro other found still isProbe
  obtain ⟨different, old⟩ := emptied_cases still
  -- the probe that is left would be the current one, and that one just recorded
  obtain ⟨half, probe⟩ := current other found old isProbe
  have recorder : before.probe = some id := aged.probe_of_timely half filled timely
  exact absurd (Option.some.inj (probe.symm.trans recorder)) different

structure Orderly (cfg : BreakerConfig) (calls : Calls) : Prop where
  aged : Aged cfg calls
  current : ProbesCurrent calls

private theorem orderly_step (orderly : Orderly cfg before) (timely : Timely cfg before event)
    (stepped : step cfg before event = some after) : Orderly cfg after := by
  refine ⟨aged_step orderly.aged stepped, ?_⟩
  obtain ⟨aged, current⟩ := orderly
  rcases step_cases stepped with ⟨nanos, -, rfl⟩ | ⟨id, -, phase, rfl⟩ | ⟨id, -, phase, -, rfl⟩ |
    ⟨id, -, rfl⟩ | ⟨id, success, call, rfl, filled, rfl⟩
  · exact current
  · intro other found filled isProbe
    rcases filled_cases filled with ⟨-, rfl⟩ | ⟨-, old⟩
    · cases isProbe
    · exact current other found old isProbe
  · intro other found filled isProbe
    rcases filled_cases filled with ⟨rfl, -⟩ | ⟨-, old⟩
    · exact ⟨rfl, rfl⟩
    · have half := (current other found old isProbe).1
      exact absurd (phase.symm.trans half) (by decide)
  · exact current
  · exact probesCurrent_record aged current filled timely

/-- In every run whose records are timely, at most one probe is in flight at
any moment. -/
theorem timely_solo_probe (cfg : BreakerConfig) (start : Nat) (events : List Event) (calls : Calls)
    (timely : Meets (step cfg) (Timely cfg) (init start) events)
    (ran : run (step cfg) (init start) events = some calls) : SoloProbe calls := by
  have initially : Orderly cfg (init start) := by
    refine ⟨aged_init cfg start, ?_⟩
    intro id call filled
    cases filled
  have orderly : Orderly cfg calls :=
    run_invariant_of_meets (fun holds timely stepped => orderly_step holds timely stepped)
      initially timely ran
  exact orderly.current.solo

theorem timely_solo_probe_on_failed_probe :
    ∃ calls, run (step oneStrike) (init 0) failedProbe = some calls ∧
      calls.inFlight 3 = some ⟨60000000000, true⟩ ∧ SoloProbe calls :=
  ⟨_, rfl, rfl, timely_solo_probe oneStrike 0 failedProbe _ (by decide) rfl⟩

/-- Two calls are admitted before the breaker opens. The second one fails while
the probe is out, the breaker opens again, and a cooldown later a second probe
joins the first. -/
theorem late_failure_starts_second_probe :
    ¬ ∀ (cfg : BreakerConfig) (start : Nat) (events : List Event) (calls : Calls),
      1 ≤ cfg.failureThreshold → run (step cfg) (init start) events = some calls →
        SoloProbe calls := by
  intro always
  have solo := always oneStrike 0
    [.tryAdmit 0, .tryAdmit 1, .record 0 false, .tick 30000000000, .tryAdmit 2, .record 1 false,
      .tick 30000000000, .tryAdmit 3] _ (by decide) rfl
  have same : 2 = 3 := solo 2 3 ⟨30000000000, true⟩ ⟨60000000000, true⟩ rfl rfl rfl rfl
  exact absurd same (by decide)

end Calls

end Ratewall.Circuit
