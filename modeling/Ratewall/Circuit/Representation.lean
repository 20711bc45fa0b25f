import Ratewall.Circuit.Clocked

/-! Owns what the three fields of `Inner` say about each other, over every run of
`try_admit` and `record` calls from anyone at any moment. A Closed breaker counts
below its threshold and has no timestamp. One that has tripped counts nothing and
was stamped when it opened, and a half-open one has waited its cooldown since. -/

namespace Ratewall.Circuit

open Ratewall.Rust
open Ratewall.Foundation

namespace Clocked

/-- What the fields of a breaker say at the moment `now`. -/
def Represents (cfg : BreakerConfig) (now : Nat) (inner : Inner) : Prop :=
  match inner.state with
  | .closed => inner.consecutiveFailures < cfg.failureThreshold ∧ inner.openedAt = none
  | .opened =>
      inner.consecutiveFailures = 0 ∧ ∃ opened, inner.openedAt = some opened ∧ opened ≤ now
  | .halfOpen =>
      inner.consecutiveFailures = 0 ∧ ∃ opened, inner.openedAt = some opened ∧ opened ≤ now ∧
        opened + cfg.cooldown.asNanos ≤ now

section

variable {cfg : BreakerConfig} {now : Nat} {inner : Inner}

private theorem represents_closed_iff (closed : inner.state = .closed) :
    Represents cfg now inner ↔
      inner.consecutiveFailures < cfg.failureThreshold ∧ inner.openedAt = none := by
  unfold Represents
  rw [closed]

private theorem represents_opened_iff (phase : inner.state = .opened) :
    Represents cfg now inner ↔
      inner.consecutiveFailures = 0 ∧ ∃ opened, inner.openedAt = some opened ∧ opened ≤ now := by
  unfold Represents
  rw [phase]

private theorem represents_fresh (positive : 1 ≤ cfg.failureThreshold) (now : Nat) :
    Represents cfg now Inner.fresh :=
  ⟨UInt32.lt_of_lt_of_le (by decide) positive, rfl⟩

private theorem represents_openAt (now : Nat) : Represents cfg now (CircuitBreaker.openAt now) :=
  ⟨rfl, now, rfl, le_rfl⟩

/-- Timestamps are never in the future, so time only helps. -/
theorem Represents.later (represents : Represents cfg now inner) {moment : Nat}
    (later : now ≤ moment) : Represents cfg moment inner := by
  unfold Represents at represents ⊢
  split at represents
  next => exact represents
  next =>
    obtain ⟨zero, opened, stamp, past⟩ := represents
    exact ⟨zero, opened, stamp, past.trans later⟩
  next =>
    obtain ⟨zero, opened, stamp, past, cooled⟩ := represents
    exact ⟨zero, opened, stamp, past.trans later, cooled.trans later⟩

private theorem represents_tryAdmit (represents : Represents cfg now inner) :
    Represents cfg now (CircuitBreaker.tryAdmit cfg now inner).2 := by
  rcases CircuitBreaker.tryAdmit_cases cfg now inner with
    ⟨-, same⟩ | ⟨phase, due, same⟩ | ⟨-, -, same⟩ | ⟨-, same⟩
  · rw [same]
    exact represents
  · -- the probe leaves the timestamp of the opening, which is a cooldown old
    obtain ⟨zero, opened, stamp, past⟩ := (represents_opened_iff phase).mp represents
    obtain ⟨opened', stamp', cooled⟩ := CircuitBreaker.waited_iff.mp due
    rw [stamp] at stamp'
    obtain rfl := Option.some.inj stamp'
    rw [same]
    refine ⟨zero, opened, stamp, past, ?_⟩
    unfold elapsed at cooled
    omega
  · rw [same]
    exact represents
  · rw [same]
    exact represents

private theorem represents_record (positive : 1 ≤ cfg.failureThreshold)
    (represents : Represents cfg now inner) (success : Bool) :
    Represents cfg now (CircuitBreaker.record cfg now success inner) := by
  rcases CircuitBreaker.record_cases cfg now success inner with
    ⟨phase, -, same⟩ | ⟨phase, -, below, same⟩ | ⟨-, -, -, same⟩ | ⟨-, -, same⟩ | ⟨-, -, same⟩ |
      ⟨-, same⟩
  · have unstamped := ((represents_closed_iff phase).mp represents).2
    have zero : (0 : UInt32) < cfg.failureThreshold :=
      UInt32.lt_of_lt_of_le (by decide) positive
    rw [same]
    refine (represents_closed_iff ?_).mpr ⟨zero, unstamped⟩
    exact phase
  · have unstamped := ((represents_closed_iff phase).mp represents).2
    rw [same]
    refine (represents_closed_iff ?_).mpr ⟨below, unstamped⟩
    exact phase
  · rw [same]
    exact represents_openAt now
  · rw [same]
    exact represents_fresh positive now
  · rw [same]
    exact represents_openAt now
  · rw [same]
    exact represents

private theorem represents_step {before after : Clocked} {event : Event}
    (positive : 1 ≤ cfg.failureThreshold) (represents : Represents cfg before.now before.inner)
    (stepped : step cfg before event = some after) : Represents cfg after.now after.inner := by
  obtain rfl := Option.some.inj stepped
  cases event with
  | tick nanos => exact represents.later (Nat.le_add_right _ _)
  | tryAdmit => exact represents_tryAdmit represents
  | record success => exact represents_record positive represents success

end

/-- Every run keeps the fields fit to the state. -/
theorem represents_of_run {cfg : BreakerConfig} (positive : 1 ≤ cfg.failureThreshold) {start : Nat}
    {events : List Event} {final : Clocked}
    (ran : run (step cfg) (init start) events = some final) :
    Represents cfg final.now final.inner :=
  run_invariant (represents_step positive) (represents_fresh positive start) ran

/-- In every run, whoever calls, the fields of the breaker fit its state. So the
counter has room for one more failure, and an open breaker always has the timestamp
that its cooldown is measured from. -/
theorem representation_invariant (cfg : BreakerConfig) (positive : 1 ≤ cfg.failureThreshold)
    (start : Nat) (events : List Event) (final : Clocked)
    (ran : run (step cfg) (init start) events = some final) :
    Represents cfg final.now final.inner ∧
      (final.inner.state = .closed →
        final.inner.consecutiveFailures.toNat + 1 < UInt32.size) ∧
      (final.inner.state = .opened → final.inner.openedAt ≠ none) := by
  have represents := represents_of_run positive ran
  refine ⟨represents, ?_, ?_⟩
  · intro closed
    have below := ((represents_closed_iff closed).mp represents).1
    rw [UInt32.lt_iff_toNat_lt] at below
    have bound : cfg.failureThreshold.toNat < UInt32.size := cfg.failureThreshold.toNat_lt
    omega
  · intro phase
    obtain ⟨-, opened, stamp, -⟩ := (represents_opened_iff phase).mp represents
    rw [stamp]
    exact Option.some_ne_none opened

/-- A stray success meets the open breaker, and the probe a cooldown later makes it
half-open. -/
theorem representation_invariant_half_open :
    let cfg : BreakerConfig := { failureThreshold := 1, cooldown := Duration.fromSecs 30 }
    let final : Clocked := ⟨⟨.halfOpen, 0, some 0⟩, 30000000000⟩
    run (step cfg) (init 0) [.record false, .record true, .tick 30000000000, .tryAdmit] =
        some final ∧
      Represents cfg final.now final.inner := by
  intro cfg final
  have ran : run (step cfg) (init 0)
      [.record false, .record true, .tick 30000000000, .tryAdmit] = some final := by decide
  exact ⟨ran, (representation_invariant cfg (by decide) 0 _ final ran).1⟩

end Clocked

end Ratewall.Circuit
