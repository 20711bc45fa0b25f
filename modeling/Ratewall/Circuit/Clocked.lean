import Ratewall.Circuit.Breaker
import Ratewall.Foundation.Spacing
import Ratewall.Foundation.Streak
import Ratewall.Foundation.Trail

/-! Owns the runs of one breaker: its cell, the clock, and any sequence of
`try_admit` and `record` calls between which time passes. No discipline is
assumed: every event is possible in every state, and a record may come from
anyone at any moment. On top of it stand the load bound of a tripped breaker,
from its opening to the next time it closes, and the exactness of the failure
count in between: what the one stored number means for the records of a Closed
period. -/

namespace Ratewall.Circuit

open Ratewall.Rust
open Ratewall.Foundation

structure Clocked where
  inner : Inner
  now : Nat
deriving DecidableEq, Repr

namespace Clocked

inductive Event where
  | tick (nanos : Nat)
  | tryAdmit
  | record (success : Bool)
deriving DecidableEq, Repr

def init (start : Nat) : Clocked := ⟨Inner.fresh, start⟩

def next (cfg : BreakerConfig) (before : Clocked) : Event → Clocked
  | .tick nanos => { before with now := before.now + nanos }
  | .tryAdmit => { before with inner := (CircuitBreaker.tryAdmit cfg before.now before.inner).2 }
  | .record success =>
      { before with inner := CircuitBreaker.record cfg before.now success before.inner }

def step (cfg : BreakerConfig) (before : Clocked) (event : Event) : Option Clocked :=
  some (next cfg before event)

def answers (cfg : BreakerConfig) : Clocked → List Event → List (Nat × Admit)
  | _, [] => []
  | before, event :: rest =>
      let later := answers cfg (next cfg before event) rest
      match event with
      | .tryAdmit => (before.now, (CircuitBreaker.tryAdmit cfg before.now before.inner).1) :: later
      | _ => later

def admissions (cfg : BreakerConfig) (before : Clocked) (events : List Event) : List Nat :=
  ((answers cfg before events).filter fun answer => answer.2 = .call).map Prod.fst

def Closes (cfg : BreakerConfig) (before : Clocked) (event : Event) : Prop :=
  before.inner.state = .halfOpen ∧ (next cfg before event).inner.state = .closed

instance (cfg : BreakerConfig) (before : Clocked) (event : Event) :
    Decidable (Closes cfg before event) :=
  inferInstanceAs (Decidable (_ ∧ _))

def Opens (cfg : BreakerConfig) (before : Clocked) (event : Event) : Prop :=
  before.inner.state ≠ .opened ∧ (next cfg before event).inner.state = .opened

/-! ### The load on a tripped breaker -/

variable {cfg : BreakerConfig} {before : Clocked}

/-- No admission can come before `bound`: the cooldown of an open breaker runs
until then, and a half-open one would first have to open again. -/
def Blocked (cfg : BreakerConfig) (bound : Nat) (clocked : Clocked) : Prop :=
  (clocked.inner.state = .opened ∧ ∃ opened, clocked.inner.openedAt = some opened ∧
      opened ≤ clocked.now ∧ bound ≤ opened + cfg.cooldown.asNanos) ∨
    (clocked.inner.state = .halfOpen ∧ bound ≤ clocked.now + cfg.cooldown.asNanos)

private theorem blocked_openAt (now : Nat) :
    Blocked cfg (now + cfg.cooldown.asNanos) ⟨CircuitBreaker.openAt now, now⟩ :=
  Or.inl ⟨rfl, now, rfl, le_rfl, le_rfl⟩

private theorem next_eq_openAt {event : Event} (opens : Opens cfg before event) :
    next cfg before event = ⟨CircuitBreaker.openAt before.now, before.now⟩ := by
  obtain ⟨notOpen, opened⟩ := opens
  cases event with
  | tick nanos => exact absurd opened notOpen
  | tryAdmit =>
      simp only [next] at opened
      rcases CircuitBreaker.tryAdmit_cases cfg before.now before.inner with
        ⟨-, same⟩ | ⟨phase, -, -⟩ | ⟨phase, -, -⟩ | ⟨-, same⟩
      · rw [same] at opened
        exact absurd opened notOpen
      · exact absurd phase notOpen
      · exact absurd phase notOpen
      · rw [same] at opened
        exact absurd opened notOpen
  | record success =>
      simp only [next] at opened ⊢
      rcases CircuitBreaker.record_cases cfg before.now success before.inner with
        ⟨phase, -, same⟩ | ⟨phase, -, -, same⟩ | ⟨-, -, -, same⟩ | ⟨-, -, same⟩ | ⟨-, -, same⟩ |
          ⟨phase, -⟩
      · rw [same] at opened
        exact absurd opened notOpen
      · rw [same] at opened
        exact absurd opened notOpen
      · rw [same]
      · rw [same] at opened
        exact absurd opened (by decide)
      · rw [same]
      · exact absurd phase notOpen

private theorem blocked_next_of_not_tryAdmit {bound : Nat} {event : Event}
    (blocked : Blocked cfg bound before) (notAdmit : event ≠ .tryAdmit)
    (notCloses : ¬ Closes cfg before event) : Blocked cfg bound (next cfg before event) := by
  cases event with
  | tick nanos =>
      rcases blocked with ⟨phase, opened, stamp, past, bounded⟩ | ⟨phase, bounded⟩
      · exact Or.inl ⟨phase, opened, stamp, Nat.le_add_right_of_le past, bounded⟩
      · refine Or.inr ⟨phase, ?_⟩
        simp only [next]
        omega
  | tryAdmit => exact absurd rfl notAdmit
  | record success =>
      rcases blocked with ⟨phase, opened, stamp, past, bounded⟩ | ⟨phase, bounded⟩
      · have same : CircuitBreaker.record cfg before.now success before.inner = before.inner := by
          simp [CircuitBreaker.record, phase]
        simp only [next, same]
        exact Or.inl ⟨phase, opened, stamp, past, bounded⟩
      · cases success with
        | true =>
            refine absurd ⟨phase, ?_⟩ notCloses
            simp [next, CircuitBreaker.record_halfOpen phase]
        | false =>
            simp only [next, CircuitBreaker.record_halfOpen phase]
            exact Or.inl ⟨rfl, before.now, rfl, le_rfl, bounded⟩

/-- A blocked breaker either short-circuits and stays as it is, or admits one
probe, not before the bound, and is then blocked for another cooldown. -/
private theorem blocked_tryAdmit {bound : Nat} (blocked : Blocked cfg bound before) :
    ((CircuitBreaker.tryAdmit cfg before.now before.inner).1 = .shortCircuit ∧
        Blocked cfg bound (next cfg before .tryAdmit)) ∨
      ((CircuitBreaker.tryAdmit cfg before.now before.inner).1 = .call ∧ bound ≤ before.now ∧
        Blocked cfg (before.now + cfg.cooldown.asNanos) (next cfg before .tryAdmit)) := by
  rcases CircuitBreaker.tryAdmit_cases cfg before.now before.inner with
    ⟨phase, -⟩ | ⟨phase, due, same⟩ | ⟨phase, -, same⟩ | ⟨phase, same⟩
  · rcases blocked with ⟨opened, -⟩ | ⟨half, -⟩
    · rw [phase] at opened
      cases opened
    · rw [phase] at half
      cases half
  · right
    obtain ⟨opened, stamp, cooled⟩ := CircuitBreaker.waited_iff.mp due
    rcases blocked with ⟨-, opened', stamp', past, bounded⟩ | ⟨half, -⟩
    · rw [stamp] at stamp'
      obtain rfl := Option.some.inj stamp'
      refine ⟨by rw [same], ?_, Or.inr ⟨by simp [next, same], le_rfl⟩⟩
      unfold elapsed at cooled
      omega
    · rw [phase] at half
      cases half
  · left
    exact ⟨by rw [same], by simpa only [next, same] using blocked⟩
  · left
    exact ⟨by rw [same], by simpa only [next, same] using blocked⟩

private theorem admissions_cons_tryAdmit (cfg : BreakerConfig) (before : Clocked)
    (rest : List Event) :
    admissions cfg before (.tryAdmit :: rest) =
      if (CircuitBreaker.tryAdmit cfg before.now before.inner).1 = .call then
        before.now :: admissions cfg (next cfg before .tryAdmit) rest
      else admissions cfg (next cfg before .tryAdmit) rest := by
  by_cases called : (CircuitBreaker.tryAdmit cfg before.now before.inner).1 = .call
  · simp [admissions, answers.eq_2, called]
  · simp [admissions, answers.eq_2, called]

private theorem admissions_cons_of_ne {event : Event} (notAdmit : event ≠ .tryAdmit)
    (cfg : BreakerConfig) (before : Clocked) (rest : List Event) :
    admissions cfg before (event :: rest) = admissions cfg (next cfg before event) rest := by
  cases event with
  | tick nanos => rfl
  | tryAdmit => exact absurd rfl notAdmit
  | record success => rfl

private theorem admissions_spaced {bound : Nat} {events : List Event}
    (blocked : Blocked cfg bound before)
    (notClosed : Meets (step cfg) (fun state event => ¬ Closes cfg state event) before events) :
    Spaced cfg.cooldown.asNanos bound (admissions cfg before events) := by
  -- the bound moves on with every admission, so the induction is over all bounds
  induction events generalizing before bound with
  | nil => exact trivial
  | cons event rest inductionHypothesis =>
      have stays := notClosed.tail rfl
      by_cases admits : event = .tryAdmit
      · subst admits
        rw [admissions_cons_tryAdmit]
        rcases blocked_tryAdmit blocked with ⟨short, still⟩ | ⟨called, reached, again⟩
        · rw [if_neg (by rw [short]; decide)]
          exact inductionHypothesis still stays
        · rw [if_pos called]
          exact ⟨reached, inductionHypothesis again stays⟩
      · rw [admissions_cons_of_ne admits]
        exact inductionHypothesis (blocked_next_of_not_tryAdmit blocked admits notClosed.1) stays

private theorem shortCircuit_of_not_admitted {events : List Event} {answer : Nat × Admit}
    (member : answer ∈ answers cfg before events)
    (notAdmitted : answer.1 ∉ admissions cfg before events) : answer.2 = .shortCircuit := by
  cases kind : answer.2 with
  | call =>
      refine absurd ?_ notAdmitted
      exact List.mem_map.mpr ⟨answer, List.mem_filter.mpr ⟨member, by simp [kind]⟩, rfl⟩
  | shortCircuit => rfl

/-- From the moment a breaker opens until it next closes, every `try_admit`
inside the first cooldown is short-circuited, two admissions are never closer
than the cooldown, and no more than one call for each full cooldown reaches the
backend. Records may arrive at any moment and from anyone. -/
theorem tripped_load_bound (cfg : BreakerConfig) (cooldown : 0 < cfg.cooldown.asNanos)
    (before : Clocked) (event : Event) (opens : Opens cfg before event) (events : List Event)
    (notClosed : Meets (step cfg) (fun state later => ¬ Closes cfg state later)
      (next cfg before event) events) :
    (∀ answer ∈ answers cfg (next cfg before event) events,
        answer.1 < before.now + cfg.cooldown.asNanos → answer.2 = .shortCircuit) ∧
      (admissions cfg (next cfg before event) events).Pairwise
        (fun earlier later => earlier + cfg.cooldown.asNanos ≤ later) ∧
      ∀ deadline, ((admissions cfg (next cfg before event) events).filter
        (· ≤ deadline)).length ≤ (deadline - before.now) / cfg.cooldown.asNanos := by
  have blocked : Blocked cfg (before.now + cfg.cooldown.asNanos) (next cfg before event) := by
    rw [next_eq_openAt opens]
    exact blocked_openAt before.now
  have spaced := admissions_spaced blocked notClosed
  refine ⟨fun answer member early => ?_, spaced.pairwise, fun deadline =>
    Spaced.count_le_div cooldown spaced⟩
  refine shortCircuit_of_not_admitted member fun admitted => ?_
  have := Spaced.bound_le spaced answer.1 admitted
  omega

/-- The breaker trips at zero; its first probe fails after the cooldown, a
second one follows a cooldown later, and a stray failure comes in between. -/
theorem tripped_load_bound_two_probes :
    let cfg : BreakerConfig := { failureThreshold := 1, cooldown := Duration.fromSecs 30 }
    let events : List Event :=
      [.tryAdmit, .record false, .tick 30000000000, .tryAdmit, .record false, .tick 30000000000,
        .tryAdmit]
    admissions cfg (next cfg (init 0) (.record false)) events = [30000000000, 60000000000] ∧
      ∀ deadline, ((admissions cfg (next cfg (init 0) (.record false)) events).filter
        (· ≤ deadline)).length ≤ (deadline - 0) / cfg.cooldown.asNanos := by
  intro cfg events
  refine ⟨by decide, ?_⟩
  exact (tripped_load_bound cfg (by decide) (init 0) (.record false) ⟨by decide, by decide⟩ events
    (by decide)).2.2

/-! ### Counting the failures of a Closed period -/

/-- What a run leaves behind of its Closed periods: the start of one after the
first, and each record that was processed in one. -/
inductive Mark where
  | started
  | counted (success : Bool)
deriving DecidableEq, Repr

def marks (cfg : BreakerConfig) (before : Clocked) (event : Event) : List Mark :=
  if Closes cfg before event then [.started]
  else
    match event, before.inner.state with
    | .record success, .closed => [.counted success]
    | _, _ => []

def extend (records : List Bool) : Mark → List Bool
  | .started => []
  | .counted success => records ++ [success]

/-- The records of the latest Closed period, oldest first. -/
def latest (shown : List Mark) : List Bool := shown.foldl extend []

/-- While the breaker is Closed its counter is the streak of failures that ends
the period so far, and it never reached the threshold. -/
def Counted (cfg : BreakerConfig) (clocked : Clocked) (shown : List Mark) : Prop :=
  clocked.inner.state = .closed →
    clocked.inner.consecutiveFailures.toNat = streak (!·) (latest shown) ∧
      ¬ HasBlock (!·) cfg.failureThreshold.toNat (latest shown)

private theorem latest_concat (shown : List Mark) (mark : Mark) :
    latest (shown ++ [mark]) = extend (latest shown) mark := by
  unfold latest
  rw [List.foldl_append]
  rfl

private theorem marks_of_not_record {event : Event} (other : ∀ success, event ≠ .record success) :
    marks cfg before event = [] := by
  have notCloses : ¬ Closes cfg before event := by
    rintro ⟨half, closed⟩
    cases event with
    | tick nanos => rw [next, half] at closed; cases closed
    | tryAdmit =>
        simp only [next, CircuitBreaker.tryAdmit, half] at closed
        cases closed
    | record success => exact other success rfl
  unfold marks
  rw [if_neg notCloses]
  cases event with
  | tick nanos => rfl
  | tryAdmit => rfl
  | record success => exact absurd rfl (other success)

private theorem marks_record_of_closed (closed : before.inner.state = .closed) (success : Bool) :
    marks cfg before (.record success) = [.counted success] := by
  have notCloses : ¬ Closes cfg before (.record success) := by
    rintro ⟨half, -⟩
    rw [closed] at half
    cases half
  unfold marks
  rw [if_neg notCloses, closed]

/-- A record in a Closed period leaves the breaker Closed exactly when it does not
complete a block. The counter is below the threshold before, so the addition
does not wrap. -/
theorem record_of_counted {shown : List Mark} (counted : Counted cfg before shown)
    (closed : before.inner.state = .closed) (success : Bool) :
    ((next cfg before (.record success)).inner.state = .closed ∧
        (next cfg before (.record success)).inner.consecutiveFailures.toNat =
          streak (!·) (latest shown ++ [success]) ∧
        ¬ HasBlock (!·) cfg.failureThreshold.toNat (latest shown ++ [success])) ∨
      ((next cfg before (.record success)).inner.state = .opened ∧
        HasBlock (!·) cfg.failureThreshold.toNat (latest shown ++ [success])) := by
  obtain ⟨counter, none⟩ := counted closed
  have below : streak (!·) (latest shown) < cfg.failureThreshold.toNat := by
    by_contra reached
    exact none (hasBlock_of_le_streak (Nat.not_lt.mp reached))
  have noWrap : (before.inner.consecutiveFailures + 1).toNat =
      streak (!·) (latest shown) + 1 := by
    have bound := cfg.failureThreshold.toNat_lt
    rw [UInt32.toNat_add, counter]
    exact Nat.mod_eq_of_lt (by simp only [UInt32.toNat_one]; omega)
  simp only [next, hasBlock_concat_iff, streak_concat]
  rcases CircuitBreaker.record_cases cfg before.now success before.inner with
    ⟨-, rfl, same⟩ | ⟨-, rfl, short, same⟩ | ⟨-, rfl, long, same⟩ | ⟨phase, -⟩ | ⟨phase, -⟩ |
      ⟨phase, -⟩
  · left
    rw [same]
    refine ⟨closed, rfl, ?_⟩
    rintro (earlier | reached)
    · exact none earlier
    · simp at reached
      omega
  · left
    rw [same]
    rw [UInt32.lt_iff_toNat_lt, noWrap] at short
    refine ⟨closed, noWrap, ?_⟩
    rintro (earlier | reached)
    · exact none earlier
    · simp at reached
      omega
  · right
    rw [same]
    rw [UInt32.le_iff_toNat_le, noWrap] at long
    exact ⟨rfl, Or.inr long⟩
  · rw [closed] at phase
    cases phase
  · rw [closed] at phase
    cases phase
  · rw [closed] at phase
    cases phase

private theorem counted_step {after : Clocked} {event : Event} {shown : List Mark}
    (positive : 1 ≤ cfg.failureThreshold) (counted : Counted cfg before shown)
    (stepped : step cfg before event = some after) :
    Counted cfg after (shown ++ marks cfg before event) := by
  obtain rfl := Option.some.inj stepped
  cases event with
  | tick nanos =>
      rw [marks_of_not_record (by simp), List.append_nil]
      exact counted
  | tryAdmit =>
      rw [marks_of_not_record (by simp), List.append_nil]
      intro closed
      simp only [next] at closed ⊢
      rcases CircuitBreaker.tryAdmit_cases cfg before.now before.inner with
        ⟨phase, same⟩ | ⟨-, -, same⟩ | ⟨phase, -, same⟩ | ⟨phase, same⟩
      · rw [same]
        exact counted phase
      · rw [same] at closed
        cases closed
      · rw [same, phase] at closed
        cases closed
      · rw [same, phase] at closed
        cases closed
  | record success =>
      intro stillClosed
      cases phase : before.inner.state with
      | closed =>
          rw [marks_record_of_closed phase, latest_concat]
          rcases record_of_counted counted phase success with ⟨-, exact'⟩ | ⟨opened, -⟩
          · exact exact'
          · rw [stillClosed] at opened
            cases opened
      | opened =>
          have same : CircuitBreaker.record cfg before.now success before.inner = before.inner := by
            simp [CircuitBreaker.record, phase]
          simp only [next, same, phase] at stillClosed
          cases stillClosed
      | halfOpen =>
          -- only a successful probe closes, and the period starts with no record
          have closes : Closes cfg before (.record success) := ⟨phase, stillClosed⟩
          have mark : marks cfg before (.record success) = [.started] := if_pos closes
          have threshold : 1 ≤ cfg.failureThreshold.toNat := UInt32.le_iff_toNat_le.mp positive
          simp only [next, CircuitBreaker.record_halfOpen phase] at stillClosed ⊢
          rw [mark, latest_concat]
          cases success with
          | true => exact ⟨rfl, not_hasBlock_nil threshold⟩
          | false => cases stillClosed

/-- Take any run to a Closed breaker and the records of the period it is in. The
counter is the streak of failures that ends them, and no `n` of them in a row are
failures. The next record keeps the breaker Closed if and only if it completes no
such block, otherwise it opens it, and nothing else ends the period. -/
theorem consecutive_failures_exact (cfg : BreakerConfig) (positive : 1 ≤ cfg.failureThreshold)
    (start : Nat) (events : List Event) (final : Clocked)
    (ran : run (step cfg) (init start) events = some final)
    (closed : final.inner.state = .closed) (records : List Bool)
    (processed : records = latest (trail (step cfg) (marks cfg) (init start) events)) :
    final.inner.consecutiveFailures.toNat = streak (!·) records ∧
      ¬ HasBlock (!·) cfg.failureThreshold.toNat records ∧
      (∀ success,
        ((next cfg final (.record success)).inner.state = .closed ↔
          ¬ HasBlock (!·) cfg.failureThreshold.toNat (records ++ [success])) ∧
        (Opens cfg final (.record success) ↔
          HasBlock (!·) cfg.failureThreshold.toNat (records ++ [success]))) ∧
      ∀ event, (∀ success, event ≠ .record success) →
        (next cfg final event).inner.state = .closed := by
  have threshold : 1 ≤ cfg.failureThreshold.toNat := UInt32.le_iff_toNat_le.mp positive
  have counted : Counted cfg final (trail (step cfg) (marks cfg) (init start) events) :=
    trail_invariant (Counted cfg) (counted_step positive)
      (fun _ => ⟨rfl, not_hasBlock_nil threshold⟩) ran
  subst processed
  refine ⟨(counted closed).1, (counted closed).2, fun success => ?_, fun event other => ?_⟩
  · have notOpen : final.inner.state ≠ .opened := by simp [closed]
    rcases record_of_counted counted closed success with ⟨stays, -, free⟩ | ⟨opens, block⟩
    · exact ⟨iff_of_true stays free, iff_of_false (by simp [Opens, stays]) free⟩
    · exact ⟨iff_of_false (by simp [opens]) (not_not.mpr block),
        iff_of_true ⟨notOpen, opens⟩ block⟩
  · cases event with
    | tick nanos => exact closed
    | tryAdmit => simp only [next, CircuitBreaker.tryAdmit, closed]
    | record success => exact absurd rfl (other success)

/-- The breaker trips, a stale success comes while it is open, its probe closes it,
and then a success breaks the streak of two failures. -/
theorem consecutive_failures_exact_second_period :
    let cfg : BreakerConfig := { failureThreshold := 2, cooldown := Duration.fromSecs 30 }
    let events : List Event :=
      [.record false, .record false, .record true, .tick 30000000000, .tryAdmit, .record true,
        .record false, .record true, .record false]
    (events.foldl (next cfg) (init 0)).inner.consecutiveFailures.toNat =
        streak (!·) [false, true, false] ∧
      Opens cfg (events.foldl (next cfg) (init 0)) (.record false) := by
  intro cfg events
  obtain ⟨counter, -, decides, -⟩ := consecutive_failures_exact cfg (by decide) 0 events
    (events.foldl (next cfg) (init 0)) (by decide) (by decide) [false, true, false] (by decide)
  exact ⟨counter, (decides false).2.mpr (hasBlock_of_le_streak (by decide))⟩

end Clocked

end Ratewall.Circuit
