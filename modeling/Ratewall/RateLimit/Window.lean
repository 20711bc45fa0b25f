import Ratewall.RateLimit.Ledger

/-! Owns the exactness of the fixed window. While every transaction is executed in
the window that its key names, what a run of checks leaves behind is a ledger. It does
not own what happens to a transaction that comes late. -/

namespace Ratewall.RateLimit

open Ratewall.Rust
open Ratewall.Foundation
open Ratewall.Foundation.Program

/-- A transaction that is executed is executed in the window that its key names. -/
def InWindow {ι : Type} (limiter : RateLimiter) (pool : Limiting ι) : LimitingEvent ι → Prop
  | .exec id offer => ∀ asked key secs next,
      pool.threads id = some ⟨asked, .call (.transact key secs) next⟩ →
      offer (.transact key secs) ≠ .failed false →
        asked.window = some (limiter.windowAt pool.shared.now)
  | _ => True

section

variable {ι : Type} {limiter : RateLimiter} {keyOf : ι → Text} {before : Limiting ι}
  {event : LimitingEvent ι}

private theorem timely_concluded (inWindow : InWindow limiter before event)
    {access : Access Text (Charge ι) Verdict} (shown : concluded keyOf before event = some access) :
    access.input.Timely limiter := by
  cases event with
  | exec id offer =>
      simp only [concluded] at shown
      split at shown
      next asked next _ =>
        obtain ⟨decision, -, rfl⟩ := Option.map_eq_some_iff.mp shown
        intro executed
        cases executed
      next asked key secs next found =>
        obtain ⟨decision, -, rfl⟩ := Option.map_eq_some_iff.mp shown
        intro executed
        have sent : offer (.transact key secs) ≠ .failed false := by
          intro lost
          simp [Charge.executed, chargeOf, lost, Reply.fate] at executed
        have read := inWindow asked key secs next found sent
        simp [chargeOf, read]
      next => cases shown
  | _ => cases shown

private theorem timely_log {start : Server} {final : Limiting ι} {events : List (LimitingEvent ι)}
    (inWindow : Meets (limitingStep limiter keyOf) (InWindow limiter) (Pool.init start) events)
    (ran : run (limitingStep limiter keyOf) (Pool.init start) events = some final) :
    ∀ access ∈ limitLog keyOf limiter start events, access.input.Timely limiter := by
  have related : ∀ access ∈ [] ++ limitLog keyOf limiter start events,
      access.input.Timely limiter := by
    apply trail_invariant_of_meets
      (fun (_ : Limiting ι) (log : List (Access Text (Charge ι) Verdict)) =>
        ∀ access ∈ log, access.input.Timely limiter) _ (by simp) inWindow ran
    intro before event after log timely inWindow stepped access member
    rcases List.mem_append.mp member with old | new
    · exact timely access old
    · exact timely_concluded inWindow (Option.mem_toList.mp new)
  simpa using related

/-- While no transaction comes late, the log of a run is a ledger. -/
theorem replayed_limitLog {start : Nat} {final : Limiting ι} {events : List (LimitingEvent ι)}
    (inWindow : Meets (limitingStep limiter keyOf) (InWindow limiter) (Pool.init ⟨.empty, start⟩)
      events)
    (ran : run (limitingStep limiter keyOf) (Pool.init ⟨.empty, start⟩) events = some final) :
    Replayed limiter (limitLog keyOf limiter ⟨.empty, start⟩ events) :=
  ⟨fun key => (limit_history_eq ran key).1, timely_log inWindow ran⟩

end

/-- While every transaction is executed in the window that its key names, a check
that succeeds is allowed exactly when fewer than `limit` transactions were executed
before it for its key in its window, and limited otherwise; one that fails is let
through. So no key gets more than `limit` in a window or twice that in any
`window_secs` seconds, and none is limited before it had `limit`. -/
theorem fixed_window_is_exact {ι : Type} (limiter : RateLimiter) (keyOf : ι → Text) (start : Nat)
    (events : List (LimitingEvent ι))
    (inWindow : Meets (limitingStep limiter keyOf) (InWindow limiter) (Pool.init ⟨.empty, start⟩)
      events)
    (final : Limiting ι)
    (ran : run (limitingStep limiter keyOf) (Pool.init ⟨.empty, start⟩) events = some final) :
    let log := limitLog keyOf limiter ⟨.empty, start⟩ events
    (∀ earlier access later, log = earlier ++ access :: later →
      (∀ value, access.answer.reply = some (.count value) →
        (access.answer.decision = .allow ↔ executedIn limiter earlier access.cell
          (limiter.windowAt access.input.moment) < limiter.limit.toNat) ∧
        (access.answer.decision ≠ .allow → access.answer.decision = .limit limiter.windowSecs)) ∧
      ((∀ value, access.answer.reply ≠ some (.count value)) → access.answer.decision = .opened)) ∧
    (∀ key window, log.countP (fun access => allowed key access &&
      limiter.windowAt access.input.moment == window) ≤ limiter.limit.toNat) ∧
    (∀ key second, log.countP (fun access => allowed key access &&
      (decide (second ≤ access.input.moment / 1000) &&
        decide (access.input.moment / 1000 < second + limiter.windowSecs.toNat))) ≤
      2 * limiter.limit.toNat) ∧
    (∀ earlier access later retryAfter, log = earlier ++ access :: later →
      access.answer.decision = .limit retryAfter → limiter.limit.toNat ≤
        executedIn limiter earlier access.cell (limiter.windowAt access.input.moment)) := by
  intro log
  have replayed := replayed_limitLog inWindow ran
  have inEach := replayed.allowed_le_limit
  refine ⟨?_, inEach, ?_, ?_⟩
  · intro earlier access later split
    obtain ⟨succeeds, fails⟩ := replayed.verdict split
    refine ⟨?_, fails⟩
    intro value replied
    rw [(succeeds value replied).2]
    by_cases fewer : executedIn limiter earlier access.cell
        (limiter.windowAt access.input.moment) < limiter.limit.toNat
    · simp [fewer]
    · simp [fewer]
  · intro key second
    exact countP_span_le (fun window => inEach key window) second
  · intro earlier access later retryAfter split limited
    have counted := (replayed.counted split (by simp [limited])).2
    rw [limited] at counted
    by_contra fewer
    rw [if_pos (by omega)] at counted
    cases counted

/-- While the clock stands still, no transaction comes late. -/
theorem inWindow_of_still {ι : Type} {limiter : RateLimiter} {keyOf : ι → Text} {start : Server}
    {events : List (LimitingEvent ι)} (still : ∀ event ∈ events, ∀ millis, event ≠ .ambient millis) :
    Meets (limitingStep limiter keyOf) (InWindow limiter) (Pool.init start) events := by
  have meets := @meets_of_forall _ _ (limitingStep limiter keyOf) _ events still (Pool.init start)
  apply @meets_of_invariant _ _ _ _ (fun pool : Limiting ι =>
    pool.Threads (OnTrack limiter keyOf) ∧ pool.shared.now = start.now ∧
      pool.Threads fun asked _ => ∀ window, asked.window = some window →
        window = limiter.windowAt start.now) _ _ _ _ _
    ⟨onTrack_init start, rfl, Pool.threads_init _ _⟩ meets
  · intro before event after holds notTick stepped
    obtain ⟨onTrack, now, windows⟩ := holds
    refine ⟨onTrack_step onTrack stepped, ?_⟩
    rcases Pool.step_cases stepped with ⟨input, rfl, rfl⟩ |
      ⟨id, offer, asked, op, next, rfl, found, rfl⟩ | ⟨id, thread, rfl, found, rfl⟩ |
      ⟨millis, rfl, rfl⟩
    · refine ⟨now, ?_⟩
      intro other thread at' window read
      rcases filled_cases at' with ⟨-, rfl⟩ | ⟨-, held⟩
      · cases read
      · exact windows other thread held window read
    · refine ⟨?_, ?_⟩
      · cases op <;> exact now
      · intro other thread at' window read
        rcases filled_cases at' with ⟨-, rfl⟩ | ⟨-, held⟩
        · cases op with
          | systemTime =>
              rw [← now]
              exact (Option.some.inj read).symm
          | connect => exact windows id _ found window read
          | transact key secs => exact windows id _ found window read
        · exact windows other thread held window read
    · refine ⟨now, ?_⟩
      intro other thread at' window read
      exact windows other thread (emptied_cases at').2 window read
    · exact absurd rfl (notTick millis)
  · intro before event holds _
    obtain ⟨onTrack, now, windows⟩ := holds
    cases event with
    | exec id offer =>
        intro asked key secs next found _
        obtain ⟨window, read, -⟩ : OnTrack limiter keyOf asked (.call (.transact key secs) next) :=
          onTrack id _ found
        rw [read, windows id _ found window read, now]
    | _ => exact trivial

/-- A minute's limit of one: the second request of the minute is limited. -/
theorem fixed_window_is_exact_on_two_requests :
    ∃ final : Limiting Text,
      run (limitingStep strictLimiter id) (Pool.init ⟨.empty, 0⟩)
          (decides 0 "sub:alice".toList ++ decides 1 "sub:alice".toList) = some final ∧
        (limitLog id strictLimiter ⟨.empty, 0⟩
          (decides 0 "sub:alice".toList ++ decides 1 "sub:alice".toList)).map
            (fun access => access.answer.decision) = [.allow, .limit 60] ∧
        (limitLog id strictLimiter ⟨.empty, 0⟩
          (decides 0 "sub:alice".toList ++ decides 1 "sub:alice".toList)).countP
            (fun access => allowed "sub:alice".toList access &&
              strictLimiter.windowAt access.input.moment == 0) ≤ 1 := by
  have exact' := fixed_window_is_exact strictLimiter id 0
    (decides 0 "sub:alice".toList ++ decides 1 "sub:alice".toList)
    (inWindow_of_still (by simp [decides])) _ rfl
  exact ⟨_, rfl, rfl, exact'.2.1 "sub:alice".toList 0⟩

end Ratewall.RateLimit
