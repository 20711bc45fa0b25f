import Ratewall.Foundation.Quota
import Ratewall.RateLimit.Limiting

/-! Owns ledgers: logs of charges, wherever they come from, in which every key was told
what its own charges lead to from empty counters, each in the window that its key
names. In a ledger the counter of a key in a window holds the number of transactions
that were executed for it: the deadline is moved with every hit, to a moment past the
end of the window, and the next window counts under another key. So it owns how much a
key is allowed in a window, and what a refusal says to a caller that waits as long as
it was told to. It does not own any run. -/

namespace Ratewall.RateLimit

open Ratewall.Rust
open Ratewall.Foundation

abbrev LedgerEntry (ι : Type) := Access Text (Charge ι) Verdict

abbrev Ledger (ι : Type) := List (LedgerEntry ι)

section

variable {ι : Type} (limiter : RateLimiter)

def Charge.executed (charge : Charge ι) : Bool :=
  match charge.fate with
  | some .delivered => true
  | some (.lost executed) => executed
  | none => false

/-- The window that a moment lies in. -/
def RateLimiter.windowAt (moment : Nat) : Nat := moment / 1000 / limiter.windowSecs.toNat

def Charge.Timely (charge : Charge ι) : Prop :=
  charge.executed = true → charge.window = limiter.windowAt charge.moment

/-- The counter of a window after so many hits in it. -/
structure Stands (window hits : Nat) (entry : Option Redis.Counter) : Prop where
  absent : hits = 0 → entry = none
  value : ∀ counter, entry = some counter → counter.value = min hits Redis.maxInteger
  deadline : ∀ counter deadline, entry = some counter → counter.expireAt = some deadline →
    1000 * (limiter.windowSecs.toNat * (window + 1)) ≤ deadline
  present : 0 < hits → entry.isSome

end

section

variable {ι : Type} {limiter : RateLimiter}

private theorem moment_lt_end {moment window : Nat} (inside : limiter.windowAt moment = window) :
    moment < 1000 * (limiter.windowSecs.toNat * (window + 1)) := by
  have positive := limiter.windowSecs_pos
  have below : moment / 1000 < limiter.windowSecs.toNat * (window + 1) := by
    rw [Nat.mul_comm]
    exact (Nat.div_lt_iff_lt_mul positive).mp (by rw [← inside]; exact Nat.lt_succ_self _)
  omega

private theorem start_le_moment {moment window : Nat} (inside : limiter.windowAt moment = window) :
    1000 * (limiter.windowSecs.toNat * window) ≤ moment := by
  have above : limiter.windowSecs.toNat * window ≤ moment / 1000 := by
    rw [Nat.mul_comm, ← inside]
    exact Nat.div_mul_le_self _ _
  omega

/-- Inside its window, the counter is found and holds the number of hits. -/
theorem Stands.tally_eq {window hits moment : Nat} {entry : Option Redis.Counter}
    (stands : Stands limiter window hits entry) (inside : limiter.windowAt moment = window) :
    Redis.tally moment entry = min hits Redis.maxInteger := by
  cases entry with
  | none =>
      have none' : hits = 0 := by
        by_contra some'
        have there := stands.present (Nat.pos_of_ne_zero some')
        cases there
      rw [none']
      rfl
  | some counter =>
      have live : counter.live moment = true := by
        unfold Redis.Counter.live
        cases at' : counter.expireAt with
        | none => rfl
        | some deadline =>
            have before := moment_lt_end inside
            have later := stands.deadline counter deadline rfl at'
            simp only [Option.all_some, decide_eq_true_eq]
            omega
      have held := stands.value counter rfl
      simpa [Redis.tally, Redis.lookup, Option.filter, live] using held

theorem Stands.bounded {window hits : Nat} {entry : Option Redis.Counter}
    (stands : Stands limiter window hits entry) : Redis.Bounded entry := by
  intro counter held
  rw [stands.value counter held]
  exact Nat.min_le_right _ _

/-- One more hit, inside the window. -/
theorem Stands.transact {window hits moment : Nat} {entry : Option Redis.Counter}
    (stands : Stands limiter window hits entry) (inside : limiter.windowAt moment = window) :
    Stands limiter window (hits + 1)
      (Redis.transact moment limiter.windowSecs.toNat entry).2 := by
  have counted := stands.tally_eq inside
  rw [Redis.transact_eq stands.bounded, counted]
  refine ⟨by omega, ?_, ?_, fun _ => rfl⟩
  · intro counter same
    obtain rfl := Option.some.inj same
    show min (min hits Redis.maxInteger + 1) Redis.maxInteger = min (hits + 1) Redis.maxInteger
    omega
  · intro counter deadline same at'
    obtain rfl := Option.some.inj same
    have begun := start_le_moment inside
    by_cases sets : Redis.Sets moment limiter.windowSecs.toNat
    · simp only [if_pos sets, Option.some.injEq] at at'
      have spread : 1000 * (limiter.windowSecs.toNat * (window + 1)) =
          1000 * (limiter.windowSecs.toNat * window) + 1000 * limiter.windowSecs.toNat := by
        rw [Nat.mul_succ, Nat.mul_add]
      omega
    · simp only [if_neg sets] at at'
      obtain ⟨held, found, kept⟩ := Option.bind_eq_some_iff.mp at'
      exact stands.deadline held deadline (Option.eq_some_of_filter_eq_some found) kept

private theorem stands_empty (window : Nat) : Stands limiter window 0 none := by
  refine ⟨fun _ => rfl, ?_, ?_, ?_⟩
  · intro counter held
    cases held
  · intro counter deadline held
    cases held
  · intro positive
    cases positive

/-! ### One key -/

/-- The transactions that were executed on the key of a window. -/
def hitsIn (charges : List (Charge ι)) (window : Nat) : Nat :=
  charges.countP fun charge => charge.executed && charge.window == window

/-- A charge changes the counter of its own window, if it is executed. -/
theorem charge_counters (charge : Charge ι) (counters : Nat → Option Redis.Counter) (window : Nat) :
    (limiter.charge charge counters).2 window =
      if charge.executed && charge.window == window then
        (Redis.transact charge.moment limiter.windowSecs.toNat (counters window)).2
      else counters window := by
  unfold RateLimiter.charge Charge.executed
  cases charge.fate with
  | none => simp
  | some fate =>
      by_cases here : charge.window = window
      · subst here
        cases fate with
        | delivered => simp [attempt]
        | lost executed => cases executed <;> simp [attempt]
      · have other : (charge.window == window) = false := beq_false_of_ne here
        simp [other, Function.update_of_ne (Ne.symm here)]

private theorem stands_charge {counters : Nat → Option Redis.Counter} {hits : Nat → Nat}
    (stands : ∀ window, Stands limiter window (hits window) (counters window))
    {charge : Charge ι} (timely : charge.Timely limiter) (window : Nat) :
    Stands limiter window (hits window + hitsIn [charge] window)
      ((limiter.charge charge counters).2 window) := by
  rw [charge_counters, hitsIn, List.countP_singleton]
  split
  next hit =>
    rw [Bool.and_eq_true, beq_iff_eq] at hit
    obtain ⟨executed, rfl⟩ := hit
    exact (stands _).transact (timely executed).symm
  next => exact stands window

private theorem stands_settle {counters : Nat → Option Redis.Counter} {hits : Nat → Nat}
    (stands : ∀ window, Stands limiter window (hits window) (counters window))
    {charges : List (Charge ι)} (timely : ∀ charge ∈ charges, charge.Timely limiter)
    (window : Nat) :
    Stands limiter window (hits window + hitsIn charges window)
      (settle limiter.charge counters charges window) := by
  induction charges generalizing counters hits with
  | nil => exact stands window
  | cons charge rest inductionHypothesis =>
      have next := stands_charge stands (timely charge List.mem_cons_self)
      have later := inductionHypothesis next fun other member =>
        timely other (List.mem_cons_of_mem _ member)
      have counted : hitsIn (charge :: rest) window = hitsIn [charge] window + hitsIn rest window := by
        unfold hitsIn
        rw [← List.countP_append]
        rfl
      rw [counted, ← Nat.add_assoc]
      exact later

/-- A transaction that succeeds is allowed while there were fewer hits than the
limit. -/
theorem decision_of_stands {counters : Nat → Option Redis.Counter} {hits value : Nat}
    {charge : Charge ι} (stands : Stands limiter charge.window hits (counters charge.window))
    (timely : charge.Timely limiter)
    (replied : (limiter.charge charge counters).1.reply = some (.count value)) :
    (limiter.charge charge counters).1.decision =
      if hits < limiter.limit.toNat then .allow else .limit limiter.windowSecs := by
  unfold RateLimiter.charge at replied ⊢
  cases isFate : charge.fate with
  | none => simp [isFate] at replied
  | some fate =>
      simp only [isFate, Option.some.injEq] at replied ⊢
      rw [replied]
      cases fate with
      | lost executed => cases executed <;> simp [attempt] at replied
      | delivered =>
          have inside := (timely (by simp [Charge.executed, isFate])).symm
          simp only [attempt, Redis.transact_eq stands.bounded, stands.tally_eq inside] at replied
          split at replied
          next succeeds =>
            obtain rfl : min hits Redis.maxInteger + 1 = value := by simpa using replied
            have small : limiter.limit.toNat < Redis.maxInteger :=
              Nat.lt_of_lt_of_le limiter.limit.toNat_lt (by decide)
            have exact' : min hits Redis.maxInteger = hits := by omega
            simp only [RateLimiter.decision, exact']
            by_cases fewer : hits < limiter.limit.toNat
            · rw [if_pos fewer, if_neg (by omega)]
            · rw [if_neg fewer, if_pos (by omega)]
          next => simp at replied

private theorem executed_of_count {counters : Nat → Option Redis.Counter} {charge : Charge ι}
    {value : Nat} (replied : (limiter.charge charge counters).1.reply = some (.count value)) :
    charge.executed = true := by
  unfold RateLimiter.charge at replied
  unfold Charge.executed
  cases isFate : charge.fate with
  | none => simp [isFate] at replied
  | some fate =>
      cases fate with
      | delivered => rfl
      | lost executed => cases executed <;> simp [isFate, attempt] at replied

theorem decision_of_failed {counters : Nat → Option Redis.Counter} {charge : Charge ι}
    (failed : ∀ value, (limiter.charge charge counters).1.reply ≠ some (.count value)) :
    (limiter.charge charge counters).1.decision = .opened := by
  unfold RateLimiter.charge at failed ⊢
  cases isFate : charge.fate with
  | none => rfl
  | some fate =>
      simp only [isFate] at failed ⊢
      cases replied : (attempt charge.moment limiter.windowSecs fate (counters charge.window)).1 with
      | count value => exact absurd (congrArg some replied) (failed value)
      | failed executed => rfl

end

section

variable {ι : Type} (limiter : RateLimiter)

/-- The transactions for a key that were executed in a window. -/
def executedIn (log : Ledger ι) (key : Text) (window : Nat) : Nat :=
  log.countP fun access => decide (access.cell = key) &&
    (access.input.executed && limiter.windowAt access.input.moment == window)

/-- What the limiter allows to a key. -/
def allowed (key : Text) (access : Access Text (Charge ι) Verdict) : Bool :=
  decide (access.cell = key) && decide (access.answer.decision = .allow)

end

section

variable {ι : Type} {limiter : RateLimiter}

private theorem executedIn_eq_hits {log : List (Access Text (Charge ι) Verdict)}
    (timely : ∀ access ∈ log, access.input.Timely limiter) (key : Text) (window : Nat) :
    executedIn limiter log key window = hitsIn ((historyOf log key).map Prod.fst) window := by
  unfold executedIn hitsIn historyOf
  rw [List.map_map, List.countP_map, List.countP_filter]
  apply List.countP_congr
  intro access member
  cases executed : access.input.executed with
  | false => simp [executed]
  | true =>
      have named := timely access member executed
      simp [executed, named, and_comm]

private theorem historyOf_split {log earlier later : List (Access Text (Charge ι) Verdict)}
    {access : Access Text (Charge ι) Verdict} (split : log = earlier ++ access :: later) :
    historyOf log access.cell = historyOf earlier access.cell ++
      (access.input, access.answer) :: historyOf later access.cell := by
  rw [split, historyOf_append]
  simp [historyOf]

/-- What a log of timely charges has left under the keys of a caller. -/
theorem stands_history {log : List (Access Text (Charge ι) Verdict)}
    (timely : ∀ access ∈ log, access.input.Timely limiter) (key : Text) (window : Nat) :
    Stands limiter window (executedIn limiter log key window)
      (settle limiter.charge (fun _ => none) ((historyOf log key).map Prod.fst) window) := by
  have timelyCharges : ∀ charge ∈ (historyOf log key).map Prod.fst, charge.Timely limiter := by
    intro charge member
    obtain ⟨entry, inside, rfl⟩ := List.mem_map.mp member
    obtain ⟨access, kept, rfl⟩ := List.mem_map.mp inside
    exact timely access (List.mem_filter.mp kept).1
  have stands := stands_settle (fun window => @stands_empty limiter window) timelyCharges window
  rw [Nat.zero_add] at stands
  rw [executedIn_eq_hits timely]
  exact stands

end

/-- Each key was told what its own charges lead to, and each charge that was executed
was executed in the window that its key names. -/
structure Replayed {ι : Type} (limiter : RateLimiter) (ledger : Ledger ι) : Prop where
  told : ∀ key, historyOf ledger key =
    replies limiter.charge (fun _ => none) ((historyOf ledger key).map Prod.fst)
  timely : ∀ access ∈ ledger, access.input.Timely limiter

/-- The charges are in the order of the clock. -/
def Ordered {ι : Type} (ledger : Ledger ι) : Prop :=
  ledger.Pairwise fun earlier later => earlier.input.moment ≤ later.input.moment

section

variable {ι : Type} {limiter : RateLimiter} {ledger earlier later : Ledger ι}
  {access : LedgerEntry ι}

/-- What a charge is told, by the number of transactions executed before it. -/
theorem Replayed.verdict (replayed : Replayed limiter ledger)
    (split : ledger = earlier ++ access :: later) :
    (∀ value, access.answer.reply = some (.count value) →
      access.input.executed = true ∧ access.answer.decision =
        if executedIn limiter earlier access.cell (limiter.windowAt access.input.moment) <
          limiter.limit.toNat then .allow else .limit limiter.windowSecs) ∧
    ((∀ value, access.answer.reply ≠ some (.count value)) → access.answer.decision = .opened) := by
  have timely := replayed.timely
  rw [split] at timely
  have here : access.input.Timely limiter := timely access (by simp)
  have stands := stands_history (fun other member => timely other (List.mem_append_left _ member))
    access.cell access.input.window
  have history := replayed.told access.cell
  rw [historyOf_split split] at history
  have told := answer_of_replayed history
  simp only at told
  rw [told]
  constructor
  · intro value replied
    have executed := executed_of_count replied
    rw [← here executed]
    exact ⟨executed, decision_of_stands stands here replied⟩
  · exact decision_of_failed

/-- Whatever is not let through as a failure was counted. -/
theorem Replayed.counted (replayed : Replayed limiter ledger)
    (split : ledger = earlier ++ access :: later) (decided : access.answer.decision ≠ .opened) :
    access.input.executed = true ∧ access.answer.decision =
      if executedIn limiter earlier access.cell (limiter.windowAt access.input.moment) <
        limiter.limit.toNat then .allow else .limit limiter.windowSecs := by
  obtain ⟨succeeds, fails⟩ := replayed.verdict split
  by_contra neither
  apply decided
  apply fails
  intro value replied
  exact neither (succeeds value replied)

/-- A key is allowed at most `limit` times in a window. -/
theorem Replayed.allowed_le_limit (replayed : Replayed limiter ledger) (key : Text)
    (window : Nat) :
    ledger.countP (fun access => allowed key access &&
      limiter.windowAt access.input.moment == window) ≤ limiter.limit.toNat := by
  -- the k-th grant of the window is itself the k-th transaction at the earliest
  apply countP_le_quota fun access => decide (access.cell = key) &&
    (access.input.executed && limiter.windowAt access.input.moment == window)
  · intro access member granted
    simp only [allowed, Bool.and_eq_true, decide_eq_true_eq] at granted
    obtain ⟨earlier, later, split⟩ := List.append_of_mem member
    have counted := replayed.counted split (by simp [granted.1.2])
    simp [granted.1.1, granted.2, counted.1]
  · intro earlier access later split granted
    simp only [allowed, Bool.and_eq_true, decide_eq_true_eq, beq_iff_eq] at granted
    have counted := (replayed.counted split (by simp [granted.1.2])).2
    rw [granted.1.1, granted.2, granted.1.2] at counted
    by_contra full
    unfold executedIn at counted
    rw [if_neg full] at counted
    cases counted

/-- A moment that lies a whole window later lies in a later window. -/
theorem RateLimiter.windowAt_lt_of_waited (limiter : RateLimiter) {moment other : Nat}
    (waited : moment + 1000 * limiter.windowSecs.toNat ≤ other) :
    limiter.windowAt moment < limiter.windowAt other := by
  have positive := limiter.windowSecs_pos
  have seconds : moment / 1000 + limiter.windowSecs.toNat ≤ other / 1000 := by omega
  calc limiter.windowAt moment
      < moment / 1000 / limiter.windowSecs.toNat + 1 := Nat.lt_succ_self _
    _ = (moment / 1000 + limiter.windowSecs.toNat) / limiter.windowSecs.toNat :=
        (Nat.add_div_right _ positive).symm
    _ ≤ limiter.windowAt other := Nat.div_le_div_right seconds

/-- What happened before the wait does not count after it. -/
theorem executedIn_after_wait {first : LedgerEntry ι} {between : Ledger ι}
    {key : Text} {moment : Nat} (ordered : Ordered (earlier ++ first :: between))
    (waited : first.input.moment + 1000 * limiter.windowSecs.toNat ≤ moment) :
    executedIn limiter (earlier ++ first :: between) key (limiter.windowAt moment) =
      executedIn limiter between key (limiter.windowAt moment) := by
  have later := limiter.windowAt_lt_of_waited waited
  have past : ∀ access ∈ earlier ++ [first],
      limiter.windowAt access.input.moment ≠ limiter.windowAt moment := by
    intro access member
    have before : access.input.moment ≤ first.input.moment := by
      rcases List.mem_append.mp member with old | here
      · exact (List.pairwise_append.mp ordered).2.2 access old first List.mem_cons_self
      · rw [List.mem_singleton.mp here]
    have notLater : limiter.windowAt access.input.moment ≤ limiter.windowAt first.input.moment :=
      Nat.div_le_div_right (Nat.div_le_div_right before)
    omega
  have joined : earlier ++ first :: between = (earlier ++ [first]) ++ between := by simp
  rw [joined]
  unfold executedIn
  rw [List.countP_append, Nat.add_eq_right, List.countP_eq_zero]
  intro access member
  simp [past access member]

/-- A caller that waits as long as a refusal tells it to is refused again only once
`limit` further transactions for its key were executed. -/
theorem Replayed.refused_again (replayed : Replayed limiter ledger) (ordered : Ordered ledger)
    {first second : LedgerEntry ι} {between : Ledger ι}
    {retryAfter again : UInt64}
    (split : ledger = earlier ++ first :: between ++ second :: later)
    (same : second.cell = first.cell) (refused : first.answer.decision = .limit retryAfter)
    (waited : first.input.moment + 1000 * retryAfter.toNat ≤ second.input.moment)
    (refusedAgain : second.answer.decision = .limit again) :
    limiter.limit.toNat ≤
      executedIn limiter between first.cell (limiter.windowAt second.input.moment) := by
  have splitFirst : ledger = earlier ++ first :: (between ++ second :: later) := by
    rw [split]
    simp
  have told := (replayed.counted splitFirst (by simp [refused])).2
  have whole : retryAfter = limiter.windowSecs := by
    rw [refused] at told
    split at told
    next => cases told
    next => exact Decision.limit.inj told
  rw [whole] at waited
  rw [split] at ordered
  have counted := (replayed.counted split (by simp [refusedAgain])).2
  rw [refusedAgain, same,
    executedIn_after_wait (List.pairwise_append.mp ordered).1 waited] at counted
  by_contra fewer
  rw [if_pos (by omega)] at counted
  cases counted

end

end Ratewall.RateLimit
