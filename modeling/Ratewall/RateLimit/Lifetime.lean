import Ratewall.Config.Documented
import Ratewall.RateLimit.Window
import Ratewall.RateLimit.Budget

/-! Owns how long the limiter's counters live, and what becomes of a window too long for
Redis to count its end. Each counter lapses a window's length after the last
transaction on it, so what lives at a moment was charged within the last window's
length. From the moment on from which a deadline is no integer any more, no check
succeeds and no counter is ever forgotten. -/

namespace Ratewall.RateLimit

open Ratewall.Rust
open Ratewall.Foundation
open Ratewall.Foundation.Program

section

variable {ι : Type} {limiter : RateLimiter} {keyOf : ι → Text} {before after : Limiting ι}
  {event : LimitingEvent ι}

/-! ### The whole store -/

private theorem attempt_left (moment : Nat) (secs : UInt64) (charge : Charge ι) (fate : Fate)
    (isFate : charge.fate = some fate) (entry : Option Redis.Counter) :
    (attempt moment secs fate entry).2 =
      if charge.executed then (Redis.transact moment secs.toNat entry).2 else entry := by
  unfold Charge.executed
  rw [isFate]
  cases fate with
  | delivered => rfl
  | lost executed => cases executed <;> rfl

/-- The store after a charge. -/
def RateLimiter.charged (limiter : RateLimiter) (store : Redis.Store) (key : Text)
    (charge : Charge ι) : Redis.Store :=
  if charge.executed then
    Function.update store (limiter.windowKey key charge.window)
      (Redis.transact charge.moment limiter.windowSecs.toNat
        (store (limiter.windowKey key charge.window))).2
  else store

/-- A step leaves the store alone, or it is that of one charge. -/
theorem store_limitingStep (onTrack : before.Threads (OnTrack limiter keyOf))
    (stepped : limitingStep limiter keyOf before event = some after) :
    (concluded keyOf before event = none ∧ after.shared.store = before.shared.store ∧
      before.shared.now ≤ after.shared.now) ∨
    (∃ charge : Charge ι, charge.moment = before.shared.now ∧
      concluded keyOf before event = some ⟨keyOf charge.input, charge,
        (limiter.charge charge (countersOf limiter before (keyOf charge.input))).1⟩ ∧
      after.shared.now = before.shared.now ∧
      after.shared.store = limiter.charged before.shared.store (keyOf charge.input) charge) := by
  rcases Pool.step_cases stepped with ⟨input, rfl, rfl⟩ |
    ⟨id, offer, asked, op, next, rfl, found, rfl⟩ | ⟨id, thread, rfl, found, rfl⟩ | ⟨millis, rfl, rfl⟩
  · exact Or.inl ⟨rfl, rfl, Nat.le_refl _⟩
  · have here : OnTrack limiter keyOf asked (.call op next) := onTrack id _ found
    cases op with
    | systemTime =>
        left
        refine ⟨?_, rfl, Nat.le_refl _⟩
        simp only [concluded, found]
    | connect =>
        obtain ⟨window, read, continues⟩ := here
        cases connected : offer .connect with
        | true =>
            left
            refine ⟨?_, rfl, Nat.le_refl _⟩
            simp only [concluded, found, connected, continues]
            rfl
        | false =>
            right
            refine ⟨⟨asked.input, window, before.shared.now, none⟩, rfl, ?_, rfl, rfl⟩
            simp only [concluded, found, connected, chargeOf, read, continues]
            rfl
    | transact key secs =>
        obtain ⟨window, read, rfl, rfl, returns⟩ := here
        right
        let fate := Reply.fate
          (offer (.transact (limiter.windowKey (keyOf asked.input) window) limiter.windowSecs))
        refine ⟨⟨asked.input, window, before.shared.now, some fate⟩, rfl, ?_, rfl, ?_⟩
        · simp only [concluded, found, chargeOf, read, returns]
          rfl
        · have left := attempt_left before.shared.now limiter.windowSecs
            (⟨asked.input, window, before.shared.now, some fate⟩ : Charge ι) fate rfl
            (before.shared.store (limiter.windowKey (keyOf asked.input) window))
          show Function.update before.shared.store _ (attempt _ _ fate _).2 = _
          rw [left, RateLimiter.charged]
          split
          next => rfl
          next => exact Function.update_eq_self _ _
  · exact Or.inl ⟨rfl, rfl, Nat.le_refl _⟩
  · exact Or.inl ⟨rfl, rfl, Nat.le_add_right _ _⟩

/-! ### Counters that lapse -/

/-- The counter that a charge leaves behind lapses a window's length after it. -/
def Charge.Leaves (limiter : RateLimiter) (charge : Charge ι) (counter : Redis.Counter) : Prop :=
  charge.executed = true ∧ counter.expireAt = some (charge.moment + limiter.lifetime)

/-- Every counter was left by a charge of the ledger. -/
def Remembered (limiter : RateLimiter) (store : Redis.Store) (ledger : Ledger ι) : Prop :=
  ∀ key counter, store key = some counter → ∃ access ∈ ledger,
    key = limiter.windowKey access.cell access.input.window ∧ access.input.Leaves limiter counter

private theorem remembered_charged {store : Redis.Store} {ledger : Ledger ι} {charge : Charge ι}
    (remembered : Remembered limiter store ledger)
    (sets : Redis.Sets charge.moment limiter.windowSecs.toNat) (key : Text) (verdict : Verdict) :
    Remembered limiter (limiter.charged store key charge) (ledger ++ [⟨key, charge, verdict⟩]) := by
  intro other counter held
  unfold RateLimiter.charged at held
  by_cases executed : charge.executed = true
  · rw [if_pos executed] at held
    by_cases here : other = limiter.windowKey key charge.window
    · rw [here, Function.update_self] at held
      exact ⟨⟨key, charge, verdict⟩, by simp, here, executed, Redis.deadline_of_transact sets held⟩
    · rw [Function.update_of_ne here] at held
      obtain ⟨access, member, named, leaves⟩ := remembered other counter held
      exact ⟨access, List.mem_append_left _ member, named, leaves⟩
  · rw [if_neg executed] at held
    obtain ⟨access, member, named, leaves⟩ := remembered other counter held
    exact ⟨access, List.mem_append_left _ member, named, leaves⟩

private theorem remembered_of_run {start : Nat} {final : Limiting ι}
    {events : List (LimitingEvent ι)}
    (ran : run (limitingStep limiter keyOf) (Pool.init ⟨.empty, start⟩) events = some final)
    (sets : Redis.Sets final.shared.now limiter.windowSecs.toNat) :
    Remembered limiter final.shared.store (limitLog keyOf limiter ⟨.empty, start⟩ events) := by
  have related : final.Threads (OnTrack limiter keyOf) ∧
      (Redis.Sets final.shared.now limiter.windowSecs.toNat →
        Remembered limiter final.shared.store (limitLog keyOf limiter ⟨.empty, start⟩ events)) := by
    apply trail_invariant (fun (pool : Limiting ι) (ledger : Ledger ι) =>
      pool.Threads (OnTrack limiter keyOf) ∧
        (Redis.Sets pool.shared.now limiter.windowSecs.toNat →
          Remembered limiter pool.shared.store ledger)) _ _ ran
    · intro before event after ledger related stepped
      obtain ⟨onTrack, remembered⟩ := related
      refine ⟨onTrack_step onTrack stepped, ?_⟩
      intro sets
      rcases store_limitingStep onTrack stepped with ⟨silent, kept, later⟩ |
        ⟨charge, moment, shown, now, left⟩
      · rw [silent, kept]
        simpa using remembered (sets.earlier later)
      · rw [now] at sets
        rw [shown, left]
        exact remembered_charged (remembered sets) (moment ▸ sets) _ _
    · refine ⟨onTrack_init _, ?_⟩
      intro _ key counter held
      cases held
  exact related.2 sets

end

/-- As long as Redis can set the deadlines, it forgets: of the keys that it ever held,
those that live at a later moment are no more than the transactions that it executed in
the last window's length before that moment, whatever callers, clock and losses did. -/
theorem redis_forgets {ι : Type} (limiter : RateLimiter) (keyOf : ι → Text) (start : Nat)
    (events : List (LimitingEvent ι)) (final : Limiting ι)
    (ran : run (limitingStep limiter keyOf) (Pool.init ⟨.empty, start⟩) events = some final)
    (sets : Redis.Sets final.shared.now limiter.windowSecs.toNat)
    (moment : Nat) (keys : List Text) (distinct : keys.Nodup)
    (live : ∀ key ∈ keys, (Redis.lookup moment (final.shared.store key)).isSome = true) :
    keys.length ≤ (limitLog keyOf limiter ⟨.empty, start⟩ events).countP fun access =>
      access.input.executed && decide (moment ≤ access.input.moment + limiter.lifetime) := by
  have remembered := remembered_of_run ran sets
  let recent : LedgerEntry ι → Bool := fun access =>
    access.input.executed && decide (moment ≤ access.input.moment + limiter.lifetime)
  let keyed : LedgerEntry ι → Text := fun access =>
    limiter.windowKey access.cell access.input.window
  have charged : keys ⊆ ((limitLog keyOf limiter ⟨.empty, start⟩ events).filter recent).map keyed := by
    intro key member
    obtain ⟨counter, found⟩ := Option.isSome_iff_exists.mp (live key member)
    obtain ⟨held, alive⟩ := Option.filter_eq_some_iff.mp found
    obtain ⟨access, inside, named, executed, deadline⟩ := remembered key counter held
    refine List.mem_map.mpr ⟨access, List.mem_filter.mpr ⟨inside, ?_⟩, named.symm⟩
    simpa [recent, executed, Redis.Counter.live, deadline] using alive
  calc keys.length
      ≤ (((limitLog keyOf limiter ⟨.empty, start⟩ events).filter recent).map keyed).length :=
        (List.subperm_of_subset distinct charged).length_le
    _ = (limitLog keyOf limiter ⟨.empty, start⟩ events).countP recent := by
        rw [List.length_map, List.countP_eq_length_filter]

/-- Two requests of one caller: a minute later their one key is still there, and more
cannot be. -/
theorem redis_forgets_two_requests :
    (∀ key ∈ [strictLimiter.windowKey "sub:alice".toList 0],
        (Redis.lookup 60000 (Function.update Redis.Store.empty
          (strictLimiter.windowKey "sub:alice".toList 0) (some ⟨2, some 60000⟩) key)).isSome) ∧
      1 ≤ (limitLog id strictLimiter ⟨.empty, 0⟩
        (decides 0 "sub:alice".toList ++ decides 1 "sub:alice".toList)).countP fun access =>
          access.input.executed && decide (60000 ≤ access.input.moment + strictLimiter.lifetime) := by
  refine ⟨by decide, ?_⟩
  exact redis_forgets strictLimiter id 0
    (decides 0 "sub:alice".toList ++ decides 1 "sub:alice".toList) _ rfl (by decide) 60000
    [strictLimiter.windowKey "sub:alice".toList 0] (List.nodup_singleton _) (by decide)

/-! ### Windows without an end -/

section

variable {ι : Type} {limiter : RateLimiter} {keyOf : ι → Text}

/-- What a run has to show for itself where no deadline can be set. -/
structure Idle (limiter : RateLimiter) (store : Redis.Store) (ledger : Ledger ι) : Prop where
  opened : ∀ access ∈ ledger, access.answer.decision = .opened
  lasting : ∀ key counter, store key = some counter → counter.expireAt = none
  kept : ∀ access ∈ ledger, access.input.executed = true →
    (store (limiter.windowKey access.cell access.input.window)).isSome = true

private theorem transact_isSome (now secs : Nat) (entry : Option Redis.Counter) :
    (Redis.transact now secs entry).2.isSome = true := by
  have counted : (Redis.incr (Redis.lookup now entry)).2.isSome = true := by
    unfold Redis.incr
    split
    next => rfl
    next => split <;> rfl
  unfold Redis.transact Redis.expire
  split
  next => simpa using counted
  next => exact counted

private theorem idle_charged {store : Redis.Store} {ledger : Ledger ι} {charge : Charge ι}
    (idle : Idle limiter store ledger)
    (unset : ¬ Redis.Sets charge.moment limiter.windowSecs.toNat) (key : Text)
    (counters : Nat → Option Redis.Counter) :
    Idle limiter (limiter.charged store key charge)
      (ledger ++ [⟨key, charge, (limiter.charge charge counters).1⟩]) := by
  have stays : ∀ other, (store other).isSome = true →
      (limiter.charged store key charge other).isSome = true := by
    intro other present
    unfold RateLimiter.charged
    split
    next =>
      by_cases here : other = limiter.windowKey key charge.window
      · rw [here, Function.update_self]
        exact transact_isSome _ _ _
      · rw [Function.update_of_ne here]
        exact present
    next => exact present
  refine ⟨?_, ?_, ?_⟩
  · intro access member
    rcases List.mem_append.mp member with old | new
    · exact idle.opened access old
    · rw [List.mem_singleton.mp new]
      exact decision_opened counters fun heard => unset heard.2
  · intro other counter held
    unfold RateLimiter.charged at held
    split at held
    next =>
      by_cases here : other = limiter.windowKey key charge.window
      · rw [here, Function.update_self] at held
        exact Redis.lasting_of_transact unset (idle.lasting _) held
      · rw [Function.update_of_ne here] at held
        exact idle.lasting other counter held
    next => exact idle.lasting other counter held
  · intro access member executed
    rcases List.mem_append.mp member with old | new
    · exact stays _ (idle.kept access old executed)
    · obtain rfl := List.mem_singleton.mp new
      unfold RateLimiter.charged
      rw [if_pos executed, Function.update_self]
      exact transact_isSome _ _ _

private theorem idle_of_run {start : Nat} {final : Limiting ι} {events : List (LimitingEvent ι)}
    (ran : run (limitingStep limiter keyOf) (Pool.init ⟨.empty, start⟩) events = some final)
    (unset : ¬ Redis.Sets start limiter.windowSecs.toNat) :
    Idle limiter final.shared.store (limitLog keyOf limiter ⟨.empty, start⟩ events) := by
  have related : final.Threads (OnTrack limiter keyOf) ∧ start ≤ final.shared.now ∧
      Idle limiter final.shared.store (limitLog keyOf limiter ⟨.empty, start⟩ events) := by
    apply trail_invariant (fun (pool : Limiting ι) (ledger : Ledger ι) =>
      pool.Threads (OnTrack limiter keyOf) ∧ start ≤ pool.shared.now ∧
        Idle limiter pool.shared.store ledger) _ _ ran
    · intro before event after ledger related stepped
      obtain ⟨onTrack, started, idle⟩ := related
      refine ⟨onTrack_step onTrack stepped, ?_⟩
      rcases store_limitingStep onTrack stepped with ⟨silent, kept, later⟩ |
        ⟨charge, moment, shown, now, left⟩
      · rw [silent, kept, Option.toList_none, List.append_nil]
        exact ⟨Nat.le_trans started later, idle⟩
      · rw [now, shown, left]
        exact ⟨started, idle_charged idle (fun sets => unset (sets.earlier (moment ▸ started))) _ _⟩
    · refine ⟨onTrack_init _, Nat.le_refl _, by simp, ?_, by simp⟩
      intro key counter held
      cases held
  exact related.2.2

/-! ### A burst -/

/-- So many checks in a row. -/
def burst (input : ι) : Nat → List (LimitingEvent ι)
  | 0 => []
  | count + 1 => burst input count ++ decides count input

/-- The pool with one more check, and how far that has come. -/
def withCheck (pool : Limiting ι) (asked : Asked ι)
    (rest : Program CounterOp CounterAnswer Decision) : Limiting ι :=
  { pool with
    threads := Function.update pool.threads pool.nextId (some ⟨asked, rest⟩)
    nextId := pool.nextId + 1 }

private theorem step_withCheck (pool : Limiting ι) (asked : Asked ι) (op : CounterOp)
    (next : CounterAnswer op → Program CounterOp CounterAnswer Decision) :
    limitingStep limiter keyOf (withCheck pool asked (.call op next)) (.exec pool.nextId answered) =
      some (withCheck
        { pool with shared := (pool.shared.act pool.nextId op (answered op)).2 }
        (observe limiter asked op (pool.shared.act pool.nextId op (answered op)).1)
        (next (pool.shared.act pool.nextId op (answered op)).1)) := by
  have found : (withCheck pool asked (.call op next)).threads pool.nextId =
      some ⟨asked, .call op next⟩ := Function.update_self _ _ _
  have stepped := @Pool.step_exec _ _ _ _ _ _ _ (limiting limiter keyOf) _ _ _ _ _ found answered
  refine stepped.trans (congrArg some ?_)
  simp only [withCheck, Function.update_idem]
  rfl

private theorem concluded_withCheck (pool : Limiting ι) (asked : Asked ι) (key : Text)
    (secs : UInt64) (decision : Reply → Decision) :
    concluded keyOf
        (withCheck pool asked (.call (.transact key secs) fun reply => .done (decision reply)))
        (.exec pool.nextId answered) =
      some ⟨keyOf asked.input, ⟨asked.input, asked.window.getD 0, pool.shared.now, some .delivered⟩,
        ⟨some (pool.shared.act pool.nextId (.transact key secs) (.count 0)).1,
          decision (pool.shared.act pool.nextId (.transact key secs) (.count 0)).1⟩⟩ := by
  simp only [concluded, withCheck, Function.update_self]
  rfl

/-- A check that nothing disturbs reads the clock, connects and is counted. -/
theorem decides_ran (pool : Limiting ι) (input : ι) :
    ∃ after verdict, run (limitingStep limiter keyOf) pool (decides pool.nextId input) = some after ∧
      after.nextId = pool.nextId + 1 ∧ after.shared.now = pool.shared.now ∧
      trail (limitingStep limiter keyOf) (fun pool event => (concluded keyOf pool event).toList)
          pool (decides pool.nextId input) =
        [⟨keyOf input, ⟨input, limiter.windowAt pool.shared.now, pool.shared.now, some .delivered⟩,
          verdict⟩] := by
  let window := limiter.windowAt pool.shared.now
  let reply := (pool.shared.act pool.nextId
    (.transact (limiter.windowKey (keyOf input) window) limiter.windowSecs) (.count 0)).1
  have spawned : limitingStep limiter keyOf pool (.spawn input) =
      some (withCheck pool ⟨input, none⟩ (limiter.decide (keyOf input))) := rfl
  have timed : limitingStep limiter keyOf
      (withCheck pool ⟨input, none⟩ (limiter.decide (keyOf input)))
      (.exec pool.nextId answered) =
        some (withCheck pool ⟨input, some window⟩ (connecting limiter (keyOf input) window)) :=
    step_withCheck pool _ .systemTime _
  have connected : limitingStep limiter keyOf
      (withCheck pool ⟨input, some window⟩ (connecting limiter (keyOf input) window))
      (.exec pool.nextId answered) =
        some (withCheck pool ⟨input, some window⟩ (counting limiter (keyOf input) window)) :=
    step_withCheck pool _ .connect _
  obtain ⟨after, counted, next, still⟩ : ∃ after, limitingStep limiter keyOf
      (withCheck pool ⟨input, some window⟩ (counting limiter (keyOf input) window))
      (.exec pool.nextId answered) = some after ∧ after.nextId = pool.nextId + 1 ∧
        after.shared.now = pool.shared.now :=
    ⟨_, step_withCheck pool _ (.transact _ _) _, rfl, rfl⟩
  have charged : concluded keyOf
      (withCheck pool ⟨input, some window⟩ (counting limiter (keyOf input) window))
      (.exec pool.nextId answered) =
        some ⟨keyOf input, ⟨input, window, pool.shared.now, some .delivered⟩,
          ⟨some reply, limiter.decision reply⟩⟩ :=
    concluded_withCheck pool _ _ _ limiter.decision
  have ran := run_cons_iff.mpr ⟨_, spawned, run_cons_iff.mpr ⟨_, timed, run_cons_iff.mpr
    ⟨_, connected, run_cons_iff.mpr ⟨_, counted, run_nil _⟩⟩⟩⟩
  refine ⟨after, ⟨some reply, limiter.decision reply⟩, ran, next, still, ?_⟩
  -- only the last of the four steps concludes the check
  rw [decides, trail_cons spawned, trail_cons timed, trail_cons connected, trail_cons counted,
    charged]
  simp only [concluded, withCheck, Function.update_self, decide_eq, connecting, counting, answered,
    Program.result, if_true, Option.map_none, Option.toList_none, Option.toList_some, trail_nil,
    List.nil_append, List.append_nil]
  rfl

/-- Each check of a burst is charged at the same moment in the same window. -/
theorem burst_ran (input : ι) (start count : Nat) :
    ∃ pool, run (limitingStep limiter keyOf) (Pool.init ⟨.empty, start⟩) (burst input count) =
        some pool ∧ pool.nextId = count ∧ pool.shared.now = start ∧
      (historyOf (limitLog keyOf limiter ⟨.empty, start⟩ (burst input count)) (keyOf input)).map
          Prod.fst =
        List.replicate count ⟨input, limiter.windowAt start, start, some .delivered⟩ := by
  induction count with
  | zero => exact ⟨_, rfl, rfl, rfl, rfl⟩
  | succ count inductionHypothesis =>
      obtain ⟨pool, ran, rfl, rfl, charged⟩ := inductionHypothesis
      obtain ⟨after, verdict, further, counted, still, shown⟩ :=
        @decides_ran ι limiter keyOf pool input
      refine ⟨after, run_append_iff.mpr ⟨pool, ran, further⟩, counted, still, ?_⟩
      unfold limitLog at charged ⊢
      rw [burst, trail_append ran, shown, historyOf_append, List.map_append, charged,
        List.replicate_succ']
      simp [historyOf]

private theorem standing_replicate (lifetime now count : Nat) :
    standing lifetime now (List.replicate count now) = count := by
  induction count with
  | zero => rfl
  | succ count inductionHypothesis =>
      rw [List.replicate_succ, standing, if_pos (Nat.le_add_right _ _), inductionHypothesis]
      omega

/-- Where deadlines can be set, the request after `limit` others is limited. -/
theorem limited_after_burst (input : ι) {start : Nat}
    (sets : Redis.Sets start limiter.windowSecs.toNat) :
    ∃ events final, run (limitingStep limiter keyOf) (Pool.init ⟨.empty, start⟩) events = some final ∧
      ∃ access ∈ limitLog keyOf limiter ⟨.empty, start⟩ events,
        access.answer.decision = .limit limiter.windowSecs := by
  obtain ⟨final, ran, -, -, charged⟩ :=
    @burst_ran ι limiter keyOf input start (limiter.limit.toNat + 1)
  refine ⟨_, final, ran, ?_⟩
  let charge : Charge ι := ⟨input, limiter.windowAt start, start, some .delivered⟩
  have held := @settle_eq_left ι limiter (List.replicate limiter.limit.toNat charge)
    (fun other member => by rw [List.eq_of_mem_replicate member]; exact sets)
    (limiter.windowAt start)
  have decided := @decision_eq_after ι limiter charge
    (settle limiter.charge (fun _ => none) (List.replicate limiter.limit.toNat charge)) _ rfl sets
    held
  have hits : hitsBefore (List.replicate limiter.limit.toNat charge) (limiter.windowAt start) =
      List.replicate limiter.limit.toNat start := by
    simp [hitsBefore, charge, Charge.executed]
  have small : limiter.limit.toNat < Redis.maxInteger :=
    Nat.lt_of_lt_of_le limiter.limit.toNat_lt (by decide)
  rw [hits, standing_replicate, RateLimiter.decisionAfter, if_neg (Nat.lt_irrefl _),
    if_pos small] at decided
  have replayed := (limit_history_eq ran (keyOf input)).1
  rw [charged, List.replicate_succ', replies_append] at replayed
  have last : (charge, (limiter.charge charge (settle limiter.charge (fun _ => none)
        (List.replicate limiter.limit.toNat charge))).1) ∈
      historyOf (limitLog keyOf limiter ⟨.empty, start⟩
        (burst input (limiter.limit.toNat + 1))) (keyOf input) := by
    rw [replayed]
    exact List.mem_append_right _ List.mem_cons_self
  obtain ⟨access, filed, same⟩ := List.mem_map.mp last
  refine ⟨access, (List.mem_filter.mp filed).1, ?_⟩
  rw [← decided, (Prod.mk.inj same).2]

end

private theorem windowSecs_of_connect {createPool : Text → Except Text Unit}
    {config : Config.GatewayConfig} {routes : List Config.Route} {limiter : RateLimiter}
    (accepted : config.validate = .ok routes)
    (connected : RateLimiter.connect createPool config.ratelimit.redisUrl config.ratelimit.limit
      (Duration.fromSecs config.ratelimit.windowSecs) none = .ok limiter) :
    limiter.windowSecs = config.ratelimit.windowSecs := by
  have atLeast : 1 ≤ config.ratelimit.windowSecs := by
    simp only [Config.GatewayConfig.validate, Config.bind_ok_iff] at accepted
    obtain ⟨_, -, _, -, _, checked, -⟩ := accepted
    exact (Config.validateRateLimit_ok_iff.mp checked).2.1
  unfold RateLimiter.connect at connected
  split at connected
  next => cases connected
  next =>
    obtain rfl := Except.ok.inj connected
    exact if_pos atLeast

/-- `validate` sets no upper bound on `window_secs`, and what a window too long does is to
switch the limiter off. A gateway that starts at some moment on an empty Redis can limit
a request, in some run, exactly when Redis can count the end of a window from that
moment on. When it cannot, every check of every run lets its request through, and what
they count stays in Redis for good. -/
theorem limits_iff_window_ends (createPool : Text → Except Text Unit)
    (config : Config.GatewayConfig) (routes : List Config.Route) (limiter : RateLimiter)
    (accepted : config.validate = .ok routes)
    (connected : RateLimiter.connect createPool config.ratelimit.redisUrl config.ratelimit.limit
      (Duration.fromSecs config.ratelimit.windowSecs) none = .ok limiter)
    (ι : Type) (keyOf : ι → Text) (input : ι) (start : Nat) :
    ((∃ (events : List (LimitingEvent ι)) (final : Limiting ι),
        run (limitingStep limiter keyOf) (Pool.init ⟨.empty, start⟩) events = some final ∧
        ∃ access ∈ limitLog keyOf limiter ⟨.empty, start⟩ events, ∃ retryAfter,
          access.answer.decision = .limit retryAfter) ↔
      start + 1000 * config.ratelimit.windowSecs.toNat ≤ Redis.maxInteger) ∧
    (Redis.maxInteger < start + 1000 * config.ratelimit.windowSecs.toNat →
      ∀ (events : List (LimitingEvent ι)) (final : Limiting ι),
        run (limitingStep limiter keyOf) (Pool.init ⟨.empty, start⟩) events = some final →
        ∀ access ∈ limitLog keyOf limiter ⟨.empty, start⟩ events,
          access.answer.decision = .opened ∧ (access.input.executed = true → ∀ moment,
            (Redis.lookup moment (final.shared.store
              (limiter.windowKey access.cell access.input.window))).isSome = true)) := by
  rw [← windowSecs_of_connect accepted connected]
  have idle : Redis.maxInteger < start + 1000 * limiter.windowSecs.toNat →
      ¬ Redis.Sets start limiter.windowSecs.toNat := fun above => Nat.not_le_of_gt above
  refine ⟨⟨?_, ?_⟩, ?_⟩
  · rintro ⟨events, final, ran, access, member, retryAfter, limited⟩
    by_contra above
    have opened := (idle_of_run ran (idle (Nat.lt_of_not_le above))).opened access member
    rw [limited] at opened
    cases opened
  · intro sets
    obtain ⟨events, final, ran, access, member, limited⟩ :=
      @limited_after_burst ι limiter keyOf input start sets
    exact ⟨events, final, ran, access, member, _, limited⟩
  · intro above events final ran access member
    have holds := idle_of_run ran (idle above)
    refine ⟨holds.opened access member, ?_⟩
    intro executed moment
    obtain ⟨counter, held⟩ := Option.isSome_iff_exists.mp (holds.kept access member executed)
    have alive : counter.live moment = true := by
      simp [Redis.Counter.live, holds.lasting _ counter held]
    rw [held]
    simp [Redis.lookup, Option.filter, alive]

/-- A window of `u64::MAX` seconds, meant to never end. -/
def endlessConfig : Config.GatewayConfig :=
  { Config.GatewayConfig.ofRoutes ((∅ : Std.TreeMap Text Text).insert "crm".toList
      "http://crm:3000".toList) with
    ratelimit := { Config.RateLimitConfig.default with windowSecs := 18446744073709551615 } }

theorem limits_iff_window_ends_at_endless :
    ¬ ∃ (events : List (LimitingEvent Text)) (final : Limiting Text),
      run (limitingStep ⟨100, Duration.fromSecs 18446744073709551615, []⟩ id)
          (Pool.init ⟨.empty, 0⟩) events = some final ∧
        ∃ access ∈ limitLog id ⟨100, Duration.fromSecs 18446744073709551615, []⟩ ⟨.empty, 0⟩ events,
          ∃ retryAfter, access.answer.decision = .limit retryAfter := by
  have exact' := (limits_iff_window_ends (fun _ => .ok ()) endlessConfig
    [⟨"crm".toList, "http://crm:3000".toList⟩]
    ⟨100, Duration.fromSecs 18446744073709551615, []⟩ rfl rfl Text id [] 0).1
  rw [exact']
  decide

end Ratewall.RateLimit
