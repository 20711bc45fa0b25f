import Ratewall.Foundation.Pool
import Ratewall.Foundation.Trail
import Ratewall.RateLimit.Decide

/-! Owns the limiter at work: any number of `decide` calls, of any number of
gateway replicas with one configuration, over one Redis and one clock. A call can
fail to get a connection, its transaction can be lost before or after Redis
executes it, and it can be dropped between any two of its awaits. A transaction
that is executed after its caller gave up is one that was executed and whose reply
was lost.

A run is seen as a log of charges: which call reached Redis, when, for which
window, and what it was told. What is told to one key is a function of the
charges of that key alone. -/

namespace Ratewall.RateLimit

open Ratewall.Rust
open Ratewall.Foundation
open Ratewall.Foundation.Program

/-! ### Redis and the clock -/

structure Server where
  store : Redis.Store
  now : Nat

/-- What the surroundings do to a transaction. -/
inductive Fate where
  | delivered
  | lost (executed : Bool)
deriving DecidableEq, Repr

def Reply.fate : Reply → Fate
  | .count _ => .delivered
  | .failed executed => .lost executed

/-- A transaction on one key: what its caller hears, and what is left there. -/
def attempt (now : Nat) (secs : UInt64) (fate : Fate) (entry : Option Redis.Counter) :
    Reply × Option Redis.Counter :=
  match fate with
  | .delivered =>
      let executed := Redis.transact now secs.toNat entry
      (executed.1.elim (.failed true) .count, executed.2)
  | .lost true => (.failed true, (Redis.transact now secs.toNat entry).2)
  | .lost false => (.failed false, entry)

def Server.act (server : Server) (_id : Nat) :
    (op : CounterOp) → CounterAnswer op → CounterAnswer op × Server
  | .systemTime, _ => (some server.now, server)
  | .connect, connected => (connected, server)
  | .transact key secs, offer =>
      let attempted := attempt server.now secs offer.fate (server.store key)
      (attempted.1, { server with store := Function.update server.store key attempted.2 })

def Server.tick (server : Server) (millis : Nat) : Server :=
  { server with now := server.now + millis }

/-! ### The calls -/

/-- What is known about a call: on whose behalf it is made, and the window that it
has read off the clock. -/
structure Asked (ι : Type) where
  input : ι
  window : Option Nat

section

variable {ι : Type} (limiter : RateLimiter) (keyOf : ι → Text)

def observe (asked : Asked ι) : (op : CounterOp) → CounterAnswer op → Asked ι
  | .systemTime, now => { asked with window := some (limiter.windowKeySuffix now) }
  | _, _ => asked

def limiting : System CounterOp CounterAnswer Decision (Asked ι) Server ι Nat where
  body := fun input => limiter.decide (keyOf input)
  note := fun input => ⟨input, none⟩
  act := Server.act
  observe := observe limiter
  ambient := Server.tick

abbrev Limiting (ι : Type) := Pool CounterOp CounterAnswer Decision (Asked ι) Server
abbrev LimitingEvent (ι : Type) := Pool.Event CounterOp CounterAnswer ι Nat

def limitingStep : Limiting ι → LimitingEvent ι → Option (Limiting ι) :=
  Pool.step (limiting limiter keyOf)

end

/-! ### The log -/

/-- A call as Redis sees it. Without a connection it has no fate. -/
structure Charge (ι : Type) where
  input : ι
  window : Nat
  moment : Nat
  fate : Option Fate
deriving DecidableEq, Repr

structure Verdict where
  reply : Option Reply
  decision : Decision
deriving DecidableEq, Repr

section

variable {ι : Type} (keyOf : ι → Text)

def chargeOf (pool : Limiting ι) (asked : Asked ι) (fate : Option Fate) : Charge ι :=
  ⟨asked.input, asked.window.getD 0, pool.shared.now, fate⟩

/-- The step in which a call gets its decision. -/
def concluded (pool : Limiting ι) : LimitingEvent ι → Option (Access Text (Charge ι) Verdict)
  | .exec id offer =>
      match pool.threads id with
      | some ⟨asked, .call .connect next⟩ =>
          (next (offer .connect)).result.map fun decision =>
            ⟨keyOf asked.input, chargeOf pool asked none, ⟨none, decision⟩⟩
      | some ⟨asked, .call (.transact key secs) next⟩ =>
          let offered := offer (.transact key secs)
          let reply := (pool.shared.act id (.transact key secs) offered).1
          (next reply).result.map fun decision =>
            ⟨keyOf asked.input, chargeOf pool asked (some offered.fate), ⟨some reply, decision⟩⟩
      | _ => none
  | _ => none

def limitLog (limiter : RateLimiter) (start : Server) (events : List (LimitingEvent ι)) :
    List (Access Text (Charge ι) Verdict) :=
  trail (limitingStep limiter keyOf) (fun pool event => (concluded keyOf pool event).toList)
    (Pool.init start) events

end

/-! ### One key -/

/-- One charge against the counters of its key, one for each window. -/
def RateLimiter.charge {ι : Type} (limiter : RateLimiter) (charge : Charge ι)
    (counters : Nat → Option Redis.Counter) : Verdict × (Nat → Option Redis.Counter) :=
  match charge.fate with
  | none => (⟨none, .opened⟩, counters)
  | some fate =>
      let attempted := attempt charge.moment limiter.windowSecs fate (counters charge.window)
      (⟨some attempted.1, limiter.decision attempted.1⟩,
        Function.update counters charge.window attempted.2)

/-- The counters of a key. -/
def countersOf {ι : Type} (limiter : RateLimiter) (pool : Limiting ι) (key : Text) :
    Nat → Option Redis.Counter :=
  fun window => pool.shared.store (limiter.windowKey key window)

section

variable {ι : Type} {limiter : RateLimiter} {keyOf : ι → Text} {before after : Limiting ι}
  {event : LimitingEvent ι}

/-! ### What a step can do -/

def counting (limiter : RateLimiter) (key : Text) (window : Nat) :
    Program CounterOp CounterAnswer Decision :=
  .call (.transact (limiter.windowKey key window) limiter.windowSecs) fun reply =>
    .done (limiter.decision reply)

def connecting (limiter : RateLimiter) (key : Text) (window : Nat) :
    Program CounterOp CounterAnswer Decision :=
  .call .connect fun connected =>
    if connected then counting limiter key window else .done .opened

/-- The first await of `decide` is the clock. -/
theorem decide_eq (limiter : RateLimiter) (key : Text) :
    limiter.decide key =
      .call .systemTime fun now => connecting limiter key (limiter.windowKeySuffix now) := rfl

/-- A call that is under way stands at one of the three awaits of `decide`, and its
key is that of the window it has read. -/
def OnTrack (limiter : RateLimiter) (keyOf : ι → Text) (asked : Asked ι) :
    Program CounterOp CounterAnswer Decision → Prop
  | .done _ => True
  | .call .systemTime next =>
      ∀ now, next now = connecting limiter (keyOf asked.input) (limiter.windowKeySuffix now)
  | .call .connect next =>
      ∃ window, asked.window = some window ∧ ∀ connected, next connected =
        if connected then counting limiter (keyOf asked.input) window else .done .opened
  | .call (.transact key secs) next =>
      ∃ window, asked.window = some window ∧ key = limiter.windowKey (keyOf asked.input) window ∧
        secs = limiter.windowSecs ∧ ∀ reply, next reply = .done (limiter.decision reply)

theorem onTrack_init (start : Server) : (Pool.init start).Threads (OnTrack limiter keyOf) :=
  Pool.threads_init _ _

/-- Every step keeps the calls under way at the awaits of `decide`. -/
theorem onTrack_step (onTrack : before.Threads (OnTrack limiter keyOf))
    (stepped : limitingStep limiter keyOf before event = some after) :
    after.Threads (OnTrack limiter keyOf) := by
  apply Pool.threads_step _ _ onTrack stepped
  · intro input _ now
    rfl
  · intro asked op next here answer
    cases op with
    | systemTime =>
        rw [here answer]
        exact ⟨_, rfl, fun _ => rfl⟩
    | connect =>
        obtain ⟨window, read, continues⟩ := here
        rw [continues answer]
        cases answer with
        | true => exact ⟨window, read, rfl, rfl, fun _ => rfl⟩
        | false => exact trivial
    | transact key secs =>
        obtain ⟨window, -, -, -, returns⟩ := here
        rw [returns answer]
        exact trivial

/-- A transaction moves one counter of its key. -/
theorem countersOf_own (store : Redis.Store) (key : Text) (window : Nat)
    (entry : Option Redis.Counter) :
    (fun other => Function.update store (limiter.windowKey key window) entry
        (limiter.windowKey key other)) =
      Function.update (fun other => store (limiter.windowKey key other)) window entry := by
  funext other
  by_cases same : other = window
  · rw [same, Function.update_self, Function.update_self]
  · have apart : limiter.windowKey key other ≠ limiter.windowKey key window := by
      rw [Ne, limiter.windowKey_inj]
      exact fun equal => same equal.2
    rw [Function.update_of_ne apart, Function.update_of_ne same]

theorem countersOf_other (store : Redis.Store) {key other : Text} (different : other ≠ key)
    (window : Nat) (entry : Option Redis.Counter) :
    (fun window' => Function.update store (limiter.windowKey key window) entry
        (limiter.windowKey other window')) =
      fun window' => store (limiter.windowKey other window') := by
  funext window'
  have apart : limiter.windowKey other window' ≠ limiter.windowKey key window := by
    rw [Ne, limiter.windowKey_inj]
    exact fun equal => different equal.1
  rw [Function.update_of_ne apart]

/-- A step leaves Redis alone, or it charges one call against the counters of its
key. -/
theorem limitingStep_cases (onTrack : before.Threads (OnTrack limiter keyOf))
    (stepped : limitingStep limiter keyOf before event = some after) :
    (concluded keyOf before event = none ∧ after.shared.store = before.shared.store ∧
      before.shared.now ≤ after.shared.now) ∨
    (∃ charge : Charge ι, charge.moment = before.shared.now ∧
      concluded keyOf before event = some ⟨keyOf charge.input, charge,
        (limiter.charge charge (countersOf limiter before (keyOf charge.input))).1⟩ ∧
      after.shared.now = before.shared.now ∧
      countersOf limiter after (keyOf charge.input) =
        (limiter.charge charge (countersOf limiter before (keyOf charge.input))).2 ∧
      ∀ other, other ≠ keyOf charge.input →
        countersOf limiter after other = countersOf limiter before other) := by
  rcases Pool.step_cases stepped with ⟨input, rfl, rfl⟩ |
    ⟨id, offer, asked, op, next, rfl, found, rfl⟩ | ⟨id, thread, rfl, found, rfl⟩ | ⟨millis, rfl, rfl⟩
  · exact Or.inl ⟨rfl, rfl, Nat.le_refl _⟩
  · have here : OnTrack limiter keyOf asked (.call op next) := onTrack id _ found
    cases op with
    | systemTime =>
        left
        refine ⟨?_, rfl, Nat.le_refl _⟩
        simp only [concluded, found]
    | connect =>
        obtain ⟨window, read, continues⟩ := here
        cases connected : offer .connect with
        | true =>
            left
            refine ⟨?_, rfl, Nat.le_refl _⟩
            simp only [concluded, found, connected, continues]
            rfl
        | false =>
            right
            refine ⟨⟨asked.input, window, before.shared.now, none⟩, rfl, ?_, rfl, rfl, fun _ _ => rfl⟩
            simp only [concluded, found, connected, chargeOf, read, continues]
            rfl
    | transact key secs =>
        obtain ⟨window, read, rfl, rfl, returns⟩ := here
        right
        refine ⟨⟨asked.input, window, before.shared.now, some (Reply.fate
          (offer (.transact (limiter.windowKey (keyOf asked.input) window) limiter.windowSecs)))⟩,
          rfl, ?_, rfl, ?_, ?_⟩
        · simp only [concluded, found, chargeOf, read, returns]
          rfl
        · exact countersOf_own before.shared.store _ _ _
        · intro other different
          exact countersOf_other before.shared.store different _ _
  · exact Or.inl ⟨rfl, rfl, Nat.le_refl _⟩
  · exact Or.inl ⟨rfl, rfl, Nat.le_add_right _ _⟩

/-! ### What a run tells one key -/

private theorem accesses_limitingStep (onTrack : before.Threads (OnTrack limiter keyOf))
    (stepped : limitingStep limiter keyOf before event = some after) :
    Accesses limiter.charge (countersOf limiter) before after (concluded keyOf before event) := by
  rcases limitingStep_cases onTrack stepped with ⟨silent, kept, -⟩ |
    ⟨charge, -, shown, -, charged, others⟩
  · rw [silent]
    refine ⟨by simp, ?_⟩
    intro key _
    unfold countersOf
    rw [kept]
  · rw [shown]
    refine ⟨?_, ?_⟩
    · intro access same
      obtain rfl := Option.some.inj same
      rw [charged]
    · intro key away
      exact others key (away _ rfl).symm

/-- What a key was told follows from its own charges, and so do its counters. -/
theorem limit_history_eq {start : Server} {final : Limiting ι} {events : List (LimitingEvent ι)}
    (ran : run (limitingStep limiter keyOf) (Pool.init start) events = some final) (key : Text) :
    let history := historyOf (limitLog keyOf limiter start events) key
    history = replies limiter.charge (countersOf limiter (Pool.init start : Limiting ι) key)
        (history.map Prod.fst) ∧
      countersOf limiter final key =
        settle limiter.charge (countersOf limiter (Pool.init start : Limiting ι) key)
          (history.map Prod.fst) :=
  history_eq_replay onTrack_step accesses_limitingStep (onTrack_init start) ran key

/-- The log files every charge under the key of its caller. -/
theorem cell_of_mem_limitLog {start : Server} {final : Limiting ι} {events : List (LimitingEvent ι)}
    (ran : run (limitingStep limiter keyOf) (Pool.init start) events = some final) :
    ∀ access ∈ limitLog keyOf limiter start events, access.cell = keyOf access.input.input := by
  apply And.right
  apply trail_invariant (fun (pool : Limiting ι) (log : List (Access Text (Charge ι) Verdict)) =>
    pool.Threads (OnTrack limiter keyOf) ∧ ∀ access ∈ log, access.cell = keyOf access.input.input)
    _ ⟨onTrack_init start, by simp⟩ ran
  intro before event after log related stepped
  obtain ⟨onTrack, filed⟩ := related
  refine ⟨onTrack_step onTrack stepped, ?_⟩
  intro access member
  rcases List.mem_append.mp member with old | new
  · exact filed access old
  · rcases limitingStep_cases onTrack stepped with ⟨silent, -⟩ | ⟨charge, -, shown, -⟩
    · simp [silent] at new
    · rw [shown] at new
      obtain rfl := List.mem_singleton.mp new
      rfl

/-- The log is in the order of the clock. -/
theorem limitLog_ordered {start : Server} {final : Limiting ι} {events : List (LimitingEvent ι)}
    (ran : run (limitingStep limiter keyOf) (Pool.init start) events = some final) :
    (limitLog keyOf limiter start events).Pairwise fun earlier later =>
      earlier.input.moment ≤ later.input.moment := by
  have related : final.Threads (OnTrack limiter keyOf) ∧
      (∀ access ∈ limitLog keyOf limiter start events, access.input.moment ≤ final.shared.now) ∧
      (limitLog keyOf limiter start events).Pairwise fun earlier later =>
        earlier.input.moment ≤ later.input.moment := by
    apply trail_invariant (fun (pool : Limiting ι) (log : List (Access Text (Charge ι) Verdict)) =>
      pool.Threads (OnTrack limiter keyOf) ∧
        (∀ access ∈ log, access.input.moment ≤ pool.shared.now) ∧
        log.Pairwise fun earlier later => earlier.input.moment ≤ later.input.moment)
      _ ⟨onTrack_init start, by simp, List.Pairwise.nil⟩ ran
    intro before event after log related stepped
    obtain ⟨onTrack, past, ordered⟩ := related
    refine ⟨onTrack_step onTrack stepped, ?_⟩
    rcases limitingStep_cases onTrack stepped with ⟨silent, -, later⟩ | ⟨charge, now, shown, same, -⟩
    · rw [silent, Option.toList_none, List.append_nil]
      exact ⟨fun access member => Nat.le_trans (past access member) later, ordered⟩
    · rw [shown, Option.toList_some, same]
      constructor
      · intro access member
        rcases List.mem_append.mp member with old | new
        · exact past access old
        · rw [List.mem_singleton.mp new, now]
      · refine List.pairwise_append.mpr ⟨ordered, List.pairwise_singleton _ _, ?_⟩
        intro access member other new
        rw [List.mem_singleton.mp new, now]
        exact past access member
  exact related.2.2

end

/-! ### Subjects -/

section

variable {ι : Type} (subjectOf : ι → Option Text)

/-- The limit key that `proxy_fallback` derives. -/
def requestKey (input : ι) : Text := limitKey (subjectOf input) "unkeyed".toList

/-- The charges of one subject in the order of the run, with what each was told. -/
def toldTo (subject : Text) (log : List (Access Text (Charge ι) Verdict)) :
    List (Charge ι × Verdict) :=
  (log.filter fun access => subjectOf access.input.input = some subject).map fun access =>
    (access.input, access.answer)

end

private theorem limitKey_eq_subject_iff {caller : Option Text} {subject ip : Text} :
    limitKey caller ip = limitKey (some subject) ip ↔ caller = some subject := by
  cases caller with
  | none => simp [limitKey]
  | some other => simp [limitKey]

/-- What a subject was told is the history of its key. -/
theorem toldTo_eq_history {ι : Type} {subjectOf : ι → Option Text} {limiter : RateLimiter}
    {start : Server} {final : Limiting ι} {events : List (LimitingEvent ι)}
    (ran : run (limitingStep limiter (requestKey subjectOf)) (Pool.init start) events = some final)
    (subject : Text) :
    toldTo subjectOf subject (limitLog (requestKey subjectOf) limiter start events) =
      historyOf (limitLog (requestKey subjectOf) limiter start events)
        (limitKey (some subject) "unkeyed".toList) := by
  unfold toldTo historyOf
  congr 1
  apply List.filter_congr
  intro access member
  rw [cell_of_mem_limitLog ran access member, requestKey]
  simp only [limitKey_eq_subject_iff]

/-- Two subjects use one Redis key exactly when they are one subject in one window.
So in two runs in which a subject makes the same requests at the same moments, with
the same losses, and finds the same in Redis, it is told the same, whatever other
callers do in either. -/
theorem subjects_keep_their_budgets (limiter : RateLimiter) :
    (∀ (left right leftIp rightIp : Text) (first second : Nat),
      limiter.windowKey (limitKey (some left) leftIp) (limiter.windowKeySuffix (some first)) =
          limiter.windowKey (limitKey (some right) rightIp) (limiter.windowKeySuffix (some second)) ↔
        left = right ∧
          first / 1000 / limiter.windowSecs.toNat = second / 1000 / limiter.windowSecs.toNat) ∧
    (∀ (ι : Type) (subjectOf : ι → Option Text) (subject : Text) (start start' : Server)
      (events events' : List (LimitingEvent ι)) (final final' : Limiting ι),
      run (limitingStep limiter (requestKey subjectOf)) (Pool.init start) events = some final →
      run (limitingStep limiter (requestKey subjectOf)) (Pool.init start') events' = some final' →
      (∀ window, start.store (limiter.windowKey (limitKey (some subject) "unkeyed".toList) window) =
        start'.store (limiter.windowKey (limitKey (some subject) "unkeyed".toList) window)) →
      (toldTo subjectOf subject (limitLog (requestKey subjectOf) limiter start events)).map Prod.fst =
        (toldTo subjectOf subject
          (limitLog (requestKey subjectOf) limiter start' events')).map Prod.fst →
      toldTo subjectOf subject (limitLog (requestKey subjectOf) limiter start events) =
        toldTo subjectOf subject (limitLog (requestKey subjectOf) limiter start' events')) := by
  constructor
  · intro left right leftIp rightIp first second
    rw [limiter.windowKey_inj, limitKey_subject_inj]
    rfl
  · intro ι subjectOf subject start start' events events' final final' ran ran' found same
    rw [toldTo_eq_history ran, toldTo_eq_history ran'] at same ⊢
    have initially : countersOf limiter (Pool.init start : Limiting ι)
          (limitKey (some subject) "unkeyed".toList) =
        countersOf limiter (Pool.init start' : Limiting ι)
          (limitKey (some subject) "unkeyed".toList) :=
      funext found
    rw [(limit_history_eq ran _).1, (limit_history_eq ran' _).1, same, initially]

/-- One request in a minute. -/
def strictLimiter : RateLimiter := ⟨1, Duration.fromSecs 60, []⟩

/-- Every transaction gets through. -/
def answered : (op : CounterOp) → CounterAnswer op
  | .systemTime => none
  | .connect => true
  | .transact _ _ => .count 0

/-- A whole call of `decide`. -/
def decides {ι : Type} (id : Nat) (input : ι) : List (LimitingEvent ι) :=
  [.spawn input, .exec id answered, .exec id answered, .exec id answered]

def aliceAlone : List (LimitingEvent (Option Text)) := decides 0 (some "alice".toList)

/-- The other subject imitates the key of the first, and is over its limit. -/
def aliceAfterOther : List (LimitingEvent (Option Text)) :=
  decides 0 (some "alice:0".toList) ++ decides 1 (some "alice:0".toList) ++
    decides 2 (some "alice".toList)

theorem subjects_keep_their_budgets_on_imitated_key :
    toldTo id "alice:0".toList (limitLog (requestKey id) strictLimiter ⟨.empty, 0⟩ aliceAfterOther) =
        [(⟨some "alice:0".toList, 0, 0, some .delivered⟩, ⟨some (.count 1), .allow⟩),
          (⟨some "alice:0".toList, 0, 0, some .delivered⟩, ⟨some (.count 2), .limit 60⟩)] ∧
      toldTo id "alice".toList (limitLog (requestKey id) strictLimiter ⟨.empty, 0⟩ aliceAlone) =
        toldTo id "alice".toList
          (limitLog (requestKey id) strictLimiter ⟨.empty, 0⟩ aliceAfterOther) := by
  refine ⟨rfl, ?_⟩
  exact (subjects_keep_their_budgets strictLimiter).2 (Option Text) id "alice".toList ⟨.empty, 0⟩
    ⟨.empty, 0⟩ aliceAlone aliceAfterOther _ _ rfl rfl (fun _ => rfl) rfl

end Ratewall.RateLimit
