import Ratewall.RateLimit.Window

/-! Owns the budget of a caller when transactions may also come late. A counter then
holds the hits since it last lapsed: it lapses when more than the window's length
passes between two hits, and `standing` counts from the last such gap on. Leaving
out some requests of a caller changes what another of its requests is told exactly
when the standing counts with and without them lie on different sides of the
limit. -/

namespace Ratewall.RateLimit

open Ratewall.Rust
open Ratewall.Foundation

/-- The hits that a counter with this lifetime still holds at a moment. The earlier
hits are given from the newest on. -/
def standing (lifetime : Nat) : Nat → List Nat → Nat
  | _, [] => 0
  | now, hit :: older => if now ≤ hit + lifetime then 1 + standing lifetime hit older else 0

section

variable {ι : Type} (limiter : RateLimiter)

/-- The life of a counter after a hit, in milliseconds. -/
def RateLimiter.lifetime : Nat := 1000 * limiter.windowSecs.toNat

/-- The moments at which transactions were executed on the key of a window, from the
newest on. -/
def hitsBefore (charges : List (Charge ι)) (window : Nat) : List Nat :=
  ((charges.filter fun charge => charge.executed && charge.window == window).map
    Charge.moment).reverse

/-- What so many standing hits allow. -/
def RateLimiter.decisionAfter (hits : Nat) : Decision :=
  if hits < limiter.limit.toNat then .allow
  else if hits < Redis.maxInteger then .limit limiter.windowSecs
  else .opened

/-- What hits at these moments have left under the key. -/
def RateLimiter.left : List Nat → Option Redis.Counter
  | [] => none
  | hit :: older => some
      ⟨min (1 + standing limiter.lifetime hit older) Redis.maxInteger, some (hit + limiter.lifetime)⟩

end

section

variable {ι : Type} {limiter : RateLimiter}

private theorem tally_left (now : Nat) (hits : List Nat) :
    Redis.tally now (limiter.left hits) =
      min (standing limiter.lifetime now hits) Redis.maxInteger := by
  cases hits with
  | nil => rfl
  | cons hit older =>
      by_cases live : now ≤ hit + limiter.lifetime
      · simp [Redis.tally, Redis.lookup, RateLimiter.left, standing, Option.filter,
          Redis.Counter.live, live]
      · simp [Redis.tally, Redis.lookup, RateLimiter.left, standing, Option.filter,
          Redis.Counter.live, live]

private theorem bounded_left (hits : List Nat) : Redis.Bounded (limiter.left hits) := by
  intro counter held
  cases hits with
  | nil => cases held
  | cons hit older =>
      obtain rfl := Option.some.inj held
      exact Nat.min_le_right _ _

/-- One more hit. -/
theorem transact_left {now : Nat} (sets : Redis.Sets now limiter.windowSecs.toNat)
    (hits : List Nat) :
    (Redis.transact now limiter.windowSecs.toNat (limiter.left hits)).2 =
      limiter.left (now :: hits) := by
  rw [Redis.transact_eq (bounded_left hits), tally_left]
  simp only [if_pos sets, RateLimiter.left, RateLimiter.lifetime, Option.some.injEq,
    Redis.Counter.mk.injEq, and_true]
  omega

private theorem hitsBefore_snoc (charges : List (Charge ι)) (charge : Charge ι) (window : Nat) :
    hitsBefore (charges ++ [charge]) window =
      if charge.executed && charge.window == window then
        charge.moment :: hitsBefore charges window
      else hitsBefore charges window := by
  unfold hitsBefore
  rw [List.filter_append]
  by_cases hit : (charge.executed && charge.window == window) = true
  · simp [hit]
  · simp [hit]

/-- As long as deadlines can be set, the counter holds the standing hits. -/
theorem settle_eq_left {charges : List (Charge ι)}
    (sets : ∀ charge ∈ charges, Redis.Sets charge.moment limiter.windowSecs.toNat) (window : Nat) :
    settle limiter.charge (fun _ => none) charges window =
      limiter.left (hitsBefore charges window) := by
  induction charges using List.reverseRecOn with
  | nil => rfl
  | append_singleton charges charge inductionHypothesis =>
      have before := inductionHypothesis fun other member =>
        sets other (List.mem_append_left _ member)
      have fits := sets charge (by simp)
      have last : settle limiter.charge (fun _ => none) (charges ++ [charge]) window =
          (limiter.charge charge (settle limiter.charge (fun _ => none) charges)).2 window := by
        rw [settle_append]
        rfl
      rw [last, charge_counters, before, hitsBefore_snoc]
      split
      next => exact transact_left fits _
      next => rfl

/-- What a transaction whose reply arrives is told, by the standing hits. -/
theorem decision_eq_after {charge : Charge ι} {counters : Nat → Option Redis.Counter}
    {hits : List Nat} (delivered : charge.fate = some .delivered)
    (sets : Redis.Sets charge.moment limiter.windowSecs.toNat)
    (held : counters charge.window = limiter.left hits) :
    (limiter.charge charge counters).1.decision =
      limiter.decisionAfter (standing limiter.lifetime charge.moment hits) := by
  have small : limiter.limit.toNat < Redis.maxInteger :=
    Nat.lt_of_lt_of_le limiter.limit.toNat_lt (by decide)
  simp only [RateLimiter.charge, delivered, attempt, held, Redis.transact_eq (bounded_left hits),
    tally_left, sets, true_and, RateLimiter.decisionAfter]
  by_cases room : standing limiter.lifetime charge.moment hits < Redis.maxInteger
  · have exact' : min (standing limiter.lifetime charge.moment hits) Redis.maxInteger =
        standing limiter.lifetime charge.moment hits := by omega
    rw [exact', if_pos room, if_pos room]
    simp only [Option.elim_some, RateLimiter.decision]
    by_cases fewer : standing limiter.lifetime charge.moment hits < limiter.limit.toNat
    · rw [if_pos fewer, if_neg (by omega)]
    · rw [if_neg fewer, if_pos (by omega)]
  · rw [if_neg (by omega), if_neg room, if_neg (by omega)]
    rfl

/-- Without a reply, or past the last deadline that can be set, the request is let
through. -/
theorem decision_opened {charge : Charge ι} (counters : Nat → Option Redis.Counter)
    (unheard : ¬ (charge.fate = some .delivered ∧
      Redis.Sets charge.moment limiter.windowSecs.toNat)) :
    (limiter.charge charge counters).1.decision = .opened := by
  apply decision_of_failed
  intro value replied
  apply unheard
  unfold RateLimiter.charge at replied
  cases isFate : charge.fate with
  | none => simp [isFate] at replied
  | some fate =>
      cases fate with
      | lost executed => cases executed <;> simp [isFate, attempt] at replied
      | delivered =>
          refine ⟨rfl, ?_⟩
          by_contra unset
          have fails : ¬ charge.moment + 1000 * limiter.windowSecs.toNat ≤ Redis.maxInteger := unset
          simp [isFate, attempt, Redis.transact, Redis.expire, fails] at replied

/-! ### Leaving out requests -/

/-- Two counts on the same side of the limit, and of the largest integer. -/
def RateLimiter.SameSide (limiter : RateLimiter) (left right : Nat) : Prop :=
  (left < limiter.limit.toNat ↔ right < limiter.limit.toNat) ∧
    (left < Redis.maxInteger ↔ right < Redis.maxInteger)

private theorem decisionAfter_eq_iff {left right : Nat} :
    limiter.decisionAfter left = limiter.decisionAfter right ↔ limiter.SameSide left right := by
  have small : limiter.limit.toNat < Redis.maxInteger :=
    Nat.lt_of_lt_of_le limiter.limit.toNat_lt (by decide)
  unfold RateLimiter.decisionAfter RateLimiter.SameSide
  by_cases leftFew : left < limiter.limit.toNat
  · by_cases rightFew : right < limiter.limit.toNat
    · have leftRoom : left < Redis.maxInteger := by omega
      have rightRoom : right < Redis.maxInteger := by omega
      simp [leftFew, rightFew, leftRoom, rightRoom]
    · by_cases rightRoom : right < Redis.maxInteger <;> simp [leftFew, rightFew, rightRoom]
  · by_cases rightFew : right < limiter.limit.toNat
    · by_cases leftRoom : left < Redis.maxInteger <;> simp [leftFew, rightFew, leftRoom]
    · by_cases leftRoom : left < Redis.maxInteger
      · by_cases rightRoom : right < Redis.maxInteger <;>
          simp [leftFew, rightFew, leftRoom, rightRoom]
      · by_cases rightRoom : right < Redis.maxInteger <;>
          simp [leftFew, rightFew, leftRoom, rightRoom]

/-- Both histories of a request, with some earlier requests of its caller and
without them. -/
theorem decision_without_iff {keep : Charge ι → Bool} {earlier : List (Charge ι)}
    {charge : Charge ι} (ordered : ∀ other ∈ earlier, other.moment ≤ charge.moment) :
    (limiter.charge charge (settle limiter.charge (fun _ => none) earlier)).1.decision =
        (limiter.charge charge
          (settle limiter.charge (fun _ => none) (earlier.filter keep))).1.decision ↔
      (charge.fate = some .delivered → Redis.Sets charge.moment limiter.windowSecs.toNat →
        limiter.SameSide
          (standing limiter.lifetime charge.moment (hitsBefore earlier charge.window))
          (standing limiter.lifetime charge.moment
            (hitsBefore (earlier.filter keep) charge.window))) := by
  by_cases heard : charge.fate = some .delivered ∧
      Redis.Sets charge.moment limiter.windowSecs.toNat
  · obtain ⟨delivered, sets⟩ := heard
    have earlierSets : ∀ other ∈ earlier, Redis.Sets other.moment limiter.windowSecs.toNat := by
      intro other member
      have before := ordered other member
      unfold Redis.Sets at sets ⊢
      omega
    rw [decision_eq_after delivered sets (settle_eq_left earlierSets charge.window),
      decision_eq_after delivered sets (settle_eq_left (fun other member =>
        earlierSets other (List.mem_filter.mp member).1) charge.window), decisionAfter_eq_iff]
    exact ⟨fun same _ _ => same, fun same => same delivered sets⟩
  · rw [decision_opened _ heard, decision_opened _ heard]
    exact ⟨fun _ delivered sets => absurd ⟨delivered, sets⟩ heard, fun _ => rfl⟩

end

/-- What the watched requests of a list are told, without the counts. -/
def decisionsOf {ι : Type} (watched : ι → Bool) (told : List (Charge ι × Verdict)) :
    List (Charge ι × Decision) :=
  (told.filter fun entry => watched entry.1.input).map fun entry => (entry.1, entry.2.decision)

/-- A run of the requests under one key, and one without those that `removed`
names. -/
theorem decisions_without_iff {ι : Type} {keyOf : ι → Text} {limiter : RateLimiter}
    {watched removed : ι → Bool} (apart : ∀ input, watched input = true → removed input = false)
    (key : Text) {start start' : Nat} {events events' : List (LimitingEvent ι)}
    {final final' : Limiting ι}
    (ran : run (limitingStep limiter keyOf) (Pool.init ⟨.empty, start⟩) events = some final)
    (ran' : run (limitingStep limiter keyOf) (Pool.init ⟨.empty, start'⟩) events' = some final')
    {told told' : List (Charge ι × Verdict)}
    (isTold : told = historyOf (limitLog keyOf limiter ⟨.empty, start⟩ events) key)
    (isTold' : told' = historyOf (limitLog keyOf limiter ⟨.empty, start'⟩ events') key)
    (without : told'.map Prod.fst =
      (told.map Prod.fst).filter fun charge => !removed charge.input) :
    decisionsOf watched told = decisionsOf watched told' ↔
      ∀ earlier charge later, told.map Prod.fst = earlier ++ charge :: later →
        watched charge.input = true → charge.fate = some .delivered →
        Redis.Sets charge.moment limiter.windowSecs.toNat →
        limiter.SameSide
          (standing limiter.lifetime charge.moment (hitsBefore earlier charge.window))
          (standing limiter.lifetime charge.moment
            (hitsBefore (earlier.filter fun other => !removed other.input) charge.window)) := by
  have ordered : (told.map Prod.fst).Pairwise fun first second => first.moment ≤ second.moment := by
    rw [isTold, historyOf, List.map_map]
    exact List.pairwise_map.mpr ((limitLog_ordered ran).filter _)
  have replayed : told = replies limiter.charge (fun _ => none) (told.map Prod.fst) := by
    rw [isTold]
    exact (limit_history_eq ran _).1
  have replayed' : told' = replies limiter.charge (fun _ => none)
      ((told.map Prod.fst).filter fun charge => !removed charge.input) := by
    rw [← without, isTold']
    exact (limit_history_eq ran' _).1
  have watchedKept : ∀ charge : Charge ι, watched charge.input = true →
      (!removed charge.input) = true := by
    intro charge watches
    rw [apart charge.input watches]
    rfl
  have compared := @replies_filter_eq_iff _ _ _ limiter.charge _ (fun charge => !removed charge.input)
    (fun charge => watched charge.input) watchedKept Verdict.decision (fun _ => none) (fun _ => none)
    (told.map Prod.fst)
  rw [← replayed, ← replayed'] at compared
  have before : ∀ {earlier charge later}, told.map Prod.fst = earlier ++ charge :: later →
      ∀ other ∈ earlier, other.moment ≤ charge.moment := by
    intro earlier charge later split other member
    rw [split, List.pairwise_append] at ordered
    exact ordered.2.2 other member charge List.mem_cons_self
  unfold decisionsOf
  rw [compared]
  constructor
  · intro agree earlier charge later split watches
    exact (decision_without_iff (before split)).mp (agree earlier charge later split watches)
  · intro sameSide earlier charge later split watches
    exact (decision_without_iff (before split)).mpr (sameSide earlier charge later split watches)

end Ratewall.RateLimit
