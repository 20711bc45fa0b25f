import Ratewall.Gateway.Accounting

/-! Owns what a scrape shows of a histogram. `observe` adds to the buckets one after
the other and to the count last, and `render` loads them one after the other, with
nothing that keeps the two apart; the count is loaded twice. So a scrape that comes
in the middle of an `observe` can show a bucket above the next one, and one that an
addition to the count overtakes shows two totals.

Where neither happens, every histogram that is shown is cumulative. Between two
observations, the buckets count the durations below their bounds. -/

namespace Ratewall.Gateway

open Ratewall.Rust
open Ratewall.Foundation
open Ratewall.Foundation.Program
open Ratewall.Circuit
open Ratewall.Http
open Ratewall.Auth
open Ratewall.RateLimit
open Ratewall.Metrics
open Ratewall.Router

/-! ### The buckets between observations -/

/-- The durations of a prefix that fall into a bucket, of those that were observed to
the end. -/
def observedWithin (hall : Hall) (pfx : Text) (bound : Nat) : Nat :=
  hall.tally fun visit =>
    if visit.pfx = pfx ∧ visit.stage = .observed ∧ visit.nanos ≤ bound then 1 else 0

/-- No request is in the middle of its additions to the histogram of the prefix. -/
def NoneObserving (hall : Hall) (pfx : Text) : Prop :=
  ∀ id thread, hall.threads id = some thread → thread.note.pfx = pfx →
    thread.note.stage ≠ .timed

private theorem rank_observed_iff (stage : Stage) : 6 ≤ stage.rank ↔ stage = .observed := by
  cases stage <;> decide

private theorem rank_timed_cases {stage : Stage} (late : 5 ≤ stage.rank) :
    stage = .timed ∨ stage = .observed := by
  cases stage with
  | timed => exact Or.inl rfl
  | observed => exact Or.inr rfl
  | _ => exact absurd late (by decide)

/-- A request that is not in the middle has added to a bucket exactly when it has
observed a duration within the bound. -/
theorem added_bucket {visit : Visit} (tallied : visit.Tallied) {pfx : Text}
    (settled : visit.pfx = pfx → visit.stage ≠ .timed) {index bound : Nat}
    (known : latencyBuckets[index]? = some bound) :
    visit.added (.bucket pfx index) =
      if visit.pfx = pfx ∧ visit.stage = .observed ∧ visit.nanos ≤ bound then 1 else 0 := by
  by_cases inside : visit.pfx = pfx ∧ visit.stage = .observed ∧ visit.nanos ≤ bound
  · obtain ⟨rfl, observed, within⟩ := inside
    rw [if_pos ⟨rfl, observed, within⟩]
    exact tallied.observed ((rank_observed_iff _).mpr observed) index ⟨bound, known, within⟩
  · rw [if_neg inside]
    by_contra isAdded
    obtain ⟨own, late, -, bound', known', within⟩ := tallied.falls pfx index isAdded
    rw [known] at known'
    cases known'
    have observed := (rank_timed_cases late).resolve_left (settled own)
    exact inside ⟨own, observed, within⟩

private theorem bucket_eq_observedWithin {json : Json.Codec} {urls : UrlCrate}
    {seconds : Nat → Text} {scheme : Ed25519} {state : ProxyState scheme} {hall : Hall}
    (balanced : Balanced json urls seconds state hall) {pfx : Text} (settled : NoneObserving hall pfx)
    {index bound : Nat} (known : latencyBuckets[index]? = some bound) :
    hall.shared.registry.value (.bucket pfx index) = observedWithin hall pfx bound := by
  rw [balanced.conserved]
  apply Pool.tally_congr
  intro id thread found
  exact added_bucket (balanced.visits id thread found).1 (settled id thread found) known

/-! ### Loads that do not cut an observation -/

namespace Visit

/-- The request stands between its additions to what the series shows and to what
the series before it shows. -/
def Cuts (visit : Visit) : Series → Prop
  | .atomic (.bucket pfx (index + 1)) =>
      visit.added (.bucket pfx (index + 1)) < visit.added (.bucket pfx index)
  | .infinity pfx =>
      visit.added (.count pfx) < visit.added (.bucket pfx (latencyBuckets.length - 1))
  | _ => False

/-- The scrape stands between its two loads of the count. -/
def BetweenTotals (visit : Visit) (pfx : Text) : Prop :=
  (visit.values (.infinity pfx)).isSome ∧ (visit.values (.atomic (.count pfx))).isNone

instance (visit : Visit) (series : Series) : Decidable (visit.Cuts series) := by
  unfold Cuts
  split <;> infer_instance

instance (visit : Visit) (pfx : Text) : Decidable (visit.BetweenTotals pfx) :=
  inferInstanceAs (Decidable (_ ∧ _))

end Visit

def Everyone (hall : Hall) (property : Visit → Prop) : Prop :=
  ∀ id < hall.nextId, ∀ thread ∈ hall.threads id, property thread.note

instance (hall : Hall) (property : Visit → Prop) [DecidablePred property] :
    Decidable (Everyone hall property) := by
  unfold Everyone
  infer_instance

/-- The access neither cuts an observation nor comes between two loads of a count. -/
def Access.Undisturbed (hall : Hall) : Access → Prop
  | .render (.load series) => Everyone hall fun visit => ¬ visit.Cuts series
  | .action (.registry (.addCount pfx)) => Everyone hall fun visit => ¬ visit.BetweenTotals pfx
  | _ => True

def Undisturbed (before : Hall) : HallEvent → Prop
  | .exec id _ =>
      match before.threads id with
      | some ⟨_, .call access _⟩ => access.Undisturbed before
      | _ => True
  | _ => True

instance (hall : Hall) (access : Access) : Decidable (access.Undisturbed hall) := by
  unfold Access.Undisturbed
  split <;> infer_instance

instance (hall : Hall) (event : HallEvent) : Decidable (Undisturbed hall event) := by
  unfold Undisturbed
  split
  · split <;> infer_instance
  · infer_instance

private theorem everyone_of_fresh {hall : Hall} (fresh : hall.Fresh) {property : Visit → Prop}
    (everyone : Everyone hall property) {id : Nat} {thread : Thread Access Granted Response Visit}
    (found : hall.threads id = some thread) : property thread.note :=
  everyone id (Finset.mem_range.mp (fresh.mem_range found)) thread found

/-! ### What stays true of a scrape -/

/-- What the scrape has loaded of histograms is not above what it loaded later, nor
above what the registry holds now; and its two totals are the same. -/
structure Ascending (registry : Registry) (visit : Visit) : Prop where
  past : ∀ series atomic value, series.source = some atomic → visit.values series = some value →
    value ≤ registry.value atomic
  ordered : ∀ series earlier first second, series.previous = some earlier →
    visit.values earlier = some first → visit.values series = some second → first ≤ second
  pending : ∀ pfx value, visit.values (.infinity pfx) = some value →
    visit.values (.atomic (.count pfx)) = none → value = registry.value (.count pfx)
  same : ∀ pfx first second, visit.values (.infinity pfx) = some first →
    visit.values (.atomic (.count pfx)) = some second → first = second

private theorem ascending_start (registry : Registry) (arrival : Arrival) :
    Ascending registry { arrival := arrival } where
  past := by simp
  ordered := by simp
  pending := by simp
  same := by simp

section

variable {json : Json.Codec} {urls : UrlCrate} {seconds : Nat → Text} {scheme : Ed25519}
  {state : ProxyState scheme} {metrics : Router.Metrics} {before after hall : Hall}
  {event : HallEvent}

/-- Where nobody stands between the two, the series before is not above the series. -/
theorem value_previous_le (balanced : Balanced json urls seconds state hall) {series earlier : Series}
    (uncut : Everyone hall fun visit => ¬ visit.Cuts series) (due : series.previous = some earlier)
    {left right : Atomic} (first : earlier.source = some left) (second : series.source = some right) :
    hall.shared.registry.value left ≤ hall.shared.registry.value right := by
  rw [balanced.conserved, balanced.conserved]
  apply Pool.tally_le_tally
  intro id thread found
  have whole := everyone_of_fresh balanced.fresh uncut found
  unfold Series.previous at due
  split at due
  next pfx index =>
    cases due
    cases first
    cases second
    exact Nat.le_of_not_lt whole
  next pfx =>
    cases due
    cases first
    cases second
    exact Nat.le_of_not_lt whole
  next pfx =>
    cases due
    cases first
    cases second
    exact Nat.le_refl _
  next => cases due

private theorem adds_count {access : Access} {pfx : Text} (adds : access.adds (.count pfx) ≠ 0) :
    access = .action (.registry (.addCount pfx)) := by
  cases access with
  | action action =>
      cases action with
      | registry op =>
          cases op with
          | addCount label =>
              by_cases same : pfx = label
              · rw [same]
              · exact absurd (by simp [Access.adds, RegistryOp.adds, same]) adds
          | _ => exact absurd rfl adds
      | _ => exact absurd rfl adds
  | _ => exact absurd rfl adds

private theorem sources_of_previous {series earlier : Series}
    (due : series.previous = some earlier) :
    ∃ left right, earlier.source = some left ∧ series.source = some right := by
  unfold Series.previous at due
  split at due
  next => cases due; exact ⟨_, _, rfl, rfl⟩
  next => cases due; exact ⟨_, _, rfl, rfl⟩
  next => cases due; exact ⟨_, _, rfl, rfl⟩
  next => cases due

/-- The registry moves on, and nobody adds to a count that is half read. -/
theorem Ascending.onRegistry {visit mover : Visit} {access : Access}
    (balanced : Balanced json urls seconds state hall)
    (ascending : Ascending hall.shared.registry visit) (entered : mover.Entered hall.shared.registry)
    (fit : mover.Fits access)
    (whole : ∀ pfx, access = .action (.registry (.addCount pfx)) → ¬ visit.BetweenTotals pfx) :
    Ascending (access.onRegistry hall.shared.registry) visit where
  past := by
    intro series atomic value shows' loaded
    rw [value_onRegistry balanced.shaped entered fit]
    exact Nat.le_add_right_of_le (ascending.past series atomic value shows' loaded)
  ordered := ascending.ordered
  pending := by
    intro pfx value first second
    rw [value_onRegistry balanced.shaped entered fit]
    have untouched : access.adds (.count pfx) = 0 := by
      by_contra adds
      have isCount := adds_count adds
      exact whole pfx isCount ⟨by rw [first]; rfl, by rw [second]; rfl⟩
    rw [untouched]
    exact ascending.pending pfx value first second
  same := ascending.same

/-- A load keeps to the order, if it cuts no observation. -/
theorem ascending_load (balanced : Balanced json urls seconds state hall) {visit : Visit}
    {keys : Keys} (ascending : Ascending hall.shared.registry visit)
    (frozen : Frozen hall.shared.registry keys visit) (read : visit.keys = some keys)
    {series : Series} (next : visit.Next series)
    (uncut : Everyone hall fun visit => ¬ visit.Cuts series) :
    Ascending hall.shared.registry
      (visit.observe (.render (.load series)) (hall.shared.registry.read series)) := by
  obtain ⟨keys', walked, rest, read', walk, seen⟩ := next
  rw [read] at read'
  cases read'
  have distinct : keys.statusTotals.Nodup := by
    obtain ⟨totals, sameKeys, -⟩ := frozen
    rw [sameKeys]
    exact Std.TreeMap.nodup_keys
  have new : visit.values series = none := by
    rw [← Option.not_isSome_iff_eq_none, seen]
    exact (next_series distinct walk).1
  -- What was loaded before does not have to follow what is loaded now.
  have behind : ∀ other value, visit.values other = some value → other.previous ≠ some series := by
    intro other value loaded
    apply not_follows_next distinct walk
    rw [← seen, loaded]
    rfl
  have reads : ∀ {other value},
      (visit.observe (.render (.load series)) (hall.shared.registry.read series)).values other =
        some value →
      (other = series ∧ value = hall.shared.registry.read series) ∨
        (other ≠ series ∧ visit.values other = some value) := filled_cases
  refine ⟨?_, ?_, ?_, ?_⟩
  · intro other atomic value shows' loaded
    rcases reads loaded with ⟨rfl, rfl⟩ | ⟨-, before⟩
    · exact (read_of_source shows').le
    · exact ascending.past other atomic value shows' before
  · intro other earlier first second due loadedFirst loadedSecond
    rcases reads loadedSecond with ⟨rfl, rfl⟩ | ⟨-, beforeSecond⟩
    · rcases reads loadedFirst with ⟨rfl, -⟩ | ⟨-, beforeFirst⟩
      · exact absurd due (previous_ne _)
      · obtain ⟨left, right, isLeft, isRight⟩ := sources_of_previous due
        rw [read_of_source isRight]
        exact (ascending.past earlier left first isLeft beforeFirst).trans
          (value_previous_le balanced uncut due isLeft isRight)
    · rcases reads loadedFirst with ⟨rfl, -⟩ | ⟨-, beforeFirst⟩
      · exact absurd due (behind other second beforeSecond)
      · exact ascending.ordered other earlier first second due beforeFirst beforeSecond
  · intro pfx value loaded unloaded
    have unread : visit.values (.atomic (.count pfx)) = none := by
      by_cases here : Series.atomic (.count pfx) = series
      · rw [here]
        exact new
      · exact (Function.update_of_ne here _ _).symm.trans unloaded
    rcases reads loaded with ⟨rfl, rfl⟩ | ⟨-, before⟩
    · rfl
    · exact ascending.pending pfx value before unread
  · intro pfx first second loadedFirst loadedSecond
    rcases reads loadedSecond with ⟨rfl, rfl⟩ | ⟨-, beforeSecond⟩
    · rcases reads loadedFirst with ⟨same, -⟩ | ⟨-, beforeFirst⟩
      · cases same
      · exact ascending.pending pfx first beforeFirst new
    · rcases reads loadedFirst with ⟨rfl, -⟩ | ⟨-, beforeFirst⟩
      · exact absurd rfl (behind _ second beforeSecond)
      · exact ascending.same pfx first second beforeFirst beforeSecond

/-- An access that is no load changes nothing that was loaded. -/
theorem values_observe {access : Access} (noLoad : ∀ series, access ≠ .render (.load series))
    (visit : Visit) (answer : Granted access) :
    (visit.observe access answer).values = visit.values := by
  cases access with
  | action action =>
      cases action with
      | handler op => cases op <;> rfl
      | redis op => rfl
      | registry op => exact Visit.advance_values visit op answer
  | render op =>
      cases op with
      | keys => rfl
      | load series => exact absurd rfl (noLoad series)
  | _ => rfl

private theorem Ascending.of_values {registry : Registry} {visit reached : Visit}
    (ascending : Ascending registry visit) (same : reached.values = visit.values) :
    Ascending registry reached := by
  refine ⟨?_, ?_, ?_, ?_⟩
  · rw [same]
    exact ascending.past
  · rw [same]
    exact ascending.ordered
  · rw [same]
    exact ascending.pending
  · rw [same]
    exact ascending.same

/-- The books are right, and every scrape is ascending. -/
structure Accurate (json : Json.Codec) (urls : UrlCrate) (seconds : Nat → Text) {scheme : Ed25519}
    (state : ProxyState scheme) (hall : Hall) : Prop where
  balanced : Balanced json urls seconds state hall
  ascending : ∀ id thread, hall.threads id = some thread →
    Ascending hall.shared.registry thread.note

private theorem ascending_step (accurate : Accurate json urls seconds state before)
    (undisturbed : Undisturbed before event)
    (stepped : lockedStep json urls seconds state before event = some after) :
    ∀ id thread, after.threads id = some thread → Ascending after.shared.registry thread.note := by
  obtain ⟨balanced, ascending⟩ := accurate
  intro other thread found'
  rcases Pool.lockStep_cases stepped with ⟨arrival, -, rfl⟩ |
    ⟨id, offer, visit, access, next, rfl, found, -, rfl⟩ | ⟨passage, -, rfl⟩
  · rcases filled_cases found' with ⟨-, rfl⟩ | ⟨-, held⟩
    · exact ascending_start _ arrival
    · exact ascending other thread held
  · have fit := fits_next balanced found
    have entered := balanced.entered id _ found
    have calm : access.Undisturbed before := by
      simpa only [Undisturbed, found] using undisturbed
    have whole : ∀ {id thread}, before.threads id = some thread → ∀ pfx,
        access = .action (.registry (.addCount pfx)) → ¬ thread.note.BetweenTotals pfx := by
      rintro id thread held pfx rfl
      have everyone : Everyone before fun visit => ¬ visit.BetweenTotals pfx := calm
      exact everyone_of_fresh balanced.fresh everyone held
    show Ascending (before.shared.act id access (offer access)).2.registry thread.note
    rw [registry_act]
    rcases filled_cases found' with ⟨-, rfl⟩ | ⟨-, held⟩
    · by_cases isLoad : ∃ series, access = .render (.load series)
      · obtain ⟨series, rfl⟩ := isLoad
        obtain ⟨keys, -, -, read, -⟩ := fit.2
        have frozen := balanced.frozen id _ found keys read
        exact ascending_load balanced (ascending id _ found) frozen read fit.2 calm
      · have noLoad : ∀ series, access ≠ .render (.load series) :=
          fun series same => isLoad ⟨series, same⟩
        exact ((ascending id _ found).onRegistry balanced entered fit (whole found)).of_values
          (values_observe noLoad visit _)
    · exact (ascending other thread held).onRegistry balanced entered fit (whole held)
  · show Ascending (before.shared.pass passage).registry thread.note
    rw [registry_pass]
    exact ascending other thread found'

private theorem accurate_run (measured : state.metrics = some metrics) {instant millis : Nat}
    {events : List HallEvent} {final : Hall}
    (undisturbed : Meets (lockedStep json urls seconds state) Undisturbed
      (Pool.init (LockedWorld.init instant millis)) events)
    (ran : run (lockedStep json urls seconds state) (Pool.init (LockedWorld.init instant millis))
      events = some final) : Accurate json urls seconds state final := by
  have initially : Accurate json urls seconds state
      (Pool.init (LockedWorld.init instant millis)) := by
    refine ⟨balanced_init instant millis, ?_⟩
    intro id thread found
    cases found
  apply run_invariant_of_meets _ initially undisturbed ran
  intro before event after accurate calm stepped
  exact ⟨balanced_step measured accurate.balanced stepped, ascending_step accurate calm stepped⟩

end

/-! ### What a scrape shows -/

/-- The histogram that the scrape shows for the prefix is cumulative. -/
structure Visit.Cumulative (visit : Visit) (pfx : Text) : Prop where
  nondecreasing : ∀ index, index + 1 < latencyBuckets.length →
    visit.shown (.atomic (.bucket pfx index)) ≤ visit.shown (.atomic (.bucket pfx (index + 1)))
  below : ∀ index, index < latencyBuckets.length →
    visit.shown (.atomic (.bucket pfx index)) ≤ visit.shown (.infinity pfx)
  total : visit.shown (.infinity pfx) = visit.shown (.atomic (.count pfx))

section

variable {registry : Registry} {visit : Visit} {keys : Keys}

/-- A histogram is loaded as a whole or not at all. -/
theorem loaded_together (loaded : ∀ series, (visit.values series).isSome ↔ series ∈ seriesOf keys)
    {pfx : Text} {first second : Series} (own : first ∈ histogramSeries pfx)
    (own' : second ∈ histogramSeries pfx) :
    (visit.values first = none ∧ visit.values second = none) ∨
      ∃ left right, visit.values first = some left ∧ visit.values second = some right := by
  have together : (visit.values first).isSome ↔ (visit.values second).isSome := by
    rw [loaded, loaded, histogram_mem_seriesOf_iff own, histogram_mem_seriesOf_iff own']
  cases here : visit.values first with
  | none =>
      rw [here] at together
      have other : visit.values second = none := by
        simpa using together
      exact Or.inl ⟨rfl, other⟩
  | some left =>
      rw [here] at together
      obtain ⟨right, there⟩ := Option.isSome_iff_exists.mp (together.mp rfl)
      exact Or.inr ⟨left, right, rfl, there⟩

private theorem shown_previous_le (ascending : Ascending registry visit)
    (loaded : ∀ series, (visit.values series).isSome ↔ series ∈ seriesOf keys) {pfx : Text}
    {series earlier : Series} (own : series ∈ histogramSeries pfx)
    (due : series.previous = some earlier) : visit.shown earlier ≤ visit.shown series := by
  unfold Visit.shown
  rcases loaded_together loaded (previous_histogramSeries own due) own with ⟨first, second⟩ |
    ⟨left, right, first, second⟩
  · rw [first, second]
  · rw [first, second]
    exact ascending.ordered series earlier left right due first second

private theorem cumulative_of_ascending (ascending : Ascending registry visit)
    (loaded : ∀ series, (visit.values series).isSome ↔ series ∈ seriesOf keys) (pfx : Text) :
    visit.Cumulative pfx := by
  have nondecreasing : ∀ index, index + 1 < latencyBuckets.length →
      visit.shown (.atomic (.bucket pfx index)) ≤ visit.shown (.atomic (.bucket pfx (index + 1))) :=
    fun index within => shown_previous_le ascending loaded (bucket_mem_histogramSeries pfx within) rfl
  refine ⟨nondecreasing, ?_, ?_⟩
  · -- From the last bucket down.
    intro index within
    have last : index ≤ latencyBuckets.length - 1 := by omega
    clear within
    induction last using Nat.decreasingInduction with
    | self => exact shown_previous_le ascending loaded (infinity_mem_histogramSeries pfx) rfl
    | of_succ index below ih =>
        have next : index + 1 < latencyBuckets.length := by omega
        exact (nondecreasing index next).trans ih
  · unfold Visit.shown
    rcases loaded_together loaded (infinity_mem_histogramSeries pfx)
      (count_mem_histogramSeries pfx) with ⟨first, second⟩ | ⟨left, right, first, second⟩
    · rw [first, second]
    · rw [first, second]
      exact ascending.same pfx left right first second

end

/-- In every run in which no load cuts an observation and no observation comes between
the two loads of a count, every scrape shows cumulative histograms; and in every run,
a prefix that nobody is observing has in each bucket the number of durations that were
observed within its bound. Both hold short of a bucket or count that wraps at 2^64. -/
theorem histograms_cumulative_when_undisturbed (json : Json.Codec) (urls : UrlCrate)
    (seconds : Nat → Text) {scheme : Ed25519} (state : ProxyState scheme) (metrics : Router.Metrics)
    (instant millis : Nat) (events : List HallEvent) (final : Hall)
    (ran : run (lockedStep json urls seconds (state.withMetrics metrics))
      (Pool.init (LockedWorld.init instant millis)) events = some final) :
    (Meets (lockedStep json urls seconds (state.withMetrics metrics)) Undisturbed
        (Pool.init (LockedWorld.init instant millis)) events →
      ∀ id visit response, final.threads id = some ⟨visit, .done response⟩ →
        visit.arrival = .scrape → (∃ keys, Exposes seconds visit keys response) ∧
          ∀ pfx, visit.Cumulative pfx) ∧
    ∀ pfx, NoneObserving final pfx → ∀ index bound, latencyBuckets[index]? = some bound →
      final.shared.registry.value (.bucket pfx index) = observedWithin final pfx bound := by
  refine ⟨?_, ?_⟩
  · intro undisturbed id visit response found scraped
    have accurate : Accurate json urls seconds (state.withMetrics metrics) final :=
      accurate_run rfl undisturbed ran
    obtain ⟨keys, exposes, -⟩ := scrape_ordered accurate.balanced found scraped
    refine ⟨⟨keys, exposes⟩, ?_⟩
    have ended := conforms_done.mp (accurate.balanced.visits id _ found).2
    unfold Visit.Ends at ended
    rw [scraped] at ended
    obtain ⟨-, keys, -, loaded, -⟩ := ended
    exact cumulative_of_ascending (accurate.ascending id _ found) loaded
  · intro pfx settled index bound known
    have balanced : Balanced json urls seconds (state.withMetrics metrics) final :=
      balanced_run rfl ran
    exact bucket_eq_observedWithin balanced settled known

/-! ### A scrape after an observation, and one amid it -/

/-- The scrape starts when the request has returned. -/
def consecutive : List HallEvent :=
  [.spawn (.request crmRequest), .spawn .scrape] ++ turns 0 29 ++ turns 1 28

theorem histograms_cumulative_when_undisturbed_after_request :
    ∃ final visit response, hallRun consecutive = some final ∧
      scrapeOf final = some (visit, response) ∧
      visit.shown (.atomic (.bucket "crm".toList 0)) = 1 ∧ visit.Cumulative "crm".toList := by
  have seen : ((hallRun consecutive).bind fun final => (scrapeOf final).map fun scraped =>
      decide (scraped.1.shown (.atomic (.bucket "crm".toList 0)) = 1)) = some true := by
    decide +kernel
  have undisturbed : Meets
      (lockedStep Json.Text.flatCodec plainUrls (fun _ => []) (routesOnlyState.withMetrics {})) Undisturbed
      (Pool.init (LockedWorld.init 0 0)) consecutive := by
    decide +kernel
  obtain ⟨final, ran, seen⟩ := Option.bind_eq_some_iff.mp seen
  obtain ⟨⟨visit, response⟩, scraped, one⟩ := Option.map_eq_some_iff.mp seen
  obtain ⟨found, came⟩ := threads_of_scrapeOf scraped
  have accurate := histograms_cumulative_when_undisturbed Json.Text.flatCodec plainUrls
    (fun _ => []) routesOnlyState {} 0 0 consecutive final ran
  have cumulative := (accurate.1 undisturbed 1 visit response found came).2
  exact ⟨final, visit, response, ran, scraped, of_decide_eq_true one, cumulative "crm".toList⟩

/-- The request has added to the first bucket, and to nothing else, when the scrape
comes. -/
def amid : List HallEvent :=
  [.spawn (.request crmRequest), .spawn .scrape] ++ turns 0 15 ++ turns 1 28

/-- The scrape shows one duration in the first bucket and none in the second. -/
theorem not_histograms_cumulative :
    ¬ ∀ (json : Json.Codec) (urls : UrlCrate) (seconds : Nat → Text) (scheme : Ed25519)
        (state : ProxyState scheme) (metrics : Router.Metrics) (instant millis : Nat)
        (events : List HallEvent) (final : Hall),
      run (lockedStep json urls seconds (state.withMetrics metrics))
        (Pool.init (LockedWorld.init instant millis)) events = some final →
      ∀ id visit response, final.threads id = some ⟨visit, .done response⟩ →
        visit.arrival = .scrape → ∀ pfx, visit.Cumulative pfx := by
  intro always
  have seen : ((hallRun amid).bind fun final => (scrapeOf final).map fun scraped =>
      decide (scraped.1.shown (.atomic (.bucket "crm".toList 1)) <
        scraped.1.shown (.atomic (.bucket "crm".toList 0)))) = some true := by
    decide +kernel
  obtain ⟨final, ran, seen⟩ := Option.bind_eq_some_iff.mp seen
  obtain ⟨⟨visit, response⟩, scraped, above⟩ := Option.map_eq_some_iff.mp seen
  obtain ⟨found, came⟩ := threads_of_scrapeOf scraped
  have cumulative := always Json.Text.flatCodec plainUrls (fun _ => []) checksumScheme routesOnlyState {} 0 0
    amid final ran 1 visit response found came "crm".toList
  exact Nat.not_le_of_lt (of_decide_eq_true above) (cumulative.nondecreasing 0 (by decide))

end Ratewall.Gateway
