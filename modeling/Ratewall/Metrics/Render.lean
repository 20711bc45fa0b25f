import Mathlib.Data.List.Nodup
import Mathlib.Data.List.Sort
import Ratewall.Metrics.Atomic

/-! Owns `Metrics::render`: which series a scrape shows, in which order, and the
text of the exposition. Every series is loaded on its own, one after the other; the
count of a histogram is loaded twice, for `+Inf` and for `_count`.

What is in the maps is looked at once: `render` holds all four locks from before
that look to its end, so the maps have the same keys at every later look. A label
without an entry shows as zero. The text of a sum of seconds goes through `f64`
and stays a parameter. -/

namespace Ratewall.Metrics

open Ratewall.Rust
open Ratewall.Foundation
open Ratewall.Foundation.Program

/-! ### Series -/

/-- One line of a scrape that shows a value. -/
inductive Series where
  | atomic (atomic : Atomic)
  | infinity (pfx : Text)
  | breaker (pfx : Text)
deriving DecidableEq, Repr

def Registry.read (registry : Registry) : Series → Nat
  | .atomic atomic => registry.value atomic
  | .infinity pfx => registry.value (.count pfx)
  | .breaker pfx => registry.breakerState.getD pfx 0

/-- The atomic that a series shows. A breaker's state is no atomic. -/
def Series.source : Series → Option Atomic
  | .atomic shown => some shown
  | .infinity pfx => some (.count pfx)
  | .breaker _ => none

/-- A series with an atomic behind it reads that atomic. -/
theorem read_of_source {registry : Registry} {series : Series} {atomic : Atomic}
    (shows' : series.source = some atomic) : registry.read series = registry.value atomic := by
  cases series with
  | atomic own => cases shows'; rfl
  | infinity pfx => cases shows'; rfl
  | breaker pfx => cases shows'

/-- The keys of the four maps. -/
structure Keys where
  perPrefix : List Text
  latencies : List Text
  statusTotals : List Text
  breakerState : List Text
deriving DecidableEq, Repr

def Registry.keys (registry : Registry) : Keys where
  perPrefix := registry.perPrefix.keys
  latencies := registry.latencies.keys
  statusTotals := registry.statusTotals.keys
  breakerState := registry.breakerState.keys

/-- `Vec::dedup`: of equal neighbours one stays. -/
def dedup : List Text → List Text
  | [] => []
  | [label] => [label]
  | label :: next :: rest =>
      if label = next then dedup (next :: rest) else label :: dedup (next :: rest)

def sort (labels : List Text) : List Text :=
  labels.insertionSort fun first second => (compare first second).isLE

/-- All prefixes that have any data. -/
def Keys.prefixes (keys : Keys) : List Text :=
  dedup (sort (keys.perPrefix ++ keys.latencies ++ keys.breakerState))

def histogramSeries (pfx : Text) : List Series :=
  ((List.range latencyBuckets.length).map fun index => .atomic (.bucket pfx index)) ++
    [.infinity pfx, .atomic (.sum pfx), .atomic (.count pfx)]

/-! ### Text -/

/-- The class and the prefix that a key of `status_totals` is shown with. -/
def responseLabels (key : Text) : Text × Text :=
  (splitOnce '|' key).getD ("unknown".toList, key)

def header (name help kind : Text) : Text :=
  "# HELP ".toList ++ name ++ " ".toList ++ help ++ "\n# TYPE ".toList ++ name ++ " ".toList ++ kind ++
    "\n".toList

def labelText (label : Text × Text) : Text :=
  label.1 ++ "=\"".toList ++ label.2 ++ "\"".toList

def sampleText (name : Text) (labels : List (Text × Text)) (value : Text) : Text :=
  name ++ "\x7b".toList ++ ",".toList.intercalate (labels.map labelText) ++ "\x7d ".toList ++ value ++
    "\n".toList

def Counter.family : Counter → Text
  | .requests => "ratewall_requests_total".toList
  | .rateLimited => "ratewall_rate_limited_total".toList
  | .circuitOpen => "ratewall_circuit_open_total".toList

/-- The bounds of `LATENCY_BUCKETS` as `Display` shows them. -/
def bucketLabels : List Text :=
  ["0.0005".toList, "0.001".toList, "0.002".toList, "0.005".toList, "0.01".toList, "0.02".toList,
    "0.05".toList, "0.1".toList, "0.25".toList, "0.5".toList, "1".toList, "2.5".toList]

def durations : Text := "ratewall_request_duration_seconds".toList

section

variable (seconds : Nat → Text)

def bucketText (pfx bound : Text) (value : Nat) : Text :=
  sampleText (durations ++ "_bucket".toList) [("prefix".toList, pfx), ("le".toList, bound)]
    (decimal value)

def Series.text : Series → Nat → Text
  | .atomic (.counter counter pfx), value =>
      sampleText counter.family [("prefix".toList, pfx)] (decimal value)
  | .atomic (.responses key), value =>
      sampleText "ratewall_responses_total".toList
        [("prefix".toList, (responseLabels key).2), ("class".toList, (responseLabels key).1)]
        (decimal value)
  | .atomic (.bucket pfx index), value => bucketText pfx (bucketLabels.getD index []) value
  | .infinity pfx, value => bucketText pfx "+Inf".toList value
  | .atomic (.sum pfx), value =>
      sampleText (durations ++ "_sum".toList) [("prefix".toList, pfx)] (seconds value)
  | .atomic (.count pfx), value =>
      sampleText (durations ++ "_count".toList) [("prefix".toList, pfx)] (decimal value)
  | .breaker pfx, value =>
      sampleText "ratewall_breaker_state".toList [("prefix".toList, pfx)] (decimal value)

structure Family where
  header : Text
  series : List Series

def counterFamily (counter : Counter) (help : Text) (keys : Keys) : Family where
  header := Metrics.header counter.family help "counter".toList
  series := keys.prefixes.map fun pfx => .atomic (.counter counter pfx)

def families (keys : Keys) : List Family :=
  [counterFamily .requests "Proxied requests per route prefix.".toList keys,
    counterFamily .rateLimited "Requests rejected with 429 by the rate limiter.".toList keys,
    counterFamily .circuitOpen "Requests short-circuited with 503 by an open breaker.".toList keys,
    { header := header "ratewall_responses_total".toList "Backend responses by status class.".toList
        "counter".toList
      series := keys.statusTotals.map fun key => .atomic (.responses key) },
    { header := header durations "Proxied request latency per route prefix.".toList
        "histogram".toList
      series := (keys.prefixes.filter (· ∈ keys.latencies)).flatMap histogramSeries },
    { header := header "ratewall_breaker_state".toList
        "Circuit breaker state per backend (0 closed, 1 half-open, 2 open).".toList "gauge".toList
      series := (keys.prefixes.filter (· ∈ keys.breakerState)).map .breaker }]

def seriesOf (keys : Keys) : List Series := (families keys).flatMap Family.series

def Family.text (family : Family) (values : Series → Nat) : Text :=
  family.header ++ family.series.flatMap fun series => series.text seconds (values series)

/-- The whole text, for given values of the series. -/
def exposition (keys : Keys) (values : Series → Nat) : Text :=
  (families keys).flatMap fun family => family.text seconds values

end

/-! ### The walk -/

inductive RenderOp where
  | keys
  | load (series : Series)
deriving DecidableEq, Repr

@[reducible] def RenderAnswer : RenderOp → Type
  | .keys => Keys
  | .load _ => Nat

abbrev Rendering := Program RenderOp RenderAnswer

@[reducible] def look (op : RenderOp) : Rendering (RenderAnswer op) := perform op

section

variable (seconds : Nat → Text)

def renderSeries : List Series → Text → Rendering Text
  | [], out => pure out
  | series :: rest, out => do
      let value ← look (.load series)
      renderSeries rest (out ++ series.text seconds value)

def renderFamilies : List Family → Text → Rendering Text
  | [], out => pure out
  | family :: rest, out => do
      let out ← renderSeries seconds family.series (out ++ family.header)
      renderFamilies rest out

/-- `Metrics::render` between taking the locks and giving them back. -/
def render : Rendering Text := do
  let keys ← look .keys
  renderFamilies seconds (families keys) []

end

/-! ### The order of a scrape -/

private theorem mem_dedup {labels : List Text} {label : Text} :
    label ∈ dedup labels ↔ label ∈ labels := by
  induction labels using dedup.induct with
  | case1 => rfl
  | case2 only => rfl
  | case3 next rest inductionHypothesis =>
      rw [dedup, if_pos rfl, inductionHypothesis]
      simp
  | case4 first next rest different inductionHypothesis =>
      rw [dedup, if_neg different, List.mem_cons, inductionHypothesis, List.mem_cons (b := first)]

/-- A counter family lists every prefix that any table knows. -/
theorem mem_prefixes {keys : Keys} {pfx : Text} :
    pfx ∈ keys.prefixes ↔
      pfx ∈ keys.perPrefix ∨ pfx ∈ keys.latencies ∨ pfx ∈ keys.breakerState := by
  rw [Keys.prefixes, mem_dedup, sort, List.mem_insertionSort, List.mem_append, List.mem_append,
    or_assoc]

private theorem nodup_dedup {labels : List Text}
    (sorted : labels.Pairwise fun first second => (compare first second).isLE) :
    (dedup labels).Nodup := by
  induction labels using dedup.induct with
  | case1 => exact List.nodup_nil
  | case2 only => exact List.nodup_singleton only
  | case3 next rest inductionHypothesis =>
      rw [dedup, if_pos rfl]
      exact inductionHypothesis sorted.tail
  | case4 first next rest different inductionHypothesis =>
      rw [dedup, if_neg different]
      refine List.nodup_cons.mpr ⟨?_, inductionHypothesis sorted.tail⟩
      rw [mem_dedup]
      intro again
      rcases List.mem_cons.mp again with same | later
      · exact different same
      · -- Between two equal labels of a sorted list nothing else can stand.
        have up := (List.pairwise_cons.mp sorted).1 next List.mem_cons_self
        have down := (List.pairwise_cons.mp sorted.tail).1 first later
        exact different (Std.LawfulEqOrd.eq_of_compare (Std.OrientedCmp.isLE_antisymm up down))

private theorem nodup_prefixes (keys : Keys) : keys.prefixes.Nodup := by
  let ordered : Text → Text → Prop := fun first second => (compare first second).isLE
  have total : Std.Total ordered := by
    constructor
    intro first second
    by_cases up : (compare first second).isLE
    · exact Or.inl up
    · have down : compare second first = .lt := Std.OrientedCmp.lt_of_not_isLE up
      exact Or.inr (by simp [ordered, down])
  have transitive : IsTrans Text ordered := ⟨fun _ _ _ => Std.TransCmp.isLE_trans⟩
  exact nodup_dedup (List.pairwise_insertionSort ordered _)

/-- The series that is loaded before it, of those of one histogram that are compared. -/
def Series.previous : Series → Option Series
  | .atomic (.bucket pfx (index + 1)) => some (.atomic (.bucket pfx index))
  | .infinity pfx => some (.atomic (.bucket pfx (latencyBuckets.length - 1)))
  | .atomic (.count pfx) => some (.infinity pfx)
  | _ => none

/-- The first is loaded before the second: it is another one, and it is not one that
the second has to be there for. -/
def Series.Before (first second : Series) : Prop := first ≠ second ∧ first.previous ≠ some second

def Counter.rank : Counter → Nat
  | .requests => 0
  | .rateLimited => 1
  | .circuitOpen => 2

/-- The place of its family, and the label within. -/
def Series.group : Series → Nat × Text
  | .atomic (.counter counter pfx) => (counter.rank, pfx)
  | .atomic (.responses key) => (3, key)
  | .atomic (.bucket pfx _) => (4, pfx)
  | .atomic (.sum pfx) => (4, pfx)
  | .atomic (.count pfx) => (4, pfx)
  | .infinity pfx => (4, pfx)
  | .breaker pfx => (5, pfx)

private theorem group_previous {series earlier : Series} (due : series.previous = some earlier) :
    earlier.group = series.group := by
  unfold Series.previous at due
  split at due
  next => cases due; rfl
  next => cases due; rfl
  next => cases due; rfl
  next => cases due

theorem previous_ne (series : Series) : series.previous ≠ some series := by
  unfold Series.previous
  split <;> simp

private theorem before_of_group {first second : Series} (apart : first.group ≠ second.group) :
    first.Before second := by
  refine ⟨?_, ?_⟩
  · rintro rfl
    exact apart rfl
  · intro due
    exact apart (group_previous due).symm

private theorem pairwise_histogramSeries (pfx : Text) :
    (histogramSeries pfx).Pairwise Series.Before := by
  unfold histogramSeries
  rw [List.pairwise_append]
  refine ⟨?_, ?_, ?_⟩
  · rw [List.pairwise_map]
    apply List.pairwise_lt_range.imp
    intro first second below
    refine ⟨by simp; omega, ?_⟩
    cases first with
    | zero => simp [Series.previous]
    | succ first =>
        simp [Series.previous]
        omega
  · simp [Series.Before, Series.previous]
  · intro first member second member'
    obtain ⟨index, -, rfl⟩ := List.mem_map.mp member
    cases index <;> simp at member' <;> rcases member' with rfl | rfl | rfl <;>
      simp [Series.Before, Series.previous]

/-- The bucket before one of a histogram belongs to the same histogram. -/
theorem previous_histogramSeries {pfx : Text} {series : Series} (shown : series ∈ histogramSeries pfx)
    {earlier : Series} (due : series.previous = some earlier) : earlier ∈ histogramSeries pfx := by
  unfold histogramSeries at shown ⊢
  rcases List.mem_append.mp shown with member | member
  · obtain ⟨index, within, rfl⟩ := List.mem_map.mp member
    cases index with
    | zero => cases due
    | succ index =>
        injection due with due
        rw [← due]
        refine List.mem_append_left _ (List.mem_map.mpr ⟨index, ?_, rfl⟩)
        rw [List.mem_range] at within ⊢
        omega
  · simp only [List.mem_cons, List.not_mem_nil, or_false] at member
    rcases member with rfl | rfl | rfl
    · injection due with due
      rw [← due]
      exact List.mem_append_left _ (List.mem_map.mpr ⟨_, List.mem_range.mpr (by decide), rfl⟩)
    · cases due
    · injection due with due
      rw [← due]
      exact List.mem_append_right _ List.mem_cons_self

private theorem group_histogramSeries {pfx : Text} {series : Series}
    (shown : series ∈ histogramSeries pfx) :
    series.group = (4, pfx) := by
  rcases List.mem_append.mp shown with member | member
  · obtain ⟨index, -, rfl⟩ := List.mem_map.mp member
    rfl
  · simp only [List.mem_cons, List.not_mem_nil, or_false] at member
    rcases member with rfl | rfl | rfl <;> rfl

theorem bucket_mem_histogramSeries (pfx : Text) {index : Nat}
    (within : index < latencyBuckets.length) :
    Series.atomic (.bucket pfx index) ∈ histogramSeries pfx :=
  List.mem_append_left _ (List.mem_map.mpr ⟨index, List.mem_range.mpr within, rfl⟩)

theorem infinity_mem_histogramSeries (pfx : Text) : Series.infinity pfx ∈ histogramSeries pfx :=
  List.mem_append_right _ List.mem_cons_self

theorem sum_mem_histogramSeries (pfx : Text) :
    Series.atomic (.sum pfx) ∈ histogramSeries pfx :=
  List.mem_append_right _ (by simp)

theorem count_mem_histogramSeries (pfx : Text) :
    Series.atomic (.count pfx) ∈ histogramSeries pfx :=
  List.mem_append_right _ (by simp)

private theorem pairwise_map_before {labels : List Text} {shown : Text → Series}
    (distinct : labels.Nodup) (labelled : ∀ label, (shown label).group.2 = label) :
    (labels.map shown).Pairwise Series.Before := by
  rw [List.pairwise_map]
  apply distinct.imp
  intro first second different
  apply before_of_group
  intro same
  have labels := congrArg Prod.snd same
  rw [labelled, labelled] at labels
  exact different labels

private theorem pairwise_histograms {labels : List Text} (distinct : labels.Nodup) :
    (labels.flatMap histogramSeries).Pairwise Series.Before := by
  rw [List.pairwise_flatMap]
  refine ⟨fun pfx _ => pairwise_histogramSeries pfx, ?_⟩
  apply distinct.imp
  intro pfx other different first member second member'
  apply before_of_group
  rw [group_histogramSeries member, group_histogramSeries member']
  intro same
  exact different (congrArg Prod.snd same)

/-- The families follow one another. -/
theorem pairwise_families (keys : Keys) :
    (families keys).Pairwise fun first second =>
      ∀ left ∈ first.series, ∀ right ∈ second.series, left.group.1 < right.group.1 := by
  have histograms : ∀ series ∈ (keys.prefixes.filter (· ∈ keys.latencies)).flatMap histogramSeries,
      series.group.1 = 4 := by
    intro series member
    obtain ⟨pfx, -, shown⟩ := List.mem_flatMap.mp member
    rw [group_histogramSeries shown]
  simp +contextual only [families, counterFamily, List.pairwise_cons, List.mem_cons,
    List.not_mem_nil, or_false, forall_eq_or_imp, forall_eq, List.forall_mem_map, histograms]
  simp [Series.group, Counter.rank]

/-- No series is shown twice, and none before the one that it has to follow. -/
theorem pairwise_seriesOf {keys : Keys} (distinct : keys.statusTotals.Nodup) :
    (seriesOf keys).Pairwise Series.Before := by
  have prefixes := nodup_prefixes keys
  have single : ∀ family ∈ families keys, family.series.Pairwise Series.Before := by
    simp only [families, counterFamily, List.mem_cons, List.not_mem_nil, or_false, forall_eq_or_imp,
      forall_eq]
    exact ⟨pairwise_map_before prefixes fun _ => rfl, pairwise_map_before prefixes fun _ => rfl,
      pairwise_map_before prefixes fun _ => rfl, pairwise_map_before distinct fun _ => rfl,
      pairwise_histograms (prefixes.filter _), pairwise_map_before (prefixes.filter _) fun _ => rfl⟩
  rw [seriesOf, List.pairwise_flatMap]
  refine ⟨single, (pairwise_families keys).imp ?_⟩
  intro first second ordered left member right member'
  apply before_of_group
  intro same
  exact absurd (ordered left member right member') (by simp [same])

/-- What is rendered of some keys: the counters, the response totals, the histograms and
the gauges. -/
theorem mem_seriesOf_iff {keys : Keys} {series : Series} :
    series ∈ seriesOf keys ↔
      (∃ counter, ∃ pfx ∈ keys.prefixes, series = .atomic (.counter counter pfx)) ∨
      (∃ key ∈ keys.statusTotals, series = .atomic (.responses key)) ∨
      (∃ pfx ∈ keys.latencies, series ∈ histogramSeries pfx) ∨
      (∃ pfx ∈ keys.breakerState, series = .breaker pfx) := by
  have listed : ∀ pfx, pfx ∈ keys.latencies → pfx ∈ keys.prefixes :=
    fun pfx held => mem_prefixes.mpr (Or.inr (Or.inl held))
  have gauged : ∀ pfx, pfx ∈ keys.breakerState → pfx ∈ keys.prefixes :=
    fun pfx held => mem_prefixes.mpr (Or.inr (Or.inr held))
  simp only [seriesOf, families, counterFamily, List.flatMap_cons, List.flatMap_nil, List.append_nil,
    List.mem_append, List.mem_map, List.mem_flatMap, List.mem_filter, decide_eq_true_eq]
  constructor
  · rintro (⟨pfx, known, rfl⟩ | ⟨pfx, known, rfl⟩ | ⟨pfx, known, rfl⟩ | ⟨key, known, rfl⟩ |
      ⟨pfx, ⟨-, held⟩, shown⟩ | ⟨pfx, ⟨-, held⟩, rfl⟩)
    · exact Or.inl ⟨.requests, pfx, known, rfl⟩
    · exact Or.inl ⟨.rateLimited, pfx, known, rfl⟩
    · exact Or.inl ⟨.circuitOpen, pfx, known, rfl⟩
    · exact Or.inr (Or.inl ⟨key, known, rfl⟩)
    · exact Or.inr (Or.inr (Or.inl ⟨pfx, held, shown⟩))
    · exact Or.inr (Or.inr (Or.inr ⟨pfx, held, rfl⟩))
  · rintro (⟨counter, pfx, known, rfl⟩ | ⟨key, known, rfl⟩ | ⟨pfx, held, shown⟩ | ⟨pfx, held, rfl⟩)
    · cases counter with
      | requests => exact Or.inl ⟨pfx, known, rfl⟩
      | rateLimited => exact Or.inr (Or.inl ⟨pfx, known, rfl⟩)
      | circuitOpen => exact Or.inr (Or.inr (Or.inl ⟨pfx, known, rfl⟩))
    · exact Or.inr (Or.inr (Or.inr (Or.inl ⟨key, known, rfl⟩)))
    · exact Or.inr (Or.inr (Or.inr (Or.inr (Or.inl ⟨pfx, ⟨listed pfx held, held⟩, shown⟩))))
    · exact Or.inr (Or.inr (Or.inr (Or.inr (Or.inr ⟨pfx, ⟨gauged pfx held, held⟩, rfl⟩))))

private theorem previous_mem_seriesOf {keys : Keys} {series earlier : Series}
    (shown : series ∈ seriesOf keys)
    (due : series.previous = some earlier) : earlier ∈ seriesOf keys := by
  rcases mem_seriesOf_iff.mp shown with ⟨counter, pfx, -, rfl⟩ | ⟨key, -, rfl⟩ | ⟨pfx, held, member⟩ |
    ⟨pfx, -, rfl⟩
  · cases due
  · cases due
  · have own := previous_histogramSeries member due
    exact mem_seriesOf_iff.mpr (Or.inr (Or.inr (Or.inl ⟨pfx, held, own⟩)))
  · cases due

/-- At any point of the walk, the next series is a new one, and the one that it has
to follow is past. -/
theorem next_series {keys : Keys} (distinct : keys.statusTotals.Nodup) {past rest : List Series}
    {series : Series} (walk : seriesOf keys = past ++ series :: rest) :
    series ∉ past ∧ ∀ earlier, series.previous = some earlier → earlier ∈ past := by
  have ordered := pairwise_seriesOf distinct
  rw [walk] at ordered
  obtain ⟨-, later, across⟩ := List.pairwise_append.mp ordered
  have onward := (List.pairwise_cons.mp later).1
  refine ⟨fun again => (across series again series List.mem_cons_self).1 rfl, ?_⟩
  intro earlier due
  have shown : series ∈ seriesOf keys := by
    rw [walk]
    exact List.mem_append_right _ List.mem_cons_self
  have member := previous_mem_seriesOf shown due
  rw [walk] at member
  rcases List.mem_append.mp member with isPast | notPast
  · exact isPast
  · rcases List.mem_cons.mp notPast with same | isLater
    · exact absurd (same ▸ due) (previous_ne series)
    · exact absurd due (onward earlier isLater).2

/-- Nothing that was loaded has to follow the next series. -/
theorem not_follows_next {keys : Keys} (distinct : keys.statusTotals.Nodup) {past rest : List Series}
    {series other : Series} (walk : seriesOf keys = past ++ series :: rest) (isPast : other ∈ past) :
    other.previous ≠ some series := by
  have ordered := pairwise_seriesOf distinct
  rw [walk] at ordered
  exact ((List.pairwise_append.mp ordered).2.2 other isPast series List.mem_cons_self).2

theorem counter_mem_seriesOf_iff {keys : Keys} {counter : Counter} {pfx : Text} :
    Series.atomic (.counter counter pfx) ∈ seriesOf keys ↔ pfx ∈ keys.prefixes := by
  rw [mem_seriesOf_iff]
  constructor
  · rintro (⟨other, label, known, same⟩ | ⟨key, -, same⟩ | ⟨label, -, shown⟩ | ⟨label, -, same⟩)
    · cases same
      exact known
    · cases same
    · have group := group_histogramSeries shown
      cases counter <;> cases group
    · cases same
  · intro known
    exact Or.inl ⟨counter, pfx, known, rfl⟩

theorem responses_mem_seriesOf_iff {keys : Keys} {key : Text} :
    Series.atomic (.responses key) ∈ seriesOf keys ↔ key ∈ keys.statusTotals := by
  rw [mem_seriesOf_iff]
  constructor
  · rintro (⟨counter, pfx, -, same⟩ | ⟨other, known, same⟩ | ⟨pfx, -, shown⟩ | ⟨pfx, -, same⟩)
    · cases same
    · cases same
      exact known
    · cases group_histogramSeries shown
    · cases same
  · intro known
    exact Or.inr (Or.inl ⟨key, known, rfl⟩)

theorem breaker_mem_seriesOf_iff {keys : Keys} {pfx : Text} :
    Series.breaker pfx ∈ seriesOf keys ↔ pfx ∈ keys.breakerState := by
  rw [mem_seriesOf_iff]
  constructor
  · rintro (⟨counter, label, -, same⟩ | ⟨key, -, same⟩ | ⟨label, -, shown⟩ | ⟨label, held, same⟩)
    · cases same
    · cases same
    · cases group_histogramSeries shown
    · cases same
      exact held
  · intro held
    exact Or.inr (Or.inr (Or.inr ⟨pfx, held, rfl⟩))

/-- A histogram is rendered whole or not at all. -/
theorem histogram_mem_seriesOf_iff {keys : Keys} {pfx : Text} {series : Series}
    (own : series ∈ histogramSeries pfx) : series ∈ seriesOf keys ↔ pfx ∈ keys.latencies := by
  have group := group_histogramSeries own
  rw [mem_seriesOf_iff]
  constructor
  · rintro (⟨counter, label, -, rfl⟩ | ⟨key, -, rfl⟩ | ⟨label, held, shown⟩ | ⟨label, -, rfl⟩)
    · cases counter <;> cases group
    · cases group
    · rw [group_histogramSeries shown] at group
      cases group
      exact held
    · cases group
  · intro held
    exact Or.inr (Or.inr (Or.inl ⟨pfx, held, own⟩))

/-! ### More keys -/

/-- Every key of the first is a key of the second. -/
structure Keys.Within (keys larger : Keys) : Prop where
  perPrefix : ∀ pfx ∈ keys.perPrefix, pfx ∈ larger.perPrefix
  latencies : ∀ pfx ∈ keys.latencies, pfx ∈ larger.latencies
  statusTotals : ∀ key ∈ keys.statusTotals, key ∈ larger.statusTotals
  breakerState : ∀ pfx ∈ keys.breakerState, pfx ∈ larger.breakerState

namespace Keys.Within

theorem refl (keys : Keys) : keys.Within keys :=
  ⟨fun _ known => known, fun _ known => known, fun _ known => known, fun _ known => known⟩

theorem trans {keys larger largest : Keys} (first : keys.Within larger)
    (second : larger.Within largest) : keys.Within largest where
  perPrefix := fun pfx known => second.perPrefix pfx (first.perPrefix pfx known)
  latencies := fun pfx known => second.latencies pfx (first.latencies pfx known)
  statusTotals := fun key known => second.statusTotals key (first.statusTotals key known)
  breakerState := fun pfx known => second.breakerState pfx (first.breakerState pfx known)

theorem prefixes {keys larger : Keys} (within : keys.Within larger) {pfx : Text}
    (known : pfx ∈ keys.prefixes) : pfx ∈ larger.prefixes := by
  rw [mem_prefixes] at known ⊢
  rcases known with listed | timed | gauged
  · exact Or.inl (within.perPrefix pfx listed)
  · exact Or.inr (Or.inl (within.latencies pfx timed))
  · exact Or.inr (Or.inr (within.breakerState pfx gauged))

/-- With more keys, no series is left out. -/
theorem seriesOf {keys larger : Keys} (within : keys.Within larger) {series : Series}
    (shown : series ∈ Metrics.seriesOf keys) : series ∈ Metrics.seriesOf larger := by
  rw [mem_seriesOf_iff] at shown ⊢
  rcases shown with ⟨counter, pfx, known, rfl⟩ | ⟨key, known, rfl⟩ | ⟨pfx, known, own⟩ |
    ⟨pfx, known, rfl⟩
  · exact Or.inl ⟨counter, pfx, within.prefixes known, rfl⟩
  · exact Or.inr (Or.inl ⟨key, within.statusTotals key known, rfl⟩)
  · exact Or.inr (Or.inr (Or.inl ⟨pfx, within.latencies pfx known, own⟩))
  · exact Or.inr (Or.inr (Or.inr ⟨pfx, within.breakerState pfx known, rfl⟩))

end Keys.Within

/-- No step takes a key out. -/
theorem keys_within_after (registry : Registry) (op : RegistryOp) :
    registry.keys.Within (registry.after op).keys where
  perPrefix := fun _ known =>
    Std.TreeMap.mem_keys.mpr (Registry.mem_perPrefix_after (Std.TreeMap.mem_keys.mp known) op)
  latencies := fun _ known =>
    Std.TreeMap.mem_keys.mpr (mem_latencies_after (Std.TreeMap.mem_keys.mp known) op)
  statusTotals := fun _ known =>
    Std.TreeMap.mem_keys.mpr (mem_statusTotals_after (Std.TreeMap.mem_keys.mp known) op)
  breakerState := by
    cases op <;> exact fun _ known => known

theorem keys_within_setBreakerState (registry : Registry) (pfx : Text) (state : Circuit.State) :
    registry.keys.Within (registry.setBreakerState pfx state).keys where
  perPrefix := fun _ known => known
  latencies := fun _ known => known
  statusTotals := fun _ known => known
  breakerState := fun _ known =>
    Std.TreeMap.mem_keys.mpr (Std.TreeMap.mem_insert.mpr (Or.inr (Std.TreeMap.mem_keys.mp known)))

end Ratewall.Metrics
