import Ratewall.Foundation.Pool
import Ratewall.Metrics.Exposed
import Ratewall.Router.Stages

/-! Owns what a reader of the exposition learns: whichever operations on the registry have
been made or are under way, the text that `render` returns is a document of the Prometheus
text format, and every value of the registry stands in it once, under its name and its
labels. -/

namespace Ratewall.Gateway

open Ratewall.Rust
open Ratewall.Foundation
open Ratewall.Foundation.Program
open Ratewall.Circuit
open Ratewall.Config
open Ratewall.Metrics
open Ratewall.Router

/-! ### Any operations on a registry -/

/-- A call of `RequestTimer::finish`, `inc_rate_limited` or `inc_circuit_open`. -/
inductive Operation where
  | finish (pfx : Text) (started : Nat) (statusClass : Option Text)
  | incRateLimited (pfx : Text)
  | incCircuitOpen (pfx : Text)

def Operation.pfx : Operation → Text
  | .finish pfx _ _ => pfx
  | .incRateLimited pfx => pfx
  | .incCircuitOpen pfx => pfx

def Operation.update : Operation → Update
  | .finish pfx started statusClass => Metrics.finish pfx started statusClass
  | .incRateLimited pfx => Metrics.incRateLimited pfx
  | .incCircuitOpen pfx => Metrics.incCircuitOpen pfx

/-- The operations run at the same time, one atomic step of one of them after another.
`set_breaker_state` is a single step. -/
def operating : System RegistryOp RegistryAnswer Unit Unit Registry Operation (Text × State) where
  body := Operation.update
  note _ := ()
  act registry _ op offer := (offer, registry.after op)
  observe note _ _ := note
  ambient registry change := registry.setBreakerState change.1 change.2

abbrev Operating := Pool RegistryOp RegistryAnswer Unit Unit Registry

abbrev OperatingEvent := Pool.Event RegistryOp RegistryAnswer Operation (Text × State)

/-- The prefix is one that a route can have, and the class one that a status has. -/
def ProperEvent : OperatingEvent → Prop
  | .spawn operation =>
      isCleanPrefix operation.pfx = true ∧
        ∀ pfx started statusClass, operation = .finish pfx started (some statusClass) →
          statusClass ∈ statusClasses
  | .ambient change => isCleanPrefix change.1 = true
  | _ => True

/-- The prefixes that an event brings up. -/
def eventPrefixes : OperatingEvent → List Text
  | .spawn operation => [operation.pfx]
  | .ambient change => [change.1]
  | _ => []

section

variable {labels : List Text}

private theorem within_finish {pfx : Text} (known : pfx ∈ labels) (started : Nat)
    {statusClass : Option Text} (listed : ∀ own ∈ statusClass, own ∈ statusClasses) :
    All (RegistryOp.Within labels statusClasses) (finish pfx started statusClass) := by
  cases statusClass with
  | some statusClass =>
      have own := listed statusClass rfl
      exact All.mono (fun _ ordinary => ordinary.1)
        (ordinary_finish known (noBar_of_statusClasses statusClass own) own started)
  | none =>
      refine ⟨known, fun _ => ⟨trivial, fun _ => ⟨trivial, fun nanos => ⟨known, fun _ => ?_⟩⟩⟩⟩
      exact All.mono (fun _ ordinary => ordinary.1) (ordinary_observe pfx nanos)

private theorem within_update {operation : Operation} (proper : ProperEvent (.spawn operation))
    (known : operation.pfx ∈ labels) :
    All (RegistryOp.Within labels statusClasses) operation.update := by
  cases operation with
  | finish pfx started statusClass =>
      apply within_finish known
      rintro own ⟨rfl⟩
      exact proper.2 pfx started own rfl
  | incRateLimited pfx => exact ⟨known, fun _ => ⟨trivial, fun _ => trivial⟩⟩
  | incCircuitOpen pfx => exact ⟨known, fun _ => ⟨trivial, fun _ => trivial⟩⟩

/-- The registry has only known labels, and no operation under way brings another. -/
structure StaysWithin (labels : List Text) (pool : Operating) : Prop where
  registry : pool.shared.LabelsWithin labels statusClasses
  pending : ∀ id thread, pool.threads id = some thread →
    All (RegistryOp.Within labels statusClasses) thread.program

private theorem staysWithin_step {before after : Operating} {event : OperatingEvent}
    (within : StaysWithin labels before)
    (proper : ProperEvent event ∧ ∀ pfx ∈ eventPrefixes event, pfx ∈ labels)
    (stepped : Pool.step operating before event = some after) : StaysWithin labels after := by
  rcases Pool.step_cases stepped with ⟨operation, rfl, rfl⟩ |
    ⟨id, offer, note, op, next, rfl, found, rfl⟩ | ⟨id, thread, rfl, found, rfl⟩ | ⟨change, rfl, rfl⟩
  · refine ⟨within.registry, ?_⟩
    intro id thread placed
    by_cases same : id = before.nextId
    · subst same
      simp only [Function.update_self, Option.some.injEq] at placed
      subst placed
      exact within_update proper.1 (proper.2 _ List.mem_cons_self)
    · simp only [Function.update_of_ne same] at placed
      exact within.pending id thread placed
  · have own := within.pending id _ found
    refine ⟨(labelsWithin_after_iff op).mpr ⟨within.registry, own.1⟩, ?_⟩
    intro other thread placed
    by_cases same : other = id
    · subst same
      simp only [Function.update_self, Option.some.injEq] at placed
      subst placed
      exact own.2 _
    · simp only [Function.update_of_ne same] at placed
      exact within.pending other thread placed
  · refine ⟨within.registry, ?_⟩
    intro other thread' placed
    by_cases same : other = id
    · subst same
      simp only [Function.update_self, reduceCtorEq] at placed
    · simp only [Function.update_of_ne same] at placed
      exact within.pending other thread' placed
  · refine ⟨?_, within.pending⟩
    exact (labelsWithin_setBreakerState_iff change.1 change.2).mpr
      ⟨within.registry, proper.2 _ List.mem_cons_self⟩

private theorem staysWithin_run {events : List OperatingEvent}
    (proper : ∀ event ∈ events, ProperEvent event)
    {final : Operating} (ran : run (Pool.step operating) (Pool.init {}) events = some final) :
    StaysWithin (events.flatMap eventPrefixes) final := by
  have initially : StaysWithin (events.flatMap eventPrefixes) (Pool.init {} : Operating) :=
    ⟨labelsWithin_empty, fun _ _ none => by cases none⟩
  refine run_invariant_of_meets (fun within proper stepped => staysWithin_step within proper stepped)
    initially ?_ ran
  refine meets_of_forall (fun event member => ⟨proper event member, ?_⟩) _
  intro pfx own
  exact List.mem_flatMap.mpr ⟨event, member, own⟩

end

/-! ### Labels that need no escape -/

private theorem plainLabel_of_isCleanPrefix {pfx : Text} (clean : isCleanPrefix pfx = true) :
    PlainLabel pfx := by
  have prefixChars := (Bool.and_eq_true_iff.mp clean).2
  intro c member
  have allowed := List.all_eq_true.mp prefixChars c member
  have apart : ∀ other, isPrefixChar other = false → c ≠ other := by
    rintro other refused rfl
    rw [allowed] at refused
    cases refused
  exact ⟨apart '\\' rfl, apart '\n' rfl, apart '"' rfl, apart '|' rfl⟩

private theorem plainLabel_of_statusClass {statusClass : Text}
    (listed : statusClass ∈ statusClasses) :
    PlainLabel statusClass := by
  have all : statusClasses.all fun statusClass =>
      statusClass.all fun c => !"\\\n\"|".toList.contains c := by decide
  intro c member
  simpa using List.all_eq_true.mp (List.all_eq_true.mp all statusClass listed) c member

private theorem plain_keys {registry : Registry} {labels : List Text}
    (within : registry.LabelsWithin labels statusClasses)
    (clean : ∀ label ∈ labels, isCleanPrefix label = true) : registry.keys.Plain := by
  have plain : ∀ label ∈ labels, PlainLabel label :=
    fun label member => plainLabel_of_isCleanPrefix (clean label member)
  constructor
  · intro pfx member
    exact plain pfx (within.perPrefix pfx (Std.TreeMap.mem_keys.mp member))
  · intro pfx member
    exact plain pfx (within.latencies pfx (Std.TreeMap.mem_keys.mp member))
  · intro key member
    obtain ⟨statusClass, pfx, parts, listed, known⟩ :=
      within.statusTotals key (Std.TreeMap.mem_keys.mp member)
    obtain ⟨joined, -⟩ := splitOnce_eq_some parts
    exact ⟨statusClass, pfx, joined, plainLabel_of_statusClass listed, plain pfx known⟩
  · intro pfx member
    exact plain pfx (within.breakerState pfx (Std.TreeMap.mem_keys.mp member))

/-! ### Reading the registry back -/

def prefixLabel (pfx : Text) : List (Text × Text) := [("prefix".toList, pfx)]

def bucketLabel (pfx bound : Text) : List (Text × Text) :=
  [("prefix".toList, pfx), ("le".toList, bound)]

/-- The registry has data that the series shows. -/
def Holds (registry : Registry) : Series → Prop
  | .atomic (.counter _ pfx) =>
      pfx ∈ registry.perPrefix ∨ pfx ∈ registry.latencies ∨ pfx ∈ registry.breakerState
  | .atomic (.responses key) => key ∈ registry.statusTotals
  | .atomic (.bucket pfx index) => pfx ∈ registry.latencies ∧ index < latencyBuckets.length
  | .atomic (.sum pfx) => pfx ∈ registry.latencies
  | .atomic (.count pfx) => pfx ∈ registry.latencies
  | .infinity pfx => pfx ∈ registry.latencies
  | .breaker pfx => pfx ∈ registry.breakerState

/-- The document holds every value of the registry: the counters of every prefix that has
any data, and what the other maps have under a prefix. It holds nothing else. -/
structure Recovers (seconds : Nat → Text) (document : List Exposition.Family) (registry : Registry) : Prop where
  counters : ∀ counter : Counter, ∀ pfx, isCleanPrefix pfx = true →
    Exposition.lookup document counter.family (prefixLabel pfx) =
      if pfx ∈ registry.perPrefix ∨ pfx ∈ registry.latencies ∨ pfx ∈ registry.breakerState then
        some (.finite ((registry.counters pfx).get counter))
      else none
  responses : ∀ statusClass ∈ statusClasses, ∀ pfx, isCleanPrefix pfx = true →
    Exposition.lookup document "ratewall_responses_total".toList
        [("prefix".toList, pfx), ("class".toList, statusClass)] =
      registry.statusTotals[statusKey statusClass pfx]?.map fun total => .finite total
  buckets : ∀ pfx, isCleanPrefix pfx = true → ∀ index < latencyBuckets.length,
    Exposition.lookup document (durations ++ "_bucket".toList)
        (bucketLabel pfx (bucketLabels.getD index [])) =
      registry.latencies[pfx]?.map fun histogram => .finite (histogram.counts.getD index 0)
  infinity : ∀ pfx, isCleanPrefix pfx = true →
    Exposition.lookup document (durations ++ "_bucket".toList) (bucketLabel pfx "+Inf".toList) =
      registry.latencies[pfx]?.map fun histogram => .finite histogram.count
  count : ∀ pfx, isCleanPrefix pfx = true →
    Exposition.lookup document (durations ++ "_count".toList) (prefixLabel pfx) =
      registry.latencies[pfx]?.map fun histogram => .finite histogram.count
  sums : ∀ pfx, isCleanPrefix pfx = true →
    Exposition.lookup document (durations ++ "_sum".toList) (prefixLabel pfx) =
      registry.latencies[pfx]?.bind fun histogram =>
        Exposition.readNumber (seconds histogram.sumNanos)
  breakers : ∀ pfx, isCleanPrefix pfx = true →
    Exposition.lookup document "ratewall_breaker_state".toList (prefixLabel pfx) =
      registry.breakerState[pfx]?.map fun gauge => .finite gauge
  samples : ∀ sample, sample ∈ Exposition.samplesOf document ↔
    ∃ series, Holds registry series ∧ sample = series.sample seconds (registry.read series)

section

variable {registry : Registry} {seconds : Nat → Text}

private theorem histogram_of_getElem? {pfx : Text} {histogram : Histogram}
    (found : registry.latencies[pfx]? = some histogram) : registry.histogram pfx = histogram := by
  unfold Registry.histogram
  rw [Std.TreeMap.getD_eq_getD_getElem?, found]
  rfl

/-- What a map has under a label is shown exactly if the label is a key of it. -/
theorem shown_of_map {Value : Type} {map : Std.TreeMap Text Value} {label : Text}
    {shown : Prop} [Decidable shown] (isShown : shown ↔ label ∈ map.keys)
    {read : Value → Option Exposition.Number} {found : Option Exposition.Number}
    (value : ∀ entry, map[label]? = some entry → found = read entry) :
    (if shown then found else none) = map[label]?.bind read := by
  rw [Std.TreeMap.mem_keys] at isShown
  cases entered : map[label]? with
  | none =>
      have absent : ¬ shown := by
        intro back
        have present := Std.TreeMap.isSome_getElem?_iff_mem.mpr (isShown.mp back)
        rw [entered] at present
        cases present
      exact if_neg absent
  | some entry =>
      have present : shown := by
        rw [isShown, ← Std.TreeMap.isSome_getElem?_iff_mem, entered]
        rfl
      rw [if_pos present]
      exact value entry entered

/-- `render` walks over the series that the registry has data for. -/
theorem mem_seriesOf_iff_holds {series : Series} :
    series ∈ seriesOf registry.keys ↔ Holds registry series := by
  have ofHistogram : ∀ pfx, series ∈ histogramSeries pfx →
      (series ∈ seriesOf registry.keys ↔ pfx ∈ registry.latencies) :=
    fun pfx own => (histogram_mem_seriesOf_iff own).trans Std.TreeMap.mem_keys
  cases series with
  | infinity pfx => exact ofHistogram pfx (infinity_mem_histogramSeries pfx)
  | breaker pfx => exact breaker_mem_seriesOf_iff.trans Std.TreeMap.mem_keys
  | atomic key =>
      cases key with
      | counter counter pfx =>
          rw [counter_mem_seriesOf_iff, mem_prefixes]
          simp only [Registry.keys, Std.TreeMap.mem_keys, Holds]
      | responses key => exact responses_mem_seriesOf_iff.trans Std.TreeMap.mem_keys
      | sum pfx => exact ofHistogram pfx (sum_mem_histogramSeries pfx)
      | count pfx => exact ofHistogram pfx (count_mem_histogramSeries pfx)
      | bucket pfx index =>
          by_cases within : index < latencyBuckets.length
          · rw [ofHistogram pfx (bucket_mem_histogramSeries pfx within)]
            exact (and_iff_left within).symm
          · -- no histogram has such a bucket
            refine iff_of_false ?_ fun held => within held.2
            rw [mem_seriesOf_iff]
            rintro (⟨counter, label, -, same⟩ | ⟨key, -, same⟩ | ⟨label, -, shown⟩ |
              ⟨label, -, same⟩)
            · cases same
            · cases same
            · rcases List.mem_append.mp shown with bucket | other
              · obtain ⟨own, member, same⟩ := List.mem_map.mp bucket
                cases same
                exact within (List.mem_range.mp member)
              · simp at other
            · cases same

private theorem recovers_document (fixed : FixedPoint seconds) (plain : registry.keys.Plain) :
    Recovers seconds (document seconds registry.keys registry.read) registry := by
  have distinct : registry.keys.statusTotals.Nodup := Std.TreeMap.nodup_keys
  have found : ∀ series : Series, series.Plain →
      Exposition.lookup (document seconds registry.keys registry.read) series.metric.name
          series.labels =
        if series ∈ seriesOf registry.keys then
          Exposition.readNumber (series.value seconds (registry.read series))
        else none :=
    fun series plainSeries => lookup_document fixed plain distinct plainSeries
  have ofHistogram : ∀ pfx {series : Series} {read : Histogram → Option Exposition.Number}
      {found : Option Exposition.Number}, series ∈ histogramSeries pfx →
      (∀ histogram, registry.latencies[pfx]? = some histogram → found = read histogram) →
      (if series ∈ seriesOf registry.keys then found else none) = registry.latencies[pfx]?.bind read := by
    intro pfx series read found own value
    exact shown_of_map (histogram_mem_seriesOf_iff own) value
  have numeral : ∀ value : Nat, Exposition.readNumber (decimal value) = some (.finite value) :=
    Exposition.readNumber_toDigits
  constructor
  · intro counter pfx clean
    have own := found (.atomic (.counter counter pfx)) (plainLabel_of_isCleanPrefix clean)
    have known : Series.atomic (.counter counter pfx) ∈ seriesOf registry.keys ↔
        pfx ∈ registry.perPrefix ∨ pfx ∈ registry.latencies ∨ pfx ∈ registry.breakerState := by
      rw [counter_mem_seriesOf_iff, mem_prefixes]
      simp only [Registry.keys, Std.TreeMap.mem_keys]
    simp only [known] at own
    rw [← numeral]
    exact own
  · intro statusClass listed pfx clean
    have plainClass := plainLabel_of_statusClass listed
    have own := found (.atomic (.responses (statusKey statusClass pfx)))
      ⟨statusClass, pfx, rfl, plainClass, plainLabel_of_isCleanPrefix clean⟩
    have labels : (Series.atomic (.responses (statusKey statusClass pfx))).labels =
        [("prefix".toList, pfx), ("class".toList, statusClass)] := by
      simp only [Series.labels, Series.pfx, Series.detail, responseLabels_of_plain plainClass]
      rfl
    rw [labels] at own
    rw [Option.map_eq_bind]
    refine own.trans (shown_of_map responses_mem_seriesOf_iff ?_)
    intro total entered
    have value : registry.read (.atomic (.responses (statusKey statusClass pfx))) = total := by
      show registry.statusTotals.getD _ 0 = total
      rw [Std.TreeMap.getD_eq_getD_getElem?, entered]
      rfl
    rw [value]
    exact numeral total
  · intro pfx clean index within
    have own := found (.atomic (.bucket pfx index)) ⟨plainLabel_of_isCleanPrefix clean, within⟩
    rw [Option.map_eq_bind]
    refine own.trans (ofHistogram pfx (bucket_mem_histogramSeries pfx within) ?_)
    intro histogram entered
    show Exposition.readNumber (decimal ((registry.histogram pfx).counts.getD index 0)) = _
    rw [histogram_of_getElem? entered]
    exact numeral _
  · intro pfx clean
    have own := found (.infinity pfx) (plainLabel_of_isCleanPrefix clean)
    rw [Option.map_eq_bind]
    refine own.trans (ofHistogram pfx (infinity_mem_histogramSeries pfx) ?_)
    intro histogram entered
    show Exposition.readNumber (decimal (registry.histogram pfx).count) = _
    rw [histogram_of_getElem? entered]
    exact numeral _
  · intro pfx clean
    have own := found (.atomic (.count pfx)) (plainLabel_of_isCleanPrefix clean)
    rw [Option.map_eq_bind]
    refine own.trans (ofHistogram pfx (count_mem_histogramSeries pfx) ?_)
    intro histogram entered
    show Exposition.readNumber (decimal (registry.histogram pfx).count) = _
    rw [histogram_of_getElem? entered]
    exact numeral _
  · intro pfx clean
    have own := found (.atomic (.sum pfx)) (plainLabel_of_isCleanPrefix clean)
    refine own.trans (ofHistogram pfx (sum_mem_histogramSeries pfx) ?_)
    intro histogram entered
    show Exposition.readNumber (seconds (registry.histogram pfx).sumNanos) = _
    rw [histogram_of_getElem? entered]
  · intro pfx clean
    have own := found (.breaker pfx) (plainLabel_of_isCleanPrefix clean)
    rw [Option.map_eq_bind]
    refine own.trans (shown_of_map breaker_mem_seriesOf_iff ?_)
    intro gauge entered
    have value : registry.read (.breaker pfx) = gauge := by
      show registry.breakerState.getD _ 0 = gauge
      rw [Std.TreeMap.getD_eq_getD_getElem?, entered]
      rfl
    rw [value]
    exact numeral gauge
  · intro sample
    rw [samplesOf_document]
    simp only [List.mem_map, mem_seriesOf_iff_holds, eq_comm]

end

/-- Whatever operations have been made on the registry, in whatever order their steps came,
`render` returns a document with one family under each heading, in which no series comes
twice, every value of the registry is found again, and nothing else is. -/
theorem exposition_reads_back (seconds : Nat → Text) (fixed : FixedPoint seconds)
    (events : List OperatingEvent) (proper : ∀ event ∈ events, ProperEvent event)
    (final : Operating) (ran : run (Pool.step operating) (Pool.init {}) events = some final) :
    ∃ document, Exposition.parse (final.shared.rendered seconds) = some document ∧
      (document.map fun family => (family.name, family.help, family.kind)) =
        (headings.map fun heading => (heading.name, some heading.help, some heading.kind)) ∧
      ((Exposition.samplesOf document).Pairwise fun first second => ¬ first.Same second) ∧
      Recovers seconds document final.shared := by
  have within := staysWithin_run proper ran
  have clean : ∀ label ∈ events.flatMap eventPrefixes, isCleanPrefix label = true := by
    intro label member
    obtain ⟨event, came, own⟩ := List.mem_flatMap.mp member
    have valid := proper event came
    cases event with
    | spawn operation =>
        rw [List.mem_singleton.mp own]
        exact valid.1
    | ambient change =>
        rw [List.mem_singleton.mp own]
        exact valid
    | _ => cases own
  have plain := plain_keys within.registry clean
  have distinct : final.shared.keys.statusTotals.Nodup := Std.TreeMap.nodup_keys
  refine ⟨document seconds final.shared.keys final.shared.read, ?_, rfl, ?_,
    recovers_document fixed plain⟩
  · rw [rendered_eq]
    exact parse_exposition fixed plain distinct
  · exact Exposition.distinct_samplesOf (document_wellFormed fixed plain distinct)

/-- The seconds of so many nanoseconds, written out in full. -/
def exactSeconds (nanos : Nat) : Text :=
  decimal (nanos / 1000000000) ++ '.' ::
    (List.range 9).map fun place => Nat.digitChar (nanos / 10 ^ (8 - place) % 10)

private theorem fixedPoint_exactSeconds : FixedPoint exactSeconds := by
  have all : (List.range 10).all fun digit => (Nat.digitChar digit).isDigit := by decide
  constructor
  intro nanos
  refine ⟨_, _, rfl, (isWord_decimal _).1, by simp, ?_, ?_⟩
  · intro c member
    exact Nat.isDigit_of_mem_toDigits (by decide) (by decide) member
  · intro c member
    obtain ⟨place, -, rfl⟩ := List.mem_map.mp member
    exact List.all_eq_true.mp all _ (List.mem_range.mpr (Nat.mod_lt _ (by decide)))

/-- A request to `crm` is refused by the limiter, and `hrm` is short-circuited. -/
def oneRejection : List OperatingEvent :=
  let offer : (op : RegistryOp) → RegistryAnswer op
    | .elapsed _ => 0
    | .scaled _ => 0
    | .countersFor _ => ()
    | .fetchAdd _ _ => ()
    | .countStatus _ => ()
    | .latencyFor _ => ()
    | .addBucket _ _ => ()
    | .addCount _ => ()
    | .addSum _ _ => ()
  [.spawn (.incRateLimited "crm".toList), .exec 0 offer, .exec 0 offer,
    .ambient ("hrm".toList, .opened)]

theorem exposition_reads_back_after_rejection :
    ∃ final, run (Pool.step operating) (Pool.init {}) oneRejection = some final ∧
      ∃ document, Exposition.parse (final.shared.rendered exactSeconds) = some document ∧
        Exposition.lookup document (Counter.family .rateLimited) (prefixLabel "crm".toList) =
          some (.finite 1) ∧
        Exposition.lookup document (Counter.family .requests) (prefixLabel "hrm".toList) =
          some (.finite 0) := by
  refine ⟨_, rfl, ?_⟩
  have proper : ∀ event ∈ oneRejection, ProperEvent event := by
    simp only [oneRejection, List.forall_mem_cons]
    refine ⟨⟨rfl, ?_⟩, trivial, trivial, rfl, by simp⟩
    intro pfx started statusClass other
    cases other
  obtain ⟨document, parsed, -, -, recovers⟩ := exposition_reads_back exactSeconds
    fixedPoint_exactSeconds oneRejection proper _ rfl
  refine ⟨document, parsed, ?_, ?_⟩
  · exact recovers.counters .rateLimited "crm".toList rfl
  · exact recovers.counters .requests "hrm".toList rfl

end Ratewall.Gateway
