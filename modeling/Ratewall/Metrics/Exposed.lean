import Mathlib.Data.List.GetD
import Ratewall.Foundation.Exposition.Document
import Ratewall.Metrics.Render

/-! Owns the scrape as a document of the Prometheus text format: `render` writes the
document whose samples are the series of the registry, one for each, so that a reader finds
every value under the name and the labels of its series. Labels are taken to be plain:
nothing in them would have to be escaped. -/

namespace Ratewall.Metrics

open Ratewall.Rust
open Ratewall.Foundation
open Ratewall.Foundation.Program

/-! ### What `render` returns -/

def Registry.look (registry : Registry) : (op : RenderOp) → RenderAnswer op
  | .keys => registry.keys
  | .load series => registry.read series

/-- `Metrics::render`, while nobody else uses the registry. -/
def Registry.rendered (registry : Registry) (seconds : Nat → Text) : Text :=
  (execute (fun registry op => (Registry.look registry op, registry)) registry (render seconds)).1

section

variable {registry : Registry} {seconds : Nat → Text}

private theorem execute_renderSeries (series : List Series) (out : Text) :
    execute (fun registry op => (Registry.look registry op, registry)) registry
        (renderSeries seconds series out) =
      (out ++ series.flatMap fun shown => shown.text seconds (registry.read shown), registry) := by
  induction series generalizing out with
  | nil =>
      rw [List.flatMap_nil, List.append_nil]
      rfl
  | cons shown rest ih =>
      rw [List.flatMap_cons, ← List.append_assoc]
      exact ih _

private theorem execute_renderFamilies (families : List Family) (out : Text) :
    execute (fun registry op => (Registry.look registry op, registry)) registry
        (renderFamilies seconds families out) =
      (out ++ families.flatMap fun family => family.text seconds registry.read, registry) := by
  induction families generalizing out with
  | nil =>
      rw [List.flatMap_nil, List.append_nil]
      rfl
  | cons family rest ih =>
      rw [renderFamilies, execute_bind, execute_renderSeries, ih, List.flatMap_cons, Family.text]
      simp only [List.append_assoc]

/-- What a registry renders is the exposition of its keys and values. -/
theorem rendered_eq : registry.rendered seconds = exposition seconds registry.keys registry.read := by
  show (execute _ registry (renderFamilies seconds (families registry.keys) [])).1 = _
  rw [execute_renderFamilies]
  rfl

end

/-! ### Names and labels -/

/-- The metrics of a scrape. -/
inductive Metric where
  | counter (counter : Counter)
  | responses
  | bucket
  | sum
  | count
  | breaker
deriving DecidableEq

def Metric.name : Metric → Text
  | .counter which => which.family
  | .responses => "ratewall_responses_total".toList
  | .bucket => durations ++ "_bucket".toList
  | .sum => durations ++ "_sum".toList
  | .count => durations ++ "_count".toList
  | .breaker => "ratewall_breaker_state".toList

def Series.metric : Series → Metric
  | .atomic (.counter counter _) => .counter counter
  | .atomic (.responses _) => .responses
  | .atomic (.bucket _ _) => .bucket
  | .atomic (.sum _) => .sum
  | .atomic (.count _) => .count
  | .infinity _ => .bucket
  | .breaker _ => .breaker

/-- The prefix that a series is labelled with. -/
def Series.pfx : Series → Text
  | .atomic (.counter _ pfx) => pfx
  | .atomic (.responses key) => (responseLabels key).2
  | .atomic (.bucket pfx _) => pfx
  | .atomic (.sum pfx) => pfx
  | .atomic (.count pfx) => pfx
  | .infinity pfx => pfx
  | .breaker pfx => pfx

/-- The label behind the prefix, if there is one. -/
def Series.detail : Series → Option (Text × Text)
  | .atomic (.responses key) => some ("class".toList, (responseLabels key).1)
  | .atomic (.bucket _ index) => some ("le".toList, bucketLabels.getD index [])
  | .infinity _ => some ("le".toList, "+Inf".toList)
  | _ => none

def Series.labels (series : Series) : List (Text × Text) :=
  ("prefix".toList, series.pfx) :: series.detail.toList

def Series.value (series : Series) (seconds : Nat → Text) (value : Nat) : Text :=
  match series with
  | .atomic (.sum _) => seconds value
  | _ => decimal value

/-- Nothing in the text would be escaped, and it does not hide where a class ends. -/
def PlainLabel (label : Text) : Prop := ∀ c ∈ label, c ≠ '\\' ∧ c ≠ '\n' ∧ c ≠ '"' ∧ c ≠ '|'

/-- The series is one that a registry with plain labels can show. -/
def Series.Plain : Series → Prop
  | .atomic (.responses key) =>
      ∃ statusClass pfx, key = statusKey statusClass pfx ∧ PlainLabel statusClass ∧ PlainLabel pfx
  | .atomic (.bucket pfx index) => PlainLabel pfx ∧ index < latencyBuckets.length
  | series => PlainLabel series.pfx

section

variable {first second series : Series}

/-- A key of the response totals falls back into its two labels. -/
theorem responseLabels_of_plain {statusClass pfx : Text} (plain : PlainLabel statusClass) :
    responseLabels (statusKey statusClass pfx) = (statusClass, pfx) := by
  have noBar : '|' ∉ statusClass := fun member => (plain '|' member).2.2.2 rfl
  unfold responseLabels statusKey
  rw [splitOnce_append noBar]
  rfl

private theorem eq_metric_of_name {left right : Metric} (same : left.name = right.name) :
    left = right := by
  have listed : ∀ metric : Metric, metric ∈ [Metric.counter .requests, .counter .rateLimited,
      .counter .circuitOpen, .responses, .bucket, .sum, .count, .breaker] := by
    intro metric
    cases metric with
    | counter counter => cases counter <;> simp
    | _ => simp
  have distinct : ([Metric.counter .requests, .counter .rateLimited, .counter .circuitOpen,
      .responses, .bucket, .sum, .count, .breaker].map Metric.name).Nodup := by decide
  exact List.inj_on_of_nodup_map distinct (listed left) (listed right) same

private theorem detail_apart {label : Text × Text} (isDetail : series.detail = some label) :
    label.1 ≠ "prefix".toList := by
  have words : "class".toList ≠ "prefix".toList ∧ "le".toList ≠ "prefix".toList := by decide
  unfold Series.detail at isDetail
  split at isDetail
  next => cases isDetail; exact words.1
  next => cases isDetail; exact words.2
  next => cases isDetail; exact words.2
  next => cases isDetail

/-- The order of the labels of a series does not matter. -/
theorem labels_eq_of_perm (same : first.labels.Perm second.labels) :
    first.pfx = second.pfx ∧ first.detail = second.detail := by
  have inside : ("prefix".toList, first.pfx) ∈ second.labels := same.mem_iff.mp List.mem_cons_self
  have pfx : first.pfx = second.pfx := by
    rcases List.mem_cons.mp inside with equal | isDetail
    · exact congrArg Prod.snd equal
    · exact absurd rfl (detail_apart (Option.mem_toList.mp isDetail))
  refine ⟨pfx, ?_⟩
  unfold Series.labels at same
  rw [pfx] at same
  have rest := (List.perm_cons _).mp same
  cases left : first.detail with
  | none =>
      rw [left] at rest
      have none' := List.nil_perm.mp rest
      cases right : second.detail with
      | none => rfl
      | some label =>
          rw [right] at none'
          cases none'
  | some label =>
      rw [left] at rest
      have single := List.singleton_perm.mp rest
      cases right : second.detail with
      | none =>
          rw [right] at single
          cases single
      | some other =>
          rw [right] at single
          exact congrArg some (List.singleton_inj.mp single)

private theorem bucketLabel_mem {index : Nat} (within : index < latencyBuckets.length) :
    bucketLabels.getD index [] ∈ bucketLabels := by
  have bound : index < bucketLabels.length := within
  rw [List.getD_eq_getElem _ _ bound]
  exact List.getElem_mem bound

private theorem index_of_bucketLabel {left right : Nat} (isLeft : left < latencyBuckets.length)
    (isRight : right < latencyBuckets.length)
    (same : bucketLabels.getD left [] = bucketLabels.getD right []) : left = right := by
  have distinct : bucketLabels.Nodup := by decide
  have boundLeft : left < bucketLabels.length := isLeft
  have boundRight : right < bucketLabels.length := isRight
  rw [List.getD_eq_getElem _ _ boundLeft, List.getD_eq_getElem _ _ boundRight] at same
  exact (distinct.getElem_inj_iff).mp same

/-- A series is told by its name and its labels. -/
theorem eq_of_same (plainFirst : first.Plain) (plainSecond : second.Plain)
    (names : first.metric.name = second.metric.name) (labels : first.labels.Perm second.labels) :
    first = second := by
  have metric := eq_metric_of_name names
  obtain ⟨pfx, detail⟩ := labels_eq_of_perm labels
  have noInfinity : ∀ index, index < latencyBuckets.length →
      bucketLabels.getD index [] ≠ "+Inf".toList := by
    intro index within same
    have member := bucketLabel_mem within
    rw [same] at member
    revert member
    decide
  rcases first with (⟨which, pfx₁⟩ | key₁ | ⟨pfx₁, index₁⟩ | pfx₁ | pfx₁) | pfx₁ | pfx₁ <;>
    rcases second with (⟨other, pfx₂⟩ | key₂ | ⟨pfx₂, index₂⟩ | pfx₂ | pfx₂) | pfx₂ | pfx₂ <;>
    try cases metric
  · exact congrArg (fun pfx => Series.atomic (.counter _ pfx)) pfx
  · obtain ⟨class₁, prefix₁, rfl, plain₁, -⟩ := plainFirst
    obtain ⟨class₂, prefix₂, rfl, plain₂, -⟩ := plainSecond
    simp only [Series.pfx, Series.detail, responseLabels_of_plain plain₁,
      responseLabels_of_plain plain₂, Option.some.injEq, Prod.mk.injEq, true_and] at pfx detail
    rw [pfx, detail]
  · have labels := congrArg Prod.snd (Option.some.inj detail)
    have pfx : pfx₁ = pfx₂ := pfx
    rw [pfx, index_of_bucketLabel plainFirst.2 plainSecond.2 labels]
  · exact absurd (congrArg Prod.snd (Option.some.inj detail)) (noInfinity index₁ plainFirst.2)
  · exact congrArg (fun pfx => Series.atomic (.sum pfx)) pfx
  · exact congrArg (fun pfx => Series.atomic (.count pfx)) pfx
  · exact absurd (congrArg Prod.snd (Option.some.inj detail)).symm (noInfinity index₂ plainSecond.2)
  · exact congrArg Series.infinity pfx
  · exact congrArg Series.breaker pfx

end

/-! ### Samples -/

/-- What `{:.9}` writes of a float that is neither negative nor infinite. -/
structure FixedPoint (seconds : Nat → Text) : Prop where
  digits : ∀ nanos, ∃ whole fraction, seconds nanos = whole ++ '.' :: fraction ∧ whole ≠ [] ∧
    fraction.length = 9 ∧ (∀ c ∈ whole, c.isDigit = true) ∧ ∀ c ∈ fraction, c.isDigit = true

def Series.sample (series : Series) (seconds : Nat → Text) (value : Nat) : Exposition.Sample :=
  ⟨series.metric.name, series.labels, series.value seconds value, none⟩

section

variable {series : Series} {seconds : Nat → Text}

private theorem plain_of_digits {text : Text} (digits : ∀ c ∈ text, c.isDigit = true) :
    ∀ c ∈ text, Exposition.isBlank c = false ∧ c ≠ '\n' := by
  intro c member
  have digit := digits c member
  refine ⟨?_, Exposition.digit_ne digit (by decide)⟩
  simp [Exposition.isBlank, Exposition.digit_ne digit (show ' '.isDigit = false from rfl),
    Exposition.digit_ne digit (show '\t'.isDigit = false from rfl)]

theorem isWord_decimal (value : Nat) : Exposition.IsWord (decimal value) := by
  refine ⟨?_, ?_⟩
  · intro none
    have positive := @Nat.length_toDigits_pos 10 value
    rw [show Nat.toDigits 10 value = [] from none] at positive
    cases positive
  · exact plain_of_digits fun c member => Nat.isDigit_of_mem_toDigits (by decide) (by decide) member

/-- The value of a sample is one token and a number. -/
theorem value_wellFormed (fixed : FixedPoint seconds) (value : Nat) :
    Exposition.IsWord (series.value seconds value) ∧
      (Exposition.readNumber (series.value seconds value)).isSome = true := by
  unfold Series.value
  split
  next =>
    obtain ⟨whole, fraction, written, nonempty, -, wholeDigits, digits⟩ := fixed.digits value
    rw [written]
    refine ⟨⟨by simp, ?_⟩, ?_⟩
    · intro c member
      rcases List.mem_append.mp member with before | after
      · exact plain_of_digits wholeDigits c before
      · rcases List.mem_cons.mp after with rfl | behind
        · decide
        · exact plain_of_digits digits c behind
    · rw [Exposition.readNumber_of_point nonempty wholeDigits digits]
      rfl
  next =>
    refine ⟨isWord_decimal value, ?_⟩
    rw [decimal, Exposition.readNumber_toDigits]
    rfl

private theorem sample_wellFormed (fixed : FixedPoint seconds) (series : Series) (value : Nat) :
    (series.sample seconds value).WellFormed := by
  constructor
  · show Exposition.isName true series.metric.name = true
    cases series.metric with
    | counter which => cases which <;> decide
    | _ => decide
  · intro label member
    have words : Exposition.isName false "prefix".toList = true ∧
        Exposition.isName false "class".toList = true ∧
        Exposition.isName false "le".toList = true := by decide
    rcases List.mem_cons.mp member with rfl | isDetail
    · exact words.1
    · have detail := Option.mem_toList.mp isDetail
      unfold Series.detail at detail
      split at detail
      next => cases detail; exact words.2.1
      next => cases detail; exact words.2.2
      next => cases detail; exact words.2.2
      next => cases detail
  · show (series.labels.map Prod.fst).Nodup
    unfold Series.labels
    cases isDetail : series.detail with
    | none => simp
    | some label => simpa using (detail_apart isDetail).symm
  · exact value_wellFormed fixed value
  · intro stamp none
    cases none

private theorem plain_labels (plain : series.Plain) :
    ∀ label ∈ series.labels, PlainLabel label.2 := by
  have bounds : bucketLabels.all fun label =>
      label.all fun c => !"\\\n\"|".toList.contains c := by decide
  have unescaped : ∀ label : Text, label.all (fun c => !"\\\n\"|".toList.contains c) = true →
      PlainLabel label := by
    intro label all c member
    simpa using List.all_eq_true.mp all c member
  have bound : ∀ index, index < latencyBuckets.length → PlainLabel (bucketLabels.getD index []) :=
    fun index within => unescaped _ (List.all_eq_true.mp bounds _ (bucketLabel_mem within))
  intro label member
  rcases List.mem_cons.mp member with rfl | isDetail
  · rcases series with (⟨which, pfx⟩ | key | ⟨pfx, index⟩ | pfx | pfx) | pfx | pfx
    · exact plain
    · obtain ⟨statusClass, pfx, rfl, plainClass, plainPfx⟩ := plain
      show PlainLabel (responseLabels _).2
      rw [responseLabels_of_plain plainClass]
      exact plainPfx
    · exact plain.1
    · exact plain
    · exact plain
    · exact plain
    · exact plain
  · have detail := Option.mem_toList.mp isDetail
    unfold Series.detail at detail
    split at detail
    next key =>
      obtain ⟨statusClass, pfx, rfl, plainClass, -⟩ := plain
      cases detail
      show PlainLabel (responseLabels _).1
      rw [responseLabels_of_plain plainClass]
      exact plainClass
    next pfx index =>
      cases detail
      exact bound index plain.2
    next =>
      cases detail
      exact unescaped _ (by decide)
    next => cases detail

/-- A line of `render` is the line of the sample. -/
theorem text_eq_print (plain : series.Plain) (value : Nat) :
    series.text seconds value = (series.sample seconds value).print ++ ['\n'] := by
  have written : series.text seconds value =
      sampleText series.metric.name series.labels (series.value seconds value) := by
    rcases series with (⟨which, pfx⟩ | key | ⟨pfx, index⟩ | pfx | pfx) | pfx | pfx <;> rfl
  have labels : series.labels.map labelText = series.labels.map Exposition.printLabel := by
    apply List.map_congr_left
    intro label member
    have unescaped : Exposition.escaped true label.2 = label.2 := by
      apply Exposition.escaped_of_plain
      intro c inside
      have apart := plain_labels plain label member c inside
      exact ⟨apart.1, apart.2.1, apart.2.2.1⟩
    simp [labelText, Exposition.printLabel, unescaped]
  rw [written, sampleText, labels]
  simp [Exposition.Sample.print, Series.sample, Exposition.printLabels, Exposition.printTimestamp]

end

/-! ### The document -/

/-- The two comments in front of a family. -/
structure Heading where
  name : Text
  help : Text
  kind : Exposition.Kind

def headings : List Heading :=
  [⟨Counter.family .requests, "Proxied requests per route prefix.".toList, .counter⟩,
    ⟨Counter.family .rateLimited, "Requests rejected with 429 by the rate limiter.".toList, .counter⟩,
    ⟨Counter.family .circuitOpen, "Requests short-circuited with 503 by an open breaker.".toList,
      .counter⟩,
    ⟨"ratewall_responses_total".toList, "Backend responses by status class.".toList, .counter⟩,
    ⟨durations, "Proxied request latency per route prefix.".toList, .histogram⟩,
    ⟨"ratewall_breaker_state".toList,
      "Circuit breaker state per backend (0 closed, 1 half-open, 2 open).".toList, .gauge⟩]

def describe (seconds : Nat → Text) (values : Series → Nat) (heading : Heading) (family : Family) :
    Exposition.Family :=
  ⟨heading.name, some heading.help, some heading.kind,
    family.series.map fun shown => shown.sample seconds (values shown)⟩

/-- The document that `exposition` writes. -/
def document (seconds : Nat → Text) (keys : Keys) (values : Series → Nat) :
    List Exposition.Family :=
  List.zipWith (describe seconds values) headings (families keys)

/-- All series that there are under these keys have plain labels. -/
structure Keys.Plain (keys : Keys) : Prop where
  perPrefix : ∀ pfx ∈ keys.perPrefix, PlainLabel pfx
  latencies : ∀ pfx ∈ keys.latencies, PlainLabel pfx
  statusTotals : ∀ key ∈ keys.statusTotals, (Series.atomic (.responses key)).Plain
  breakerState : ∀ pfx ∈ keys.breakerState, PlainLabel pfx

section

variable {keys : Keys} {seconds : Nat → Text} {values : Series → Nat}

private theorem plain_of_mem (plain : keys.Plain) {series : Series}
    (shown : series ∈ seriesOf keys) :
    series.Plain := by
  have prefixes : ∀ pfx ∈ keys.prefixes, PlainLabel pfx := by
    intro pfx member
    rcases mem_prefixes.mp member with inCounters | inHistograms | inGauges
    · exact plain.perPrefix pfx inCounters
    · exact plain.latencies pfx inHistograms
    · exact plain.breakerState pfx inGauges
  rcases mem_seriesOf_iff.mp shown with ⟨counter, pfx, known, rfl⟩ | ⟨key, known, rfl⟩ |
    ⟨pfx, held, member⟩ | ⟨pfx, held, rfl⟩
  · exact prefixes pfx known
  · exact plain.statusTotals key known
  · have own := plain.latencies pfx held
    rcases List.mem_append.mp member with isBucket | isOther
    · obtain ⟨index, within, rfl⟩ := List.mem_map.mp isBucket
      exact ⟨own, List.mem_range.mp within⟩
    · simp only [List.mem_cons, List.not_mem_nil, or_false] at isOther
      rcases isOther with rfl | rfl | rfl
      · exact own
      · exact own
      · exact own
  · exact plain.breakerState pfx held

/-- The samples of the document are the series of the keys. -/
theorem samplesOf_document :
    Exposition.samplesOf (document seconds keys values) =
      (seriesOf keys).map fun shown => shown.sample seconds (values shown) := by
  have general : ∀ (headings : List Heading) (families : List Family),
      headings.length = families.length →
      (List.zipWith (describe seconds values) headings families).flatMap Exposition.Family.samples =
        (families.flatMap Family.series).map fun shown => shown.sample seconds (values shown) := by
    intro headings families
    induction families generalizing headings with
    | nil => intro _; cases headings <;> rfl
    | cons family rest ih =>
        intro same
        cases headings with
        | nil => cases same
        | cons heading others =>
            rw [List.zipWith_cons_cons, List.flatMap_cons, List.flatMap_cons, List.map_append,
              ih others (Nat.succ.inj same)]
            rfl
  exact general headings (families keys) rfl

private theorem header_eq {heading : Heading} (listed : heading ∈ headings) :
    header heading.name heading.help heading.kind.text =
      Exposition.printHelp heading.name heading.help ++ '\n' ::
        (Exposition.printKind heading.name heading.kind ++ ['\n']) := by
  have plain : headings.all fun heading =>
      heading.help.all fun c => !"\\\n\"".toList.contains c := by decide +kernel
  have unescaped : Exposition.escaped false heading.help = heading.help := by
    apply Exposition.escaped_of_plain
    intro c member
    simpa using List.all_eq_true.mp (List.all_eq_true.mp plain heading listed) c member
  have helps : "# HELP ".toList = '#' :: ' ' :: (Exposition.helpKeyword ++ [' ']) := rfl
  have types : "\n# TYPE ".toList = '\n' :: '#' :: ' ' :: (Exposition.typeKeyword ++ [' ']) := rfl
  have blank : " ".toList = [' '] := rfl
  have newline : "\n".toList = ['\n'] := rfl
  unfold header Exposition.printHelp Exposition.printKind
  rw [helps, types, blank, newline, unescaped]
  simp only [List.append_assoc, List.cons_append, List.nil_append]

/-- A family of `exposition` is a family of the document. -/
theorem text_eq_lines {heading : Heading} (listed : heading ∈ headings) {family : Family}
    (headed : family.header = header heading.name heading.help heading.kind.text)
    (plain : ∀ series ∈ family.series, series.Plain) :
    family.text seconds values =
      (describe seconds values heading family).lines.flatMap (· ++ ['\n']) := by
  have samples : (family.series.flatMap fun shown => shown.text seconds (values shown)) =
      ((family.series.map fun shown => shown.sample seconds (values shown)).map
        Exposition.Sample.print).flatMap (· ++ ['\n']) := by
    rw [List.map_map, List.flatMap_map]
    exact List.flatMap_congr fun series shown => text_eq_print (plain series shown) (values series)
  rw [Family.text, headed, header_eq listed, samples]
  simp [Exposition.Family.lines, describe]

/-- `exposition` writes the document. -/
theorem exposition_eq_print (plain : keys.Plain) :
    exposition seconds keys values = Exposition.print (document seconds keys values) := by
  have general : ∀ (heads : List Heading) (families : List Family),
      (∀ heading ∈ heads, heading ∈ headings) →
      families.map Family.header =
        heads.map (fun heading => header heading.name heading.help heading.kind.text) →
      (∀ family ∈ families, ∀ series ∈ family.series, series.Plain) →
      families.flatMap (fun family => family.text seconds values) =
        Exposition.print (List.zipWith (describe seconds values) heads families) := by
    intro heads families
    induction families generalizing heads with
    | nil => intro _ _ _; cases heads <;> rfl
    | cons family rest ih =>
        intro listed headed plain
        cases heads with
        | nil => cases headed
        | cons heading others =>
            injection headed with first later
            have own := @text_eq_lines seconds values heading
              (listed heading List.mem_cons_self) family first (plain family List.mem_cons_self)
            have tail := ih others (fun other member => listed other (List.mem_cons_of_mem _ member))
              later (fun other member => plain other (List.mem_cons_of_mem _ member))
            rw [List.flatMap_cons, own, tail, List.zipWith_cons_cons]
            simp [Exposition.print]
  refine general headings (families keys) (fun _ listed => listed) rfl ?_
  intro family member series shown
  exact plain_of_mem plain (List.mem_flatMap.mpr ⟨family, member, shown⟩)

/-- A family has the metrics that its heading announces. -/
theorem owns_of_zip {heading : Heading} {family : Family}
    (paired : (heading, family) ∈ headings.zip (families keys)) {series : Series}
    (shown : series ∈ family.series) :
    (describe seconds values heading family).owns series.metric.name = true := by
  simp only [headings, families, counterFamily, List.zip_cons_cons, List.zip_nil_right,
    List.mem_cons, List.not_mem_nil, or_false, Prod.mk.injEq] at paired
  rcases paired with ⟨rfl, rfl⟩ | ⟨rfl, rfl⟩ | ⟨rfl, rfl⟩ | ⟨rfl, rfl⟩ | ⟨rfl, rfl⟩ | ⟨rfl, rfl⟩
  · obtain ⟨pfx, -, rfl⟩ := List.mem_map.mp shown
    rfl
  · obtain ⟨pfx, -, rfl⟩ := List.mem_map.mp shown
    rfl
  · obtain ⟨pfx, -, rfl⟩ := List.mem_map.mp shown
    rfl
  · obtain ⟨key, -, rfl⟩ := List.mem_map.mp shown
    rfl
  · obtain ⟨pfx, -, own⟩ := List.mem_flatMap.mp shown
    rcases List.mem_append.mp own with isBucket | isOther
    · obtain ⟨index, -, rfl⟩ := List.mem_map.mp isBucket
      rfl
    · simp only [List.mem_cons, List.not_mem_nil, or_false] at isOther
      rcases isOther with rfl | rfl | rfl
      · rfl
      · rfl
      · rfl
  · obtain ⟨pfx, -, rfl⟩ := List.mem_map.mp shown
    rfl

private theorem same_sample_iff {first second : Series} (plainFirst : first.Plain)
    (plainSecond : second.Plain) (left right : Nat) :
    (first.sample seconds left).Same (second.sample seconds right) ↔ first = second := by
  constructor
  · intro same
    exact eq_of_same plainFirst plainSecond same.1 same.2
  · rintro rfl
    exact ⟨rfl, List.Perm.refl _⟩

/-- The exposition follows the grammar of the text format. -/
theorem document_wellFormed (fixed : FixedPoint seconds) (plain : keys.Plain)
    (distinct : keys.statusTotals.Nodup) :
    Exposition.WellFormed (document seconds keys values) := by
  constructor
  · intro described member
    rw [document, ← List.map_uncurry_zip_eq_zipWith] at member
    obtain ⟨⟨heading, family⟩, paired, rfl⟩ := List.mem_map.mp member
    obtain ⟨listed, shown⟩ := List.of_mem_zip paired
    have inside : ∀ series ∈ family.series, series.Plain := fun series isShown =>
      plain_of_mem plain (List.mem_flatMap.mpr ⟨family, shown, isShown⟩)
    have names : headings.all fun heading => Exposition.isName true heading.name := by decide
    have heads : headings.all fun heading =>
        heading.help.head?.all fun c => !Exposition.isBlank c := by decide
    constructor
    · exact List.all_eq_true.mp names heading listed
    · intro doc isDoc c isHead
      cases isDoc
      have unblank := List.all_eq_true.mp heads heading listed
      rw [isHead] at unblank
      simpa using unblank
    · intro sample isSample
      obtain ⟨series, -, rfl⟩ := List.mem_map.mp isSample
      exact sample_wellFormed fixed series (values series)
    · intro sample isSample
      obtain ⟨series, isShown, rfl⟩ := List.mem_map.mp isSample
      exact owns_of_zip paired isShown
    · have ordered := (List.pairwise_flatMap.mp (pairwise_seriesOf distinct)).1 family shown
      show (family.series.map fun shown => shown.sample seconds (values shown)).Pairwise _
      rw [List.pairwise_map]
      apply ordered.imp_of_mem
      intro first second isFirst isSecond before same
      exact before.1 ((same_sample_iff (inside first isFirst) (inside second isSecond) _ _).mp same)
    · simp [describe, Exposition.Family.fresh]
  · have names : (document seconds keys values).flatMap Exposition.Family.names =
        headings.flatMap fun heading =>
          heading.name :: (Exposition.suffixes (some heading.kind)).map (heading.name ++ ·) := rfl
    rw [names]
    decide +kernel

/-- What `render` writes is read back as the document. -/
theorem parse_exposition (fixed : FixedPoint seconds) (plain : keys.Plain)
    (distinct : keys.statusTotals.Nodup) :
    Exposition.parse (exposition seconds keys values) = some (document seconds keys values) := by
  rw [exposition_eq_print plain]
  exact Exposition.parse_print (document_wellFormed fixed plain distinct)

/-- Under the name and the labels of a series stands its value, if it is shown. -/
theorem lookup_document (fixed : FixedPoint seconds) (plain : keys.Plain)
    (distinct : keys.statusTotals.Nodup) {series : Series} (plainSeries : series.Plain) :
    Exposition.lookup (document seconds keys values) series.metric.name series.labels =
      if series ∈ seriesOf keys then
        Exposition.readNumber (series.value seconds (values series))
      else none := by
  split
  next shown =>
    have inside : series.sample seconds (values series) ∈
        Exposition.samplesOf (document seconds keys values) := by
      rw [samplesOf_document]
      exact List.mem_map_of_mem shown
    exact Exposition.lookup_of_mem
      (Exposition.distinct_samplesOf (document_wellFormed fixed plain distinct)) inside
  next hidden =>
    apply Exposition.lookup_of_absent
    intro sample member same
    rw [samplesOf_document] at member
    obtain ⟨other, shown, rfl⟩ := List.mem_map.mp member
    exact hidden (eq_of_same (plain_of_mem plain shown) plainSeries same.1 same.2 ▸ shown)

end

end Ratewall.Metrics
