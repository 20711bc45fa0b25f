import Ratewall.Metrics

/-! Owns the atomics of the registry: the counters that requests add to, one
`fetch_add` at a time and without a lock, once the entry that holds them is there.
A step adds to the atomics what `adds` says, and changes no other; the maps only
grow. -/

namespace Ratewall.Metrics

open Ratewall.Rust
open Ratewall.Foundation

/-- One `AtomicU64` of the registry. -/
inductive Atomic where
  | counter (counter : Counter) (pfx : Text)
  | responses (key : Text)
  | bucket (pfx : Text) (index : Nat)
  | sum (pfx : Text)
  | count (pfx : Text)
deriving DecidableEq, Repr

def PrefixCounters.get (counters : PrefixCounters) : Counter → Nat
  | .requests => counters.requestsTotal
  | .rateLimited => counters.rateLimitedTotal
  | .circuitOpen => counters.circuitOpenTotal

private theorem PrefixCounters.get_add (counters : PrefixCounters) (added counter : Counter) :
    (counters.add added).get counter = counters.get counter + if counter = added then 1 else 0 := by
  cases added <;> cases counter <;> rfl

namespace Registry

def histogram (registry : Registry) (pfx : Text) : Histogram :=
  registry.latencies.getD pfx Histogram.new

/-- `load`. -/
def value (registry : Registry) : Atomic → Nat
  | .counter counter pfx => (registry.counters pfx).get counter
  | .responses key => registry.statusTotals.getD key 0
  | .bucket pfx index => (registry.histogram pfx).counts.getD index 0
  | .sum pfx => (registry.histogram pfx).sumNanos
  | .count pfx => (registry.histogram pfx).count

end Registry

/-- How much a step adds to an atomic. -/
def RegistryOp.adds : RegistryOp → Atomic → Nat
  | .fetchAdd pfx counter, atomic => if atomic = .counter counter pfx then 1 else 0
  | .countStatus key, atomic => if atomic = .responses key then 1 else 0
  | .addBucket pfx index, atomic => if atomic = .bucket pfx index then 1 else 0
  | .addCount pfx, atomic => if atomic = .count pfx then 1 else 0
  | .addSum pfx nanos, atomic => if atomic = .sum pfx then nanos else 0
  | _, _ => 0

/-- The entry that a step adds to is there. -/
def RegistryOp.Entered (registry : Registry) : RegistryOp → Prop
  | .fetchAdd pfx _ => pfx ∈ registry.perPrefix
  | .addBucket pfx index =>
      pfx ∈ registry.latencies ∧ index < (registry.histogram pfx).counts.length
  | .addCount pfx => pfx ∈ registry.latencies
  | .addSum pfx _ => pfx ∈ registry.latencies
  | _ => True

section

variable {registry : Registry}

private theorem histogram_latencyFor (pfx label : Text) :
    (registry.after (.latencyFor pfx)).histogram label = registry.histogram label :=
  getD_insertIfNew_default registry.latencies pfx label Histogram.new

/-- A histogram that is there is changed in place. -/
theorem histogram_modify {pfx : Text} (present : pfx ∈ registry.latencies)
    (change : Histogram → Histogram) (label : Text) :
    ({ registry with latencies := registry.latencies.modify pfx change } : Registry).histogram label =
      if pfx = label then change (registry.histogram label) else registry.histogram label := by
  have changed := getD_modify_default registry.latencies pfx label change Histogram.new
  simp only [present, and_true] at changed
  exact changed

private theorem value_countersFor (pfx : Text) (atomic : Atomic) :
    (registry.after (.countersFor pfx)).value atomic = registry.value atomic := by
  cases atomic with
  | counter counter label =>
      show (Registry.counters _ label).get counter = _
      rw [Registry.counters_countersFor]
      rfl
  | _ => rfl

private theorem value_latencyFor (pfx : Text) (atomic : Atomic) :
    (registry.after (.latencyFor pfx)).value atomic = registry.value atomic := by
  cases atomic with
  | counter counter label => rfl
  | responses key => rfl
  | _ =>
      simp only [Registry.value]
      rw [histogram_latencyFor]

private theorem value_fetchAdd {pfx : Text} {counter : Counter} (present : pfx ∈ registry.perPrefix)
    (atomic : Atomic) :
    (registry.after (.fetchAdd pfx counter)).value atomic =
      registry.value atomic + RegistryOp.adds (.fetchAdd pfx counter) atomic := by
  cases atomic with
  | counter other label =>
      simp only [Registry.value, Registry.counters_fetchAdd, RegistryOp.adds, Atomic.counter.injEq,
        present, and_true]
      by_cases same : pfx = label
      · rw [if_pos same, PrefixCounters.get_add]
        simp [same]
      · rw [if_neg same, if_neg (fun both => same both.2.symm)]
        rfl
  | _ => rfl

private theorem value_countStatus (key : Text) (atomic : Atomic) :
    (registry.after (.countStatus key)).value atomic =
      registry.value atomic + RegistryOp.adds (.countStatus key) atomic := by
  cases atomic with
  | responses other =>
      simp only [Registry.value, Registry.after, RegistryOp.adds, Std.TreeMap.getD_insert,
        Std.LawfulEqOrd.compare_eq_iff_eq, Atomic.responses.injEq]
      by_cases same : key = other
      · simp [same]
      · rw [if_neg same, if_neg (fun equal => same equal.symm)]
        rfl
  | _ => rfl

private theorem value_addBucket {pfx : Text} {index : Nat} (present : pfx ∈ registry.latencies)
    (within : index < (registry.histogram pfx).counts.length) (atomic : Atomic) :
    (registry.after (.addBucket pfx index)).value atomic =
      registry.value atomic + RegistryOp.adds (.addBucket pfx index) atomic := by
  have changed := histogram_modify present fun histogram =>
    { histogram with counts := histogram.counts.modify index (· + 1) }
  cases atomic with
  | counter counter label => rfl
  | responses key => rfl
  | bucket label other =>
      simp only [Registry.value, Registry.after, changed, RegistryOp.adds, Atomic.bucket.injEq]
      by_cases same : pfx = label
      · subst same
        simp only [if_true, true_and, List.getD_eq_getElem?_getD, List.getElem?_modify]
        by_cases equal : index = other
        · subst equal
          simp [List.getElem?_eq_getElem within]
        · have unequal : other ≠ index := fun back => equal back.symm
          simp [equal, unequal]
      · have unequal : label ≠ pfx := fun back => same back.symm
        simp [same, unequal]
  | sum label =>
      simp only [Registry.value, Registry.after, changed]
      split
      next => rfl
      next => rfl
  | count label =>
      simp only [Registry.value, Registry.after, changed]
      split
      next => rfl
      next => rfl

private theorem value_addCount {pfx : Text} (present : pfx ∈ registry.latencies) (atomic : Atomic) :
    (registry.after (.addCount pfx)).value atomic =
      registry.value atomic + RegistryOp.adds (.addCount pfx) atomic := by
  have changed := histogram_modify present fun histogram =>
    { histogram with count := histogram.count + 1 }
  cases atomic with
  | counter counter label => rfl
  | responses key => rfl
  | count label =>
      simp only [Registry.value, Registry.after, changed, RegistryOp.adds, Atomic.count.injEq]
      by_cases same : pfx = label
      · simp [same]
      · have unequal : label ≠ pfx := fun back => same back.symm
        simp [same, unequal]
  | _ =>
      simp only [Registry.value, Registry.after, changed]
      split
      next => rfl
      next => rfl

private theorem value_addSum {pfx : Text} {nanos : Nat} (present : pfx ∈ registry.latencies)
    (atomic : Atomic) :
    (registry.after (.addSum pfx nanos)).value atomic =
      registry.value atomic + RegistryOp.adds (.addSum pfx nanos) atomic := by
  have changed := histogram_modify present fun histogram =>
    { histogram with sumNanos := histogram.sumNanos + nanos }
  cases atomic with
  | counter counter label => rfl
  | responses key => rfl
  | sum label =>
      simp only [Registry.value, Registry.after, changed, RegistryOp.adds, Atomic.sum.injEq]
      by_cases same : pfx = label
      · simp [same]
      · have unequal : label ≠ pfx := fun back => same back.symm
        simp [same, unequal]
  | _ =>
      simp only [Registry.value, Registry.after, changed]
      split
      next => rfl
      next => rfl

/-- A step adds to the atomics what it says, and changes no other. -/
theorem value_after {op : RegistryOp} (entered : op.Entered registry) (atomic : Atomic) :
    (registry.after op).value atomic = registry.value atomic + op.adds atomic := by
  cases op with
  | countersFor pfx => exact value_countersFor pfx atomic
  | fetchAdd pfx counter => exact value_fetchAdd entered atomic
  | countStatus key => exact value_countStatus key atomic
  | elapsed started => rfl
  | latencyFor pfx => exact value_latencyFor pfx atomic
  | addBucket pfx index => exact value_addBucket entered.1 entered.2 atomic
  | addCount pfx => exact value_addCount entered atomic
  | scaled nanos => rfl
  | addSum pfx nanos => exact value_addSum entered atomic

theorem value_empty (atomic : Atomic) : Registry.value {} atomic = 0 := by
  cases atomic with
  | counter counter pfx =>
      cases counter <;> rfl
  | responses key => rfl
  | bucket pfx index =>
      show (latencyBuckets.map fun _ => 0).getD index 0 = 0
      rw [List.getD_eq_getElem?_getD, List.getElem?_map]
      cases latencyBuckets[index]? <;> rfl
  | sum pfx => rfl
  | count pfx => rfl

theorem mem_latencies_after {label : Text} (present : label ∈ registry.latencies)
    (op : RegistryOp) : label ∈ (registry.after op).latencies := by
  cases op with
  | latencyFor pfx => exact Std.TreeMap.mem_insertIfNew.mpr (Or.inr present)
  | addBucket pfx index => exact Std.TreeMap.mem_modify.mpr present
  | addCount pfx => exact Std.TreeMap.mem_modify.mpr present
  | addSum pfx nanos => exact Std.TreeMap.mem_modify.mpr present
  | _ => exact present

/-- A response total that is there stays there. -/
theorem mem_statusTotals_after {key : Text} (present : key ∈ registry.statusTotals)
    (op : RegistryOp) : key ∈ (registry.after op).statusTotals := by
  cases op with
  | countStatus counted => exact Std.TreeMap.mem_insert.mpr (Or.inr present)
  | _ => exact present

/-- Every histogram has one counter for each bound. -/
def Registry.Shaped (registry : Registry) : Prop :=
  ∀ pfx, (registry.histogram pfx).counts.length = latencyBuckets.length

theorem shaped_empty : Registry.Shaped {} := by
  intro pfx
  rfl

private theorem shaped_modify
    {pfx : Text} {change : Histogram → Histogram} (shaped : registry.Shaped)
    (keeps : ∀ histogram : Histogram, (change histogram).counts.length = histogram.counts.length) :
    Registry.Shaped { registry with latencies := registry.latencies.modify pfx change } := by
  intro label
  show ((registry.latencies.modify pfx change).getD label Histogram.new).counts.length = _
  rw [getD_modify_default]
  split
  next =>
    rw [keeps]
    exact shaped label
  next => exact shaped label

/-- No operation changes the number of buckets of a histogram. -/
theorem shaped_after (shaped : registry.Shaped) (op : RegistryOp) :
    (registry.after op).Shaped := by
  cases op with
  | latencyFor pfx =>
      intro label
      rw [histogram_latencyFor]
      exact shaped label
  | addBucket pfx index => exact shaped_modify shaped fun histogram => by simp
  | addCount pfx => exact shaped_modify shaped fun histogram => rfl
  | addSum pfx nanos => exact shaped_modify shaped fun histogram => rfl
  | _ => exact shaped

end

end Ratewall.Metrics
