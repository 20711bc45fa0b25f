import Std.Data.TreeMap
import Ratewall.Circuit.Breaker
import Ratewall.Foundation.Program
import Ratewall.Foundation.Slots

/-! Owns the registry of `metrics.rs`: its four maps, and the operations on it as
programs, one call for each critical section and each atomic addition. A map
entry is never removed, so the `Arc` that a lookup hands out is the entry under
its key from then on. `entry(..).or_default()` is `insertIfNew`.

The counters are natural numbers. A latency is compared with the bucket bounds in
nanoseconds; the conversion to `f64` and back rounds neither across a bound. Only
the sum depends on it: `(secs * 1e9) as u64` is asked from the surroundings. -/

namespace Ratewall.Metrics

open Ratewall.Rust
open Ratewall.Foundation
open Ratewall.Foundation.Program
open Ratewall.Circuit

structure PrefixCounters where
  requestsTotal : Nat := 0
  rateLimitedTotal : Nat := 0
  circuitOpenTotal : Nat := 0
deriving DecidableEq, Repr

structure Histogram where
  counts : List Nat
  sumNanos : Nat := 0
  count : Nat := 0
deriving DecidableEq, Repr

/-- `LATENCY_BUCKETS`, in nanoseconds. -/
def latencyBuckets : List Nat :=
  [500000, 1000000, 2000000, 5000000, 10000000, 20000000, 50000000, 100000000, 250000000,
    500000000, 1000000000, 2500000000]

def Histogram.new : Histogram := { counts := latencyBuckets.map fun _ => 0 }

structure Registry where
  perPrefix : Std.TreeMap Text PrefixCounters := ∅
  latencies : Std.TreeMap Text Histogram := ∅
  statusTotals : Std.TreeMap Text Nat := ∅
  breakerState : Std.TreeMap Text Nat := ∅

/-! ### Atomic steps -/

inductive Counter where
  | requests
  | rateLimited
  | circuitOpen
deriving DecidableEq, Repr

inductive RegistryOp where
  | countersFor (pfx : Text)
  | fetchAdd (pfx : Text) (counter : Counter)
  | countStatus (key : Text)
  | elapsed (started : Nat)
  | latencyFor (pfx : Text)
  | addBucket (pfx : Text) (index : Nat)
  | addCount (pfx : Text)
  | scaled (nanos : Nat)
  | addSum (pfx : Text) (nanos : Nat)
deriving DecidableEq, Repr

@[reducible] def RegistryAnswer : RegistryOp → Type
  | .elapsed _ => Nat
  | .scaled _ => Nat
  | _ => Unit

def PrefixCounters.add (counters : PrefixCounters) : Counter → PrefixCounters
  | .requests => { counters with requestsTotal := counters.requestsTotal + 1 }
  | .rateLimited => { counters with rateLimitedTotal := counters.rateLimitedTotal + 1 }
  | .circuitOpen => { counters with circuitOpenTotal := counters.circuitOpenTotal + 1 }

/-- What a step leaves in the registry. -/
def Registry.after (registry : Registry) : RegistryOp → Registry
  | .countersFor pfx => { registry with perPrefix := registry.perPrefix.insertIfNew pfx {} }
  | .fetchAdd pfx counter =>
      { registry with perPrefix := registry.perPrefix.modify pfx (·.add counter) }
  | .countStatus key =>
      { registry with
        statusTotals := registry.statusTotals.insert key (registry.statusTotals.getD key 0 + 1) }
  | .latencyFor pfx =>
      { registry with latencies := registry.latencies.insertIfNew pfx Histogram.new }
  | .addBucket pfx index =>
      { registry with
        latencies := registry.latencies.modify pfx fun histogram =>
          { histogram with counts := histogram.counts.modify index (· + 1) } }
  | .addCount pfx =>
      { registry with
        latencies := registry.latencies.modify pfx fun histogram =>
          { histogram with count := histogram.count + 1 } }
  | .addSum pfx nanos =>
      { registry with
        latencies := registry.latencies.modify pfx fun histogram =>
          { histogram with sumNanos := histogram.sumNanos + nanos } }
  | .elapsed _ => registry
  | .scaled _ => registry

/-! ### The operations -/

abbrev Update := Program RegistryOp RegistryAnswer Unit

@[reducible] def step (op : RegistryOp) : Program RegistryOp RegistryAnswer (RegistryAnswer op) :=
  Program.perform op

def incRateLimited (pfx : Text) : Update := do
  step (.countersFor pfx)
  step (.fetchAdd pfx .rateLimited)

def incCircuitOpen (pfx : Text) : Update := do
  step (.countersFor pfx)
  step (.fetchAdd pfx .circuitOpen)

def observeBuckets (pfx : Text) (nanos : Nat) : List (Nat × Nat) → Update
  | [] => pure ()
  | (bound, index) :: rest =>
      if nanos ≤ bound then do
        step (.addBucket pfx index)
        observeBuckets pfx nanos rest
      else observeBuckets pfx nanos rest

/-- `Histogram::observe`. -/
def observe (pfx : Text) (nanos : Nat) : Update := do
  observeBuckets pfx nanos latencyBuckets.zipIdx
  step (.addCount pfx)
  let scaled ← step (.scaled nanos)
  step (.addSum pfx scaled)

def statusKey (statusClass pfx : Text) : Text := statusClass ++ '|' :: pfx

def countClass (pfx : Text) : Option Text → Update
  | some statusClass => step (.countStatus (statusKey statusClass pfx))
  | none => pure ()

/-- `RequestTimer::finish`. -/
def finish (pfx : Text) (started : Nat) (statusClass : Option Text) : Update := do
  step (.countersFor pfx)
  step (.fetchAdd pfx .requests)
  countClass pfx statusClass
  let nanos ← step (.elapsed started)
  step (.latencyFor pfx)
  observe pfx nanos

def gauge : State → Nat
  | .closed => 0
  | .halfOpen => 1
  | .opened => 2

def Registry.setBreakerState (registry : Registry) (pfx : Text) (state : State) : Registry :=
  { registry with breakerState := registry.breakerState.insert pfx (gauge state) }

/-- What a scrape publishes before it renders. -/
def Registry.publish (registry : Registry) (states : List (Text × State)) : Registry :=
  states.foldl (fun registry entry => registry.setBreakerState entry.1 entry.2) registry

/-! ### Reading the counters -/

namespace Registry

/-- The counters of a label. A label without an entry reads as zero. -/
def counters (registry : Registry) (label : Text) : PrefixCounters :=
  registry.perPrefix.getD label {}

/-- Making room for a prefix changes no number. -/
theorem counters_countersFor (registry : Registry) (pfx label : Text) :
    (registry.after (.countersFor pfx)).counters label = registry.counters label :=
  getD_insertIfNew_default registry.perPrefix pfx label {}

/-- An addition changes the counters of its own prefix and no others. -/
theorem counters_fetchAdd (registry : Registry) (pfx label : Text) (counter : Counter) :
    (registry.after (.fetchAdd pfx counter)).counters label =
      if pfx = label ∧ pfx ∈ registry.perPrefix then (registry.counters label).add counter
      else registry.counters label :=
  getD_modify_default registry.perPrefix pfx label (·.add counter) {}

theorem mem_perPrefix_after {registry : Registry} {label : Text}
    (present : label ∈ registry.perPrefix) (op : RegistryOp) :
    label ∈ (registry.after op).perPrefix := by
  cases op with
  | countersFor pfx => exact Std.TreeMap.mem_insertIfNew.mpr (Or.inr present)
  | fetchAdd pfx counter => exact Std.TreeMap.mem_modify.mpr present
  | _ => exact present

theorem publish_perPrefix (registry : Registry) (states : List (Text × State)) :
    (registry.publish states).perPrefix = registry.perPrefix := by
  induction states generalizing registry with
  | nil => rfl
  | cons entry states ih => exact ih (registry.setBreakerState entry.1 entry.2)

/-- Only the additions to it change the number of rejections of a label. -/
theorem rateLimitedTotal_after (registry : Registry) {op : RegistryOp}
    (other : ∀ pfx, op ≠ .fetchAdd pfx .rateLimited) (label : Text) :
    ((registry.after op).counters label).rateLimitedTotal =
      (registry.counters label).rateLimitedTotal := by
  cases op with
  | countersFor pfx => rw [counters_countersFor]
  | fetchAdd pfx counter =>
      rw [counters_fetchAdd]
      split
      next =>
        cases counter with
        | rateLimited => exact absurd rfl (other pfx)
        | requests => rfl
        | circuitOpen => rfl
      next => rfl
  | _ => rfl

end Registry

/-! ### Labels -/

/-- The two parts that `render` makes of a key of `status_totals` are a known class
and a known label. -/
def StatusKeyWithin (labels classes : List Text) (key : Text) : Prop :=
  ∃ statusClass pfx, splitOnce '|' key = some (statusClass, pfx) ∧ statusClass ∈ classes ∧
    pfx ∈ labels

private theorem statusKeyWithin_statusKey {labels classes : List Text} {statusClass pfx : Text}
    (noBar : '|' ∉ statusClass) (listed : statusClass ∈ classes) (known : pfx ∈ labels) :
    StatusKeyWithin labels classes (statusKey statusClass pfx) :=
  ⟨statusClass, pfx, splitOnce_append noBar, listed, known⟩

@[mk_iff]
structure Registry.LabelsWithin (labels classes : List Text) (registry : Registry) : Prop where
  perPrefix : ∀ label ∈ registry.perPrefix, label ∈ labels
  latencies : ∀ label ∈ registry.latencies, label ∈ labels
  statusTotals : ∀ key ∈ registry.statusTotals, StatusKeyWithin labels classes key
  breakerState : ∀ label ∈ registry.breakerState, label ∈ labels

/-- What the step may enter into the registry is known. -/
def RegistryOp.Within (labels classes : List Text) : RegistryOp → Prop
  | .countersFor pfx => pfx ∈ labels
  | .countStatus key => StatusKeyWithin labels classes key
  | .latencyFor pfx => pfx ∈ labels
  | _ => True

section

variable {labels classes : List Text} {registry : Registry}

theorem labelsWithin_empty : Registry.LabelsWithin labels classes {} := by
  simp [Registry.labelsWithin_iff]

private theorem forall_mem_entered {entered : Text} {known : Text → Prop} {old new : Text → Prop}
    (grown : ∀ label, new label ↔ entered = label ∨ old label) :
    (∀ label, new label → known label) ↔ (∀ label, old label → known label) ∧ known entered := by
  simp only [grown]
  constructor
  · intro all
    exact ⟨fun label held => all label (Or.inr held), all entered (Or.inl rfl)⟩
  · rintro ⟨held, here⟩ label (rfl | isOld)
    · exact here
    · exact held label isOld

/-- The step enters nothing unknown and counts no rejection of the limiter. -/
def RegistryOp.Ordinary (labels classes : List Text) (op : RegistryOp) : Prop :=
  op.Within labels classes ∧ ∀ pfx, op ≠ .fetchAdd pfx .rateLimited

private theorem ordinary_step (op : RegistryOp) (ordinary : op.Ordinary labels classes) :
    All (RegistryOp.Ordinary labels classes) (step op) := ⟨ordinary, fun _ => trivial⟩

theorem ordinary_incCircuitOpen {pfx : Text} (known : pfx ∈ labels) :
    All (RegistryOp.Ordinary labels classes) (incCircuitOpen pfx) := by
  apply All.bind (ordinary_step (.countersFor pfx) ⟨known, by simp⟩)
  intro _
  exact ordinary_step (.fetchAdd pfx .circuitOpen) ⟨trivial, by simp⟩

private theorem ordinary_observeBuckets (pfx : Text) (nanos : Nat) (buckets : List (Nat × Nat)) :
    All (RegistryOp.Ordinary labels classes) (observeBuckets pfx nanos buckets) := by
  induction buckets with
  | nil => exact trivial
  | cons bucket rest ih =>
      obtain ⟨bound, index⟩ := bucket
      unfold observeBuckets
      split
      next =>
        apply All.bind (ordinary_step (.addBucket pfx index) ⟨trivial, by simp⟩)
        intro _
        exact ih
      next => exact ih

theorem ordinary_observe (pfx : Text) (nanos : Nat) :
    All (RegistryOp.Ordinary labels classes) (observe pfx nanos) := by
  apply All.bind (ordinary_observeBuckets pfx nanos _)
  intro _
  apply All.bind (ordinary_step (.addCount pfx) ⟨trivial, by simp⟩)
  intro _
  apply All.bind (ordinary_step (.scaled nanos) ⟨trivial, by simp⟩)
  intro scaled
  exact ordinary_step (.addSum pfx scaled) ⟨trivial, by simp⟩

/-- What a finished request adds stays under its prefix and class. -/
theorem ordinary_finish {pfx statusClass : Text} (known : pfx ∈ labels)
    (noBar : '|' ∉ statusClass) (listed : statusClass ∈ classes) (started : Nat) :
    All (RegistryOp.Ordinary labels classes) (finish pfx started (some statusClass)) := by
  apply All.bind (ordinary_step (.countersFor pfx) ⟨known, by simp⟩)
  intro _
  apply All.bind (ordinary_step (.fetchAdd pfx .requests) ⟨trivial, by simp⟩)
  intro _
  apply All.bind (ordinary_step (.countStatus (statusKey statusClass pfx))
    ⟨statusKeyWithin_statusKey noBar listed known, by simp⟩)
  intro _
  apply All.bind (ordinary_step (.elapsed started) ⟨trivial, by simp⟩)
  intro nanos
  apply All.bind (ordinary_step (.latencyFor pfx) ⟨known, by simp⟩)
  intro _
  exact ordinary_observe pfx nanos

private theorem labelsWithin_countersFor_iff (pfx : Text) :
    (registry.after (.countersFor pfx)).LabelsWithin labels classes ↔
      registry.LabelsWithin labels classes ∧ pfx ∈ labels := by
  have entered := @forall_mem_entered pfx (· ∈ labels) (· ∈ registry.perPrefix)
    (· ∈ registry.perPrefix.insertIfNew pfx {}) fun label => by simp [Std.TreeMap.mem_insertIfNew]
  simp only [Registry.labelsWithin_iff, Registry.after, entered]
  tauto

private theorem labelsWithin_countStatus_iff (key : Text) :
    (registry.after (.countStatus key)).LabelsWithin labels classes ↔
      registry.LabelsWithin labels classes ∧ StatusKeyWithin labels classes key := by
  have entered := @forall_mem_entered key (StatusKeyWithin labels classes)
    (· ∈ registry.statusTotals)
    (· ∈ registry.statusTotals.insert key (registry.statusTotals.getD key 0 + 1))
    fun label => by simp [Std.TreeMap.mem_insert]
  simp only [Registry.labelsWithin_iff, Registry.after, entered]
  tauto

private theorem labelsWithin_latencyFor_iff (pfx : Text) :
    (registry.after (.latencyFor pfx)).LabelsWithin labels classes ↔
      registry.LabelsWithin labels classes ∧ pfx ∈ labels := by
  have entered := @forall_mem_entered pfx (· ∈ labels) (· ∈ registry.latencies)
    (· ∈ registry.latencies.insertIfNew pfx Histogram.new) fun label => by
      simp [Std.TreeMap.mem_insertIfNew]
  simp only [Registry.labelsWithin_iff, Registry.after, entered]
  tauto

/-- A breaker gauge brings in its own prefix as a label. -/
theorem labelsWithin_setBreakerState_iff (pfx : Text) (state : State) :
    (registry.setBreakerState pfx state).LabelsWithin labels classes ↔
      registry.LabelsWithin labels classes ∧ pfx ∈ labels := by
  have entered := @forall_mem_entered pfx (· ∈ labels) (· ∈ registry.breakerState)
    (· ∈ registry.breakerState.insert pfx (gauge state)) fun label => by
      simp [Std.TreeMap.mem_insert]
  simp only [Registry.labelsWithin_iff, Registry.setBreakerState, entered]
  tauto

/-- A step keeps the labels within bounds exactly when it enters nothing unknown, and
no step takes a label out again. -/
theorem labelsWithin_after_iff (op : RegistryOp) :
    (registry.after op).LabelsWithin labels classes ↔
      registry.LabelsWithin labels classes ∧ op.Within labels classes := by
  cases op with
  | countersFor pfx => exact labelsWithin_countersFor_iff pfx
  | countStatus key => exact labelsWithin_countStatus_iff key
  | latencyFor pfx => exact labelsWithin_latencyFor_iff pfx
  | _ =>
      -- The other steps look an entry up and change it in place.
      simp only [Registry.labelsWithin_iff, Registry.after, RegistryOp.Within, and_true,
        Std.TreeMap.mem_modify]

/-- Publishing brings in the prefixes of the states published. -/
theorem labelsWithin_publish_iff (states : List (Text × State)) :
    (registry.publish states).LabelsWithin labels classes ↔
      registry.LabelsWithin labels classes ∧ ∀ entry ∈ states, entry.1 ∈ labels := by
  induction states generalizing registry with
  | nil => simp [Registry.publish]
  | cons entry states ih =>
      have tail := @ih (registry.setBreakerState entry.1 entry.2)
      rw [labelsWithin_setBreakerState_iff, and_assoc] at tail
      rw [List.forall_mem_cons]
      exact tail

end

end Ratewall.Metrics
