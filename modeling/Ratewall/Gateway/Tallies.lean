import Ratewall.Gateway.Visits

/-! Owns what a single thread leaves in the registry, step after step: how much it
has added to each atomic at each stage, and which entries are there for it to add
to. -/

namespace Ratewall.Gateway

open Ratewall.Rust
open Ratewall.Foundation
open Ratewall.Foundation.Program
open Ratewall.Circuit
open Ratewall.Http
open Ratewall.Auth
open Ratewall.RateLimit
open Ratewall.Metrics
open Ratewall.Router

/-! ### What a thread has added -/

def Access.adds : Access → Atomic → Nat
  | .action (.registry op), atomic => op.adds atomic
  | _, _ => 0

def Access.onRegistry (registry : Registry) : Access → Registry
  | .action (.registry op) => registry.after op
  | .setBreakerState pfx state => registry.setBreakerState pfx state
  | _ => registry

/-- An access adds to the note of its visit what it adds to the registry. -/
theorem added_observe (visit : Visit) (access : Access) (answer : Granted access) (atomic : Atomic) :
    (visit.observe access answer).added atomic = visit.added atomic + access.adds atomic := by
  cases access with
  | action action =>
      cases action with
      | handler op => cases op <;> rfl
      | redis op => rfl
      | registry op => rfl
  | render op => cases op <;> rfl
  | _ => rfl

theorem registry_act (hall : LockedWorld) (id : Nat) (access : Access) (offer : Granted access) :
    (hall.act id access offer).2.registry = access.onRegistry hall.registry := by
  cases access with
  | action action =>
      cases action with
      | handler op => cases op <;> rfl
      | redis op => rfl
      | registry op => cases op <;> rfl
  | render op => cases op <;> rfl
  | _ => rfl

/-- What the stage of a request says about what it has added. -/
structure Tallied (pfx : Text) (rank : Nat) (statusKey : Option Text) (nanos : Nat)
    (added : Atomic → Nat) : Prop where
  requests : ∀ label, added (.counter .requests label) = if pfx = label ∧ 3 ≤ rank then 1 else 0
  responses : ∀ key, added (.responses key) = if statusKey = some key then 1 else 0
  classed : statusKey.isSome ↔ 4 ≤ rank
  labelled : ∀ key, statusKey = some key → (responseLabels key).2 = pfx
  count : ∀ label, added (.count label) = if pfx = label ∧ 6 ≤ rank then 1 else 0
  falls : ∀ label index, added (.bucket label index) ≠ 0 →
    pfx = label ∧ 5 ≤ rank ∧ added (.bucket label index) = 1 ∧ FallsInto nanos index
  observed : 6 ≤ rank → ∀ index, FallsInto nanos index → added (.bucket pfx index) = 1

def Visit.Tallied (visit : Visit) : Prop :=
  Gateway.Tallied visit.pfx visit.stage.rank visit.statusKey visit.nanos visit.added

theorem tallied_start (arrival : Arrival) : Visit.Tallied { arrival := arrival } where
  requests := by simp [Stage.rank]
  responses := by simp
  classed := by simp [Stage.rank]
  labelled := by simp
  count := by simp [Stage.rank]
  falls := by simp
  observed := by simp [Stage.rank]

namespace Tallied

variable {pfx : Text} {rank : Nat} {statusKey : Option Text} {nanos : Nat} {added : Atomic → Nat}

/-- Up to the lookup of the histogram, what is to be known is about the counters. -/
theorem unobserved (tallied : Tallied pfx rank statusKey nanos added) (isEarly : rank ≤ 4)
    {next nanos' : Nat} {statusKey' : Option Text} {added' : Atomic → Nat} (stillEarly : next ≤ 5)
    (bucket : ∀ label index, added' (.bucket label index) = added (.bucket label index))
    (count : ∀ label, added' (.count label) = added (.count label))
    (requests : ∀ label, added' (.counter .requests label) = if pfx = label ∧ 3 ≤ next then 1 else 0)
    (responses : ∀ key, added' (.responses key) = if statusKey' = some key then 1 else 0)
    (classed : statusKey'.isSome ↔ 4 ≤ next)
    (labelled : ∀ key, statusKey' = some key → (responseLabels key).2 = pfx) :
    Tallied pfx next statusKey' nanos' added' where
  requests := requests
  responses := responses
  classed := classed
  labelled := labelled
  count := by
    intro label
    rw [count, tallied.count, if_neg (fun both => by omega), if_neg (fun both => by omega)]
  falls := by
    intro label index isAdded
    rw [bucket] at isAdded
    have late := (tallied.falls label index isAdded).2.1
    omega
  observed := by
    intro late
    omega

/-- The first stages are nothing to the account. -/
theorem early (tallied : Tallied pfx rank statusKey nanos added) {other : Nat} (isEarly : rank ≤ 2)
    (stillEarly : other ≤ 2) : Tallied pfx other statusKey nanos added := by
  have requests : ∀ label, added (.counter .requests label) =
      if pfx = label ∧ 3 ≤ other then 1 else 0 := by
    intro label
    rw [tallied.requests, if_neg (fun both => by omega), if_neg (fun both => by omega)]
  have classed : statusKey.isSome ↔ 4 ≤ other := by
    rw [tallied.classed]
    omega
  exact tallied.unobserved (by omega) (by omega) (fun _ _ => rfl) (fun _ => rfl) requests
    tallied.responses classed tallied.labelled

/-- Before the histogram is looked up, the duration is nothing to the account. -/
theorem measured (tallied : Tallied pfx 4 statusKey nanos added) (measured : Nat) :
    Tallied pfx 4 statusKey measured added :=
  tallied.unobserved (by omega) (by omega) (fun _ _ => rfl) (fun _ => rfl) tallied.requests
    tallied.responses tallied.classed tallied.labelled

theorem timed (tallied : Tallied pfx 4 statusKey nanos added) :
    Tallied pfx 5 statusKey nanos added := by
  have requests : ∀ label, added (.counter .requests label) =
      if pfx = label ∧ 3 ≤ 5 then 1 else 0 := by
    intro label
    simpa using tallied.requests label
  have classed : statusKey.isSome ↔ 4 ≤ 5 := by
    rw [tallied.classed]
    omega
  exact tallied.unobserved (by omega) (by omega) (fun _ _ => rfl) (fun _ => rfl) requests
    tallied.responses classed tallied.labelled

/-- An addition to an atomic that the account does not name. -/
theorem aside (tallied : Tallied pfx rank statusKey nanos added) {op : RegistryOp}
    (requests : ∀ label, op.adds (.counter .requests label) = 0)
    (responses : ∀ key, op.adds (.responses key) = 0) (count : ∀ label, op.adds (.count label) = 0)
    (bucket : ∀ label index, op.adds (.bucket label index) = 0) :
    Tallied pfx rank statusKey nanos fun atomic => added atomic + op.adds atomic where
  requests := by
    intro label
    rw [requests, tallied.requests, Nat.add_zero]
  responses := by
    intro key
    rw [responses, tallied.responses, Nat.add_zero]
  classed := tallied.classed
  labelled := tallied.labelled
  count := by
    intro label
    rw [count, tallied.count, Nat.add_zero]
  falls := by
    intro label index isAdded
    rw [bucket, Nat.add_zero] at isAdded ⊢
    exact tallied.falls label index isAdded
  observed := by
    intro late index falls
    rw [bucket, Nat.add_zero]
    exact tallied.observed late index falls

theorem request (tallied : Tallied pfx 2 statusKey nanos added) :
    Tallied pfx 3 statusKey nanos fun atomic =>
      added atomic + RegistryOp.adds (.fetchAdd pfx .requests) atomic := by
  have requests : ∀ label, added (.counter .requests label) +
      RegistryOp.adds (.fetchAdd pfx .requests) (.counter .requests label) =
        if pfx = label ∧ 3 ≤ 3 then 1 else 0 := by
    intro label
    rw [tallied.requests, if_neg (fun both => by omega)]
    simp [RegistryOp.adds, eq_comm]
  have classed : statusKey.isSome ↔ 4 ≤ 3 := by
    rw [tallied.classed]
    omega
  exact tallied.unobserved (by omega) (by omega) (fun _ _ => rfl) (fun _ => rfl) requests
    tallied.responses classed tallied.labelled

theorem status (tallied : Tallied pfx 3 statusKey nanos added) {key : Text}
    (own : (responseLabels key).2 = pfx) :
    Tallied pfx 4 (some key) nanos fun atomic =>
      added atomic + RegistryOp.adds (.countStatus key) atomic := by
  have unclassed : statusKey = none := by
    cases found : statusKey with
    | none => rfl
    | some earlier =>
        have late := tallied.classed.mp (by rw [found]; rfl)
        omega
  have requests : ∀ label, added (.counter .requests label) +
      RegistryOp.adds (.countStatus key) (.counter .requests label) =
        if pfx = label ∧ 3 ≤ 4 then 1 else 0 := by
    intro label
    simpa [RegistryOp.adds] using tallied.requests label
  have responses : ∀ other, added (.responses other) +
      RegistryOp.adds (.countStatus key) (.responses other) =
        if some key = some other then 1 else 0 := by
    intro other
    rw [tallied.responses, unclassed]
    simp [RegistryOp.adds, eq_comm]
  have labelled : ∀ other, some key = some other → (responseLabels other).2 = pfx := by
    intro other same
    cases same
    exact own
  exact tallied.unobserved (by omega) (by omega) (fun _ _ => rfl) (fun _ => rfl) requests responses
    (by simp) labelled

theorem bucket (tallied : Tallied pfx 5 statusKey nanos added) {index : Nat}
    (untouched : added (.bucket pfx index) = 0) (falls : FallsInto nanos index) :
    Tallied pfx 5 statusKey nanos fun atomic =>
      added atomic + RegistryOp.adds (.addBucket pfx index) atomic where
  requests := tallied.requests
  responses := tallied.responses
  classed := tallied.classed
  labelled := tallied.labelled
  count := tallied.count
  falls := by
    intro label other isAdded
    by_cases same : label = pfx ∧ other = index
    · obtain ⟨rfl, rfl⟩ := same
      refine ⟨rfl, by omega, ?_, falls⟩
      rw [untouched]
      simp [RegistryOp.adds]
    · have unchanged : RegistryOp.adds (.addBucket pfx index) (.bucket label other) = 0 := by
        simp [RegistryOp.adds]
        tauto
      rw [unchanged, Nat.add_zero] at isAdded ⊢
      exact tallied.falls label other isAdded
  observed := by
    intro late
    omega

theorem finished (tallied : Tallied pfx 5 statusKey nanos added)
    (all : ∀ index, FallsInto nanos index → added (.bucket pfx index) = 1) :
    Tallied pfx 6 statusKey nanos fun atomic =>
      added atomic + RegistryOp.adds (.addCount pfx) atomic where
  requests := by
    intro label
    simpa [RegistryOp.adds] using tallied.requests label
  responses := tallied.responses
  classed := by
    rw [tallied.classed]
    omega
  labelled := tallied.labelled
  count := by
    intro label
    rw [tallied.count, if_neg (fun both => by omega)]
    simp [RegistryOp.adds, eq_comm]
  falls := by
    intro label index isAdded
    have here := tallied.falls label index isAdded
    exact ⟨here.1, by omega, here.2.2⟩
  observed := fun _ => all

end Tallied

theorem Visit.Tallied.at' {visit : Visit} (tallied : visit.Tallied) {stage : Stage}
    (here : visit.stage = stage) :
    Gateway.Tallied visit.pfx stage.rank visit.statusKey visit.nanos visit.added := by
  rw [← here]
  exact tallied

private theorem tallied_step {visit : Visit} {op : RegistryOp} (tallied : visit.Tallied)
    (fit : visit.FitsOp op) (answer : RegistryAnswer op) :
    (visit.observe (.action (.registry op)) answer).Tallied := by
  cases op with
  | countersFor pfx =>
      have moved : Gateway.Tallied visit.pfx
          (if visit.stage = .sent then Stage.listed else visit.stage).rank visit.statusKey
          visit.nanos visit.added := by
        obtain ⟨-, waiting | ⟨sent, -⟩⟩ := fit
        · rw [waiting]
          exact (tallied.at' waiting).early (by decide) (by decide)
        · rw [sent]
          exact (tallied.at' sent).early (by decide) (by decide)
      exact moved
  | fetchAdd pfx counter =>
      obtain ⟨-, own⟩ := fit
      cases counter with
      | requests =>
          obtain ⟨listed, rfl⟩ := own rfl
          exact (tallied.at' listed).request
      | _ =>
          exact Tallied.aside tallied (fun _ => rfl) (fun _ => rfl) (fun _ => rfl) fun _ _ => rfl
  | countStatus key =>
      obtain ⟨-, counted, own⟩ := fit
      exact (tallied.at' counted).status own
  | elapsed started =>
      have moved : Gateway.Tallied visit.pfx visit.stage.rank visit.statusKey answer visit.added := by
        rw [show visit.stage = .classed from fit]
        exact (tallied.at' fit).measured answer
      exact moved
  | latencyFor pfx =>
      obtain ⟨-, classed, -⟩ := fit
      exact (tallied.at' classed).timed
  | addBucket pfx index =>
      obtain ⟨timed, rfl, untouched, falls⟩ := fit
      have moved : Gateway.Tallied visit.pfx visit.stage.rank visit.statusKey visit.nanos fun atomic =>
          visit.added atomic + RegistryOp.adds (.addBucket visit.pfx index) atomic := by
        rw [timed]
        exact (tallied.at' timed).bucket untouched falls
      exact moved
  | addCount pfx =>
      obtain ⟨timed, rfl, all⟩ := fit
      exact (tallied.at' timed).finished all
  | scaled nanos => exact tallied
  | addSum pfx nanos =>
      exact Tallied.aside tallied (fun _ => rfl) (fun _ => rfl) (fun _ => rfl) fun _ _ => rfl

/-- Whatever a thread does that fits, its account stays right. -/
theorem tallied_observe {visit : Visit} {access : Access} (tallied : visit.Tallied)
    (fit : visit.Fits access) (answer : Granted access) : (visit.observe access answer).Tallied := by
  cases access with
  | acquire lock => exact tallied
  | release lock => exact tallied
  | breakerState breaker => exact tallied
  | setBreakerState pfx state => exact tallied
  | render op =>
      cases op with
      | keys => exact tallied
      | load series => exact tallied
  | action action =>
      cases action with
      | redis op => exact tallied
      | handler op =>
          cases op with
          | instantNow =>
              have waiting : visit.stage.rank ≤ 2 := by
                rw [show visit.stage = .waiting from fit]
                exact Nat.zero_le 2
              exact tallied.early waiting (show Stage.sent.rank ≤ 2 by decide)
          | _ => exact tallied
      | registry op => exact tallied_step tallied fit.2 answer

/-! ### What a thread has entered -/

/-- The entries that a request of this stage has made are there. -/
structure Entered (registry : Registry) (pfx : Text) (rank : Nat) (opened statusKey : Option Text) :
    Prop where
  opened : ∀ label, opened = some label → label ∈ registry.perPrefix
  listed : 2 ≤ rank → pfx ∈ registry.perPrefix
  classed : ∀ key, statusKey = some key → key ∈ registry.statusTotals
  timed : 5 ≤ rank → pfx ∈ registry.latencies

def Visit.Entered (registry : Registry) (visit : Visit) : Prop :=
  Gateway.Entered registry visit.pfx visit.stage.rank visit.opened visit.statusKey

theorem entered_start (registry : Registry) (arrival : Arrival) :
    Visit.Entered registry { arrival := arrival } where
  opened := by simp
  listed := by simp [Stage.rank]
  classed := by simp
  timed := by simp [Stage.rank]

/-- No access takes an entry out. -/
theorem Entered.onRegistry {registry : Registry} {pfx : Text} {rank : Nat}
    {opened statusKey : Option Text} (entered : Entered registry pfx rank opened statusKey)
    (access : Access) : Entered (access.onRegistry registry) pfx rank opened statusKey := by
  cases access with
  | action action =>
      cases action with
      | registry op =>
          exact
            { opened := fun label same => Registry.mem_perPrefix_after (entered.opened label same) op
              listed := fun late => Registry.mem_perPrefix_after (entered.listed late) op
              classed := fun key same => mem_statusTotals_after (entered.classed key same) op
              timed := fun late => mem_latencies_after (entered.timed late) op }
      | _ => exact entered
  | setBreakerState pfx state => exact ⟨entered.opened, entered.listed, entered.classed, entered.timed⟩
  | _ => exact entered

/-- A request that is past its counters moves on. -/
theorem Visit.Entered.moved {registry : Registry} {visit : Visit} (entered : visit.Entered registry)
    {stage next : Stage} (here : visit.stage = stage) (past : 2 ≤ stage.rank)
    (timed : 5 ≤ next.rank → visit.pfx ∈ registry.latencies) :
    Gateway.Entered registry visit.pfx next.rank visit.opened visit.statusKey :=
  ⟨entered.opened, fun _ => entered.listed (here ▸ past), entered.classed, timed⟩

/-- What a step adds to is there. -/
theorem entered_fits {registry : Registry} {visit : Visit} {op : RegistryOp}
    (shaped : registry.Shaped) (entered : visit.Entered registry) (fit : visit.FitsOp op) :
    op.Entered registry := by
  have late : ∀ {stage : Stage}, visit.stage = stage → 5 ≤ stage.rank →
      visit.pfx ∈ registry.latencies := by
    intro stage here isLate
    apply entered.timed
    rw [here]
    exact isLate
  cases op with
  | fetchAdd pfx counter => exact entered.opened pfx fit.1
  | addBucket pfx index =>
      obtain ⟨timed, rfl, -, bound, found, -⟩ := fit
      refine ⟨late timed (by decide), ?_⟩
      rw [shaped]
      exact (List.getElem?_eq_some_iff.mp found).1
  | addCount pfx =>
      obtain ⟨timed, rfl, -⟩ := fit
      exact late timed (by decide)
  | addSum pfx nanos =>
      obtain ⟨observed, rfl⟩ := fit
      exact late observed (by decide)
  | _ => exact trivial

private theorem entered_step {registry : Registry} {visit : Visit} {op : RegistryOp}
    (entered : visit.Entered registry) (fit : visit.FitsOp op) (answer : RegistryAnswer op) :
    (visit.observe (.action (.registry op)) answer).Entered (registry.after op) := by
  have kept : visit.Entered (registry.after op) :=
    Entered.onRegistry entered (.action (.registry op))
  cases op with
  | countersFor pfx =>
      have here : pfx ∈ registry.perPrefix.insertIfNew pfx {} := by
        simp [Std.TreeMap.mem_insertIfNew]
      have opened : ∀ label, some pfx = some label → label ∈ registry.perPrefix.insertIfNew pfx {} := by
        intro label same
        cases same
        exact here
      have moved : Gateway.Entered (registry.after (.countersFor pfx)) visit.pfx
          (if visit.stage = .sent then Stage.listed else visit.stage).rank (some pfx)
          visit.statusKey := by
        obtain ⟨-, waiting | ⟨sent, rfl⟩⟩ := fit
        · rw [waiting]
          exact ⟨opened, fun late => absurd late (by decide), kept.classed,
            fun late => absurd late (by decide)⟩
        · rw [sent]
          exact ⟨opened, fun _ => here, kept.classed, fun late => absurd late (by decide)⟩
      exact moved
  | fetchAdd pfx counter =>
      cases counter with
      | requests =>
          have counted : Gateway.Entered (registry.after (.fetchAdd pfx .requests)) visit.pfx
              Stage.counted.rank visit.opened visit.statusKey :=
            kept.moved (fit.2 rfl).1 (by decide) fun late => absurd late (by decide)
          exact counted
      | rateLimited => exact kept
      | circuitOpen => exact kept
  | countStatus key =>
      have counted : Gateway.Entered (registry.after (.countStatus key)) visit.pfx Stage.classed.rank
          visit.opened visit.statusKey :=
        kept.moved fit.2.1 (by decide) fun late => absurd late (by decide)
      refine ⟨counted.opened, counted.listed, ?_, counted.timed⟩
      intro other same
      cases same
      exact Std.TreeMap.mem_insert_self
  | latencyFor pfx =>
      refine kept.moved fit.2.1 (by decide) fun _ => ?_
      rw [← fit.2.2]
      simp [Registry.after, Std.TreeMap.mem_insertIfNew]
  | addCount pfx =>
      have timed : 5 ≤ visit.stage.rank := by
        rw [fit.1]
        decide
      exact kept.moved fit.1 (by decide) fun _ => kept.timed timed
  | _ => exact kept

/-- Entries that a visit has made stay there while it moves on. -/
theorem entered_observe {registry : Registry} {visit : Visit} {access : Access}
    (entered : visit.Entered registry) (fit : visit.Fits access) (answer : Granted access) :
    (visit.observe access answer).Entered (access.onRegistry registry) := by
  cases access with
  | action action =>
      cases action with
      | registry op => exact entered_step entered fit.2 answer
      | redis op => exact entered
      | handler op =>
          cases op with
          | instantNow =>
              exact ⟨entered.opened, fun late => absurd late (show ¬ 2 ≤ Stage.sent.rank by decide),
                entered.classed, fun late => absurd late (show ¬ 5 ≤ Stage.sent.rank by decide)⟩
          | _ => exact entered
  | setBreakerState pfx state => exact Entered.onRegistry entered (.setBreakerState pfx state)
  | render op => cases op <;> exact entered
  | _ => exact entered

/-! ### What an access leaves in the registry -/

theorem shaped_onRegistry {registry : Registry} (shaped : registry.Shaped) (access : Access) :
    (access.onRegistry registry).Shaped := by
  cases access with
  | action action =>
      cases action with
      | registry op => exact shaped_after shaped op
      | _ => exact shaped
  | _ => exact shaped

/-- An access of a visit adds to the registry exactly what the visit notes. -/
theorem value_onRegistry {registry : Registry} {visit : Visit} {access : Access}
    (shaped : registry.Shaped) (entered : visit.Entered registry) (fit : visit.Fits access)
    (atomic : Atomic) :
    (access.onRegistry registry).value atomic = registry.value atomic + access.adds atomic := by
  cases access with
  | action action =>
      cases action with
      | registry op => exact value_after (entered_fits shaped entered fit.2) atomic
      | _ => rfl
  | _ => rfl

end Ratewall.Gateway
