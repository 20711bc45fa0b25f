import Mathlib.Data.List.Basic

/-! Owns finite runs of a partial step function: `run` itself, the side
condition `Meets` that every step of a run satisfies, the induction rules that
carry an invariant along a run, and what allowed events can lead to. It does not
own any concrete machine. -/

namespace Ratewall.Foundation

universe u v

variable {σ : Type u} {ε : Type v}

/-- The state after the events of a list, in order. `none` when some event is
not possible in the state that it meets. -/
def run (step : σ → ε → Option σ) : σ → List ε → Option σ
  | state, [] => some state
  | state, event :: rest => (step state event).bind fun after => run step after rest

/-- Every step of the run satisfies `condition` in the state before it. -/
def Meets (step : σ → ε → Option σ) (condition : σ → ε → Prop) : σ → List ε → Prop
  | _, [] => True
  | state, event :: rest =>
      condition state event ∧
        match step state event with
        | none => True
        | some after => Meets step condition after rest

def decidableMeets (step : σ → ε → Option σ) (condition : σ → ε → Prop)
    [∀ state event, Decidable (condition state event)] :
    (state : σ) → (events : List ε) → Decidable (Meets step condition state events)
  | _, [] => isTrue trivial
  | state, event :: rest =>
      have : Decidable (match step state event with
          | none => True
          | some after => Meets step condition after rest) :=
        match step state event with
        | none => isTrue trivial
        | some after => decidableMeets step condition after rest
      inferInstanceAs (Decidable (_ ∧ _))

instance (step : σ → ε → Option σ) (condition : σ → ε → Prop)
    [∀ state event, Decidable (condition state event)] (state : σ) (events : List ε) :
    Decidable (Meets step condition state events) :=
  decidableMeets step condition state events

variable {step : σ → ε → Option σ} {condition : σ → ε → Prop}

@[simp] theorem run_nil (state : σ) : run step state [] = some state := rfl

theorem run_cons_iff {state final : σ} {event : ε} {rest : List ε} :
    run step state (event :: rest) = some final ↔
      ∃ after, step state event = some after ∧ run step after rest = some final := by
  simp only [run, Option.bind_eq_some_iff]

theorem run_append_iff {state final : σ} {first second : List ε} :
    run step state (first ++ second) = some final ↔
      ∃ middle, run step state first = some middle ∧ run step middle second = some final := by
  induction first generalizing state with
  | nil => simp
  | cons event rest inductionHypothesis =>
      simp only [List.cons_append, run_cons_iff, inductionHypothesis]
      constructor
      · rintro ⟨after, stepped, middle, left, right⟩
        exact ⟨middle, ⟨after, stepped, left⟩, right⟩
      · rintro ⟨middle, ⟨after, stepped, left⟩, right⟩
        exact ⟨after, stepped, middle, left, right⟩

theorem run_snoc_iff {state final : σ} {events : List ε} {event : ε} :
    run step state (events ++ [event]) = some final ↔
      ∃ before, run step state events = some before ∧ step before event = some final := by
  simp [run_append_iff, run_cons_iff]

/-- A machine that is never stuck runs to the end of every list. -/
theorem exists_run_of_total (total : ∀ state event, ∃ after, step state event = some after)
    (start : σ) (events : List ε) : ∃ final, run step start events = some final := by
  induction events generalizing start with
  | nil => exact ⟨start, rfl⟩
  | cons event rest inductionHypothesis =>
      obtain ⟨after, stepped⟩ := total start event
      obtain ⟨final, ran⟩ := inductionHypothesis after
      exact ⟨final, run_cons_iff.mpr ⟨after, stepped, ran⟩⟩

theorem Meets.tail {state after : σ} {event : ε} {rest : List ε}
    (meets : Meets step condition state (event :: rest)) (stepped : step state event = some after) :
    Meets step condition after rest := by
  have later := meets.2
  rw [stepped] at later
  exact later

/-- The condition holds along two runs in a row if it holds along the first, and along
the second from wherever the first ends. -/
theorem Meets.append {state : σ} {first second : List ε}
    (meets : Meets step condition state first)
    (later : ∀ middle, run step state first = some middle → Meets step condition middle second) :
    Meets step condition state (first ++ second) := by
  induction first generalizing state with
  | nil => exact later state rfl
  | cons event rest inductionHypothesis =>
      refine ⟨meets.1, ?_⟩
      cases stepped : step state event with
      | none => exact trivial
      | some after =>
          refine inductionHypothesis (meets.tail stepped) ?_
          intro middle ran
          exact later middle (run_cons_iff.mpr ⟨after, stepped, ran⟩)

/-- An invariant that every step of a run keeps, given the side condition of
that step, holds at the end of the run. -/
theorem run_invariant_of_meets {invariant : σ → Prop}
    (preserved : ∀ {before event after}, invariant before → condition before event →
      step before event = some after → invariant after)
    {start final : σ} {events : List ε} (initially : invariant start)
    (meets : Meets step condition start events)
    (ran : run step start events = some final) : invariant final := by
  induction events generalizing start with
  | nil =>
      have same : start = final := by simpa using ran
      exact same ▸ initially
  | cons event rest inductionHypothesis =>
      obtain ⟨after, stepped, tail⟩ := run_cons_iff.mp ran
      have kept : invariant after := preserved initially meets.1 stepped
      exact inductionHypothesis kept (meets.tail stepped) tail

/-- What the invariant and the side condition say about single steps holds of
every step of the run. -/
theorem meets_of_invariant {invariant : σ → Prop} {conclusion : σ → ε → Prop}
    (preserved : ∀ {before event after}, invariant before → condition before event →
      step before event = some after → invariant after)
    (concludes : ∀ {before event}, invariant before → condition before event →
      conclusion before event)
    {start : σ} {events : List ε} (initially : invariant start)
    (meets : Meets step condition start events) : Meets step conclusion start events := by
  induction events generalizing start with
  | nil => exact trivial
  | cons event rest inductionHypothesis =>
      refine ⟨concludes initially meets.1, ?_⟩
      split
      next => exact trivial
      next after stepped =>
        have kept : invariant after := preserved initially meets.1 stepped
        exact inductionHypothesis kept (meets.tail stepped)

/-- A side condition that no state can break. -/
theorem meets_of_all (holds : ∀ state event, condition state event) (start : σ) (events : List ε) :
    Meets step condition start events := by
  induction events generalizing start with
  | nil => exact trivial
  | cons event rest inductionHypothesis =>
      refine ⟨holds start event, ?_⟩
      split
      next => exact trivial
      next after stepped => exact inductionHypothesis after

/-- A side condition on the events alone. -/
theorem meets_of_forall {condition : ε → Prop} {events : List ε}
    (holds : ∀ event ∈ events, condition event) (start : σ) :
    Meets step (fun _ event => condition event) start events := by
  induction events generalizing start with
  | nil => exact trivial
  | cons event rest inductionHypothesis =>
      refine ⟨holds event List.mem_cons_self, ?_⟩
      split
      next => exact trivial
      next after stepped =>
        exact inductionHypothesis (fun later member => holds later (List.mem_cons_of_mem _ member))
          after

/-- The rule without a side condition. -/
theorem run_invariant {invariant : σ → Prop}
    (preserved : ∀ {before event after}, invariant before → step before event = some after →
      invariant after)
    {start final : σ} {events : List ε} (initially : invariant start)
    (ran : run step start events = some final) : invariant final := by
  have meets : Meets step (fun _ _ => True) start events :=
    meets_of_forall (fun _ _ => trivial) start
  apply run_invariant_of_meets _ initially meets ran
  intro before event after holds _ stepped
  exact preserved holds stepped

/-- A property that a step keeps exactly under a side condition, and never regains,
holds at the end exactly when every step met the condition. -/
theorem holds_iff_meets {invariant property : σ → Prop}
    (preserved : ∀ {before event after}, invariant before → step before event = some after →
      invariant after)
    (stepwise : ∀ {before event after}, invariant before → step before event = some after →
      (property after ↔ property before ∧ condition before event))
    {start final : σ} {events : List ε} (initially : invariant start)
    (ran : run step start events = some final) :
    property final ↔ property start ∧ Meets step condition start events := by
  induction events generalizing start with
  | nil =>
      have same : start = final := by simpa using ran
      simp [same, Meets]
  | cons event rest inductionHypothesis =>
      obtain ⟨after, stepped, tail⟩ := run_cons_iff.mp ran
      rw [inductionHypothesis (preserved initially stepped) tail, stepwise initially stepped, Meets,
        stepped, and_assoc]

/-- Refinement: when every step shows, through `view`, as a run of the other
machine, so does every run. -/
theorem run_refines {σ' : Type*} {ε' : Type*} {step' : σ' → ε' → Option σ'} {view : σ → σ'}
    {invariant : σ → Prop}
    (preserved : ∀ {before event after}, invariant before → step before event = some after →
      invariant after)
    (simulates : ∀ {before event after}, invariant before → step before event = some after →
      ∃ shown, run step' (view before) shown = some (view after))
    {start final : σ} {events : List ε} (initially : invariant start)
    (ran : run step start events = some final) :
    ∃ shown, run step' (view start) shown = some (view final) := by
  induction events generalizing start with
  | nil =>
      have same : start = final := by simpa using ran
      exact ⟨[], congrArg (fun state => some (view state)) same⟩
  | cons event rest inductionHypothesis =>
      obtain ⟨after, stepped, tail⟩ := run_cons_iff.mp ran
      obtain ⟨first, shownFirst⟩ := simulates initially stepped
      obtain ⟨later, shownLater⟩ := inductionHypothesis (preserved initially stepped) tail
      exact ⟨first ++ later, run_append_iff.mpr ⟨view after, shownFirst, shownLater⟩⟩

/-! ### Continuations -/

/-- Some run of allowed events leads from the one state to the other. -/
def Leads (step : σ → ε → Option σ) (allowed : ε → Prop) (start final : σ) : Prop :=
  ∃ events, (∀ event ∈ events, allowed event) ∧ run step start events = some final

section

variable {allowed : ε → Prop} {start middle final : σ}

theorem Leads.refl (state : σ) : Leads step allowed state state := ⟨[], by simp, rfl⟩

theorem Leads.trans (first : Leads step allowed start middle)
    (second : Leads step allowed middle final) : Leads step allowed start final := by
  obtain ⟨left, allowedLeft, ranLeft⟩ := first
  obtain ⟨right, allowedRight, ranRight⟩ := second
  refine ⟨left ++ right, ?_, run_append_iff.mpr ⟨middle, ranLeft, ranRight⟩⟩
  intro event member
  rcases List.mem_append.mp member with member | member
  · exact allowedLeft event member
  · exact allowedRight event member

theorem Leads.single {event : ε} (isAllowed : allowed event)
    (stepped : step start event = some final) : Leads step allowed start final :=
  ⟨[event], by simpa using isAllowed, by simpa [run] using stepped⟩

/-- When every item can be settled from every state of the invariant, without
unsettling another, a list of items can be settled one after the other. -/
theorem Leads.sweep {ι : Type*} {invariant : σ → Prop} {settled : σ → ι → Prop}
    (settle : ∀ state item, invariant state → ∃ after, Leads step allowed state after ∧
      invariant after ∧ settled after item ∧ ∀ other, settled state other → settled after other)
    (items : List ι) (initially : invariant start) :
    ∃ after, Leads step allowed start after ∧ invariant after ∧
      (∀ item ∈ items, settled after item) ∧ ∀ other, settled start other → settled after other := by
  induction items generalizing start with
  | nil => exact ⟨start, Leads.refl start, initially, by simp, fun _ held => held⟩
  | cons item rest inductionHypothesis =>
      obtain ⟨middle, first, holds, done, kept⟩ := settle start item initially
      obtain ⟨after, second, finally', all, keptLater⟩ := inductionHypothesis holds
      refine ⟨after, first.trans second, finally', ?_,
        fun other held => keptLater other (kept other held)⟩
      intro found member
      rcases List.mem_cons.mp member with rfl | member
      · exact keptLater _ done
      · exact all found member

end

end Ratewall.Foundation
