import Ratewall.Foundation.Transition

/-! Owns what a run leaves behind: the `trail` of what its steps show, the rule
that carries a relation between the state and the trail so far along a run, the
balance of what two trails of a run count, and
shared state that consists of independent cells. Of such a state, what was
answered at one cell and what the cell holds in the end are what a `replay` of
the calls to that cell alone gives. It does not own any concrete machine. -/

namespace Ratewall.Foundation

universe u v

variable {σ : Type u} {ε : Type v} {β : Type*}

/-- What the steps of a run show, in order. -/
def trail (step : σ → ε → Option σ) (seen : σ → ε → List β) : σ → List ε → List β
  | _, [] => []
  | state, event :: rest =>
      seen state event ++ (step state event).elim [] fun after => trail step seen after rest

section

variable {step : σ → ε → Option σ} {condition : σ → ε → Prop} {seen : σ → ε → List β}

@[simp] theorem trail_nil (state : σ) : trail step seen state [] = [] := rfl

theorem trail_cons {state after : σ} {event : ε} (stepped : step state event = some after)
    (rest : List ε) :
    trail step seen state (event :: rest) = seen state event ++ trail step seen after rest := by
  simp [trail, stepped]

/-- The trail of two runs in a row is the one and then the other. -/
theorem trail_append {state middle : σ} {first second : List ε}
    (ran : run step state first = some middle) :
    trail step seen state (first ++ second) =
      trail step seen state first ++ trail step seen middle second := by
  induction first generalizing state with
  | nil =>
      obtain rfl : state = middle := by simpa using ran
      rfl
  | cons event rest inductionHypothesis =>
      obtain ⟨after, stepped, tail⟩ := run_cons_iff.mp ran
      rw [List.cons_append, trail_cons stepped, trail_cons stepped, inductionHypothesis tail,
        List.append_assoc]

/-- A relation between the state and what was shown so far, kept by every step,
relates the end of the run to its trail. -/
theorem trail_invariant_of_meets (relation : σ → List β → Prop)
    (preserved : ∀ {before event after shown}, relation before shown → condition before event →
      step before event = some after → relation after (shown ++ seen before event))
    {start final : σ} {events : List ε} {shown : List β} (initially : relation start shown)
    (meets : Meets step condition start events) (ran : run step start events = some final) :
    relation final (shown ++ trail step seen start events) := by
  induction events generalizing start shown with
  | nil =>
      have same : start = final := by simpa using ran
      rw [trail_nil, List.append_nil]
      exact same ▸ initially
  | cons event rest inductionHypothesis =>
      obtain ⟨after, stepped, tail⟩ := run_cons_iff.mp ran
      have kept : relation after (shown ++ seen start event) := preserved initially meets.1 stepped
      rw [trail_cons stepped, ← List.append_assoc]
      exact inductionHypothesis kept (meets.tail stepped) tail

/-- The rule without a side condition. -/
theorem trail_invariant (relation : σ → List β → Prop)
    (preserved : ∀ {before event after shown}, relation before shown →
      step before event = some after → relation after (shown ++ seen before event))
    {start final : σ} {events : List ε} (initially : relation start [])
    (ran : run step start events = some final) :
    relation final (trail step seen start events) := by
  have meets : Meets step (fun _ _ => True) start events :=
    meets_of_forall (fun _ _ => trivial) start
  have related := trail_invariant_of_meets relation
    (fun holds _ stepped => preserved holds stepped) initially meets ran
  simpa using related

end

/-- What a run spends stays within what it earns and what it had, if this is so of every
step. -/
theorem trail_balance {γ : Type*} {other : σ → ε → List γ} (spends : β → Bool)
    (earns : γ → Bool) (fund : σ → Nat) {invariant : σ → Prop}
    (preserved : ∀ {before event after}, invariant before → step before event = some after →
      invariant after)
    (balanced : ∀ {before event after}, invariant before → step before event = some after →
      fund after + (seen before event).countP spends ≤
        fund before + (other before event).countP earns)
    {start final : σ} {events : List ε} (initially : invariant start)
    (ran : run step start events = some final) :
    fund final + (trail step seen start events).countP spends ≤
      fund start + (trail step other start events).countP earns := by
  induction events generalizing start with
  | nil =>
      have same : start = final := by simpa using ran
      rw [same]
      exact Nat.le_refl _
  | cons event rest inductionHypothesis =>
      obtain ⟨after, stepped, tail⟩ := run_cons_iff.mp ran
      have here := balanced initially stepped
      have later := inductionHypothesis (preserved initially stepped) tail
      rw [trail_cons stepped, trail_cons stepped, List.countP_append, List.countP_append]
      omega

/-! ### State made of cells -/

/-- One call to one cell, as a step shows it. -/
structure Access (κ ι ω : Type*) where
  cell : κ
  input : ι
  answer : ω
deriving DecidableEq, Repr

section

variable {κ ι ω γ : Type*}

/-- The calls to one cell, each with its answer. -/
def historyOf [DecidableEq κ] (accesses : List (Access κ ι ω)) (cell : κ) : List (ι × ω) :=
  (accesses.filter fun access => access.cell = cell).map fun access => (access.input, access.answer)

/-- What is answered to a list of calls, from a given content on. -/
def replies (apply : ι → γ → ω × γ) : γ → List ι → List (ι × ω)
  | _, [] => []
  | content, input :: rest =>
      (input, (apply input content).1) :: replies apply (apply input content).2 rest

/-- What a list of calls leaves in the cell. -/
def settle (apply : ι → γ → ω × γ) (content : γ) (inputs : List ι) : γ :=
  inputs.foldl (fun content input => (apply input content).2) content

variable {apply : ι → γ → ω × γ}

theorem replies_append (content : γ) (first second : List ι) :
    replies apply content (first ++ second) =
      replies apply content first ++ replies apply (settle apply content first) second := by
  induction first generalizing content with
  | nil => rfl
  | cons input rest inductionHypothesis =>
      simp only [List.cons_append, replies, inductionHypothesis]
      rfl

theorem settle_append (content : γ) (first second : List ι) :
    settle apply content (first ++ second) = settle apply (settle apply content first) second :=
  List.foldl_append

theorem replies_map_fst (content : γ) (inputs : List ι) :
    (replies apply content inputs).map Prod.fst = inputs := by
  induction inputs generalizing content with
  | nil => rfl
  | cons input rest inductionHypothesis =>
      rw [replies, List.map_cons, inductionHypothesis]

/-- What stands in a replayed history was answered from what the calls before it had
left. -/
theorem answer_of_replayed {content : γ} {earlier later : List (ι × ω)} {entry : ι × ω}
    (replayed : earlier ++ entry :: later =
      replies apply content ((earlier ++ entry :: later).map Prod.fst)) :
    entry.2 = (apply entry.1 (settle apply content (earlier.map Prod.fst))).1 := by
  rw [List.map_append, replies_append] at replayed
  have sameLength : earlier.length = (replies apply content (earlier.map Prod.fst)).length := by
    have lengths := congrArg List.length (@replies_map_fst _ _ _ apply content
      (earlier.map Prod.fst))
    simpa using lengths.symm
  obtain ⟨-, rest⟩ := List.append_inj replayed sameLength
  rw [List.map_cons, replies] at rest
  injection rest with head _
  rw [head]

/-- What holds at every position of a list holds at its head and at every position
of its tail. -/
theorem forall_split_cons {first : ι} {rest : List ι} {property : List ι → ι → Prop} :
    (∀ earlier input later, first :: rest = earlier ++ input :: later → property earlier input) ↔
      property [] first ∧
        ∀ earlier input later, rest = earlier ++ input :: later → property (first :: earlier) input := by
  constructor
  · intro all
    refine ⟨all [] first rest rfl, ?_⟩
    intro earlier input later split
    exact all (first :: earlier) input later (by rw [split, List.cons_append])
  · rintro ⟨head, tail⟩ earlier input later split
    cases earlier with
    | nil =>
        injection split with same _
        exact same ▸ head
    | cons other earlier =>
        injection split with same split
        exact same ▸ tail earlier input later split

/-- Leaving out some calls shows in the answers to the watched ones exactly where
one of these is answered differently without the calls left out before it. -/
theorem replies_filter_eq_iff {δ : Type*} {keep watched : ι → Bool}
    (kept : ∀ input, watched input = true → keep input = true) (view : ω → δ) {content content' : γ}
    {inputs : List ι} :
    ((replies apply content inputs).filter fun entry => watched entry.1).map
          (fun entry => (entry.1, view entry.2)) =
        ((replies apply content' (inputs.filter keep)).filter fun entry => watched entry.1).map
          (fun entry => (entry.1, view entry.2)) ↔
      ∀ earlier input later, inputs = earlier ++ input :: later → watched input = true →
        view (apply input (settle apply content earlier)).1 =
          view (apply input (settle apply content' (earlier.filter keep))).1 := by
  induction inputs generalizing content content' with
  | nil => simp [replies]
  | cons first rest inductionHypothesis =>
      rw [forall_split_cons]
      cases keeps : keep first with
      | false =>
          have unwatched : watched first = false := by
            cases watches : watched first with
            | false => rfl
            | true => simp [kept first watches] at keeps
          have tail := @inductionHypothesis (apply first content).2 content'
          simpa [replies, keeps, unwatched, settle] using tail
      | true =>
          have tail := @inductionHypothesis (apply first content).2 (apply first content').2
          cases watches : watched first with
          | false => simpa [replies, keeps, watches, settle] using tail
          | true =>
              simp only [List.filter_cons, keeps, watches, if_true, replies, List.map_cons,
                List.cons.injEq, Prod.mk.injEq, true_and, true_implies, tail]
              exact Iff.rfl

/-- One step and what it shows: the cells that it does not call stay, and the one
that it calls answers and changes as `apply` does. -/
structure Accesses (apply : ι → γ → ω × γ) (read : σ → κ → γ) (before after : σ)
    (shown : Option (Access κ ι ω)) : Prop where
  called : ∀ access, shown = some access →
    apply access.input (read before access.cell) = (access.answer, read after access.cell)
  others : ∀ cell, (∀ access, shown = some access → access.cell ≠ cell) →
    read after cell = read before cell

variable [DecidableEq κ] {step : σ → ε → Option σ} {read : σ → κ → γ}
  {seen : σ → ε → Option (Access κ ι ω)} {invariant : σ → Prop}

theorem historyOf_append (first second : List (Access κ ι ω)) (cell : κ) :
    historyOf (first ++ second) cell = historyOf first cell ++ historyOf second cell := by
  simp [historyOf]

/-- What was answered at one cell, and what it holds in the end, is a function of
the calls to that cell. -/
theorem history_eq_replay
    (preserved : ∀ {before event after}, invariant before → step before event = some after →
      invariant after)
    (accesses : ∀ {before event after}, invariant before → step before event = some after →
      Accesses apply read before after (seen before event))
    {start final : σ} {events : List ε} (initially : invariant start)
    (ran : run step start events = some final) (cell : κ) :
    let history := historyOf (trail step (fun state event => (seen state event).toList) start events)
      cell
    history = replies apply (read start cell) (history.map Prod.fst) ∧
      read final cell = settle apply (read start cell) (history.map Prod.fst) := by
  apply And.right
  apply trail_invariant (fun state shown => invariant state ∧
    historyOf shown cell =
      replies apply (read start cell) ((historyOf shown cell).map Prod.fst) ∧
    read state cell = settle apply (read start cell) ((historyOf shown cell).map Prod.fst))
    _ ⟨initially, rfl, rfl⟩ ran
  intro before event after shown related stepped
  obtain ⟨holds, replied, held⟩ := related
  have effect := accesses holds stepped
  refine ⟨preserved holds stepped, ?_⟩
  rw [historyOf_append, List.map_append, replies_append, settle_append, ← replied, ← held]
  cases found : seen before event with
  | none =>
      have same := effect.others cell (by simp [found])
      simpa [historyOf, replies, settle] using same
  | some access =>
      by_cases here : access.cell = cell
      · subst here
        have answered := effect.called access found
        simp [historyOf, replies, settle, answered]
      · have same := effect.others cell (by
          intro other isOther
          rw [found] at isOther
          exact Option.some.inj isOther ▸ here)
        simpa [historyOf, replies, settle, here] using same

end

end Ratewall.Foundation
