import Mathlib.Logic.Basic

/-! Owns sequential programs that talk to their surroundings: a program is a tree
of calls, each with one branch for every answer. `execute` runs one alone on a
state; `Returns` says which calls and answers lead to which result, `Follows` how far
a program has come; `expand` puts programs in the place of calls; `All`, `Inevitable`,
`Reaches` and `Always` are what holds of every call, of some call on every path, at
some point and at every point; `Conforms` is the triple of a phase, a program and
what the program ensures. It does not own a scheduler. -/

namespace Ratewall.Foundation

inductive Program (Op : Type) (Answer : Op → Type) (α : Type) where
  | done (result : α)
  | call (op : Op) (next : Answer op → Program Op Answer α)

namespace Program

variable {Op : Type} {Answer : Op → Type} {α β : Type}

def bind : Program Op Answer α → (α → Program Op Answer β) → Program Op Answer β
  | .done result, next => next result
  | .call op rest, next => .call op fun answer => bind (rest answer) next

instance : Monad (Program Op Answer) where
  pure := .done
  bind := bind

def perform (op : Op) : Program Op Answer (Answer op) := .call op .done

@[simp] theorem pure_eq_done (result : α) : (pure result : Program Op Answer α) = .done result := rfl

@[simp] theorem done_bind (result : α) (next : α → Program Op Answer β) :
    ((.done result : Program Op Answer α) >>= next) = next result := rfl

@[simp] theorem call_bind (op : Op) (rest : Answer op → Program Op Answer α)
    (next : α → Program Op Answer β) :
    ((.call op rest : Program Op Answer α) >>= next) = .call op fun answer => rest answer >>= next :=
  rfl

@[simp] theorem perform_bind (op : Op) (next : Answer op → Program Op Answer β) :
    ((perform op : Program Op Answer (Answer op)) >>= next) = .call op next := rfl

/-- One run of a program, alone with a state that answers its calls. -/
def execute {σ : Type} (act : σ → (op : Op) → Answer op × σ) : σ → Program Op Answer α → α × σ
  | state, .done result => (result, state)
  | state, .call op next => execute act (act state op).2 (next (act state op).1)

theorem execute_bind {σ : Type} {act : σ → (op : Op) → Answer op × σ} {state : σ}
    {program : Program Op Answer α} {next : α → Program Op Answer β} :
    execute act state (program >>= next) =
      execute act (execute act state program).2 (next (execute act state program).1) := by
  induction program generalizing state with
  | done found => rfl
  | call op rest inductionHypothesis => exact inductionHypothesis (act state op).1

/-- The result of a program that has no call left. -/
def result : Program Op Answer α → Option α
  | .done found => some found
  | .call _ _ => none

/-- The program makes the calls of the trace, gets the answers of the trace, and
ends with the result. -/
def Returns : Program Op Answer α → List (Sigma Answer) → α → Prop
  | .done found, trace, result => trace = [] ∧ found = result
  | .call op next, trace, result =>
      ∃ answer rest, trace = ⟨op, answer⟩ :: rest ∧ Returns (next answer) rest result

@[simp] theorem returns_done {found result : α} {trace : List (Sigma Answer)} :
    Returns (.done found) trace result ↔ trace = [] ∧ found = result := Iff.rfl

@[simp] theorem returns_call {op : Op} {next : Answer op → Program Op Answer α} {result : α}
    {trace : List (Sigma Answer)} :
    Returns (.call op next) trace result ↔
      ∃ answer rest, trace = ⟨op, answer⟩ :: rest ∧ Returns (next answer) rest result := Iff.rfl

/-- A trace of a program and what follows it falls into two. -/
theorem returns_bind_iff {program : Program Op Answer α} {next : α → Program Op Answer β}
    {trace : List (Sigma Answer)} {result : β} :
    Returns (program >>= next) trace result ↔
      ∃ first second found, trace = first ++ second ∧ Returns program first found ∧
        Returns (next found) second result := by
  induction program generalizing trace with
  | done found =>
      constructor
      · intro returns
        exact ⟨[], trace, found, rfl, ⟨rfl, rfl⟩, returns⟩
      · rintro ⟨first, second, found', rfl, ⟨rfl, rfl⟩, returns⟩
        exact returns
  | call op rest inductionHypothesis =>
      rw [call_bind, returns_call]
      constructor
      · rintro ⟨answer, later, rfl, returns⟩
        obtain ⟨first, second, found, rfl, left, right⟩ := (inductionHypothesis answer).mp returns
        exact ⟨⟨op, answer⟩ :: first, second, found, rfl, ⟨answer, first, rfl, left⟩, right⟩
      · rintro ⟨first, second, found, rfl, ⟨answer, later, rfl, left⟩, right⟩
        exact ⟨answer, later ++ second, rfl,
          (inductionHypothesis answer).mpr ⟨later, second, found, rfl, left, right⟩⟩

theorem returns_perform_iff {op : Op} {trace : List (Sigma Answer)} {answer : Answer op} :
    Returns (perform op) trace answer ↔ trace = [⟨op, answer⟩] := by
  constructor
  · rintro ⟨answer', rest, rfl, rfl, rfl⟩
    rfl
  · rintro rfl
    exact ⟨answer, [], rfl, rfl, rfl⟩

/-- The program has made the calls of the trace and has the rest before it. -/
def Follows : Program Op Answer α → List (Sigma Answer) → Program Op Answer α → Prop
  | program, [], rest => program = rest
  | program, made :: later, rest =>
      ∃ next, program = .call made.1 next ∧ Follows (next made.2) later rest

theorem follows_done_iff {found : α} {trace : List (Sigma Answer)} {rest : Program Op Answer α} :
    Follows (.done found) trace rest ↔ trace = [] ∧ rest = .done found := by
  cases trace with
  | nil => exact ⟨fun same => ⟨rfl, same.symm⟩, fun same => same.2.symm⟩
  | cons made later =>
      constructor
      · rintro ⟨next, same, -⟩
        cases same
      · rintro ⟨same, -⟩
        cases same

/-- A program either still stands at its call or has been answered. -/
theorem follows_call_iff {op : Op} {next : Answer op → Program Op Answer α}
    {trace : List (Sigma Answer)} {rest : Program Op Answer α} :
    Follows (.call op next) trace rest ↔
      (trace = [] ∧ rest = .call op next) ∨
        ∃ answer later, trace = ⟨op, answer⟩ :: later ∧ Follows (next answer) later rest := by
  cases trace with
  | nil =>
      constructor
      · intro same
        exact Or.inl ⟨rfl, same.symm⟩
      · rintro (⟨-, same⟩ | ⟨answer, later, same, -⟩)
        · exact same.symm
        · cases same
  | cons made later =>
      constructor
      · rintro ⟨next', same, follows⟩
        obtain ⟨op', answer⟩ := made
        cases same
        exact Or.inr ⟨answer, later, rfl, follows⟩
      · rintro (⟨same, -⟩ | ⟨answer, later', same, follows⟩)
        · cases same
        · cases same
          exact ⟨next, rfl, follows⟩

/-- To return is to be followed to a result. -/
theorem returns_iff_follows {program : Program Op Answer α} {trace : List (Sigma Answer)}
    {found : α} : Returns program trace found ↔ Follows program trace (.done found) := by
  induction program generalizing trace with
  | done result =>
      rw [follows_done_iff, returns_done]
      constructor
      · rintro ⟨rfl, rfl⟩
        exact ⟨rfl, rfl⟩
      · rintro ⟨rfl, same⟩
        injection same with same
        exact ⟨rfl, same.symm⟩
  | call op next inductionHypothesis =>
      rw [follows_call_iff, returns_call]
      constructor
      · rintro ⟨answer, later, rfl, returns⟩
        exact Or.inr ⟨answer, later, rfl, (inductionHypothesis answer).mp returns⟩
      · rintro (⟨-, same⟩ | ⟨answer, later, rfl, follows⟩)
        · cases same
        · exact ⟨answer, later, rfl, (inductionHypothesis answer).mpr follows⟩

/-- Every call that the program can make has the property. -/
def All (property : Op → Prop) : Program Op Answer α → Prop
  | .done _ => True
  | .call op next => property op ∧ ∀ answer, All property (next answer)

theorem All.bind {property : Op → Prop} {program : Program Op Answer α}
    {next : α → Program Op Answer β} (first : All property program)
    (rest : ∀ found, All property (next found)) : All property (program >>= next) := by
  induction program with
  | done found => exact rest found
  | call op later inductionHypothesis =>
      exact ⟨first.1, fun answer => inductionHypothesis answer (first.2 answer)⟩

theorem All.mono {weak strong : Op → Prop} (implies : ∀ op, strong op → weak op)
    {program : Program Op Answer α} (all : All strong program) : All weak program := by
  induction program with
  | done found => exact trivial
  | call op later inductionHypothesis =>
      exact ⟨implies op all.1, fun answer => inductionHypothesis answer (all.2 answer)⟩

theorem All.of_forall {property : Op → Prop} (holds : ∀ op, property op)
    (program : Program Op Answer α) : All property program := by
  induction program with
  | done found => exact trivial
  | call op later inductionHypothesis => exact ⟨holds op, inductionHypothesis⟩

/-- What every call of the program keeps, a run of it keeps. -/
theorem All.execute_invariant {σ : Type} {property : Op → Prop}
    {act : σ → (op : Op) → Answer op × σ} {kept : σ → Prop}
    (preserved : ∀ state op, property op → kept state → kept (act state op).2)
    {program : Program Op Answer α} (all : All property program) {state : σ}
    (initially : kept state) : kept (execute act state program).2 := by
  induction program generalizing state with
  | done found => exact initially
  | call op rest inductionHypothesis =>
      exact inductionHypothesis (act state op).1 (all.2 _) (preserved state op all.1 initially)

/-- A property of all calls holds of every call in a trace. -/
theorem All.of_follows {property : Op → Prop} {program rest : Program Op Answer α}
    (all : All property program) {trace : List (Sigma Answer)}
    (follows : Follows program trace rest) : ∀ made ∈ trace, property made.1 := by
  induction program generalizing trace with
  | done result =>
      obtain ⟨rfl, -⟩ := follows_done_iff.mp follows
      simp
  | call op next inductionHypothesis =>
      rcases follows_call_iff.mp follows with ⟨rfl, -⟩ | ⟨answer, later, rfl, continues⟩
      · simp
      · intro made member
        rcases List.mem_cons.mp member with rfl | member
        · exact all.1
        · exact inductionHypothesis answer (all.2 answer) continues made member

theorem bind_assoc {γ : Type} (program : Program Op Answer α) (second : α → Program Op Answer β)
    (third : β → Program Op Answer γ) :
    (program >>= second) >>= third = program >>= fun found => second found >>= third := by
  induction program with
  | done found => rfl
  | call op rest inductionHypothesis =>
      rw [call_bind, call_bind, call_bind]
      congr 1
      funext answer
      exact inductionHypothesis answer

theorem bind_done (program : Program Op Answer α) : program >>= .done = program := by
  induction program with
  | done found => rfl
  | call op rest inductionHypothesis =>
      rw [call_bind]
      congr 1
      funext answer
      exact inductionHypothesis answer

/-- The same program with every call replaced by what it stands for. -/
def expand {Op' : Type} {Answer' : Op' → Type}
    (meaning : (op : Op) → Program Op' Answer' (Answer op)) :
    Program Op Answer α → Program Op' Answer' α
  | .done found => .done found
  | .call op next => meaning op >>= fun answer => expand meaning (next answer)

section

variable {Op' : Type} {Answer' : Op' → Type} {meaning : (op : Op) → Program Op' Answer' (Answer op)}

theorem expand_perform (op : Op) : expand meaning (perform op) = meaning op := bind_done (meaning op)

theorem expand_bind (program : Program Op Answer α) (next : α → Program Op Answer β) :
    expand meaning (program >>= next) =
      expand meaning program >>= fun found => expand meaning (next found) := by
  induction program with
  | done found => rfl
  | call op rest inductionHypothesis =>
      rw [call_bind, expand, expand, bind_assoc]
      congr 1
      funext answer
      exact inductionHypothesis answer

/-- Replacing calls twice is replacing each call by what its own calls stand for. -/
theorem expand_expand {Op'' : Type} {Answer'' : Op'' → Type}
    (further : (op : Op') → Program Op'' Answer'' (Answer' op)) (program : Program Op Answer α) :
    expand further (expand meaning program) =
      expand (fun op => expand further (meaning op)) program := by
  induction program with
  | done found => rfl
  | call op rest inductionHypothesis =>
      rw [expand, expand, expand_bind]
      congr 1
      funext answer
      exact inductionHypothesis answer

theorem All.expand {property : Op' → Prop} {program : Program Op Answer α}
    (all : All (fun op => All property (meaning op)) program) :
    All property (expand meaning program) := by
  induction program with
  | done found => exact trivial
  | call op next inductionHypothesis =>
      apply All.bind all.1
      intro answer
      exact inductionHypothesis answer (all.2 answer)

end

/-- Whatever it is told, the program does not return before it has made a call
with the property. -/
def Inevitable (property : Op → Prop) : Program Op Answer α → Prop
  | .done _ => False
  | .call op next => property op ∨ ∀ answer, Inevitable property (next answer)

/-- Answers within `given` can lead the program to a point with the property. -/
def Reaches (given : (op : Op) → Answer op → Prop) (goal : Program Op Answer α → Prop) :
    Program Op Answer α → Prop
  | .done result => goal (.done result)
  | .call op next =>
      goal (.call op next) ∨ ∃ answer, given op answer ∧ Reaches given goal (next answer)

/-- A program that can make a wanted call at all can be led to the goal. -/
def Attains (wanted : Op → Prop) (given : (op : Op) → Answer op → Prop)
    (goal : Program Op Answer α → Prop) (program : Program Op Answer α) : Prop :=
  All (fun op => wanted op → Reaches given goal program) program

section

variable {wanted : Op → Prop} {given : (op : Op) → Answer op → Prop}
  {goal : Program Op Answer α → Prop} {program : Program Op Answer α}

theorem Attains.of_reaches (reaches : Reaches given goal program) :
    Attains wanted given goal program :=
  All.of_forall (fun _ _ => reaches) program

theorem Attains.of_never (never : All (fun op => ¬ wanted op) program) :
    Attains wanted given goal program :=
  never.mono fun _ unwanted isWanted => absurd isWanted unwanted

/-- An unwanted call with free answers passes the duty on. -/
theorem Attains.call {op : Op} {next : Answer op → Program Op Answer α} (unwanted : ¬ wanted op)
    (free : ∀ answer, given op answer)
    (rest : ∀ answer, Attains wanted given goal (next answer)) :
    Attains wanted given goal (.call op next) := by
  refine ⟨fun isWanted => absurd isWanted unwanted, ?_⟩
  intro answer
  apply (rest answer).mono
  intro later reaches isWanted
  exact Or.inr ⟨answer, free answer, reaches isWanted⟩

theorem Attains.perform_bind {op : Op} {next : Answer op → Program Op Answer α}
    (unwanted : ¬ wanted op) (free : ∀ answer, given op answer)
    (rest : ∀ answer, Attains wanted given goal (next answer)) :
    Attains wanted given goal (perform op >>= next) := Attains.call unwanted free rest

end

/-- The property holds at every point of the program, in the phase that the
answers up to there lead to. -/
def Always {φ : Type} (advance : φ → (op : Op) → Answer op → φ)
    (property : φ → Program Op Answer α → Prop) : φ → Program Op Answer α → Prop
  | phase, .done result => property phase (.done result)
  | phase, .call op next =>
      property phase (.call op next) ∧
        ∀ answer, Always advance property (advance phase op answer) (next answer)

section

variable {φ : Type} {advance : φ → (op : Op) → Answer op → φ}
  {property : φ → Program Op Answer α → Prop} {phase : φ}

theorem Always.here {program : Program Op Answer α}
    (always : Always advance property phase program) : property phase program := by
  cases program with
  | done result => exact always
  | call op next => exact always.1

/-- Calls that keep the phase can be put in front. -/
theorem Always.bind_of_all {program : Program Op Answer β} {next : β → Program Op Answer α}
    {kept : Op → Prop} (keeps : ∀ op, kept op → ∀ answer, advance phase op answer = phase)
    (all : All kept program)
    (holds : ∀ op (later : Answer op → Program Op Answer α), kept op →
      (∀ answer, property phase (later answer)) → property phase (.call op later))
    (rest : ∀ found, Always advance property phase (next found)) :
    Always advance property phase (program >>= next) := by
  induction program with
  | done found => exact rest found
  | call op later inductionHypothesis =>
      have after : ∀ answer, Always advance property phase (later answer >>= next) :=
        fun answer => inductionHypothesis answer (all.2 answer)
      refine ⟨holds op _ all.1 fun answer => (after answer).here, ?_⟩
      intro answer
      rw [keeps op all.1 answer]
      exact after answer

end

/-- Up to an exit, every call fits the phase that it is made in, and so does the
result. -/
def Unless {φ : Type} (advance : φ → (op : Op) → Answer op → φ)
    (exits : φ → Program Op Answer α → Prop) (fits : φ → Op → Prop) (ends : φ → α → Prop) :
    φ → Program Op Answer α → Prop
  | phase, .done result => exits phase (.done result) ∨ ends phase result
  | phase, .call op next =>
      exits phase (.call op next) ∨
        (fits phase op ∧
          ∀ answer, Unless advance exits fits ends (advance phase op answer) (next answer))

section

variable {φ : Type} {advance : φ → (op : Op) → Answer op → φ}
  {exits : φ → Program Op Answer α → Prop} {fits : φ → Op → Prop} {ends : φ → α → Prop} {phase : φ}

theorem Unless.exit {program : Program Op Answer α} (here : exits phase program) :
    Unless advance exits fits ends phase program := by
  cases program with
  | done result => exact Or.inl here
  | call op next => exact Or.inl here

/-- Calls that fit and keep the phase can be put in front. -/
theorem Unless.bind_of_all {program : Program Op Answer β} {next : β → Program Op Answer α}
    (all : All (fun op => fits phase op ∧ ∀ answer, advance phase op answer = phase) program)
    (rest : ∀ found, Unless advance exits fits ends phase (next found)) :
    Unless advance exits fits ends phase (program >>= next) := by
  induction program with
  | done found => exact rest found
  | call op later inductionHypothesis =>
      refine Or.inr ⟨all.1.1, ?_⟩
      intro answer
      rw [all.1.2 answer]
      exact inductionHypothesis answer (all.2 answer)

/-- In phases that are never left, it is enough that every call fits all of them. -/
theorem Unless.of_all {last : φ → Prop} {program : Program Op Answer α}
    (stays : ∀ phase, last phase → ∀ op answer, last (advance phase op answer))
    (ended : ∀ phase, last phase → ∀ result, ends phase result) (isLast : last phase)
    (all : All (fun op => ∀ phase, last phase → fits phase op) program) :
    Unless advance exits fits ends phase program := by
  induction program generalizing phase with
  | done result => exact Or.inr (ended phase isLast result)
  | call op next inductionHypothesis =>
      refine Or.inr ⟨all.1 phase isLast, ?_⟩
      intro answer
      exact inductionHypothesis answer (stays phase isLast op answer) (all.2 answer)

end

/-- The same without an exit: `ends` is what a whole run of the program ensures. -/
def Conforms {φ : Type} (advance : φ → (op : Op) → Answer op → φ) (fits : φ → Op → Prop)
    (ends : φ → α → Prop) : φ → Program Op Answer α → Prop :=
  Unless advance (fun _ _ => False) fits ends

section

variable {φ : Type} {advance : φ → (op : Op) → Answer op → φ} {fits : φ → Op → Prop} {phase : φ}

@[simp] theorem conforms_done {ends : φ → α → Prop} {result : α} :
    Conforms advance fits ends phase (.done result) ↔ ends phase result := by
  simp [Conforms, Unless]

@[simp] theorem conforms_call {ends : φ → α → Prop} {op : Op}
    {next : Answer op → Program Op Answer α} :
    Conforms advance fits ends phase (.call op next) ↔
      fits phase op ∧
        ∀ answer, Conforms advance fits ends (advance phase op answer) (next answer) := by
  simp [Conforms, Unless]

theorem conforms_perform {op : Op} {ends : φ → Answer op → Prop} (fit : fits phase op)
    (ensures : ∀ answer, ends (advance phase op answer) answer) :
    Conforms advance fits ends phase (perform op) :=
  conforms_call.mpr ⟨fit, fun answer => conforms_done.mpr (ensures answer)⟩

/-- Sequencing: what the first part ensures, the second may start from. -/
theorem Conforms.bind {middle : φ → β → Prop} {ends : φ → α → Prop}
    {program : Program Op Answer β} {next : β → Program Op Answer α}
    (first : Conforms advance fits middle phase program)
    (second : ∀ phase found, middle phase found → Conforms advance fits ends phase (next found)) :
    Conforms advance fits ends phase (program >>= next) := by
  induction program generalizing phase with
  | done found => exact second phase found (conforms_done.mp first)
  | call op rest inductionHypothesis =>
      obtain ⟨fit, later⟩ := conforms_call.mp first
      exact conforms_call.mpr ⟨fit, fun answer => inductionHypothesis answer (later answer)⟩

theorem Conforms.mono {weak strong : φ → α → Prop} {program : Program Op Answer α}
    (conforms : Conforms advance fits strong phase program)
    (implies : ∀ phase found, strong phase found → weak phase found) :
    Conforms advance fits weak phase program := by
  rw [← bind_done program]
  apply Conforms.bind conforms
  intro reached found holds
  exact conforms_done.mpr (implies reached found holds)

/-- Calls that fit and keep the phase ensure that it is kept. -/
theorem Conforms.of_all {program : Program Op Answer α}
    (all : All (fun op => fits phase op ∧ ∀ answer, advance phase op answer = phase) program) :
    Conforms advance fits (fun reached _ => reached = phase) phase program := by
  induction program with
  | done found => exact conforms_done.mpr rfl
  | call op rest inductionHypothesis =>
      refine conforms_call.mpr ⟨all.1.1, ?_⟩
      intro answer
      rw [all.1.2 answer]
      exact inductionHypothesis answer (all.2 answer)

end

end Program

end Ratewall.Foundation
