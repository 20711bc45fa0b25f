import Ratewall.Foundation.Program
import Ratewall.Foundation.Slots
import Ratewall.Foundation.Transition

/-! Owns the interleaved execution of programs over one shared state. Each thread
runs one program; its next call is one atomic step, in which the shared state
answers, from what it holds or from what the surroundings offer. A thread may be
dropped between two calls. The note of a thread is a history variable that sees
its calls and answers and nothing else.

A thread that has returned stays in the table with its result. Identifiers are
never used twice. -/

namespace Ratewall.Foundation

structure Thread (Op : Type) (Answer : Op → Type) (α θ : Type) where
  note : θ
  program : Program Op Answer α

structure Pool (Op : Type) (Answer : Op → Type) (α θ σ : Type) where
  shared : σ
  threads : Nat → Option (Thread Op Answer α θ)
  nextId : Nat

/-- How threads start, how calls are answered, what a note records of a call, and
what the surroundings may do to the shared state. -/
structure System (Op : Type) (Answer : Op → Type) (α θ σ ι δ : Type) where
  body : ι → Program Op Answer α
  note : ι → θ
  act : σ → Nat → (op : Op) → Answer op → Answer op × σ
  observe : θ → (op : Op) → Answer op → θ
  ambient : σ → δ → σ

namespace Pool

variable {Op : Type} {Answer : Op → Type} {α θ σ ι δ : Type}

/-- The surroundings offer an answer to whatever the thread calls next. -/
inductive Event (Op : Type) (Answer : Op → Type) (ι δ : Type) where
  | spawn (input : ι)
  | exec (id : Nat) (offer : (op : Op) → Answer op)
  | drop (id : Nat)
  | ambient (change : δ)

def init (shared : σ) : Pool Op Answer α θ σ :=
  { shared := shared, threads := fun _ => none, nextId := 0 }

def step (system : System Op Answer α θ σ ι δ) (before : Pool Op Answer α θ σ) :
    Event Op Answer ι δ → Option (Pool Op Answer α θ σ)
  | .spawn input => some
      { before with
        threads := Function.update before.threads before.nextId
          (some ⟨system.note input, system.body input⟩)
        nextId := before.nextId + 1 }
  | .exec id offer =>
      match before.threads id with
      | some ⟨note, .call op next⟩ =>
          let answered := system.act before.shared id op (offer op)
          some
            { before with
              shared := answered.2
              threads := Function.update before.threads id
                (some ⟨system.observe note op answered.1, next answered.1⟩) }
      | _ => none
  | .drop id =>
      match before.threads id with
      | some _ => some { before with threads := Function.update before.threads id none }
      | none => none
  | .ambient change => some { before with shared := system.ambient before.shared change }

variable {system : System Op Answer α θ σ ι δ} {before after : Pool Op Answer α θ σ}
  {event : Event Op Answer ι δ}

/-- All that a step can do: spawn, answer a call, drop, or change the surroundings. -/
theorem step_cases (stepped : step system before event = some after) :
    (∃ input, event = .spawn input ∧ after = { before with
      threads := Function.update before.threads before.nextId
        (some ⟨system.note input, system.body input⟩)
      nextId := before.nextId + 1 }) ∨
    (∃ id offer note op next, event = .exec id offer ∧
      before.threads id = some ⟨note, .call op next⟩ ∧ after = { before with
        shared := (system.act before.shared id op (offer op)).2
        threads := Function.update before.threads id
          (some ⟨system.observe note op (system.act before.shared id op (offer op)).1,
            next (system.act before.shared id op (offer op)).1⟩) }) ∨
    (∃ id thread, event = .drop id ∧ before.threads id = some thread ∧
      after = { before with threads := Function.update before.threads id none }) ∨
    (∃ change, event = .ambient change ∧
      after = { before with shared := system.ambient before.shared change }) := by
  cases event with
  | spawn input => exact Or.inl ⟨input, rfl, (Option.some.inj stepped).symm⟩
  | exec id offer =>
      simp only [step] at stepped
      split at stepped
      next note op next found =>
        exact Or.inr (Or.inl ⟨id, offer, note, op, next, rfl, found, (Option.some.inj stepped).symm⟩)
      next => cases stepped
  | drop id =>
      simp only [step] at stepped
      split at stepped
      next thread found =>
        exact Or.inr (Or.inr (Or.inl ⟨id, thread, rfl, found, (Option.some.inj stepped).symm⟩))
      next => cases stepped
  | ambient change =>
      exact Or.inr (Or.inr (Or.inr ⟨change, rfl, (Option.some.inj stepped).symm⟩))

/-- A call that is waiting is answered. -/
theorem step_exec {id : Nat} {note : θ} {op : Op} {next : Answer op → Program Op Answer α}
    (found : before.threads id = some ⟨note, .call op next⟩) (offer : (op : Op) → Answer op) :
    step system before (.exec id offer) = some { before with
      shared := (system.act before.shared id op (offer op)).2
      threads := Function.update before.threads id
        (some ⟨system.observe note op (system.act before.shared id op (offer op)).1,
          next (system.act before.shared id op (offer op)).1⟩) } := by
  simp only [step, found]

theorem same_thread {pool : Pool Op Answer α θ σ} {id : Nat} {note note' : θ}
    {program program' : Program Op Answer α} (found : pool.threads id = some ⟨note, program⟩)
    (found' : pool.threads id = some ⟨note', program'⟩) : note = note' ∧ program = program' := by
  rw [found] at found'
  injection found' with same
  injection same with sameNote sameProgram
  exact ⟨sameNote, sameProgram⟩

/-- A thread that is left alone runs its program to the end. -/
theorem run_alone {pool : Pool Op Answer α θ σ} {id : Nat} {note : θ}
    {program : Program Op Answer α} (found : pool.threads id = some ⟨note, program⟩)
    (offer : (op : Op) → Answer op) :
    ∃ count last, run (step system) pool (List.replicate count (.exec id offer)) = some
      { pool with
        shared := (program.execute (fun state op => system.act state id op (offer op))
          pool.shared).2
        threads := Function.update pool.threads id (some ⟨last,
          .done (program.execute (fun state op => system.act state id op (offer op))
            pool.shared).1⟩) } := by
  induction program generalizing pool note with
  | done result =>
      refine ⟨0, note, ?_⟩
      rw [List.replicate_zero, run_nil]
      simp only [Program.execute, ← found, Function.update_eq_self]
  | call op next inductionHypothesis =>
      let answered := system.act pool.shared id op (offer op)
      let after : Pool Op Answer α θ σ :=
        { pool with
          shared := answered.2
          threads := Function.update pool.threads id
            (some ⟨system.observe note op answered.1, next answered.1⟩) }
      have stepped : step system pool (.exec id offer) = some after := by
        simp only [step, found]
        rfl
      obtain ⟨count, last, ran⟩ := inductionHypothesis answered.1
        (show after.threads id = _ from Function.update_self _ _ _)
      refine ⟨count + 1, last, run_cons_iff.mpr ⟨after, stepped, ?_⟩⟩
      simpa [after, answered, Program.execute, Function.update_idem] using ran

/-- Of every thread in the table. -/
def Threads (property : θ → Program Op Answer α → Prop) (pool : Pool Op Answer α θ σ) : Prop :=
  ∀ id thread, pool.threads id = some thread → property thread.note thread.program

/-- A property of single threads holds of all of them once it holds of every new
thread and survives every answer. -/
theorem threads_step {property : θ → Program Op Answer α → Prop}
    (spawned : ∀ input, event = .spawn input → property (system.note input) (system.body input))
    (called : ∀ note op next, property note (.call op next) →
      ∀ answer, property (system.observe note op answer) (next answer))
    (threads : Threads property before) (stepped : step system before event = some after) :
    Threads property after := by
  intro id thread found
  rcases step_cases stepped with ⟨input, isSpawn, rfl⟩ |
    ⟨other, offer, note, op, next, -, old, rfl⟩ | ⟨other, dropped, -, -, rfl⟩ | ⟨change, -, rfl⟩
  · rcases filled_cases found with ⟨-, rfl⟩ | ⟨-, held⟩
    · exact spawned input isSpawn
    · exact threads id thread held
  · rcases filled_cases found with ⟨-, rfl⟩ | ⟨-, held⟩
    · exact called note op next (threads other _ old) _
    · exact threads id thread held
  · exact threads id thread (emptied_cases found).2
  · exact threads id thread found

theorem threads_init (property : θ → Program Op Answer α → Prop) (shared : σ) :
    Threads property (init shared : Pool Op Answer α θ σ) := by
  intro id thread found
  cases found

/-- No thread has an identifier that is still to be given. -/
def Fresh (pool : Pool Op Answer α θ σ) : Prop :=
  ∀ id, pool.nextId ≤ id → pool.threads id = none

theorem fresh_init (shared : σ) : Fresh (init shared : Pool Op Answer α θ σ) := by
  intro id _
  rfl

theorem fresh_step (fresh : Fresh before) (stepped : step system before event = some after) :
    Fresh after := by
  intro id above
  rcases step_cases stepped with ⟨input, -, rfl⟩ | ⟨other, offer, note, op, next, -, old, rfl⟩ |
    ⟨other, dropped, -, -, rfl⟩ | ⟨change, -, rfl⟩
  · have later : before.nextId + 1 ≤ id := above
    show Function.update before.threads before.nextId _ id = none
    rw [Function.update_of_ne (by omega)]
    exact fresh id (by omega)
  · have different : id ≠ other := by
      rintro rfl
      rw [fresh id above] at old
      cases old
    show Function.update before.threads other _ id = none
    rw [Function.update_of_ne different]
    exact fresh id above
  · show Function.update before.threads other none id = none
    by_cases same : id = other
    · rw [same, Function.update_self]
    · rw [Function.update_of_ne same]
      exact fresh id above
  · exact fresh id above

end Pool

end Ratewall.Foundation
