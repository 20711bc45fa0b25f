import Ratewall.Foundation.Pool

/-! Owns threads that take locks and give them back. A call that takes a lock waits
until the lock is free: before, its step is not possible. Threads of this machine
run to their end and are not dropped.

`Owned` is the invariant: what a thread has taken and not given back is entered
under its own name, so two threads never have the same lock. -/

namespace Ratewall.Foundation

/-- What a call does to the locks. -/
inductive LockUse (κ : Type) where
  | none
  | acquire (lock : κ)
  | release (lock : κ)

namespace LockUse

variable {κ : Type} [DecidableEq κ]

/-- Who has which lock, after a call of the thread. -/
def owners (id : Nat) (locks : κ → Option Nat) : LockUse κ → κ → Option Nat
  | .none => locks
  | .acquire lock => Function.update locks lock (some id)
  | .release lock => Function.update locks lock Option.none

/-- Which locks the thread has, after its call. -/
def held (taken : List κ) : LockUse κ → List κ
  | .none => taken
  | .acquire lock => lock :: taken
  | .release lock => taken.filter fun other => other ≠ lock

def ready (locks : κ → Option Nat) : LockUse κ → Bool
  | .acquire lock => (locks lock).isNone
  | _ => true

/-- No lock is taken twice, and only taken ones are given back. -/
def Proper (taken : List κ) : LockUse κ → Prop
  | .none => True
  | .acquire lock => lock ∉ taken
  | .release lock => lock ∈ taken

end LockUse

namespace Pool

variable {Op : Type} {Answer : Op → Type} {α θ σ ι δ κ : Type} [DecidableEq κ]

/-- Where the locks are, and which calls are about them. -/
structure Locking (system : System Op Answer α θ σ ι δ) (κ : Type) [DecidableEq κ] where
  use : Op → LockUse κ
  locks : σ → κ → Option Nat
  held : θ → List κ
  locks_act : ∀ shared id op offer,
    locks (system.act shared id op offer).2 = (use op).owners id (locks shared)
  locks_ambient : ∀ shared change, locks (system.ambient shared change) = locks shared
  held_note : ∀ input, held (system.note input) = []
  held_observe : ∀ note op answer, held (system.observe note op answer) = (use op).held (held note)

variable {system : System Op Answer α θ σ ι δ}

def lockStep (locking : Locking system κ) (before : Pool Op Answer α θ σ) :
    Event Op Answer ι δ → Option (Pool Op Answer α θ σ)
  | .spawn input => step system before (.spawn input)
  | .exec id offer =>
      match before.threads id with
      | some ⟨_, .call op _⟩ =>
          if (locking.use op).ready (locking.locks before.shared) then
            step system before (.exec id offer)
          else none
      | _ => none
  | .drop _ => none
  | .ambient change => step system before (.ambient change)

variable {locking : Locking system κ} {before after : Pool Op Answer α θ σ}
  {event : Event Op Answer ι δ}

theorem step_of_lockStep (stepped : lockStep locking before event = some after) :
    step system before event = some after := by
  cases event with
  | spawn input => exact stepped
  | exec id offer =>
      simp only [lockStep] at stepped
      split at stepped
      next =>
        split at stepped
        next => exact stepped
        next => cases stepped
      next => cases stepped
  | drop id => cases stepped
  | ambient change => exact stepped

/-- Everything that a step can do. -/
theorem lockStep_cases (stepped : lockStep locking before event = some after) :
    (∃ input, event = .spawn input ∧ after = { before with
      threads := Function.update before.threads before.nextId
        (some ⟨system.note input, system.body input⟩)
      nextId := before.nextId + 1 }) ∨
    (∃ id offer note op next, event = .exec id offer ∧
      before.threads id = some ⟨note, .call op next⟩ ∧
      (locking.use op).ready (locking.locks before.shared) = true ∧ after = { before with
        shared := (system.act before.shared id op (offer op)).2
        threads := Function.update before.threads id
          (some ⟨system.observe note op (system.act before.shared id op (offer op)).1,
            next (system.act before.shared id op (offer op)).1⟩) }) ∨
    (∃ change, event = .ambient change ∧
      after = { before with shared := system.ambient before.shared change }) := by
  rcases step_cases (step_of_lockStep stepped) with ⟨input, rfl, same⟩ |
    ⟨id, offer, note, op, next, rfl, found, same⟩ | ⟨id, thread, rfl, -, -⟩ | ⟨change, rfl, same⟩
  · exact Or.inl ⟨input, rfl, same⟩
  · refine Or.inr (Or.inl ⟨id, offer, note, op, next, rfl, found, ?_, same⟩)
    simp only [lockStep, found] at stepped
    split at stepped
    next isReady => exact isReady
    next => cases stepped
  · cases stepped
  · exact Or.inr (Or.inr ⟨change, rfl, same⟩)

def Owned (locking : Locking system κ) (pool : Pool Op Answer α θ σ) : Prop :=
  ∀ id thread, pool.threads id = some thread → ∀ lock ∈ locking.held thread.note,
    locking.locks pool.shared lock = some id

theorem owned_init (shared : σ) : Owned locking (init shared) := by
  intro id thread found
  cases found

/-- A lock has one holder. -/
theorem Owned.exclusive {pool : Pool Op Answer α θ σ} (owned : Owned locking pool) {id other : Nat}
    {thread rival : Thread Op Answer α θ} (found : pool.threads id = some thread)
    (found' : pool.threads other = some rival) {lock : κ} (mine : lock ∈ locking.held thread.note)
    (theirs : lock ∈ locking.held rival.note) : id = other := by
  have first := owned id thread found lock mine
  have second := owned other rival found' lock theirs
  rw [first] at second
  exact Option.some.inj second

/-- Where locks are used properly, every step keeps them exclusive. -/
theorem owned_step
    (proper : ∀ id note op next, before.threads id = some ⟨note, .call op next⟩ →
      (locking.use op).Proper (locking.held note))
    (owned : Owned locking before) (stepped : lockStep locking before event = some after) :
    Owned locking after := by
  intro id thread found lock taken
  rcases lockStep_cases stepped with ⟨input, -, rfl⟩ |
    ⟨other, offer, note, op, next, -, old, isReady, rfl⟩ | ⟨change, -, rfl⟩
  · rcases filled_cases found with ⟨-, rfl⟩ | ⟨-, found⟩
    · rw [locking.held_note] at taken
      cases taken
    · exact owned id thread found lock taken
  · rw [locking.locks_act]
    have own := proper other note op next old
    rcases filled_cases found with ⟨rfl, rfl⟩ | ⟨different, found⟩
    · -- The thread that moved has what it had, plus or minus the lock of its call.
      rw [locking.held_observe] at taken
      cases used : locking.use op with
      | none =>
          rw [used] at taken
          exact owned id _ old lock taken
      | acquire wanted =>
          rw [used] at taken
          by_cases same : lock = wanted
          · rw [same]
            exact Function.update_self _ _ _
          · have kept := (List.mem_cons.mp taken).resolve_left same
            exact (Function.update_of_ne same _ _).trans (owned id _ old lock kept)
      | release given =>
          rw [used] at taken
          obtain ⟨kept, notGiven⟩ := List.mem_filter.mp taken
          exact (Function.update_of_ne (of_decide_eq_true notGiven) _ _).trans
            (owned id _ old lock kept)
    · have mine := owned id thread found lock taken
      cases used : locking.use op with
      | none => exact mine
      | acquire wanted =>
          -- A lock that can be taken is nobody's, and so none of this thread's.
          rw [used] at isReady
          have notMine : lock ≠ wanted := by
            rintro rfl
            rw [LockUse.ready, mine] at isReady
            cases isReady
          exact (Function.update_of_ne notMine _ _).trans mine
      | release given =>
          rw [used] at own
          have notMine : lock ≠ given := by
            rintro rfl
            exact different (owned.exclusive found old taken own)
          exact (Function.update_of_ne notMine _ _).trans mine
  · rw [locking.locks_ambient]
    exact owned id thread found lock taken

end Pool

end Ratewall.Foundation
