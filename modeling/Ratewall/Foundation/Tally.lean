import Mathlib.Algebra.GroupWithZero.Nat
import Mathlib.Algebra.Order.BigOperators.Group.Finset
import Ratewall.Foundation.Lock

/-! Owns sums over the threads of a pool: what every note weighs, added up. A
step moves one thread, so it changes a tally by the difference that it makes to
one note. What is shared then stays equal to a tally, if every call adds to both
alike, and what the threads spend stays within what they earned. -/

namespace Ratewall.Foundation

namespace Pool

variable {Op : Type} {Answer : Op → Type} {α θ σ ι δ : Type}

def weigh (weight : θ → Nat) (slot : Option (Thread Op Answer α θ)) : Nat :=
  slot.elim 0 fun thread => weight thread.note

def tally (weight : θ → Nat) (pool : Pool Op Answer α θ σ) : Nat :=
  ∑ id ∈ Finset.range pool.nextId, weigh weight (pool.threads id)

theorem tally_init (weight : θ → Nat) (shared : σ) :
    tally weight (init shared : Pool Op Answer α θ σ) = 0 := rfl

variable {weight other : θ → Nat} {pool before after : Pool Op Answer α θ σ}

/-- A new thread adds its own weight. -/
theorem tally_spawn (thread : Thread Op Answer α θ) (shared : σ) :
    tally weight { shared := shared
                   threads := Function.update pool.threads pool.nextId (some thread)
                   nextId := pool.nextId + 1 } =
      tally weight pool + weight thread.note := by
  show ∑ id ∈ Finset.range (pool.nextId + 1),
      weigh weight (Function.update pool.threads pool.nextId (some thread) id) = _
  rw [Finset.sum_range_succ, Function.update_self]
  congr 1
  apply Finset.sum_congr rfl
  intro id member
  rw [Function.update_of_ne (Nat.ne_of_lt (Finset.mem_range.mp member))]

theorem Fresh.mem_range (fresh : Fresh pool) {id : Nat} {thread : Thread Op Answer α θ}
    (found : pool.threads id = some thread) : id ∈ Finset.range pool.nextId := by
  rw [Finset.mem_range]
  by_contra above
  rw [fresh id (Nat.le_of_not_lt above)] at found
  cases found

/-- A thread that moves takes its old weight away and brings the new one. -/
theorem tally_move (fresh : Fresh pool) {id : Nat} {old : Thread Op Answer α θ}
    (found : pool.threads id = some old) (new : Thread Op Answer α θ) (shared : σ) :
    tally weight { pool with
        shared := shared
        threads := Function.update pool.threads id (some new) } + weight old.note =
      tally weight pool + weight new.note := by
  have below := fresh.mem_range found
  have oldSum := Finset.add_sum_erase _ (fun k => weigh weight (pool.threads k)) below
  have newSum := Finset.add_sum_erase _
    (fun k => weigh weight (Function.update pool.threads id (some new) k)) below
  have rest : ∑ k ∈ (Finset.range pool.nextId).erase id,
      weigh weight (Function.update pool.threads id (some new) k) =
        ∑ k ∈ (Finset.range pool.nextId).erase id, weigh weight (pool.threads k) := by
    apply Finset.sum_congr rfl
    intro k member
    rw [Function.update_of_ne (Finset.ne_of_mem_erase member)]
  simp only [found, Function.update_self, weigh, Option.elim] at oldSum newSum rest
  show ∑ k ∈ Finset.range pool.nextId,
      weigh weight (Function.update pool.threads id (some new) k) + _ =
    ∑ k ∈ Finset.range pool.nextId, weigh weight (pool.threads k) + _
  simp only [weigh, Option.elim]
  omega

theorem tally_le_tally
    (lighter : ∀ id thread, pool.threads id = some thread → weight thread.note ≤ other thread.note) :
    tally weight pool ≤ tally other pool := by
  apply Finset.sum_le_sum
  intro id _
  cases found : pool.threads id with
  | none => exact Nat.le_refl _
  | some thread => exact lighter id thread found

theorem tally_congr
    (same : ∀ id thread, pool.threads id = some thread → weight thread.note = other thread.note) :
    tally weight pool = tally other pool :=
  Nat.le_antisymm (tally_le_tally fun id thread found => (same id thread found).le)
    (tally_le_tally fun id thread found => (same id thread found).ge)

theorem exists_of_tally_ne_zero (heavy : tally weight pool ≠ 0) :
    ∃ id thread, pool.threads id = some thread ∧ weight thread.note ≠ 0 := by
  obtain ⟨id, -, weighs⟩ := Finset.exists_ne_zero_of_sum_ne_zero heavy
  cases found : pool.threads id with
  | none =>
      rw [found] at weighs
      exact absurd rfl weighs
  | some thread =>
      rw [found] at weighs
      exact ⟨id, thread, found, weighs⟩

/-- Weights that are a sum over items are tallied item by item. -/
theorem tally_sum {κ : Type} (items : List κ) (weights : κ → θ → Nat) :
    tally (fun note => (items.map fun item => weights item note).sum) pool =
      (items.map fun item => tally (weights item) pool).sum := by
  induction items with
  | nil =>
      apply Finset.sum_eq_zero
      intro id _
      cases pool.threads id with
      | none => rfl
      | some thread => rfl
  | cons item rest inductionHypothesis =>
      rw [List.map_cons, List.sum_cons, ← inductionHypothesis]
      unfold tally
      rw [← Finset.sum_add_distrib]
      apply Finset.sum_congr rfl
      intro id _
      cases pool.threads id with
      | none => rfl
      | some thread => rfl

/-- A thread that is dropped takes its weight away. -/
theorem tally_drop_le (pool : Pool Op Answer α θ σ) (id : Nat) :
    tally weight { pool with threads := Function.update pool.threads id none } ≤
      tally weight pool := by
  apply Finset.sum_le_sum
  intro other _
  show weigh weight (Function.update pool.threads id none other) ≤ weigh weight (pool.threads other)
  by_cases same : other = id
  · rw [same, Function.update_self]
    exact Nat.zero_le _
  · rw [Function.update_of_ne same]

/-- If a call spends at most what it earns and what its thread had left, then so does
every step of the pool. -/
theorem spent_step {system : System Op Answer α θ σ ι δ} {event : Event Op Answer ι δ}
    {earned spent : Nat} (fresh : Fresh before) (starts : ∀ input, weight (system.note input) = 0)
    (pays : ∀ id offer note op next, event = .exec id offer →
      before.threads id = some ⟨note, .call op next⟩ →
      weight (system.observe note op (system.act before.shared id op (offer op)).1) + spent ≤
        weight note + earned)
    (idle : (∀ id offer, event ≠ .exec id offer) → spent ≤ earned)
    (stepped : step system before event = some after) :
    tally weight after + spent ≤ tally weight before + earned := by
  rcases step_cases stepped with ⟨input, rfl, rfl⟩ | ⟨id, offer, note, op, next, rfl, found, rfl⟩ |
    ⟨id, thread, rfl, -, rfl⟩ | ⟨change, rfl, rfl⟩
  · have spends := idle (by simp)
    rw [tally_spawn, starts]
    omega
  · have moved := @tally_move _ _ _ _ _ weight before fresh id _ found
      ⟨system.observe note op (system.act before.shared id op (offer op)).1,
        next (system.act before.shared id op (offer op)).1⟩
      (system.act before.shared id op (offer op)).2
    have paid := pays id offer note op next rfl found
    simp only at moved
    omega
  · have spends := idle (by simp)
    have dropped := @tally_drop_le _ _ _ _ _ weight before id
    omega
  · have spends := idle (by simp)
    have kept : tally weight { before with shared := system.ambient before.shared change } =
        tally weight before := rfl
    omega

section

variable {κ : Type} [DecidableEq κ] {system : System Op Answer α θ σ ι δ}
  {locking : Locking system κ} {event : Event Op Answer ι δ} {gain : Op → Nat}

/-- What is measured of the shared state is what the threads have put into it. -/
theorem conserved_step (measure : σ → Nat) (fresh : Fresh before)
    (starts : ∀ input, weight (system.note input) = 0)
    (grows : ∀ note op answer, weight (system.observe note op answer) = weight note + gain op)
    (acts : ∀ id note op next offer, before.threads id = some ⟨note, .call op next⟩ →
      measure (system.act before.shared id op offer).2 = measure before.shared + gain op)
    (ambient : ∀ change, measure (system.ambient before.shared change) = measure before.shared)
    (conserved : measure before.shared = tally weight before)
    (stepped : lockStep locking before event = some after) :
    measure after.shared = tally weight after := by
  rcases lockStep_cases stepped with ⟨input, -, rfl⟩ |
    ⟨id, offer, note, op, next, -, found, -, rfl⟩ | ⟨change, -, rfl⟩
  · rw [tally_spawn, starts]
    exact conserved
  · have moved := @tally_move _ _ _ _ _ weight before fresh id _ found
      ⟨system.observe note op (system.act before.shared id op (offer op)).1,
        next (system.act before.shared id op (offer op)).1⟩
      (system.act before.shared id op (offer op)).2
    have acted := acts id note op next (offer op) found
    simp only [grows] at moved
    show measure (system.act before.shared id op (offer op)).2 = _
    omega
  · exact (ambient change).trans conserved

end

end Pool

end Ratewall.Foundation
