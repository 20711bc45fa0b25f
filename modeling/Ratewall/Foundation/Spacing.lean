import Mathlib.Data.List.Basic

/-! Owns spaced sequences of moments: a list whose first moment is not before a
bound and whose moments lie at least `gap` apart, and the number of them that
fit before a deadline. -/

namespace Ratewall.Foundation

/-- The moments come in order, the first at `bound` or later and every next one
at least `gap` after the one before it. -/
def Spaced (gap : Nat) : Nat → List Nat → Prop
  | _, [] => True
  | bound, moment :: rest => bound ≤ moment ∧ Spaced gap (moment + gap) rest

namespace Spaced

variable {gap bound : Nat} {moments : List Nat}

theorem bound_le (spaced : Spaced gap bound moments) : ∀ moment ∈ moments, bound ≤ moment := by
  induction moments generalizing bound with
  | nil => simp
  | cons head rest inductionHypothesis =>
      obtain ⟨first, tail⟩ := spaced
      intro moment member
      rcases List.mem_cons.mp member with rfl | later
      · exact first
      · have := inductionHypothesis tail moment later
        omega

/-- Any two moments of the list, not only neighbours, are `gap` apart. -/
theorem pairwise (spaced : Spaced gap bound moments) :
    moments.Pairwise fun earlier later => earlier + gap ≤ later := by
  induction moments generalizing bound with
  | nil => exact List.Pairwise.nil
  | cons head rest inductionHypothesis =>
      exact List.Pairwise.cons (bound_le spaced.2) (inductionHypothesis spaced.2)

/-- The `k`-th moment is not before `bound + (k - 1) * gap`, so a deadline
leaves room for that many moments only. -/
theorem count_mul_le (spaced : Spaced gap bound moments) (deadline : Nat) :
    (moments.filter (· ≤ deadline)) = [] ∨
      bound + ((moments.filter (· ≤ deadline)).length - 1) * gap ≤ deadline := by
  induction moments generalizing bound with
  | nil => exact Or.inl rfl
  | cons head rest inductionHypothesis =>
      obtain ⟨first, tail⟩ := spaced
      by_cases inside : head ≤ deadline
      · right
        rw [List.filter_cons_of_pos (by simpa using inside), List.length_cons,
          Nat.add_sub_cancel]
        rcases inductionHypothesis tail with none | room
        · rw [none]
          simp only [List.length_nil, Nat.zero_mul]
          omega
        · cases count : (rest.filter (· ≤ deadline)).length with
          | zero =>
              simp only [Nat.zero_mul]
              omega
          | succ more =>
              rw [count, Nat.add_sub_cancel] at room
              rw [Nat.succ_mul]
              omega
      · left
        rw [List.filter_cons_of_neg (by simpa using inside), List.filter_eq_nil_iff]
        intro moment member
        have := bound_le tail moment member
        simp only [decide_eq_true_eq]
        omega

/-- At most `(deadline - start) / gap` moments fit, when none comes in the first
gap after `start`. -/
theorem count_le_div {start deadline : Nat} (positive : 0 < gap)
    (spaced : Spaced gap (start + gap) moments) :
    (moments.filter (· ≤ deadline)).length ≤ (deadline - start) / gap := by
  rw [Nat.le_div_iff_mul_le positive]
  rcases count_mul_le spaced deadline with none | room
  · simp [none]
  · cases count : (moments.filter (· ≤ deadline)).length with
    | zero => simp
    | succ more =>
        rw [count, Nat.add_sub_cancel] at room
        rw [Nat.succ_mul]
        omega

end Spaced

end Ratewall.Foundation
