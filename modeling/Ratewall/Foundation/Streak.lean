import Mathlib.Data.List.DropRight

/-! Owns runs of bad outcomes in a history: the length of the run that ends it,
and whether some block of a given length was bad throughout. Appending one outcome
completes a block of `n` exactly when it brings the ending run to `n`. It does not
own any meaning of an outcome. -/

namespace Ratewall.Foundation

variable {α : Type*} (bad : α → Bool)

/-- The number of bad outcomes since the last good one, or since the beginning. -/
def streak (history : List α) : Nat := (history.rtakeWhile bad).length

/-- Somewhere `n` consecutive outcomes were bad. -/
def HasBlock (n : Nat) (history : List α) : Prop :=
  ∃ block, block <:+: history ∧ block.length = n ∧ ∀ outcome ∈ block, bad outcome = true

variable {bad} {n : Nat} {history : List α} {outcome : α}

@[simp] theorem streak_nil : streak bad [] = 0 := rfl

theorem streak_concat (history : List α) (outcome : α) :
    streak bad (history ++ [outcome]) = if bad outcome then streak bad history + 1 else 0 := by
  unfold streak
  rw [List.rtakeWhile_concat]
  split <;> simp

theorem length_le_streak {block : List α} (ends : block <:+ history)
    (allBad : ∀ found ∈ block, bad found = true) : block.length ≤ streak bad history := by
  induction history using List.reverseRecOn generalizing block with
  | nil => simp [List.suffix_nil.mp ends]
  | append_singleton earlier last inductionHypothesis =>
      rcases List.suffix_concat_iff.mp ends with rfl | ⟨front, rfl, endsEarlier⟩
      · simp
      · have bound := inductionHypothesis endsEarlier fun found member =>
          allBad found (List.mem_append_left _ member)
        have lastBad : bad last = true := allBad last (by simp)
        rw [streak_concat, if_pos lastBad, List.length_append]
        exact Nat.add_le_add_right bound 1

/-- The last `n` outcomes of a long enough streak are a block. -/
theorem hasBlock_of_le_streak (long : n ≤ streak bad history) : HasBlock bad n history := by
  have ends := List.drop_suffix (streak bad history - n) (history.rtakeWhile bad)
  refine ⟨_, (ends.trans (List.rtakeWhile_suffix bad history)).isInfix, ?_, ?_⟩
  · rw [List.length_drop]
    unfold streak at long ⊢
    omega
  · intro found member
    exact List.mem_rtakeWhile_imp (ends.subset member)

theorem hasBlock_concat_iff :
    HasBlock bad n (history ++ [outcome]) ↔
      HasBlock bad n history ∨ n ≤ streak bad (history ++ [outcome]) := by
  constructor
  · rintro ⟨block, inside, length, allBad⟩
    rcases List.infix_concat_iff.mp inside with ends | earlier
    · exact Or.inr (length ▸ length_le_streak ends allBad)
    · exact Or.inl ⟨block, earlier, length, allBad⟩
  · rintro (⟨block, inside, length, allBad⟩ | long)
    · exact ⟨block, inside.trans (List.prefix_append _ _).isInfix, length, allBad⟩
    · exact hasBlock_of_le_streak long

theorem not_hasBlock_nil (positive : 1 ≤ n) : ¬ HasBlock bad n [] := by
  rintro ⟨block, inside, length, -⟩
  rw [List.infix_nil.mp inside] at length
  simp only [List.length_nil] at length
  omega

end Ratewall.Foundation
