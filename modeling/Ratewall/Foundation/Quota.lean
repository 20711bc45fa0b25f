import Mathlib.Data.List.Basic
import Mathlib.Data.List.Induction

/-! Owns counts over a log of events. A narrow count reaches a wide one when nothing
falls in between. When every grant finds fewer than `quota` charges before it, and
is one itself, there are at most `quota` grants; and as many seconds in a row as a
window is long lie in at most two windows. -/

namespace Ratewall.Foundation

variable {α : Type*}

theorem countP_eq_iff {narrow wide : α → Bool} {log : List α}
    (implies : ∀ event ∈ log, narrow event = true → wide event = true) :
    log.countP narrow = log.countP wide ↔
      ∀ event ∈ log, wide event = true → narrow event = true := by
  induction log with
  | nil => simp
  | cons event log inductionHypothesis =>
      have laterImplies : ∀ other ∈ log, narrow other = true → wide other = true :=
        fun other member => implies other (List.mem_cons_of_mem _ member)
      have tail := inductionHypothesis laterImplies
      have most : log.countP narrow ≤ log.countP wide := List.countP_mono_left laterImplies
      have here := implies event List.mem_cons_self
      rw [List.countP_cons, List.countP_cons, List.forall_mem_cons, ← tail]
      cases narrows : narrow event with
      | true =>
          rw [here narrows]
          simp
      | false =>
          cases widens : wide event with
          | true =>
              simp only [Bool.false_eq_true, if_false, if_true, true_implies, false_and, iff_false]
              omega
          | false => simp

/-- Grants that are only given below the quota are no more than the quota. -/
theorem countP_le_quota {granted : α → Bool} (charged : α → Bool) {quota : Nat} {log : List α}
    (charges : ∀ event ∈ log, granted event = true → charged event = true)
    (fewer : ∀ earlier event later, log = earlier ++ event :: later → granted event = true →
      earlier.countP charged < quota) : log.countP granted ≤ quota := by
  induction log using List.reverseRecOn with
  | nil => exact Nat.zero_le _
  | append_singleton log event inductionHypothesis =>
      have before : log.countP granted ≤ quota := by
        apply inductionHypothesis
        · intro other member
          exact charges other (List.mem_append_left _ member)
        · intro earlier other later split
          exact fewer earlier other (later ++ [event]) (by rw [split]; simp)
      rw [List.countP_append, List.countP_singleton]
      split
      next grants =>
        have most : log.countP granted ≤ log.countP charged :=
          List.countP_mono_left fun other member =>
            charges other (List.mem_append_left _ member)
        have room : log.countP charged < quota := fewer log event [] (by simp) grants
        omega
      next => exact before

/-- A span of one width meets two windows at most. -/
theorem window_of_mem_span {width first second : Nat} (atLeast : first ≤ second)
    (below : second < first + width) :
    second / width = first / width ∨ second / width = first / width + 1 := by
  have positive : 0 < width := by omega
  have lower : first / width ≤ second / width := Nat.div_le_div_right atLeast
  have upper : second / width ≤ (first + width) / width := Nat.div_le_div_right (by omega)
  rw [Nat.add_div_right first positive] at upper
  omega

theorem countP_le_add {covered left right : α → Bool}
    (covers : ∀ event, covered event = true → left event = true ∨ right event = true)
    (log : List α) : log.countP covered ≤ log.countP left + log.countP right := by
  induction log with
  | nil => exact Nat.zero_le _
  | cons event rest inductionHypothesis =>
      simp only [List.countP_cons]
      by_cases inside : covered event = true
      · rcases covers event inside with here | here
        · simp only [inside, here, if_true]
          omega
        · simp only [inside, here, if_true]
          omega
      · rw [if_neg inside]
        omega

/-- The events of a span are among those of two windows. -/
theorem countP_span_le {granted : α → Bool} {moment : α → Nat} {width quota : Nat} {log : List α}
    (each : ∀ window, log.countP (fun event => granted event && moment event / width == window) ≤
      quota) (first : Nat) :
    log.countP (fun event => granted event &&
      (decide (first ≤ moment event) && decide (moment event < first + width))) ≤ 2 * quota := by
  have covered := @countP_le_add _
    (fun event => granted event &&
      (decide (first ≤ moment event) && decide (moment event < first + width)))
    (fun event => granted event && moment event / width == first / width)
    (fun event => granted event && moment event / width == first / width + 1) (by
      intro event inside
      simp only [Bool.and_eq_true, decide_eq_true_eq] at inside
      rcases window_of_mem_span inside.2.1 inside.2.2 with same | next
      · simp [inside.1, same]
      · simp [inside.1, next]) log
  have one := each (first / width)
  have two := each (first / width + 1)
  omega

end Ratewall.Foundation
