import Mathlib.Logic.Function.Basic
import Std.Data.TreeMap

/-! Owns tables of optional entries, indexed by the identifiers of calls or
threads, and what reading one entry says after another was filled or emptied. It
also owns ordered maps that are filled from a list, where a repeated key keeps
its last entry, and maps that are read with a default. -/

namespace Ratewall.Foundation

universe u v

variable {ι : Type u} {α : Type v} [DecidableEq ι]

theorem filled_cases {slots : ι → Option α} {id other : ι} {entry found : α}
    (at' : Function.update slots id (some entry) other = some found) :
    (other = id ∧ found = entry) ∨ (other ≠ id ∧ slots other = some found) := by
  by_cases same : other = id
  · subst same
    rw [Function.update_self] at at'
    exact Or.inl ⟨rfl, (Option.some.inj at').symm⟩
  · rw [Function.update_of_ne same] at at'
    exact Or.inr ⟨same, at'⟩

theorem emptied_cases {slots : ι → Option α} {id other : ι} {found : α}
    (at' : Function.update slots id none other = some found) :
    other ≠ id ∧ slots other = some found := by
  by_cases same : other = id
  · subst same
    rw [Function.update_self] at at'
    cases at'
  · rw [Function.update_of_ne same] at at'
    exact ⟨same, at'⟩

/-! ### Maps filled from a list -/

section

variable {κ α β : Type*} [Ord κ] [Std.TransOrd κ] [Std.LawfulEqOrd κ] {key : α → κ} {value : α → β}

theorem foldl_insert_cases {table : Std.TreeMap κ β} {entries : List α} {wanted : κ} {found : β}
    (at' : (entries.foldl (fun table entry => table.insert (key entry) (value entry)) table)[wanted]? =
      some found) :
    table[wanted]? = some found ∨ ∃ entry ∈ entries, key entry = wanted ∧ value entry = found := by
  induction entries generalizing table with
  | nil => exact Or.inl at'
  | cons entry rest inductionHypothesis =>
      rcases inductionHypothesis at' with inserted | ⟨later, member, same⟩
      · rw [Std.TreeMap.getElem?_insert] at inserted
        split at inserted
        next equal =>
          have same : key entry = wanted := Std.LawfulEqOrd.eq_of_compare equal
          exact Or.inr ⟨entry, List.mem_cons_self, same, Option.some.inj inserted⟩
        next => exact Or.inl inserted
      · exact Or.inr ⟨later, List.mem_cons_of_mem _ member, same⟩

theorem foldl_insert_mem_iff {table : Std.TreeMap κ β} {entries : List α} {wanted : κ} :
    wanted ∈ entries.foldl (fun table entry => table.insert (key entry) (value entry)) table ↔
      wanted ∈ table ∨ wanted ∈ entries.map key := by
  induction entries generalizing table with
  | nil => simp
  | cons entry rest inductionHypothesis =>
      rw [List.foldl_cons, inductionHypothesis, Std.TreeMap.mem_insert, Std.LawfulEqOrd.compare_eq_iff_eq]
      simp only [List.map_cons, List.mem_cons]
      constructor
      · rintro ((same | held) | later)
        · exact Or.inr (Or.inl same.symm)
        · exact Or.inl held
        · exact Or.inr (Or.inr later)
      · rintro (held | same | later)
        · exact Or.inl (Or.inr held)
        · exact Or.inl (Or.inl same.symm)
        · exact Or.inr later

end

/-! ### Entries with a default -/

section

variable {κ β : Type*} [Ord κ] [Std.TransOrd κ] [Std.LawfulEqOrd κ]

/-- Entering the default where nothing was changes no reading. -/
theorem getD_insertIfNew_default (table : Std.TreeMap κ β) (key wanted : κ) (fallback : β) :
    (table.insertIfNew key fallback).getD wanted fallback = table.getD wanted fallback := by
  rw [Std.TreeMap.getD_insertIfNew]
  split
  next new =>
    have same : key = wanted := Std.LawfulEqOrd.eq_of_compare new.1
    rw [← same, Std.TreeMap.getD_eq_fallback new.2]
  next => rfl

/-- An entry that is there is changed in place, and only that one. -/
theorem getD_modify_default [DecidableEq κ] (table : Std.TreeMap κ β) (key wanted : κ)
    (change : β → β) (fallback : β) :
    (table.modify key change).getD wanted fallback =
      if key = wanted ∧ key ∈ table then change (table.getD wanted fallback)
      else table.getD wanted fallback := by
  rw [Std.TreeMap.getD_modify]
  by_cases same : key = wanted
  · subst same
    rw [if_pos Std.ReflCmp.compare_self, Std.TreeMap.getD_eq_getD_getElem?]
    by_cases present : key ∈ table
    · rw [if_pos ⟨rfl, present⟩, Std.TreeMap.getElem?_eq_some_getElem present]
      rfl
    · rw [if_neg (fun both => present both.2), Std.TreeMap.getElem?_eq_none present]
      rfl
  · have different : compare key wanted ≠ .eq :=
      fun equal => same (Std.LawfulEqOrd.eq_of_compare equal)
    rw [if_neg different, if_neg (fun both => same both.1)]

end

end Ratewall.Foundation
