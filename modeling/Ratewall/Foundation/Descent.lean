import Mathlib.Data.List.Basic
import Mathlib.Data.List.DropRight

/-! Owns walks through a tree of names: a step stays, goes up a level or goes down to a
name, and nothing is above the root. What a list of steps does can be read off the list
alone: it climbs so many levels and then stands at the end of some names. From which
place it starts only decides what is left to climb out of. -/

namespace Ratewall.Foundation.Descent

universe u v

inductive Kind where
  | here
  | up
  | name
deriving DecidableEq, Repr

variable {α : Type u} (kind : α → Kind)

/-- The place is given by the names on the way down to it. -/
def step (place : List α) (next : α) : List α :=
  match kind next with
  | .here => place
  | .up => place.dropLast
  | .name => place ++ [next]

def walk (place : List α) (steps : List α) : List α := steps.foldl (step kind) place

/-- So many levels up, then down along these names. -/
structure Course (α : Type u) where
  up : Nat
  down : List α
deriving DecidableEq, Repr

def Course.extend (course : Course α) (next : α) : Course α :=
  match kind next with
  | .here => course
  | .up =>
      match course.down with
      | [] => ⟨course.up + 1, []⟩
      | _ :: _ => ⟨course.up, course.down.dropLast⟩
  | .name => ⟨course.up, course.down ++ [next]⟩

/-- The course of a list of steps, from wherever it starts. -/
def course (steps : List α) : Course α := steps.foldl (Course.extend kind) ⟨0, []⟩

def Course.from (course : Course α) (place : List α) : List α :=
  place.take (place.length - course.up) ++ course.down

variable {kind}

theorem step_from (place : List α) (course : Course α) (next : α) :
    step kind (course.from place) next = (course.extend kind next).from place := by
  unfold step Course.extend
  cases kind next with
  | here => rfl
  | up =>
      obtain ⟨up, down⟩ := course
      cases down with
      | nil =>
          have shorter : (place.take (place.length - up)).dropLast =
              place.take (place.length - (up + 1)) := by
            rw [List.dropLast_eq_take, List.take_take, List.length_take]
            congr 1
            omega
          simp only [Course.from, List.append_nil, shorter]
      | cons first rest =>
          simp only [Course.from]
          rw [List.dropLast_append_of_ne_nil (List.cons_ne_nil first rest)]
  | name => simp only [Course.from, List.append_assoc]

/-- A walk is its course, from where it starts. -/
theorem walk_eq_from (place steps : List α) :
    walk kind place steps = (course kind steps).from place := by
  have general : ∀ course : Course α,
      steps.foldl (step kind) (course.from place) =
        (steps.foldl (Course.extend kind) course).from place := by
    induction steps with
    | nil => exact fun _ => rfl
    | cons next rest ih =>
        intro course
        rw [List.foldl_cons, List.foldl_cons, step_from]
        exact ih (course.extend kind next)
  have start : (⟨0, []⟩ : Course α).from place = place := by
    simp [Course.from]
  have whole := general ⟨0, []⟩
  rw [start] at whole
  exact whole

theorem walk_append (place first second : List α) :
    walk kind place (first ++ second) = walk kind (walk kind place first) second :=
  List.foldl_append

/-- Steps that all go down are walked as they are. -/
theorem walk_of_names {place steps : List α} (names : ∀ next ∈ steps, kind next = .name) :
    walk kind place steps = place ++ steps := by
  induction steps generalizing place with
  | nil => exact (List.append_nil place).symm
  | cons next rest ih =>
      have down : step kind place next = place ++ [next] := by
        unfold step
        rw [names next List.mem_cons_self]
      show walk kind (step kind place next) rest = place ++ next :: rest
      rw [down, ih fun other member => names other (List.mem_cons_of_mem next member)]
      simp

/-- A text that spells out the names on the way: after a walk it begins with that of the
start exactly if what was climbed out of is spelled again by what follows. -/
theorem prefix_walk_iff {β : Type v} (spell : α → List β) (place steps : List α)
    (rest : List β) :
    place.flatMap spell <+: (walk kind place steps).flatMap spell ++ rest ↔
      (place.drop (place.length - (course kind steps).up)).flatMap spell <+:
        (course kind steps).down.flatMap spell ++ rest := by
  have split : place.flatMap spell =
      (place.take (place.length - (course kind steps).up)).flatMap spell ++
        (place.drop (place.length - (course kind steps).up)).flatMap spell := by
    rw [← List.flatMap_append, List.take_append_drop]
  rw [walk_eq_from, Course.from, List.flatMap_append, List.append_assoc]
  nth_rewrite 1 [split]
  exact List.prefix_append_right_inj _

end Ratewall.Foundation.Descent
