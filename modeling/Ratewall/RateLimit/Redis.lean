import Ratewall.Rust.Text

/-! Owns the part of Redis that the limiter uses: counters with an optional
deadline, `INCR`, `EXPIRE` and the `MULTI`/`EXEC` of the two on one key. A moment
is a number of milliseconds since the Unix epoch, as Redis counts them. A counter
is gone once the moment is past its deadline; `INCR` keeps the deadline and fails
on the largest integer; `EXPIRE` fails when the deadline is not an integer any
more. The reply of the transaction is an error as soon as one of its commands
fails, and what the other one did stays. -/

namespace Ratewall.Redis

open Ratewall.Rust

/-- The largest signed integer of 64 bits. -/
def maxInteger : Nat := 9223372036854775807

structure Counter where
  value : Nat
  expireAt : Option Nat
deriving DecidableEq, Repr

abbrev Store := Text → Option Counter

def Store.empty : Store := fun _ => none

def Counter.live (now : Nat) (counter : Counter) : Bool :=
  counter.expireAt.all fun deadline => now ≤ deadline

/-- What a command finds. -/
def lookup (now : Nat) (entry : Option Counter) : Option Counter := entry.filter (Counter.live now)

/-- The count, or the error, and what is left under the key. -/
def incr (entry : Option Counter) : Option Nat × Option Counter :=
  match entry with
  | none => (some 1, some ⟨1, none⟩)
  | some counter =>
      if counter.value < maxInteger then
        (some (counter.value + 1), some { counter with value := counter.value + 1 })
      else (none, some counter)

/-- Whether the command succeeds, and what is left under the key. -/
def expire (now secs : Nat) (entry : Option Counter) : Bool × Option Counter :=
  if now + 1000 * secs ≤ maxInteger then
    (true, entry.map fun counter => { counter with expireAt := some (now + 1000 * secs) })
  else (false, entry)

/-- `MULTI`, `INCR`, `EXPIRE`, `EXEC`. -/
def transact (now secs : Nat) (entry : Option Counter) : Option Nat × Option Counter :=
  let incremented := incr (lookup now entry)
  let expiring := expire now secs incremented.2
  (if expiring.1 then incremented.1 else none, expiring.2)

/-- The deadline can be set. -/
def Sets (now secs : Nat) : Prop := now + 1000 * secs ≤ maxInteger

instance {now secs : Nat} : Decidable (Sets now secs) := inferInstanceAs (Decidable (_ ≤ _))

/-- The number of increments that a command still finds. -/
def tally (now : Nat) (entry : Option Counter) : Nat := (lookup now entry).elim 0 Counter.value

def Bounded (entry : Option Counter) : Prop := ∀ counter, entry = some counter → counter.value ≤ maxInteger

private theorem tally_le {now : Nat} {entry : Option Counter} (bounded : Bounded entry) :
    tally now entry ≤ maxInteger := by
  unfold tally lookup
  cases entry with
  | none => exact Nat.zero_le _
  | some counter =>
      have held := bounded counter rfl
      cases alive : counter.live now with
      | true => simpa [Option.filter, alive] using held
      | false => simp [Option.filter, alive]

/-- Everything the transaction does: it counts one more, up to the largest integer,
and moves the deadline when it can. Its reply is the count if both succeed. -/
theorem transact_eq {now secs : Nat} {entry : Option Counter} (bounded : Bounded entry) :
    transact now secs entry =
      (if Sets now secs ∧ tally now entry < maxInteger then some (tally now entry + 1) else none,
        some ⟨min (tally now entry + 1) maxInteger,
          if Sets now secs then some (now + 1000 * secs)
          else (lookup now entry).bind Counter.expireAt⟩) := by
  have most := @tally_le now entry bounded
  unfold transact Sets tally at *
  cases found : lookup now entry with
  | none =>
      have small : min 1 maxInteger = 1 := by decide
      by_cases sets : now + 1000 * secs ≤ maxInteger <;>
        simp [incr, expire, sets, small, show 0 < maxInteger by decide]
  | some counter =>
      rw [found] at most
      have held : counter.value ≤ maxInteger := most
      by_cases room : counter.value < maxInteger
      · have next : min (counter.value + 1) maxInteger = counter.value + 1 := by omega
        rw [Option.elim_some, next]
        by_cases sets : now + 1000 * secs ≤ maxInteger <;> simp [incr, expire, room, sets]
      · have full : min (counter.value + 1) maxInteger = counter.value := by omega
        by_cases sets : now + 1000 * secs ≤ maxInteger <;> simp [incr, expire, room, sets, full]

theorem Sets.earlier {before now secs : Nat} (sets : Sets now secs) (notLater : before ≤ now) :
    Sets before secs := by
  unfold Sets at sets ⊢
  omega

/-- Where deadlines can be set, the transaction leaves its own. -/
theorem deadline_of_transact {now secs : Nat} {entry : Option Counter} {counter : Counter}
    (sets : Sets now secs) (held : (transact now secs entry).2 = some counter) :
    counter.expireAt = some (now + 1000 * secs) := by
  have fits : now + 1000 * secs ≤ maxInteger := sets
  simp only [transact, expire, if_pos fits, Option.map_eq_some_iff] at held
  obtain ⟨incremented, -, rfl⟩ := held
  rfl

/-- Where they cannot, it makes no counter with one. -/
theorem lasting_of_transact {now secs : Nat} {entry : Option Counter}
    (unset : ¬ Sets now secs)
    (lasting : ∀ counter, entry = some counter → counter.expireAt = none) {counter : Counter}
    (held : (transact now secs entry).2 = some counter) : counter.expireAt = none := by
  have fails : ¬ now + 1000 * secs ≤ maxInteger := unset
  simp only [transact, expire, if_neg fails] at held
  cases found : lookup now entry with
  | none =>
      rw [found] at held
      obtain rfl := Option.some.inj held
      rfl
  | some old =>
      have kept := lasting old (Option.eq_some_of_filter_eq_some found)
      rw [found, incr] at held
      split at held
      next =>
        obtain rfl := Option.some.inj held
        exact kept
      next =>
        obtain rfl := Option.some.inj held
        exact kept

end Ratewall.Redis
