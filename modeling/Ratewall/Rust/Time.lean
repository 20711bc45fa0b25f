import Mathlib.Data.Nat.Basic
import Mathlib.Data.UInt

/-! Owns the clock types of the standard library that the gateway computes
with: `std::time::Duration`, moments of the monotonic clock, and the saturating
addition of two `u64`. The order of two durations is the order of their
`asNanos`. -/

namespace Ratewall.Rust

structure Duration where
  secs : UInt64
  subsecNanos : Fin 1000000000
deriving DecidableEq, Repr

namespace Duration

def fromSecs (secs : UInt64) : Duration := ⟨secs, 0⟩

def asSecs (duration : Duration) : UInt64 := duration.secs

def asNanos (duration : Duration) : Nat :=
  1000000000 * duration.secs.toNat + duration.subsecNanos.val

end Duration

/-- `Instant::elapsed` of `earlier`, read at `now`. Moments of the monotonic
clock are nanoseconds since some fixed origin; the difference saturates at
zero. -/
def elapsed (now earlier : Nat) : Nat := now - earlier

def saturatingAdd (left right : UInt64) : UInt64 :=
  if left.toNat + right.toNat < UInt64.size then left + right
  else UInt64.ofNat (UInt64.size - 1)

theorem saturatingAdd_toNat (left right : UInt64) :
    (saturatingAdd left right).toNat = min (left.toNat + right.toNat) (UInt64.size - 1) := by
  unfold saturatingAdd
  split
  next fits =>
    rw [UInt64.toNat_add, Nat.mod_eq_of_lt fits]
    omega
  next overflows =>
    have top : (UInt64.ofNat (UInt64.size - 1)).toNat = UInt64.size - 1 := by decide
    rw [top]
    omega

end Ratewall.Rust
