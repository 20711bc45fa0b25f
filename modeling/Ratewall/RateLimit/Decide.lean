import Ratewall.Foundation.Program
import Ratewall.RateLimit
import Ratewall.RateLimit.Redis

/-! Owns `RateLimiter::decide` of `ratelimit.rs`: the Redis key of a caller in a
window, and the check as a program over the clock, the connection pool and Redis.
The clock is read before the connection is taken, so the window that the key
names can be over by the time that Redis executes the transaction. -/

namespace Ratewall.RateLimit

open Ratewall.Rust
open Ratewall.Foundation
open Ratewall.Foundation.Program

namespace RateLimiter

variable (limiter : RateLimiter)

/-- `self.window.as_secs().max(1)`. -/
def windowSecs : UInt64 := if 1 ≤ limiter.window.asSecs then limiter.window.asSecs else 1

/-- The number of the window that the clock is in. `none` is a clock that stands
before the epoch; otherwise the reading is in milliseconds. -/
def windowKeySuffix (systemTime : Option Nat) : Nat :=
  systemTime.elim 0 fun now => now / 1000 / limiter.windowSecs.toNat

def windowKey (key : Text) (suffix : Nat) : Text :=
  "rl".toList ++ limiter.keyPrefix ++ ':' :: key ++ ':' :: decimal suffix

end RateLimiter

inductive CounterOp where
  | systemTime
  | connect
  | transact (key : Text) (secs : UInt64)
deriving DecidableEq, Repr

/-- What the caller of a transaction hears: the count, or an error. The error does
not tell whether Redis executed the transaction; the flag is history. -/
inductive Reply where
  | count (value : Nat)
  | failed (executed : Bool)
deriving DecidableEq, Repr

@[reducible] def CounterAnswer : CounterOp → Type
  | .systemTime => Option Nat
  | .connect => Bool
  | .transact _ _ => Reply

namespace RateLimiter

def decision (limiter : RateLimiter) : Reply → Decision
  | .count value =>
      if limiter.limit.toNat < value then .limit limiter.windowSecs else .allow
  | .failed _ => .opened

def decide (limiter : RateLimiter) (key : Text) : Program CounterOp CounterAnswer Decision := do
  let now ← perform .systemTime
  let windowKey := limiter.windowKey key (limiter.windowKeySuffix now)
  let connected ← perform .connect
  if connected then do
    let reply ← perform (.transact windowKey limiter.windowSecs)
    pure (limiter.decision reply)
  else pure .opened

theorem windowSecs_pos (limiter : RateLimiter) : 0 < limiter.windowSecs.toNat := by
  unfold windowSecs
  split
  next atLeast => exact UInt64.le_iff_toNat_le.mp atLeast
  next => decide

/-- Two keys are one when caller and window are. -/
theorem windowKey_inj (limiter : RateLimiter) {left right : Text} {first second : Nat} :
    limiter.windowKey left first = limiter.windowKey right second ↔
      left = right ∧ first = second := by
  unfold windowKey
  rw [append_cons_inj (not_mem_decimal (by decide) first) (not_mem_decimal (by decide) second),
    decimal_injective.eq_iff]
  simp

end RateLimiter

/-- Two subjects have one limit key when they are one. -/
theorem limitKey_subject_inj {left right leftIp rightIp : Text} :
    limitKey (some left) leftIp = limitKey (some right) rightIp ↔ left = right := by
  simp [limitKey]

end Ratewall.RateLimit
