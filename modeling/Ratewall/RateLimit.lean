import Ratewall.Rust.Text
import Ratewall.Rust.Time

/-! Owns what the request path sees of `ratelimit.rs`: the limiter's settings,
the outcome of a check, and the key under which a request is counted. -/

namespace Ratewall.RateLimit

open Ratewall.Rust

inductive Decision where
  | allow
  | limit (retryAfter : UInt64)
  | opened
deriving DecidableEq, Repr

/-- The settings of a limiter. Its counters live in Redis. -/
structure RateLimiter where
  limit : UInt32
  window : Duration
  keyPrefix : Text
deriving DecidableEq, Repr

/-- `RateLimiter::connect`. Whether a pool can be made of the URL is up to the pool,
with the message `format!` makes of a refusal. The pool connects lazily. -/
def RateLimiter.connect (createPool : Text → Except Text Unit) (redisUrl : Text) (limit : UInt32)
    (window : Duration) (keyPrefix : Option Text) : Except Text RateLimiter :=
  match createPool redisUrl with
  | .error message => .error message
  | .ok () => .ok ⟨limit, window, keyPrefix.getD []⟩

def limitKey (subject : Option Text) (clientIp : Text) : Text :=
  match subject with
  | some subject => "sub:".toList ++ subject
  | none => "ip:".toList ++ clientIp

end Ratewall.RateLimit
