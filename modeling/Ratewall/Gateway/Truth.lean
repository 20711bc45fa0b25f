import Ratewall.Gateway.Readiness

/-! Owns what `readyz` says about admission. `readyz` takes every breaker that is
not open for a healthy one, `try_admit` turns requests away from a half-open one
as well. So the two agree except while some breaker is half open, none is open and
Redis answers: there `readyz` answers 200 and the next request to that prefix is
short-circuited. -/

namespace Ratewall.Gateway

open Ratewall.Rust
open Ratewall.Foundation
open Ratewall.Config
open Ratewall.Circuit
open Ratewall.Http
open Ratewall.Auth
open Ratewall.Router

section

variable (json : Json.Codec) {scheme : Ed25519} (state : ProxyState scheme)

/-- `readyz` answers 200 when all breakers are closed and Redis answers, and only
then, and no request is short-circuited in such a state. -/
structure Truthful (shared : Shared) : Prop where
  status : (readyz json state shared).status = .ok ↔
    (∀ pfx breaker, state.breakerFor pfx = some breaker →
      (shared.cells breaker.inner).state = .closed) ∧
    (state.limiter.isSome → shared.pong = true)
  admits : (readyz json state shared).status = .ok →
    ∀ pfx breaker id, state.breakerFor pfx = some breaker → (tryAdmit shared id breaker).1 = .call

/-- No breaker is half open, or something else makes the gateway unready. -/
def ProbesShow (shared : Shared) : Prop :=
  (∀ pfx breaker, state.breakerFor pfx = some breaker →
    (shared.cells breaker.inner).state ≠ .halfOpen) ∨
  (∃ pfx breaker, state.breakerFor pfx = some breaker ∧
    (shared.cells breaker.inner).state = .opened) ∨
  (state.limiter.isSome ∧ shared.pong = false)

end

section

variable {json : Json.Codec} {scheme : Ed25519} {state : ProxyState scheme} {shared : Shared}

private theorem closed_of_neither {cell : Cell} (notOpen : (shared.cells cell).state ≠ .opened)
    (notHalf : (shared.cells cell).state ≠ .halfOpen) : (shared.cells cell).state = .closed := by
  cases phase : (shared.cells cell).state with
  | closed => rfl
  | opened => exact absurd phase notOpen
  | halfOpen => exact absurd phase notHalf

private theorem tryAdmit_closed {breaker : CircuitBreaker}
    (closed : (shared.cells breaker.inner).state = .closed) (id : Nat) :
    (tryAdmit shared id breaker).1 = .call := by
  simp [tryAdmit, CircuitBreaker.tryAdmit, closed]

private theorem readyz_ok_iff :
    (readyz json state shared).status = .ok ↔
      (∀ pfx breaker, state.breakerFor pfx = some breaker →
        (shared.cells breaker.inner).state ≠ .opened) ∧
      (state.limiter.isSome → shared.pong = true) := by
  rw [readyz_status_iff, ready_iff]
  cases state.limiter <;> simp

/-- Where no half-open breaker is hidden, a 200 means that all are closed. -/
theorem ProbesShow.allClosed (shows : ProbesShow state shared)
    (answered : (readyz json state shared).status = .ok) {pfx : Text} {breaker : CircuitBreaker}
    (guarded : state.breakerFor pfx = some breaker) :
    (shared.cells breaker.inner).state = .closed := by
  obtain ⟨noneOpen, redis⟩ := readyz_ok_iff.mp answered
  rcases shows with noneHalf | ⟨other, second, known, isOpen⟩ | ⟨limited, silent⟩
  · exact closed_of_neither (noneOpen pfx breaker guarded) (noneHalf pfx breaker guarded)
  · exact absurd isOpen (noneOpen other second known)
  · rw [redis limited] at silent
    cases silent

end

/-- `readyz` tells the truth about admission exactly where no half-open breaker is
hidden: when none is half open, or when an open one or Redis makes the gateway
unready anyway. -/
theorem readyz_truthful_iff (json : Json.Codec) {scheme : Ed25519} (state : ProxyState scheme)
    (shared : Shared) : Truthful json state shared ↔ ProbesShow state shared := by
  constructor
  · intro truthful
    by_cases answered : (readyz json state shared).status = .ok
    · left
      intro pfx breaker guarded half
      have closed := (truthful.status.mp answered).1 pfx breaker guarded
      rw [half] at closed
      cases closed
    · right
      by_contra neither
      rw [not_or] at neither
      obtain ⟨noneOpen, redis⟩ := neither
      apply answered
      rw [readyz_ok_iff]
      constructor
      · intro pfx breaker guarded isOpen
        exact noneOpen ⟨pfx, breaker, guarded, isOpen⟩
      · intro limited
        by_contra silent
        exact redis ⟨limited, Bool.eq_false_iff.mpr silent⟩
  · intro shows
    refine ⟨⟨?_, ?_⟩, ?_⟩
    · intro answered
      exact ⟨fun pfx breaker guarded => shows.allClosed answered guarded,
        (readyz_ok_iff.mp answered).2⟩
    · rintro ⟨allClosed, redis⟩
      rw [readyz_ok_iff]
      refine ⟨?_, redis⟩
      intro pfx breaker guarded isOpen
      rw [allClosed pfx breaker guarded] at isOpen
      cases isOpen
    · intro answered pfx breaker id guarded
      exact tryAdmit_closed (shows.allClosed answered guarded) id

/-- While the second request probes the backend, `readyz` answers 200 and a third
request would be short-circuited. -/
theorem ready_while_probing :
    ¬ ∀ (json : Json.Codec) (urls : UrlCrate) (scheme : Ed25519) (state : ProxyState scheme)
      (start : Nat) (events : List Event) (gateway : Running),
      run (step json urls state) (init start) events = some gateway →
        Truthful json state gateway.shared := by
  intro always
  have claimed := always Json.Text.flatCodec plainUrls checksumScheme crmState 0
    (tripped ++ [.spawn crmRequest, .exec 1 (offers fun _ => .unanswered)]) _ rfl
  have answered := claimed.admits (readyz_status_iff.mpr rfl) "crm".toList crmBreaker 2 rfl
  cases answered

end Ratewall.Gateway
