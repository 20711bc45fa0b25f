import Mathlib.Algebra.Group.Action.Defs
import Ratewall.Foundation.Tally
import Ratewall.Gateway.Labels
import Ratewall.Gateway.Tallies

/-! Owns what the registry says about the requests, at every point of every run:
each atomic holds what all threads have added to it, and no increment is lost. A
scrape that has taken the lock of the status totals freezes them: a request that is
counted there was counted as a request before, and one that shows in the count of
its histogram had passed that lock before. -/

namespace Ratewall.Gateway

open Ratewall.Rust
open Ratewall.Foundation
open Ratewall.Foundation.Program
open Ratewall.Circuit
open Ratewall.Http
open Ratewall.Auth
open Ratewall.RateLimit
open Ratewall.Metrics
open Ratewall.Router

/-! ### What a scrape has frozen -/

/-- The sum over the classes of a prefix. -/
def responsesIn (keys : List Text) (value : Text → Nat) (pfx : Text) : Nat :=
  ((keys.filter fun key => (responseLabels key).2 = pfx).map value).sum

/-- A scrape has frozen the status totals: up to their release they stay as they
were, and what it has loaded stands to them as it should. -/
def Frozen (registry : Registry) (keys : Keys) (visit : Visit) : Prop :=
  ∃ frozen : Std.TreeMap Text Nat, keys.statusTotals = frozen.keys ∧
    (.statusTotals ∈ visit.held → registry.statusTotals = frozen) ∧
    (∀ pfx, responsesIn frozen.keys (frozen.getD · 0) pfx ≠ 0 → pfx ∈ keys.perPrefix) ∧
    (∀ pfx value, visit.values (.atomic (.counter .requests pfx)) = some value →
      responsesIn frozen.keys (frozen.getD · 0) pfx ≤ value) ∧
    (∀ key value, visit.values (.atomic (.responses key)) = some value → value = frozen.getD key 0) ∧
    (∀ pfx value, visit.values (.atomic (.count pfx)) = some value →
      value ≤ responsesIn frozen.keys (frozen.getD · 0) pfx)

private theorem Frozen.frame {registry registry' : Registry} {keys : Keys} {visit visit' : Visit}
    (frozen : Frozen registry keys visit) (values : visit'.values = visit.values)
    (locked : .statusTotals ∈ visit'.held →
      .statusTotals ∈ visit.held ∧ registry'.statusTotals = registry.statusTotals) :
    Frozen registry' keys visit' := by
  obtain ⟨totals, sameKeys, unchanged, known, requests, responses, count⟩ := frozen
  refine ⟨totals, sameKeys, ?_, known, ?_, ?_, ?_⟩
  · intro holds
    obtain ⟨held, same⟩ := locked holds
    rw [same, unchanged held]
  · rw [values]
    exact requests
  · rw [values]
    exact responses
  · rw [values]
    exact count

/-- Only under the lock of the status totals do they change. -/
theorem statusTotals_onRegistry {registry : Registry} {visit : Visit} {access : Access}
    (fit : visit.Fits access) :
    (access.onRegistry registry).statusTotals = registry.statusTotals ∨
      .statusTotals ∈ visit.held ∧ visit.keys = none := by
  cases access with
  | action action =>
      cases action with
      | registry op =>
          cases op with
          | countStatus key => exact Or.inr ⟨fit.2.1, fit.1⟩
          | _ => exact Or.inl rfl
      | _ => exact Or.inl rfl
  | _ => exact Or.inl rfl

section

variable {json : Json.Codec} {urls : UrlCrate} {seconds : Nat → Text} {scheme : Ed25519}
  {state : ProxyState scheme} {metrics : Router.Metrics} {before after hall : Hall}
  {event : HallEvent}

/-- What is known at every point of every run. -/
structure Balanced (json : Json.Codec) (urls : UrlCrate) (seconds : Nat → Text) {scheme : Ed25519}
    (state : ProxyState scheme) (hall : Hall) : Prop where
  fresh : hall.Fresh
  visits : hall.Threads fun visit job => visit.Tallied ∧ Mannered seconds visit job
  owned : Pool.Owned (lockedLocking json urls seconds state) hall
  shaped : hall.shared.registry.Shaped
  entered : ∀ id thread, hall.threads id = some thread → thread.note.Entered hall.shared.registry
  conserved : ∀ atomic, hall.shared.registry.value atomic = hall.tally fun visit => visit.added atomic
  frozen : ∀ id thread, hall.threads id = some thread → ∀ keys, thread.note.keys = some keys →
    Frozen hall.shared.registry keys thread.note

theorem balanced_init (instant millis : Nat) :
    Balanced json urls seconds state (Pool.init (LockedWorld.init instant millis)) where
  fresh := Pool.fresh_init _
  visits := Pool.threads_init _ _
  owned := Pool.owned_init _
  shaped := shaped_empty
  entered := by
    intro id thread found
    cases found
  conserved := by
    intro atomic
    rw [Pool.tally_init]
    exact value_empty atomic
  frozen := by
    intro id thread found
    cases found

/-- A visit has added one to the key that it counted its status under. -/
theorem sum_statusKey {keys : List Text} (distinct : keys.Nodup) {visit : Visit}
    (tallied : visit.Tallied) (known : ∀ key, visit.statusKey = some key → key ∈ keys) (pfx : Text) :
    responsesIn keys (fun key => visit.added (.responses key)) pfx =
      if visit.pfx = pfx ∧ 4 ≤ visit.stage.rank then 1 else 0 := by
  unfold responsesIn
  simp only [tallied.responses]
  have classed := tallied.classed
  cases counted : visit.statusKey with
  | none =>
      rw [counted] at classed
      have early : ¬ 4 ≤ visit.stage.rank := fun late => by simpa using classed.mpr late
      simp [early]
  | some key =>
      rw [counted] at classed
      have late : 4 ≤ visit.stage.rank := classed.mp rfl
      have single := List.sum_map_eq_nsmul_single key
        (fun other => if some key = some other then 1 else 0)
        (l := keys.filter fun key => (responseLabels key).2 = pfx)
        (fun other different _ => if_neg fun same => different (Option.some.inj same).symm)
      rw [single, if_pos rfl, smul_eq_mul, Nat.mul_one, ← tallied.labelled key counted]
      by_cases own : (responseLabels key).2 = pfx
      · have listed : key ∈ keys.filter fun key => (responseLabels key).2 = pfx :=
          List.mem_filter.mpr ⟨known key counted, decide_eq_true own⟩
        rw [if_pos ⟨own, late⟩]
        exact @List.count_eq_one_of_mem _ instBEqOfDecidableEq _ _ _ (distinct.filter _) listed
      · have unlisted : key ∉ keys.filter fun key => (responseLabels key).2 = pfx :=
          fun listed => own (of_decide_eq_true (List.mem_filter.mp listed).2)
        rw [if_neg (fun both => own both.1)]
        exact @List.count_eq_zero_of_not_mem _ instBEqOfDecidableEq _ _ _ unlisted

/-- The status totals of a prefix are the number of requests that were counted there. -/
theorem responsesIn_eq_tally (balanced : Balanced json urls seconds state hall) (pfx : Text) :
    responsesIn hall.shared.registry.statusTotals.keys
        (fun key => hall.shared.registry.value (.responses key)) pfx =
      hall.tally fun visit => if visit.pfx = pfx ∧ 4 ≤ visit.stage.rank then 1 else 0 := by
  have total := @Pool.tally_sum _ _ _ _ _ hall _
    (hall.shared.registry.statusTotals.keys.filter fun key => (responseLabels key).2 = pfx)
    fun key visit => visit.added (.responses key)
  simp only [responsesIn, balanced.conserved, ← total]
  apply Pool.tally_congr
  intro id thread found
  have known : ∀ key, thread.note.statusKey = some key →
      key ∈ hall.shared.registry.statusTotals.keys :=
    fun key counted => Std.TreeMap.mem_keys.mpr ((balanced.entered id thread found).classed key counted)
  exact sum_statusKey Std.TreeMap.nodup_keys (balanced.visits id thread found).1 known pfx

private theorem requests_eq_tally (balanced : Balanced json urls seconds state hall) (pfx : Text) :
    hall.shared.registry.value (.counter .requests pfx) =
      hall.tally fun visit => if visit.pfx = pfx ∧ 3 ≤ visit.stage.rank then 1 else 0 := by
  rw [balanced.conserved]
  apply Pool.tally_congr
  intro id thread found
  exact (balanced.visits id thread found).1.requests pfx

private theorem count_eq_tally (balanced : Balanced json urls seconds state hall) (pfx : Text) :
    hall.shared.registry.value (.count pfx) =
      hall.tally fun visit => if visit.pfx = pfx ∧ 6 ≤ visit.stage.rank then 1 else 0 := by
  rw [balanced.conserved]
  apply Pool.tally_congr
  intro id thread found
  exact (balanced.visits id thread found).1.count pfx

/-- At every point, whoever is counted at a later stage is counted at an earlier one. -/
theorem tally_rank_le (hall : Hall) (pfx : Text) {early late : Nat} (order : early ≤ late) :
    (hall.tally fun visit => if visit.pfx = pfx ∧ late ≤ visit.stage.rank then 1 else 0) ≤
      hall.tally fun visit => if visit.pfx = pfx ∧ early ≤ visit.stage.rank then 1 else 0 := by
  apply Pool.tally_le_tally
  intro id thread _
  by_cases isLate : thread.note.pfx = pfx ∧ late ≤ thread.note.stage.rank
  · rw [if_pos isLate, if_pos ⟨isLate.1, by omega⟩]
  · rw [if_neg isLate]
    exact Nat.zero_le _

/-- What a scrape finds when it looks at the keys. -/
theorem frozen_keys (balanced : Balanced json urls seconds state hall) {visit : Visit}
    (unseen : ∀ series, visit.values series = none) :
    Frozen hall.shared.registry hall.shared.registry.keys visit := by
  refine ⟨hall.shared.registry.statusTotals, rfl, fun _ => rfl, ?_, ?_, ?_, ?_⟩
  · intro pfx some'
    have counted := responsesIn_eq_tally balanced pfx
    obtain ⟨id, thread, found, weighs⟩ := Pool.exists_of_tally_ne_zero (counted ▸ some')
    have own : thread.note.pfx = pfx ∧ 4 ≤ thread.note.stage.rank := by
      by_contra other
      exact weighs (if_neg other)
    rw [← own.1]
    exact Std.TreeMap.mem_keys.mpr ((balanced.entered id thread found).listed (by omega))
  · intro pfx value found
    rw [unseen] at found
    cases found
  · intro pfx value found
    rw [unseen] at found
    cases found
  · intro pfx value found
    rw [unseen] at found
    cases found

/-- What a scrape loads stands to the frozen totals as it should. -/
theorem frozen_load (balanced : Balanced json urls seconds state hall) {visit : Visit} {keys : Keys}
    (frozen : Frozen hall.shared.registry keys visit) (locked : .statusTotals ∈ visit.held)
    (series : Series) :
    Frozen hall.shared.registry keys
      (visit.observe (.render (.load series)) (hall.shared.registry.read series)) := by
  obtain ⟨totals, sameKeys, unchanged, known, requests, responses, count⟩ := frozen
  have now := unchanged locked
  have current : ∀ pfx, responsesIn totals.keys (totals.getD · 0) pfx =
      hall.tally fun visit => if visit.pfx = pfx ∧ 4 ≤ visit.stage.rank then 1 else 0 := by
    intro pfx
    rw [← now]
    exact responsesIn_eq_tally balanced pfx
  have loaded : ∀ {other value}, (Function.update visit.values series
      (some (hall.shared.registry.read series))) other = some value →
      (other = series ∧ value = hall.shared.registry.read series) ∨ visit.values other = some value := by
    intro other value found
    rcases filled_cases found with here | ⟨-, before⟩
    · exact Or.inl here
    · exact Or.inr before
  refine ⟨totals, sameKeys, unchanged, known, ?_, ?_, ?_⟩
  · intro pfx value found
    rcases loaded found with ⟨rfl, rfl⟩ | before
    · rw [current]
      show _ ≤ hall.shared.registry.value (.counter .requests pfx)
      rw [requests_eq_tally balanced]
      exact tally_rank_le hall pfx (by omega)
    · exact requests pfx value before
  · intro key value found
    rcases loaded found with ⟨rfl, rfl⟩ | before
    · rw [← now]
      rfl
    · exact responses key value before
  · intro pfx value found
    rcases loaded found with ⟨rfl, rfl⟩ | before
    · rw [current]
      show hall.shared.registry.value (.count pfx) ≤ _
      rw [count_eq_tally balanced]
      exact tally_rank_le hall pfx (by omega)
    · exact count pfx value before

/-- What the next access of a thread fits. -/
theorem fits_next (balanced : Balanced json urls seconds state hall) {id : Nat} {visit : Visit}
    {access : Access} {next : Granted access → Job Response}
    (found : hall.threads id = some ⟨visit, .call access next⟩) : visit.Fits access :=
  (conforms_call.mp (balanced.visits id _ found).2).1

private theorem visits_step (measured : state.metrics = some metrics)
    (balanced : Balanced json urls seconds state before)
    (stepped : lockedStep json urls seconds state before event = some after) :
    after.Threads fun visit job => visit.Tallied ∧ Mannered seconds visit job := by
  apply Pool.threads_step _ _ balanced.visits (Pool.step_of_lockStep stepped)
  · intro arrival _
    refine ⟨tallied_start arrival, ?_⟩
    cases arrival with
    | request request => exact mannered_request json measured
    | scrape => exact mannered_scrape measured
  · rintro visit access next ⟨tallied, mannered⟩ answer
    obtain ⟨fit, rest⟩ := conforms_call.mp mannered
    exact ⟨tallied_observe tallied fit answer, rest answer⟩

private theorem proper_next (balanced : Balanced json urls seconds state hall) :
    ∀ id visit access next, hall.threads id = some ⟨visit, .call access next⟩ →
      (lockUse access).Proper visit.held := by
  intro id visit access next found
  have fit := fits_next balanced found
  cases access with
  | acquire lock => exact fit.1
  | release lock => exact fit
  | _ => exact trivial

/-- The thread that moves keeps what it has frozen. -/
theorem frozen_observe (balanced : Balanced json urls seconds state hall) {visit : Visit}
    {access : Access} (fit : visit.Fits access)
    (frozen : ∀ keys, visit.keys = some keys → Frozen hall.shared.registry keys visit) (id : Nat)
    (offer : Granted access) {keys : Keys}
    (read : (visit.observe access (hall.shared.act id access offer).1).keys = some keys) :
    Frozen (access.onRegistry hall.shared.registry) keys
      (visit.observe access (hall.shared.act id access offer).1) := by
  cases access with
  | action action =>
      cases action with
      | registry op =>
          have none' : visit.keys = some keys := (Visit.advance_keys visit op _).symm.trans read
          rw [fit.1] at none'
          cases none'
      | redis op => exact frozen keys read
      | handler op => cases op <;> exact frozen keys read
  | acquire lock =>
      have unread : visit.keys = none := fit.2
      rw [show visit.keys = some keys from read] at unread
      cases unread
  | release lock =>
      refine (frozen keys read).frame rfl ?_
      intro holds
      exact ⟨(List.mem_filter.mp holds).1, rfl⟩
  | breakerState breaker => exact frozen keys read
  | setBreakerState pfx state =>
      refine (frozen keys read).frame rfl ?_
      intro holds
      exact ⟨holds, rfl⟩
  | render op =>
      cases op with
      | keys =>
          cases read
          exact frozen_keys balanced fit.2.2
      | load series => exact frozen_load balanced (frozen keys read) (fit.1 .statusTotals) series

theorem registry_pass (hall : LockedWorld) (passage : Passage) :
    (hall.pass passage).registry = hall.registry := by
  cases passage <;> rfl

/-- Every step adds to an atomic what it adds to the account of its thread. -/
theorem conserved_atomic (balanced : Balanced json urls seconds state before)
    (stepped : lockedStep json urls seconds state before event = some after) (atomic : Atomic) :
    after.shared.registry.value atomic = after.tally fun visit => visit.added atomic := by
  have acts : ∀ id visit access next offer,
      before.threads id = some ⟨visit, .call access next⟩ →
      (before.shared.act id access offer).2.registry.value atomic =
        before.shared.registry.value atomic + access.adds atomic := by
    intro id visit access next offer found
    rw [registry_act]
    exact value_onRegistry balanced.shaped (balanced.entered id _ found) (fits_next balanced found) atomic
  have ambient : ∀ passage, (before.shared.pass passage).registry.value atomic =
      before.shared.registry.value atomic := by
    intro passage
    rw [registry_pass]
  exact Pool.conserved_step (fun hall : LockedWorld => hall.registry.value atomic) balanced.fresh
    (fun _ => rfl) (fun visit access answer => added_observe visit access answer atomic) acts ambient
    (balanced.conserved atomic) stepped

/-- Every step keeps the balance of numbers and visits. -/
theorem balanced_step (measured : state.metrics = some metrics)
    (balanced : Balanced json urls seconds state before)
    (stepped : lockedStep json urls seconds state before event = some after) :
    Balanced json urls seconds state after := by
  have visits := visits_step measured balanced stepped
  have owned := Pool.owned_step (proper_next balanced) balanced.owned stepped
  have fresh := Pool.fresh_step balanced.fresh (Pool.step_of_lockStep stepped)
  have conserved := conserved_atomic balanced stepped
  rcases Pool.lockStep_cases stepped with ⟨arrival, -, rfl⟩ |
    ⟨id, offer, visit, access, next, -, found, -, rfl⟩ | ⟨passage, -, rfl⟩
  · refine ⟨fresh, visits, owned, balanced.shaped, ?_, conserved, ?_⟩
    · intro id thread found
      rcases filled_cases found with ⟨-, rfl⟩ | ⟨-, held⟩
      · exact entered_start _ arrival
      · exact balanced.entered id thread held
    · intro id thread found keys read
      rcases filled_cases found with ⟨-, rfl⟩ | ⟨-, held⟩
      · cases read
      · exact balanced.frozen id thread held keys read
  · have fit := fits_next balanced found
    have registry := registry_act before.shared id access (offer access)
    have entered := balanced.entered id _ found
    refine ⟨fresh, visits, owned, ?_, ?_, conserved, ?_⟩
    · show (before.shared.act id access (offer access)).2.registry.Shaped
      rw [registry]
      exact shaped_onRegistry balanced.shaped access
    · intro other thread found'
      show thread.note.Entered (before.shared.act id access (offer access)).2.registry
      rw [registry]
      rcases filled_cases found' with ⟨-, rfl⟩ | ⟨-, held⟩
      · exact entered_observe entered fit _
      · exact Entered.onRegistry (balanced.entered other thread held) access
    · intro other thread found' keys read
      show Frozen (before.shared.act id access (offer access)).2.registry keys thread.note
      rw [registry]
      rcases filled_cases found' with ⟨-, rfl⟩ | ⟨different, held⟩
      · exact frozen_observe balanced fit (fun keys read => balanced.frozen id _ found keys read) id
          (offer access) read
      · refine (balanced.frozen other thread held keys read).frame rfl ?_
        intro holds
        rcases statusTotals_onRegistry fit with same | ⟨mine, -⟩
        · exact ⟨holds, same⟩
        · exact absurd (balanced.owned.exclusive held found holds mine) different
  · have registry := registry_pass before.shared passage
    refine ⟨fresh, visits, owned, ?_, ?_, conserved, ?_⟩
    · show (before.shared.pass passage).registry.Shaped
      rw [registry]
      exact balanced.shaped
    · intro id thread found
      show thread.note.Entered (before.shared.pass passage).registry
      rw [registry]
      exact balanced.entered id thread found
    · intro id thread found keys read
      show Frozen (before.shared.pass passage).registry keys thread.note
      rw [registry]
      exact balanced.frozen id thread found keys read

/-- So the balance holds in every state that a run reaches. -/
theorem balanced_run (measured : state.metrics = some metrics) {instant millis : Nat}
    {events : List HallEvent} {final : Hall}
    (ran : run (lockedStep json urls seconds state) (Pool.init (LockedWorld.init instant millis))
      events = some final) : Balanced json urls seconds state final :=
  run_invariant (fun balanced stepped => balanced_step measured balanced stepped)
    (balanced_init instant millis) ran

end

/-! ### What a scrape shows -/

namespace Visit

/-- The requests of a prefix, as the scrape shows them. -/
def requestsShown (visit : Visit) (pfx : Text) : Nat :=
  visit.shown (.atomic (.counter .requests pfx))

/-- The responses of a prefix, over all classes. -/
def responsesShown (visit : Visit) (keys : Keys) (pfx : Text) : Nat :=
  responsesIn keys.statusTotals (fun key => visit.shown (.atomic (.responses key))) pfx

/-- The `_count` of the histogram of a prefix. -/
def durationsShown (visit : Visit) (pfx : Text) : Nat := visit.shown (.atomic (.count pfx))

end Visit

private theorem shown_ordered {registry : Registry} {keys : Keys} {visit : Visit}
    (frozen : Frozen registry keys visit)
    (loaded : ∀ series, (visit.values series).isSome ↔ series ∈ seriesOf keys) (pfx : Text) :
    visit.responsesShown keys pfx ≤ visit.requestsShown pfx ∧
      visit.durationsShown pfx ≤ visit.responsesShown keys pfx := by
  obtain ⟨totals, sameKeys, -, known, requests, responses, count⟩ := frozen
  have total : visit.responsesShown keys pfx = responsesIn totals.keys (totals.getD · 0) pfx := by
    unfold Visit.responsesShown responsesIn
    rw [← sameKeys]
    congr 1
    apply List.map_congr_left
    intro key member
    have shown : Series.atomic (.responses key) ∈ seriesOf keys :=
      mem_seriesOf_iff.mpr (Or.inr (Or.inl ⟨key, (List.mem_filter.mp member).1, rfl⟩))
    obtain ⟨value, found⟩ := Option.isSome_iff_exists.mp ((loaded _).mpr shown)
    rw [Visit.shown, found, Option.getD_some]
    exact responses key value found
  rw [total]
  refine ⟨?_, ?_⟩
  · by_cases listed : pfx ∈ keys.perPrefix
    · have shown : Series.atomic (.counter .requests pfx) ∈ seriesOf keys :=
        mem_seriesOf_iff.mpr (Or.inl ⟨.requests, pfx, mem_prefixes.mpr (Or.inl listed), rfl⟩)
      obtain ⟨value, found⟩ := Option.isSome_iff_exists.mp ((loaded _).mpr shown)
      rw [Visit.requestsShown, Visit.shown, found]
      exact requests pfx value found
    · -- A prefix without counters has no responses either.
      have none' : responsesIn totals.keys (totals.getD · 0) pfx = 0 := by
        by_contra some'
        exact listed (known pfx some')
      rw [none']
      exact Nat.zero_le _
  · unfold Visit.durationsShown Visit.shown
    cases found : visit.values (.atomic (.count pfx)) with
    | none => exact Nat.zero_le _
    | some value => exact count pfx value found

/-- The requests to a prefix on which `send` was called: those that came to
`start_request`, which stands right before it. -/
def sentTo (hall : Hall) (pfx : Text) : Nat :=
  hall.tally fun visit => if visit.pfx = pfx ∧ visit.stage ≠ .waiting then 1 else 0

/-- No request to the prefix is between sending and returning. -/
def AllReturned (hall : Hall) (pfx : Text) : Prop :=
  ∀ id thread, hall.threads id = some thread → thread.note.pfx = pfx →
    thread.note.stage ≠ .waiting → ∃ response, thread.program = .done response

/-- The response is the exposition of what the scrape has loaded, key by key. -/
def Exposes (seconds : Nat → Text) (visit : Visit) (keys : Keys) (response : Response) : Prop :=
  response = scrapeResponse (exposition seconds keys visit.shown)

section

variable {json : Json.Codec} {urls : UrlCrate} {seconds : Nat → Text} {scheme : Ed25519}
  {state : ProxyState scheme} {hall : Hall}

/-- A finished scrape shows the totals in the order in which they are added. -/
theorem scrape_ordered (balanced : Balanced json urls seconds state hall) {id : Nat} {visit : Visit}
    {response : Response} (found : hall.threads id = some ⟨visit, .done response⟩)
    (scraped : visit.arrival = .scrape) :
    ∃ keys, Exposes seconds visit keys response ∧ ∀ pfx,
      visit.responsesShown keys pfx ≤ visit.requestsShown pfx ∧
        visit.durationsShown pfx ≤ visit.responsesShown keys pfx := by
  have ended := conforms_done.mp (balanced.visits id _ found).2
  unfold Visit.Ends at ended
  rw [scraped] at ended
  obtain ⟨-, keys, read, loaded, text⟩ := ended
  have frozen := balanced.frozen id _ found keys read
  have distinct : keys.statusTotals.Nodup := by
    obtain ⟨totals, sameKeys, -⟩ := frozen
    rw [sameKeys]
    exact Std.TreeMap.nodup_keys
  refine ⟨keys, text ?_, shown_ordered frozen loaded⟩
  exact (pairwise_seriesOf distinct).imp fun before => before.1

private theorem ends_cases {visit : Visit} {response : Response}
    (ended : visit.Ends seconds response) :
    visit.stage = .waiting ∨ visit.stage = .observed := by
  unfold Visit.Ends at ended
  split at ended
  next => exact ended
  next => exact Or.inl ended.1

/-- Whoever has returned after sending has been counted everywhere. -/
theorem tally_eq_sentTo (balanced : Balanced json urls seconds state hall) {pfx : Text}
    (returned : AllReturned hall pfx) {rank : Nat} (sends : 1 ≤ rank) (least : rank ≤ 6) :
    (hall.tally fun visit => if visit.pfx = pfx ∧ rank ≤ visit.stage.rank then 1 else 0) =
      sentTo hall pfx := by
  apply Pool.tally_congr
  intro id thread found
  have same : (thread.note.pfx = pfx ∧ rank ≤ thread.note.stage.rank) ↔
      thread.note.pfx = pfx ∧ thread.note.stage ≠ .waiting := by
    apply and_congr_right
    intro own
    constructor
    · intro late waiting
      rw [waiting] at late
      exact absurd late (by simp [Stage.rank]; omega)
    · intro isSent
      obtain ⟨response, done⟩ := returned id thread found own isSent
      have mannered := (balanced.visits id _ found).2
      rw [done, Mannered, conforms_done] at mannered
      have observed := (ends_cases mannered).resolve_left isSent
      rw [observed]
      exact least
  simp only [same]

end

/-- Every scrape shows at least as many requests as responses, and at least as many
responses as durations, for every prefix; every atomic is the sum of what was added
to it; and a prefix whose requests have all returned has as many of each as were
sent. The atomics are counted without a bound, so this holds short of the wrap of a
`u64`. -/
theorem request_accounting_conserved (json : Json.Codec) (urls : UrlCrate) (seconds : Nat → Text)
    {scheme : Ed25519} (state : ProxyState scheme) (metrics : Router.Metrics) (instant millis : Nat)
    (events : List HallEvent) (final : Hall)
    (ran : run (lockedStep json urls seconds (state.withMetrics metrics))
      (Pool.init (LockedWorld.init instant millis)) events = some final) :
    (∀ id visit response, final.threads id = some ⟨visit, .done response⟩ →
      visit.arrival = .scrape → ∃ keys, Exposes seconds visit keys response ∧
        ∀ pfx, visit.responsesShown keys pfx ≤ visit.requestsShown pfx ∧
          visit.durationsShown pfx ≤ visit.responsesShown keys pfx) ∧
    (∀ atomic, final.shared.registry.value atomic = final.tally fun visit => visit.added atomic) ∧
    ∀ pfx, AllReturned final pfx →
      final.shared.registry.value (.counter .requests pfx) = sentTo final pfx ∧
      responsesIn final.shared.registry.statusTotals.keys
        (fun key => final.shared.registry.value (.responses key)) pfx = sentTo final pfx ∧
      final.shared.registry.value (.count pfx) = sentTo final pfx := by
  have balanced : Balanced json urls seconds (state.withMetrics metrics) final :=
    balanced_run rfl ran
  refine ⟨?_, balanced.conserved, ?_⟩
  · intro id visit response found scraped
    exact scrape_ordered balanced found scraped
  · intro pfx returned
    refine ⟨?_, ?_, ?_⟩
    · rw [requests_eq_tally balanced, tally_eq_sentTo balanced returned (by omega) (by omega)]
    · rw [responsesIn_eq_tally balanced, tally_eq_sentTo balanced returned (by omega) (by omega)]
    · rw [count_eq_tally balanced, tally_eq_sentTo balanced returned (by omega) (by omega)]

/-! ### A scrape in the middle of a request -/

/-- Surroundings whose backends do not answer. -/
def granted : (access : Access) → Granted access
  | .action action => backendsDown action
  | .acquire _ => ()
  | .release _ => ()
  | .breakerState _ => .closed
  | .setBreakerState _ _ => ()
  | .render .keys => ⟨[], [], [], []⟩
  | .render (.load _) => 0

def routesOnlyState : ProxyState checksumScheme := ProxyState.new crmRoutes

def hallRun (events : List HallEvent) : Option Hall :=
  run (lockedStep Json.Text.flatCodec plainUrls (fun _ => []) (routesOnlyState.withMetrics {}))
    (Pool.init (LockedWorld.init 0 0)) events

def turns (id count : Nat) : List HallEvent := List.replicate count (.exec id granted)

/-- The request has counted itself and nothing else when the scrape comes. -/
def interrupted : List HallEvent :=
  [.spawn (.request crmRequest), .spawn .scrape] ++ turns 0 7 ++ turns 1 12 ++ turns 0 22

/-- The scrape of the second thread, when it is over. -/
def scrapeOf (final : Hall) : Option (Visit × Response) :=
  match final.threads 1 with
  | some ⟨visit, .done response⟩ =>
      match visit.arrival with
      | .scrape => some (visit, response)
      | .request _ => none
  | _ => none

theorem threads_of_scrapeOf {final : Hall} {visit : Visit} {response : Response}
    (scraped : scrapeOf final = some (visit, response)) :
    final.threads 1 = some ⟨visit, .done response⟩ ∧ visit.arrival = .scrape := by
  unfold scrapeOf at scraped
  split at scraped
  next visit' response' found =>
    split at scraped
    next came =>
      cases scraped
      exact ⟨found, came⟩
    next => cases scraped
  next => cases scraped

/-- The scrape shows one request and no response yet. -/
theorem request_accounting_conserved_when_interrupted :
    ∃ final visit response keys, hallRun interrupted = some final ∧
      scrapeOf final = some (visit, response) ∧ visit.requestsShown "crm".toList = 1 ∧
      visit.durationsShown "crm".toList ≤ visit.responsesShown keys "crm".toList ∧
      visit.responsesShown keys "crm".toList ≤ 1 ∧ Exposes (fun _ => []) visit keys response := by
  have seen : ((hallRun interrupted).bind fun final => (scrapeOf final).map fun scraped =>
      decide (scraped.1.requestsShown "crm".toList = 1)) = some true := by
    decide +kernel
  obtain ⟨final, ran, seen⟩ := Option.bind_eq_some_iff.mp seen
  obtain ⟨⟨visit, response⟩, scraped, one⟩ := Option.map_eq_some_iff.mp seen
  obtain ⟨found, came⟩ := threads_of_scrapeOf scraped
  have conserved := request_accounting_conserved Json.Text.flatCodec plainUrls (fun _ => []) routesOnlyState
    {} 0 0 interrupted final ran
  obtain ⟨keys, exposes, ordered⟩ := conserved.1 1 visit response found came
  have isOne := of_decide_eq_true one
  exact ⟨final, visit, response, keys, ran, scraped, isOne, (ordered "crm".toList).2,
    isOne ▸ (ordered "crm".toList).1, exposes⟩

end Ratewall.Gateway
