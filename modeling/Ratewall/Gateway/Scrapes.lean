import Ratewall.Gateway.Histograms

/-! Owns how the scrapes of one run stand to each other. A scrape has all four locks
from its look at the keys to its last load, so of two scrapes one has read everything
before the other reads anything, however their steps and those of the requests are
mixed. The registry loses no key and no atomic of it goes down: the other scrape shows
every series again, and no counter below.

The state of a breaker is no counter, and goes up and down. -/

namespace Ratewall.Gateway

open Ratewall.Rust
open Ratewall.Foundation
open Ratewall.Foundation.Program
open Ratewall.Circuit
open Ratewall.Http
open Ratewall.Auth
open Ratewall.RateLimit
open Ratewall.Metrics
open Ratewall.Router

/-! ### One scrape before another -/

/-- What a scrape has read is in the registry still, and no atomic is below what it has
loaded. -/
structure Past (registry : Registry) (visit : Visit) : Prop where
  keys : ∀ keys, visit.keys = some keys → keys.Within registry.keys
  values : ∀ series atomic value, series.source = some atomic → visit.values series = some value →
    value ≤ registry.value atomic
  unread : visit.keys = none → ∀ series, visit.values series = none

/-- What the later scrape has read is not behind what the earlier one has read. -/
structure Precedes (earlier later : Visit) : Prop where
  keys : ∀ keys keys', earlier.keys = some keys → later.keys = some keys' → keys.Within keys'
  values : ∀ series atomic value value', series.source = some atomic →
    earlier.values series = some value → later.values series = some value' → value ≤ value'

/-- The scrape is not between its look at the keys and the release of the status totals. -/
def Visit.Closed (visit : Visit) : Prop := visit.keys.isSome → .statusTotals ∉ visit.held

private theorem past_start (registry : Registry) (arrival : Arrival) :
    Past registry { arrival := arrival } where
  keys := by simp
  values := by simp
  unread := by simp

private theorem precedes_of_unread {registry : Registry} {earlier : Visit}
    (past : Past registry earlier)
    (unread : earlier.keys = none) (later : Visit) : Precedes earlier later where
  keys := by
    intro keys keys' read
    rw [unread] at read
    cases read
  values := by
    rintro series atomic value value' - loaded
    rw [past.unread unread] at loaded
    cases loaded

private theorem precedes_unread {registry : Registry} {later : Visit} (past : Past registry later)
    (unread : later.keys = none) (earlier : Visit) : Precedes earlier later where
  keys := by
    rintro keys keys' - read
    rw [unread] at read
    cases read
  values := by
    rintro series atomic value value' - - loaded
    rw [past.unread unread] at loaded
    cases loaded

private theorem closed_of_unread {visit : Visit} (unread : visit.keys = none) : visit.Closed := by
  intro read
  rw [unread] at read
  cases read

/-! ### Steps -/

private theorem keys_within_onRegistry (registry : Registry) (access : Access) :
    registry.keys.Within (access.onRegistry registry).keys := by
  cases access with
  | action action =>
      cases action with
      | registry op => exact keys_within_after registry op
      | _ => exact Keys.Within.refl _
  | setBreakerState pfx state => exact keys_within_setBreakerState registry pfx state
  | _ => exact Keys.Within.refl _

/-- An access looks at the keys, loads a series, or renders nothing. -/
theorem render_cases (access : Access) :
    access = .render .keys ∨ (∃ series, access = .render (.load series)) ∨
      ∀ op, access ≠ .render op := by
  cases access with
  | render op =>
      cases op with
      | keys => exact Or.inl rfl
      | load series => exact Or.inr (Or.inl ⟨series, rfl⟩)
  | _ =>
      refine Or.inr (Or.inr ?_)
      intro op same
      cases same

/-- Only rendering reads. -/
theorem keys_observe {access : Access} (noRender : ∀ op, access ≠ .render op) (visit : Visit)
    (answer : Granted access) : (visit.observe access answer).keys = visit.keys := by
  cases access with
  | action action =>
      cases action with
      | handler op => cases op <;> rfl
      | redis op => rfl
      | registry op => exact Visit.advance_keys visit op answer
  | render op => exact absurd rfl (noRender op)
  | _ => rfl

/-- Who has looked at the keys takes no lock any more. -/
theorem closed_observe {access : Access} {visit : Visit} (noRender : ∀ op, access ≠ .render op)
    (fit : visit.Fits access) (closed : visit.Closed) (answer : Granted access) :
    (visit.observe access answer).Closed := by
  intro read taken
  rw [keys_observe noRender] at read
  have free := closed read
  rw [Visit.held_observe] at taken
  cases access with
  | acquire lock =>
      rw [fit.2] at read
      cases read
  | release lock => exact free (List.mem_filter.mp taken).1
  | _ => exact free taken

section

variable {json : Json.Codec} {urls : UrlCrate} {seconds : Nat → Text} {scheme : Ed25519}
  {state : ProxyState scheme} {metrics : Router.Metrics} {before after hall : Hall}
  {event : HallEvent}

theorem Past.onRegistry {visit mover : Visit} {access : Access}
    (balanced : Balanced json urls seconds state hall) (past : Past hall.shared.registry visit)
    (entered : mover.Entered hall.shared.registry) (fit : mover.Fits access) :
    Past (access.onRegistry hall.shared.registry) visit where
  keys := fun keys read => (past.keys keys read).trans (keys_within_onRegistry _ access)
  values := by
    intro series atomic value shows' loaded
    rw [value_onRegistry balanced.shaped entered fit]
    exact Nat.le_add_right_of_le (past.values series atomic value shows' loaded)
  unread := past.unread

/-- What a scrape reads is what the registry holds. -/
theorem past_observe (balanced : Balanced json urls seconds state hall) {visit : Visit}
    {access : Access} (past : Past hall.shared.registry visit)
    (entered : visit.Entered hall.shared.registry) (fit : visit.Fits access) (id : Nat)
    (offer : Granted access) :
    Past (access.onRegistry hall.shared.registry)
      (visit.observe access (hall.shared.act id access offer).1) := by
  rcases render_cases access with rfl | ⟨series, rfl⟩ | noRender
  · refine ⟨?_, ?_, ?_⟩
    · intro keys read
      cases read
      exact Keys.Within.refl _
    · rintro series atomic value - loaded
      cases (fit.2.2 series).symm.trans loaded
    · intro unread
      cases unread
  · obtain ⟨keys, -, -, read, -⟩ := fit.2
    refine ⟨past.keys, ?_, ?_⟩
    · intro other atomic value shows' loaded
      rcases filled_cases loaded with ⟨rfl, rfl⟩ | ⟨-, loaded⟩
      · exact (read_of_source shows').le
      · exact past.values other atomic value shows' loaded
    · intro unread
      cases read.symm.trans unread
  · have keys := keys_observe noRender visit (hall.shared.act id access offer).1
    have values := values_observe (fun series => noRender (.load series)) visit
      (hall.shared.act id access offer).1
    have moved := past.onRegistry balanced entered fit
    refine ⟨?_, ?_, ?_⟩
    · rw [keys]
      exact moved.keys
    · rw [values]
      exact moved.values
    · rw [keys, values]
      exact moved.unread

/-- Whatever the later scrape reads now, the earlier one has read nothing above. -/
theorem precedes_observe {earlier later : Visit} {access : Access}
    (past : Past hall.shared.registry earlier) (precedes : Precedes earlier later)
    (fit : later.Fits access) (id : Nat) (offer : Granted access) :
    Precedes earlier (later.observe access (hall.shared.act id access offer).1) := by
  rcases render_cases access with rfl | ⟨series, rfl⟩ | noRender
  · refine ⟨?_, ?_⟩
    · intro keys keys' read read'
      cases read'
      exact past.keys keys read
    · rintro series atomic value value' - - loaded'
      cases (fit.2.2 series).symm.trans loaded'
  · refine ⟨precedes.keys, ?_⟩
    intro other atomic value value' shows' loaded loaded'
    rcases filled_cases loaded' with ⟨rfl, rfl⟩ | ⟨-, loaded'⟩
    · exact (past.values other atomic value shows' loaded).trans (read_of_source shows').ge
    · exact precedes.values other atomic value value' shows' loaded loaded'
  · refine ⟨?_, ?_⟩
    · rw [keys_observe noRender]
      exact precedes.keys
    · rw [values_observe fun series => noRender (.load series)]
      exact precedes.values

/-- Of two threads, one is done with its reading before the other begins. -/
def Apart (visit rival : Visit) : Prop :=
  (Precedes visit rival ∧ visit.Closed) ∨ (Precedes rival visit ∧ rival.Closed)

theorem Apart.symm {visit rival : Visit} (apart : Apart visit rival) : Apart rival visit :=
  Or.symm apart

/-- One of two threads moves: it cannot read while the other is reading. -/
theorem apart_observe {visit rival : Visit} {access : Access}
    (past : Past hall.shared.registry visit) (rivalPast : Past hall.shared.registry rival)
    (fit : visit.Fits access)
    (exclusive : .statusTotals ∈ visit.held → .statusTotals ∉ rival.held)
    (apart : Apart visit rival) (id : Nat) (offer : Granted access) :
    Apart (visit.observe access (hall.shared.act id access offer).1) rival := by
  rcases apart with ⟨precedes, closed⟩ | ⟨precedes, closed⟩
  · by_cases isRender : ∃ op, access = .render op
    · obtain ⟨op, rfl⟩ := isRender
      have holds : .statusTotals ∈ visit.held := by
        cases op with
        | keys => exact fit.1 .statusTotals
        | load series => exact fit.1 .statusTotals
      have unread : visit.keys = none := by
        rw [← Option.not_isSome_iff_eq_none]
        intro read
        exact closed read holds
      have follows := precedes_unread past unread rival
      exact Or.inr ⟨precedes_observe rivalPast follows fit id offer, fun _ => exclusive holds⟩
    · have noRender : ∀ op, access ≠ .render op := fun op same => isRender ⟨op, same⟩
      refine Or.inl ⟨⟨?_, ?_⟩, closed_observe noRender fit closed _⟩
      · rw [keys_observe noRender]
        exact precedes.keys
      · rw [values_observe fun series => noRender (.load series)]
        exact precedes.values
  · exact Or.inr ⟨precedes_observe rivalPast precedes fit id offer, closed⟩

/-- The books are right, and of two threads one has read everything before the other. -/
structure Serial (json : Json.Codec) (urls : UrlCrate) (seconds : Nat → Text) {scheme : Ed25519}
    (state : ProxyState scheme) (hall : Hall) : Prop where
  balanced : Balanced json urls seconds state hall
  past : ∀ id thread, hall.threads id = some thread → Past hall.shared.registry thread.note
  apart : ∀ id other thread rival, hall.threads id = some thread →
    hall.threads other = some rival → id ≠ other → Apart thread.note rival.note

private theorem serial_init (instant millis : Nat) :
    Serial json urls seconds state (Pool.init (LockedWorld.init instant millis)) where
  balanced := balanced_init instant millis
  past := by
    intro id thread found
    cases found
  apart := by
    intro id other thread rival found
    cases found

private theorem past_step (balanced : Balanced json urls seconds state before)
    (past : ∀ id thread, before.threads id = some thread →
      Past before.shared.registry thread.note)
    (stepped : lockedStep json urls seconds state before event = some after) :
    ∀ id thread, after.threads id = some thread → Past after.shared.registry thread.note := by
  intro other thread found'
  rcases Pool.lockStep_cases stepped with ⟨arrival, -, rfl⟩ |
    ⟨id, offer, visit, access, next, -, found, -, rfl⟩ | ⟨passage, -, rfl⟩
  · rcases filled_cases found' with ⟨-, rfl⟩ | ⟨-, held⟩
    · exact past_start _ arrival
    · exact past other thread held
  · have fit := fits_next balanced found
    have entered := balanced.entered id _ found
    show Past (before.shared.act id access (offer access)).2.registry thread.note
    rw [registry_act]
    rcases filled_cases found' with ⟨-, rfl⟩ | ⟨-, held⟩
    · exact past_observe balanced (past id _ found) entered fit id (offer access)
    · exact (past other thread held).onRegistry balanced entered fit
  · show Past (before.shared.pass passage).registry thread.note
    rw [registry_pass]
    exact past other thread found'

private theorem serial_step (measured : state.metrics = some metrics)
    (serial : Serial json urls seconds state before)
    (stepped : lockedStep json urls seconds state before event = some after) :
    Serial json urls seconds state after := by
  obtain ⟨balanced, past, apart⟩ := serial
  refine ⟨balanced_step measured balanced stepped, past_step balanced past stepped, ?_⟩
  intro first second thread rival isFirst isSecond different
  rcases Pool.lockStep_cases stepped with ⟨arrival, -, rfl⟩ |
    ⟨id, offer, visit, access, next, -, found, -, rfl⟩ | ⟨passage, -, rfl⟩
  · -- Who has just come has read nothing.
    have fresh : ∀ rival : Visit, Apart { arrival := arrival } rival := fun rival =>
      Or.inl ⟨precedes_of_unread (past_start {} arrival) rfl rival, closed_of_unread rfl⟩
    rcases filled_cases isFirst with ⟨rfl, rfl⟩ | ⟨-, held⟩
    · exact fresh rival.note
    · rcases filled_cases isSecond with ⟨-, rfl⟩ | ⟨-, held'⟩
      · exact (fresh thread.note).symm
      · exact apart first second thread rival held held' different
  · have fit := fits_next balanced found
    have moves : ∀ {other rival}, before.threads other = some rival → id ≠ other →
        Apart (visit.observe access (before.shared.act id access (offer access)).1) rival.note := by
      intro other rival held different
      have exclusive : .statusTotals ∈ visit.held → .statusTotals ∉ rival.note.held :=
        fun mine theirs => different (balanced.owned.exclusive found held mine theirs)
      exact apart_observe (past id _ found) (past other rival held) fit exclusive
        (apart id other _ rival found held different) id (offer access)
    rcases filled_cases isFirst with ⟨rfl, rfl⟩ | ⟨-, held⟩
    · rcases filled_cases isSecond with ⟨rfl, -⟩ | ⟨-, held⟩
      · exact absurd rfl different
      · exact moves held different
    · rcases filled_cases isSecond with ⟨rfl, rfl⟩ | ⟨-, held'⟩
      · exact (moves held different.symm).symm
      · exact apart first second thread rival held held' different
  · exact apart first second thread rival isFirst isSecond different

private theorem serial_run (measured : state.metrics = some metrics) {instant millis : Nat}
    {events : List HallEvent} {final : Hall}
    (ran : run (lockedStep json urls seconds state) (Pool.init (LockedWorld.init instant millis))
      events = some final) : Serial json urls seconds state final :=
  run_invariant (fun serial stepped => serial_step measured serial stepped)
    (serial_init instant millis) ran

/-- The scrape is over, and the other thread has read nothing that is behind it. -/
structure Followed (json : Json.Codec) (urls : UrlCrate) (seconds : Nat → Text) {scheme : Ed25519}
    (state : ProxyState scheme) (id other : Nat) (visit : Visit) (response : Response)
    (hall : Hall) : Prop where
  serial : Serial json urls seconds state hall
  returned : hall.threads id = some ⟨visit, .done response⟩
  follows : ∀ thread, hall.threads other = some thread → Precedes visit thread.note

private theorem followed_step (measured : state.metrics = some metrics) {id other : Nat}
    {visit : Visit}
    {response : Response} (followed : Followed json urls seconds state id other visit response before)
    (stepped : lockedStep json urls seconds state before event = some after) :
    Followed json urls seconds state id other visit response after := by
  obtain ⟨serial, returned, follows⟩ := followed
  have serial' := serial_step measured serial stepped
  rcases Pool.lockStep_cases stepped with ⟨arrival, -, rfl⟩ |
    ⟨mover, offer, note, access, next, -, found, -, rfl⟩ | ⟨passage, -, rfl⟩
  · have old : id ≠ before.nextId := by
      rintro rfl
      have free := serial.balanced.fresh before.nextId (Nat.le_refl _)
      cases returned.symm.trans free
    refine ⟨serial', (Function.update_of_ne old _ _).trans returned, ?_⟩
    intro thread found
    rcases filled_cases found with ⟨-, rfl⟩ | ⟨-, held⟩
    · exact precedes_unread (past_start {} arrival) rfl visit
    · exact follows thread held
  · have still : id ≠ mover := by
      rintro rfl
      cases returned.symm.trans found
    refine ⟨serial', (Function.update_of_ne still _ _).trans returned, ?_⟩
    intro thread found'
    rcases filled_cases found' with ⟨rfl, rfl⟩ | ⟨-, held⟩
    · exact precedes_observe (serial.past id _ returned) (follows _ found) (fits_next serial.balanced found)
        other (offer access)
    · exact follows thread held
  · exact ⟨serial', returned, follows⟩

/-! ### What a later scrape shows -/

/-- Both responses are expositions, and the later one has every series of the earlier
one, with no counter below. -/
def Continues (seconds : Nat → Text) (earlier : Visit) (response : Response) (later : Visit)
    (response' : Response) : Prop :=
  ∃ keys keys', Exposes seconds earlier keys response ∧ Exposes seconds later keys' response' ∧
    ∀ series ∈ seriesOf keys, series ∈ seriesOf keys' ∧
      (series.source.isSome → earlier.shown series ≤ later.shown series)

/-- What a scrape that is over has read. -/
theorem rendered_of_done (balanced : Balanced json urls seconds state hall) {id : Nat}
    {visit : Visit} {response : Response}
    (found : hall.threads id = some ⟨visit, .done response⟩) (scraped : visit.arrival = .scrape) :
    ∃ keys, visit.keys = some keys ∧ Exposes seconds visit keys response ∧
      ∀ series ∈ seriesOf keys, visit.values series = some (visit.shown series) := by
  have ended := conforms_done.mp (balanced.visits id _ found).2
  unfold Visit.Ends at ended
  rw [scraped] at ended
  obtain ⟨-, keys, read, loaded, text⟩ := ended
  have distinct : keys.statusTotals.Nodup := by
    obtain ⟨totals, sameKeys, -⟩ := balanced.frozen id _ found keys read
    rw [sameKeys]
    exact Std.TreeMap.nodup_keys
  refine ⟨keys, read, text ((pairwise_seriesOf distinct).imp fun before => before.1), ?_⟩
  intro series shown
  obtain ⟨value, found⟩ := Option.isSome_iff_exists.mp ((loaded series).mpr shown)
  rw [Visit.shown, found, Option.getD_some]

private theorem continues_of_precedes (balanced : Balanced json urls seconds state hall)
    {id other : Nat} {earlier later : Visit} {response response' : Response}
    (found : hall.threads id = some ⟨earlier, .done response⟩)
    (found' : hall.threads other = some ⟨later, .done response'⟩)
    (scraped : earlier.arrival = .scrape) (scraped' : later.arrival = .scrape)
    (precedes : Precedes earlier later) : Continues seconds earlier response later response' := by
  obtain ⟨keys, read, exposes, loaded⟩ := rendered_of_done balanced found scraped
  obtain ⟨keys', read', exposes', loaded'⟩ := rendered_of_done balanced found' scraped'
  have within := precedes.keys keys keys' read read'
  refine ⟨keys, keys', exposes, exposes', ?_⟩
  intro series shown
  have again := within.seriesOf shown
  refine ⟨again, ?_⟩
  intro counts
  obtain ⟨atomic, shows'⟩ := Option.isSome_iff_exists.mp counts
  exact precedes.values series atomic _ _ shows' (loaded series shown) (loaded' series again)

end

/-- Of two scrapes of one run, one shows every series that the other shows, and no
counter of it lower, whatever the steps of both and of the requests were mixed with; and
a scrape that has not begun to read when another one is over comes after it. -/
theorem scrapes_never_go_back (json : Json.Codec) (urls : UrlCrate) (seconds : Nat → Text)
    {scheme : Ed25519} (state : ProxyState scheme) (metrics : Router.Metrics) (instant millis : Nat)
    (first second : List HallEvent) (middle final : Hall)
    (reached : run (lockedStep json urls seconds (state.withMetrics metrics))
      (Pool.init (LockedWorld.init instant millis)) first = some middle)
    (ran : run (lockedStep json urls seconds (state.withMetrics metrics)) middle second = some final)
    (id other : Nat) (different : id ≠ other) (earlier later : Visit) (response response' : Response)
    (found : final.threads id = some ⟨earlier, .done response⟩) (scraped : earlier.arrival = .scrape)
    (found' : final.threads other = some ⟨later, .done response'⟩)
    (scraped' : later.arrival = .scrape) :
    (Continues seconds earlier response later response' ∨
      Continues seconds later response' earlier response) ∧
    ((∃ visit answer, middle.threads id = some ⟨visit, .done answer⟩) →
      (∀ thread, middle.threads other = some thread → thread.note.keys = none) →
      Continues seconds earlier response later response') := by
  have serial : Serial json urls seconds (state.withMetrics metrics) middle :=
    serial_run rfl reached
  have whole := run_append_iff.mpr ⟨middle, reached, ran⟩
  have finally' : Serial json urls seconds (state.withMetrics metrics) final := serial_run rfl whole
  refine ⟨?_, ?_⟩
  · rcases finally'.apart id other _ _ found found' different with ⟨precedes, -⟩ | ⟨precedes, -⟩
    · exact Or.inl (continues_of_precedes finally'.balanced found found' scraped scraped' precedes)
    · exact Or.inr (continues_of_precedes finally'.balanced found' found scraped' scraped precedes)
  · rintro ⟨visit, answer, returned⟩ unread
    have begins : Followed json urls seconds (state.withMetrics metrics) id other visit answer
        middle := by
      refine ⟨serial, returned, ?_⟩
      intro thread held
      exact precedes_unread (serial.past other thread held) (unread thread held) visit
    have followed := run_invariant (fun followed stepped => followed_step rfl followed stepped)
      begins ran
    cases found.symm.trans followed.returned
    exact continues_of_precedes finally'.balanced found found' scraped scraped'
      (followed.follows _ found')

/-! ### A scrape amid a request, and one after it -/

/-- The request has counted itself and nothing else when the first scrape is over. -/
def upToFirst : List HallEvent :=
  [.spawn (.request crmRequest), .spawn .scrape] ++ turns 0 7 ++ turns 1 12

/-- The request goes on to its end, and another scrape comes. -/
def upToSecond : List HallEvent := [.spawn .scrape] ++ turns 0 22 ++ turns 2 28

/-- The scrape of a thread, when it is over. -/
def scrapeAt (id : Nat) (hall : Hall) : Option (Visit × Response) :=
  match hall.threads id with
  | some ⟨visit, .done response⟩ =>
      match visit.arrival with
      | .scrape => some (visit, response)
      | .request _ => none
  | _ => none

private theorem threads_of_scrapeAt {id : Nat} {hall : Hall} {visit : Visit} {response : Response}
    (scraped : scrapeAt id hall = some (visit, response)) :
    hall.threads id = some ⟨visit, .done response⟩ ∧ visit.arrival = .scrape := by
  unfold scrapeAt at scraped
  split at scraped
  next visit' response' found =>
    split at scraped
    next came =>
      cases scraped
      exact ⟨found, came⟩
    next => cases scraped
  next => cases scraped

/-- The second scrape shows the duration that the first one had no line for. -/
theorem scrapes_never_go_back_around_request :
    ∃ middle final earlier response later response', hallRun upToFirst = some middle ∧
      run (lockedStep Json.Text.flatCodec plainUrls (fun _ => []) (routesOnlyState.withMetrics {})) middle
        upToSecond = some final ∧
      scrapeAt 1 final = some (earlier, response) ∧ scrapeAt 2 final = some (later, response') ∧
      earlier.requestsShown "crm".toList = 1 ∧ earlier.durationsShown "crm".toList = 0 ∧
      later.durationsShown "crm".toList = 1 ∧
      Continues (fun _ => []) earlier response later response' := by
  have seen : ((hallRun upToFirst).bind fun middle =>
      (run (lockedStep Json.Text.flatCodec plainUrls (fun _ => []) (routesOnlyState.withMetrics {})) middle
        upToSecond).bind fun final => (scrapeAt 1 final).bind fun first =>
          (scrapeAt 2 final).map fun second =>
            decide ((scrapeAt 1 middle).isSome ∧ (middle.threads 2).isNone ∧
              first.1.requestsShown "crm".toList = 1 ∧ first.1.durationsShown "crm".toList = 0 ∧
              second.1.durationsShown "crm".toList = 1)) = some true := by
    decide +kernel
  obtain ⟨middle, reached, seen⟩ := Option.bind_eq_some_iff.mp seen
  obtain ⟨final, ran, seen⟩ := Option.bind_eq_some_iff.mp seen
  obtain ⟨⟨earlier, response⟩, isFirst, seen⟩ := Option.bind_eq_some_iff.mp seen
  obtain ⟨⟨later, response'⟩, isSecond, seen⟩ := Option.map_eq_some_iff.mp seen
  obtain ⟨returned, notThere, requests, none', one⟩ := of_decide_eq_true seen
  obtain ⟨found, scraped⟩ := threads_of_scrapeAt isFirst
  obtain ⟨found', scraped'⟩ := threads_of_scrapeAt isSecond
  have ordered := scrapes_never_go_back Json.Text.flatCodec plainUrls (fun _ => []) routesOnlyState {} 0 0
    upToFirst upToSecond middle final reached ran 1 2 (by decide) earlier later response response'
    found scraped found' scraped'
  have ended : ∃ visit answer, middle.threads 1 = some ⟨visit, .done answer⟩ := by
    obtain ⟨⟨visit, answer⟩, isOver⟩ := Option.isSome_iff_exists.mp returned
    exact ⟨visit, answer, (threads_of_scrapeAt isOver).1⟩
  have unread : ∀ thread, middle.threads 2 = some thread → thread.note.keys = none := by
    intro thread held
    rw [held] at notThere
    cases notThere
  exact ⟨middle, final, earlier, response, later, response', reached, ran, isFirst, isSecond, requests,
    none', one, ordered.2 ended unread⟩

end Ratewall.Gateway
