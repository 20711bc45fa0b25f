import Ratewall.Router.Headers

/-! Owns what one `forward` did by the time it answers or is dropped: which request it
sent, what it told the breaker, and what it answered. It tells the breaker once, as soon
as the head of the response is there, and answers with the bytes that arrive after that.
So both are right exactly if nothing happens to the body of the response; the first also
depends on where redirects lead, on what heads the client takes, and on the patience of
the gateway's own client. -/

namespace Ratewall.Router

open Ratewall.Rust
open Ratewall.Foundation
open Ratewall.Config
open Ratewall.Circuit
open Ratewall.Http
open Ratewall.Auth

abbrev Trace := List (Sigma Answer)

def recordOf : Sigma Answer → Option (CircuitBreaker × Bool)
  | ⟨.record breaker success, _⟩ => some (breaker, success)
  | _ => none

def sendOf : Sigma Answer → Option (Outbound × (Nat → Hop))
  | ⟨.send outbound, hops⟩ => some (outbound, hops)
  | _ => none

/-- The reports to breakers in a trace. -/
def records (trace : Trace) : List (CircuitBreaker × Bool) := trace.filterMap recordOf

/-- The requests that were sent, each with the course of its exchange. -/
def sends (trace : Trace) : List (Outbound × (Nat → Hop)) := trace.filterMap sendOf

/-! ### What a completed exchange did -/

/-- What the body read of a response comes to. -/
def payloadOf (response : WireResponse) : List UInt8 :=
  match response.bytes with
  | .ok bytes => bytes
  | .error _ => []

@[simp] theorem records_append (first second : Trace) :
    records (first ++ second) = records first ++ records second := List.filterMap_append

@[simp] theorem sends_append (first second : Trace) :
    sends (first ++ second) = sends first ++ sends second := List.filterMap_append

private theorem recordOutcome_returns {breaker : Option CircuitBreaker} {success : Bool}
    {trace : Trace}
    {result : Unit} (returns : (recordOutcome breaker success).Returns trace result) :
    sends trace = [] ∧ records trace = breaker.toList.map (·, success) := by
  cases breaker with
  | none =>
      obtain ⟨rfl, -⟩ := returns
      exact ⟨rfl, rfl⟩
  | some breaker =>
      rw [Program.returns_perform_iff.mp returns]
      exact ⟨rfl, rfl⟩

private theorem finishTimer_returns {timer : Option RequestTimer} {statusClass : Text}
    {trace : Trace}
    {result : Unit} (returns : (finishTimer timer statusClass).Returns trace result) :
    sends trace = [] ∧ records trace = [] := by
  cases timer with
  | none =>
      obtain ⟨rfl, -⟩ := returns
      exact ⟨rfl, rfl⟩
  | some timer =>
      rw [Program.returns_perform_iff.mp returns]
      exact ⟨rfl, rfl⟩

private theorem relay_returns {breaker : Option CircuitBreaker} {timer : Option RequestTimer}
    {wire : WireResponse} {trace : Trace} {response : Response}
    (returns : (relay breaker timer wire).Returns trace response) :
    sends trace = [] ∧ records trace = breaker.toList.map (·, true) ∧
      response.status = wire.status ∧ response.body = payloadOf wire := by
  obtain ⟨headers, copied, -⟩ := copyHeaders_eq wire
  unfold relay deliver at returns
  rw [copied, StatusCode.fromU16_code] at returns
  obtain ⟨first, rest, _, rfl, recorded, returns⟩ := Program.returns_bind_iff.mp returns
  obtain ⟨read, rest, _, rfl, isRead, returns⟩ := Program.returns_bind_iff.mp returns
  obtain ⟨timed, last, _, rfl, finished, returns⟩ := Program.returns_bind_iff.mp returns
  obtain ⟨noSend, recordsFirst⟩ := recordOutcome_returns recorded
  obtain ⟨noSend', noRecord⟩ := finishTimer_returns finished
  rw [Program.returns_perform_iff.mp isRead]
  obtain ⟨rfl, rfl⟩ := returns
  refine ⟨?_, ?_, rfl, rfl⟩
  · rw [sends_append, sends_append, sends_append, noSend, noSend']
    rfl
  · rw [records_append, records_append, records_append, recordsFirst, noRecord]
    exact List.append_nil _

/-- After `send` the breaker hears once: a success exactly if there is a response.
The client gets that response, else the gateway's own error. -/
def Concluded (pfx : Text) (breaker : Option CircuitBreaker) (trace : Trace) (response : Response) :
    Except SendError WireResponse → Prop
  | .ok wire => records trace = breaker.toList.map (·, true) ∧ response.status = wire.status ∧
      response.body = payloadOf wire
  | .error _ => records trace = breaker.toList.map (·, false) ∧ response = unreachable pfx

/-- After the send, an outcome is recorded and a response made of it. -/
theorem conclude_returns {pfx : Text} {breaker : Option CircuitBreaker}
    {timer : Option RequestTimer} {sent : Except SendError WireResponse} {trace : Trace}
    {response : Response} (returns : (conclude pfx breaker timer sent).Returns trace response) :
    sends trace = [] ∧ Concluded pfx breaker trace response sent := by
  cases sent with
  | ok wire => exact relay_returns returns
  | error err =>
      obtain ⟨first, rest, _, rfl, recorded, returns⟩ := Program.returns_bind_iff.mp returns
      obtain ⟨timed, last, _, rfl, finished, returns⟩ := Program.returns_bind_iff.mp returns
      obtain ⟨noSend, recordsFirst⟩ := recordOutcome_returns recorded
      obtain ⟨noSend', noRecord⟩ := finishTimer_returns finished
      obtain ⟨rfl, rfl⟩ := returns
      refine ⟨?_, ?_, rfl⟩
      · rw [sends_append, sends_append, noSend, noSend']
        rfl
      · rw [records_append, records_append, recordsFirst, noRecord]
        exact List.append_nil _

/-- One request was sent, and its exchange concluded. -/
def Settled (urls : UrlCrate) (pfx : Text) (breaker : Option CircuitBreaker) (trace : Trace)
    (response : Response) : Prop :=
  ∃ outbound url hops, sends trace = [(outbound, hops)] ∧ urls.parse outbound.target = some url ∧
    Concluded pfx breaker trace response (ending urls url hops).result

section

variable {urls : UrlCrate} {scheme : Ed25519} {state : ProxyState scheme} {pfx suffix : Text}
  {request : Request} {trace : Trace} {response : Response} {breaker : Option CircuitBreaker}

theorem Concluded.congr {first second : Trace} {sent : Except SendError WireResponse}
    (same : records first = records second) (concluded : Concluded pfx breaker first response sent) :
    Concluded pfx breaker second response sent := by
  cases sent with
  | ok wire => exact ⟨same ▸ concluded.1, concluded.2⟩
  | error err => exact ⟨same ▸ concluded.1, concluded.2⟩

/-- Calls that neither send nor record settle nothing. -/
theorem Settled.append_quiet {quiet : Trace} (noSend : sends quiet = [])
    (noRecord : records quiet = []) (settled : Settled urls pfx breaker trace response) :
    Settled urls pfx breaker (quiet ++ trace) response := by
  obtain ⟨outbound, url, hops, sent, parsed, concluded⟩ := settled
  refine ⟨outbound, url, hops, ?_, parsed, concluded.congr ?_⟩
  · rw [sends_append, noSend, sent]
    rfl
  · rw [records_append, noRecord]
    rfl

/-- A send that returns was either refused by the builder or followed to an ending. -/
theorem send_returns {outbound : Outbound} {sent : Except SendError WireResponse}
    (returns : (send urls outbound).Returns trace sent) :
    (trace = [] ∧ sent = .error .builder) ∨
      ∃ url hops, trace = [⟨.send outbound, hops⟩] ∧ urls.parse outbound.target = some url ∧
        sent = (ending urls url hops).result := by
  unfold send at returns
  split at returns
  next =>
    obtain ⟨rfl, rfl⟩ := returns
    exact Or.inl ⟨rfl, rfl⟩
  next url parsed =>
    obtain ⟨hops, rest, rfl, rfl, rfl⟩ := returns
    exact Or.inr ⟨url, hops, rfl, parsed, rfl⟩

theorem startTimer_returns {timer : Option RequestTimer}
    (returns : (startTimer state pfx).Returns trace timer) :
    sends trace = [] ∧ records trace = [] := by
  unfold startTimer at returns
  split at returns
  next =>
    obtain ⟨timer, rest, rfl, rfl, -⟩ := returns
    exact ⟨rfl, rfl⟩
  next =>
    obtain ⟨rfl, -⟩ := returns
    exact ⟨rfl, rfl⟩

theorem countCircuitOpen_returns {result : Unit}
    (returns : (countCircuitOpen state pfx).Returns trace result) : sends trace = [] := by
  unfold countCircuitOpen at returns
  split at returns
  next =>
    rw [Program.returns_perform_iff.mp returns]
    rfl
  next =>
    obtain ⟨rfl, -⟩ := returns
    rfl

private theorem exchange_returns {backend : Text}
    (returns : (exchange urls state pfx breaker backend suffix request).Returns trace response) :
    sends trace = [] ∨ Settled urls pfx breaker trace response := by
  unfold exchange at returns
  obtain ⟨collected, rest, _, rfl, isCollect, returns⟩ := Program.returns_bind_iff.mp returns
  rw [Program.returns_perform_iff.mp isCollect]
  split at returns
  next =>
    obtain ⟨rfl, -⟩ := returns
    exact Or.inl rfl
  next =>
    obtain ⟨started, rest, timer, rfl, starting, returns⟩ := Program.returns_bind_iff.mp returns
    obtain ⟨wired, rest, sent, rfl, sending, returns⟩ := Program.returns_bind_iff.mp returns
    obtain ⟨noSend, noRecord⟩ := startTimer_returns starting
    obtain ⟨noSend', concluded⟩ := conclude_returns returns
    rcases send_returns sending with ⟨rfl, rfl⟩ | ⟨url, hops, rfl, parsed, rfl⟩
    · left
      rw [sends_append, sends_append, sends_append, noSend, noSend']
      rfl
    · right
      apply Settled.append_quiet rfl rfl
      apply Settled.append_quiet noSend noRecord
      refine ⟨_, url, hops, ?_, parsed, concluded.congr rfl⟩
      rw [sends_append, noSend']
      rfl

private theorem forward_returns
    (returns : (forward urls state pfx suffix request).Returns trace response) :
    sends trace = [] ∨ Settled urls pfx (state.breakerFor pfx) trace response := by
  unfold forward at returns
  split at returns
  next =>
    obtain ⟨rfl, -⟩ := returns
    exact Or.inl rfl
  next backend _ =>
    split at returns
    next unguarded =>
      rw [unguarded]
      exact exchange_returns returns
    next breaker guarded =>
      rw [guarded]
      obtain ⟨asked, rest, admission, rfl, isAdmit, returns⟩ := Program.returns_bind_iff.mp returns
      rw [Program.returns_perform_iff.mp isAdmit]
      cases admission with
      | call =>
          rcases exchange_returns returns with quiet | settled
          · exact Or.inl quiet
          · exact Or.inr (@Settled.append_quiet _ _ _ _ _ [⟨.tryAdmit breaker, .call⟩] rfl rfl settled)
      | shortCircuit =>
          left
          obtain ⟨counted, last, _, rfl, counting, returns⟩ := Program.returns_bind_iff.mp returns
          obtain ⟨rfl, -⟩ := returns
          show sends (counted ++ []) = []
          rw [sends_append, countCircuitOpen_returns counting]
          rfl

end

/-! ### Courses that end early -/

/-- The handler has answered, or it stands at a call that it awaits and is dropped
there. -/
def Over (rest : Handler) : Prop :=
  (∃ response, rest = .done response) ∨ ∃ op next, rest = .call op next ∧ awaits op = true

/-- The handler was dropped while the request was with the backend. -/
def GivenUp (rest : Handler) (outbound : Outbound) : Prop :=
  ∃ next, rest = .call (.send outbound) next

/-- What a `forward` that is over came to: nothing was sent, or it was given up while
the request was out, or `send` returned and the breaker heard of the result. -/
inductive Ended (urls : UrlCrate) (breaker : Option CircuitBreaker) (trace : Trace)
    (rest : Handler) : Prop where
  | unsent (quiet : sends trace = []) (idle : ∀ outbound, ¬ GivenUp rest outbound)
  | givenUp (outbound : Outbound) (url : urls.Url)
      (parsed : urls.parse outbound.target = some url) (dropped : GivenUp rest outbound)
      (quiet : sends trace = []) (unheard : records trace = [])
  | concluded (outbound : Outbound) (url : urls.Url) (hops : Nat → Hop)
      (parsed : urls.parse outbound.target = some url) (once : sends trace = [(outbound, hops)])
      (idle : ∀ outbound, ¬ GivenUp rest outbound)
      (heard : records trace = breaker.toList.map (·, (ending urls url hops).result.isOk))

section

variable {urls : UrlCrate} {scheme : Ed25519} {state : ProxyState scheme} {pfx suffix : Text}
  {request : Request} {trace : Trace} {rest : Handler} {breaker : Option CircuitBreaker}

private theorem over_done (response : Response) : Over (.done response) := Or.inl ⟨response, rfl⟩

private theorem awaits_of_over {op : Op} {next : Answer op → Handler}
    (isOver : Over (.call op next)) :
    awaits op = true := by
  rcases isOver with ⟨response, same⟩ | ⟨op', next', same, waits⟩
  · cases same
  · cases same
    exact waits

private theorem not_givenUp_done (response : Response) (outbound : Outbound) :
    ¬ GivenUp (.done response) outbound := by
  rintro ⟨next, same⟩
  cases same

/-- Nobody is dropped inside a part that awaits nothing. -/
theorem follows_through {α : Type} {program : Program Op Answer α} {next : α → Handler}
    (synchronous : Program.All (fun op => awaits op = false) program) (isOver : Over rest)
    (follows : (program >>= next).Follows trace rest) :
    ∃ first second found, trace = first ++ second ∧ program.Returns first found ∧
      (next found).Follows second rest := by
  induction program generalizing trace with
  | done found => exact ⟨[], trace, found, rfl, ⟨rfl, rfl⟩, follows⟩
  | call op later inductionHypothesis =>
      rw [Program.call_bind, Program.follows_call_iff] at follows
      rcases follows with ⟨-, rfl⟩ | ⟨answer, behind, rfl, continues⟩
      · have waits := awaits_of_over isOver
        rw [synchronous.1] at waits
        cases waits
      · obtain ⟨first, second, found, rfl, returns, onward⟩ :=
          inductionHypothesis answer (synchronous.2 answer) continues
        exact ⟨⟨op, answer⟩ :: first, second, found, rfl, ⟨answer, first, rfl, returns⟩, onward⟩

private theorem synchronous_recordOutcome (breaker : Option CircuitBreaker) (success : Bool) :
    Program.All (fun op => awaits op = false) (recordOutcome breaker success) := by
  cases breaker with
  | none => exact trivial
  | some breaker => exact ⟨rfl, fun _ => trivial⟩

private theorem synchronous_finishTimer (timer : Option RequestTimer) (statusClass : Text) :
    Program.All (fun op => awaits op = false) (finishTimer timer statusClass) := by
  cases timer with
  | none => exact trivial
  | some timer => exact ⟨rfl, fun _ => trivial⟩

private theorem synchronous_startTimer : Program.All (fun op => awaits op = false)
    (startTimer state pfx) := by
  unfold startTimer
  split
  next => exact ⟨rfl, fun _ => trivial⟩
  next => exact trivial

private theorem synchronous_countCircuitOpen : Program.All (fun op => awaits op = false)
    (countCircuitOpen state pfx) := by
  unfold countCircuitOpen
  split
  next => exact ⟨rfl, fun _ => trivial⟩
  next => exact trivial

/-- By the time the copy of a response is over, it has sent and recorded nothing more. -/
theorem deliver_follows {timer : Option RequestTimer} {wire : WireResponse} (isOver : Over rest)
    (follows : (deliver timer wire).Follows trace rest) :
    sends trace = [] ∧ records trace = [] ∧ ∀ outbound, ¬ GivenUp rest outbound := by
  unfold deliver at follows
  simp only [Program.perform_bind, Program.follows_call_iff] at follows
  rcases follows with ⟨rfl, rfl⟩ | ⟨_, later, rfl, follows⟩
  · refine ⟨rfl, rfl, ?_⟩
    rintro outbound ⟨next, same⟩
    cases same
  · obtain ⟨timed, last, _, rfl, finished, follows⟩ :=
      follows_through (synchronous_finishTimer _ _) isOver follows
    obtain ⟨noSend, noRecord⟩ := finishTimer_returns finished
    obtain ⟨headers, copied, -⟩ := copyHeaders_eq wire
    rw [copied] at follows
    obtain ⟨rfl, rfl⟩ := Program.follows_done_iff.mp follows
    rw [List.append_nil]
    exact ⟨noSend, noRecord, not_givenUp_done _⟩

/-- After `send` the breaker hears at once. -/
theorem conclude_follows {timer : Option RequestTimer} {sent : Except SendError WireResponse}
    (isOver : Over rest) (follows : (conclude pfx breaker timer sent).Follows trace rest) :
    sends trace = [] ∧ records trace = breaker.toList.map (·, sent.isOk) ∧
      ∀ outbound, ¬ GivenUp rest outbound := by
  cases sent with
  | ok wire =>
      obtain ⟨first, last, _, rfl, recorded, follows⟩ :=
        follows_through (synchronous_recordOutcome breaker true) isOver follows
      obtain ⟨noSend, heard⟩ := recordOutcome_returns recorded
      obtain ⟨noSend', noRecord, idle⟩ := deliver_follows isOver follows
      rw [sends_append, records_append, noSend, noSend', heard, noRecord]
      exact ⟨rfl, List.append_nil _, idle⟩
  | error err =>
      obtain ⟨first, later, _, rfl, recorded, follows⟩ :=
        follows_through (synchronous_recordOutcome breaker false) isOver follows
      obtain ⟨timed, last, _, rfl, finished, follows⟩ :=
        follows_through (synchronous_finishTimer _ _) isOver follows
      obtain ⟨noSend, heard⟩ := recordOutcome_returns recorded
      obtain ⟨noSend', noRecord⟩ := finishTimer_returns finished
      obtain ⟨rfl, rfl⟩ := Program.follows_done_iff.mp follows
      rw [List.append_nil, sends_append, records_append, noSend, noSend', heard, noRecord]
      exact ⟨rfl, List.append_nil _, not_givenUp_done _⟩

theorem Ended.append_quiet {quiet : Trace} (noSend : sends quiet = [])
    (noRecord : records quiet = []) (ended : Ended urls breaker trace rest) :
    Ended urls breaker (quiet ++ trace) rest := by
  have sameSends : sends (quiet ++ trace) = sends trace := by
    rw [sends_append, noSend, List.nil_append]
  have sameRecords : records (quiet ++ trace) = records trace := by
    rw [records_append, noRecord, List.nil_append]
  cases ended with
  | unsent none idle => exact .unsent (sameSends.trans none) idle
  | givenUp outbound url parsed dropped none unheard =>
      exact .givenUp outbound url parsed dropped (sameSends.trans none) (sameRecords.trans unheard)
  | concluded outbound url hops parsed once idle heard =>
      exact .concluded outbound url hops parsed (sameSends.trans once) idle (sameRecords.trans heard)

private theorem send_ended {outbound : Outbound} {timer : Option RequestTimer} (isOver : Over rest)
    (follows : (send urls outbound >>= fun sent => conclude pfx breaker timer sent).Follows trace
      rest) : Ended urls breaker trace rest := by
  unfold send at follows
  cases parsed : urls.parse outbound.target with
  | none =>
      have concludes : (conclude pfx breaker timer (.error .builder)).Follows trace rest := by
        rw [parsed] at follows
        exact follows
      obtain ⟨noSend, -, idle⟩ := conclude_follows isOver concludes
      exact .unsent noSend idle
  | some url =>
      simp only [parsed, Program.perform_bind, Program.call_bind, Program.follows_call_iff]
        at follows
      rcases follows with ⟨rfl, rfl⟩ | ⟨hops, later, rfl, follows⟩
      · exact .givenUp outbound url parsed ⟨_, rfl⟩ rfl rfl
      · obtain ⟨noSend, heard, idle⟩ := conclude_follows isOver follows
        refine .concluded outbound url hops parsed ?_ idle heard
        show (outbound, hops) :: sends later = [(outbound, hops)]
        rw [noSend]

private theorem exchange_ended {backend : Text} (isOver : Over rest)
    (follows : (exchange urls state pfx breaker backend suffix request).Follows trace rest) :
    Ended urls breaker trace rest := by
  unfold exchange at follows
  rw [Program.perform_bind, Program.follows_call_iff] at follows
  rcases follows with ⟨rfl, rfl⟩ | ⟨_, later, rfl, follows⟩
  · refine .unsent rfl ?_
    rintro outbound ⟨next, same⟩
    cases same
  · apply @Ended.append_quiet _ _ _ _ [⟨.collect request.body, ()⟩] rfl rfl
    split at follows
    next =>
      obtain ⟨rfl, rfl⟩ := Program.follows_done_iff.mp follows
      exact .unsent rfl (not_givenUp_done _)
    next =>
      obtain ⟨started, last, timer, rfl, starting, follows⟩ :=
        follows_through synchronous_startTimer isOver follows
      obtain ⟨noSend, noRecord⟩ := startTimer_returns starting
      exact Ended.append_quiet noSend noRecord (send_ended isOver follows)

private theorem forward_ended (isOver : Over rest)
    (follows : (forward urls state pfx suffix request).Follows trace rest) :
    Ended urls (state.breakerFor pfx) trace rest := by
  unfold forward at follows
  split at follows
  next =>
    obtain ⟨rfl, rfl⟩ := Program.follows_done_iff.mp follows
    exact .unsent rfl (not_givenUp_done _)
  next backend _ =>
    split at follows
    next unguarded =>
      rw [unguarded]
      exact exchange_ended isOver follows
    next breaker guarded =>
      rw [guarded]
      rw [Program.perform_bind, Program.follows_call_iff] at follows
      rcases follows with ⟨rfl, rfl⟩ | ⟨admission, later, rfl, follows⟩
      · exact absurd (awaits_of_over isOver) Bool.false_ne_true
      · apply @Ended.append_quiet _ _ _ _ [⟨.tryAdmit breaker, admission⟩] rfl rfl
        cases admission with
        | call => exact exchange_ended isOver follows
        | shortCircuit =>
            obtain ⟨counted, last, _, rfl, counting, follows⟩ :=
              follows_through synchronous_countCircuitOpen isOver follows
            obtain ⟨rfl, rfl⟩ := Program.follows_done_iff.mp follows
            refine .unsent ?_ (not_givenUp_done _)
            rw [List.append_nil]
            exact countCircuitOpen_returns counting

end

/-! ### What the breaker is told -/

section

variable (urls : UrlCrate) (url : urls.Url) (hops : Nat → Hop)

/-- The URL is one of the backend that is asked first. -/
def AtBackend (last : urls.Url) : Prop :=
  urls.scheme last = urls.scheme url ∧ urls.authority last = urls.authority url

/-- The exchange with the configured backend failed in transport: the first request found
no way out, or the last request that the backend was sent stayed unanswered, or the body
of its last response broke off. A response that is followed to its `Location` is dropped
as soon as its head is there. -/
def BackendFailed : Prop :=
  match ending urls url hops with
  | .unsent _ => hops 0 = .unsent
  | .unanswered last => AtBackend urls url last
  | .unreadable _ => False
  | .answered last response => AtBackend urls url last ∧ response.transfer ≠ .complete
  | .tooManyRedirects => False

/-- The backend's last response arrives with its head but not with its body. -/
def BodyBreaksOff : Prop :=
  ∃ last response, ending urls url hops = .answered last response ∧
    AtBackend urls url last ∧ response.transfer ≠ .complete

/-- A redirect of the backend leads to a URL that is not the backend's and does not
answer, or to one that the client cannot send a request to. -/
def LostElsewhere : Prop :=
  (∃ last, ending urls url hops = .unanswered last ∧ ¬ AtBackend urls url last) ∨
    ∃ last, ending urls url hops = .unsent last ∧ hops 0 ≠ .unsent

/-- A response arrives with a head that the client does not take. -/
def HeadRefused : Prop := ∃ last, ending urls url hops = .unreadable last

/-- Every answer is a redirect, once more than the client follows. -/
def RedirectsForever : Prop := ending urls url hops = .tooManyRedirects

end

/-- The breaker hears exactly once, and hears of a failure exactly when the
exchange failed in transport. -/
def Classified (urls : UrlCrate) (breaker : CircuitBreaker) (trace : Trace) (url : urls.Url)
    (hops : Nat → Hop) : Prop :=
  ∃ success, records trace = [(breaker, success)] ∧ (success = false ↔ BackendFailed urls url hops)

private theorem classified_iff {urls : UrlCrate} {breaker : CircuitBreaker} {trace : Trace}
    {url : urls.Url} {hops : Nat → Hop} {success : Bool}
    (heard : records trace = [(breaker, success)]) :
    Classified urls breaker trace url hops ↔ (success = false ↔ BackendFailed urls url hops) := by
  constructor
  · rintro ⟨success', heard', classified⟩
    have same : success = success' := by
      rw [heard] at heard'
      simpa using heard'
    rw [same]
    exact classified
  · intro classified
    exact ⟨success, heard, classified⟩

/-- Of every request that `forward` sends, the breaker is told the truth except in five
kinds of exchange: the client goes away while the request is with the backend, the body
of the backend's response breaks off, a redirect leads where nothing answers, a head is
refused, or the redirects do not end. -/
theorem exchange_classified_iff (urls : UrlCrate) {scheme : Ed25519} (state : ProxyState scheme)
    (pfx suffix : Text) (request : Request) (breaker : CircuitBreaker)
    (guarded : state.breakerFor pfx = some breaker) (trace : Trace) (rest : Handler)
    (follows : (forward urls state pfx suffix request).Follows trace rest) (isOver : Over rest)
    (outbound : Outbound) (hops : Nat → Hop)
    (sent : (outbound, hops) ∈ sends trace ∨ GivenUp rest outbound) :
    ∃ url, urls.parse outbound.target = some url ∧
      (Classified urls breaker trace url hops ↔
        ¬ GivenUp rest outbound ∧ ¬ BodyBreaksOff urls url hops ∧
          ¬ LostElsewhere urls url hops ∧ ¬ HeadRefused urls url hops ∧
          ¬ RedirectsForever urls url hops) := by
  have ended := forward_ended isOver follows
  rw [guarded] at ended
  cases ended with
  | unsent quiet idle =>
      rcases sent with answered | dropped
      · rw [quiet] at answered
        cases answered
      · exact absurd dropped (idle outbound)
  | givenUp outbound' url parsed dropped quiet unheard =>
      obtain rfl : outbound' = outbound := by
        rcases sent with answered | ⟨next, same⟩
        · rw [quiet] at answered
          cases answered
        · obtain ⟨next', same'⟩ := dropped
          cases same'.symm.trans same
          rfl
      refine ⟨url, parsed, ?_⟩
      constructor
      · rintro ⟨success, heard, -⟩
        rw [unheard] at heard
        cases heard
      · rintro ⟨stayed, -⟩
        exact absurd dropped stayed
  | concluded outbound' url hops' parsed once idle heard =>
      have answered := sent.resolve_right (idle outbound)
      rw [once, List.mem_singleton] at answered
      obtain ⟨rfl, rfl⟩ := Prod.mk.inj answered
      refine ⟨url, parsed, ?_⟩
      rw [classified_iff heard]
      unfold BackendFailed BodyBreaksOff LostElsewhere HeadRefused RedirectsForever
      have stayed := idle outbound
      cases ended : ending urls url hops with
      | unsent last => simp [stayed, Ending.result, Except.isOk, Except.toBool]
      | unanswered last => simp [stayed, Ending.result, Except.isOk, Except.toBool]
      | unreadable last => simp [stayed, Ending.result, Except.isOk, Except.toBool]
      | answered last wire => simp [stayed, Ending.result, Except.isOk, Except.toBool]
      | tooManyRedirects => simp [stayed, Ending.result, Except.isOk, Except.toBool]

/-- One route, guarded by a breaker that opens at the first failure. -/
def crmRoutes : List Route := [⟨"crm".toList, "http://crm:8000".toList⟩]

def crmBreaker : CircuitBreaker := ⟨⟨1, Duration.fromSecs 30⟩, 0⟩

def crmState : ProxyState checksumScheme :=
  (ProxyState.new crmRoutes).withBreakers (Breakers.new crmRoutes crmBreaker.cfg) 30

def crmRequest : Request where
  method := .get
  path := "/crm".toList
  query := none
  headers := HeaderMap.empty
  body := ⟨[], none⟩

def crmOutbound : Outbound :=
  outboundRequest plainUrls crmState "http://crm:8000".toList "/".toList crmRequest []

def okResponse (transfer : Transfer) : WireResponse where
  status := .ok
  headers := HeaderMap.empty
  body := [104, 105]
  transfer := transfer
  few := by decide

def crmHops (transfer : Transfer) : Nat → Hop := fun _ => .answered (okResponse transfer)

def crmTrace (transfer : Transfer) : Trace :=
  [⟨.tryAdmit crmBreaker, .call⟩, ⟨.collect ⟨[], none⟩, ()⟩,
    ⟨.send crmOutbound, crmHops transfer⟩, ⟨.record crmBreaker true, ()⟩, ⟨.readBody, ()⟩]

/-- One whole exchange with the backend, to be read in two ways below. -/
theorem forward_crmTrace (transfer : Transfer) :
    (forward plainUrls crmState "crm".toList "/".toList crmRequest).Returns (crmTrace transfer)
      ⟨.ok, HeaderMap.empty, payloadOf (okResponse transfer)⟩ :=
  ⟨.call, _, rfl, (), _, rfl, crmHops transfer, _, rfl, (), _, rfl, (), _, rfl, rfl, rfl⟩

theorem crmOutbound_parses :
    plainUrls.parse crmOutbound.target = some ("crm:8000".toList, "/".toList) := rfl

private theorem crmHops_end (transfer : Transfer) :
    ending plainUrls ("crm:8000".toList, "/".toList) (crmHops transfer) =
      .answered ("crm:8000".toList, "/".toList) (okResponse transfer) := rfl

private theorem follows_crmTrace (transfer : Transfer) :
    (forward plainUrls crmState "crm".toList "/".toList crmRequest).Follows (crmTrace transfer)
      (.done ⟨.ok, HeaderMap.empty, payloadOf (okResponse transfer)⟩) :=
  Program.returns_iff_follows.mp (forward_crmTrace transfer)

/-- A body that comes through whole is recorded as a success. -/
theorem exchange_classified_iff_on_complete_response :
    ∃ url, plainUrls.parse crmOutbound.target = some url ∧
      Classified plainUrls crmBreaker (crmTrace .complete) url (crmHops .complete) := by
  obtain ⟨url, parsed, classified⟩ := exchange_classified_iff plainUrls crmState "crm".toList
    "/".toList crmRequest crmBreaker rfl (crmTrace .complete) _ (follows_crmTrace .complete)
    (over_done _) crmOutbound (crmHops .complete) (Or.inl List.mem_cons_self)
  have same : ("crm:8000".toList, "/".toList) = url :=
    Option.some.inj (crmOutbound_parses.symm.trans parsed)
  refine ⟨url, parsed, classified.mpr ?_⟩
  rw [← same]
  refine ⟨not_givenUp_done _ _, ?_, ?_, ?_, ?_⟩
  · rintro ⟨last, response, ended, -, broken⟩
    rw [crmHops_end] at ended
    injection ended with _ response
    exact broken (response ▸ rfl)
  · rintro (⟨last, ended, -⟩ | ⟨last, ended, -⟩)
    · rw [crmHops_end] at ended
      cases ended
    · rw [crmHops_end] at ended
      cases ended
  · rintro ⟨last, ended⟩
    rw [crmHops_end] at ended
    cases ended
  · intro ended
    unfold RedirectsForever at ended
    rw [crmHops_end] at ended
    cases ended

/-- The connection is lost after one byte of the body, and the breaker hears of a
success. -/
theorem broken_body_recorded_as_success :
    ¬ ∀ (urls : UrlCrate) (scheme : Ed25519) (state : ProxyState scheme) (pfx suffix : Text)
      (request : Request) (breaker : CircuitBreaker), state.breakerFor pfx = some breaker →
      ∀ (trace : Trace) (rest : Handler),
        (forward urls state pfx suffix request).Follows trace rest → Over rest →
      ∀ outbound hops, (outbound, hops) ∈ sends trace ∨ GivenUp rest outbound →
      ∀ url, urls.parse outbound.target = some url → Classified urls breaker trace url hops := by
  intro always
  have classified := always plainUrls checksumScheme crmState "crm".toList "/".toList crmRequest
    crmBreaker rfl (crmTrace (.lost 1)) _ (follows_crmTrace (.lost 1)) (over_done _) crmOutbound
    (crmHops (.lost 1)) (Or.inl List.mem_cons_self) _ crmOutbound_parses
  have told := (@classified_iff _ _ _ _ _ true rfl).mp classified
  have failed : BackendFailed plainUrls ("crm:8000".toList, "/".toList) (crmHops (.lost 1)) := by
    unfold BackendFailed
    rw [crmHops_end]
    exact ⟨⟨rfl, rfl⟩, by decide⟩
  exact absurd (told.mpr failed) (by decide)

/-! ### What the client is told -/

/-- One of the errors that `forward` answers on its own account. -/
def GatewayError (pfx : Text) (response : Response) : Prop :=
  response = circuitOpen pfx ∨ response = unreachable pfx ∨ response = buildFailed

/-- The backend's status comes with the backend's whole body, and a body that
cannot be read turns the response into a gateway error. -/
def Untruncated (pfx : Text) (wire : WireResponse) (response : Response) : Prop :=
  (response.status = wire.status → response.body = wire.body) ∧
    (wire.transfer ≠ .complete → GatewayError pfx response)

private theorem GatewayError.body_ne_nil {pfx : Text} {response : Response}
    (error : GatewayError pfx response) : response.body ≠ [] := by
  rcases error with rfl | rfl | rfl
  · simp [circuitOpen, intoResponse, asBytes, String.utf8EncodeChar]
  · simp [unreachable, intoResponse, asBytes, String.utf8EncodeChar]
  · decide

private theorem payloadOf_complete {wire : WireResponse} (complete : wire.transfer = .complete) :
    payloadOf wire = wire.body := by
  unfold payloadOf WireResponse.bytes
  rw [complete]

private theorem payloadOf_broken {wire : WireResponse} (broken : wire.transfer ≠ .complete) :
    payloadOf wire = [] := by
  unfold payloadOf WireResponse.bytes
  cases ended : wire.transfer with
  | complete => exact absurd ended broken
  | lost received => rfl
  | timedOut received => rfl

/-- Once a response's head has arrived, the client gets the backend's status with
the backend's body, or an error of the gateway, exactly if the body arrives as
well. -/
theorem response_untruncated_iff (urls : UrlCrate) {scheme : Ed25519} (state : ProxyState scheme)
    (pfx suffix : Text) (request : Request) (trace : Trace) (response : Response)
    (returns : (forward urls state pfx suffix request).Returns trace response)
    (outbound : Outbound) (hops : Nat → Hop) (sent : (outbound, hops) ∈ sends trace)
    (url last : urls.Url) (parsed : urls.parse outbound.target = some url) (wire : WireResponse)
    (answered : ending urls url hops = .answered last wire) :
    Untruncated pfx wire response ↔ wire.transfer = .complete := by
  rcases forward_returns returns with quiet | ⟨outbound', url', hops', once, parsed', concluded⟩
  · rw [quiet] at sent
    cases sent
  · rw [once, List.mem_singleton] at sent
    obtain ⟨rfl, rfl⟩ := Prod.mk.inj sent
    have same : url' = url := Option.some.inj (parsed'.symm.trans parsed)
    rw [same, answered] at concluded
    obtain ⟨-, status, body⟩ := concluded
    constructor
    · rintro ⟨-, error⟩
      by_contra broken
      apply (error broken).body_ne_nil
      rw [body, payloadOf_broken broken]
    · intro complete
      refine ⟨fun _ => ?_, fun broken => absurd complete broken⟩
      rw [body, payloadOf_complete complete]

/-- A body that comes through whole is relayed whole. -/
theorem response_untruncated_iff_on_complete_response :
    Untruncated "crm".toList (okResponse .complete) ⟨.ok, HeaderMap.empty, [104, 105]⟩ :=
  (response_untruncated_iff plainUrls crmState "crm".toList "/".toList crmRequest
    (crmTrace .complete) _ (forward_crmTrace .complete) crmOutbound (crmHops .complete)
    List.mem_cons_self _ _ crmOutbound_parses _ (crmHops_end .complete)).mpr rfl

/-- The connection is lost after one byte of the body, and the client gets the
backend's 200 with an empty body. -/
theorem broken_body_relayed_as_empty_success :
    ¬ ∀ (urls : UrlCrate) (scheme : Ed25519) (state : ProxyState scheme) (pfx suffix : Text)
      (request : Request) (trace : Trace) (response : Response),
        (forward urls state pfx suffix request).Returns trace response →
      ∀ outbound hops, (outbound, hops) ∈ sends trace →
      ∀ url last wire, urls.parse outbound.target = some url →
        ending urls url hops = .answered last wire → Untruncated pfx wire response := by
  intro always
  have untruncated := always plainUrls checksumScheme crmState "crm".toList "/".toList crmRequest
    (crmTrace (.lost 1)) _ (forward_crmTrace (.lost 1)) crmOutbound (crmHops (.lost 1))
    List.mem_cons_self _ _ _ crmOutbound_parses (crmHops_end (.lost 1))
  have body : payloadOf (okResponse (.lost 1)) = [104, 105] := untruncated.1 rfl
  exact absurd body (by decide)

end Ratewall.Router
