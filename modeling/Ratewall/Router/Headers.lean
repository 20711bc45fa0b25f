import Ratewall.Router.Forward

/-! Owns the headers that cross the gateway. Both copy loops of `forward` are plain
filters of a header map: the way in drops the names of a fixed list and every value
that is not text, the way out only the names. Compared with them stand what RFC 7230
calls hop-by-hop, where the fields of one message can also be named by its
`Connection` header, and the credential that the gate has looked at. -/

namespace Ratewall.Router

open Ratewall.Rust
open Ratewall.Foundation
open Ratewall.Foundation.Program
open Ratewall.Http
open Ratewall.Auth

/-! ### The two copies -/

/-- A field that the way in copies. -/
def isCopied (field : Field) : Bool := !isHopByHop field.1 && field.2.toStr.isSome

private theorem outboundHeaders_eq_foldl (own headers : HeaderMap) :
    outboundHeaders own headers = headers.fields.foldl (fun out field =>
      if isCopied field then out.append field else out) own := by
  unfold outboundHeaders
  congr 1
  funext out field
  unfold isCopied
  cases isHopByHop field.1 with
  | true => rfl
  | false => cases field.2.toStr <;> rfl

/-- The copies join what the request started with. -/
theorem perm_outboundHeaders (own headers : HeaderMap) :
    (outboundHeaders own headers).fields.Perm (own.fields ++ headers.fields.filter isCopied) := by
  rw [outboundHeaders_eq_foldl]
  exact HeaderMap.perm_foldl_append isCopied headers.fields own

private theorem outboundHeaders_empty_fields (headers : HeaderMap) :
    (outboundHeaders HeaderMap.empty headers).fields = headers.fields.filter isCopied := by
  rw [outboundHeaders_eq_foldl]
  exact HeaderMap.fields_foldl_append isCopied headers

private theorem foldlM_tryAppend {keep : Field → Bool} {step : HeaderMap → Field → Option HeaderMap}
    (steps : ∀ (map : HeaderMap) (field : Field), map.fields.length < HeaderMap.maxNames →
      step map field = some (if keep field then map.append field else map))
    {fields : List Field} {map : HeaderMap}
    (room : map.fields.length + fields.length ≤ HeaderMap.maxNames) :
    fields.foldlM step map = some (fields.foldl
      (fun out field => if keep field then out.append field else out) map) := by
  induction fields generalizing map with
  | nil => rfl
  | cons field rest inductionHypothesis =>
      rw [List.length_cons] at room
      have grown : (if keep field then map.append field else map).fields.length ≤
          map.fields.length + 1 := by
        split
        next => exact le_of_eq (length_appendField field map.fields)
        next => omega
      rw [List.foldlM_cons, steps map field (by omega), List.foldl_cons]
      exact inductionHypothesis (by omega)

/-- The response builder never fails, and the bytes of names and values come
through. -/
theorem copyHeaders_eq (response : WireResponse) :
    ∃ headers, copyHeaders response.headers = some headers ∧
      headers.fields = response.headers.fields.filter fun field =>
        !isHopByHopName field.1.text := by
  refine ⟨_, ?_, HeaderMap.fields_foldl_append _ response.headers⟩
  apply foldlM_tryAppend
  · intro map field room
    rw [HeaderName.fromBytes_asBytes, HeaderValue.fromBytes_bytes]
    cases isHopByHopName field.1.text with
    | true => rfl
    | false => exact HeaderMap.tryAppend_eq_some field room
  · have few := response.few
    show 0 + _ ≤ 24576
    omega

/-- What `deliver` answers with has the headers of the copy. -/
theorem deliver_returns_headers {timer : Option RequestTimer} {wire : WireResponse}
    {trace : List (Sigma Answer)} {response : Response}
    (returns : (deliver timer wire).Returns trace response) :
    response.headers.fields = wire.headers.fields.filter fun field =>
      !isHopByHopName field.1.text := by
  obtain ⟨headers, copied, fields⟩ := copyHeaders_eq wire
  unfold deliver at returns
  rw [copied] at returns
  obtain ⟨_, _, _, -, -, returns⟩ := returns_bind_iff.mp returns
  obtain ⟨_, _, _, -, -, returns⟩ := returns_bind_iff.mp returns
  obtain ⟨-, rfl⟩ := returns
  exact fields

/-! ### Hop-by-hop fields -/

/-- The fields that RFC 7230 section 6.1 names itself. -/
def hopByHopFields : List Text :=
  ["connection".toList, "keep-alive".toList, "proxy-authenticate".toList,
    "proxy-authorization".toList, "te".toList, "trailer".toList, "transfer-encoding".toList,
    "upgrade".toList]

def isBlank (c : Char) : Bool := c == ' ' || c == '\t'

/-- The tokens of all `Connection` fields: comma-separated, blanks around them
ignored, in any case. -/
def connectionOptions (headers : HeaderMap) : List Text :=
  (headers.getAll HeaderName.connection).flatMap fun value =>
    ((charsOf value.bytes).splitOn ',').map fun option =>
      ((option.dropWhile isBlank).rdropWhile isBlank).map Char.toLower

/-- The field concerns this connection alone, in the sense of the RFC. -/
def HopByHop (headers : HeaderMap) (name : HeaderName) : Prop :=
  name.text ∈ hopByHopFields ∨ name.text ∈ connectionOptions headers

instance (headers : HeaderMap) (name : HeaderName) : Decidable (HopByHop headers name) :=
  inferInstanceAs (Decidable (_ ∨ _))

/-- The gateway's own list does for this name: it is not `Trailer`, and if a
`Connection` field names it, it is listed anyway. -/
def Covered (headers : HeaderMap) (name : HeaderName) : Prop :=
  name ≠ HeaderName.trailer ∧ (name.text ∈ connectionOptions headers → isHopByHop name = true)

instance (headers : HeaderMap) (name : HeaderName) : Decidable (Covered headers name) :=
  inferInstanceAs (Decidable (_ ∧ _))

private theorem ext_text {left right : HeaderName} (same : left.text = right.text) :
    left = right := by
  cases left
  cases right
  simpa using same

/-- The gateway's list has `trailers`, the RFC's has `trailer`. -/
theorem mem_hopByHopFields_iff {name : HeaderName} (passes : isHopByHop name = false) :
    name.text ∈ hopByHopFields ↔ name = HeaderName.trailer := by
  constructor
  · intro member
    have listed : ∀ text ∈ hopByHopFields, text = HeaderName.trailer.text ∨
        isHopByHopName text = true := by decide
    rcases listed name.text member with same | stopped
    · exact ext_text same
    · unfold isHopByHop at passes
      rw [passes] at stopped
      cases stopped
  · rintro rfl
    decide

private theorem not_hopByHop_iff_covered {headers : HeaderMap} {name : HeaderName}
    (passes : isHopByHop name = false) : ¬ HopByHop headers name ↔ Covered headers name := by
  unfold HopByHop Covered
  rw [mem_hopByHopFields_iff passes, not_or, passes]
  simp

private theorem covered_of_isHopByHop {headers : HeaderMap} {name : HeaderName}
    (stopped : isHopByHop name = true) : Covered headers name := by
  refine ⟨?_, fun _ => stopped⟩
  rintro rfl
  exact absurd stopped (by decide)

/-- Among the fields that a copy can let through, none is hop-by-hop exactly when
the fixed list does for all of them. -/
theorem hopByHop_free_iff {headers : HeaderMap} {fields : List Field} {readable : Field → Bool} :
    (∀ field ∈ fields.filter fun field => !isHopByHop field.1 && readable field,
        ¬ HopByHop headers field.1) ↔
      ∀ field ∈ fields, readable field = true → Covered headers field.1 := by
  simp only [List.mem_filter, Bool.and_eq_true, Bool.not_eq_true']
  constructor
  · intro free field member read
    cases stopped : isHopByHop field.1 with
    | true => exact covered_of_isHopByHop stopped
    | false => exact (not_hopByHop_iff_covered stopped).mp (free field ⟨member, stopped, read⟩)
  · rintro covered field ⟨member, passes, read⟩
    exact (not_hopByHop_iff_covered passes).mpr (covered field member read)

/-- The one name that the gateway sets itself is not on its list. -/
theorem own_hopByHop_free_iff {urls : UrlCrate} {target : Text} {headers : HeaderMap} :
    (∀ field ∈ (ownHeaders urls target).fields, ¬ HopByHop headers field.1) ↔
      ∀ value, urlCredential urls target = some value →
        Covered headers HeaderName.authorization := by
  rw [ownHeaders_fields]
  cases urlCredential urls target with
  | none => simp
  | some value =>
      simp only [Option.toList_some, List.map_singleton, List.forall_mem_singleton,
        Option.some.injEq, forall_eq']
      exact not_hopByHop_iff_covered (by decide)

/-- No hop-by-hop field goes to the backend exactly when every text field of the
request is covered, and the name of the gateway's own credential, if the backend's URL
makes one; and none goes to the client exactly when every field of the response is. -/
theorem hop_by_hop_stripped_iff_covered (urls : UrlCrate) {scheme : Ed25519}
    (state : ProxyState scheme) (backend suffix : Text) (request : Request)
    (bodyBytes : List UInt8) (timer : Option RequestTimer) (wire : WireResponse)
    (trace : List (Sigma Answer)) (response : Response)
    (returns : (deliver timer wire).Returns trace response) :
    ((∀ field ∈ (outboundRequest urls state backend suffix request bodyBytes).headers.fields,
        ¬ HopByHop request.headers field.1) ↔
      (∀ value, urlCredential urls (target backend suffix request) = some value →
        Covered request.headers HeaderName.authorization) ∧
      ∀ field ∈ request.headers.fields, field.2.toStr.isSome = true →
        Covered request.headers field.1) ∧
    ((∀ field ∈ response.headers.fields, ¬ HopByHop wire.headers field.1) ↔
      ∀ field ∈ wire.headers.fields, Covered wire.headers field.1) := by
  constructor
  · have joined := perm_outboundHeaders (ownHeaders urls (target backend suffix request))
      request.headers
    show (∀ field ∈ (outboundHeaders _ request.headers).fields, _) ↔ _
    rw [← own_hopByHop_free_iff, ← hopByHop_free_iff, ← List.forall_mem_append]
    exact ⟨fun free field member => free field (joined.mem_iff.mpr member),
      fun free field member => free field (joined.mem_iff.mp member)⟩
  · rw [deliver_returns_headers returns]
    have free := @hopByHop_free_iff wire.headers wire.headers.fields fun _ => true
    simpa [isHopByHop] using free

def headersOf (fields : List Field) : HeaderMap := fields.foldl HeaderMap.append HeaderMap.empty

def requestWith (headers : HeaderMap) : Request where
  method := .get
  path := "/crm".toList
  query := none
  headers := headers
  body := ⟨[], none⟩

def bareState : ProxyState checksumScheme := ProxyState.new []

def outboundWith (headers : HeaderMap) : Outbound :=
  outboundRequest plainUrls bareState "http://crm:8000".toList "/".toList (requestWith headers) []

def xHop : HeaderName := ⟨"x-hop".toList, by decide⟩

def closing : HeaderValue := ⟨asBytes "close".toList, by decide⟩

/-- A message that announces a trailer and names `x-hop` as a field of this
connection. -/
def nominating : HeaderMap :=
  headersOf [(HeaderName.connection, ⟨asBytes "close, X-Hop".toList, by decide⟩), (xHop, closing),
    (HeaderName.trailer, closing)]

def answerWith (headers : HeaderMap) (few : headers.fields.length ≤ 100) : WireResponse :=
  { status := .ok, headers := headers, body := [], transfer := .complete, few := few }

def copyOf (headers : HeaderMap) : Response where
  status := .ok
  headers := (copyHeaders headers).getD HeaderMap.empty
  body := []

/-- A connection that is to be closed, and one field that goes all the way. -/
theorem hop_by_hop_stripped_iff_covered_on_close :
    let headers := headersOf [(HeaderName.connection, closing), (xHop, closing)]
    (∀ field ∈ (outboundWith headers).headers.fields, ¬ HopByHop headers field.1) ∧
      ∀ field ∈ (copyOf headers).headers.fields, ¬ HopByHop headers field.1 := by
  intro headers
  have decided := hop_by_hop_stripped_iff_covered plainUrls bareState "http://crm:8000".toList
    "/".toList (requestWith headers) [] none (answerWith headers (by decide)) [⟨.readBody, ()⟩]
    (copyOf headers) ⟨(), [], rfl, rfl, rfl⟩
  have anonymous : urlCredential plainUrls "http://crm:8000/".toList = none := by decide
  refine ⟨decided.1.mpr ⟨?_, by decide⟩, decided.2.mpr (by decide)⟩
  intro value made
  exact absurd (anonymous.symm.trans made) (by simp)

/-- Neither what `Connection` names nor `Trailer` is held back, in either
direction. -/
theorem nominated_fields_cross :
    ¬ (∀ headers : HeaderMap, ∀ field ∈ (outboundWith headers).headers.fields,
        ¬ HopByHop headers field.1) ∧
      ¬ ∀ (timer : Option RequestTimer) (wire : WireResponse) (trace : List (Sigma Answer))
        (response : Response), (deliver timer wire).Returns trace response →
          ∀ field ∈ response.headers.fields, ¬ HopByHop wire.headers field.1 := by
  constructor
  · intro always
    exact always nominating (xHop, closing) (by decide) (by decide)
  · intro always
    exact always none (answerWith nominating (by decide)) [⟨.readBody, ()⟩] (copyOf nominating)
      ⟨(), [], rfl, rfl, rfl⟩ (HeaderName.trailer, closing) (by decide) (by decide)

/-! ### End-to-end fields -/

/-- The fields that the list of names lets through, in order. -/
def endToEnd (headers : HeaderMap) : List Field :=
  headers.fields.filter fun field => !isHopByHopName field.1.text

private theorem filter_isCopied (headers : HeaderMap) : headers.fields.filter isCopied =
    (endToEnd headers).filter fun field => field.2.toStr.isSome := by
  unfold endToEnd isCopied
  rw [List.filter_filter]
  simp only [Bool.and_comm, isHopByHop]

/-- A credential of the URL is one text field more than the client sent. -/
theorem outbound_ne_endToEnd {urls : UrlCrate} {target : Text} {value : HeaderValue}
    (made : urlCredential urls target = some value) (headers : HeaderMap) :
    (outboundHeaders (ownHeaders urls target) headers).fields ≠ endToEnd headers := by
  intro same
  obtain ⟨username, password, rfl⟩ := urlCredential_eq_some made
  have joined := perm_outboundHeaders (ownHeaders urls target) headers
  rw [same, filter_isCopied, ownHeaders_fields, made] at joined
  have allText : ∀ field ∈ endToEnd headers, field.2.toStr.isSome = true := by
    intro field member
    rcases List.mem_append.mp (joined.mem_iff.mp member) with own | copied
    · rw [List.mem_singleton.mp own, toStr_basicAuth]
      rfl
    · exact (List.mem_filter.mp copied).2
  have longer := joined.length_eq
  rw [List.filter_eq_self.mpr allText, List.length_append] at longer
  exact absurd longer (by simp)

/-- The request that goes out has all fields of the client's but the listed ones,
in order and with their bytes, exactly when the backend's URL makes no credential of
its own and all their values are text. The way back is always exact. -/
theorem end_to_end_kept_iff_text (urls : UrlCrate) {scheme : Ed25519} (state : ProxyState scheme)
    (backend suffix : Text) (request : Request) (bodyBytes : List UInt8)
    (timer : Option RequestTimer) (wire : WireResponse) (trace : List (Sigma Answer))
    (response : Response) (returns : (deliver timer wire).Returns trace response) :
    ((outboundRequest urls state backend suffix request bodyBytes).headers.fields =
        endToEnd request.headers ↔
      urlCredential urls (target backend suffix request) = none ∧
        ∀ field ∈ endToEnd request.headers, field.2.toStr.isSome = true) ∧
    response.headers.fields = endToEnd wire.headers := by
  refine ⟨?_, deliver_returns_headers returns⟩
  show (outboundHeaders (ownHeaders urls (target backend suffix request))
    request.headers).fields = _ ↔ _
  cases made : urlCredential urls (target backend suffix request) with
  | some value =>
      have differs := outbound_ne_endToEnd made request.headers
      simp [differs]
  | none =>
      have fresh : ownHeaders urls (target backend suffix request) = HeaderMap.empty := by
        unfold ownHeaders
        rw [made]
      rw [fresh, outboundHeaders_empty_fields, filter_isCopied, List.filter_eq_self]
      exact (and_iff_right rfl).symm

/-- A name in Latin-1, with a byte outside ASCII. -/
def latinValue : HeaderValue := ⟨[67, 97, 102, 233], by decide⟩

/-- The same, with that field given twice. -/
theorem end_to_end_kept_iff_text_on_close :
    let headers := headersOf [(HeaderName.connection, closing), (xHop, closing), (xHop, closing)]
    (outboundWith headers).headers.fields = [(xHop, closing), (xHop, closing)] ∧
      (copyOf headers).headers.fields = [(xHop, closing), (xHop, closing)] := by
  intro headers
  obtain ⟨decided, back⟩ := end_to_end_kept_iff_text plainUrls bareState "http://crm:8000".toList
    "/".toList (requestWith headers) [] none (answerWith headers (by decide)) [⟨.readBody, ()⟩]
    (copyOf headers) ⟨(), [], rfl, rfl, rfl⟩
  exact ⟨(decided.mpr ⟨by decide, by decide⟩).trans (by decide), back.trans (by decide)⟩

/-- A request loses the field whose value is not ASCII. -/
theorem latin_value_lost :
    ¬ ∀ headers : HeaderMap, (outboundWith headers).headers.fields = endToEnd headers := by
  intro always
  exact absurd (always (headersOf [(xHop, latinValue)])) (by decide)

/-! ### The credential -/

/-- Whatever the call sends has the credential of its URL and the copies of these
headers. -/
def Carries (urls : UrlCrate) (headers : HeaderMap) : Op → Prop
  | .send outbound =>
      outbound.headers = outboundHeaders (ownHeaders urls outbound.target) headers
  | _ => True

section

variable {urls : UrlCrate} {scheme : Ed25519} {state : ProxyState scheme} {headers : HeaderMap}

theorem carries_ask (op : Op) (carries : Carries urls headers op) : All (Carries urls headers) (ask op) :=
  ⟨carries, fun _ => trivial⟩

private theorem carries_recordOutcome (breaker : Option Circuit.CircuitBreaker) (success : Bool) :
    All (Carries urls headers) (recordOutcome breaker success) := by
  cases breaker with
  | none => exact trivial
  | some breaker => exact carries_ask (.record breaker success) trivial

private theorem carries_finishTimer (timer : Option RequestTimer) (statusClass : Text) :
    All (Carries urls headers) (finishTimer timer statusClass) := by
  cases timer with
  | none => exact trivial
  | some timer => exact carries_ask (.finish timer statusClass) trivial

private theorem carries_conclude (pfx : Text) (breaker : Option Circuit.CircuitBreaker)
    (timer : Option RequestTimer) (sent : Except SendError WireResponse) :
    All (Carries urls headers) (conclude pfx breaker timer sent) := by
  cases sent with
  | ok response =>
      apply All.bind (carries_recordOutcome breaker true)
      intro _
      apply All.bind (carries_ask .readBody trivial)
      intro _
      apply All.bind (carries_finishTimer timer _)
      intro _
      split
      next => exact trivial
      next => exact trivial
  | error err =>
      apply All.bind (carries_recordOutcome breaker false)
      intro _
      apply All.bind (carries_finishTimer timer _)
      intro _
      exact trivial

private theorem carries_startTimer (pfx : Text) :
    All (Carries urls headers) (startTimer state pfx) := by
  unfold startTimer
  split
  next => exact ⟨trivial, fun _ => trivial⟩
  next => exact trivial

private theorem carries_countCircuitOpen (pfx : Text) :
    All (Carries urls headers) (countCircuitOpen state pfx) := by
  unfold countCircuitOpen
  split
  next => exact carries_ask (.incCircuitOpen pfx) trivial
  next => exact trivial

private theorem carries_countRateLimited (pfx : Text) :
    All (Carries urls headers) (countRateLimited state pfx) := by
  unfold countRateLimited
  split
  next => exact carries_ask (.incRateLimited pfx) trivial
  next => exact trivial

private theorem carries_exchange (pfx : Text) (breaker : Option Circuit.CircuitBreaker)
    (backend suffix : Text) (request : Request) :
    All (Carries urls request.headers)
      (exchange urls state pfx breaker backend suffix request) := by
  apply All.bind (carries_ask (.collect request.body) trivial)
  intro _
  split
  next => exact trivial
  next bodyBytes _ =>
    apply All.bind (carries_startTimer pfx)
    intro timer
    have sends : All (Carries urls request.headers)
        (send urls (outboundRequest urls state backend suffix request bodyBytes)) := by
      unfold send
      split
      next => exact trivial
      next => exact ⟨rfl, fun _ => trivial⟩
    exact All.bind sends fun sent => carries_conclude pfx breaker timer sent

private theorem carries_forward (pfx suffix : Text) (request : Request) :
    All (Carries urls request.headers) (forward urls state pfx suffix request) := by
  unfold forward
  split
  next => exact trivial
  next backend _ =>
    split
    next => exact carries_exchange pfx none backend suffix request
    next breaker _ =>
      apply All.bind (carries_ask (.tryAdmit breaker) trivial)
      intro admission
      cases admission with
      | call => exact carries_exchange pfx (some breaker) backend suffix request
      | shortCircuit => exact All.bind (carries_countCircuitOpen pfx) fun _ => trivial

/-- Whatever the limiter decides, what goes out carries the client's fields. -/
theorem carries_rateLimit (subject : Option Text) (request : Request) :
    All (Carries urls request.headers) (rateLimit urls state subject request) := by
  have routed : All (Carries urls request.headers) (route urls state request) := by
    unfold route
    split
    next pfx rest _ =>
      split
      next => exact trivial
      next => exact carries_forward pfx rest request
  unfold rateLimit
  split
  next => exact routed
  next limiter _ =>
    apply All.bind (carries_ask (.decide limiter _) trivial)
    intro decision
    cases decision with
    | allow => exact routed
    | opened => exact routed
    | limit retryAfter => exact All.bind (carries_countRateLimited _) fun _ => trivial

/-- A gated request that sends anything was let in, for the token in its first
`Authorization` value. -/
theorem verified_of_sent {json : Json.Codec} {auth : AuthState scheme} {request : Request}
    {trace : List (Sigma Answer)} {rest : Handler} {outbound : Outbound} {hops : Nat → Hop}
    (gated : state.auth = some auth)
    (follows : (proxyFallback urls state json request).Follows trace rest)
    (sent : ⟨.send outbound, hops⟩ ∈ trace) :
    (∃ now subject later, trace = ⟨.unixNow, now⟩ :: later ∧
        checkBearer json auth request now = .ok subject) ∧
      outbound.headers =
        outboundHeaders (ownHeaders urls outbound.target) request.headers := by
  rcases follows_proxyFallback gated follows with rfl |
    ⟨now, later, rfl, ⟨refusal, -, rfl, -⟩ | ⟨subject, accepted, continues⟩⟩
  · cases sent
  · simp at sent
  · have inLater : ⟨.send outbound, hops⟩ ∈ later := by
      rcases List.mem_cons.mp sent with same | inside
      · cases same
      · exact inside
    exact ⟨⟨now, subject, later, rfl, accepted⟩,
      (carries_rateLimit (some subject) request).of_follows continues _ inLater⟩

end

/-- Of a name that may pass, the backend sees the own fields and then the client's text.
-/
theorem getAll_outboundHeaders (own headers : HeaderMap) {name : HeaderName}
    (passes : isHopByHop name = false) :
    (outboundHeaders own headers).getAll name =
      own.getAll name ++ (headers.getAll name).filter fun value => value.toStr.isSome := by
  have same : ∀ field : Field, (decide (field.1 = name) && isCopied field) =
      (field.2.toStr.isSome && decide (field.1 = name)) := by
    intro field
    unfold isCopied
    by_cases named : field.1 = name
    · simp [named, passes]
    · simp [named]
  rw [outboundHeaders_eq_foldl, HeaderMap.getAll_foldl_append]
  unfold HeaderMap.getAll
  rw [List.filter_filter, List.filter_map, List.filter_filter]
  simp only [same, Function.comp_apply]

/-- Of its own the gateway sends a credential at most. -/
theorem getAll_ownHeaders (urls : UrlCrate) (target : Text) (name : HeaderName) :
    (ownHeaders urls target).getAll name =
      if name = HeaderName.authorization then (urlCredential urls target).toList else [] := by
  unfold HeaderMap.getAll
  rw [ownHeaders_fields]
  cases urlCredential urls target with
  | none => simp
  | some value =>
      by_cases named : name = HeaderName.authorization
      · simp [named]
      · simp [named, Ne.symm named]

/-- What the gate takes for a token is no `Basic` credential. -/
theorem ne_basicAuth {value : HeaderValue} {text token : Text} (readable : value.toStr = some text)
    (bearer : bearerToken (some text) = some token) (username : Text) (password : Option Text) :
    value ≠ basicAuth username password := by
  rintro rfl
  obtain rfl : basicText username password = text :=
    Option.some.inj ((toStr_basicAuth username password).symm.trans readable)
  cases bearer

/-- A gated request goes out with the credential of the backend's URL, if it makes one,
and behind it all the client's `Authorization` values that are text, in order. The
first of the client's is the one whose token the gate verified; it is the only one
that the backend sees exactly when the URL makes none and the client sent no other
as text. -/
theorem verified_credential_goes_first (urls : UrlCrate) {scheme : Ed25519}
    (state : ProxyState scheme) (json : Json.Codec) (auth : AuthState scheme)
    (gated : state.auth = some auth) (request : Request) (trace : List (Sigma Answer))
    (rest : Handler) (follows : (proxyFallback urls state json request).Follows trace rest)
    (outbound : Outbound) (hops : Nat → Hop) (sent : ⟨.send outbound, hops⟩ ∈ trace) :
    ∃ now later subject value text token, trace = ⟨.unixNow, now⟩ :: later ∧
      request.headers.get HeaderName.authorization = some value ∧ value.toStr = some text ∧
      bearerToken (some text) = some token ∧
      verifyToken json scheme auth.verifyingKey token auth.trustedIssuer now = .ok subject ∧
      outbound.headers.getAll HeaderName.authorization =
        (urlCredential urls outbound.target).toList ++
          (request.headers.getAll HeaderName.authorization).filter
            (fun value => value.toStr.isSome) ∧
      ((request.headers.getAll HeaderName.authorization).filter
        fun value => value.toStr.isSome).head? = some value ∧
      ((∀ seen ∈ outbound.headers.getAll HeaderName.authorization, seen = value) ↔
        urlCredential urls outbound.target = none ∧
          ∀ other ∈ request.headers.getAll HeaderName.authorization,
            other.toStr.isSome = true → other = value) := by
  obtain ⟨⟨now, subject, later, began, accepted⟩, carried⟩ := verified_of_sent gated follows sent
  obtain ⟨token, extracted, verified⟩ := (checkBearer_eq_ok_iff json).mp accepted
  obtain ⟨text, read, bearer⟩ := Option.bind_eq_some_iff.mp extracted
  obtain ⟨value, first, readable⟩ := Option.bind_eq_some_iff.mp read
  have values : outbound.headers.getAll HeaderName.authorization =
      (urlCredential urls outbound.target).toList ++
        (request.headers.getAll HeaderName.authorization).filter
          fun value => value.toStr.isSome := by
    rw [carried, getAll_outboundHeaders _ request.headers (by decide), getAll_ownHeaders,
      if_pos rfl]
  refine ⟨now, later, subject, value, text, token, began, first, readable, bearer, verified, values,
    ?_, ?_⟩
  · rw [HeaderMap.get_eq_head?_getAll] at first
    obtain ⟨others, split⟩ := List.head?_eq_some_iff.mp first
    rw [split, List.filter_cons_of_pos (by rw [readable]; rfl)]
    rfl
  · rw [values, List.forall_mem_append]
    refine and_congr ?_ (by simp only [List.mem_filter, and_imp])
    cases made : urlCredential urls outbound.target with
    | none => simp
    | some credential =>
        obtain ⟨username, password, rfl⟩ := urlCredential_eq_some made
        have differs := ne_basicAuth readable bearer username password
        simp [Ne.symm differs]

def gatedState : ProxyState checksumScheme :=
  (ProxyState.new [⟨"crm".toList, "http://crm:8000".toList⟩]).withAuth OwnKeys.demoGateway.auth

def basicValue : HeaderValue := ⟨asBytes "Basic eDp5".toList, by decide⟩

/-- The demo request with a second credential behind its token. -/
def twoCredentials : Request :=
  { OwnKeys.demoRequest with
    headers := OwnKeys.demoRequest.headers.append (HeaderName.authorization, basicValue) }

def twoCredentialsOutbound : Outbound :=
  outboundRequest plainUrls gatedState "http://crm:8000".toList "/".toList twoCredentials []

def twoCredentialsTrace : List (Sigma Answer) :=
  [⟨.unixNow, (1500 : UInt64)⟩, ⟨.collect twoCredentials.body, ()⟩,
    ⟨.send twoCredentialsOutbound, fun _ => .unanswered⟩]

private theorem follows_twoCredentials :
    (proxyFallback plainUrls gatedState Json.Text.flatCodec twoCredentials).Follows
      twoCredentialsTrace (.done (unreachable "crm".toList)) := by
  have checked : (checkBearer Json.Text.flatCodec OwnKeys.demoGateway.auth twoCredentials
      1500).toOption = some demoUsername := by decide +kernel
  have accepted : checkBearer Json.Text.flatCodec OwnKeys.demoGateway.auth twoCredentials 1500 =
      .ok demoUsername := by
    cases found : checkBearer Json.Text.flatCodec OwnKeys.demoGateway.auth twoCredentials 1500 with
    | error refusal => rw [found] at checked; cases checked
    | ok subject => rw [found] at checked; exact congrArg Except.ok (Option.some.inj checked)
  refine ⟨_, rfl, ?_⟩
  simp only [Program.bind]
  rw [accepted]
  exact ⟨_, rfl, _, rfl, rfl⟩

/-- Of two credentials the gate verified the first, and it goes first. -/
theorem verified_credential_goes_first_of_two :
    (twoCredentialsOutbound.headers.getAll HeaderName.authorization).head? =
      twoCredentials.headers.get HeaderName.authorization := by
  obtain ⟨_, _, _, _, _, _, -, first, -, -, -, values, head, -⟩ := verified_credential_goes_first
    plainUrls gatedState Json.Text.flatCodec OwnKeys.demoGateway.auth rfl twoCredentials
    twoCredentialsTrace _ follows_twoCredentials twoCredentialsOutbound (fun _ => .unanswered)
    (by simp [twoCredentialsTrace])
  have anonymous : urlCredential plainUrls twoCredentialsOutbound.target = none := by
    decide +kernel
  rw [values, anonymous, first, ← head, Option.toList_none, List.nil_append]

/-- The gate verifies the first credential, and the second goes along with it. -/
theorem unverified_credential_goes_along :
    ¬ ∀ (state : ProxyState checksumScheme) (auth : AuthState checksumScheme),
      state.auth = some auth →
      ∀ (request : Request) (trace : List (Sigma Answer)) (rest : Handler),
      (proxyFallback plainUrls state Json.Text.flatCodec request).Follows trace rest →
      ∀ (outbound : Outbound) (hops : Nat → Hop), ⟨.send outbound, hops⟩ ∈ trace →
      ∀ value, request.headers.get HeaderName.authorization = some value →
      ∀ seen ∈ outbound.headers.getAll HeaderName.authorization, seen = value := by
  intro always
  have same := always gatedState OwnKeys.demoGateway.auth rfl twoCredentials twoCredentialsTrace
    _ follows_twoCredentials twoCredentialsOutbound (fun _ => .unanswered)
    (by simp [twoCredentialsTrace])
    ⟨asBytes ("Bearer ".toList ++ OwnKeys.demoToken), by decide +kernel⟩ (by decide +kernel)
    basicValue (by decide +kernel)
  exact absurd (congrArg HeaderValue.bytes same) (by decide +kernel)

end Ratewall.Router
