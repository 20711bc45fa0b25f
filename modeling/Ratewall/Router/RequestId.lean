import Ratewall.Router.Headers
import Ratewall.Router.Stages

/-! Owns `middleware.rs`: the id of a request, its span and the header of its response.
The id is chosen here and put on the span and the response. The request itself goes on
as it came, so the backend sees whatever the client wrote under the name, and that is
the id only for some requests. The subject of the span and the log lines are left out. -/

namespace Ratewall.Router

open Ratewall.Rust
open Ratewall.Foundation
open Ratewall.Foundation.Program
open Ratewall.Http
open Ratewall.Auth

/-! ### UUIDs -/

/-- The 128 bits of a `uuid::Uuid`. -/
structure Uuid where
  bytes : List UInt8
  length : bytes.length = 16

def hexOf (bytes : List UInt8) : Text :=
  bytes.flatMap fun byte => [Nat.digitChar (byte.toNat / 16), Nat.digitChar (byte.toNat % 16)]

/-- `Uuid::to_string`: the hyphenated form. -/
def Uuid.text (uuid : Uuid) : Text :=
  hexOf (uuid.bytes.take 4) ++ '-' :: hexOf ((uuid.bytes.drop 4).take 2) ++
    '-' :: hexOf ((uuid.bytes.drop 6).take 2) ++ '-' :: hexOf ((uuid.bytes.drop 8).take 2) ++
    '-' :: hexOf (uuid.bytes.drop 10)

/-! ### The middleware -/

def requestIdHeader : HeaderName := ⟨"x-request-id".toList, by decide⟩

structure RequestSpan where
  requestId : Text
  method : Text
  path : Text
deriving DecidableEq, Repr

/-- What the middleware returns and what it has written on the span. -/
structure Traced where
  span : RequestSpan
  response : Response

/-- The id that the caller supplied. The cap is on the length of the UTF-8 form. -/
def incomingId (headers : HeaderMap) : Option Text :=
  ((headers.get requestIdHeader).bind HeaderValue.toStr).filter fun value =>
    !value.isEmpty && decide ((asBytes value).length ≤ 128)

/-- `newV4` is the UUID that is drawn if the caller supplied no id. -/
def requestIdOf (newV4 : Uuid) (headers : HeaderMap) : Text :=
  (incomingId headers).getD newV4.text

def withRequestId (requestId : Text) (response : Response) : Response :=
  match HeaderValue.fromStr requestId with
  | some value => { response with headers := response.headers.insert (requestIdHeader, value) }
  | none => response

def requestIdAndTrace (newV4 : Uuid) (request : Request) (next : Request → Handler) :
    Program Op Answer Traced := do
  let requestId := requestIdOf newV4 request.headers
  let span : RequestSpan :=
    ⟨requestId, request.method.text, request.path ++ queryText request.query⟩
  let response ← next request
  pure ⟨span, withRequestId requestId response⟩

/-! ### One id -/

/-- The response carries the id once, as text. -/
def Returned (requestId : Text) (response : Response) : Prop :=
  (response.headers.getAll requestIdHeader).map HeaderValue.toStr = [some requestId]

/-- The backend gets the id, and nothing else under its name. -/
def Received (requestId : Text) (outbound : Outbound) : Prop :=
  outbound.headers.getAll requestIdHeader ≠ [] ∧
    ∀ value ∈ outbound.headers.getAll requestIdHeader, value.toStr = some requestId

/-- The texts under the name, as the client sent them. -/
def requestIds (headers : HeaderMap) : List Text :=
  (headers.getAll requestIdHeader).filterMap HeaderValue.toStr

/-- The client itself sent the id: its first value is text of a proper length and every
other text value repeats it. Without a first text, the other texts would have to be the
UUID that was drawn. -/
def SentByClient (newV4 : Uuid) (headers : HeaderMap) : Prop :=
  match (headers.get requestIdHeader).bind HeaderValue.toStr with
  | some first =>
      first ≠ [] ∧ (asBytes first).length ≤ 128 ∧ ∀ text ∈ requestIds headers, text = first
  | none => requestIds headers ≠ [] ∧ ∀ text ∈ requestIds headers, text = newV4.text

/-! ### The text of a UUID -/

def uuidChars : Text := "0123456789abcdef-".toList

private theorem mem_hexOf {bytes : List UInt8} {c : Char} (member : c ∈ hexOf bytes) :
    c ∈ uuidChars := by
  have digits : ∀ digit < 16, Nat.digitChar digit ∈ uuidChars := by decide
  obtain ⟨byte, -, inside⟩ := List.mem_flatMap.mp member
  have bound := byte.toNat_lt
  rcases List.mem_pair.mp inside with rfl | rfl
  · exact digits _ (by omega)
  · exact digits _ (by omega)

private theorem length_hexOf (bytes : List UInt8) : (hexOf bytes).length = 2 * bytes.length := by
  induction bytes with
  | nil => rfl
  | cons byte rest ih =>
      unfold hexOf at ih ⊢
      rw [List.flatMap_cons, List.length_append, ih, List.length_cons]
      simp only [List.length_cons, List.length_nil]
      omega

private theorem mem_uuid {uuid : Uuid} {c : Char} (member : c ∈ uuid.text) : c ∈ uuidChars := by
  have hyphen : '-' ∈ uuidChars := by decide
  simp only [Uuid.text, List.mem_append, List.mem_cons] at member
  rcases member with (((digit | rfl | digit) | rfl | digit) | rfl | digit) | rfl | digit
  all_goals first | exact hyphen | exact mem_hexOf digit

private theorem length_uuid (uuid : Uuid) : uuid.text.length = 36 := by
  have sixteen := uuid.length
  simp only [Uuid.text, List.length_append, List.length_cons, length_hexOf, List.length_take,
    List.length_drop]
  omega

private theorem fromStr_uuid (uuid : Uuid) :
    ∃ value, HeaderValue.fromStr uuid.text = some value := by
  have visible : uuidChars.all fun c => (String.utf8EncodeChar c).all fun byte =>
      (32 ≤ byte && byte < 127) || byte == 9 := by decide
  have all : (asBytes uuid.text).all fun byte => (32 ≤ byte && byte < 127) || byte == 9 := by
    rw [List.all_eq_true]
    intro byte member
    obtain ⟨c, inside, encoded⟩ := List.mem_flatMap.mp member
    exact List.all_eq_true.mp (List.all_eq_true.mp visible c (mem_uuid inside)) byte encoded
  exact ⟨_, dif_pos all⟩

private theorem length_asBytes_uuid (uuid : Uuid) : (asBytes uuid.text).length = 36 := by
  have low : uuidChars.all fun c => decide (c.toNat < 128) := by decide
  have same : charsOf (asBytes uuid.text) = uuid.text := by
    apply charsOf_asBytes
    intro c member
    simpa using List.all_eq_true.mp low c (mem_uuid member)
  calc (asBytes uuid.text).length
      = (charsOf (asBytes uuid.text)).length := (List.length_map _).symm
    _ = 36 := by rw [same, length_uuid]

/-! ### What the middleware does -/

section

variable {newV4 : Uuid} {headers : HeaderMap}

private theorem incomingId_eq_some {text : Text} (supplied : incomingId headers = some text) :
    (headers.get requestIdHeader).bind HeaderValue.toStr = some text ∧ text ≠ [] ∧
      (asBytes text).length ≤ 128 := by
  unfold incomingId at supplied
  obtain ⟨read, fits⟩ := Option.filter_eq_some_iff.mp supplied
  simp only [Bool.and_eq_true, Bool.not_eq_true', List.isEmpty_eq_false_iff,
    decide_eq_true_eq] at fits
  exact ⟨read, fits⟩

/-- Whichever id was chosen, it can stand in a header. -/
theorem fromStr_requestIdOf (newV4 : Uuid) (headers : HeaderMap) :
    ∃ value, HeaderValue.fromStr (requestIdOf newV4 headers) = some value := by
  unfold requestIdOf
  cases supplied : incomingId headers with
  | none => exact fromStr_uuid newV4
  | some text =>
      obtain ⟨value, -, read⟩ := Option.bind_eq_some_iff.mp (incomingId_eq_some supplied).1
      exact ⟨value, HeaderValue.fromStr_of_toStr read⟩

private theorem returned_withRequestId (newV4 : Uuid) (headers : HeaderMap) (response : Response) :
    Returned (requestIdOf newV4 headers) (withRequestId (requestIdOf newV4 headers) response) := by
  obtain ⟨value, made⟩ := fromStr_requestIdOf newV4 headers
  unfold Returned withRequestId
  rw [made]
  show ((response.headers.insert (requestIdHeader, value)).getAll requestIdHeader).map _ = _
  rw [HeaderMap.getAll_insert response.headers (requestIdHeader, value), List.map_singleton,
    HeaderValue.toStr_of_fromStr made]

private theorem received_iff {urls : UrlCrate} {requestId : Text} {outbound : Outbound}
    (carried : outbound.headers =
      outboundHeaders (ownHeaders urls outbound.target) headers) :
    Received requestId outbound ↔
      requestIds headers ≠ [] ∧ ∀ text ∈ requestIds headers, text = requestId := by
  have values : outbound.headers.getAll requestIdHeader =
      (headers.getAll requestIdHeader).filter fun value => value.toStr.isSome := by
    rw [carried, getAll_outboundHeaders _ headers (by decide), getAll_ownHeaders,
      if_neg (by decide), List.nil_append]
  unfold Received requestIds
  rw [values]
  refine and_congr (not_congr ?_) ?_
  · rw [List.filter_eq_nil_iff, List.filterMap_eq_nil_iff]
    simp only [Option.not_isSome_iff_eq_none]
  · constructor
    · intro same text member
      obtain ⟨value, inside, read⟩ := List.mem_filterMap.mp member
      have kept := same value (List.mem_filter.mpr ⟨inside, by rw [read]; rfl⟩)
      exact Option.some.inj (read.symm.trans kept)
    · intro same value member
      obtain ⟨inside, readable⟩ := List.mem_filter.mp member
      obtain ⟨text, read⟩ := Option.isSome_iff_exists.mp readable
      rw [read, same text (List.mem_filterMap.mpr ⟨value, inside, read⟩)]

private theorem sentByClient_iff : SentByClient newV4 headers ↔
    requestIds headers ≠ [] ∧ ∀ text ∈ requestIds headers, text = requestIdOf newV4 headers := by
  unfold SentByClient
  cases read : (headers.get requestIdHeader).bind HeaderValue.toStr with
  | none =>
      have drawn : requestIdOf newV4 headers = newV4.text := by
        simp [requestIdOf, incomingId, read]
      rw [drawn]
  | some first =>
      have listed : first ∈ requestIds headers := by
        obtain ⟨value, got, text⟩ := Option.bind_eq_some_iff.mp read
        rw [HeaderMap.get_eq_head?_getAll] at got
        exact List.mem_filterMap.mpr ⟨value, List.mem_of_mem_head? got, text⟩
      by_cases fits : first ≠ [] ∧ (asBytes first).length ≤ 128
      · have honored : requestIdOf newV4 headers = first := by
          simp only [requestIdOf, incomingId, read]
          rw [Option.filter_some, if_pos (by simpa using fits)]
          rfl
        rw [honored]
        constructor
        · rintro ⟨-, -, same⟩
          exact ⟨List.ne_nil_of_mem listed, same⟩
        · rintro ⟨-, same⟩
          exact ⟨fits.1, fits.2, same⟩
      · -- the id is a UUID then, and the first value is none
        have drawn : requestIdOf newV4 headers = newV4.text := by
          simp only [requestIdOf, incomingId, read]
          rw [Option.filter_some, if_neg (by simpa using fits)]
          rfl
        constructor
        · rintro ⟨nonempty, short, -⟩
          exact absurd ⟨nonempty, short⟩ fits
        · rintro ⟨-, same⟩
          refine absurd ?_ fits
          rw [same first listed, drawn, length_asBytes_uuid]
          refine ⟨?_, by decide⟩
          intro empty
          have long := length_uuid newV4
          rw [empty] at long
          cases long

end

private theorem carries_proxyFallback (json : Json.Codec) (urls : UrlCrate) {scheme : Ed25519}
    (state : ProxyState scheme) (request : Request) :
    All (Carries urls request.headers) (proxyFallback urls state json request) := by
  unfold proxyFallback
  split
  next => exact carries_rateLimit none request
  next auth _ =>
    apply All.bind (carries_ask .unixNow trivial)
    intro now
    split
    next subject _ => exact carries_rateLimit (some subject) request
    next => exact trivial

/-- The response carries the id of the span, whatever ran in between; and what goes to
the backend carries it exactly when the client had sent it. -/
theorem one_request_id_iff_sent_by_client (json : Json.Codec) (urls : UrlCrate)
    {scheme : Ed25519} (state : ProxyState scheme) (newV4 : Uuid) (request : Request)
    (next : Request → Handler) :
    (∀ trace traced, (requestIdAndTrace newV4 request next).Returns trace traced →
      Returned traced.span.requestId traced.response) ∧
    (∀ trace traced,
      (requestIdAndTrace newV4 request (proxyFallback urls state json)).Returns trace traced →
      ∀ (outbound : Outbound) (hops : Nat → Hop), ⟨.send outbound, hops⟩ ∈ trace →
      ((Returned traced.span.requestId traced.response ∧
          Received traced.span.requestId outbound) ↔ SentByClient newV4 request.headers)) := by
  refine ⟨?_, ?_⟩
  · intro trace traced returns
    obtain ⟨_, _, response, -, -, -, rfl⟩ := returns_bind_iff.mp returns
    exact returned_withRequestId newV4 request.headers response
  · intro trace traced returns outbound hops sent
    obtain ⟨first, second, response, rfl, ran, rfl, rfl⟩ := returns_bind_iff.mp returns
    rw [List.append_nil] at sent
    have carried : outbound.headers =
        outboundHeaders (ownHeaders urls outbound.target) request.headers :=
      (carries_proxyFallback json urls state request).of_follows
        (returns_iff_follows.mp ran) _ sent
    rw [received_iff carried, sentByClient_iff]
    exact and_iff_right (returned_withRequestId newV4 request.headers response)

def traceValue : HeaderValue := ⟨asBytes "my-trace-42".toList, by decide⟩

def drawnUuid : Uuid := ⟨List.replicate 16 171, by decide⟩

def plainState : ProxyState checksumScheme :=
  ProxyState.new [⟨"crm".toList, "http://crm:8000".toList⟩]

def plainOutbound (headers : HeaderMap) : Outbound :=
  outboundRequest plainUrls plainState "http://crm:8000".toList "/".toList (requestWith headers) []

/-- The backend is asked and does not answer. -/
def unansweredTrace (headers : HeaderMap) : List (Sigma Answer) :=
  [⟨.collect (requestWith headers).body, ()⟩,
    ⟨.send (plainOutbound headers), fun _ => .unanswered⟩]

def unansweredTraced (headers : HeaderMap) : Traced where
  span := ⟨requestIdOf drawnUuid headers, "GET".toList, "/crm".toList⟩
  response := withRequestId (requestIdOf drawnUuid headers) (unreachable "crm".toList)

private theorem returns_unanswered (headers : HeaderMap) :
    (requestIdAndTrace drawnUuid (requestWith headers)
      (proxyFallback plainUrls plainState Json.Text.flatCodec)).Returns
        (unansweredTrace headers) (unansweredTraced headers) := by
  refine returns_bind_iff.mpr ⟨unansweredTrace headers, [], unreachable "crm".toList,
    (List.append_nil _).symm, ?_, rfl, rfl⟩
  exact ⟨(), _, rfl, fun _ => .unanswered, _, rfl, rfl, rfl⟩

theorem one_request_id_iff_sent_by_client_my_trace :
    let headers := headersOf [(requestIdHeader, traceValue)]
    Returned "my-trace-42".toList (unansweredTraced headers).response ∧
      Received "my-trace-42".toList (plainOutbound headers) := by
  intro headers
  have honored : (unansweredTraced headers).span.requestId = "my-trace-42".toList := by
    decide +kernel
  have sent : SentByClient drawnUuid (requestWith headers).headers :=
    ⟨by decide +kernel, by decide +kernel, by decide +kernel⟩
  have same := ((one_request_id_iff_sent_by_client Json.Text.flatCodec plainUrls plainState
    drawnUuid (requestWith headers) (proxyFallback plainUrls plainState Json.Text.flatCodec)).2
    (unansweredTrace headers) (unansweredTraced headers) (returns_unanswered headers)
    (plainOutbound headers) (fun _ => .unanswered) (by simp [unansweredTrace])).mpr sent
  rw [honored] at same
  exact same

/-- The id that the gateway draws never reaches the backend. -/
theorem drawn_id_not_received :
    ¬ ∀ (request : Request) (trace : List (Sigma Answer)) (traced : Traced),
      (requestIdAndTrace drawnUuid request
        (proxyFallback plainUrls plainState Json.Text.flatCodec)).Returns trace traced →
      ∀ (outbound : Outbound) (hops : Nat → Hop), ⟨.send outbound, hops⟩ ∈ trace →
        Received traced.span.requestId outbound := by
  intro always
  have received := always (requestWith HeaderMap.empty) (unansweredTrace HeaderMap.empty)
    (unansweredTraced HeaderMap.empty) (returns_unanswered HeaderMap.empty)
    (plainOutbound HeaderMap.empty) (fun _ => .unanswered) (by simp [unansweredTrace])
  exact received.1 (by decide +kernel)

end Ratewall.Router
