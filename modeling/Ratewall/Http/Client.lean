import Ratewall.Foundation.Base64Url
import Ratewall.Http.Message

/-! Owns the HTTP client of the gateway as `reqwest` documents it: a request starts
with the credentials that stand in its URL, a client with default settings follows
redirects until ten URLs have been asked, gives the last response as soon as its head
has arrived, and reads the body only when asked. The exchange itself is the
surroundings' business: `Hop` is what becomes of one request of the client, and a
sequence of hops is the course of one `send`. URLs are a parameter. -/

namespace Ratewall.Http

open Ratewall.Rust
open Ratewall.Foundation

/-- What the client uses of the `url` crate. The authority is the host with the port;
the user information, decoded, stands apart: a name and perhaps a password, if either
is written. -/
structure UrlCrate where
  Url : Type
  parse : Text → Option Url
  join : Url → List UInt8 → Option Url
  scheme : Url → Text
  authority : Url → Text
  userInfo : Url → Option (Text × Option Text)

/-- The request as it is given to `send`. What belongs to the connection (`Host`,
`Content-Length`) or is a default of the client (`Accept`) joins its headers later. -/
structure Outbound where
  method : Method
  target : Text
  headers : HeaderMap
  timeoutNanos : Nat
  body : List UInt8

/-- How the transfer of a response body ends, with the bytes received by then. -/
inductive Transfer where
  | complete
  | lost (received : Nat)
  | timedOut (received : Nat)
deriving DecidableEq, Repr

/-- A response as the backend sends it. The parser of the client gives up on a
head of more than a hundred fields. -/
structure WireResponse where
  status : StatusCode
  headers : HeaderMap
  body : List UInt8
  transfer : Transfer
  few : headers.fields.length ≤ 100

/-- What becomes of one request: the client cannot send it (no URI, another scheme than
`http`, as there is no TLS), no response arrives (refused, not resolved, timed out, cut
off in its head), the client refuses the head of a response (more than a hundred fields,
too long), or a head arrives. -/
inductive Hop where
  | unsent
  | unanswered
  | unreadable
  | answered (response : WireResponse)

inductive SendError where
  | builder
  | transport
  | tooManyRedirects
deriving DecidableEq, Repr

inductive Ending (urls : UrlCrate) where
  | unsent (url : urls.Url)
  | unanswered (url : urls.Url)
  | unreadable (url : urls.Url)
  | answered (url : urls.Url) (response : WireResponse)
  | tooManyRedirects

def isRedirect (status : StatusCode) : Bool :=
  status.code ∈ [301, 302, 303, 307, 308]

/-- Where the client goes next. The request body is in memory, so redirects that
repeat it are followed as well. -/
def redirectTarget (urls : UrlCrate) (url : urls.Url) (response : WireResponse) :
    Option urls.Url :=
  if isRedirect response.status then
    (response.headers.get HeaderName.location).bind fun value => urls.join url value.bytes
  else none

def follow (urls : UrlCrate) (hops : Nat → Hop) : Nat → Nat → urls.Url → Ending urls
  | left, index, url =>
      match hops index with
      | .unsent => .unsent url
      | .unanswered => .unanswered url
      | .unreadable => .unreadable url
      | .answered response =>
          match redirectTarget urls url response, left with
          | none, _ => .answered url response
          | some _, 0 => .tooManyRedirects
          | some next, left + 1 => follow urls hops left (index + 1) next

/-- The default redirect policy stops at ten URLs, and the first one counts. -/
def maxRedirects : Nat := 9

def ending (urls : UrlCrate) (url : urls.Url) (hops : Nat → Hop) : Ending urls :=
  follow urls hops maxRedirects 0 url

/-- One request of the client, as far as redirects change it. -/
structure WireRequest (urls : UrlCrate) where
  url : urls.Url
  method : Method
  body : List UInt8

/-- What the client asks for at the next URL. The older redirects turn everything but
`HEAD` into a `GET` without a body, the newer ones repeat the request. -/
def WireRequest.redirected {urls : UrlCrate} (request : WireRequest urls) (status : StatusCode)
    (next : urls.Url) : WireRequest urls :=
  if status.code ∈ [301, 302, 303] then
    { url := next, method := if request.method = .head then .head else .get, body := [] }
  else { request with url := next }

/-- All requests that one `send` sets out to make, along the same hops as `follow`. -/
def exchanges (urls : UrlCrate) (hops : Nat → Hop) :
    Nat → Nat → WireRequest urls → List (WireRequest urls)
  | left, index, request =>
      request ::
        match hops index with
        | .unsent => []
        | .unanswered => []
        | .unreadable => []
        | .answered response =>
            match redirectTarget urls request.url response, left with
            | none, _ => []
            | some _, 0 => []
            | some next, left + 1 =>
                exchanges urls hops left (index + 1) (request.redirected response.status next)

@[simp] theorem url_redirected {urls : UrlCrate} (request : WireRequest urls)
    (status : StatusCode) (next : urls.Url) : (request.redirected status next).url = next := by
  unfold WireRequest.redirected
  split <;> rfl

private theorem exchanges_ne_nil {urls : UrlCrate} {hops : Nat → Hop} {left index : Nat}
    {request : WireRequest urls} : exchanges urls hops left index request ≠ [] := by
  unfold exchanges
  exact List.cons_ne_nil _ _

/-- `exchanges` ends where `follow` does: at the URL of the last request. -/
theorem getLast?_exchanges {urls : UrlCrate} {hops : Nat → Hop} {left index : Nat}
    {request : WireRequest urls} {url : urls.Url}
    (ends : follow urls hops left index request.url = .unanswered url ∨
      ∃ response, follow urls hops left index request.url = .answered url response) :
    ∃ last, (exchanges urls hops left index request).getLast? = some last ∧ last.url = url := by
  induction left generalizing index request with
  | zero =>
      unfold follow at ends
      unfold exchanges
      cases hop : hops index with
      | unsent => simp [hop] at ends
      | unanswered => exact ⟨request, rfl, by simpa [hop] using ends⟩
      | unreadable => simp [hop] at ends
      | answered response =>
          cases goes : redirectTarget urls request.url response with
          | none => exact ⟨request, by simp [goes], by simpa [hop, goes] using ends⟩
          | some next => simp [hop, goes] at ends
  | succ left inductionHypothesis =>
      unfold follow at ends
      unfold exchanges
      cases hop : hops index with
      | unsent => simp [hop] at ends
      | unanswered => exact ⟨request, rfl, by simpa [hop] using ends⟩
      | unreadable => simp [hop] at ends
      | answered response =>
          cases goes : redirectTarget urls request.url response with
          | none => exact ⟨request, by simp [goes], by simpa [hop, goes] using ends⟩
          | some next =>
              simp only [hop, goes] at ends
              obtain ⟨last, found, same⟩ := @inductionHypothesis (index + 1)
                (request.redirected response.status next) (by simpa using ends)
              exact ⟨last, by simp [goes, List.getLast?_cons, found], same⟩

def Ending.result {urls : UrlCrate} : Ending urls → Except SendError WireResponse
  | .unsent _ => .error .builder
  | .unanswered _ => .error .transport
  | .unreadable _ => .error .transport
  | .answered _ response => .ok response
  | .tooManyRedirects => .error .tooManyRedirects

section

variable {urls : UrlCrate} {url : urls.Url} {hops : Nat → Hop} {first : WireResponse}

/-- A first response that leads nowhere else ends the exchange. -/
theorem ending_of_not_redirected (answered : hops 0 = .answered first)
    (stays : redirectTarget urls url first = none) :
    ending urls url hops = .answered url first := by
  unfold ending follow
  simp only [answered, stays]

/-- The first request is the only one exactly if its response leads nowhere else. -/
theorem exchanges_eq_singleton_iff {request : WireRequest urls} (answered : hops 0 = .answered first) :
    exchanges urls hops maxRedirects 0 request = [request] ↔
      redirectTarget urls request.url first = none := by
  unfold exchanges maxRedirects
  simp only [answered]
  cases redirectTarget urls request.url first with
  | none => simp
  | some next => simp [exchanges_ne_nil]

end

/-- `Response::bytes`. -/
def WireResponse.bytes (response : WireResponse) : Except Transfer (List UInt8) :=
  match response.transfer with
  | .complete => .ok response.body
  | broken => .error broken

/-- The text of a `Basic` credential. -/
def basicText (username : Text) (password : Option Text) : Text :=
  "Basic ".toList ++ Base64Url.encodeStandard (asBytes (username ++ ':' :: password.getD []))

private theorem visible_basicText (username : Text) (password : Option Text) :
    (asBytes (basicText username password)).all
      fun byte => (32 ≤ byte && byte < 127) || byte == 9 := by
  have letters : ∀ digit : Base64Url.Digit, (asBytes [Base64Url.standardLetter digit]).all
      fun byte => (32 ≤ byte && byte < 127) || byte == 9 := by decide
  have padding : (asBytes ['=']).all fun byte => (32 ≤ byte && byte < 127) || byte == 9 := by decide
  unfold asBytes basicText
  rw [List.flatMap_append, List.all_append, Bool.and_eq_true]
  refine ⟨by decide, List.all_eq_true.mpr ?_⟩
  intro byte member
  obtain ⟨c, inside, encoded⟩ := List.mem_flatMap.mp member
  rcases Base64Url.mem_encodeStandard inside with rfl | ⟨digit, rfl⟩
  · exact List.all_eq_true.mp padding byte (by simpa [asBytes] using encoded)
  · exact List.all_eq_true.mp (letters digit) byte (by simpa [asBytes] using encoded)

/-- The value that `RequestBuilder::basic_auth` makes. -/
def basicAuth (username : Text) (password : Option Text) : HeaderValue :=
  ⟨asBytes (basicText username password),
    HeaderValue.all_isFieldByte (visible_basicText username password)⟩

example : basicText "Aladdin".toList (some "open sesame".toList) =
    "Basic QWxhZGRpbjpvcGVuIHNlc2FtZQ==".toList := by decide

theorem toStr_basicAuth (username : Text) (password : Option Text) :
    (basicAuth username password).toStr = some (basicText username password) := by
  apply HeaderValue.toStr_of_fromStr
  unfold HeaderValue.fromStr
  rw [dif_pos (visible_basicText username password)]
  rfl

/-- The credential that the user information of a URL makes. -/
def urlCredential (urls : UrlCrate) (target : Text) : Option HeaderValue :=
  ((urls.parse target).bind urls.userInfo).map fun user => basicAuth user.1 user.2

/-- The headers that `Client::request` starts with: the user information is taken out
of the URL and sent as a credential. -/
def ownHeaders (urls : UrlCrate) (target : Text) : HeaderMap :=
  match urlCredential urls target with
  | some value => HeaderMap.empty.append (HeaderName.authorization, value)
  | none => HeaderMap.empty

section

variable {urls : UrlCrate} {target : Text}

theorem urlCredential_eq_some {value : HeaderValue} (made : urlCredential urls target = some value) :
    ∃ username password, value = basicAuth username password := by
  obtain ⟨user, -, same⟩ := Option.map_eq_some_iff.mp made
  exact ⟨user.1, user.2, same.symm⟩

/-- The client starts from at most one field. -/
theorem ownHeaders_fields : (ownHeaders urls target).fields =
    (urlCredential urls target).toList.map fun value => (HeaderName.authorization, value) := by
  unfold ownHeaders
  cases urlCredential urls target with
  | none => rfl
  | some value => rfl

end

/-- The place and the user information of an authority, nothing decoded. -/
def splitUser (authority : Text) : Text × Option (Text × Option Text) :=
  match splitOnce '@' authority with
  | none => (authority, none)
  | some (user, place) =>
      match splitOnce ':' user with
      | none => (place, some (user, none))
      | some (username, password) => (place, some (username, some password))

/-- Absolute `http` URLs as authority and path, on which exchanges can be
evaluated. -/
def plainUrls : UrlCrate where
  Url := Text × Text
  parse text :=
    (stripPrefix "http://".toList text).map fun rest =>
      (splitOnce '/' rest).elim (rest, ['/']) fun parts => (parts.1, '/' :: parts.2)
  join url reference :=
    match charsOf reference with
    | '/' :: rest => some (url.1, '/' :: rest)
    | text =>
        (stripPrefix "http://".toList text).map fun rest =>
          (splitOnce '/' rest).elim (rest, ['/']) fun parts => (parts.1, '/' :: parts.2)
  scheme _ := "http".toList
  authority url := (splitUser url.1).1
  userInfo url := (splitUser url.1).2

end Ratewall.Http
