import Ratewall.Auth.Token
import Ratewall.Foundation.Transition
import Ratewall.Http.Message

/-! Owns the bearer gate of `middleware_auth.rs` and the demo login of
`auth_login.rs`, and the runs of a gateway that owns its keys: successful and
failed logins, and requests with any `Authorization` header at all, in any order
and at any times. The history of a run is the list of its `issue_token` calls.

The scheme is ideal in a run when every signature that the gate accepts was made
for exactly that message by an earlier call. Authenticity follows: the message
determines the header and claims segments, and these determine what is read. -/

namespace Ratewall.Auth

open Ratewall.Rust
open Ratewall.Foundation
open Ratewall.Json
open Ratewall.Http

structure AuthState (scheme : Ed25519) where
  verifyingKey : scheme.VerifyingKey
  trustedIssuer : Option Text

def missingTokenResponse : Response :=
  intoResponse .unauthorized [(HeaderName.wwwAuthenticate, HeaderValue.bearer)]
    "missing or malformed bearer token".toList

def unauthorizedResponse : Response :=
  intoResponse .unauthorized [(HeaderName.wwwAuthenticate, HeaderValue.bearer)]
    "invalid token".toList

def extractToken (request : Request) : Option Text :=
  ((request.headers.get HeaderName.authorization).bind HeaderValue.toStr).bind fun value =>
    bearerToken (some value)

structure LoginState (scheme : Ed25519) where
  signingKey : scheme.SigningKey
  issuer : Text
  ttl : Duration

structure LoginRequest where
  username : Text
  password : Text
deriving DecidableEq, Repr

def demoUsername : Text := "demo".toList
def demoPassword : Text := "demo-password".toList

/-- The arguments of one `issue_token` call, the key apart. -/
structure IssueCall where
  issuer : Text
  subject : Text
  nowUnix : UInt64
  ttl : Duration
deriving DecidableEq, Repr

section

variable (json : Codec) {scheme : Ed25519}

def checkBearer (auth : AuthState scheme) (request : Request) (unixNow : UInt64) :
    Except Response Text :=
  match extractToken request with
  | none => .error missingTokenResponse
  | some token =>
      match verifyToken json scheme auth.verifyingKey token auth.trustedIssuer unixNow with
      | .ok subject => .ok subject
      | .error _ => .error unauthorizedResponse

/-- The gate lets in exactly those whose token verifies. -/
theorem checkBearer_eq_ok_iff {auth : AuthState scheme} {request : Request} {unixNow : UInt64}
    {subject : Text} :
    checkBearer json auth request unixNow = .ok subject ↔
      ∃ token, extractToken request = some token ∧
        verifyToken json scheme auth.verifyingKey token auth.trustedIssuer unixNow =
          .ok subject := by
  unfold checkBearer
  constructor
  · intro accepted
    split at accepted
    next => cases accepted
    next token extracted =>
      refine ⟨token, extracted, ?_⟩
      split at accepted
      next found verified =>
        rw [verified]
        exact congrArg Except.ok (Except.ok.inj accepted)
      next => cases accepted
  · rintro ⟨token, extracted, verified⟩
    simp only [extracted, verified]

/-- A refusal says whether there was a token, and nothing else. -/
theorem refusal_of_checkBearer {auth : AuthState scheme} {request : Request} {unixNow : UInt64}
    {refusal : Response} (refused : checkBearer json auth request unixNow = .error refusal) :
    refusal = if (extractToken request).isSome then unauthorizedResponse
      else missingTokenResponse := by
  unfold checkBearer at refused
  split at refused
  next missing =>
    rw [missing]
    exact (Except.error.inj refused).symm
  next token extracted =>
    rw [extracted]
    split at refused
    next => cases refused
    next => exact (Except.error.inj refused).symm

/-- The `issue_token` call that a login makes, if its credentials are right. -/
def loginCall (state : LoginState scheme) (payload : LoginRequest) (unixNow : UInt64) :
    Option IssueCall :=
  if payload.username ≠ demoUsername ∨ payload.password ≠ demoPassword then none
  else some ⟨state.issuer, payload.username, unixNow, state.ttl⟩

def login (state : LoginState scheme) (payload : LoginRequest) (unixNow : UInt64) : Response :=
  match loginCall state payload unixNow with
  | none => intoResponse .unauthorized [] "invalid credentials".toList
  | some call =>
      match issueToken json scheme state.signingKey call.issuer call.subject call.nowUnix call.ttl with
      | .ok token =>
          jsonResponse .ok (json.toVec (.json [("token".toList, .string token),
            ("token_type".toList, .string "Bearer".toList),
            ("expires_in".toList, .u64 state.ttl.asSecs)]))
      | .error _ => intoResponse .internalServerError [] "token issuance failed".toList

end

/-! ### Runs of a gateway with its own keys -/

/-- What `main` wires up in this mode: the gate trusts the key and the issuer
that the login endpoint signs with. -/
structure OwnKeys (scheme : Ed25519) where
  signingKey : scheme.SigningKey
  issuer : Text
  ttl : Duration

namespace OwnKeys

inductive Event where
  | login (payload : LoginRequest) (unixNow : UInt64)
  | checkBearer (request : Request) (unixNow : UInt64)

section

variable {scheme : Ed25519} (gateway : OwnKeys scheme)

def auth : AuthState scheme :=
  { verifyingKey := scheme.verifyingKey gateway.signingKey, trustedIssuer := some gateway.issuer }

def loginState : LoginState scheme :=
  { signingKey := gateway.signingKey, issuer := gateway.issuer, ttl := gateway.ttl }

/-- A login with the right credentials calls `issue_token`. Nothing else does. -/
def step (issued : List IssueCall) : Event → Option (List IssueCall)
  | .login payload unixNow =>
      match loginCall gateway.loginState payload unixNow with
      | none => some issued
      | some call => some (call :: issued)
  | .checkBearer _ _ => some issued

variable (json : Codec)

def message (call : IssueCall) : List UInt8 :=
  asBytes (signingInput json call.issuer call.subject call.nowUnix call.ttl)

/-- The queries that were put to the signing key. -/
def signed (issued : List IssueCall) : List (List UInt8 × scheme.Signature) :=
  issued.map fun call => (message json call, scheme.sign gateway.signingKey (message json call))

/-- The message and signature that a token is verified as. -/
def query (scheme : Ed25519) (token : Text) : Option (List UInt8 × scheme.Signature) :=
  match token.splitOn '.' with
  | [headerB64, claimsB64, sigB64] =>
      ((Base64Url.decode sigB64).bind scheme.fromSlice).map fun signature =>
        (asBytes (headerB64 ++ '.' :: claimsB64), signature)
  | _ => none

/-- The signature scheme is ideal at this step: what it accepts was signed. -/
def Unforged (issued : List IssueCall) : Event → Prop
  | .login _ _ => True
  | .checkBearer request _ =>
      ∀ asked ∈ (extractToken request).bind (query scheme),
        scheme.verify gateway.auth.verifyingKey asked.1 asked.2 = true →
          asked ∈ signed gateway json issued

/-- If the gate lets the request in, one of the calls issued a token with the
same header and claims segments, for this subject and issuer, that has not
expired. -/
def Authentic (issued : List IssueCall) : Event → Prop
  | .login _ _ => True
  | .checkBearer request time =>
      ∀ subject, checkBearer json gateway.auth request time = .ok subject →
        ∃ call ∈ issued, ∃ original token header claims sig sig',
          issueToken json scheme gateway.signingKey call.issuer call.subject call.nowUnix call.ttl =
            .ok original ∧
          original.splitOn '.' = [header, claims, sig] ∧
          extractToken request = some token ∧ token.splitOn '.' = [header, claims, sig'] ∧
          call.subject = subject ∧ call.issuer = gateway.issuer ∧
          time < saturatingAdd call.nowUnix call.ttl.asSecs

variable {gateway} {json}

private theorem segments_of_message {call : IssueCall} {token header claims sig : Text}
    (pieces : token.splitOn '.' = [header, claims, sig])
    (same : message json call = asBytes (header ++ '.' :: claims)) :
    header = headerSegment json ∧
      claims = claimsSegment json call.issuer call.subject call.nowUnix call.ttl := by
  have input : signingInput json call.issuer call.subject call.nowUnix call.ttl =
      header ++ '.' :: claims := asBytes_injective same
  have joined : token = signingInput json call.issuer call.subject call.nowUnix call.ttl ++
      '.' :: sig := by
    rw [input]
    exact eq_join_of_splitOn pieces
  have first := List.splitOn_eq_singleton (dot_notMem_headerSegment json)
  have second := List.splitOn_eq_singleton
    (dot_notMem_claimsSegment json call.issuer call.subject call.nowUnix call.ttl)
  rw [joined, signingInput, List.splitOn_append_cons_self, List.splitOn_append_cons_self, first,
    second] at pieces
  injection pieces with sameHeader rest
  injection rest with sameClaims
  exact ⟨sameHeader.symm, sameClaims.symm⟩

private theorem authentic_of_unforged {issued : List IssueCall} {event : Event}
    (unforged : Unforged gateway json issued event) : Authentic gateway json issued event := by
  cases event with
  | login payload time => exact trivial
  | checkBearer request time =>
      intro subject accepted
      obtain ⟨token, extracted, verified⟩ := (checkBearer_eq_ok_iff json).mp accepted
      obtain ⟨claims, ⟨header, sig, pieces, -, -, signature⟩, read⟩ :=
        (verifyToken_eq_ok_iff json).mp verified
      obtain ⟨produced, decoded, valid⟩ := verifySignature_eq_ok signature
      have asked : (extractToken request).bind (query scheme) =
          some (asBytes (header ++ '.' :: claims), produced) := by
        rw [extracted, Option.bind_some, query, pieces]
        simp only [decoded, Option.map_some]
      have wasSigned := unforged _ asked valid
      obtain ⟨call, member, same⟩ := List.mem_map.mp wasSigned
      obtain ⟨rfl, rfl⟩ := segments_of_message pieces (congrArg Prod.fst same)
      obtain ⟨issuer, early, rfl⟩ := verifyClaims_claimsSegment_eq_ok json _ _ _ _ read
      exact ⟨call, member, _, token, _, _, _, sig, rfl,
        splitOn_token json call.issuer call.subject call.nowUnix call.ttl _, extracted, pieces, rfl,
        issuer, early⟩

end

/-- In every run in which the scheme is ideal, whatever headers are submitted,
the gate lets in only what a login issued. -/
theorem accepted_token_was_issued {scheme : Ed25519} (json : Codec) (gateway : OwnKeys scheme)
    (events : List Event) (ideal : Meets (step gateway) (Unforged gateway json) [] events) :
    Meets (step gateway) (Authentic gateway json) [] events :=
  @meets_of_invariant _ _ (step gateway) (Unforged gateway json) (fun _ => True) _
    (fun _ _ _ => trivial) (fun _ unforged => authentic_of_unforged unforged) _ _ trivial ideal

def demoGateway : OwnKeys checksumScheme :=
  { signingKey := checksumKey, issuer := "ratewall".toList, ttl := defaultTokenTtl }

def demoToken : Text :=
  signingInput Json.Text.flatCodec "ratewall".toList demoUsername 1000 defaultTokenTtl ++
    '.' :: Base64Url.encode (checksumScheme.toBytes (checksumScheme.sign checksumKey (asBytes
      (signingInput Json.Text.flatCodec "ratewall".toList demoUsername 1000 defaultTokenTtl))))

def demoRequest : Request where
  method := .get
  path := "/crm".toList
  query := none
  headers := HeaderMap.empty.append (HeaderName.authorization,
    ⟨asBytes ("Bearer ".toList ++ demoToken), by decide +kernel⟩)
  body := ⟨[], none⟩

/-- One login, then one request that carries its token. -/
def demoRun : List Event :=
  [.login ⟨demoUsername, demoPassword⟩ 1000, .checkBearer demoRequest 1500]

theorem checkBearer_demoRequest :
    checkBearer Json.Text.flatCodec demoGateway.auth demoRequest 1500 = .ok demoUsername := by
  have extracted : extractToken demoRequest = some demoToken := by decide +kernel
  have early : ¬ (1500 : UInt64) ≥ saturatingAdd 1000 defaultTokenTtl.asSecs := by decide
  apply (checkBearer_eq_ok_iff Json.Text.flatCodec).mpr
  refine ⟨demoToken, extracted, ?_⟩
  have decided := verifyToken_issued Json.Text.flatCodec "ratewall".toList demoUsername 1000
    defaultTokenTtl checksumKey (some "ratewall".toList) 1500 rfl
  rw [verifyClaims_claimsSegment, if_neg (not_not.mpr rfl), if_neg early] at decided
  exact decided

theorem accepted_token_was_issued_on_demo_run :
    Meets (step demoGateway) (Unforged demoGateway Json.Text.flatCodec) [] demoRun ∧
      checkBearer Json.Text.flatCodec demoGateway.auth demoRequest 1500 = .ok demoUsername ∧
      Meets (step demoGateway) (Authentic demoGateway Json.Text.flatCodec) [] demoRun := by
  have extracted : extractToken demoRequest = some demoToken := by decide +kernel
  have asked : query checksumScheme demoToken = some
      (message Json.Text.flatCodec ⟨"ratewall".toList, demoUsername, 1000, defaultTokenTtl⟩,
        checksumScheme.sign checksumKey
          (message Json.Text.flatCodec ⟨"ratewall".toList, demoUsername, 1000, defaultTokenTtl⟩)) := by
    unfold query demoToken
    rw [splitOn_token]
    simp only [Base64Url.decode_encode, Option.bind_some, checksumScheme.fromSlice_toBytes]
    rfl
  have ideal : Meets (step demoGateway) (Unforged demoGateway Json.Text.flatCodec) [] demoRun := by
    refine ⟨trivial, ?_, trivial⟩
    intro found presented _
    rw [extracted, Option.bind_some, asked] at presented
    obtain rfl := Option.some.inj presented
    exact List.mem_cons_self
  exact ⟨ideal, checkBearer_demoRequest,
    accepted_token_was_issued Json.Text.flatCodec demoGateway demoRun ideal⟩

end OwnKeys

end Ratewall.Auth
