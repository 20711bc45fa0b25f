import Ratewall.Auth.Gate
import Ratewall.Config

/-! Owns the authentication that `main` wires up: from a validated configuration
and the key material it loaded, the state of the gate and, in own-keys mode, that
of the login endpoint. Both endpoints of one gateway share key and issuer, so a
token can be followed from the login that hands it out to the gate that reads it.
It does not own the key files. -/

namespace Ratewall.Auth

open Ratewall.Rust
open Ratewall.Config
open Ratewall.Foundation
open Ratewall.Json
open Ratewall.Http

def ownIssuer : Text := "ratewall".toList

/-- `main` up to the two states. Wherever the source exits there is no result.
`signingKey` is what `load_or_create_signing_key` gave, `issuerKey` what the file
of the external issuer holds; each is only looked at in its own mode. -/
def startAuth {scheme : Ed25519} (config : GatewayConfig)
    (signingKey : Except AuthError (scheme.SigningKey × Bool))
    (issuerKey : Option scheme.VerifyingKey) :
    Option (AuthState scheme × Option (LoginState scheme)) :=
  match config.validate with
  | .error _ => none
  | .ok _ =>
      if config.auth.issuesOwnTokens then
        match signingKey with
        | .error _ => none
        | .ok (key, _) =>
            some (⟨scheme.verifyingKey key, some ownIssuer⟩,
              some ⟨key, ownIssuer, Duration.fromSecs config.auth.tokenTtlSecs⟩)
      else
        match issuerKey, config.auth.issuer with
        | some key, some issuer => some (⟨key, some issuer⟩, none)
        | _, _ => none

section

variable {scheme : Ed25519} {config : GatewayConfig}
  {signingKey : Except AuthError (scheme.SigningKey × Bool)}
  {issuerKey : Option scheme.VerifyingKey} {auth : AuthState scheme}
  {login : Option (LoginState scheme)}

/-- A gateway that starts has a valid configuration. It either owns its keys, and
has a login endpoint whose tokens the gate trusts, or trusts an external issuer. -/
theorem startAuth_cases (started : startAuth config signingKey issuerKey = some (auth, login)) :
    (∃ routes, config.validate = .ok routes) ∧
      ((config.auth.issuesOwnTokens = true ∧ ∃ key created, signingKey = .ok (key, created) ∧
          auth = ⟨scheme.verifyingKey key, some ownIssuer⟩ ∧
          login = some ⟨key, ownIssuer, Duration.fromSecs config.auth.tokenTtlSecs⟩) ∨
        (config.auth.issuesOwnTokens = false ∧ ∃ key issuer, issuerKey = some key ∧
          config.auth.issuer = some issuer ∧ auth = ⟨key, some issuer⟩ ∧ login = none)) := by
  unfold startAuth at started
  split at started
  next => cases started
  next routes accepted =>
    refine ⟨⟨routes, accepted⟩, ?_⟩
    split at started
    next own =>
      split at started
      next => cases started
      next key created =>
        have pair := Prod.mk.inj (Option.some.inj started)
        exact Or.inl ⟨own, key, created, rfl, pair.1.symm, pair.2.symm⟩
    next external =>
      split at started
      next key issuer configured =>
        have pair := Prod.mk.inj (Option.some.inj started)
        exact Or.inr ⟨Bool.eq_false_iff.mpr external, key, issuer, rfl, configured, pair.1.symm,
          pair.2.symm⟩
      next => cases started

private theorem startAuth_eq_some_login {state : LoginState scheme}
    (started : startAuth config signingKey issuerKey = some (auth, some state)) :
    ∃ key, auth = ⟨scheme.verifyingKey key, some ownIssuer⟩ ∧
      state = ⟨key, ownIssuer, Duration.fromSecs config.auth.tokenTtlSecs⟩ := by
  rcases (startAuth_cases started).2 with ⟨-, key, -, -, gate, same⟩ | ⟨-, -, -, -, -, -, none⟩
  · exact ⟨key, gate, Option.some.inj same⟩
  · cases none

theorem startAuth_login_isSome
    (started : startAuth config signingKey issuerKey = some (auth, login)) :
    login.isSome = config.auth.issuesOwnTokens := by
  rcases (startAuth_cases started).2 with ⟨own, _, _, -, -, rfl⟩ | ⟨external, _, _, -, -, -, rfl⟩
  · rw [own]
    rfl
  · rw [external]
    rfl

end

/-! ### From the login to the gate -/

/-- The token that a client reads from the answer of a login. -/
def returnedToken (json : Codec) (response : Response) : Option Text :=
  if response.status = .ok then
    match json.fromSlice response.body with
    | .ok value => (value.get "token".toList).bind Value.asStr
    | .error _ => none
  else none

/-- The request's first `Authorization` value is the bearer form of the token. -/
def Presents (request : Request) (token : Text) : Prop :=
  (request.headers.get HeaderName.authorization).bind HeaderValue.toStr =
    some ("Bearer ".toList ++ token)

def loginMembers (token : Text) (expiresIn : UInt64) : List (Text × Value) :=
  [("expires_in".toList, .u64 expiresIn), ("token".toList, .string token),
    ("token_type".toList, .string "Bearer".toList)]

private theorem flat_loginMembers (token : Text) (expiresIn : UInt64) :
    Flat (loginMembers token expiresIn) where
  ordered := by simp [loginMembers]; decide
  scalar := by simp [loginMembers, Value.Scalar, Value.u64]

section

variable (json : Codec) {scheme : Ed25519}

/-- A client reads the token that is in the answer. -/
theorem returnedToken_jsonResponse (token : Text) (expiresIn : UInt64) :
    returnedToken json (jsonResponse .ok (json.toVec (.json [("token".toList, .string token),
      ("token_type".toList, .string "Bearer".toList),
      ("expires_in".toList, .u64 expiresIn)]))) = some token := by
  have members : Value.json [("token".toList, .string token),
      ("token_type".toList, .string "Bearer".toList), ("expires_in".toList, .u64 expiresIn)] =
        .object (loginMembers token expiresIn) := rfl
  have parsed := json.fromSlice_toVec _ (flat_loginMembers token expiresIn)
  unfold returnedToken jsonResponse
  simp only [members, parsed, if_true]
  rfl

variable {json} {state : LoginState scheme} {payload : LoginRequest} {unixNow : UInt64}
  {token : Text}

theorem returnedToken_login (username : payload.username = demoUsername)
    (password : payload.password = demoPassword)
    (issued : issueToken json scheme state.signingKey state.issuer payload.username unixNow
      state.ttl = .ok token) :
    returnedToken json (login json state payload unixNow) = some token := by
  have called : loginCall state payload unixNow =
      some ⟨state.issuer, payload.username, unixNow, state.ttl⟩ := by
    simp [loginCall, username, password]
  unfold login
  simp only [called, issued]
  exact returnedToken_jsonResponse json token state.ttl.asSecs

/-- Only a login with the right credentials returns a token, and it is the one
that `issue_token` made. -/
theorem issued_of_returnedToken
    (returned : returnedToken json (login json state payload unixNow) = some token) :
    issueToken json scheme state.signingKey state.issuer payload.username unixNow state.ttl =
      .ok token := by
  by_cases right : payload.username ≠ demoUsername ∨ payload.password ≠ demoPassword
  · have refused : loginCall state payload unixNow = none := if_pos right
    unfold login at returned
    simp only [refused] at returned
    cases returned
  · push Not at right
    obtain ⟨original, issued⟩ : ∃ original, issueToken json scheme state.signingKey state.issuer
        payload.username unixNow state.ttl = .ok original := ⟨_, rfl⟩
    rw [returnedToken_login right.1 right.2 issued] at returned
    rw [issued]
    exact congrArg Except.ok (Option.some.inj returned)

variable (json)

private theorem digit?_of_isWhitespace {c : Char} (blank : isWhitespace c = true) :
    Base64Url.digit? c = none := by
  simp only [isWhitespace, Bool.or_eq_true, Bool.and_eq_true, decide_eq_true_eq, beq_iff_eq]
    at blank
  simp only [Base64Url.digit?]
  repeat rw [if_neg (by omega)]

private theorem not_isWhitespace_of_issued {key : scheme.SigningKey} {issuer subject token : Text}
    {unixNow : UInt64} {ttl : Duration}
    (issued : issueToken json scheme key issuer subject unixNow ttl = .ok token) :
    ∀ c ∈ token, isWhitespace c = false := by
  intro c member
  by_contra blank
  have outside := digit?_of_isWhitespace (Bool.not_eq_false _ ▸ blank)
  have notDot : c ≠ '.' := by
    rintro rfl
    exact blank rfl
  rw [← Except.ok.inj issued] at member
  simp only [signingInput, headerSegment, claimsSegment, List.mem_append, List.mem_cons, notDot,
    Base64Url.notMem_encode outside, or_self] at member

/-- The gate extracts a token that is presented in the bearer form. -/
theorem extractToken_of_presents {key : scheme.SigningKey} {issuer subject token : Text}
    {unixNow : UInt64} {ttl : Duration} {request : Request}
    (issued : issueToken json scheme key issuer subject unixNow ttl = .ok token)
    (presents : Presents request token) : extractToken request = some token := by
  have plain := not_isWhitespace_of_issued json issued
  have filled : token.isEmpty = false := by
    rw [← Except.ok.inj issued]
    simp [headerSegment_ne_nil, signingInput]
  have front : token.dropWhile isWhitespace = token :=
    List.dropWhile_eq_self_iff.mpr fun _ => by simp [plain]
  have back : token.rdropWhile isWhitespace = token :=
    List.rdropWhile_eq_self_iff.mpr fun _ => by simp [plain]
  have stripped : stripPrefix "Bearer ".toList ("Bearer ".toList ++ token) = some token := by
    simp [stripPrefix]
  unfold extractToken
  rw [presents]
  simp only [Option.bind_some, bearerToken, bind, stripped, trim, front, back, filled]
  simpa using plain

/-- A token that a login handed out is good at that very second if and only if
the configured lifetime is not zero: `validate` sets no lower bound, and a token
expires at its `exp` and not after it. -/
theorem login_token_accepted_iff_ttl (config : GatewayConfig)
    (signingKey : Except AuthError (scheme.SigningKey × Bool))
    (issuerKey : Option scheme.VerifyingKey) (auth : AuthState scheme) (state : LoginState scheme)
    (started : startAuth config signingKey issuerKey = some (auth, some state))
    (payload : LoginRequest) (time : UInt64) (early : time.toNat < UInt64.size - 1) (token : Text)
    (returned : returnedToken json (login json state payload time) = some token)
    (request : Request) (presents : Presents request token) :
    checkBearer json auth request time = .ok payload.username ↔
      1 ≤ config.auth.tokenTtlSecs := by
  obtain ⟨key, rfl, rfl⟩ := startAuth_eq_some_login started
  have issued := issued_of_returnedToken returned
  have extracted := extractToken_of_presents json issued presents
  have verified := verifyToken_issued json ownIssuer payload.username time
    (Duration.fromSecs config.auth.tokenTtlSecs) key (some ownIssuer) time issued
  rw [verifyClaims_claimsSegment, if_neg (not_not.mpr rfl)] at verified
  have expiry : time < saturatingAdd time config.auth.tokenTtlSecs ↔
      1 ≤ config.auth.tokenTtlSecs := by
    rw [UInt64.lt_iff_toNat_lt, UInt64.le_iff_toNat_le, saturatingAdd_toNat]
    have one : (1 : UInt64).toNat = 1 := rfl
    omega
  rw [checkBearer_eq_ok_iff, ← expiry]
  simp only [extracted, Option.some.injEq, exists_eq_left', verified]
  by_cases late : time ≥ saturatingAdd time (Duration.fromSecs config.auth.tokenTtlSecs).asSecs
  · rw [if_pos late]
    exact iff_of_false (by simp) (UInt64.not_lt.mpr late)
  · rw [if_neg late]
    exact iff_of_true rfl (UInt64.not_le.mp late)

end

/-- One route, the gateway's own keys, and this token lifetime. -/
def ttlConfig (tokenTtlSecs : UInt64) : GatewayConfig :=
  { GatewayConfig.ofRoutes (.ofList [("crm".toList, "http://crm:8000".toList)]) with
    auth := { AuthConfig.default with tokenTtlSecs := tokenTtlSecs } }

/-- What a gateway with this lifetime issues to the demo user at second 1000. -/
def ttlToken (tokenTtlSecs : UInt64) : Text :=
  let input := signingInput Json.Text.flatCodec ownIssuer demoUsername 1000
    (Duration.fromSecs tokenTtlSecs)
  input ++ '.' :: Base64Url.encode
    (checksumScheme.toBytes (checksumScheme.sign checksumKey (asBytes input)))

/-- The demo request with this token. -/
def presenting (token : Text) (valid : (asBytes ("Bearer ".toList ++ token)).all isFieldByte) :
    Request :=
  { OwnKeys.demoRequest with
    headers := HeaderMap.empty.append (HeaderName.authorization, ⟨_, valid⟩) }

theorem login_token_accepted_iff_ttl_one_second :
    checkBearer Json.Text.flatCodec
        ⟨checksumScheme.verifyingKey checksumKey, some ownIssuer⟩
        (presenting (ttlToken 1) (by decide +kernel)) 1000 = .ok demoUsername :=
  (login_token_accepted_iff_ttl Json.Text.flatCodec (ttlConfig 1) (.ok (checksumKey, true)) none
    _ _ rfl ⟨demoUsername, demoPassword⟩ 1000 (by decide) (ttlToken 1)
    (returnedToken_login rfl rfl rfl)
    (presenting (ttlToken 1) (by decide +kernel)) (by unfold Presents; decide +kernel)).mpr
    (by decide)

/-- A lifetime of zero seconds is accepted, and its tokens are refused at once. -/
theorem zero_ttl_token_refused :
    ¬ ∀ (config : GatewayConfig) (auth : AuthState checksumScheme)
      (state : LoginState checksumScheme),
      startAuth config (.ok (checksumKey, true)) none = some (auth, some state) →
      ∀ (payload : LoginRequest) (time : UInt64), time.toNat < UInt64.size - 1 →
      ∀ token, returnedToken Json.Text.flatCodec
          (login Json.Text.flatCodec state payload time) = some token →
      ∀ request, Presents request token →
        checkBearer Json.Text.flatCodec auth request time = .ok payload.username := by
  intro always
  have accepted := always (ttlConfig 0) _ _ rfl ⟨demoUsername, demoPassword⟩ 1000 (by decide)
    (ttlToken 0) (returnedToken_login rfl rfl rfl)
    (presenting (ttlToken 0) (by decide +kernel)) (by unfold Presents; decide +kernel)
  have refused : (checkBearer Json.Text.flatCodec
      ⟨checksumScheme.verifyingKey checksumKey, some ownIssuer⟩
      (presenting (ttlToken 0) (by decide +kernel)) 1000).toOption = none := by decide +kernel
  rw [accepted] at refused
  cases refused

end Ratewall.Auth
