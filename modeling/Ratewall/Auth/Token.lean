import Ratewall.Foundation.Base64Url
import Ratewall.Json.Text
import Ratewall.Rust.Time

/-! Owns the tokens of `auth.rs`: issuing, the fail-closed verification in its
four stages, and the extraction of a bearer token from a header. The signature
scheme and the JSON codec are parameters with the laws that the code relies on;
base64url is computed. It does not own key files or the HTTP gate. -/

namespace Ratewall.Auth

open Ratewall.Rust
open Ratewall.Foundation
open Ratewall.Json

/-- What the tokens use of `ed25519_dalek`. -/
structure Ed25519 where
  SigningKey : Type
  VerifyingKey : Type
  Signature : Type
  verifyingKey : SigningKey → VerifyingKey
  sign : SigningKey → List UInt8 → Signature
  verify : VerifyingKey → List UInt8 → Signature → Bool
  toBytes : Signature → List UInt8
  fromSlice : List UInt8 → Option Signature
  verify_sign : ∀ key message, verify (verifyingKey key) message (sign key message) = true
  fromSlice_toBytes : ∀ signature, fromSlice (toBytes signature) = some signature
  toBytes_length : ∀ signature, (toBytes signature).length = 64

inductive AuthError where
  | badKeyMaterial (message : Text)
  | malformedToken
  | badHeader (message : Text)
  | badClaims (message : Text)
  | badSignature
  | expired
  | wrongIssuer
deriving DecidableEq, Repr

def tokenAlg : Text := "EdDSA".toList

/-- Fifteen minutes. -/
def defaultTokenTtl : Duration := Duration.fromSecs (15 * 60)

/-! ### Issuing -/

def headerJson : Value :=
  .json [("alg".toList, .string tokenAlg), ("typ".toList, .string "JWT".toList)]

def claimsJson (issuer subject : Text) (nowUnix : UInt64) (ttl : Duration) : Value :=
  .json [("sub".toList, .string subject), ("iss".toList, .string issuer),
    ("iat".toList, .u64 nowUnix), ("exp".toList, .u64 (saturatingAdd nowUnix ttl.asSecs))]

section

variable (json : Codec) (scheme : Ed25519)

def headerSegment : Text := Base64Url.encode (json.toVec headerJson)

def claimsSegment (issuer subject : Text) (nowUnix : UInt64) (ttl : Duration) : Text :=
  Base64Url.encode (json.toVec (claimsJson issuer subject nowUnix ttl))

def signingInput (issuer subject : Text) (nowUnix : UInt64) (ttl : Duration) : Text :=
  headerSegment json ++ '.' :: claimsSegment json issuer subject nowUnix ttl

def issueToken (key : scheme.SigningKey) (issuer subject : Text) (nowUnix : UInt64)
    (ttl : Duration) : Except AuthError Text :=
  let input := signingInput json issuer subject nowUnix ttl
  let signature := scheme.sign key (asBytes input)
  .ok (input ++ '.' :: Base64Url.encode (scheme.toBytes signature))

/-! ### Verification -/

def verifyHeader (headerB64 : Text) : Except AuthError Unit := do
  let headerBytes ← match Base64Url.decode headerB64 with
    | some bytes => pure bytes
    | none => throw (.badHeader "not base64url".toList)
  let header ← match json.fromSlice headerBytes with
    | .ok value => pure value
    | .error err => throw (.badHeader err)
  if (header.get "alg".toList).bind Value.asStr ≠ some tokenAlg then
    throw (.badHeader ("expected alg ".toList ++ tokenAlg))

def verifySignature (trustedKey : scheme.VerifyingKey) (headerB64 claimsB64 sigB64 : Text) :
    Except AuthError Unit := do
  let sigBytes ← match Base64Url.decode sigB64 with
    | some bytes => pure bytes
    | none => throw .badSignature
  let sig ← match scheme.fromSlice sigBytes with
    | some sig => pure sig
    | none => throw .badSignature
  unless scheme.verify trustedKey (asBytes (headerB64 ++ '.' :: claimsB64)) sig do
    throw .badSignature

def verifyClaims (claimsB64 : Text) (trustedIssuer : Option Text) (nowUnix : UInt64) :
    Except AuthError Text := do
  let claimsBytes ← match Base64Url.decode claimsB64 with
    | some bytes => pure bytes
    | none => throw (.badClaims "not base64url".toList)
  let claims ← match json.fromSlice claimsBytes with
    | .ok value => pure value
    | .error err => throw (.badClaims err)
  if let some expectedIssuer := trustedIssuer then
    if (claims.get "iss".toList).bind Value.asStr ≠ some expectedIssuer then
      throw .wrongIssuer
  let exp ← match (claims.get "exp".toList).bind Value.asU64 with
    | some exp => pure exp
    | none => throw (.badClaims "missing numeric exp".toList)
  if nowUnix ≥ exp then
    throw .expired
  match (claims.get "sub".toList).bind Value.asStr with
  | some subject => pure subject
  | none => throw (.badClaims "missing sub".toList)

def verifyToken (trustedKey : scheme.VerifyingKey) (token : Text) (trustedIssuer : Option Text)
    (nowUnix : UInt64) : Except AuthError Text :=
  match token.splitOn '.' with
  | [headerB64, claimsB64, sigB64] => do
      if headerB64.isEmpty || claimsB64.isEmpty || sigB64.isEmpty then
        throw .malformedToken
      verifyHeader json headerB64
      verifySignature scheme trustedKey headerB64 claimsB64 sigB64
      verifyClaims json claimsB64 trustedIssuer nowUnix
  | _ => throw .malformedToken

end

def bearerToken (authorizationHeader : Option Text) : Option Text := do
  let value ← authorizationHeader
  let rest := trim (← stripPrefix "Bearer ".toList value)
  if rest.isEmpty || rest.any isWhitespace then none else some rest

/-! ### What a token carries -/

def headerMembers : List (Text × Value) :=
  [("alg".toList, .string tokenAlg), ("typ".toList, .string "JWT".toList)]

def claimsMembers (issuer subject : Text) (nowUnix : UInt64) (ttl : Duration) :
    List (Text × Value) :=
  [("exp".toList, .u64 (saturatingAdd nowUnix ttl.asSecs)), ("iat".toList, .u64 nowUnix),
    ("iss".toList, .string issuer), ("sub".toList, .string subject)]

private theorem headerJson_eq : headerJson = .object headerMembers := rfl

private theorem claimsJson_eq (issuer subject : Text) (nowUnix : UInt64) (ttl : Duration) :
    claimsJson issuer subject nowUnix ttl =
      .object (claimsMembers issuer subject nowUnix ttl) := rfl

private theorem flat_headerMembers : Flat headerMembers where
  ordered := by simp [headerMembers]; decide
  scalar := by simp [headerMembers, Value.Scalar]

private theorem flat_claimsMembers (issuer subject : Text) (nowUnix : UInt64) (ttl : Duration) :
    Flat (claimsMembers issuer subject nowUnix ttl) where
  ordered := by simp [claimsMembers]; decide
  scalar := by simp [claimsMembers, Value.Scalar, Value.u64]

section

variable (json : Codec) {scheme : Ed25519} (issuer subject : Text) (nowUnix : UInt64)
  (ttl : Duration)

private theorem dot_notMem_encode (bytes : List UInt8) : '.' ∉ Base64Url.encode bytes :=
  Base64Url.notMem_encode (by decide) bytes

/-- No segment that the gateway signs holds the separator. -/
theorem dot_notMem_headerSegment : '.' ∉ headerSegment json := dot_notMem_encode _

theorem dot_notMem_claimsSegment : '.' ∉ claimsSegment json issuer subject nowUnix ttl :=
  dot_notMem_encode _

theorem headerSegment_ne_nil : headerSegment json ≠ [] := by
  apply Base64Url.encode_ne_nil
  rw [headerJson_eq]
  exact json.toVec_ne_nil flat_headerMembers

private theorem claimsSegment_ne_nil : claimsSegment json issuer subject nowUnix ttl ≠ [] := by
  apply Base64Url.encode_ne_nil
  rw [claimsJson_eq]
  exact json.toVec_ne_nil (flat_claimsMembers issuer subject nowUnix ttl)

private theorem signatureSegment_ne_nil (signature : scheme.Signature) :
    Base64Url.encode (scheme.toBytes signature) ≠ [] := by
  apply Base64Url.encode_ne_nil
  intro empty
  have length := scheme.toBytes_length signature
  rw [empty] at length
  cases length

private theorem read_claimsSegment :
    Base64Url.decode (claimsSegment json issuer subject nowUnix ttl) =
        some (json.toVec (claimsJson issuer subject nowUnix ttl)) ∧
      json.fromSlice (json.toVec (claimsJson issuer subject nowUnix ttl)) =
        .ok (.object (claimsMembers issuer subject nowUnix ttl)) :=
  ⟨Base64Url.decode_encode _, json.fromSlice_toVec _ (flat_claimsMembers issuer subject nowUnix ttl)⟩

private theorem verifyHeader_headerSegment : verifyHeader json (headerSegment json) = .ok () := by
  have parsed := json.fromSlice_toVec _ flat_headerMembers
  unfold verifyHeader headerSegment
  rw [Base64Url.decode_encode]
  simp only [pure_bind, headerJson_eq, parsed]
  rfl

private theorem verifySignature_sign (key : scheme.SigningKey) (headerB64 claimsB64 : Text) :
    verifySignature scheme (scheme.verifyingKey key) headerB64 claimsB64
        (Base64Url.encode (scheme.toBytes
          (scheme.sign key (asBytes (headerB64 ++ '.' :: claimsB64))))) = .ok () := by
  unfold verifySignature
  simp only [Base64Url.decode_encode, pure_bind, scheme.fromSlice_toBytes, scheme.verify_sign]
  rfl

/-- What the claims of an issued token are worth, by issuer and clock. -/
theorem verifyClaims_claimsSegment (trusted : Text) (time : UInt64) :
    verifyClaims json (claimsSegment json issuer subject nowUnix ttl) (some trusted) time =
      if issuer ≠ trusted then .error .wrongIssuer
      else if time ≥ saturatingAdd nowUnix ttl.asSecs then .error .expired
      else .ok subject := by
  obtain ⟨decoded, parsed⟩ := read_claimsSegment json issuer subject nowUnix ttl
  have iss : ((Value.object (claimsMembers issuer subject nowUnix ttl)).get "iss".toList).bind
      Value.asStr = some issuer := rfl
  have exp : ((Value.object (claimsMembers issuer subject nowUnix ttl)).get "exp".toList).bind
      Value.asU64 = some (saturatingAdd nowUnix ttl.asSecs) := rfl
  have sub : ((Value.object (claimsMembers issuer subject nowUnix ttl)).get "sub".toList).bind
      Value.asStr = some subject := rfl
  unfold verifyClaims
  simp only [decoded, parsed, pure_bind, iss, exp, sub]
  by_cases other : issuer = trusted
  · by_cases late : time ≥ saturatingAdd nowUnix ttl.asSecs
    · simp [other, late]
      rfl
    · simp [other, late]
      rfl
  · simp [other]
    rfl

/-- Claims of an issued token that are accepted were issued so. -/
theorem verifyClaims_claimsSegment_eq_ok {trusted found : Text} {time : UInt64}
    (accepted : verifyClaims json (claimsSegment json issuer subject nowUnix ttl) (some trusted)
      time = .ok found) :
    issuer = trusted ∧ time < saturatingAdd nowUnix ttl.asSecs ∧ subject = found := by
  rw [verifyClaims_claimsSegment] at accepted
  split at accepted
  next => cases accepted
  next sameIssuer =>
    split at accepted
    next => cases accepted
    next early =>
      exact ⟨not_not.mp sameIssuer, UInt64.not_le.mp early, Except.ok.inj accepted⟩

/-- A token falls back into the three segments that it was joined of. -/
theorem splitOn_token (signature : scheme.Signature) :
    (signingInput json issuer subject nowUnix ttl ++
        '.' :: Base64Url.encode (scheme.toBytes signature)).splitOn '.' =
      [headerSegment json, claimsSegment json issuer subject nowUnix ttl,
        Base64Url.encode (scheme.toBytes signature)] := by
  apply splitOn_three
  · exact dot_notMem_headerSegment json
  · exact dot_notMem_claimsSegment json issuer subject nowUnix ttl
  · exact dot_notMem_encode _

/-- Of a token that `issue_token` made, verification decides the claims alone. -/
theorem verifyToken_issued (key : scheme.SigningKey) (trusted : Option Text) (time : UInt64)
    {token : Text} (issued : issueToken json scheme key issuer subject nowUnix ttl = .ok token) :
    verifyToken json scheme (scheme.verifyingKey key) token trusted time =
      verifyClaims json (claimsSegment json issuer subject nowUnix ttl) trusted time := by
  have same := Except.ok.inj issued
  have signed := verifySignature_sign key (headerSegment json)
    (claimsSegment json issuer subject nowUnix ttl)
  have filled : ((headerSegment json).isEmpty ||
      (claimsSegment json issuer subject nowUnix ttl).isEmpty ||
      (Base64Url.encode (scheme.toBytes (scheme.sign key
        (asBytes (signingInput json issuer subject nowUnix ttl))))).isEmpty) = false := by
    simp [headerSegment_ne_nil, claimsSegment_ne_nil, signatureSegment_ne_nil]
  unfold verifyToken
  rw [← same, splitOn_token]
  simp only [filled, Bool.false_eq_true, if_false, verifyHeader_headerSegment]
  unfold signingInput
  rw [signed]
  rfl

/-- A signature segment that passes decodes to a signature of the other two segments. -/
theorem verifySignature_eq_ok {key : scheme.VerifyingKey} {headerB64 claimsB64 sigB64 : Text}
    (accepted : verifySignature scheme key headerB64 claimsB64 sigB64 = .ok ()) :
    ∃ signature, (Base64Url.decode sigB64).bind scheme.fromSlice = some signature ∧
      scheme.verify key (asBytes (headerB64 ++ '.' :: claimsB64)) signature = true := by
  unfold verifySignature at accepted
  cases decoded : Base64Url.decode sigB64 with
  | none =>
      rw [decoded] at accepted
      cases accepted
  | some bytes =>
      simp only [decoded, pure_bind] at accepted
      cases parsed : scheme.fromSlice bytes with
      | none =>
          rw [parsed] at accepted
          cases accepted
      | some signature =>
          simp only [parsed] at accepted
          refine ⟨signature, parsed, ?_⟩
          by_contra refused
          rw [if_neg refused] at accepted
          cases accepted

/-- A token verifies under its own key and issuer at exactly the times before
its expiry, which saturates at the last second of the clock. Afterwards it is
expired, and under any other issuer it is refused at all times. -/
theorem issued_token_verifies_until_expiry (key : scheme.SigningKey) (time : UInt64) :
    ∃ token, issueToken json scheme key issuer subject nowUnix ttl = .ok token ∧
      (verifyToken json scheme (scheme.verifyingKey key) token (some issuer) time = .ok subject ↔
        time < saturatingAdd nowUnix ttl.asSecs) ∧
      (¬ time < saturatingAdd nowUnix ttl.asSecs →
        verifyToken json scheme (scheme.verifyingKey key) token (some issuer) time =
          .error .expired) ∧
      ∀ trusted, trusted ≠ issuer →
        verifyToken json scheme (scheme.verifyingKey key) token (some trusted) time =
          .error .wrongIssuer := by
  refine ⟨_, rfl, ?_, ?_, ?_⟩
  · rw [verifyToken_issued json issuer subject nowUnix ttl key _ _ rfl, verifyClaims_claimsSegment]
    by_cases early : time < saturatingAdd nowUnix ttl.asSecs
    · simp [early]
    · simp [early]
  · intro late
    rw [verifyToken_issued json issuer subject nowUnix ttl key _ _ rfl, verifyClaims_claimsSegment]
    simp [late]
  · intro trusted different
    rw [verifyToken_issued json issuer subject nowUnix ttl key _ _ rfl, verifyClaims_claimsSegment]
    rw [if_pos (Ne.symm different)]

/-! ### Tokens from anywhere -/

/-- The claims of a segment, if it has any. -/
def readClaims (claimsB64 : Text) : Option Value :=
  (Base64Url.decode claimsB64).bind fun bytes => (json.fromSlice bytes).toOption

private theorem verifyClaims_eq_ok_iff {claimsB64 found : Text} {trusted : Option Text}
    {time : UInt64} :
    verifyClaims json claimsB64 trusted time = .ok found ↔
      ∃ claims expiry, readClaims json claimsB64 = some claims ∧
        (∀ expected, trusted = some expected →
          (claims.get "iss".toList).bind Value.asStr = some expected) ∧
        (claims.get "exp".toList).bind Value.asU64 = some expiry ∧ time < expiry ∧
        (claims.get "sub".toList).bind Value.asStr = some found := by
  unfold verifyClaims readClaims
  cases decoded : Base64Url.decode claimsB64 with
  | none =>
      refine iff_of_false ?_ (by simp)
      intro accepted
      cases accepted
  | some bytes =>
      simp only [pure_bind, Option.bind_some]
      cases parsed : json.fromSlice bytes with
      | error err =>
          refine iff_of_false ?_ (by simp [Except.toOption])
          intro accepted
          cases accepted
      | ok claims =>
          simp only [Except.toOption, Option.some.injEq, exists_and_left, exists_eq_left']
          generalize (claims.get "iss".toList).bind Value.asStr = issuer
          generalize (claims.get "exp".toList).bind Value.asU64 = expiry
          generalize (claims.get "sub".toList).bind Value.asStr = subject
          cases expiry with
          | none =>
              refine iff_of_false ?_ (by simp)
              cases trusted with
              | none => simp [throw, throwThe, MonadExceptOf.throw, bind, Except.bind]
              | some expected =>
                  by_cases same : issuer = some expected
                  · simp [same, throw, throwThe, MonadExceptOf.throw, bind, Except.bind]
                  · simp [same, throw, throwThe, MonadExceptOf.throw, bind, Except.bind]
          | some expiry =>
              have early : time < expiry ↔ ¬ time ≥ expiry := UInt64.not_le.symm
              cases trusted with
              | none =>
                  by_cases late : time ≥ expiry
                  · simp [late, early, throw, throwThe, MonadExceptOf.throw, bind, Except.bind]
                  · cases subject with
                    | none => simp [late, throw, throwThe, MonadExceptOf.throw]
                    | some subject => simp [late, early, pure, Except.pure]
              | some expected =>
                  by_cases same : issuer = some expected
                  · by_cases late : time ≥ expiry
                    · simp [same, late, early, throw, throwThe, MonadExceptOf.throw, bind, Except.bind]
                    · cases subject with
                      | none => simp [same, late, throw, throwThe, MonadExceptOf.throw]
                      | some subject => simp [same, late, early, pure, Except.pure]
                  · simp [same, throw, throwThe, MonadExceptOf.throw, bind, Except.bind]

/-- The stages before the claims look neither at the issuer nor at the clock. -/
def Admissible (key : scheme.VerifyingKey) (token claimsB64 : Text) : Prop :=
  ∃ headerB64 sigB64, token.splitOn '.' = [headerB64, claimsB64, sigB64] ∧
    (headerB64.isEmpty || claimsB64.isEmpty || sigB64.isEmpty) = false ∧
    verifyHeader json headerB64 = .ok () ∧
    verifySignature scheme key headerB64 claimsB64 sigB64 = .ok ()

/-- A token is accepted when its first stages admit it and its claims pass. -/
theorem verifyToken_eq_ok_iff {key : scheme.VerifyingKey} {token found : Text}
    {trusted : Option Text} {time : UInt64} :
    verifyToken json scheme key token trusted time = .ok found ↔
      ∃ claimsB64, Admissible json key token claimsB64 ∧
        verifyClaims json claimsB64 trusted time = .ok found := by
  constructor
  · intro accepted
    unfold verifyToken at accepted
    split at accepted
    next headerB64 claimsB64 sigB64 pieces =>
      split at accepted
      next => cases accepted
      next filled =>
        cases header : verifyHeader json headerB64 with
        | error err =>
            rw [header] at accepted
            cases accepted
        | ok _ =>
            rw [header] at accepted
            cases signature : verifySignature scheme key headerB64 claimsB64 sigB64 with
            | error err =>
                rw [signature] at accepted
                cases accepted
            | ok _ =>
                rw [signature] at accepted
                exact ⟨claimsB64, ⟨headerB64, sigB64, pieces, Bool.eq_false_iff.mpr filled, header,
                  signature⟩, accepted⟩
    next => cases accepted
  · rintro ⟨claimsB64, ⟨headerB64, sigB64, pieces, filled, header, signature⟩, claims⟩
    unfold verifyToken
    rw [pieces]
    simp only [filled, Bool.false_eq_true, if_false, header, signature]
    exact claims

/-- Whatever text is presented as a token, from wherever: the gate of a key refuses it
under every issuer and at every second, or there are one issuer at the most, one expiry
and one subject such that the gate accepts it for this subject alone, under this issuer
or without one, and at all seconds before the expiry, were they before the issue. -/
theorem token_has_one_reading (key : scheme.VerifyingKey) (token : Text) :
    (∀ trusted time found, verifyToken json scheme key token trusted time ≠ .ok found) ∨
      ∃ (issuer : Option Text) (expiry : UInt64) (subject : Text), ∀ trusted time found,
        verifyToken json scheme key token trusted time = .ok found ↔
          (∀ expected, trusted = some expected → issuer = some expected) ∧ time < expiry ∧
            found = subject := by
  by_cases ever : ∃ trusted time found, verifyToken json scheme key token trusted time = .ok found
  · right
    obtain ⟨trusted, time, subject, accepted⟩ := ever
    obtain ⟨claimsB64, admissible, verified⟩ := (verifyToken_eq_ok_iff json).mp accepted
    obtain ⟨claims, expiry, read, -, expires, -, named⟩ := (verifyClaims_eq_ok_iff json).mp verified
    refine ⟨(claims.get "iss".toList).bind Value.asStr, expiry, subject, ?_⟩
    intro trusted time found
    rw [verifyToken_eq_ok_iff]
    constructor
    · rintro ⟨other, ⟨headerB64, sigB64, pieces, -⟩, later⟩
      obtain ⟨headerB64', sigB64', pieces', -⟩ := admissible
      rw [pieces] at pieces'
      obtain rfl : other = claimsB64 := by simp at pieces'; exact pieces'.2.1
      obtain ⟨claims', expiry', read', fits, expires', early, named'⟩ :=
        (verifyClaims_eq_ok_iff json).mp later
      obtain rfl : claims = claims' := Option.some.inj (read.symm.trans read')
      obtain rfl : expiry = expiry' := Option.some.inj (expires.symm.trans expires')
      exact ⟨fits, early, Option.some.inj (named'.symm.trans named)⟩
    · rintro ⟨fits, early, rfl⟩
      exact ⟨claimsB64, admissible, (verifyClaims_eq_ok_iff json).mpr
        ⟨claims, expiry, read, fits, expires, early, named⟩⟩
  · left
    intro trusted time found accepted
    exact ever ⟨trusted, time, found, accepted⟩

end

/-- A stand-in of the same shape, on which tokens can be evaluated: the
signature repeats a keyed checksum. -/
def checksumScheme : Ed25519 where
  SigningKey := UInt8
  VerifyingKey := UInt8
  Signature := { bytes : List UInt8 // bytes.length = 64 }
  verifyingKey key := key
  sign key message := ⟨List.replicate 64 (message.foldl (· * 31 + ·) key), List.length_replicate⟩
  verify key message signature :=
    decide (signature.val = List.replicate 64 (message.foldl (· * 31 + ·) key))
  toBytes signature := signature.val
  fromSlice bytes := if length : bytes.length = 64 then some ⟨bytes, length⟩ else none
  verify_sign _ _ := decide_eq_true rfl
  fromSlice_toBytes signature := dif_pos signature.property
  toBytes_length signature := signature.property

def checksumKey : checksumScheme.SigningKey := (7 : UInt8)

/-- A token of fifteen minutes, a second before its expiry, at it, and under another
issuer. -/
theorem issued_token_verifies_until_expiry_fifteen_minutes :
    ∃ token, issueToken Json.Text.flatCodec checksumScheme checksumKey "ratewall".toList
        "a\"b\n.é".toList 1000 defaultTokenTtl = .ok token ∧
      verifyToken Json.Text.flatCodec checksumScheme (checksumScheme.verifyingKey checksumKey) token
        (some "ratewall".toList) 1899 = .ok "a\"b\n.é".toList ∧
      verifyToken Json.Text.flatCodec checksumScheme (checksumScheme.verifyingKey checksumKey) token
        (some "other".toList) 1899 = .error .wrongIssuer := by
  obtain ⟨token, issued, verifies, -, foreign⟩ := issued_token_verifies_until_expiry
    Json.Text.flatCodec "ratewall".toList "a\"b\n.é".toList 1000 defaultTokenTtl checksumKey 1899
  exact ⟨token, issued, verifies.mpr (by decide), foreign "other".toList (by decide)⟩

end Ratewall.Auth
