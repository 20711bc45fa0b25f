import Ratewall.Auth.KeyPair
import Ratewall.Router.Dispatch
import Ratewall.Router.Exchange

/-! Owns the bootstrap of the process, `main` of the gateway up to the port: the
configuration file, the key material of either mode, the limiter, the state and the
table of routes. Whatever goes wrong on the way ends the process; there is no way
around a step. What the crates decide (the TOML parser, the PEM codec, what makes a
Redis URL) are parameters.

Of what is served it owns where its trust comes from: the key that the gate verifies
with is on disk. So one incarnation of the gateway honours the tokens of another. -/

namespace Ratewall.Gateway

open Ratewall.Rust
open Ratewall.Foundation
open Ratewall.Config
open Ratewall.Circuit
open Ratewall.Auth
open Ratewall.RateLimit
open Ratewall.Router
open Ratewall.Http

def defaultConfigPath : Text := "/etc/ratewall/config.toml".toList
def defaultKeysDir : Text := "/var/lib/ratewall/keys".toList

/-- Where `main` gives up: it exits, or an `expect` panics. -/
inductive Refusal where
  | cannotReadConfig (configPath : Text) (err : IoError)
  | invalidConfig (err : ConfigError)
  | validationFailed (err : ConfigError)
  | cannotLoadSigningKeys (keysDir : Text) (err : AuthError)
  | cannotReadIssuerKey (pemPath : Text) (err : IoError)
  | notAPublicKey (pemPath err : Text)
  | invalidRateLimit (err : Text)
  | expectFailed (message : Text)

/-- What `main` has in its hands when it binds the port. -/
structure Served (scheme : Ed25519) where
  config : GatewayConfig
  state : ProxyState scheme
  login : Option (LoginState scheme)
  table : List PathRoute

def keysDirOf (config : GatewayConfig) : Text := config.auth.keysDir.getD defaultKeysDir

section

variable {scheme : Ed25519} (fromStr : Text → Except Text GatewayConfig)
  (createPool : Text → Except Text Unit) (pkcs8 : Pkcs8 scheme)

def loadConfig (configPath : Text) :
    Program FileOp (FileAnswer scheme) (Except Refusal GatewayConfig) := do
  let read ← askFiles (.readToString configPath)
  match read with
  | .error err => pure (.error (.cannotReadConfig configPath err))
  | .ok text =>
      match GatewayConfig.fromToml fromStr text with
      | .error err => pure (.error (.invalidConfig err))
      | .ok config => pure (.ok config)

/-- The states of the gate and of the login endpoint. -/
def loadAuth (config : GatewayConfig) : Program FileOp (FileAnswer scheme)
    (Except Refusal (AuthState scheme × Option (LoginState scheme))) :=
  if config.auth.issuesOwnTokens then do
    let loaded ← loadOrCreateSigningKey pkcs8 (keysDirOf config)
    match loaded with
    | .error err => pure (.error (.cannotLoadSigningKeys (keysDirOf config) err))
    | .ok (key, _) =>
        pure (.ok (⟨scheme.verifyingKey key, some ownIssuer⟩,
          some ⟨key, ownIssuer, Duration.fromSecs config.auth.tokenTtlSecs⟩))
  else
    match config.auth.issuerPublicKeyPem with
    | none => pure (.error (.expectFailed "validated: issuer mode has a key path".toList))
    | some pemPath => do
        let read ← askFiles (.readToString pemPath)
        match read with
        | .error err => pure (.error (.cannotReadIssuerKey pemPath err))
        | .ok pem =>
            match pkcs8.fromPublicKeyPem pem with
            | .error err => pure (.error (.notAPublicKey pemPath err))
            | .ok key =>
                match config.auth.issuer with
                | none => pure (.error (.expectFailed "validated: issuer set".toList))
                | some issuer => pure (.ok (⟨key, some issuer⟩, none))

/-- The rest, once the routes are known and the keys are loaded. -/
def assemble (config : GatewayConfig) (routes : List Route) (auth : AuthState scheme)
    (login : Option (LoginState scheme)) : Except Refusal (Served scheme) :=
  match RateLimiter.connect createPool config.ratelimit.redisUrl config.ratelimit.limit
      (Duration.fromSecs config.ratelimit.windowSecs) none with
  | .error err => .error (.invalidRateLimit err)
  | .ok limiter => .ok
      { config := config
        state := ProxyState.assembled routes auth limiter
          ⟨config.breaker.failureThreshold, Duration.fromSecs config.breaker.cooldownSecs⟩
          config.breaker.timeoutSecs
        login := login
        table := application login }

/-- `main`, with the value of `RATEWALL_CONFIG` where it is set. -/
def main (ratewallConfig : Option Text) :
    Program FileOp (FileAnswer scheme) (Except Refusal (Served scheme)) := do
  let loaded ← loadConfig fromStr (ratewallConfig.getD defaultConfigPath)
  match loaded with
  | .error refusal => pure (.error refusal)
  | .ok config =>
      match config.validate with
      | .error err => pure (.error (.validationFailed err))
      | .ok routes => do
          let started ← loadAuth pkcs8 config
          match started with
          | .error refusal => pure (.error refusal)
          | .ok (auth, login) => pure (assemble createPool config routes auth login)

def bootMain (ratewallConfig : Option Text) (disk : Disk) (surroundings : Surroundings scheme) :
    Except Refusal (Served scheme) × Disk :=
  Program.execute surroundings.act disk (main fromStr createPool pkcs8 ratewallConfig)

end

/-! ### What each step gives -/

section

variable {scheme : Ed25519} {fromStr : Text → Except Text GatewayConfig}
  {createPool : Text → Except Text Unit} {pkcs8 : Pkcs8 scheme} {ratewallConfig : Option Text}
  {disk : Disk} {surroundings : Surroundings scheme} {config : GatewayConfig}
  {auth : AuthState scheme} {login : Option (LoginState scheme)} {served : Served scheme}

/-- What a process reads of a file. -/
def Reads (surroundings : Surroundings scheme) (disk : Disk) (path text : Text) : Prop :=
  readFile (surroundings.failure (.readToString path)) (disk path) = .ok text

private theorem execute_loadConfig {configPath : Text} :
    (Program.execute surroundings.act disk (loadConfig fromStr configPath)).2 = disk ∧
      (∀ message, (Program.execute surroundings.act disk (loadConfig fromStr configPath)).1 ≠
        .error (.expectFailed message)) ∧
      ∀ config, (Program.execute surroundings.act disk (loadConfig fromStr configPath)).1 =
          .ok config →
        ∃ text, Reads surroundings disk configPath text ∧ fromStr text = .ok config ∧
          ∃ routes, config.validate = .ok routes := by
  simp only [loadConfig, Program.perform_bind, Program.execute, Surroundings.act]
  unfold Reads
  cases read : readFile (surroundings.failure (.readToString configPath)) (disk configPath) with
  | error err => simp [Program.execute]
  | ok text =>
      cases loaded : GatewayConfig.fromToml fromStr text with
      | error err => simp [Program.execute, loaded]
      | ok found =>
          simp only [Program.execute, Program.pure_eq_done, loaded]
          refine ⟨trivial, by simp, ?_⟩
          intro config isOk
          obtain rfl : found = config := Except.ok.inj isOk
          obtain ⟨parsed, accepted⟩ := GatewayConfig.fromToml_ok_iff.mp loaded
          exact ⟨text, rfl, parsed, accepted⟩

/-- The mode of a gateway, with the key that it trusts on disk. -/
inductive TrustOnDisk (pkcs8 : Pkcs8 scheme) (config : GatewayConfig) (disk : Disk) :
    AuthState scheme → Option (LoginState scheme) → Prop where
  | ownKeys (key : scheme.SigningKey) (own : config.auth.issuesOwnTokens = true)
      (holds : Holds pkcs8 (keysDirOf config) disk key) :
      TrustOnDisk pkcs8 config disk ⟨scheme.verifyingKey key, some ownIssuer⟩
        (some ⟨key, ownIssuer, Duration.fromSecs config.auth.tokenTtlSecs⟩)
  | externalIssuer (pemPath pem issuer : Text) (key : scheme.VerifyingKey)
      (external : config.auth.issuesOwnTokens = false)
      (configured : config.auth.issuerPublicKeyPem = some pemPath)
      (named : config.auth.issuer = some issuer)
      (stored : readFile none (disk pemPath) = .ok pem)
      (parsed : pkcs8.fromPublicKeyPem pem = .ok key) :
      TrustOnDisk pkcs8 config disk ⟨key, some issuer⟩ none

/-- Who hands out tokens verifies with the key that signs them. -/
theorem TrustOnDisk.auth_eq {config : GatewayConfig} {disk : Disk} {auth : AuthState scheme}
    {login : Option (LoginState scheme)} {state : LoginState scheme}
    (trust : TrustOnDisk pkcs8 config disk auth login) (issues : login = some state) :
    auth = ⟨scheme.verifyingKey state.signingKey, some ownIssuer⟩ := by
  cases trust with
  | ownKeys key _ _ =>
      cases issues
      rfl
  | externalIssuer _ _ _ _ _ _ _ _ _ => cases issues

private theorem readFile_ok {failure : Option Failure} {contents : Option (List UInt8)}
    {text : Text}
    (read : readFile failure contents = .ok text) : readFile none contents = .ok text := by
  cases failure with
  | none => exact read
  | some failure => cases read

/-- An external issuer comes with its name and the path of its key. -/
theorem issuer_of_validate {routes : List Route} (accepted : config.validate = .ok routes)
    (external : config.auth.issuesOwnTokens = false) :
    ∃ pemPath issuer, config.auth.issuerPublicKeyPem = some pemPath ∧
      config.auth.issuer = some issuer := by
  simp only [GatewayConfig.validate, bind_ok_iff] at accepted
  obtain ⟨_, checked, -⟩ := accepted
  have together : (config.auth.issuer.isSome != config.auth.issuerPublicKeyPem.isSome) = false :=
    (refuseIf_bind_ok_iff.mp checked).1
  unfold AuthConfig.issuesOwnTokens at external
  cases named : config.auth.issuer with
  | none =>
      cases configured : config.auth.issuerPublicKeyPem with
      | none => simp [named, configured] at external
      | some pemPath => simp [named, configured] at together
  | some issuer =>
      cases configured : config.auth.issuerPublicKeyPem with
      | none => simp [named, configured] at together
      | some pemPath => exact ⟨pemPath, issuer, rfl, rfl⟩

private theorem execute_loadAuth {routes : List Route} (accepted : config.validate = .ok routes) :
    (∀ message, (Program.execute surroundings.act disk (loadAuth pkcs8 config)).1 ≠
        .error (.expectFailed message)) ∧
      ∀ auth login, (Program.execute surroundings.act disk (loadAuth pkcs8 config)).1 =
          .ok (auth, login) →
        TrustOnDisk pkcs8 config
          (Program.execute surroundings.act disk (loadAuth pkcs8 config)).2 auth login := by
  unfold loadAuth
  cases own : config.auth.issuesOwnTokens with
  | true =>
      rw [if_pos rfl, Program.execute_bind]
      have stored := @holds_of_boot _ pkcs8 (keysDirOf config) disk surroundings
      unfold boot at stored
      cases booted : (Program.execute surroundings.act disk
          (loadOrCreateSigningKey pkcs8 (keysDirOf config))).1 with
      | error err => simp [Program.execute]
      | ok pair =>
          simp only [Program.execute, Program.pure_eq_done]
          refine ⟨by simp, ?_⟩
          intro auth login isOk
          obtain ⟨rfl, rfl⟩ := Prod.mk.inj (Except.ok.inj isOk)
          exact .ownKeys pair.1 own (stored booted)
  | false =>
      obtain ⟨pemPath, issuer, configured, named⟩ := issuer_of_validate accepted own
      simp only [Bool.false_eq_true, if_false, configured, Program.perform_bind, Program.execute,
        Surroundings.act]
      cases read : readFile (surroundings.failure (.readToString pemPath)) (disk pemPath) with
      | error err => simp [Program.execute]
      | ok pem =>
          cases parsed : pkcs8.fromPublicKeyPem pem with
          | error err => simp [Program.execute, parsed]
          | ok key =>
              simp only [Program.execute, Program.pure_eq_done, parsed, named]
              refine ⟨by simp, ?_⟩
              intro auth login isOk
              obtain ⟨rfl, rfl⟩ := Prod.mk.inj (Except.ok.inj isOk)
              exact .externalIssuer pemPath pem issuer key own configured named (readFile_ok read)
                parsed

/-- Everything that `main` went through before it serves. -/
structure Provenance (fromStr : Text → Except Text GatewayConfig)
    (createPool : Text → Except Text Unit) (pkcs8 : Pkcs8 scheme) (configPath : Text)
    (before after : Disk) (served : Served scheme) : Prop where
  parsed : ∃ text, readFile none (before configPath) = .ok text ∧ fromStr text = .ok served.config
  assembled : ∃ routes auth limiter, served.config.validate = .ok routes ∧
    TrustOnDisk pkcs8 served.config after auth served.login ∧
    RateLimiter.connect createPool served.config.ratelimit.redisUrl served.config.ratelimit.limit
      (Duration.fromSecs served.config.ratelimit.windowSecs) none = .ok limiter ∧
    served.state = ProxyState.assembled routes auth limiter
      ⟨served.config.breaker.failureThreshold,
        Duration.fromSecs served.config.breaker.cooldownSecs⟩ served.config.breaker.timeoutSecs
  table : served.table = application served.login

private theorem bootMain_cases :
    (∀ message, (bootMain fromStr createPool pkcs8 ratewallConfig disk surroundings).1 ≠
        .error (.expectFailed message)) ∧
      ∀ served, (bootMain fromStr createPool pkcs8 ratewallConfig disk surroundings).1 =
          .ok served →
        Provenance fromStr createPool pkcs8 (ratewallConfig.getD defaultConfigPath) disk
          (bootMain fromStr createPool pkcs8 ratewallConfig disk surroundings).2 served := by
  obtain ⟨unchanged, noPanic, reads⟩ := @execute_loadConfig scheme fromStr disk surroundings
    (ratewallConfig.getD defaultConfigPath)
  unfold bootMain main
  rw [Program.execute_bind, unchanged]
  cases loaded : (Program.execute surroundings.act disk
      (@loadConfig scheme fromStr (ratewallConfig.getD defaultConfigPath))).1 with
  | error refusal =>
      refine ⟨fun message same => noPanic message
        (loaded.trans (congrArg Except.error (Except.error.inj same))), ?_⟩
      intro served isOk
      cases isOk
  | ok config =>
      obtain ⟨text, read, parsed, routes, accepted⟩ := reads config loaded
      obtain ⟨noPanic, trusts⟩ := @execute_loadAuth scheme pkcs8 disk surroundings config routes accepted
      simp only [accepted]
      rw [Program.execute_bind]
      cases started : (Program.execute surroundings.act disk (loadAuth pkcs8 config)).1 with
      | error refusal =>
          refine ⟨fun message same => noPanic message
            (started.trans (congrArg Except.error (Except.error.inj same))), ?_⟩
          intro served isOk
          cases isOk
      | ok pair =>
          have trust := trusts pair.1 pair.2 started
          show (∀ message, assemble createPool config routes pair.1 pair.2 ≠ _) ∧
            ∀ served, assemble createPool config routes pair.1 pair.2 = .ok served → _
          unfold assemble
          cases connected : RateLimiter.connect createPool config.ratelimit.redisUrl
              config.ratelimit.limit (Duration.fromSecs config.ratelimit.windowSecs) none with
          | error err => simp
          | ok limiter =>
              refine ⟨by simp, ?_⟩
              intro served isOk
              obtain rfl := Except.ok.inj isOk
              exact ⟨⟨text, readFile_ok read, parsed⟩,
                ⟨routes, pair.1, limiter, accepted, trust, connected, rfl⟩, rfl⟩

/-! ### What stays on disk -/

private theorem exists_join_eq (dir name : Text) : ∃ opening, join dir name = opening ++ name := by
  unfold join
  split
  next => exact ⟨dir, rfl⟩
  next => exact ⟨dir ++ ['/'], by simp⟩

private theorem join_public_ne_private (dir other : Text) :
    join dir publicKeyFile ≠ join other privateKeyFile := by
  obtain ⟨opening, left⟩ := exists_join_eq dir publicKeyFile
  obtain ⟨opening', right⟩ := exists_join_eq other privateKeyFile
  have split : publicKeyFile = "sign".toList ++ "ing_key.pub.pem".toList := rfl
  rw [left, right, split, ← List.append_assoc]
  intro same
  have ends := (List.append_inj' same (by decide)).2
  revert ends
  decide

/-- The call does not write to this file. -/
def SparesFile (path : Text) : FileOp → Prop
  | .write other _ => other ≠ path
  | _ => True

private theorem act_of_spares {path : Text} {op : FileOp} (spares : SparesFile path op) :
    (surroundings.act disk op).2 path = disk path := by
  cases op with
  | write other contents => exact Function.update_of_ne (Ne.symm spares) _ _
  | _ => rfl

private theorem spares_loadOrCreateSigningKey {path keysDir : Text}
    (notPrivate : join keysDir privateKeyFile ≠ path)
    (notPublic : join keysDir publicKeyFile ≠ path) :
    Program.All (SparesFile path) (loadOrCreateSigningKey pkcs8 keysDir) := by
  refine ⟨trivial, ?_⟩
  intro read
  cases read with
  | ok pem =>
      simp only [Program.bind]
      cases pkcs8.fromPkcs8Pem pem with
      | ok key => exact trivial
      | error err => exact trivial
  | error err =>
      simp only [Program.bind]
      split
      next =>
        refine ⟨trivial, fun key => ⟨trivial, fun created => ?_⟩⟩
        cases created with
        | error err => exact trivial
        | ok _ =>
            refine ⟨notPrivate, fun written => ?_⟩
            cases written with
            | error err => exact trivial
            | ok _ =>
                refine ⟨trivial, fun _ => ⟨trivial, fun _ => ⟨notPublic, fun published => ?_⟩⟩⟩
                cases published with
                | error err => exact trivial
                | ok _ => exact trivial
      next => exact trivial

/-- No boot changes a private key file that is there, be it its own or that of another
directory. -/
theorem boot_keeps {keysDir other : Text} {bytes : List UInt8}
    (present : disk (join keysDir privateKeyFile) = some bytes) :
    (boot pkcs8 other disk surroundings).2 (join keysDir privateKeyFile) = some bytes := by
  by_cases same : join other privateKeyFile = join keysDir privateKeyFile
  · rw [(boot_of_present (same ▸ present)).1]
    exact present
  · have spares := @spares_loadOrCreateSigningKey _ pkcs8 _ _ same (join_public_ne_private _ _)
    refine @Program.All.execute_invariant _ _ _ _ _ surroundings.act
      (fun state => state (join keysDir privateKeyFile) = some bytes) ?_ _ spares _ present
    intro state op spares held
    exact (act_of_spares spares).trans held

private theorem loadAuth_keeps {keysDir : Text} {bytes : List UInt8}
    (present : disk (join keysDir privateKeyFile) = some bytes) :
    (Program.execute surroundings.act disk (loadAuth pkcs8 config)).2
      (join keysDir privateKeyFile) = some bytes := by
  unfold loadAuth
  split
  next =>
    rw [Program.execute_bind]
    have kept := @boot_keeps _ pkcs8 disk surroundings _ (keysDirOf config) _ present
    unfold boot at kept
    cases (Program.execute surroundings.act disk
        (loadOrCreateSigningKey pkcs8 (keysDirOf config))).1 with
    | error err => exact kept
    | ok pair => exact kept
  next =>
    cases config.auth.issuerPublicKeyPem with
    | none => exact present
    | some pemPath =>
        simp only [Program.perform_bind, Program.execute, Surroundings.act]
        cases readFile (surroundings.failure (.readToString pemPath)) (disk pemPath) with
        | error err => exact present
        | ok pem =>
            simp only
            cases pkcs8.fromPublicKeyPem pem with
            | error err => exact present
            | ok key => cases config.auth.issuer <;> exact present

private theorem bootMain_keeps {keysDir : Text} {bytes : List UInt8}
    (present : disk (join keysDir privateKeyFile) = some bytes) :
    (bootMain fromStr createPool pkcs8 ratewallConfig disk surroundings).2
      (join keysDir privateKeyFile) = some bytes := by
  have unchanged := (@execute_loadConfig scheme fromStr disk surroundings
    (ratewallConfig.getD defaultConfigPath)).1
  unfold bootMain main
  rw [Program.execute_bind, unchanged]
  cases (Program.execute surroundings.act disk
      (@loadConfig scheme fromStr (ratewallConfig.getD defaultConfigPath))).1 with
  | error refusal => exact present
  | ok config =>
      simp only
      cases config.validate with
      | error err => exact present
      | ok routes =>
          simp only
          rw [Program.execute_bind]
          have kept := @loadAuth_keeps _ pkcs8 disk surroundings config _ _ present
          cases (Program.execute surroundings.act disk (loadAuth pkcs8 config)).1 with
          | error refusal => exact kept
          | ok pair => exact kept

end

/-- Whatever `main` comes to serve, it found the key on disk that its gate verifies with:
its own signing key in the keys directory, under the issuer `ratewall`, or the PEM of the
external issuer that the configuration names. Nothing goes to a backend but what carries
a token that verifies with that key. And the two `expect`s that rely on `validate` never
fail. -/
theorem sends_only_under_key_on_disk {scheme : Ed25519}
    (fromStr : Text → Except Text GatewayConfig) (createPool : Text → Except Text Unit)
    (pkcs8 : Pkcs8 scheme) (ratewallConfig : Option Text) (disk : Disk)
    (surroundings : Surroundings scheme) (urls : UrlCrate) (json : Json.Codec) :
    (∀ message, (bootMain fromStr createPool pkcs8 ratewallConfig disk surroundings).1 ≠
        .error (.expectFailed message)) ∧
      ∀ served, (bootMain fromStr createPool pkcs8 ratewallConfig disk surroundings).1 =
          .ok served →
        ∃ auth, TrustOnDisk pkcs8 served.config
            (bootMain fromStr createPool pkcs8 ratewallConfig disk surroundings).2 auth
            served.login ∧
          ∀ (request : Request) (trace : List (Sigma Router.Answer)) (rest : Handler),
            (proxyFallback urls served.state json request).Follows trace rest →
            ∀ outbound hops, ⟨.send outbound, hops⟩ ∈ trace →
              ∃ now later token subject, trace = ⟨.unixNow, now⟩ :: later ∧
                extractToken request = some token ∧
                verifyToken json scheme auth.verifyingKey token auth.trustedIssuer now =
                  .ok subject := by
  obtain ⟨noPanic, provenance⟩ := @bootMain_cases scheme fromStr createPool pkcs8 ratewallConfig disk
    surroundings
  refine ⟨noPanic, ?_⟩
  intro served isOk
  obtain ⟨routes, auth, limiter, -, trust, -, assembled⟩ := (provenance served isOk).assembled
  refine ⟨auth, trust, ?_⟩
  intro request trace rest follows outbound hops sent
  have gated : served.state.auth = some auth := by
    rw [assembled]
    rfl
  obtain ⟨⟨now, subject, later, began, accepted⟩, -⟩ := verified_of_sent gated follows sent
  obtain ⟨token, extracted, verified⟩ := (checkBearer_eq_ok_iff json).mp accepted
  exact ⟨now, later, token, subject, began, extracted, verified⟩

/-! ### One deployment, many incarnations -/

/-- What happens to the disk of a deployment: a gateway starts, whether it comes to serve
or not, or a file is changed from outside. -/
inductive Deployment (scheme : Ed25519) where
  | start (ratewallConfig : Option Text) (surroundings : Surroundings scheme)
  | change (path : Text) (contents : Option (List UInt8))

section

variable {scheme : Ed25519} (fromStr : Text → Except Text GatewayConfig)
  (createPool : Text → Except Text Unit) (pkcs8 : Pkcs8 scheme)

def deployStep (disk : Disk) : Deployment scheme → Option Disk
  | .start ratewallConfig surroundings =>
      some (bootMain fromStr createPool pkcs8 ratewallConfig disk surroundings).2
  | .change path contents => some (Function.update disk path contents)

/-- Nobody but the gateways touches this file. -/
def Deployment.Spares (path : Text) : Deployment scheme → Prop
  | .start _ _ => True
  | .change other _ => other ≠ path

variable {fromStr createPool pkcs8} {keysDir : Text} {disk final : Disk} {key : scheme.SigningKey}

private theorem holds_of_deployment {events : List (Deployment scheme)}
    (holds : Holds pkcs8 keysDir disk key)
    (spared : ∀ event ∈ events, event.Spares (join keysDir privateKeyFile))
    (ran : run (deployStep fromStr createPool pkcs8) disk events = some final) :
    Holds pkcs8 keysDir final key := by
  cases present : disk (join keysDir privateKeyFile) with
  | none =>
      rw [Holds, present] at holds
      exact absurd holds not_loads_none
  | some bytes =>
      have kept : final (join keysDir privateKeyFile) = some bytes := by
        apply @run_invariant_of_meets _ _ (deployStep fromStr createPool pkcs8)
          (fun _ event => event.Spares (join keysDir privateKeyFile))
          (fun state => state (join keysDir privateKeyFile) = some bytes) _ disk final events present
          (meets_of_forall spared disk) ran
        intro before event after held spares stepped
        cases event with
        | start ratewallConfig surroundings =>
            obtain rfl := Option.some.inj stepped
            exact bootMain_keeps held
        | change path contents =>
            obtain rfl := Option.some.inj stepped
            exact (Function.update_of_ne (Ne.symm spares) _ _).trans held
      rw [Holds, kept, ← present]
      exact holds

end

/-- The gate of whoever holds the key takes a login token until it expires. -/
theorem checkBearer_login_token {scheme : Ed25519} (json : Json.Codec) {key : scheme.SigningKey}
    {ttl : Duration} {payload : LoginRequest} {time later : UInt64} {token : Text}
    {request : Request}
    (returned : returnedToken json (login json ⟨key, ownIssuer, ttl⟩ payload time) = some token)
    (presents : Presents request token) :
    checkBearer json ⟨scheme.verifyingKey key, some ownIssuer⟩ request later =
        .ok payload.username ↔
      later < saturatingAdd time ttl.asSecs := by
  have issued := issued_of_returnedToken returned
  have extracted := extractToken_of_presents json issued presents
  have verified := verifyToken_issued json ownIssuer payload.username time ttl key (some ownIssuer)
    later issued
  rw [verifyClaims_claimsSegment, if_neg (not_not.mpr rfl)] at verified
  rw [checkBearer_eq_ok_iff]
  simp only [extracted, Option.some.injEq, exists_eq_left', verified]
  by_cases late : later ≥ saturatingAdd time ttl.asSecs
  · rw [if_pos late]
    exact iff_of_false (by simp) (UInt64.not_lt.mpr late)
  · rw [if_neg late]
    exact iff_of_true rfl (UInt64.not_le.mp late)

/-- Tokens survive restarts. A gateway that owns its keys hands out a token; the process
ends, files other than its private key are changed, gateways start and fail to start in
whatever way; and a gateway that comes to serve with the same keys directory, under
whatever other settings, takes the token for the user who logged in exactly until the
second in which it expires. -/
theorem tokens_survive_restarts {scheme : Ed25519}
    (fromStr : Text → Except Text GatewayConfig) (createPool : Text → Except Text Unit)
    (pkcs8 : Pkcs8 scheme) (json : Json.Codec) (disk : Disk) (ratewallConfig : Option Text)
    (surroundings : Surroundings scheme) (served : Served scheme) (state : LoginState scheme)
    (started : (bootMain fromStr createPool pkcs8 ratewallConfig disk surroundings).1 = .ok served)
    (issues : served.login = some state)
    (events : List (Deployment scheme)) (final : Disk)
    (spared : ∀ event ∈ events, event.Spares (join (keysDirOf served.config) privateKeyFile))
    (ran : run (deployStep fromStr createPool pkcs8)
      (bootMain fromStr createPool pkcs8 ratewallConfig disk surroundings).2 events = some final)
    (ratewallConfig' : Option Text) (surroundings' : Surroundings scheme) (served' : Served scheme)
    (restarted : (bootMain fromStr createPool pkcs8 ratewallConfig' final surroundings').1 =
      .ok served')
    (own : served'.config.auth.issuesOwnTokens = true)
    (sameDir : keysDirOf served'.config = keysDirOf served.config)
    (payload : LoginRequest) (time : UInt64) (token : Text)
    (returned : returnedToken json (login json state payload time) = some token)
    (request : Request) (presents : Presents request token) (later : UInt64) :
    ∃ auth, served'.state.auth = some auth ∧
      (checkBearer json auth request later = .ok payload.username ↔
        later < saturatingAdd time served.config.auth.tokenTtlSecs) := by
  obtain ⟨routes, auth, limiter, -, trust, -, -⟩ := ((@bootMain_cases scheme fromStr createPool pkcs8
    ratewallConfig disk surroundings).2 served started).assembled
  obtain ⟨routes', auth', limiter', -, trust', -, assembled'⟩ := ((@bootMain_cases scheme fromStr
    createPool pkcs8 ratewallConfig' final surroundings').2 served' restarted).assembled
  rw [issues] at trust
  cases trust with
  | ownKeys key own₀ holds =>
      have holdsFinal := holds_of_deployment holds spared ran
      have restart : run (deployStep fromStr createPool pkcs8) final
          [.start ratewallConfig' surroundings'] =
          some (bootMain fromStr createPool pkcs8 ratewallConfig' final surroundings').2 := rfl
      have holdsNow := holds_of_deployment holdsFinal (by simp [Deployment.Spares]) restart
      refine ⟨auth', by rw [assembled']; rfl, ?_⟩
      generalize served'.login = login' at trust'
      cases trust' with
      | ownKeys key' _ holds' =>
          rw [sameDir] at holds'
          rw [holdsNow.unique holds']
          exact checkBearer_login_token json returned presents
      | externalIssuer _ _ _ _ external => simp [own] at external

/-- A volume with a configuration file and no keys. -/
def freshDisk : Disk := Function.update emptyDisk defaultConfigPath (some [])

/-- The parser reads every file as the configuration of fifteen minutes. -/
def quarterHour (_ : Text) : Except Text GatewayConfig := .ok (ttlConfig 900)

def anyPool (_ : Text) : Except Text Unit := .ok ()

/-- Every incarnation on a volume of this configuration has read it. -/
theorem config_of_bootMain {ratewallConfig : Option Text} {disk : Disk}
    {surroundings : Surroundings checksumScheme} {served : Served checksumScheme}
    (started : (bootMain quarterHour anyPool labelPem ratewallConfig disk surroundings).1 =
      .ok served) : served.config = ttlConfig 900 := by
  obtain ⟨-, provenance⟩ := @bootMain_cases checksumScheme quarterHour anyPool labelPem
    ratewallConfig disk surroundings
  obtain ⟨text, -, parsed⟩ := (provenance served started).parsed
  exact (Except.ok.inj parsed).symm

/-- The demo request with a token that was issued at second 1000. -/
def quarterHourRequest : Request := presenting (ttlToken 900) (by decide +kernel)

/-- Behind the gate, the request goes on to the backend of its route. -/
theorem exists_sent {auth : AuthState checksumScheme} {limiter : RateLimiter} {cfg : BreakerConfig}
    {timeoutSecs : UInt64} {subject : Text}
    (accepted : checkBearer Json.Text.flatCodec auth quarterHourRequest 1899 = .ok subject) :
    ∃ trace rest outbound hops,
      (proxyFallback plainUrls (ProxyState.assembled crmRoutes auth limiter cfg timeoutSecs)
        Json.Text.flatCodec quarterHourRequest).Follows trace rest ∧
      ⟨.send outbound, hops⟩ ∈ trace := by
  let outbound := outboundRequest plainUrls
    (ProxyState.assembled crmRoutes auth limiter cfg timeoutSecs) "http://crm:8000".toList
    "/".toList quarterHourRequest []
  let later : Trace := [⟨.decide limiter (limitKey (some subject) "unkeyed".toList), .allow⟩,
    ⟨.tryAdmit ⟨cfg, 0⟩, .call⟩, ⟨.collect quarterHourRequest.body, ()⟩, ⟨.instantNow, (0 : Nat)⟩,
    ⟨.send outbound, fun _ => .unanswered⟩]
  have onward : ∃ rest, (rateLimit plainUrls
      (ProxyState.assembled crmRoutes auth limiter cfg timeoutSecs) (some subject)
      quarterHourRequest).Follows later rest := ⟨_, _, rfl, _, rfl, _, rfl, _, rfl, _, rfl, rfl⟩
  obtain ⟨rest, onward⟩ := onward
  refine ⟨⟨.unixNow, (1899 : UInt64)⟩ :: later, rest, outbound, fun _ => .unanswered,
    ⟨_, rfl, ?_⟩, by simp [later]⟩
  simp only [Program.bind]
  rw [accepted]
  exact onward

/-- The first boot makes its keys; a request with a login token is sent, and its token
verifies under the key that lies on disk since then. -/
theorem sends_only_under_key_on_disk_at_first_boot :
    ∃ served auth trace rest outbound hops,
      (bootMain quarterHour anyPool labelPem none freshDisk healthyBoot).1 = .ok served ∧
      TrustOnDisk labelPem served.config
        (bootMain quarterHour anyPool labelPem none freshDisk healthyBoot).2 auth
        (some ⟨checksumKey, ownIssuer, Duration.fromSecs 900⟩) ∧
      (proxyFallback plainUrls served.state Json.Text.flatCodec quarterHourRequest).Follows trace
        rest ∧
      ⟨.send outbound, hops⟩ ∈ trace ∧
      ∃ now token subject, extractToken quarterHourRequest = some token ∧
        verifyToken Json.Text.flatCodec checksumScheme auth.verifyingKey token auth.trustedIssuer
          now = .ok subject := by
  obtain ⟨served, started, issues⟩ : ∃ served : Served checksumScheme,
      (bootMain quarterHour anyPool labelPem none freshDisk healthyBoot).1 = .ok served ∧
        served.login = some ⟨checksumKey, ownIssuer, Duration.fromSecs 900⟩ := ⟨_, rfl, rfl⟩
  obtain ⟨auth, trust, verified⟩ := (sends_only_under_key_on_disk quarterHour anyPool labelPem none
    freshDisk healthyBoot plainUrls Json.Text.flatCodec).2 served started
  obtain ⟨routes, auth', limiter, valid, trust', -, assembled⟩ := ((@bootMain_cases checksumScheme
    quarterHour anyPool labelPem none freshDisk healthyBoot).2 served started).assembled
  obtain rfl : crmRoutes = routes := by
    rw [config_of_bootMain started] at valid
    exact Except.ok.inj valid
  have accepted : checkBearer Json.Text.flatCodec auth' quarterHourRequest 1899 =
      .ok demoUsername := by
    have returned : returnedToken Json.Text.flatCodec (login Json.Text.flatCodec
        ⟨checksumKey, ownIssuer, Duration.fromSecs 900⟩ ⟨demoUsername, demoPassword⟩ 1000) =
        some (ttlToken 900) := returnedToken_login rfl rfl rfl
    have presents : Presents quarterHourRequest (ttlToken 900) := by
      unfold Presents
      decide +kernel
    rw [trust'.auth_eq issues]
    exact (checkBearer_login_token Json.Text.flatCodec returned presents).mpr (by decide)
  obtain ⟨trace, rest, outbound, hops, follows, sent⟩ := @exists_sent auth' limiter
    ⟨served.config.breaker.failureThreshold, Duration.fromSecs served.config.breaker.cooldownSecs⟩
    served.config.breaker.timeoutSecs demoUsername accepted
  rw [← assembled] at follows
  obtain ⟨now, later, token, subject, -, extracted, holds⟩ :=
    verified quarterHourRequest trace rest follows outbound hops sent
  exact ⟨served, auth, trace, rest, outbound, hops, started, issues ▸ trust, follows, sent, now,
    token, subject, extracted, holds⟩

private theorem exists_ok_of_isSome {ε α : Type} {result : Except ε α}
    (isOk : result.toOption.isSome = true) : ∃ value, result = .ok value := by
  cases result with
  | error err => cases isOk
  | ok value => exact ⟨value, rfl⟩

/-- The second incarnation would draw another key, and does not. -/
theorem tokens_survive_restarts_once :
    ∃ served : Served checksumScheme, (bootMain quarterHour anyPool labelPem none
        (bootMain quarterHour anyPool labelPem none freshDisk healthyBoot).2
        ⟨fun _ => none, (8 : UInt8)⟩).1 = .ok served ∧
      ∃ auth, served.state.auth = some auth ∧
        checkBearer Json.Text.flatCodec auth quarterHourRequest 1899 = .ok demoUsername := by
  have restarts : (bootMain quarterHour anyPool labelPem none
      (bootMain quarterHour anyPool labelPem none freshDisk healthyBoot).2
      ⟨fun _ => none, (8 : UInt8)⟩).1.toOption.isSome = true := by
    decide +kernel
  obtain ⟨served, restarted⟩ := exists_ok_of_isSome restarts
  refine ⟨served, restarted, ?_⟩
  obtain ⟨first, started, issues⟩ : ∃ first : Served checksumScheme,
      (bootMain quarterHour anyPool labelPem none freshDisk healthyBoot).1 = .ok first ∧
        first.login = some ⟨checksumKey, ownIssuer, Duration.fromSecs 900⟩ := ⟨_, rfl, rfl⟩
  have config := config_of_bootMain started
  have config' := config_of_bootMain restarted
  have own : served.config.auth.issuesOwnTokens = true := by
    rw [config']
    rfl
  have sameDir : keysDirOf served.config = keysDirOf first.config := by
    rw [config, config']
  obtain ⟨auth, gated, accepts⟩ := tokens_survive_restarts quarterHour anyPool labelPem
    Json.Text.flatCodec freshDisk none healthyBoot first _ started issues [] _ (by simp)
    (run_nil _) none ⟨fun _ => none, (8 : UInt8)⟩ served restarted own sameDir
    ⟨demoUsername, demoPassword⟩ 1000 (ttlToken 900) (returnedToken_login rfl rfl rfl)
    quarterHourRequest (by unfold Presents; decide +kernel) 1899
  refine ⟨auth, gated, accepts.mpr ?_⟩
  rw [config]
  decide

end Ratewall.Gateway
