import Ratewall.Auth.Token
import Ratewall.Foundation.Program
import Ratewall.Foundation.Trail

/-! Owns the signing key on disk: `load_or_create_signing_key` as a program over the
file system, call by call and exit by exit, and histories of boots that run it one
after the other. The surroundings decide at each call of each boot whether it fails,
and how much of a failed write is left behind. The PEM codec is a parameter, with the
law that decoding inverts encoding.

What a boot can do is said once, in `boot_cases`. The private key file is written only
where there was none, so what the first successful boot leaves there is what all later
ones read. -/

namespace Ratewall.Auth

open Ratewall.Rust
open Ratewall.Foundation

/-- What the key files use of `ed25519_dalek::pkcs8`. -/
structure Pkcs8 (scheme : Ed25519) where
  toPkcs8Pem : scheme.SigningKey → Text
  fromPkcs8Pem : Text → Except Text scheme.SigningKey
  toPublicKeyPem : scheme.VerifyingKey → Text
  fromPublicKeyPem : Text → Except Text scheme.VerifyingKey
  fromPkcs8Pem_toPkcs8Pem : ∀ key, fromPkcs8Pem (toPkcs8Pem key) = .ok key
  fromPublicKeyPem_toPublicKeyPem : ∀ key, fromPublicKeyPem (toPublicKeyPem key) = .ok key

/-! ### The file system -/

inductive ErrorKind where
  | notFound
  | other
deriving DecidableEq, Repr

structure IoError where
  kind : ErrorKind
  message : Text
deriving DecidableEq, Repr

inductive FileOp where
  | readToString (path : Text)
  | generate
  | createDirAll (path : Text)
  | write (path : Text) (contents : List UInt8)
  | setPermissions (path : Text) (mode : Nat)
deriving DecidableEq, Repr

@[reducible] def FileAnswer (scheme : Ed25519) : FileOp → Type
  | .readToString _ => Except IoError Text
  | .generate => scheme.SigningKey
  | .createDirAll _ => Except IoError Unit
  | .write _ _ => Except IoError Unit
  | .setPermissions _ _ => Except IoError Unit

/-- The contents of the files, by path. -/
abbrev Disk := Text → Option (List UInt8)

/-- A call that fails. Of a failed write, so many bytes are left in the file, or the
file is as it was. -/
structure Failure where
  message : Text
  left : Option Nat
deriving DecidableEq, Repr

/-- What the surroundings do to one boot: which of its calls fail, and the key that it
draws. No call is made twice in a boot. -/
structure Surroundings (scheme : Ed25519) where
  failure : FileOp → Option Failure
  generated : scheme.SigningKey

def outcome : Option Failure → Except IoError Unit
  | none => .ok ()
  | some failure => .error ⟨.other, failure.message⟩

/-- `std::fs::read_to_string`. The error is `NotFound` only if there is no file. -/
def readFile (failure : Option Failure) (contents : Option (List UInt8)) : Except IoError Text :=
  match failure, contents with
  | some failure, _ => .error ⟨.other, failure.message⟩
  | none, none => .error ⟨.notFound, "No such file or directory (os error 2)".toList⟩
  | none, some bytes =>
      match fromUtf8 bytes with
      | some text => .ok text
      | none => .error ⟨.other, "stream did not contain valid UTF-8".toList⟩

/-- `std::fs::write`: what is in the file afterwards. -/
def writeFile (failure : Option Failure) (contents : List UInt8) (before : Option (List UInt8)) :
    Option (List UInt8) :=
  match failure with
  | none => some contents
  | some failure => (failure.left.map fun count => contents.take count).or before

def Surroundings.act {scheme : Ed25519} (surroundings : Surroundings scheme) (disk : Disk) :
    (op : FileOp) → FileAnswer scheme op × Disk
  | .readToString path =>
      (readFile (surroundings.failure (.readToString path)) (disk path), disk)
  | .generate => (surroundings.generated, disk)
  | .createDirAll path => (outcome (surroundings.failure (.createDirAll path)), disk)
  | .write path contents =>
      let failure := surroundings.failure (.write path contents)
      (outcome failure, Function.update disk path (writeFile failure contents (disk path)))
  | .setPermissions path mode => (outcome (surroundings.failure (.setPermissions path mode)), disk)

/-! ### Booting -/

def privateKeyFile : Text := "signing_key.pem".toList
def publicKeyFile : Text := "signing_key.pub.pem".toList

/-- `Path::join` with a relative name. -/
def join (dir name : Text) : Text :=
  if dir.isEmpty || dir.getLast? = some '/' then dir ++ name else dir ++ '/' :: name

section

variable {scheme : Ed25519}

@[reducible] def askFiles (op : FileOp) :
    Program FileOp (FileAnswer scheme) (FileAnswer scheme op) := Program.perform op

/-- The refusal that names a path. -/
def badPath (opening path message : Text) : Except AuthError (scheme.SigningKey × Bool) :=
  .error (.badKeyMaterial (opening ++ path ++ ": ".toList ++ message))

variable (pkcs8 : Pkcs8 scheme)

/-- The part after the private key is written. -/
def finishKeyPair (keysDir : Text) (key : scheme.SigningKey) :
    Program FileOp (FileAnswer scheme) (Except AuthError (scheme.SigningKey × Bool)) := do
  -- the permissions are tightened as far as possible
  let _ ← askFiles (.setPermissions keysDir 0o700)
  let _ ← askFiles (.setPermissions (join keysDir privateKeyFile) 0o600)
  let written ← askFiles (.write (join keysDir publicKeyFile)
    (asBytes (pkcs8.toPublicKeyPem (scheme.verifyingKey key))))
  match written with
  | .error e => pure (badPath "cannot write ".toList (join keysDir publicKeyFile) e.message)
  | .ok () => pure (.ok (key, true))

/-- The first boot. -/
def createKeyPair (keysDir : Text) :
    Program FileOp (FileAnswer scheme) (Except AuthError (scheme.SigningKey × Bool)) := do
  let key ← askFiles .generate
  let created ← askFiles (.createDirAll keysDir)
  match created with
  | .error e => pure (badPath "cannot create ".toList keysDir e.message)
  | .ok () => do
      let written ← askFiles (.write (join keysDir privateKeyFile)
        (asBytes (pkcs8.toPkcs8Pem key)))
      match written with
      | .error e => pure (badPath "cannot write ".toList (join keysDir privateKeyFile) e.message)
      | .ok () => finishKeyPair pkcs8 keysDir key

def loadOrCreateSigningKey (keysDir : Text) :
    Program FileOp (FileAnswer scheme) (Except AuthError (scheme.SigningKey × Bool)) := do
  let read ← askFiles (.readToString (join keysDir privateKeyFile))
  match read with
  | .ok pem =>
      match pkcs8.fromPkcs8Pem pem with
      | .ok key => pure (.ok (key, false))
      | .error e => pure (badPath [] (join keysDir privateKeyFile) e)
  | .error err =>
      if err.kind = .notFound then createKeyPair pkcs8 keysDir
      else pure (badPath "cannot read ".toList (join keysDir privateKeyFile) err.message)

abbrev Booted (scheme : Ed25519) := Except AuthError (scheme.SigningKey × Bool)

def boot (keysDir : Text) (disk : Disk) (surroundings : Surroundings scheme) :
    Booted scheme × Disk :=
  Program.execute surroundings.act disk (loadOrCreateSigningKey pkcs8 keysDir)

/-- One boot after the other. -/
def bootStep (keysDir : Text) (disk : Disk) (surroundings : Surroundings scheme) : Option Disk :=
  some (boot pkcs8 keysDir disk surroundings).2

/-- What the boots of a history returned. -/
def returned (keysDir : Text) (disk : Disk) (boots : List (Surroundings scheme)) :
    List (Booted scheme) :=
  trail (bootStep pkcs8 keysDir)
    (fun before surroundings => [(boot pkcs8 keysDir before surroundings).1]) disk boots

end

/-! ### What a boot can do -/

section

variable {scheme : Ed25519} {pkcs8 : Pkcs8 scheme} {keysDir : Text} {disk : Disk}
  {surroundings : Surroundings scheme} {key : scheme.SigningKey} {created : Bool}

/-- The private key can be read and parsed. -/
def Loads (pkcs8 : Pkcs8 scheme) (failure : Option Failure) (contents : Option (List UInt8))
    (key : scheme.SigningKey) : Prop :=
  ∃ text, readFile failure contents = .ok text ∧ pkcs8.fromPkcs8Pem text = .ok key

theorem join_private_ne_public (keysDir : Text) :
    join keysDir privateKeyFile ≠ join keysDir publicKeyFile := by
  unfold join
  split
  next => exact fun same => absurd (List.append_cancel_left same) (by decide)
  next => exact fun same => absurd (List.append_cancel_left same) (by decide)

theorem readFile_some_ne_notFound {failure : Option Failure} {bytes : List UInt8} {err : IoError}
    (failed : readFile failure (some bytes) = .error err) : err.kind ≠ .notFound := by
  unfold readFile at failed
  split at failed
  next => rw [← Except.error.inj failed]; simp
  next => simp_all
  next =>
    split at failed
    next => cases failed
    next => rw [← Except.error.inj failed]; simp

/-- A private key file that is there is left alone. It decides the result. -/
theorem boot_of_present {bytes : List UInt8}
    (present : disk (join keysDir privateKeyFile) = some bytes) :
    (boot pkcs8 keysDir disk surroundings).2 = disk ∧
      ∀ key created, (boot pkcs8 keysDir disk surroundings).1 = .ok (key, created) ↔
        created = false ∧ Loads pkcs8
          (surroundings.failure (.readToString (join keysDir privateKeyFile))) (some bytes) key := by
  simp only [boot, loadOrCreateSigningKey, Program.perform_bind, Program.execute,
    Surroundings.act, present, Loads]
  cases read : readFile (surroundings.failure (.readToString (join keysDir privateKeyFile)))
      (some bytes) with
  | error err =>
      simp [readFile_some_ne_notFound read, badPath, Program.execute]
  | ok text =>
      cases parsed : pkcs8.fromPkcs8Pem text with
      | error err => simp [parsed, badPath, Program.execute]
      | ok found => simp [parsed, Program.execute, eq_comm, and_comm]

/-- A first boot that succeeds has written the key that it returns. -/
theorem createKeyPair_ok
    (succeeded : (Program.execute surroundings.act disk (createKeyPair pkcs8 keysDir)).1 =
      .ok (key, created)) :
    created = true ∧
      (Program.execute surroundings.act disk (createKeyPair pkcs8 keysDir)).2
        (join keysDir privateKeyFile) = some (asBytes (pkcs8.toPkcs8Pem key)) := by
  have apart := join_private_ne_public keysDir
  simp only [createKeyPair, Program.perform_bind, Program.execute, Surroundings.act] at succeeded ⊢
  cases made : surroundings.failure (.createDirAll keysDir) with
  | some failure =>
      rw [made] at succeeded
      cases succeeded
  | none =>
      rw [made] at succeeded
      simp only [outcome, Program.execute, Surroundings.act] at succeeded ⊢
      cases stored : surroundings.failure (.write (join keysDir privateKeyFile)
          (asBytes (pkcs8.toPkcs8Pem surroundings.generated))) with
      | some failure =>
          rw [stored] at succeeded
          cases succeeded
      | none =>
          rw [stored] at succeeded
          simp only [finishKeyPair, Program.perform_bind, Program.execute,
            Surroundings.act] at succeeded ⊢
          cases published : surroundings.failure (.write (join keysDir publicKeyFile)
              (asBytes (pkcs8.toPublicKeyPem (scheme.verifyingKey surroundings.generated)))) with
          | some failure =>
              rw [published] at succeeded
              cases succeeded
          | none =>
              rw [published] at succeeded
              cases succeeded
              exact ⟨rfl, by simp [outcome, Program.execute, writeFile,
                Function.update_of_ne apart]⟩

private theorem boot_of_absent (absent : disk (join keysDir privateKeyFile) = none)
    (succeeded : (boot pkcs8 keysDir disk surroundings).1 = .ok (key, created)) :
    created = true ∧
      surroundings.failure (.readToString (join keysDir privateKeyFile)) = none ∧
      (boot pkcs8 keysDir disk surroundings).2 (join keysDir privateKeyFile) =
        some (asBytes (pkcs8.toPkcs8Pem key)) := by
  simp only [boot, loadOrCreateSigningKey, Program.perform_bind, Program.execute,
    Surroundings.act, absent] at succeeded ⊢
  cases found : surroundings.failure (.readToString (join keysDir privateKeyFile)) with
  | some failure =>
      rw [found] at succeeded
      cases succeeded
  | none =>
      rw [found] at succeeded
      obtain ⟨isNew, written⟩ := createKeyPair_ok succeeded
      exact ⟨isNew, rfl, written⟩

/-! ### Histories of boots -/

/-- The private key file holds this key. -/
def Holds (pkcs8 : Pkcs8 scheme) (keysDir : Text) (disk : Disk) (key : scheme.SigningKey) : Prop :=
  Loads pkcs8 none (disk (join keysDir privateKeyFile)) key

def isCreated : Booted scheme → Bool
  | .ok (_, created) => created
  | .error _ => false

/-- Whichever boots succeed, they return one key. -/
def SameKey (earlier later : Booted scheme) : Prop :=
  ∀ key created key' created', earlier = .ok (key, created) → later = .ok (key', created') →
    key' = key

/-- What the boots so far have returned is what the disk holds. -/
structure Persisted (pkcs8 : Pkcs8 scheme) (keysDir : Text) (disk : Disk)
    (results : List (Booted scheme)) : Prop where
  held : ∀ result ∈ results, ∀ key created, result = .ok (key, created) →
    Holds pkcs8 keysDir disk key
  same : results.Pairwise SameKey
  once : results.countP isCreated ≤ 1

theorem holds_of_loads {failure : Option Failure} {contents : Option (List UInt8)}
    (loads : Loads pkcs8 failure contents key) : Loads pkcs8 none contents key := by
  obtain ⟨text, read, parsed⟩ := loads
  refine ⟨text, ?_, parsed⟩
  cases failure with
  | none => exact read
  | some failure => cases read

/-- A disk holds one signing key. -/
theorem Holds.unique {other : scheme.SigningKey} (first : Holds pkcs8 keysDir disk key)
    (second : Holds pkcs8 keysDir disk other) : other = key := by
  obtain ⟨text, read, parsed⟩ := first
  obtain ⟨text', read', parsed'⟩ := second
  rw [read] at read'
  obtain rfl := Except.ok.inj read'
  rw [parsed] at parsed'
  exact (Except.ok.inj parsed').symm

/-- A boot that succeeds leaves the key that it returns on disk. -/
theorem holds_of_boot (succeeded : (boot pkcs8 keysDir disk surroundings).1 = .ok (key, created)) :
    Holds pkcs8 keysDir (boot pkcs8 keysDir disk surroundings).2 key := by
  cases held : disk (join keysDir privateKeyFile) with
  | some bytes =>
      obtain ⟨unchanged, decided⟩ := boot_of_present held
      have loads := holds_of_loads ((decided key created).mp succeeded).2
      rw [unchanged, Holds, held]
      exact loads
  | none =>
      obtain ⟨-, -, written⟩ := boot_of_absent held succeeded
      refine ⟨pkcs8.toPkcs8Pem key, ?_, pkcs8.fromPkcs8Pem_toPkcs8Pem key⟩
      rw [written]
      simp only [readFile, fromUtf8_asBytes]

private theorem persisted_step {after : Disk} {results : List (Booted scheme)}
    (persisted : Persisted pkcs8 keysDir disk results)
    (stepped : bootStep pkcs8 keysDir disk surroundings = some after) :
    Persisted pkcs8 keysDir after (results ++ [(boot pkcs8 keysDir disk surroundings).1]) := by
  obtain rfl := Option.some.inj stepped
  -- what an earlier boot returned is still there, for that there is a file
  have kept : ∀ result ∈ results, ∀ key created, result = .ok (key, created) →
      Holds pkcs8 keysDir (boot pkcs8 keysDir disk surroundings).2 key ∧
        isCreated (boot pkcs8 keysDir disk surroundings).1 = false := by
    intro result member key created isOk
    have holds := persisted.held result member key created isOk
    cases held : disk (join keysDir privateKeyFile) with
    | none =>
        obtain ⟨text, read, -⟩ := holds
        rw [held] at read
        cases read
    | some bytes =>
        obtain ⟨unchanged, decided⟩ := @boot_of_present _ pkcs8 _ _ surroundings _ held
        refine ⟨by rw [unchanged]; exact holds, ?_⟩
        cases found : (boot pkcs8 keysDir disk surroundings).1 with
        | error err => rfl
        | ok pair => exact ((decided pair.1 pair.2).mp found).1
  constructor
  · intro result member key created isOk
    rcases List.mem_append.mp member with old | new
    · exact (kept result old key created isOk).1
    · obtain rfl := List.mem_singleton.mp new
      exact holds_of_boot isOk
  · refine List.pairwise_append.mpr ⟨persisted.same, List.pairwise_singleton _ _, ?_⟩
    intro earlier member later new key created key' created' isOk isOk'
    obtain rfl := List.mem_singleton.mp new
    exact (kept earlier member key created isOk).1.unique (holds_of_boot isOk')
  · rw [List.countP_append]
    by_cases any : ∃ result ∈ results, ∃ key created, result = Except.ok (key, created)
    · obtain ⟨result, member, key, created, isOk⟩ := any
      have notNew := (kept result member key created isOk).2
      simp only [List.countP_singleton, notNew, Bool.false_eq_true, if_false, Nat.add_zero]
      exact persisted.once
    · have none : results.countP isCreated = 0 := by
        apply List.countP_eq_zero.mpr
        intro result member isNew
        cases result with
        | error err => cases isNew
        | ok pair => exact any ⟨_, member, pair.1, pair.2, rfl⟩
      rw [none, Nat.zero_add]
      exact List.countP_le_length

end

/-- Whatever is on disk and whichever calls fail, in every history of boots: no boot
changes a private key file that it finds; the boots that succeed return one key, at
most one of them a new one; and a boot whose read fails otherwise than for want of the
file, or gives no key, is refused. -/
theorem signing_key_survives_boots {scheme : Ed25519} (pkcs8 : Pkcs8 scheme) (keysDir : Text)
    (disk : Disk) (boots : List (Surroundings scheme)) :
    Meets (bootStep pkcs8 keysDir)
        (fun before surroundings => ∀ bytes, before (join keysDir privateKeyFile) = some bytes →
          (boot pkcs8 keysDir before surroundings).2 (join keysDir privateKeyFile) = some bytes)
        disk boots ∧
      (returned pkcs8 keysDir disk boots).Pairwise SameKey ∧
      (returned pkcs8 keysDir disk boots).countP isCreated ≤ 1 ∧
      Meets (bootStep pkcs8 keysDir)
        (fun before surroundings =>
          (before (join keysDir privateKeyFile) ≠ none ∨
            surroundings.failure (.readToString (join keysDir privateKeyFile)) ≠ none) →
          (∀ key, ¬ Loads pkcs8
            (surroundings.failure (.readToString (join keysDir privateKeyFile)))
            (before (join keysDir privateKeyFile)) key) →
          ∃ err, (boot pkcs8 keysDir before surroundings).1 = .error err)
        disk boots := by
  obtain ⟨final, ran⟩ := exists_run_of_total
    (fun before surroundings => ⟨_, (rfl : bootStep pkcs8 keysDir before surroundings = _)⟩) disk boots
  have persisted : Persisted pkcs8 keysDir final (returned pkcs8 keysDir disk boots) :=
    trail_invariant (Persisted pkcs8 keysDir) persisted_step
      ⟨by simp, List.Pairwise.nil, by simp⟩ ran
  refine ⟨meets_of_all ?_ disk boots, persisted.same, persisted.once, meets_of_all ?_ disk boots⟩
  · intro before surroundings bytes present
    rw [(boot_of_present present).1]
    exact present
  · intro before surroundings found unusable
    cases result : (boot pkcs8 keysDir before surroundings).1 with
    | error err => exact ⟨err, rfl⟩
    | ok pair =>
        exfalso
        cases held : before (join keysDir privateKeyFile) with
        | some bytes =>
            have loads := (((boot_of_present held).2 pair.1 pair.2).mp result).2
            exact unusable pair.1 (held ▸ loads)
        | none =>
            obtain ⟨-, noFailure, -⟩ := boot_of_absent held result
            rcases found with present | failing
            · exact present held
            · exact failing noFailure

end Ratewall.Auth
