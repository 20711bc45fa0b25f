import Ratewall.Auth.KeyPair
import Ratewall.Foundation.Pool

/-! Owns boots that run at the same time: replicas of one gateway that share a keys
volume and start together. Each runs `load_or_create_signing_key` call by call, between
the calls of the others, with its own failures and its own draw, and can be stopped at
any call. Once there is a private key file nobody writes; before there is one, each
replica that finds none makes a key of its own. -/

namespace Ratewall.Auth

open Ratewall.Rust
open Ratewall.Foundation

section

variable {scheme : Ed25519} (pkcs8 : Pkcs8 scheme) (keysDir : Text)

/-- What happens to each replica is settled beforehand, by its number. -/
def replicas (weather : Nat → Surroundings scheme) :
    System FileOp (FileAnswer scheme) (Booted scheme) Unit Disk Unit Empty where
  body := fun _ => loadOrCreateSigningKey pkcs8 keysDir
  note := fun _ => ()
  act := fun disk id op _ => (weather id).act disk op
  observe := fun note _ _ => note
  ambient := fun _ change => change.elim

abbrev Replicas (scheme : Ed25519) := Pool FileOp (FileAnswer scheme) (Booted scheme) Unit Disk
abbrev ReplicasEvent (scheme : Ed25519) := Pool.Event FileOp (FileAnswer scheme) Unit Empty

def replicasStep (weather : Nat → Surroundings scheme) :
    Replicas scheme → ReplicasEvent scheme → Option (Replicas scheme) :=
  Pool.step (replicas pkcs8 keysDir weather)

/-- The replica has booted with this key. -/
def Gives (pool : Replicas scheme) (id : Nat) (key : scheme.SigningKey) : Prop :=
  ∃ created, pool.threads id = some ⟨(), .done (.ok (key, created))⟩

end

section

variable {scheme : Ed25519} {pkcs8 : Pkcs8 scheme} {keysDir : Text} {disk : Disk}
  {weather : Nat → Surroundings scheme} {before after final : Replicas scheme}
  {event : ReplicasEvent scheme} {key : scheme.SigningKey}

/-! ### With a private key file -/

/-- A replica has still to read the file, or has done so. -/
def ReadOnly (pkcs8 : Pkcs8 scheme) (keysDir : Text) (disk : Disk) :
    Program FileOp (FileAnswer scheme) (Booted scheme) → Prop
  | .done result => ∀ key created, result = .ok (key, created) → Holds pkcs8 keysDir disk key
  | program => program = loadOrCreateSigningKey pkcs8 keysDir

/-- Where there is a private key file, the first answer ends the boot. -/
theorem readOnly_of_answer {surroundings : Surroundings scheme} {bytes : List UInt8}
    {op : FileOp} {next : FileAnswer scheme op → Program FileOp (FileAnswer scheme) (Booted scheme)}
    (present : disk (join keysDir privateKeyFile) = some bytes)
    (here : ReadOnly pkcs8 keysDir disk (.call op next)) :
    (surroundings.act disk op).2 = disk ∧
      ReadOnly pkcs8 keysDir disk (next (surroundings.act disk op).1) := by
  cases (here : Program.call op next = loadOrCreateSigningKey pkcs8 keysDir)
  refine ⟨rfl, ?_⟩
  simp only [Surroundings.act, present]
  cases read : readFile (surroundings.failure (.readToString (join keysDir privateKeyFile)))
      (some bytes) with
  | error err =>
      simp only [Program.bind, readFile_some_ne_notFound read, if_false]
      intro key created isOk
      cases isOk
  | ok text =>
      simp only [Program.bind]
      cases parsed : pkcs8.fromPkcs8Pem text with
      | error err =>
          intro key created isOk
          cases isOk
      | ok found =>
          intro key created isOk
          cases isOk
          exact holds_of_loads (⟨text, present ▸ read, parsed⟩ :
            Loads pkcs8 _ (disk (join keysDir privateKeyFile)) _)

private theorem readOnly_step {bytes : List UInt8}
    (present : disk (join keysDir privateKeyFile) = some bytes)
    (holds : before.shared = disk ∧ before.Threads fun _ program => ReadOnly pkcs8 keysDir disk program)
    (stepped : replicasStep pkcs8 keysDir weather before event = some after) :
    after.shared = disk ∧ after.Threads fun _ program => ReadOnly pkcs8 keysDir disk program := by
  obtain ⟨same, threads⟩ := holds
  rcases Pool.step_cases stepped with ⟨input, -, rfl⟩ |
    ⟨id, offer, note, op, next, -, found, rfl⟩ | ⟨id, thread, -, -, rfl⟩ | ⟨change, -, -⟩
  · refine ⟨same, ?_⟩
    intro other thread at'
    rcases filled_cases at' with ⟨-, rfl⟩ | ⟨-, held⟩
    · exact rfl
    · exact threads other thread held
  · have read := @readOnly_of_answer _ _ _ _ (weather id) _ _ _ present (threads id _ found)
    rw [← same] at read
    refine ⟨same ▸ read.1, ?_⟩
    intro other thread at'
    rcases filled_cases at' with ⟨-, rfl⟩ | ⟨-, held⟩
    · exact same ▸ read.2
    · exact threads other thread held
  · refine ⟨same, ?_⟩
    intro other thread at'
    exact threads other thread (emptied_cases at').2
  · exact change.elim

/-! ### Without one -/

/-- The disk once the key pair is written. -/
def withKeyPair (pkcs8 : Pkcs8 scheme) (keysDir : Text) (key : scheme.SigningKey) (disk : Disk) :
    Disk :=
  Function.update
    (Function.update disk (join keysDir privateKeyFile) (some (asBytes (pkcs8.toPkcs8Pem key))))
    (join keysDir publicKeyFile) (some (asBytes (pkcs8.toPublicKeyPem (scheme.verifyingKey key))))

private theorem holds_withKeyPair (key : scheme.SigningKey) (disk : Disk) :
    Holds pkcs8 keysDir (withKeyPair pkcs8 keysDir key disk) key := by
  refine ⟨pkcs8.toPkcs8Pem key, ?_, pkcs8.fromPkcs8Pem_toPkcs8Pem key⟩
  rw [withKeyPair, Function.update_of_ne (join_private_ne_public keysDir), Function.update_self]
  simp only [readFile, fromUtf8_asBytes]

private theorem createKeyPair_of_healthy {surroundings : Surroundings scheme}
    (healthy : ∀ op, surroundings.failure op = none) :
    Program.execute surroundings.act disk (createKeyPair pkcs8 keysDir) =
      (.ok (surroundings.generated, true),
        withKeyPair pkcs8 keysDir surroundings.generated disk) := by
  simp [createKeyPair, finishKeyPair, Program.execute, Surroundings.act, healthy, outcome, writeFile,
    withKeyPair]

/-- Replica 0 draws the first key, every other one the second; nothing fails. -/
def twoDraws (first second : scheme.SigningKey) (id : Nat) : Surroundings scheme :=
  ⟨fun _ => none, if id = 0 then first else second⟩

/-- The pool with one replica at this program. -/
def Replicas.moved (pool : Replicas scheme) (id : Nat)
    (program : Program FileOp (FileAnswer scheme) (Booted scheme)) : Replicas scheme where
  shared := pool.shared
  threads := Function.update pool.threads id (some ⟨(), program⟩)
  nextId := pool.nextId

/-- A replica that looks and finds no file goes on to make a key. -/
theorem replicasStep_look {id : Nat} (absent : before.shared (join keysDir privateKeyFile) = none)
    (readable : (weather id).failure (.readToString (join keysDir privateKeyFile)) = none)
    (found : before.threads id = some ⟨(), loadOrCreateSigningKey pkcs8 keysDir⟩)
    (offer : (op : FileOp) → FileAnswer scheme op) :
    replicasStep pkcs8 keysDir weather before (.exec id offer) =
      some (before.moved id (createKeyPair pkcs8 keysDir)) := by
  obtain ⟨message, answered⟩ : ∃ message, (weather id).act before.shared
      (.readToString (join keysDir privateKeyFile)) =
        (.error ⟨.notFound, message⟩, before.shared) :=
    ⟨_, by rw [Surroundings.act, readable, absent]; rfl⟩
  rw [loadOrCreateSigningKey, askFiles, Program.perform_bind] at found
  unfold replicasStep Pool.step
  simp only [found, replicas, answered]
  rfl

/-- A replica that makes a key while the others stand still. -/
theorem run_make {id : Nat} (healthy : ∀ op, (weather id).failure op = none)
    (found : before.threads id = some ⟨(), createKeyPair pkcs8 keysDir⟩)
    (offer : (op : FileOp) → FileAnswer scheme op) :
    ∃ events, run (replicasStep pkcs8 keysDir weather) before events = some
      { before.moved id (.done (.ok ((weather id).generated, true))) with
        shared := withKeyPair pkcs8 keysDir (weather id).generated before.shared } := by
  obtain ⟨count, last, ran⟩ := @Pool.run_alone _ _ _ _ _ _ _ (replicas pkcs8 keysDir weather) before
    id () (createKeyPair pkcs8 keysDir) found offer
  have made := @createKeyPair_of_healthy _ pkcs8 keysDir before.shared (weather id) healthy
  refine ⟨_, ran.trans ?_⟩
  show some _ = _
  have same : (fun (state : Disk) op => (replicas pkcs8 keysDir weather).act state id op (offer op)) =
      (weather id).act := rfl
  rw [same, made]
  rfl

/-- The surroundings answer by themselves; what is offered to them does not matter. -/
theorem offers (key : scheme.SigningKey) : Nonempty ((op : FileOp) → FileAnswer scheme op) := by
  refine ⟨fun op => ?_⟩
  cases op with
  | readToString path => exact .ok []
  | generate => exact key
  | createDirAll path => exact .ok ()
  | write path contents => exact .ok ()
  | setPermissions path mode => exact .ok ()

/-- Two replicas that both look before either has written boot with the keys that they
draw, and the later one's key stays on disk. -/
theorem both_boot (absent : disk (join keysDir privateKeyFile) = none)
    (first second : scheme.SigningKey) :
    ∃ events final, run (replicasStep pkcs8 keysDir (twoDraws first second)) (Pool.init disk) events =
        some final ∧ Gives final 0 first ∧ Gives final 1 second ∧
      Holds pkcs8 keysDir final.shared second := by
  obtain ⟨offer⟩ := offers first
  have readable : ∀ id, (twoDraws first second id).failure
      (.readToString (join keysDir privateKeyFile)) = none := fun _ => rfl
  let loading : Program FileOp (FileAnswer scheme) (Booted scheme) :=
    loadOrCreateSigningKey pkcs8 keysDir
  let making : Program FileOp (FileAnswer scheme) (Booted scheme) := createKeyPair pkcs8 keysDir
  let started : Replicas scheme :=
    { shared := disk
      threads := Function.update (Function.update (fun _ => none) 0 (some ⟨(), loading⟩)) 1
        (some ⟨(), loading⟩)
      nextId := 2 }
  have looks : replicasStep pkcs8 keysDir (twoDraws first second) started (.exec 0 offer) =
      some (started.moved 0 making) :=
    replicasStep_look absent (readable 0) (by simp [started, loading]) offer
  have looksToo : replicasStep pkcs8 keysDir (twoDraws first second) (started.moved 0 making)
      (.exec 1 offer) = some ((started.moved 0 making).moved 1 making) :=
    replicasStep_look absent (readable 1) (by simp [Replicas.moved, started, loading]) offer
  let looked : Replicas scheme := (started.moved 0 making).moved 1 making
  have look : run (replicasStep pkcs8 keysDir (twoDraws first second)) (Pool.init disk)
      [.spawn (), .spawn (), .exec 0 offer, .exec 1 offer] = some looked :=
    run_cons_iff.mpr ⟨_, rfl, run_cons_iff.mpr ⟨started, rfl, run_cons_iff.mpr ⟨_, looks,
      run_cons_iff.mpr ⟨looked, looksToo, rfl⟩⟩⟩⟩
  have healthy : ∀ id op, (twoDraws first second id).failure op = none := fun _ _ => rfl
  obtain ⟨firstEvents, ranFirst⟩ := run_make (healthy 0)
    (show looked.threads 0 = some ⟨(), createKeyPair pkcs8 keysDir⟩ by
      simp [looked, Replicas.moved, making]) offer
  obtain ⟨secondEvents, ranSecond⟩ := run_make (healthy 1)
    (show ({ looked.moved 0 (.done (.ok ((twoDraws first second 0).generated, true))) with
        shared := withKeyPair pkcs8 keysDir (twoDraws first second 0).generated looked.shared } :
          Replicas scheme).threads 1 = some ⟨(), createKeyPair pkcs8 keysDir⟩ by
      simp [looked, Replicas.moved, making]) offer
  refine ⟨_, _, run_append_iff.mpr ⟨looked, look, run_append_iff.mpr ⟨_, ranFirst, ranSecond⟩⟩,
    ⟨true, ?_⟩, ⟨true, ?_⟩, holds_withKeyPair _ _⟩
  · simp [Replicas.moved, twoDraws]
  · simp [Replicas.moved, twoDraws]

end

/-- A boot returns what the disk then holds, in every run of boots side by side, exactly
if there is a private key file before they start. Then no boot changes anything on the
disk. Otherwise two replicas can both serve, each with a key of its own. -/
theorem concurrent_boots_keep_key_iff {scheme : Ed25519} (pkcs8 : Pkcs8 scheme) (keysDir : Text)
    (disk : Disk) (first second : scheme.SigningKey) (different : first ≠ second) :
    ((∀ (weather : Nat → Surroundings scheme) (events : List (ReplicasEvent scheme))
        (final : Replicas scheme),
        run (replicasStep pkcs8 keysDir weather) (Pool.init disk) events = some final →
        ∀ id key, Gives final id key → Holds pkcs8 keysDir final.shared key) ↔
      (disk (join keysDir privateKeyFile)).isSome = true) ∧
    ((disk (join keysDir privateKeyFile)).isSome = true →
      ∀ (weather : Nat → Surroundings scheme) (events : List (ReplicasEvent scheme))
        (final : Replicas scheme),
        run (replicasStep pkcs8 keysDir weather) (Pool.init disk) events = some final →
        final.shared = disk) ∧
    (disk (join keysDir privateKeyFile) = none →
      ∃ (weather : Nat → Surroundings scheme) (events : List (ReplicasEvent scheme))
        (final : Replicas scheme),
        run (replicasStep pkcs8 keysDir weather) (Pool.init disk) events = some final ∧
        Gives final 0 first ∧ Gives final 1 second) := by
  have quiet : (disk (join keysDir privateKeyFile)).isSome = true →
      ∀ (weather : Nat → Surroundings scheme) (events : List (ReplicasEvent scheme))
        (final : Replicas scheme),
        run (replicasStep pkcs8 keysDir weather) (Pool.init disk) events = some final →
        final.shared = disk ∧ final.Threads fun _ program => ReadOnly pkcs8 keysDir disk program := by
    intro isSome weather events final ran
    obtain ⟨bytes, present⟩ := Option.isSome_iff_exists.mp isSome
    exact run_invariant (readOnly_step present) ⟨rfl, Pool.threads_init _ _⟩ ran
  refine ⟨⟨?_, ?_⟩, ?_, ?_⟩
  · intro always
    by_contra missing
    obtain ⟨events, final, ran, gives, -, holds⟩ :=
      @both_boot _ pkcs8 keysDir disk (by simpa using missing) first second
    exact different (holds.unique (always _ events final ran 0 first gives))
  · intro isSome weather events final ran id key gives
    obtain ⟨same, threads⟩ := quiet isSome weather events final ran
    obtain ⟨created, found⟩ := gives
    rw [same]
    exact threads id _ found key created rfl
  · intro isSome weather events final ran
    exact (quiet isSome weather events final ran).1
  · intro absent
    obtain ⟨events, final, ran, gives, gives', -⟩ := @both_boot _ pkcs8 keysDir disk absent first second
    exact ⟨_, events, final, ran, gives, gives'⟩

theorem concurrent_boots_keep_key_iff_on_empty_volume :
    ∃ (weather : Nat → Surroundings checksumScheme) (events : List (ReplicasEvent checksumScheme))
      (final : Replicas checksumScheme),
      run (replicasStep labelPem keysVolume weather) (Pool.init emptyDisk) events = some final ∧
        Gives final 0 checksumKey ∧ Gives final 1 (8 : UInt8) :=
  (concurrent_boots_keep_key_iff labelPem keysVolume emptyDisk checksumKey (8 : UInt8)
    (show (7 : UInt8) ≠ 8 by decide)).2.2 rfl

end Ratewall.Auth
