import Ratewall.Auth.Keys

/-! Owns the two key files as a pair. The first boot writes the private key before the
public one and takes nothing back, and every later boot looks at the private key alone,
so a creation that was cut short between the writes is reported as a success by the
next boot. A history leaves complete pairs when no creation in it was cut short there. -/

namespace Ratewall.Auth

open Ratewall.Rust
open Ratewall.Foundation

section

variable {scheme : Ed25519} (pkcs8 : Pkcs8 scheme) (keysDir : Text)

/-- The contents are a public key file of this key. -/
def LoadsPublic (contents : Option (List UInt8)) (key : scheme.VerifyingKey) : Prop :=
  ∃ text, readFile none contents = .ok text ∧ pkcs8.fromPublicKeyPem text = .ok key

/-- The public key file holds this key. -/
def HoldsPublic (disk : Disk) (key : scheme.VerifyingKey) : Prop :=
  LoadsPublic pkcs8 (disk (join keysDir publicKeyFile)) key

def privateContents (surroundings : Surroundings scheme) : List UInt8 :=
  asBytes (pkcs8.toPkcs8Pem surroundings.generated)

def publicContents (surroundings : Surroundings scheme) : List UInt8 :=
  asBytes (pkcs8.toPublicKeyPem (scheme.verifyingKey surroundings.generated))

/-- If the boot succeeds, both files are there and hold what it returns. -/
def LeavesPair (before : Disk) (surroundings : Surroundings scheme) : Prop :=
  ∀ key created, (boot pkcs8 keysDir before surroundings).1 = .ok (key, created) →
    Holds pkcs8 keysDir (boot pkcs8 keysDir before surroundings).2 key ∧
      HoldsPublic pkcs8 keysDir (boot pkcs8 keysDir before surroundings).2 (scheme.verifyingKey key)

/-- A boot that finds no private key and gets as far as writing one does not stop half
way: if the first write succeeds, so does the second, or at least it leaves the whole
key behind; and if the first fails, what it leaves behind is no key. -/
def Uninterrupted (before : Disk) (surroundings : Surroundings scheme) : Prop :=
  before (join keysDir privateKeyFile) = none →
  surroundings.failure (.readToString (join keysDir privateKeyFile)) = none →
  surroundings.failure (.createDirAll keysDir) = none →
    match surroundings.failure
      (.write (join keysDir privateKeyFile) (privateContents pkcs8 surroundings)) with
    | none =>
        LoadsPublic pkcs8
          (writeFile
            (surroundings.failure
              (.write (join keysDir publicKeyFile) (publicContents pkcs8 surroundings)))
            (publicContents pkcs8 surroundings) (before (join keysDir publicKeyFile)))
          (scheme.verifyingKey surroundings.generated)
    | some failure =>
        ∀ key, ¬ Loads pkcs8 none
          (writeFile (some failure) (privateContents pkcs8 surroundings) none) key

/-- No call fails. -/
def Healthy (surroundings : Surroundings scheme) : Prop :=
  ∀ op, surroundings.failure op = none

/-- Where a key can be loaded, its public key file is there; where there is no private
key file, there is no public one. -/
structure Paired (disk : Disk) : Prop where
  pair : ∀ key, Holds pkcs8 keysDir disk key →
    HoldsPublic pkcs8 keysDir disk (scheme.verifyingKey key)
  none : disk (join keysDir privateKeyFile) = none → disk (join keysDir publicKeyFile) = none

end

section

variable {scheme : Ed25519} {pkcs8 : Pkcs8 scheme} {keysDir : Text} {disk : Disk}
  {surroundings : Surroundings scheme} {key : scheme.SigningKey}

theorem not_loads_none : ¬ Loads pkcs8 none none key := by
  rintro ⟨text, read, -⟩
  cases read

private theorem loadsPublic_written (key : scheme.VerifyingKey) :
    LoadsPublic pkcs8 (some (asBytes (pkcs8.toPublicKeyPem key))) key := by
  refine ⟨pkcs8.toPublicKeyPem key, ?_, pkcs8.fromPublicKeyPem_toPublicKeyPem key⟩
  simp only [readFile, fromUtf8_asBytes]

private theorem loads_written (key : scheme.SigningKey) :
    Loads pkcs8 none (some (asBytes (pkcs8.toPkcs8Pem key))) key := by
  refine ⟨pkcs8.toPkcs8Pem key, ?_, pkcs8.fromPkcs8Pem_toPkcs8Pem key⟩
  simp only [readFile, fromUtf8_asBytes]

/-- What a boot without a private key file does to the disk: nothing, as long as it does
not come to the first write; then what the first write leaves; then both. -/
theorem boot_of_absent_cases (absent : disk (join keysDir privateKeyFile) = none) :
    (¬ (surroundings.failure (.readToString (join keysDir privateKeyFile)) = none ∧
        surroundings.failure (.createDirAll keysDir) = none) ∧
      (boot pkcs8 keysDir disk surroundings).2 = disk) ∨
    (∃ failure, (surroundings.failure (.readToString (join keysDir privateKeyFile)) = none ∧
        surroundings.failure (.createDirAll keysDir) = none) ∧ surroundings.failure
        (.write (join keysDir privateKeyFile) (privateContents pkcs8 surroundings)) = some failure ∧
      (boot pkcs8 keysDir disk surroundings).2 (join keysDir privateKeyFile) =
        writeFile (some failure) (privateContents pkcs8 surroundings) none ∧
      (boot pkcs8 keysDir disk surroundings).2 (join keysDir publicKeyFile) =
        disk (join keysDir publicKeyFile)) ∨
    ((surroundings.failure (.readToString (join keysDir privateKeyFile)) = none ∧
        surroundings.failure (.createDirAll keysDir) = none) ∧ surroundings.failure
        (.write (join keysDir privateKeyFile) (privateContents pkcs8 surroundings)) = none ∧
      (boot pkcs8 keysDir disk surroundings).2 (join keysDir privateKeyFile) =
        some (privateContents pkcs8 surroundings) ∧
      (boot pkcs8 keysDir disk surroundings).2 (join keysDir publicKeyFile) =
        writeFile
          (surroundings.failure
            (.write (join keysDir publicKeyFile) (publicContents pkcs8 surroundings)))
          (publicContents pkcs8 surroundings) (disk (join keysDir publicKeyFile))) := by
  have apart := join_private_ne_public keysDir
  simp only [boot, loadOrCreateSigningKey, Program.perform_bind, Program.execute,
    Surroundings.act, absent, privateContents, publicContents]
  cases found : surroundings.failure (.readToString (join keysDir privateKeyFile)) with
  | some failure => exact Or.inl ⟨by simp, rfl⟩
  | none =>
      simp only [readFile, if_true, createKeyPair, Program.perform_bind, Program.execute,
        Surroundings.act]
      cases made : surroundings.failure (.createDirAll keysDir) with
      | some failure => exact Or.inl ⟨by simp, rfl⟩
      | none =>
          simp only [outcome, Program.execute, Surroundings.act]
          cases stored : surroundings.failure (.write (join keysDir privateKeyFile)
              (asBytes (pkcs8.toPkcs8Pem surroundings.generated))) with
          | some failure =>
              refine Or.inr (Or.inl ⟨failure, ⟨trivial, trivial⟩, rfl, ?_, ?_⟩)
              · simp [Program.execute, absent]
              · simp [Program.execute, Function.update_of_ne apart.symm]
          | none =>
              simp only [finishKeyPair, Program.perform_bind, Program.execute, Surroundings.act]
              refine Or.inr (Or.inr ⟨⟨trivial, trivial⟩, trivial, ?_, ?_⟩)
              · cases surroundings.failure (.write (join keysDir publicKeyFile)
                  (asBytes (pkcs8.toPublicKeyPem (scheme.verifyingKey surroundings.generated)))) with
                | none => simp [outcome, Program.execute, Function.update_of_ne apart, writeFile]
                | some failure =>
                    simp [outcome, Program.execute, Function.update_of_ne apart, writeFile]
              · cases surroundings.failure (.write (join keysDir publicKeyFile)
                  (asBytes (pkcs8.toPublicKeyPem (scheme.verifyingKey surroundings.generated)))) with
                | none => simp [outcome, Program.execute, writeFile]
                | some failure =>
                    simp [outcome, Program.execute, Function.update_of_ne apart.symm, writeFile]

/-! ### One boot -/

private theorem leavesPair_of_paired
    (paired : Paired pkcs8 keysDir (boot pkcs8 keysDir disk surroundings).2) :
    LeavesPair pkcs8 keysDir disk surroundings := by
  intro key created succeeded
  have holds := holds_of_boot succeeded
  exact ⟨holds, paired.pair key holds⟩

/-- A boot that is not cut short leaves a pair of files a pair. -/
theorem paired_boot (paired : Paired pkcs8 keysDir disk)
    (uninterrupted : Uninterrupted pkcs8 keysDir disk surroundings) :
    Paired pkcs8 keysDir (boot pkcs8 keysDir disk surroundings).2 := by
  cases held : disk (join keysDir privateKeyFile) with
  | some bytes =>
      rw [(boot_of_present held).1]
      exact paired
  | none =>
      have reached := uninterrupted held
      rcases boot_of_absent_cases held with
        ⟨-, same⟩ | ⟨failure, ⟨read, made⟩, failed, privately, publicly⟩ |
          ⟨⟨read, made⟩, stored, privately, publicly⟩
      · rw [same]
        exact paired
      · have lost := reached read made
        rw [failed] at lost
        constructor
        · intro key holds
          rw [Holds, privately] at holds
          exact absurd holds (lost key)
        · intro
          rw [publicly]
          exact paired.none held
      · have whole := reached read made
        rw [stored] at whole
        constructor
        · intro key holds
          have written : Holds pkcs8 keysDir (boot pkcs8 keysDir disk surroundings).2
              surroundings.generated := by
            rw [Holds, privately]
            exact loads_written surroundings.generated
          obtain rfl : key = surroundings.generated := written.unique holds
          rw [HoldsPublic, publicly]
          exact whole
        · intro absent
          rw [privately] at absent
          cases absent

/-- A boot that is cut short leaves a key without its public key file. -/
theorem unpaired_boot (paired : Paired pkcs8 keysDir disk)
    (interrupted : ¬ Uninterrupted pkcs8 keysDir disk surroundings) :
    ∃ key, Holds pkcs8 keysDir (boot pkcs8 keysDir disk surroundings).2 key ∧
      ¬ HoldsPublic pkcs8 keysDir (boot pkcs8 keysDir disk surroundings).2
        (scheme.verifyingKey key) := by
  unfold Uninterrupted at interrupted
  push Not at interrupted
  obtain ⟨held, read, made, broken⟩ := interrupted
  rcases boot_of_absent_cases held with
    ⟨unreached, -⟩ | ⟨failure, -, failed, privately, publicly⟩ | ⟨-, stored, privately, publicly⟩
  · exact absurd ⟨read, made⟩ unreached
  · rw [failed] at broken
    push Not at broken
    obtain ⟨key, loads⟩ := broken
    refine ⟨key, ?_, ?_⟩
    · rw [Holds, privately]
      exact loads
    · rintro ⟨text, found, -⟩
      rw [publicly, paired.none held] at found
      cases found
  · rw [stored] at broken
    refine ⟨surroundings.generated, ?_, ?_⟩
    · rw [Holds, privately]
      exact loads_written surroundings.generated
    · rw [HoldsPublic, publicly]
      exact broken

/-- A key without its public key file stays one, and the next boot that can read it
reports success. -/
theorem not_meets_leavesPair (held : Holds pkcs8 keysDir disk key)
    (alone : ¬ HoldsPublic pkcs8 keysDir disk (scheme.verifyingKey key))
    (boots : List (Surroundings scheme)) {healthy : Surroundings scheme}
    (noFailure : Healthy healthy) :
    ¬ Meets (bootStep pkcs8 keysDir) (LeavesPair pkcs8 keysDir) disk (boots ++ [healthy]) := by
  obtain ⟨bytes, present⟩ : ∃ bytes, disk (join keysDir privateKeyFile) = some bytes := by
    cases contents : disk (join keysDir privateKeyFile) with
    | none =>
        rw [Holds, contents] at held
        exact absurd held not_loads_none
    | some bytes => exact ⟨bytes, rfl⟩
  induction boots with
  | nil =>
      rintro ⟨leaves, -⟩
      obtain ⟨same, decided⟩ := @boot_of_present _ pkcs8 _ _ healthy _ present
      have loads : Loads pkcs8
          (healthy.failure (.readToString (join keysDir privateKeyFile))) (some bytes) key := by
        rw [noFailure, ← present]
        exact held
      have pair := leaves key false ((decided key false).mpr ⟨rfl, loads⟩)
      rw [same] at pair
      exact alone pair.2
  | cons surroundings boots ih =>
      intro meets
      have later := meets.tail (rfl : bootStep pkcs8 keysDir disk surroundings = some _)
      rw [(boot_of_present present).1] at later
      exact ih later

end

/-! ### Histories of boots -/

section

variable {scheme : Ed25519} {pkcs8 : Pkcs8 scheme} {keysDir : Text} {disk : Disk}

private theorem paired_of_absent (noPrivate : disk (join keysDir privateKeyFile) = none)
    (noPublic : disk (join keysDir publicKeyFile) = none) : Paired pkcs8 keysDir disk := by
  constructor
  · intro key holds
    rw [Holds, noPrivate] at holds
    exact absurd holds not_loads_none
  · intro
    exact noPublic

private theorem meets_leavesPair {boots : List (Surroundings scheme)}
    (paired : Paired pkcs8 keysDir disk)
    (uninterrupted : Meets (bootStep pkcs8 keysDir) (Uninterrupted pkcs8 keysDir) disk boots) :
    Meets (bootStep pkcs8 keysDir) (LeavesPair pkcs8 keysDir) disk boots := by
  refine meets_of_invariant ?_ ?_ paired uninterrupted
  · intro before surroundings after paired uninterrupted stepped
    obtain rfl := Option.some.inj stepped
    exact paired_boot paired uninterrupted
  · intro before surroundings paired uninterrupted
    exact leavesPair_of_paired (paired_boot paired uninterrupted)

private theorem uninterrupted_of_healthy {before : Disk} {healthy : Surroundings scheme}
    (noFailure : Healthy healthy) : Uninterrupted pkcs8 keysDir before healthy := by
  intro _ _ _
  rw [noFailure, noFailure]
  exact loadsPublic_written (scheme.verifyingKey healthy.generated)

/-- If even a healthy boot after the history leaves a pair, no boot of the history was
cut short. -/
theorem meets_uninterrupted {boots : List (Surroundings scheme)} (paired : Paired pkcs8 keysDir disk)
    (leaves : ∀ healthy, Healthy healthy →
      Meets (bootStep pkcs8 keysDir) (LeavesPair pkcs8 keysDir) disk (boots ++ [healthy])) :
    Meets (bootStep pkcs8 keysDir) (Uninterrupted pkcs8 keysDir) disk boots := by
  induction boots generalizing disk with
  | nil => exact trivial
  | cons surroundings boots ih =>
      have uninterrupted : Uninterrupted pkcs8 keysDir disk surroundings := by
        by_contra interrupted
        obtain ⟨key, holds, alone⟩ := unpaired_boot paired interrupted
        have noFailure : Healthy (⟨fun _ => none, surroundings.generated⟩ : Surroundings scheme) :=
          fun _ => rfl
        refine not_meets_leavesPair holds alone boots noFailure ?_
        exact (leaves _ noFailure).tail (rfl : bootStep pkcs8 keysDir disk surroundings = some _)
      refine ⟨uninterrupted, ih (paired_boot paired uninterrupted) ?_⟩
      intro healthy noFailure
      exact (leaves healthy noFailure).tail
        (rfl : bootStep pkcs8 keysDir disk surroundings = some _)

end

/-- From a directory without key files: in a history in which no creation is cut short,
every boot that succeeds leaves both files, with the key that it returns; and if one is
cut short, the property is lost with the first healthy boot at the latest. -/
theorem boots_leave_pair_iff_uninterrupted {scheme : Ed25519} (pkcs8 : Pkcs8 scheme)
    (keysDir : Text) (disk : Disk) (noPrivate : disk (join keysDir privateKeyFile) = none)
    (noPublic : disk (join keysDir publicKeyFile) = none) (boots : List (Surroundings scheme)) :
    (Meets (bootStep pkcs8 keysDir) (Uninterrupted pkcs8 keysDir) disk boots →
      Meets (bootStep pkcs8 keysDir) (LeavesPair pkcs8 keysDir) disk boots) ∧
    (Meets (bootStep pkcs8 keysDir) (Uninterrupted pkcs8 keysDir) disk boots ↔
      ∀ healthy, Healthy healthy →
        Meets (bootStep pkcs8 keysDir) (LeavesPair pkcs8 keysDir) disk (boots ++ [healthy])) := by
  have paired : Paired pkcs8 keysDir disk := paired_of_absent noPrivate noPublic
  refine ⟨meets_leavesPair paired, ?_, meets_uninterrupted paired⟩
  intro uninterrupted healthy noFailure
  refine meets_leavesPair paired (uninterrupted.append ?_)
  intro middle ran
  refine ⟨uninterrupted_of_healthy noFailure, ?_⟩
  trivial

/-! ### On a stand-in of the PEM codec -/

def privateLabel : Text := "-----PRIVATE KEY-----\n".toList
def publicLabel : Text := "-----PUBLIC KEY-----\n".toList

def labelled (label : Text) (key : UInt8) : Text := label ++ [Char.ofNat key.toNat]

def unlabelled (label text : Text) : Except Text UInt8 :=
  match stripPrefix label text with
  | some [c] => .ok (UInt8.ofNat c.toNat)
  | _ => .error "malformed PEM".toList

private theorem unlabelled_labelled (label : Text) (key : UInt8) :
    unlabelled label (labelled label key) = .ok key := by
  have valid : key.toNat.isValidChar := Or.inl (by have := key.toNat_lt; omega)
  have back : UInt8.ofNat (Char.ofNat key.toNat).toNat = key := by
    rw [Char.ofNat, dif_pos valid]
    exact UInt8.ofNat_toNat
  have stripped : stripPrefix label (labelled label key) = some [Char.ofNat key.toNat] := by
    simp [stripPrefix, labelled]
  rw [unlabelled, stripped]
  exact congrArg Except.ok back

def labelPem : Pkcs8 checksumScheme where
  toPkcs8Pem := labelled privateLabel
  fromPkcs8Pem := unlabelled privateLabel
  toPublicKeyPem := labelled publicLabel
  fromPublicKeyPem := unlabelled publicLabel
  fromPkcs8Pem_toPkcs8Pem := unlabelled_labelled privateLabel
  fromPublicKeyPem_toPublicKeyPem := unlabelled_labelled publicLabel

def keysVolume : Text := "/var/lib/ratewall/keys".toList

def emptyDisk : Disk := fun _ => none

def healthyBoot : Surroundings checksumScheme := ⟨fun _ => none, checksumKey⟩

/-- The calls on one path fail and leave nothing. -/
def failingAt (path : Text) : Surroundings checksumScheme where
  failure
    | .createDirAll other => if other = path then some ⟨"permission denied".toList, none⟩ else none
    | .write other _ => if other = path then some ⟨"no space left".toList, none⟩ else none
    | _ => none
  generated := checksumKey

/-- The directory cannot be made, then it can. -/
theorem boots_leave_pair_iff_uninterrupted_after_denied :
    Meets (bootStep labelPem keysVolume) (LeavesPair labelPem keysVolume) emptyDisk
      [failingAt keysVolume, healthyBoot, healthyBoot] := by
  refine (boots_leave_pair_iff_uninterrupted labelPem keysVolume emptyDisk rfl rfl _).1 ?_
  refine ⟨?_, uninterrupted_of_healthy fun _ => rfl, uninterrupted_of_healthy fun _ => rfl, trivial⟩
  intro _ _ made
  cases made

/-- The second write of the first boot fails; the second boot reports success and leaves
no public key file. -/
theorem second_boot_leaves_no_pair :
    ¬ Meets (bootStep labelPem keysVolume) (LeavesPair labelPem keysVolume) emptyDisk
      [failingAt (join keysVolume publicKeyFile), healthyBoot] := by
  rintro ⟨-, leaves, -⟩
  have present : (boot labelPem keysVolume emptyDisk
      (failingAt (join keysVolume publicKeyFile))).2 (join keysVolume privateKeyFile) =
        some (asBytes (labelPem.toPkcs8Pem checksumKey)) := by
    decide +kernel
  have succeeded := ((@boot_of_present _ labelPem _ _ healthyBoot _ present).2 checksumKey
    false).mpr ⟨rfl, loads_written checksumKey⟩
  obtain ⟨text, read, -⟩ := (leaves checksumKey false succeeded).2
  rw [(boot_of_present present).1] at read
  have missing : (boot labelPem keysVolume emptyDisk
      (failingAt (join keysVolume publicKeyFile))).2 (join keysVolume publicKeyFile) = none := by
    decide +kernel
  rw [missing] at read
  cases read

end Ratewall.Auth
