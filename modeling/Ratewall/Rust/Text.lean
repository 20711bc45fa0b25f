import Ratewall.Rust.Unicode
import Mathlib.Data.List.Basic
import Mathlib.Data.List.DropRight

/-! Owns the operations of `str`, `char` and `format!` that the gateway uses.
Text is a list of scalar values. The order of two texts is the order of their
scalar values, which is also the byte order of their UTF-8 forms, so a
`BTreeMap<String, _>` is a `Std.TreeMap` over it. `decimal` and `debugText` are
what `format!` writes for `{}` of a number and `{:?}` of a string. -/

namespace Ratewall.Rust

abbrev Text := List Char

/-- `char::is_whitespace`: the Unicode `White_Space` property. -/
def isWhitespace (c : Char) : Bool :=
  (9 ≤ c.toNat && c.toNat ≤ 13) || c.toNat == 0x20 || c.toNat == 0x85 || c.toNat == 0xA0 ||
    c.toNat == 0x1680 || (0x2000 ≤ c.toNat && c.toNat ≤ 0x200A) || c.toNat == 0x2028 ||
    c.toNat == 0x2029 || c.toNat == 0x202F || c.toNat == 0x205F || c.toNat == 0x3000

def trim (value : Text) : Text :=
  (value.dropWhile isWhitespace).rdropWhile isWhitespace

def trimStartMatches (c : Char) (value : Text) : Text :=
  value.dropWhile (· == c)

def trimEndMatches (c : Char) (value : Text) : Text :=
  value.rdropWhile (· == c)

/-- Trimming stops at the last other character. -/
theorem trimEndMatches_append {c : Char} {first second : Text}
    (kept : ∃ other ∈ second, other ≠ c) :
    trimEndMatches c (first ++ second) = first ++ trimEndMatches c second := by
  obtain ⟨other, member, differs⟩ := kept
  unfold trimEndMatches List.rdropWhile
  rw [List.reverse_append, List.dropWhile_append, if_neg]
  · simp
  · rw [List.isEmpty_iff, List.dropWhile_eq_nil_iff]
    intro all
    exact differs (by simpa using all other (List.mem_reverse.mpr member))

theorem trimEndMatches_all {c : Char} {first second : Text} (all : ∀ other ∈ second, other = c) :
    trimEndMatches c (first ++ second) = trimEndMatches c first := by
  unfold trimEndMatches List.rdropWhile
  rw [List.reverse_append, List.dropWhile_append, if_pos]
  rw [List.isEmpty_iff, List.dropWhile_eq_nil_iff]
  intro other member
  simpa using all other (List.mem_reverse.mp member)

theorem mem_trimEndMatches {c other : Char} {value : Text} (differs : other ≠ c) :
    other ∈ trimEndMatches c value ↔ other ∈ value := by
  constructor
  · intro member
    exact (List.rdropWhile_prefix _ _).subset member
  · intro member
    obtain ⟨first, second, rfl⟩ := List.append_of_mem member
    rw [trimEndMatches_append ⟨other, List.mem_cons_self, differs⟩]
    have split : other :: second = [other] ++ second := rfl
    apply List.mem_append_right
    by_cases kept : ∃ rest ∈ second, rest ≠ c
    · rw [split, trimEndMatches_append kept]
      exact List.mem_cons_self
    · push Not at kept
      rw [split, trimEndMatches_all kept]
      simp [trimEndMatches, List.rdropWhile, differs]

def stripPrefix (start value : Text) : Option Text :=
  if start.isPrefixOf value then some (value.drop start.length) else none

def splitOnce (separator : Char) : Text → Option (Text × Text)
  | [] => none
  | c :: rest =>
      if c = separator then some ([], rest)
      else (splitOnce separator rest).map fun parts => (c :: parts.1, parts.2)

/-- The separator found is the first one. -/
theorem splitOnce_eq_some {separator : Char} {value : Text} {parts : Text × Text}
    (found : splitOnce separator value = some parts) :
    value = parts.1 ++ separator :: parts.2 ∧ separator ∉ parts.1 := by
  induction value generalizing parts with
  | nil => cases found
  | cons c rest ih =>
      unfold splitOnce at found
      split at found
      next same =>
        cases found
        exact ⟨by rw [same]; rfl, by simp⟩
      next differs =>
        obtain ⟨inner, foundInner, rfl⟩ := Option.map_eq_some_iff.mp found
        obtain ⟨joined, free⟩ := ih foundInner
        exact ⟨by rw [joined]; rfl, by simpa [Ne.symm differs] using free⟩

theorem splitOnce_append {separator : Char} {first second : Text} (free : separator ∉ first) :
    splitOnce separator (first ++ separator :: second) = some (first, second) := by
  induction first with
  | nil => simp [splitOnce]
  | cons c first ih =>
      have differs : c ≠ separator := by
        intro same
        exact free (same ▸ List.mem_cons_self)
      have rest := ih fun member => free (List.mem_cons_of_mem _ member)
      simp [splitOnce, differs, rest]

theorem splitOnce_eq_none_iff {separator : Char} {value : Text} :
    splitOnce separator value = none ↔ separator ∉ value := by
  induction value with
  | nil => simp [splitOnce]
  | cons c rest ih =>
      unfold splitOnce
      by_cases same : c = separator
      · simp [same]
      · simp [same, Ne.symm same, ih]

def decimal (value : Nat) : Text := Nat.toDigits 10 value

private theorem mem_digits {c : Char} (digit : c.isDigit = true) : c ∈ "0123456789".toList := by
  have bounds : 48 ≤ c.toNat ∧ c.toNat ≤ 57 := by
    simpa [Char.isDigit, UInt32.le_iff_toNat_le] using digit
  have all : ∀ n ∈ List.range' 48 10, Char.ofNat n ∈ "0123456789".toList := by decide
  rw [← Char.ofNat_toNat c]
  apply all
  rw [List.mem_range'_1]
  omega

theorem decimal_injective : Function.Injective decimal := by
  intro left right same
  have read := congrArg (fun digits => Nat.ofDigitChars 10 digits 0) same
  simpa [decimal] using read

theorem not_mem_decimal {c : Char} (other : c.isDigit = false) (value : Nat) : c ∉ decimal value := by
  intro member
  have digit := Nat.isDigit_of_mem_toDigits (by decide) (by decide) member
  rw [other] at digit
  cases digit

/-- Where the separator last stands tells the two parts of a text apart. -/
theorem append_cons_inj {separator : Char} {left right first second : Text}
    (noFirst : separator ∉ first) (noSecond : separator ∉ second) :
    left ++ separator :: first = right ++ separator :: second ↔ left = right ∧ first = second := by
  constructor
  · intro same
    rcases List.append_eq_append_iff.mp same with ⟨between, rfl, rest⟩ | ⟨between, rfl, rest⟩
    · cases between with
      | nil => simpa using rest
      | cons c between =>
          injection rest with _ tail
          exact absurd (tail ▸ List.mem_append_right _ List.mem_cons_self) noFirst
    · cases between with
      | nil => simpa using rest.symm
      | cons c between =>
          injection rest with _ tail
          exact absurd (tail ▸ List.mem_append_right _ List.mem_cons_self) noSecond
  · rintro ⟨rfl, rfl⟩
    rfl

def unicodeEscape (c : Char) : Text :=
  ['\\', 'u', '\x7b'] ++ Nat.toDigits 16 c.toNat ++ ['\x7d']

/-- One character in the `Debug` form of a string. -/
def escapeDebug (c : Char) : Text :=
  if c = '\x00' then ['\\', '0']
  else if c = '\t' then ['\\', 't']
  else if c = '\r' then ['\\', 'r']
  else if c = '\n' then ['\\', 'n']
  else if c = '"' then ['\\', '"']
  else if c = '\\' then ['\\', '\\']
  else if c.toNat < 0x20 ∨ c.toNat = 0x7F then unicodeEscape c
  -- in a string every character that extends the one before it is escaped
  else if (0x80 ≤ c.toNat && isEscapedAbove c) = true then unicodeEscape c
  else [c]

def debugText (value : Text) : Text :=
  '"' :: value.flatMap escapeDebug ++ ['"']

/-- `str::as_bytes`: the UTF-8 form. -/
def asBytes (value : Text) : List UInt8 := value.flatMap String.utf8EncodeChar

def fromUtf8 (bytes : List UInt8) : Option Text :=
  bytes.toByteArray.utf8Decode?.map Array.toList

/-- Text survives the way through UTF-8. -/
theorem fromUtf8_asBytes (value : Text) : fromUtf8 (asBytes value) = some value := by
  have encoded : (asBytes value).toByteArray = value.utf8Encode := rfl
  unfold fromUtf8
  rw [encoded, List.utf8Decode?_utf8Encode]
  rfl

theorem asBytes_injective : Function.Injective asBytes := by
  intro left right same
  have decoded := fromUtf8_asBytes left
  rw [same, fromUtf8_asBytes] at decoded
  exact (Option.some.inj decoded).symm

theorem decimal_bytes {value : Nat} {byte : UInt8} (member : byte ∈ asBytes (decimal value)) :
    48 ≤ byte ∧ byte ≤ 57 := by
  obtain ⟨c, inside, encoded⟩ := List.mem_flatMap.mp member
  have digit := mem_digits (Nat.isDigit_of_mem_toDigits (by decide) (by decide) inside)
  have all : ("0123456789".toList.all fun c => (String.utf8EncodeChar c).all fun byte =>
      decide (48 ≤ byte ∧ byte ≤ 57)) = true := by decide
  exact of_decide_eq_true (List.all_eq_true.mp (List.all_eq_true.mp all c digit) byte encoded)

/-- Three pieces of a split join to the text again. -/
theorem eq_join_of_splitOn {separator : Char} {value first second third : Text}
    (pieces : value.splitOn separator = [first, second, third]) :
    value = first ++ separator :: second ++ separator :: third := by
  have joined := @List.intercalate_splitOn _ value _ _ separator
  rw [pieces] at joined
  simpa [List.intercalate] using joined.symm

/-- Three pieces without the separator are what `str::split` finds in their
join. -/
theorem splitOn_three {separator : Char} {first second third : Text}
    (noFirst : separator ∉ first) (noSecond : separator ∉ second) (noThird : separator ∉ third) :
    (first ++ separator :: second ++ separator :: third).splitOn separator =
      [first, second, third] := by
  have joined := @List.splitOn_intercalate _ [first, second, third] _ _ separator
    (by simpa using ⟨noFirst, noSecond, noThird⟩) (by simp)
  simpa [List.intercalate] using joined

end Ratewall.Rust
