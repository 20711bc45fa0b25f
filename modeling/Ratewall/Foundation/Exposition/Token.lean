import Mathlib.Algebra.Field.Rat
import Mathlib.Algebra.Order.Ring.Rat
import Mathlib.Data.List.Basic
import Mathlib.Data.List.DropRight

/-! Owns the tokens of the Prometheus text format: names, quoted label values, docstrings
and numbers, each with its reader and the fact that the reader takes back what was
written. A number is read as an exact rational; which float a reader rounds it to is not
owned here. -/

namespace Ratewall.Foundation.Exposition

/-- Blanks and tabs separate tokens. -/
def isBlank (c : Char) : Bool := c == ' ' || c == '\t'

def skip (text : List Char) : List Char := text.dropWhile isBlank

/-- The tokens of a text. -/
def words (text : List Char) : List (List Char) := (text.splitOnP isBlank).filter (· ≠ [])

/-- Something that stands between blanks within a line. -/
def IsWord (text : List Char) : Prop := text ≠ [] ∧ ∀ c ∈ text, isBlank c = false ∧ c ≠ '\n'

theorem skip_of_head {text : List Char} (head : ∀ c ∈ text.head?, isBlank c = false) :
    skip text = text := by
  cases text with
  | nil => rfl
  | cons c rest => simp [skip, head c rfl]

theorem skip_blank (rest : List Char) : skip (' ' :: rest) = skip rest := by
  simp [skip, isBlank]

theorem words_blank_word {word : List Char} (isWord : IsWord word) : words (' ' :: word) = [word] := by
  obtain ⟨nonempty, free⟩ := isWord
  have whole : word.splitOnP isBlank = [word] := by
    apply List.splitOnP_eq_singleton
    intro c member
    simp [(free c member).1]
  have first : (' ' :: word).splitOnP isBlank = [[], word] := by
    rw [List.splitOnP_cons_eq_if_modifyHead, if_pos (by decide), whole]
  simp [words, first, nonempty]

theorem words_blank_pair {first second : List Char} (isFirst : IsWord first)
    (isSecond : IsWord second) : words (' ' :: (first ++ ' ' :: second)) = [first, second] := by
  have whole : second.splitOnP isBlank = [second] := by
    apply List.splitOnP_eq_singleton
    intro c member
    exact (isSecond.2 c member).1
  have before : (' ' :: (first ++ ' ' :: second)).splitOnP isBlank = [[], first, second] := by
    rw [List.splitOnP_cons_eq_if_modifyHead, if_pos (by decide),
      List.splitOnP_append_cons_of_forall_mem (fun c member => (isFirst.2 c member).1) ' ' (by decide),
      whole]
  simp [words, before, isFirst.1, isSecond.1]

/-! ### Names -/

/-- A colon may stand in the name of a metric, not in that of a label. -/
def opensName (colons : Bool) (c : Char) : Bool := c.isAlpha || c == '_' || (colons && c == ':')

def continuesName (colons : Bool) (c : Char) : Bool := opensName colons c || c.isDigit

def isName (colons : Bool) : List Char → Bool
  | c :: rest => opensName colons c && rest.all (continuesName colons)
  | [] => false

def readName (colons : Bool) : List Char → Option (List Char × List Char)
  | c :: rest =>
      if opensName colons c then
        some (c :: rest.takeWhile (continuesName colons), rest.dropWhile (continuesName colons))
      else none
  | [] => none

section

variable {colons : Bool} {name rest : List Char}

/-- A name is read up to the character that does not continue it. -/
theorem readName_append (isName' : isName colons name = true)
    (ends : ∀ c ∈ rest.head?, continuesName colons c = false) :
    readName colons (name ++ rest) = some (name, rest) := by
  cases name with
  | nil => cases isName'
  | cons c more =>
      obtain ⟨opens, continues⟩ := Bool.and_eq_true_iff.mp isName'
      have within := List.all_eq_true.mp continues
      have taken : (more ++ rest).takeWhile (continuesName colons) = more := by
        rw [List.takeWhile_append_of_pos within]
        cases rest with
        | nil => simp
        | cons c rest => simp [ends c rfl]
      have dropped : (more ++ rest).dropWhile (continuesName colons) = rest := by
        rw [List.dropWhile_append_of_pos within]
        cases rest with
        | nil => rfl
        | cons c rest => simp [ends c rfl]
      rw [List.cons_append, readName, if_pos opens, taken, dropped]

theorem head_of_isName (isName' : isName colons name = true) :
    ∃ c more, name = c :: more ∧ opensName colons c = true := by
  cases name with
  | nil => cases isName'
  | cons c more => exact ⟨c, more, rfl, (Bool.and_eq_true_iff.mp isName').1⟩

theorem continues_of_isName (isName' : isName colons name = true) :
    ∀ c ∈ name, continuesName colons c = true := by
  obtain ⟨c, more, rfl, opens⟩ := head_of_isName isName'
  intro other member
  rcases List.mem_cons.mp member with rfl | later
  · simp [continuesName, opens]
  · exact List.all_eq_true.mp (Bool.and_eq_true_iff.mp isName').2 other later

end

/-! ### Escapes -/

/-- A quotation mark is escaped where a quotation mark ends the text. -/
def escape (quoted : Bool) (c : Char) : List Char :=
  if c = '\\' then ['\\', '\\']
  else if c = '\n' then ['\\', 'n']
  else if quoted && c == '"' then ['\\', '"']
  else [c]

def escaped (quoted : Bool) (text : List Char) : List Char := text.flatMap (escape quoted)

/-- The text up to the quotation mark that ends it. -/
def readQuoted : List Char → Option (List Char × List Char)
  | [] => none
  | '"' :: rest => some ([], rest)
  | '\\' :: 'n' :: rest => (readQuoted rest).map fun read => ('\n' :: read.1, read.2)
  | '\\' :: '\\' :: rest => (readQuoted rest).map fun read => ('\\' :: read.1, read.2)
  | '\\' :: '"' :: rest => (readQuoted rest).map fun read => ('"' :: read.1, read.2)
  | '\\' :: _ => none
  | c :: rest => (readQuoted rest).map fun read => (c :: read.1, read.2)

def readDoc : List Char → Option (List Char)
  | [] => some []
  | '\\' :: 'n' :: rest => (readDoc rest).map ('\n' :: ·)
  | '\\' :: '\\' :: rest => (readDoc rest).map ('\\' :: ·)
  | '\\' :: _ => none
  | c :: rest => (readDoc rest).map (c :: ·)

private theorem readQuoted_plain {c : Char} (slash : c ≠ '\\') (quote : c ≠ '"')
    (rest : List Char) :
    readQuoted (c :: rest) = (readQuoted rest).map fun read => (c :: read.1, read.2) := by
  rw [readQuoted.eq_def]
  split <;> simp_all

private theorem readDoc_plain {c : Char} (slash : c ≠ '\\') (rest : List Char) :
    readDoc (c :: rest) = (readDoc rest).map (c :: ·) := by
  rw [readDoc.eq_def]
  split <;> simp_all

/-- An escaped value reads back up to its closing quote. -/
theorem readQuoted_escaped (text rest : List Char) :
    readQuoted (escaped true text ++ '"' :: rest) = some (text, rest) := by
  induction text with
  | nil => rfl
  | cons c text ih =>
      have split : escaped true (c :: text) = escape true c ++ escaped true text := rfl
      rw [split, List.append_assoc]
      by_cases slash : c = '\\'
      · subst slash
        show (readQuoted (escaped true text ++ '"' :: rest)).map _ = _
        rw [ih]
        rfl
      by_cases line : c = '\n'
      · subst line
        show (readQuoted (escaped true text ++ '"' :: rest)).map _ = _
        rw [ih]
        rfl
      by_cases quote : c = '"'
      · subst quote
        show (readQuoted (escaped true text ++ '"' :: rest)).map _ = _
        rw [ih]
        rfl
      have plain : escape true c = [c] := by simp [escape, slash, line, quote]
      rw [plain, List.singleton_append, readQuoted_plain slash quote, ih]
      rfl

theorem readDoc_escaped (doc : List Char) : readDoc (escaped false doc) = some doc := by
  induction doc with
  | nil => rfl
  | cons c doc ih =>
      have split : escaped false (c :: doc) = escape false c ++ escaped false doc := rfl
      rw [split]
      by_cases slash : c = '\\'
      · subst slash
        show (readDoc (escaped false doc)).map _ = _
        rw [ih]
        rfl
      by_cases line : c = '\n'
      · subst line
        show (readDoc (escaped false doc)).map _ = _
        rw [ih]
        rfl
      have plain : escape false c = [c] := by simp [escape, slash, line]
      rw [plain, List.singleton_append, readDoc_plain slash, ih]
      rfl

/-- A text without the characters that are escaped is written as it is. -/
theorem escaped_of_plain {quoted : Bool} {text : List Char}
    (plain : ∀ c ∈ text, c ≠ '\\' ∧ c ≠ '\n' ∧ c ≠ '"') : escaped quoted text = text := by
  induction text with
  | nil => rfl
  | cons c text ih =>
      obtain ⟨slash, line, quote⟩ := plain c List.mem_cons_self
      have own : escape quoted c = [c] := by simp [escape, slash, line, quote]
      have later := ih fun other member => plain other (List.mem_cons_of_mem c member)
      show escape quoted c ++ escaped quoted text = _
      rw [own, later]
      rfl

theorem newline_notMem_escaped (quoted : Bool) (text : List Char) : '\n' ∉ escaped quoted text := by
  intro member
  obtain ⟨c, -, inside⟩ := List.mem_flatMap.mp member
  unfold escape at inside
  split at inside
  · simp at inside
  · split at inside
    · simp at inside
    next other =>
      split at inside
      · simp at inside
      · exact other (List.mem_singleton.mp inside).symm

/-! ### Numbers -/

inductive Number where
  | finite (value : ℚ)
  | infinite (negative : Bool)
  | notANumber
deriving DecidableEq

def readDigits (text : List Char) : Option ℕ :=
  if text ≠ [] ∧ text.all Char.isDigit then some (Nat.ofDigitChars 10 text 0) else none

def readSign : List Char → Bool × List Char
  | '-' :: rest => (true, rest)
  | '+' :: rest => (false, rest)
  | rest => (false, rest)

def readInteger (text : List Char) : Option ℤ :=
  (readDigits (readSign text).2).map fun value => if (readSign text).1 then -value else value

def readMantissa (text : List Char) : Option ℚ :=
  match text.dropWhile (· ≠ '.') with
  | [] => (readDigits text).map fun value : ℕ => (value : ℚ)
  | _ :: fraction =>
      (readDigits (text.takeWhile (· ≠ '.') ++ fraction)).map fun value : ℕ =>
        (value : ℚ) / 10 ^ fraction.length

def readFinite (text : List Char) : Option ℚ :=
  match text.dropWhile (fun c => c ≠ 'e' ∧ c ≠ 'E') with
  | [] => readMantissa text
  | _ :: exponent => do
      let mantissa ← readMantissa (text.takeWhile fun c => c ≠ 'e' ∧ c ≠ 'E')
      let power ← readInteger exponent
      return mantissa * (10 : ℚ) ^ power

def readNumber (text : List Char) : Option Number :=
  let sign := readSign text
  match readFinite sign.2 with
  | some value => some (.finite (if sign.1 then -value else value))
  | none =>
      let lower := sign.2.map Char.toLower
      if lower = "inf".toList ∨ lower = "infinity".toList then some (.infinite sign.1)
      else if text.map Char.toLower = "nan".toList then some .notANumber
      else none

section

variable {text whole fraction : List Char}

private theorem readSign_of_digit {c : Char} (digit : c.isDigit = true) (rest : List Char) :
    readSign (c :: rest) = (false, c :: rest) := by
  unfold readSign
  split
  next same =>
    injection same with first _
    subst first
    cases digit
  next same =>
    injection same with first _
    subst first
    cases digit
  next => rfl

private theorem dropWhile_of_digits {p : Char → Bool} (digits : ∀ c ∈ text, c.isDigit = true)
    (passes : ∀ c, c.isDigit = true → p c = true) : text.dropWhile p = [] := by
  rw [List.dropWhile_eq_nil_iff]
  intro c member
  exact passes c (digits c member)

theorem digit_ne {c other : Char} (digit : c.isDigit = true) (differs : other.isDigit = false) :
    c ≠ other := by
  rintro rfl
  rw [digit] at differs
  cases differs

private theorem readMantissa_of_digits (nonempty : text ≠ [])
    (digits : ∀ c ∈ text, c.isDigit = true) :
    readMantissa text = some (Nat.ofDigitChars 10 text 0 : ℚ) := by
  have none : text.dropWhile (· ≠ '.') = [] := by
    apply dropWhile_of_digits digits
    intro c digit
    simpa using digit_ne digit (by decide)
  have read : readDigits text = some (Nat.ofDigitChars 10 text 0) :=
    if_pos ⟨nonempty, List.all_eq_true.mpr digits⟩
  unfold readMantissa
  rw [none]
  simp [read]

private theorem readFinite_of_free (free : ∀ c ∈ text, c ≠ 'e' ∧ c ≠ 'E') :
    readFinite text = readMantissa text := by
  have none : text.dropWhile (fun c => c ≠ 'e' ∧ c ≠ 'E') = [] := by
    rw [List.dropWhile_eq_nil_iff]
    intro c member
    simpa using free c member
  unfold readFinite
  rw [none]

private theorem readNumber_of_finite {value : ℚ} {c : Char} {rest : List Char}
    (begins : text = c :: rest) (digit : c.isDigit = true) (finite : readFinite text = some value) :
    readNumber text = some (.finite value) := by
  unfold readNumber
  rw [begins, readSign_of_digit digit, ← begins]
  simp [finite]

/-- A text of digits is the number that they write. -/
theorem readNumber_of_digits (nonempty : text ≠ []) (digits : ∀ c ∈ text, c.isDigit = true) :
    readNumber text = some (.finite (Nat.ofDigitChars 10 text 0 : ℚ)) := by
  obtain ⟨c, rest, begins⟩ := List.exists_cons_of_ne_nil nonempty
  have digit : c.isDigit = true := digits c (begins ▸ List.mem_cons_self)
  apply readNumber_of_finite begins digit
  rw [readFinite_of_free, readMantissa_of_digits nonempty digits]
  intro other member
  exact ⟨digit_ne (digits other member) (by decide), digit_ne (digits other member) (by decide)⟩

theorem readNumber_toDigits (value : ℕ) :
    readNumber (Nat.toDigits 10 value) = some (.finite value) := by
  have nonempty : Nat.toDigits 10 value ≠ [] := by
    intro none
    have positive := Nat.length_toDigits_pos (b := 10) (n := value)
    rw [none] at positive
    cases positive
  have digits : ∀ c ∈ Nat.toDigits 10 value, c.isDigit = true :=
    fun c member => Nat.isDigit_of_mem_toDigits (by decide) (by decide) member
  rw [readNumber_of_digits nonempty digits]
  simp

/-- Digits, a point and digits are a number. -/
theorem readNumber_of_point (nonempty : whole ≠ []) (wholeDigits : ∀ c ∈ whole, c.isDigit = true)
    (digits : ∀ c ∈ fraction, c.isDigit = true) :
    readNumber (whole ++ '.' :: fraction) =
      some (.finite (Nat.ofDigitChars 10 (whole ++ fraction) 0 / 10 ^ fraction.length)) := by
  obtain ⟨c, rest, begins⟩ := List.exists_cons_of_ne_nil nonempty
  have whole' : whole ++ '.' :: fraction = c :: (rest ++ '.' :: fraction) := by rw [begins]; rfl
  apply readNumber_of_finite whole' (wholeDigits c (begins ▸ List.mem_cons_self))
  have passes : ∀ other ∈ whole, (decide (other ≠ '.')) = true := by
    intro other member
    simpa using digit_ne (wholeDigits other member) (by decide)
  have read : readDigits (whole ++ fraction) = some (Nat.ofDigitChars 10 (whole ++ fraction) 0) := by
    refine if_pos ⟨by simp [nonempty], List.all_eq_true.mpr ?_⟩
    intro other member
    rcases List.mem_append.mp member with before | after
    · exact wholeDigits other before
    · exact digits other after
  rw [readFinite_of_free]
  · unfold readMantissa
    rw [List.dropWhile_append_of_pos passes, List.takeWhile_append_of_pos passes]
    have point : ('.' :: fraction).dropWhile (· ≠ '.') = '.' :: fraction := by simp
    have nothing : ('.' :: fraction).takeWhile (· ≠ '.') = [] := by simp
    rw [point, nothing, List.append_nil]
    show (readDigits (whole ++ fraction)).map _ = _
    rw [read]
    rfl
  · intro other member
    rcases List.mem_append.mp member with before | after
    · exact ⟨digit_ne (wholeDigits other before) (by decide),
        digit_ne (wholeDigits other before) (by decide)⟩
    · rcases List.mem_cons.mp after with rfl | behind
      · decide
      · exact ⟨digit_ne (digits other behind) (by decide),
          digit_ne (digits other behind) (by decide)⟩

end

end Ratewall.Foundation.Exposition
