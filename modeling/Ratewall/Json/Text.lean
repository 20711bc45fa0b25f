import Mathlib.Tactic.Tauto
import Ratewall.Json.Value

/-! Owns the text of flat JSON objects: objects whose members are strings and
unsigned numbers, written the compact way, with the escapes of `serde_json`. The
reader accepts exactly this shape, with any spelling of an escape in the basic
plane, and inverts the writer. It does not own nested values. -/

namespace Ratewall.Json.Text

open Ratewall.Rust

def hexLetter (digit : Fin 16) : Char :=
  if digit.val < 10 then Char.ofNat (48 + digit.val) else Char.ofNat (87 + digit.val)

def hexDigit? (c : Char) : Option Nat :=
  let n := c.toNat
  if 48 ≤ n ∧ n ≤ 57 then some (n - 48)
  else if 97 ≤ n ∧ n ≤ 102 then some (n - 87)
  else if 65 ≤ n ∧ n ≤ 70 then some (n - 55)
  else none

def shortEscapes : List (Char × Char) :=
  [('"', '"'), ('\\', '\\'), ('\x08', 'b'), ('\x0c', 'f'), ('\n', 'n'), ('\r', 'r'), ('\t', 't')]

def escapeChar (c : Char) : Text :=
  match shortEscapes.lookup c with
  | some letter => ['\\', letter]
  | none =>
      if c.toNat < 0x20 then
        ['\\', 'u', '0', '0', hexLetter (Fin.ofNat 16 (c.toNat / 16)),
          hexLetter (Fin.ofNat 16 c.toNat)]
      else [c]

def unescapeShort (letter : Char) : Option Char :=
  if letter = '/' then some '/'
  else (shortEscapes.find? fun entry => entry.2 = letter).map Prod.fst

def unescapeUnit (a b c d : Char) : Option Char := do
  let unit := 4096 * (← hexDigit? a) + 256 * (← hexDigit? b) + 16 * (← hexDigit? c) + (← hexDigit? d)
  if unit.isValidChar then some (Char.ofNat unit) else none

/-- The rest of a string literal, up to its closing quote. -/
def readString : Text → Option (Text × Text)
  | [] => none
  | c :: rest =>
      if c = '"' then some ([], rest)
      else if c = '\\' then
        match rest with
        | 'u' :: a :: b :: c :: d :: rest =>
            (unescapeUnit a b c d).bind fun char =>
              (readString rest).map fun read => (char :: read.1, read.2)
        | letter :: rest =>
            (unescapeShort letter).bind fun char =>
              (readString rest).map fun read => (char :: read.1, read.2)
        | [] => none
      else if c.toNat < 0x20 then none
      else (readString rest).map fun read => (c :: read.1, read.2)

def writeString (value : Text) : Text := '"' :: value.flatMap escapeChar ++ ['"']

private theorem unescapeUnit_control {c : Char} (control : c.toNat < 0x20) :
    unescapeUnit '0' '0' (hexLetter (Fin.ofNat 16 (c.toNat / 16)))
      (hexLetter (Fin.ofNat 16 c.toNat)) = some c := by
  have all : ∀ n ∈ List.range 0x20, unescapeUnit '0' '0' (hexLetter (Fin.ofNat 16 (n / 16)))
      (hexLetter (Fin.ofNat 16 n)) = some (Char.ofNat n) := by decide
  have unit := all c.toNat (List.mem_range.mpr control)
  rw [Char.ofNat_toNat] at unit
  exact unit

private theorem readString_short {letter c : Char} (tail : Text) (notUnit : letter ≠ 'u')
    (short : unescapeShort letter = some c) :
    readString ('\\' :: letter :: tail) =
      (readString tail).map fun read => (c :: read.1, read.2) := by
  rw [readString]
  simp only [Char.reduceEq, if_false, if_true, short, Option.bind_some]
  intro _ _ _ _ _ same
  exact absurd same notUnit

private theorem readString_escapeChar (c : Char) (tail : Text) :
    readString (escapeChar c ++ tail) = (readString tail).map fun read => (c :: read.1, read.2) := by
  unfold escapeChar
  cases short : shortEscapes.lookup c with
  | some letter =>
      have inverse : ∀ entry ∈ shortEscapes, entry.2 ≠ 'u' ∧ unescapeShort entry.2 = some entry.1 := by
        decide
      have entry := inverse (c, letter) (List.lookup_eq_some_iff.mp short |> fun h => by
        obtain ⟨before, after, same, -⟩ := h
        rw [same]
        simp)
      exact readString_short tail entry.1 entry.2
  | none =>
      have absent : ∀ entry ∈ shortEscapes, c ≠ entry.1 := by
        simpa [List.lookup_eq_none_iff] using short
      have notQuote : c ≠ '"' := absent ('"', '"') (by decide)
      have notSlash : c ≠ '\\' := absent ('\\', '\\') (by decide)
      by_cases control : c.toNat < 0x20
      · simp only [control, if_true]
        have unit := unescapeUnit_control control
        show readString ('\\' :: 'u' :: '0' :: '0' :: _ :: _ :: tail) = _
        rw [readString]
        simp only [Char.reduceEq, if_false, if_true, unit]
        rfl
      · simp only [control, if_false]
        show readString (c :: tail) = _
        rw [readString.eq_def]
        simp only [notQuote, notSlash, control, if_false]

private theorem readString_writeString (value tail : Text) :
    readString (value.flatMap escapeChar ++ '"' :: tail) = some (value, tail) := by
  induction value with
  | nil =>
      show readString ('"' :: tail) = some ([], tail)
      rw [readString.eq_def]
      rfl
  | cons c rest inductionHypothesis =>
      rw [List.flatMap_cons, List.append_assoc, readString_escapeChar, inductionHypothesis]
      rfl

/-! ### Members -/

def writeScalar : Value → Text
  | .string value => writeString value
  | .number (.posInt value) => decimal value.toNat
  | _ => "null".toList

def readNumber (text : Text) : Option (UInt64 × Text) :=
  let digits := text.takeWhile Char.isDigit
  let value := Nat.ofDigitChars 10 digits 0
  if digits = [] ∨ UInt64.size ≤ value then none
  else some (UInt64.ofNat value, text.dropWhile Char.isDigit)

def readScalar : Text → Option (Value × Text)
  | '"' :: rest => (readString rest).map fun read => (.string read.1, read.2)
  | text => (readNumber text).map fun read => (.u64 read.1, read.2)

def writeMember (member : Text × Value) : Text :=
  writeString member.1 ++ ':' :: writeScalar member.2

def writeMembers : List (Text × Value) → Text
  | [] => []
  | [member] => writeMember member
  | member :: rest => writeMember member ++ ',' :: writeMembers rest

/-- One member, and what follows it: a comma or the end of the object. -/
def readMember (text : Text) : Option ((Text × Value) × Text) := do
  let '"' :: rest := text | none
  let (key, rest) ← readString rest
  let ':' :: rest := rest | none
  let (value, rest) ← readScalar rest
  some ((key, value), rest)

def readMembers : Nat → Text → Option (List (Text × Value))
  | 0, _ => none
  | fuel + 1, text => do
      let (member, rest) ← readMember text
      match rest with
      | ['\x7d'] => some [member]
      | ',' :: rest => (readMembers fuel rest).map (member :: ·)
      | _ => none

def write : Value → Text
  | .object members => '\x7b' :: writeMembers members ++ ['\x7d']
  | value => writeScalar value

def read (text : Text) : Option Value :=
  match text with
  | ['\x7b', '\x7d'] => some (.object [])
  | '\x7b' :: rest => (readMembers rest.length rest).map .json
  | _ => none

private theorem readNumber_decimal (value : UInt64) {c : Char} (tail : Text)
    (ends : c.isDigit = false) :
    readNumber (decimal value.toNat ++ c :: tail) = some (value, c :: tail) := by
  have digits : ∀ d ∈ decimal value.toNat, d.isDigit = true := by
    intro d member
    exact Nat.isDigit_of_mem_toDigits (by decide) (by decide) member
  have taken : (decimal value.toNat ++ c :: tail).takeWhile Char.isDigit = decimal value.toNat := by
    rw [List.takeWhile_append_of_pos digits]
    simp [ends]
  have dropped : (decimal value.toNat ++ c :: tail).dropWhile Char.isDigit = c :: tail := by
    rw [List.dropWhile_append_of_pos digits]
    simp [ends]
  have number : Nat.ofDigitChars 10 (decimal value.toNat) 0 = value.toNat :=
    Nat.ofDigitChars_ten_toDigits
  have filled : decimal value.toNat ≠ [] := Nat.toDigits_ne_nil
  have small : ¬ UInt64.size ≤ value.toNat := Nat.not_le.mpr value.toNat_lt
  unfold readNumber
  simp only [taken, dropped, number, filled, small, or_self, if_false, UInt64.ofNat_toNat]

private theorem readScalar_writeScalar {value : Value} (scalar : value.Scalar) {c : Char}
    (tail : Text) (ends : c.isDigit = false) :
    readScalar (writeScalar value ++ c :: tail) = some (value, c :: tail) := by
  match value, scalar with
  | .string text, _ =>
      have shape : writeScalar (.string text) ++ c :: tail =
          '"' :: (text.flatMap escapeChar ++ '"' :: c :: tail) := by
        simp [writeScalar, writeString]
      rw [shape, readScalar, readString_writeString]
      rfl
  | .number (.posInt number), _ =>
      have notQuote : ∀ rest, decimal number.toNat ++ c :: tail ≠ '"' :: rest := by
        intro rest same
        cases first : decimal number.toNat with
        | nil => exact absurd first Nat.toDigits_ne_nil
        | cons d more =>
            have digit : d.isDigit = true :=
              Nat.isDigit_of_mem_toDigits (by decide) (by decide) (first ▸ List.mem_cons_self)
            rw [first] at same
            rw [(List.cons.inj same).1] at digit
            cases digit
      show readScalar (decimal number.toNat ++ c :: tail) = _
      rw [readScalar, readNumber_decimal number tail ends]
      · rfl
      · exact notQuote

private theorem readMember_writeMember {member : Text × Value} (scalar : member.2.Scalar) {c : Char}
    (tail : Text) (ends : c.isDigit = false) :
    readMember (writeMember member ++ c :: tail) = some (member, c :: tail) := by
  have shape : writeMember member ++ c :: tail =
      '"' :: (member.1.flatMap escapeChar ++ '"' :: ':' :: (writeScalar member.2 ++ c :: tail)) := by
    simp [writeMember, writeString]
  rw [shape]
  simp only [readMember, readString_writeString, Option.bind_eq_bind, Option.bind_some,
    readScalar_writeScalar scalar tail ends]

private theorem readMembers_writeMembers {members : List (Text × Value)} (filled : members ≠ [])
    (scalar : ∀ member ∈ members, member.2.Scalar) {fuel : Nat} (enough : members.length ≤ fuel) :
    readMembers fuel (writeMembers members ++ ['\x7d']) = some members := by
  induction members generalizing fuel with
  | nil => exact absurd rfl filled
  | cons member rest inductionHypothesis =>
      obtain ⟨more, rfl⟩ : ∃ more, fuel = more + 1 := ⟨fuel - 1, by simp at enough; omega⟩
      have first := scalar member List.mem_cons_self
      cases rest with
      | nil =>
          rw [writeMembers, readMembers, readMember_writeMember first [] (by decide)]
          rfl
      | cons second others =>
          have later := @inductionHypothesis (by simp)
            (fun member inside => scalar member (List.mem_cons_of_mem _ inside)) more
            (by simp at enough ⊢; omega)
          rw [writeMembers, List.append_assoc, List.cons_append, readMembers,
            readMember_writeMember first _ (by decide)]
          simp only [Option.bind_eq_bind, Option.bind_some, later, Option.map_some]
          simp

private theorem length_le_writeMembers (members : List (Text × Value)) :
    members.length ≤ (writeMembers members).length := by
  induction members using writeMembers.induct with
  | case1 => exact le_rfl
  | case2 member => simp [writeMembers, writeMember, writeString]
  | case3 member rest _ inductionHypothesis =>
      rw [writeMembers]
      · simp [writeMember, writeString]
        omega
      · assumption

private theorem read_write {members : List (Text × Value)} (flat : Flat members) :
    read (write (.object members)) = some (.object members) := by
  cases members with
  | nil => rfl
  | cons member rest =>
      have members := @readMembers_writeMembers (member :: rest) (by simp) flat.scalar
        (writeMembers (member :: rest) ++ ['\x7d']).length (by
          have := length_le_writeMembers (member :: rest)
          simp at this ⊢
          omega)
      have notEmpty : writeMembers (member :: rest) ++ ['\x7d'] ≠ ['\x7d'] := by
        intro empty
        have length := congrArg List.length empty
        have := length_le_writeMembers (member :: rest)
        simp at length this
        simp [length] at this
      show read ('\x7b' :: (writeMembers (member :: rest) ++ ['\x7d'])) = _
      rw [read]
      · rw [members]
        exact congrArg some (congrArg Value.object (Value.collect_of_ordered flat.ordered))
      · exact notEmpty

/-- The codec of flat objects. -/
def flatCodec : Codec where
  toVec value := asBytes (write value)
  fromSlice bytes :=
    match (fromUtf8 bytes).bind read with
    | some value => .ok value
    | none => .error "expected a flat object".toList
  fromSlice_nil := by
    intro value parsed
    have empty : fromUtf8 [] = some [] := fromUtf8_asBytes []
    rw [empty] at parsed
    cases parsed
  fromSlice_toVec := by
    intro members flat
    simp only [fromUtf8_asBytes, Option.bind_some, read_write flat]

end Ratewall.Json.Text
