import Mathlib.Data.List.Dedup
import Mathlib.Tactic.Tauto
import Ratewall.Rust.Text

/-! Owns the HTTP messages of the `http` and `axum` crates as the gateway sees
them. Names, values and statuses carry the check that their constructors make.
A header map lists its fields in iteration order; the values of one name stand
together, in the order in which they were appended. -/

namespace Ratewall.Http

open Ratewall.Rust

/-! ### Names, values, statuses -/

def isTokenChar (c : Char) : Bool :=
  c.isAlphanum || "!#$%&'*+-.^_|~".toList.contains c || c.toNat == 0x60

def isToken (text : Text) : Bool := !text.isEmpty && text.all isTokenChar

def isLowercase (text : Text) : Bool := text.all fun c => c.toLower == c

def isFieldByte (byte : UInt8) : Bool := (32 ≤ byte && byte != 127) || byte == 9

structure HeaderName where
  text : Text
  valid : isToken text && isLowercase text
deriving DecidableEq

structure HeaderValue where
  bytes : List UInt8
  valid : bytes.all isFieldByte
deriving DecidableEq

structure StatusCode where
  code : Nat
  valid : 100 ≤ code ∧ code < 1000
deriving DecidableEq

structure Method where
  text : Text
  valid : isToken text
deriving DecidableEq

def charsOf (bytes : List UInt8) : Text := bytes.map fun byte => Char.ofNat byte.toNat

private theorem utf8EncodeChar_of_ascii {c : Char} (low : c.toNat < 128) :
    String.utf8EncodeChar c = [c.val.toUInt8] := by
  apply String.utf8EncodeChar_eq_singleton
  rw [Char.utf8Size_eq_one_iff]
  exact UInt32.le_iff_toNat_le.mpr (Nat.le_of_lt_succ low)

theorem charsOf_asBytes {text : Text} (ascii : ∀ c ∈ text, c.toNat < 128) :
    charsOf (asBytes text) = text := by
  induction text with
  | nil => rfl
  | cons c rest inductionHypothesis =>
      have low := ascii c List.mem_cons_self
      have later := inductionHypothesis fun other member => ascii other (List.mem_cons_of_mem c member)
      have byte : c.val.toUInt8.toNat = c.toNat := by
        rw [UInt32.toNat_toUInt8]
        exact Nat.mod_eq_of_lt (Nat.lt_trans low (by decide))
      have single : charsOf [c.val.toUInt8] = [c] := by
        simp only [charsOf, List.map_cons, List.map_nil, byte, Char.ofNat_toNat]
      unfold charsOf asBytes at later ⊢
      rw [List.flatMap_cons, List.map_append, later, utf8EncodeChar_of_ascii low]
      exact congrArg (· ++ rest) single

private theorem asBytes_charsOf {bytes : List UInt8} (ascii : ∀ byte ∈ bytes, byte.toNat < 128) :
    asBytes (charsOf bytes) = bytes := by
  induction bytes with
  | nil => rfl
  | cons byte rest inductionHypothesis =>
      have low := ascii byte List.mem_cons_self
      have later := inductionHypothesis fun other member =>
        ascii other (List.mem_cons_of_mem byte member)
      have valid : byte.toNat.isValidChar := Or.inl (by omega)
      have code : (Char.ofNat byte.toNat).toNat = byte.toNat := by
        rw [Char.ofNat, dif_pos valid]
        rfl
      have back : (Char.ofNat byte.toNat).val.toUInt8 = byte := by
        apply UInt8.toNat_inj.mp
        rw [UInt32.toNat_toUInt8]
        have value : (Char.ofNat byte.toNat).val.toNat = byte.toNat := code
        rw [value]
        exact Nat.mod_eq_of_lt byte.toNat_lt
      have encoded : String.utf8EncodeChar (Char.ofNat byte.toNat) = [byte] := by
        rw [utf8EncodeChar_of_ascii (by rw [code]; exact low), back]
      unfold charsOf asBytes at later ⊢
      rw [List.map_cons, List.flatMap_cons, later, encoded]
      rfl

private theorem ascii_of_isToken {text : Text} (token : isToken text = true) :
    ∀ c ∈ text, c.toNat < 128 := by
  intro c member
  have listed : ("!#$%&'*+-.^_|~".toList.all fun other => decide (other.toNat < 128)) = true := rfl
  have checked : isTokenChar c = true :=
    List.all_eq_true.mp (Bool.and_eq_true_iff.mp token).2 c member
  delta isTokenChar Char.isAlphanum Char.isAlpha Char.isUpper Char.isLower Char.isDigit at checked
  simp only [Bool.or_eq_true, Bool.and_eq_true, decide_eq_true_eq, List.contains_iff_mem,
    beq_iff_eq, ge_iff_le, UInt32.le_iff_toNat_le] at checked
  have value : c.toNat = c.val.toNat := rfl
  rcases checked with (((upper | lower) | digit) | mark) | grave
  · exact Nat.lt_of_le_of_lt upper.2 (by decide)
  · exact Nat.lt_of_le_of_lt lower.2 (by decide)
  · exact Nat.lt_of_le_of_lt digit.2 (by decide)
  · exact of_decide_eq_true (List.all_eq_true.mp listed c mark)
  · omega

namespace HeaderName

def fromBytes (bytes : List UInt8) : Option HeaderName :=
  let text := (charsOf bytes).map Char.toLower
  if valid : isToken text && isLowercase text then some ⟨text, valid⟩ else none

theorem fromBytes_asBytes (name : HeaderName) : fromBytes (asBytes name.text) = some name := by
  obtain ⟨token, lower⟩ := Bool.and_eq_true_iff.mp name.valid
  have same : name.text.map Char.toLower = name.text := by
    have fixed : ∀ c ∈ name.text, c.toLower = id c := fun c member =>
      beq_iff_eq.mp (List.all_eq_true.mp lower c member)
    rw [List.map_congr_left fixed, List.map_id]
  unfold fromBytes
  simp only [charsOf_asBytes (ascii_of_isToken token), same, name.valid, dite_true]

def authorization : HeaderName := ⟨"authorization".toList, by decide⟩
def connection : HeaderName := ⟨"connection".toList, by decide⟩
def contentType : HeaderName := ⟨"content-type".toList, by decide⟩
def location : HeaderName := ⟨"location".toList, by decide⟩
def retryAfter : HeaderName := ⟨"retry-after".toList, by decide⟩
def trailer : HeaderName := ⟨"trailer".toList, by decide⟩
def wwwAuthenticate : HeaderName := ⟨"www-authenticate".toList, by decide⟩

end HeaderName

namespace HeaderValue

/-- Visible ASCII, blank and tab may stand in a field value. -/
theorem all_isFieldByte {bytes : List UInt8}
    (visible : bytes.all fun byte => (32 ≤ byte && byte < 127) || byte == 9) :
    bytes.all isFieldByte := by
  rw [List.all_eq_true] at visible ⊢
  intro byte member
  have inside := visible byte member
  simp only [Bool.or_eq_true, Bool.and_eq_true, decide_eq_true_eq] at inside
  simp only [isFieldByte, Bool.or_eq_true, Bool.and_eq_true, decide_eq_true_eq, bne_iff_ne]
  rcases inside with ⟨printable, below⟩ | tab
  · refine Or.inl ⟨printable, ?_⟩
    rintro rfl
    exact absurd below (by decide)
  · exact Or.inr tab

private theorem ascii_of_visible {bytes : List UInt8}
    (visible : bytes.all fun byte => (32 ≤ byte && byte < 127) || byte == 9) :
    ∀ byte ∈ bytes, byte.toNat < 128 := by
  intro byte member
  have inside := List.all_eq_true.mp visible byte member
  simp only [Bool.or_eq_true, Bool.and_eq_true, decide_eq_true_eq, beq_iff_eq] at inside
  rcases inside with ⟨-, below⟩ | rfl
  · have bound : byte.toNat < 127 := UInt8.lt_iff_toNat_lt.mp below
    omega
  · decide

def fromBytes (bytes : List UInt8) : Option HeaderValue :=
  if valid : bytes.all isFieldByte then some ⟨bytes, valid⟩ else none

/-- The bytes of a value make that value again. -/
theorem fromBytes_bytes (value : HeaderValue) : fromBytes value.bytes = some value := by
  unfold fromBytes
  rw [dif_pos value.valid]

/-- `HeaderValue::to_str`: only visible ASCII, blanks and tabs are text. -/
def toStr (value : HeaderValue) : Option Text :=
  if value.bytes.all fun byte => (32 ≤ byte && byte < 127) || byte == 9 then
    some (charsOf value.bytes)
  else none

/-- `HeaderValue::from_str`, which accepts the same characters. -/
def fromStr (text : Text) : Option HeaderValue :=
  if visible : (asBytes text).all fun byte => (32 ≤ byte && byte < 127) || byte == 9 then
    some ⟨asBytes text, all_isFieldByte visible⟩
  else none

/-- A value made of text reads as that text. -/
theorem toStr_of_fromStr {text : Text} {value : HeaderValue} (made : fromStr text = some value) :
    value.toStr = some text := by
  unfold fromStr at made
  split at made
  next visible =>
    cases made
    unfold toStr
    rw [if_pos visible]
    have again : asBytes (charsOf (asBytes text)) = asBytes text :=
      asBytes_charsOf (ascii_of_visible visible)
    rw [asBytes_injective again]
  next => cases made

theorem fromStr_of_toStr {text : Text} {value : HeaderValue} (read : value.toStr = some text) :
    fromStr text = some value := by
  unfold toStr at read
  split at read
  next visible =>
    cases read
    have same : asBytes (charsOf value.bytes) = value.bytes :=
      asBytes_charsOf (ascii_of_visible visible)
    unfold fromStr
    simp only [same, visible, dite_true]
  next => cases read

/-- The value that a number's decimal form makes. -/
def ofNumber (value : Nat) : HeaderValue where
  bytes := asBytes (decimal value)
  valid := by
    apply List.all_eq_true.mpr
    intro byte member
    have digit := decimal_bytes member
    have printable : 32 ≤ byte := UInt8.le_trans (by decide) digit.1
    have notDelete : byte ≠ 127 := by
      intro same
      rw [same] at digit
      exact absurd digit.2 (by decide)
    simp [isFieldByte, printable, notDelete]

def plainText : HeaderValue := ⟨asBytes "text/plain; charset=utf-8".toList, by decide⟩
def applicationJson : HeaderValue := ⟨asBytes "application/json".toList, by decide⟩
def bearer : HeaderValue := ⟨asBytes "Bearer".toList, by decide⟩

end HeaderValue

namespace StatusCode

def fromU16 (code : Nat) : Option StatusCode :=
  if valid : 100 ≤ code ∧ code < 1000 then some ⟨code, valid⟩ else none

def ok : StatusCode := ⟨200, by decide⟩
def badRequest : StatusCode := ⟨400, by decide⟩
def unauthorized : StatusCode := ⟨401, by decide⟩
def notFound : StatusCode := ⟨404, by decide⟩
def tooManyRequests : StatusCode := ⟨429, by decide⟩
def internalServerError : StatusCode := ⟨500, by decide⟩
def badGateway : StatusCode := ⟨502, by decide⟩
def serviceUnavailable : StatusCode := ⟨503, by decide⟩

theorem fromU16_code (status : StatusCode) : fromU16 status.code = some status := by
  unfold fromU16
  rw [dif_pos status.valid]

end StatusCode

namespace Method

def fromBytes (bytes : List UInt8) : Option Method :=
  let text := charsOf bytes
  if valid : isToken text then some ⟨text, valid⟩ else none

theorem fromBytes_asBytes (method : Method) :
    fromBytes (asBytes method.text) = some method := by
  unfold fromBytes
  simp only [charsOf_asBytes (ascii_of_isToken method.valid), method.valid, dite_true]

def get : Method := ⟨"GET".toList, by decide⟩
def head : Method := ⟨"HEAD".toList, by decide⟩
def post : Method := ⟨"POST".toList, by decide⟩

end Method

/-! ### Header maps -/

abbrev Field := HeaderName × HeaderValue

def Grouped : List Field → Prop
  | [] => True
  | field :: rest =>
      (field.1 ∈ rest.map Prod.fst → rest.head?.map Prod.fst = some field.1) ∧ Grouped rest

/-- Behind the last value of its name, or else at the end. -/
def appendField (field : Field) : List Field → List Field
  | [] => [field]
  | first :: rest =>
      if first.1 = field.1 ∧ field.1 ∉ rest.map Prod.fst then first :: field :: rest
      else first :: appendField field rest

private theorem mem_appendField {field other : Field} {fields : List Field} :
    other ∈ appendField field fields ↔ other = field ∨ other ∈ fields := by
  induction fields with
  | nil => simp [appendField]
  | cons first rest inductionHypothesis =>
      unfold appendField
      split
      next => simp only [List.mem_cons]; tauto
      next => simp only [List.mem_cons, inductionHypothesis]; tauto

private theorem head?_appendField {field first : Field} {rest : List Field} :
    (appendField field (first :: rest)).head? = some first := by
  unfold appendField
  split <;> rfl

private theorem grouped_appendField (field : Field) {fields : List Field}
    (grouped : Grouped fields) :
    Grouped (appendField field fields) := by
  induction fields with
  | nil => exact ⟨fun member => absurd member (by simp), trivial⟩
  | cons first rest inductionHypothesis =>
      obtain ⟨next, groupedRest⟩ := grouped
      unfold appendField
      split
      next last =>
        refine ⟨fun _ => congrArg some last.1.symm, fun member => absurd member last.2, groupedRest⟩
      next notLast =>
        refine ⟨?_, inductionHypothesis groupedRest⟩
        intro member
        obtain ⟨other, inside, same⟩ := List.mem_map.mp member
        have later : first.1 ∈ rest.map Prod.fst := by
          rcases mem_appendField.mp inside with rfl | old
          · by_contra absent
            exact notLast ⟨same.symm, same ▸ absent⟩
          · exact same ▸ List.mem_map_of_mem old
        have head := next later
        cases rest with
        | nil => cases head
        | cons second others =>
            rw [head?_appendField]
            exact head

private theorem perm_appendField (field : Field) (fields : List Field) :
    (appendField field fields).Perm (field :: fields) := by
  induction fields with
  | nil => exact List.Perm.refl _
  | cons first rest inductionHypothesis =>
      unfold appendField
      split
      next => exact List.Perm.swap field first rest
      next => exact (inductionHypothesis.cons first).trans (List.Perm.swap field first rest)

/-- An appended field is the last of its name, and nothing changes for other names. -/
theorem filter_appendField (field : Field) (fields : List Field) (name : HeaderName) :
    (appendField field fields).filter (fun other => other.1 = name) =
      fields.filter (fun other => other.1 = name) ++ [field].filter fun other => other.1 = name := by
  induction fields with
  | nil => rfl
  | cons first rest inductionHypothesis =>
      unfold appendField
      split
      next last =>
        by_cases named : field.1 = name
        · have none : rest.filter (fun other => other.1 = name) = [] := by
            rw [List.filter_eq_nil_iff]
            intro other inside same
            apply last.2
            rw [named, ← of_decide_eq_true same]
            exact List.mem_map_of_mem inside
          simp [named, last.1, none]
        · simp [named, last.1]
      next =>
        rw [List.filter_cons, List.filter_cons, inductionHypothesis]
        split
        next => rfl
        next => rfl

theorem length_appendField (field : Field) (fields : List Field) :
    (appendField field fields).length = fields.length + 1 := by
  induction fields with
  | nil => rfl
  | cons first rest inductionHypothesis =>
      unfold appendField
      split
      next => rfl
      next => rw [List.length_cons, inductionHypothesis, List.length_cons]

/-- Between two fields of one name there is no field of another. -/
theorem grouped_iff_sublist {fields : List Field} :
    Grouped fields ↔ ∀ first between last : Field, [first, between, last].Sublist fields →
      first.1 = last.1 → between.1 = first.1 := by
  induction fields with
  | nil => simp [Grouped]
  | cons field rest inductionHypothesis =>
      constructor
      · rintro ⟨next, groupedRest⟩ first between last inside same
        have apart := inductionHypothesis.mp groupedRest
        cases inside with
        | cons _ deeper => exact apart first between last deeper same
        | cons_cons _ deeper =>
            have later : field.1 ∈ rest.map Prod.fst := by
              rw [same]
              exact List.mem_map_of_mem (deeper.subset (by simp))
            cases rest with
            | nil => cases later
            | cons second others =>
                have head : second.1 = field.1 := Option.some.inj (next later)
                cases deeper with
                | cons _ deepest =>
                    rw [← head]
                    exact apart second between last (deepest.cons_cons second) (head.trans same)
                | cons_cons _ _ => exact head
      · intro apart
        refine ⟨?_, inductionHypothesis.mpr fun first between last inside =>
          apart first between last (inside.cons field)⟩
        intro later
        obtain ⟨last, inside, same⟩ := List.mem_map.mp later
        cases rest with
        | nil => cases inside
        | cons second others =>
            rcases List.mem_cons.mp inside with rfl | deeper
            · exact congrArg some same
            · have tail := (List.singleton_sublist.mpr deeper).cons_cons second
              exact congrArg some (apart field second last (tail.cons_cons field) same.symm)

private theorem Grouped.sublist {fields kept : List Field} (grouped : Grouped fields)
    (inside : kept.Sublist fields) : Grouped kept :=
  grouped_iff_sublist.mpr fun first between last found =>
    grouped_iff_sublist.mp grouped first between last (found.trans inside)

/-- Fields that arrive in the order of a map keep that order. -/
theorem appendField_eq_concat {field : Field} {fields : List Field}
    (grouped : Grouped (fields ++ [field])) : appendField field fields = fields ++ [field] := by
  induction fields with
  | nil => rfl
  | cons first rest inductionHypothesis =>
      obtain ⟨next, groupedRest⟩ := grouped
      unfold appendField
      rw [inductionHypothesis groupedRest, List.cons_append]
      split
      next last =>
        -- the last value of its name stands at the end, so nothing follows it
        have head := next (by simp [last.1])
        cases rest with
        | nil => rfl
        | cons second others =>
            have same : second.1 = field.1 := (Option.some.inj head).trans last.1
            exact absurd (by simp [same]) last.2
      next => rfl

/-- In place of all values of its name, or else at the end. -/
def insertField (field : Field) : List Field → List Field
  | [] => [field]
  | first :: rest =>
      if first.1 = field.1 then field :: rest.filter fun other => other.1 ≠ field.1
      else first :: insertField field rest

private theorem mem_insertField {field other : Field} {fields : List Field}
    (member : other ∈ insertField field fields) : other = field ∨ other ∈ fields := by
  induction fields with
  | nil => exact Or.inl (List.mem_singleton.mp member)
  | cons first rest inductionHypothesis =>
      unfold insertField at member
      split at member
      next =>
        rcases List.mem_cons.mp member with same | kept
        · exact Or.inl same
        · exact Or.inr (List.mem_cons_of_mem _ (List.mem_filter.mp kept).1)
      next =>
        rcases List.mem_cons.mp member with same | later
        · exact Or.inr (same ▸ List.mem_cons_self)
        · rcases inductionHypothesis later with same | old
          · exact Or.inl same
          · exact Or.inr (List.mem_cons_of_mem _ old)

/-- Afterwards there is one value of the name. -/
theorem filter_insertField (field : Field) (fields : List Field) :
    (insertField field fields).filter (fun other => other.1 = field.1) = [field] := by
  induction fields with
  | nil => simp [insertField]
  | cons first rest inductionHypothesis =>
      unfold insertField
      split
      next =>
        rw [List.filter_cons_of_pos (by simp), List.filter_filter]
        simp
      next differs => rw [List.filter_cons_of_neg (by simpa using differs), inductionHypothesis]

private theorem grouped_insertField (field : Field) {fields : List Field}
    (grouped : Grouped fields) :
    Grouped (insertField field fields) := by
  induction fields with
  | nil => exact ⟨fun member => absurd member (by simp), trivial⟩
  | cons first rest inductionHypothesis =>
      obtain ⟨next, groupedRest⟩ := grouped
      unfold insertField
      split
      next =>
        refine ⟨?_, groupedRest.sublist List.filter_sublist⟩
        intro member
        obtain ⟨other, inside, same⟩ := List.mem_map.mp member
        exact absurd same (of_decide_eq_true (List.mem_filter.mp inside).2)
      next differs =>
        refine ⟨?_, inductionHypothesis groupedRest⟩
        intro member
        obtain ⟨other, inside, same⟩ := List.mem_map.mp member
        have later : first.1 ∈ rest.map Prod.fst := by
          rcases mem_insertField inside with rfl | old
          · exact absurd same.symm differs
          · exact same ▸ List.mem_map_of_mem old
        have head := next later
        cases rest with
        | nil => cases head
        | cons second others =>
            have sameName : second.1 = first.1 := Option.some.inj head
            rw [insertField, if_neg (sameName ▸ differs)]
            exact head

structure HeaderMap where
  fields : List Field
  grouped : Grouped fields

namespace HeaderMap

def empty : HeaderMap := ⟨[], trivial⟩

def append (map : HeaderMap) (field : Field) : HeaderMap :=
  ⟨appendField field map.fields, grouped_appendField field map.grouped⟩

/-- The most names that a map of the `http` crate can hold. -/
def maxNames : Nat := 24576

def tryAppend (map : HeaderMap) (field : Field) : Option HeaderMap :=
  if (map.fields.map Prod.fst).dedup.length = maxNames then none else some (map.append field)

/-- The first value of a name. -/
def get (map : HeaderMap) (name : HeaderName) : Option HeaderValue :=
  (map.fields.find? fun field => field.1 = name).map Prod.snd

theorem tryAppend_eq_some {map : HeaderMap} (field : Field)
    (room : map.fields.length < maxNames) : map.tryAppend field = some (map.append field) := by
  have names : (map.fields.map Prod.fst).dedup.length ≤ map.fields.length := by
    calc (map.fields.map Prod.fst).dedup.length
        ≤ (map.fields.map Prod.fst).length := (List.dedup_sublist _).length_le
      _ = map.fields.length := List.length_map _
  unfold tryAppend
  rw [if_neg]
  omega

/-- Appending some fields of a map one after the other, in its order, makes the map
of these fields. -/
theorem foldl_append_fields {keep : Field → Bool} {fields : List Field} {map : HeaderMap}
    (grouped : Grouped (map.fields ++ fields.filter keep)) :
    (fields.foldl (fun out field => if keep field then out.append field else out) map).fields =
      map.fields ++ fields.filter keep := by
  induction fields generalizing map with
  | nil => simp
  | cons field rest inductionHypothesis =>
      rw [List.foldl_cons]
      by_cases kept : keep field = true
      · rw [List.filter_cons_of_pos kept, List.append_cons] at grouped ⊢
        have appended : (map.append field).fields = map.fields ++ [field] :=
          appendField_eq_concat (grouped.sublist (List.sublist_append_left _ _))
        rw [if_pos kept, ← appended]
        exact inductionHypothesis (appended ▸ grouped)
      · rw [List.filter_cons_of_neg kept] at grouped ⊢
        rw [if_neg kept]
        exact inductionHypothesis grouped

/-- Copying the fields that pass a test keeps those fields in order. -/
theorem fields_foldl_append (keep : Field → Bool) (map : HeaderMap) :
    (map.fields.foldl (fun out field => if keep field then out.append field else out) empty).fields =
      map.fields.filter keep :=
  foldl_append_fields (map.grouped.sublist List.filter_sublist)

/-- Whatever the map held before, the appended fields join it. -/
theorem perm_foldl_append (keep : Field → Bool) (fields : List Field) (map : HeaderMap) :
    (fields.foldl (fun out field => if keep field then out.append field else out) map).fields.Perm
      (map.fields ++ fields.filter keep) := by
  induction fields generalizing map with
  | nil => simp
  | cons field rest inductionHypothesis =>
      rw [List.foldl_cons]
      cases kept : keep field with
      | false =>
          rw [List.filter_cons_of_neg (by simp [kept]), if_neg (by simp)]
          exact inductionHypothesis map
      | true =>
          rw [List.filter_cons_of_pos kept, if_pos rfl]
          have moved : ((map.append field).fields ++ rest.filter keep).Perm
              (field :: map.fields ++ rest.filter keep) :=
            (perm_appendField field map.fields).append_right _
          exact ((inductionHypothesis (map.append field)).trans moved).trans List.perm_middle.symm

/-- The values of a name, in order: `get_all`. -/
def getAll (map : HeaderMap) (name : HeaderName) : List HeaderValue :=
  (map.fields.filter fun field => field.1 = name).map Prod.snd

private theorem getAll_append (map : HeaderMap) (field : Field) (name : HeaderName) :
    (map.append field).getAll name =
      map.getAll name ++ ([field].filter fun other => other.1 = name).map Prod.snd := by
  unfold getAll
  rw [← List.map_append]
  exact congrArg _ (filter_appendField field map.fields name)

/-- Copied fields come after those that the map had. -/
theorem getAll_foldl_append (keep : Field → Bool) (fields : List Field) (map : HeaderMap)
    (name : HeaderName) :
    (fields.foldl (fun out field => if keep field then out.append field else out) map).getAll name =
      map.getAll name ++
        ((fields.filter keep).filter fun field => field.1 = name).map Prod.snd := by
  induction fields generalizing map with
  | nil => simp
  | cons field rest inductionHypothesis =>
      rw [List.foldl_cons]
      cases kept : keep field with
      | false =>
          rw [List.filter_cons_of_neg (by simp [kept]), if_neg (by simp)]
          exact inductionHypothesis map
      | true =>
          have split : field :: rest.filter keep = [field] ++ rest.filter keep := rfl
          rw [List.filter_cons_of_pos kept, if_pos rfl, inductionHypothesis, getAll_append, split,
            List.filter_append, List.map_append, List.append_assoc]

/-- `HeaderMap::insert`. -/
def insert (map : HeaderMap) (field : Field) : HeaderMap :=
  ⟨insertField field map.fields, grouped_insertField field map.grouped⟩

theorem getAll_insert (map : HeaderMap) (field : Field) :
    (map.insert field).getAll field.1 = [field.2] := by
  unfold getAll
  show ((insertField field map.fields).filter _).map Prod.snd = [field.2]
  rw [filter_insertField]
  rfl

theorem get_eq_head?_getAll (map : HeaderMap) (name : HeaderName) :
    map.get name = (map.getAll name).head? := by
  simp [get, getAll, List.head?_filter]

end HeaderMap

/-! ### Requests and responses -/

/-- A request body as it arrives: frames, and the error that breaks it off. -/
structure Body where
  frames : List (List UInt8)
  failure : Option Text

/-- `axum::body::to_bytes`. -/
def Body.toBytes (body : Body) (limit : Nat) : Except Text (List UInt8) :=
  if limit < body.frames.flatten.length then .error "length limit exceeded".toList
  else
    match body.failure with
    | some err => .error err
    | none => .ok body.frames.flatten

structure Request where
  method : Method
  path : Text
  query : Option Text
  headers : HeaderMap
  body : Body

structure Response where
  status : StatusCode
  headers : HeaderMap
  body : List UInt8

/-- `(status, Json(value)).into_response()`, from the bytes of the value. -/
def jsonResponse (status : StatusCode) (bytes : List UInt8) : Response where
  status := status
  headers := HeaderMap.empty.append (HeaderName.contentType, HeaderValue.applicationJson)
  body := bytes

/-- `(status, headers, text).into_response()`. The gateway adds only names that
the text itself does not set, where `insert` and `append` agree. -/
def intoResponse (status : StatusCode) (fields : List Field) (text : Text) : Response where
  status := status
  headers := fields.foldl HeaderMap.append (HeaderMap.empty.append
    (HeaderName.contentType, HeaderValue.plainText))
  body := asBytes text

end Ratewall.Http
