import Mathlib.Data.List.Basic

/-! Owns base64 with the URL-safe alphabet and without padding. Decoding is
strict: padding, characters outside the alphabet, a lone last digit and nonzero
bits behind the last byte are refused. Results: decoding inverts encoding, and
the encoded text never holds a character outside the alphabet. The standard
alphabet with padding is there for encoding only. -/

namespace Ratewall.Foundation.Base64Url

abbrev Digit := Fin 64

def letter (digit : Digit) : Char :=
  let n := digit.val
  if n < 26 then Char.ofNat (65 + n)
  else if n < 52 then Char.ofNat (97 + (n - 26))
  else if n < 62 then Char.ofNat (48 + (n - 52))
  else if n = 62 then '-'
  else '_'

def digit? (c : Char) : Option Digit :=
  let n := c.toNat
  if 65 ≤ n ∧ n ≤ 90 then some (Fin.ofNat 64 (n - 65))
  else if 97 ≤ n ∧ n ≤ 122 then some (Fin.ofNat 64 (n - 97 + 26))
  else if 48 ≤ n ∧ n ≤ 57 then some (Fin.ofNat 64 (n - 48 + 52))
  else if n = 45 then some 62
  else if n = 95 then some 63
  else none

def encodeBytes : List UInt8 → List Digit
  | [] => []
  | [a] => [Fin.ofNat 64 (a.toNat / 4), Fin.ofNat 64 (a.toNat % 4 * 16)]
  | [a, b] =>
      [Fin.ofNat 64 (a.toNat / 4), Fin.ofNat 64 (a.toNat % 4 * 16 + b.toNat / 16),
        Fin.ofNat 64 (b.toNat % 16 * 4)]
  | a :: b :: c :: rest =>
      Fin.ofNat 64 (a.toNat / 4) :: Fin.ofNat 64 (a.toNat % 4 * 16 + b.toNat / 16) ::
        Fin.ofNat 64 (b.toNat % 16 * 4 + c.toNat / 64) :: Fin.ofNat 64 (c.toNat % 64) ::
          encodeBytes rest

def decodeDigits : List Digit → Option (List UInt8)
  | [] => some []
  | [_] => none
  | [p, q] =>
      if q.val % 16 = 0 then some [UInt8.ofNat (p.val * 4 + q.val / 16)] else none
  | [p, q, r] =>
      if r.val % 4 = 0 then
        some [UInt8.ofNat (p.val * 4 + q.val / 16), UInt8.ofNat (q.val % 16 * 16 + r.val / 4)]
      else none
  | p :: q :: r :: s :: rest =>
      (decodeDigits rest).map fun bytes =>
        UInt8.ofNat (p.val * 4 + q.val / 16) :: UInt8.ofNat (q.val % 16 * 16 + r.val / 4) ::
          UInt8.ofNat (r.val % 4 * 64 + s.val) :: bytes

def encode (bytes : List UInt8) : List Char :=
  (encodeBytes bytes).map letter

def decode (text : List Char) : Option (List UInt8) :=
  (text.mapM digit?).bind decodeDigits

/-- The standard alphabet has other letters for the last two digits. -/
def standardLetter (digit : Digit) : Char :=
  if digit.val = 62 then '+' else if digit.val = 63 then '/' else letter digit

/-- The standard form fills up the last group of four. -/
def encodeStandard (bytes : List UInt8) : List Char :=
  (encodeBytes bytes).map standardLetter ++ List.replicate ((3 - bytes.length % 3) % 3) '='

theorem digit?_letter (digit : Digit) : digit? (letter digit) = some digit := by
  revert digit
  decide

private theorem ofNat_eq_byte {n : Nat} {byte : UInt8} (same : n = byte.toNat) :
    UInt8.ofNat n = byte := by
  rw [same, UInt8.ofNat_toNat]

theorem decodeDigits_encodeBytes (bytes : List UInt8) :
    decodeDigits (encodeBytes bytes) = some bytes := by
  induction bytes using encodeBytes.induct with
  | case1 => rfl
  | case2 a =>
      have bound := a.toNat_lt
      have first : UInt8.ofNat (a.toNat / 4 % 64 * 4 + a.toNat % 4 * 16 % 64 / 16) = a :=
        ofNat_eq_byte (by omega)
      have trailing : a.toNat % 4 * 16 % 64 % 16 = 0 := by omega
      simp only [encodeBytes, decodeDigits, Fin.val_ofNat]
      rw [if_pos trailing, first]
  | case3 a b =>
      have boundA := a.toNat_lt
      have boundB := b.toNat_lt
      have first : UInt8.ofNat (a.toNat / 4 % 64 * 4 +
          (a.toNat % 4 * 16 + b.toNat / 16) % 64 / 16) = a := ofNat_eq_byte (by omega)
      have second : UInt8.ofNat ((a.toNat % 4 * 16 + b.toNat / 16) % 64 % 16 * 16 +
          b.toNat % 16 * 4 % 64 / 4) = b := ofNat_eq_byte (by omega)
      have trailing : b.toNat % 16 * 4 % 64 % 4 = 0 := by omega
      simp only [encodeBytes, decodeDigits, Fin.val_ofNat]
      rw [if_pos trailing, first, second]
  | case4 a b c rest inductionHypothesis =>
      have boundA := a.toNat_lt
      have boundB := b.toNat_lt
      have boundC := c.toNat_lt
      have first : UInt8.ofNat (a.toNat / 4 % 64 * 4 +
          (a.toNat % 4 * 16 + b.toNat / 16) % 64 / 16) = a := ofNat_eq_byte (by omega)
      have second : UInt8.ofNat ((a.toNat % 4 * 16 + b.toNat / 16) % 64 % 16 * 16 +
          (b.toNat % 16 * 4 + c.toNat / 64) % 64 / 4) = b := ofNat_eq_byte (by omega)
      have third : UInt8.ofNat ((b.toNat % 16 * 4 + c.toNat / 64) % 64 % 4 * 64 +
          c.toNat % 64 % 64) = c := ofNat_eq_byte (by omega)
      simp only [encodeBytes, decodeDigits, Fin.val_ofNat, inductionHypothesis, Option.map_some]
      rw [first, second, third]

theorem mapM_digit?_letter (digits : List Digit) :
    (digits.map letter).mapM digit? = some digits := by
  induction digits with
  | nil => rfl
  | cons digit rest inductionHypothesis =>
      simp [List.mapM_cons, digit?_letter, inductionHypothesis]

/-- What was encoded decodes to itself. -/
theorem decode_encode (bytes : List UInt8) : decode (encode bytes) = some bytes := by
  unfold decode encode
  rw [mapM_digit?_letter, Option.bind_some]
  exact decodeDigits_encodeBytes bytes

/-- Only letters of the alphabet stand in an encoding. -/
theorem notMem_encode {c : Char} (outside : digit? c = none) (bytes : List UInt8) :
    c ∉ encode bytes := by
  intro member
  obtain ⟨digit, -, rfl⟩ := List.mem_map.mp member
  rw [digit?_letter] at outside
  cases outside

theorem encode_ne_nil {bytes : List UInt8} (filled : bytes ≠ []) : encode bytes ≠ [] := by
  intro empty
  have decoded := decode_encode bytes
  rw [empty] at decoded
  exact filled (Option.some.inj decoded).symm

theorem mem_encodeStandard {c : Char} {bytes : List UInt8} (member : c ∈ encodeStandard bytes) :
    c = '=' ∨ ∃ digit, c = standardLetter digit := by
  rcases List.mem_append.mp member with inside | padded
  · obtain ⟨digit, -, rfl⟩ := List.mem_map.mp inside
    exact Or.inr ⟨digit, rfl⟩
  · exact Or.inl (List.eq_of_mem_replicate padded)

end Ratewall.Foundation.Base64Url
