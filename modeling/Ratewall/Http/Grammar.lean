import Ratewall.Http.Uri

/-! Owns the grammar of the parts that a text splits into: which characters an
authority, a path, a query and a fragment may be spelled with, and what a host and a
port are. It judges; it decodes nothing. A port is one that exists. Result: a text
that is well spelled stays so without the slashes at its end. -/

namespace Ratewall.Http

open Ratewall.Rust

/-! ### Characters -/

def isUnreserved (c : Char) : Bool := c.isAlphanum || "-._~".toList.contains c

def isSubDelim (c : Char) : Bool := "!$&'()*+,;=".toList.contains c

def isHexDigit (c : Char) : Bool :=
  c.isDigit || "abcdef".toList.contains c || "ABCDEF".toList.contains c

def isNameChar (c : Char) : Bool := isUnreserved c || isSubDelim c

def isUserChar (c : Char) : Bool := isNameChar c || c == ':'

def isPathChar (c : Char) : Bool := isUserChar c || c == '@' || c == '/'

def isQueryChar (c : Char) : Bool := isPathChar c || c == '?'

/-- The characters are allowed, or written as a percent sign with two digits. -/
def spelled (allowed : Char → Bool) : Text → Bool
  | [] => true
  | '%' :: high :: low :: rest => isHexDigit high && isHexDigit low && spelled allowed rest
  | c :: rest => c != '%' && allowed c && spelled allowed rest

/-! ### Hosts -/

def isOctet (text : Text) : Bool :=
  !text.isEmpty && text.all Char.isDigit && text.length ≤ 3 &&
    (text.length == 1 || text.head? != some '0') && Nat.ofDigitChars 10 text 0 ≤ 255

def isIpv4 (text : Text) : Bool :=
  (text.splitOn '.').length == 4 && (text.splitOn '.').all isOctet

/-- Sixteen bits of an address. -/
def isGroup (text : Text) : Bool := !text.isEmpty && text.length ≤ 4 && text.all isHexDigit

/-- The groups that the pieces between colons are worth; the last may be written with
dots and is worth two then. -/
def groupsOf : List Text → Option Nat
  | [] => some 0
  | [last] => if isGroup last then some 1 else if isIpv4 last then some 2 else none
  | piece :: rest => if isGroup piece then (groupsOf rest).map (· + 1) else none

/-- The pieces of one side of a double colon, which may be empty. -/
def piecesOf (side : Text) : List Text := if side.isEmpty then [] else side.splitOn ':'

def splitDouble : Text → Option (Text × Text)
  | ':' :: ':' :: rest => some ([], rest)
  | c :: rest => (splitDouble rest).map fun parts => (c :: parts.1, parts.2)
  | [] => none

/-- Eight groups, or fewer with a double colon in the place of the others. -/
def isIpv6 (text : Text) : Bool :=
  match splitDouble text with
  | none => groupsOf (text.splitOn ':') == some 8
  | some (left, right) =>
      (piecesOf left).all isGroup &&
        (groupsOf (piecesOf right)).any fun groups => (piecesOf left).length + groups ≤ 7

def isIpFuture (text : Text) : Bool :=
  match text with
  | [] => false
  | version :: rest =>
      (version == 'v' || version == 'V') &&
        (splitOnce '.' rest).any fun parts =>
          !parts.1.isEmpty && parts.1.all isHexDigit &&
            !parts.2.isEmpty && parts.2.all isUserChar

def isPort (text : Text) : Bool := text.all Char.isDigit && Nat.ofDigitChars 10 text 0 < 65536

/-- A host, in brackets if it is an IP literal, and perhaps a port. -/
def isPlace : Text → Bool
  | '[' :: rest =>
      (splitOnce ']' rest).any fun parts =>
        (isIpv6 parts.1 || isIpFuture parts.1) &&
          (parts.2.isEmpty || (parts.2.head? == some ':' && isPort parts.2.tail))
  | place =>
      match splitOnce ':' place with
      | none => spelled isNameChar place
      | some (name, port) => spelled isNameChar name && isPort port

def isAuthority (authority : Text) : Bool :=
  match splitOnce '@' authority with
  | none => isPlace authority
  | some (user, place) => spelled isUserChar user && isPlace place

/-- The parts behind the authority are well spelled. -/
def Uri.isSpelled (uri : Uri) : Bool :=
  spelled isPathChar uri.path && uri.query.all (spelled isQueryChar) &&
    uri.fragment.all (spelled isQueryChar)

example : (["crm:3000", "gw:pass%20word@crm", "[::1]:80", "[2001:db8::192.0.2.7]",
    "192.168.0.1"].all fun text => isAuthority text.toList) = true := by decide

example : (["crm:notaport", "cr m:x y", "[::1", "crm:65536", "a@b@crm", "[1::2::3]",
    "crm%2", "<host>"].any fun text => isAuthority text.toList) = false := by decide

/-! ### Slashes at the end -/

def slashes (count : Nat) : Text := List.replicate count '/'

theorem trimEndMatches_slashes (text : Text) :
    ∃ count, text = trimEndMatches '/' text ++ slashes count := by
  refine ⟨(text.rtakeWhile (· == '/')).length, ?_⟩
  have all : text.rtakeWhile (· == '/') = slashes (text.rtakeWhile (· == '/')).length := by
    refine List.eq_replicate_of_mem fun c member => ?_
    simpa using List.mem_rtakeWhile_imp member
  rw [← all]
  exact List.rdropWhile_append_rtakeWhile.symm

private theorem slashes_free {stops : Text} (free : '/' ∉ stops) (count : Nat) :
    ∀ c ∈ slashes count, c ∉ stops := by
  intro c member
  rw [List.eq_of_mem_replicate member]
  exact free

private theorem spelled_cons {allowed : Char → Bool} {c : Char} {rest : Text} (plain : c ≠ '%') :
    spelled allowed (c :: rest) = (allowed c && spelled allowed rest) := by
  rw [spelled, bne_iff_ne.mpr plain, Bool.true_and]
  intro high low later percent
  exact absurd percent plain

private theorem exists_of_spelled_percent {allowed : Char → Bool} {rest : Text}
    (spells : spelled allowed ('%' :: rest) = true) :
    ∃ high low later, rest = high :: low :: later ∧ isHexDigit high = true ∧
      isHexDigit low = true := by
  unfold spelled at spells
  split at spells
  next => rename_i empty; cases empty
  next high low later escape =>
    injection escape with _ tail
    simp only [Bool.and_eq_true] at spells
    exact ⟨high, low, later, tail, spells.1.1, spells.1.2⟩
  next c _ _ same =>
    injection same with first
    rw [← first] at spells
    cases spells

private theorem not_isHexDigit_slash {c : Char} {count : Nat} (member : c ∈ slashes count) :
    isHexDigit c ≠ true := by
  rw [List.eq_of_mem_replicate member]
  decide

/-- A slash is no digit, so what is cut off does not belong to an escape. -/
theorem spelled_of_append_slashes {allowed : Char → Bool} {text : Text} {count : Nat}
    (whole : spelled allowed (text ++ slashes count) = true) : spelled allowed text = true := by
  induction text using spelled.induct with
  | case1 => rfl
  | case2 high low rest inductionHypothesis =>
      simp only [List.cons_append, spelled, Bool.and_eq_true] at whole ⊢
      exact ⟨whole.1, inductionHypothesis whole.2⟩
  | case3 c rest short inductionHypothesis =>
      by_cases percent : c = '%'
      · rw [percent] at whole
        obtain ⟨high, low, later, digits, first, second⟩ := exists_of_spelled_percent whole
        cases rest with
        | nil =>
            have cut : slashes count = high :: low :: later := digits
            have inside : high ∈ slashes count := by simp [cut]
            exact absurd first (not_isHexDigit_slash inside)
        | cons head tail =>
            cases tail with
            | nil =>
                injection digits with _ behind
                have cut : slashes count = low :: later := behind
                have inside : low ∈ slashes count := by simp [cut]
                exact absurd second (not_isHexDigit_slash inside)
            | cons next others => exact (short head next others percent rfl).elim
      · rw [List.cons_append, spelled_cons percent, Bool.and_eq_true] at whole
        rw [spelled_cons percent, Bool.and_eq_true]
        exact ⟨whole.1, inductionHypothesis whole.2⟩

private theorem upTo_of_append_slashes {stops text : Text} (free : '/' ∉ stops) (count : Nat) :
    upTo stops (text ++ slashes count) = upTo stops text ∨
      upTo stops (text ++ slashes count) = upTo stops text ++ slashes count := by
  by_cases stop : ∃ c ∈ text, c ∈ stops
  · exact Or.inl (upTo_append_of_stop stop)
  · push Not at stop
    right
    rw [upTo_append stop, upTo_eq_self stop, upTo_eq_self (slashes_free free count)]

private theorem spelled_upTo {allowed : Char → Bool} {stops text : Text} {count : Nat}
    (free : '/' ∉ stops) (whole : spelled allowed (upTo stops (text ++ slashes count)) = true) :
    spelled allowed (upTo stops text) = true := by
  rcases upTo_of_append_slashes free count with same | longer
  · rw [← same]
    exact whole
  · rw [longer] at whole
    exact spelled_of_append_slashes whole

/-- A part that begins at a stop ends there or takes the slashes along. -/
theorem since_of_append_slashes {stops text : Text} (free : '/' ∉ stops) (count : Nat) :
    (since stops text = [] ∧ since stops (text ++ slashes count) = []) ∨
      since stops (text ++ slashes count) = since stops text ++ slashes count := by
  by_cases stop : ∃ c ∈ text, c ∈ stops
  · exact Or.inr (since_append_of_stop stop)
  · push Not at stop
    left
    rw [since_append stop, since_eq_nil (slashes_free free count), since_eq_nil stop]
    exact ⟨rfl, rfl⟩

private theorem isSpelled_iff {uri : Uri} : uri.isSpelled = true ↔
    spelled isPathChar uri.path = true ∧ (∀ query, uri.query = some query →
      spelled isQueryChar query = true) ∧
      ∀ fragment, uri.fragment = some fragment → spelled isQueryChar fragment = true := by
  obtain ⟨_, _, path, query, fragment⟩ := uri
  cases query <;> cases fragment <;> simp [Uri.isSpelled, and_assoc]

private theorem spelled_fragment {text : Text} {count : Nat}
    (begins : text = [] ∨ ∃ c rest, text = c :: rest ∧ c ∈ queryStops)
    (whole : ∀ fragment, splitFragment (text ++ slashes count) = some fragment →
      spelled isQueryChar fragment = true) :
    ∀ fragment, splitFragment text = some fragment → spelled isQueryChar fragment = true := by
  rcases begins with rfl | ⟨c, rest, rfl, stop⟩
  · intro fragment found
    cases found
  · obtain rfl : c = '#' := by simpa [queryStops] using stop
    intro fragment found
    obtain rfl : rest = fragment := Option.some.inj found
    exact spelled_of_append_slashes (whole (rest ++ slashes count) rfl)

/-- What stands behind the path begins with a question mark or a hash. -/
theorem spelled_query {text : Text} {count : Nat}
    (begins : text = [] ∨ ∃ c rest, text = c :: rest ∧ c ∈ pathStops)
    (query : ∀ query, (splitQuery (text ++ slashes count)).1 = some query →
      spelled isQueryChar query = true)
    (fragment : ∀ fragment, splitFragment (splitQuery (text ++ slashes count)).2 = some fragment →
      spelled isQueryChar fragment = true) :
    (∀ query, (splitQuery text).1 = some query → spelled isQueryChar query = true) ∧
      ∀ fragment, splitFragment (splitQuery text).2 = some fragment →
        spelled isQueryChar fragment = true := by
  rcases begins with rfl | ⟨c, rest, rfl, stop⟩
  · exact ⟨by simp [splitQuery], by simp [splitQuery, splitFragment]⟩
  · have either : c = '?' ∨ c = '#' := by simpa [pathStops] using stop
    rcases either with rfl | rfl
    · refine ⟨?_, ?_⟩
      · intro found same
        obtain rfl : upTo queryStops rest = found := Option.some.inj same
        exact spelled_upTo (by decide) (query _ rfl)
      · show ∀ fragment, splitFragment (since queryStops rest) = some fragment → _
        have behind : ∀ fragment, splitFragment (since queryStops (rest ++ slashes count)) =
            some fragment → spelled isQueryChar fragment = true := fragment
        rcases @since_of_append_slashes queryStops rest (by decide) count with
          ⟨empty, -⟩ | longer
        · rw [empty]
          intro found same
          cases same
        · rw [longer] at behind
          exact spelled_fragment (since_cases queryStops rest) behind
    · refine ⟨?_, ?_⟩
      · intro found same
        cases same
      · exact @spelled_fragment ('#' :: rest) count (Or.inr ⟨'#', rest, rfl, by decide⟩) fragment

theorem isSpelled_of_append_slashes {scheme authority : Option Text} {text : Text} {count : Nat}
    (whole : (Uri.ofParts scheme authority (text ++ slashes count)).isSpelled = true) :
    (Uri.ofParts scheme authority text).isSpelled = true := by
  obtain ⟨path, query, fragment⟩ := isSpelled_iff.mp whole
  refine isSpelled_iff.mpr ⟨spelled_upTo (by decide) path, ?_⟩
  simp only [Uri.ofParts] at query fragment ⊢
  rcases @since_of_append_slashes pathStops text (by decide) count with ⟨empty, -⟩ | longer
  · rw [empty]
    exact ⟨by simp [splitQuery], by simp [splitQuery, splitFragment]⟩
  · rw [longer] at query fragment
    exact spelled_query (since_cases pathStops text) query fragment

end Ratewall.Http
