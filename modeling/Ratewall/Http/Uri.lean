import Ratewall.Rust.Text

/-! Owns the generic syntax of URIs: any text splits into a scheme, an authority, a
path, a query and a fragment, each of which ends at the first character that can
start a later part. Nothing is decoded or normalised. A text that is appended to
a URI lands in the part that is still open at its end. -/

namespace Ratewall.Http

open Ratewall.Rust

structure Uri where
  scheme : Option Text
  authority : Option Text
  path : Text
  query : Option Text
  fragment : Option Text
deriving DecidableEq, Repr

/-- The text before the first stop. -/
def upTo (stops text : Text) : Text := text.takeWhile fun c => !stops.contains c

/-- The text from the first stop on. -/
def since (stops text : Text) : Text := text.dropWhile fun c => !stops.contains c

def schemeStops : Text := ":/?#".toList
def authorityStops : Text := "/?#".toList
def pathStops : Text := "?#".toList
def queryStops : Text := "#".toList

def splitScheme (text : Text) : Option Text × Text :=
  match upTo schemeStops text, since schemeStops text with
  | c :: scheme, ':' :: rest => (some (c :: scheme), rest)
  | _, _ => (none, text)

def splitAuthority : Text → Option Text × Text
  | '/' :: '/' :: rest => (some (upTo authorityStops rest), since authorityStops rest)
  | text => (none, text)

def splitQuery : Text → Option Text × Text
  | '?' :: rest => (some (upTo queryStops rest), since queryStops rest)
  | text => (none, text)

def splitFragment : Text → Option Text
  | '#' :: rest => some rest
  | _ => none

/-- The parts after the scheme. -/
def Uri.ofParts (scheme authority : Option Text) (rest : Text) : Uri where
  scheme := scheme
  authority := authority
  path := upTo pathStops rest
  query := (splitQuery (since pathStops rest)).1
  fragment := splitFragment (splitQuery (since pathStops rest)).2

def Uri.split (text : Text) : Uri :=
  let scheme := splitScheme text
  let authority := splitAuthority scheme.2
  .ofParts scheme.1 authority.1 authority.2

/-- The host of an authority: what stands between the user information and the port.
An IP literal is written in brackets, which are not part of it. -/
def hostOf (authority : Text) : Text :=
  match authority.rtakeWhile (· != '@') with
  | '[' :: literal => upTo "]".toList literal
  | place => upTo ":".toList place

/-! ### Stops -/

section

variable {stops first second : Text} {c : Char}

@[simp] theorem upTo_append_since (stops text : Text) : upTo stops text ++ since stops text = text :=
  List.takeWhile_append_dropWhile

/-- A cut does not fall into a piece without stops. -/
theorem upTo_append (free : ∀ c ∈ first, c ∉ stops) :
    upTo stops (first ++ second) = first ++ upTo stops second := by
  apply List.takeWhile_append_of_pos
  simpa using free

theorem since_append (free : ∀ c ∈ first, c ∉ stops) :
    since stops (first ++ second) = since stops second := by
  apply List.dropWhile_append_of_pos
  simpa using free

theorem upTo_cons_stop (stop : c ∈ stops) : upTo stops (c :: second) = [] := by
  simp [upTo, stop]

private theorem since_cons_stop (stop : c ∈ stops) : since stops (c :: second) = c :: second := by
  simp [since, stop]

theorem upTo_eq_self (free : ∀ c ∈ first, c ∉ stops) : upTo stops first = first := by
  rw [← List.append_nil first, upTo_append free]
  rfl

theorem since_eq_nil (free : ∀ c ∈ first, c ∉ stops) : since stops first = [] := by
  rw [← List.append_nil first, since_append free]
  rfl

theorem not_stop_of_mem_upTo {text : Text} (member : c ∈ upTo stops text) : c ∉ stops := by
  simpa using List.mem_takeWhile_imp member

/-- A stop in the first of two texts hides the second. -/
theorem upTo_append_of_stop (stop : ∃ c ∈ first, c ∈ stops) :
    upTo stops (first ++ second) = upTo stops first := by
  induction first with
  | nil => simp at stop
  | cons c first ih =>
      by_cases stops_c : c ∈ stops
      · rw [List.cons_append, upTo_cons_stop stops_c, upTo_cons_stop stops_c]
      · obtain ⟨other, member, stops_other⟩ := stop
        rcases List.mem_cons.mp member with rfl | later
        · exact absurd stops_other stops_c
        · have hidden := ih ⟨other, later, stops_other⟩
          simp only [upTo, List.cons_append, List.takeWhile_cons] at hidden ⊢
          rw [hidden]

/-- Before a stop, the first part ends where it ended alone. -/
theorem upTo_append_stop (stop : c ∈ stops) :
    upTo stops (first ++ c :: second) = upTo stops first := by
  induction first with
  | nil => exact upTo_cons_stop stop
  | cons other first ih =>
      simp only [upTo, List.cons_append, List.takeWhile_cons] at ih ⊢
      rw [ih]

theorem since_append_of_stop (stop : ∃ c ∈ first, c ∈ stops) :
    since stops (first ++ second) = since stops first ++ second := by
  induction first with
  | nil => simp at stop
  | cons c first ih =>
      by_cases stops_c : c ∈ stops
      · rw [List.cons_append, since_cons_stop stops_c, since_cons_stop stops_c]
        rfl
      · obtain ⟨other, member, stops_other⟩ := stop
        rcases List.mem_cons.mp member with rfl | later
        · exact absurd stops_other stops_c
        · have kept := ih ⟨other, later, stops_other⟩
          simp only [since, List.cons_append, List.dropWhile_cons] at kept ⊢
          rw [kept]
          simp [stops_c]

/-- What comes after the first part is nothing, or it begins with a stop. -/
theorem since_cases (stops text : Text) :
    since stops text = [] ∨ ∃ c rest, since stops text = c :: rest ∧ c ∈ stops := by
  cases kept : since stops text with
  | nil => exact Or.inl rfl
  | cons c rest =>
      have first := List.head?_dropWhile_not (fun c => !stops.contains c) text
      have same : List.dropWhile (fun c => !stops.contains c) text = c :: rest := kept
      rw [same] at first
      exact Or.inr ⟨c, rest, rfl, by simpa using first⟩

theorem since_append_stop (stop : c ∈ stops) :
    since stops (first ++ c :: second) = since stops first ++ c :: second := by
  induction first with
  | nil => exact since_cons_stop stop
  | cons other first ih =>
      simp only [since, List.cons_append, List.dropWhile_cons] at ih ⊢
      split
      · exact ih
      · rfl

/-- A stop of the path is not part of the authority. -/
theorem since_free_iff {text : Text} :
    (∀ c ∈ since authorityStops text, c ∉ pathStops) ↔ ∀ c ∈ text, c ∉ pathStops := by
  constructor
  · intro free c member
    rw [← upTo_append_since authorityStops text] at member
    rcases List.mem_append.mp member with host | base
    · intro stop
      apply not_stop_of_mem_upTo host
      exact List.mem_cons_of_mem _ stop
    · exact free c base
  · intro free c member
    exact free c ((List.dropWhile_sublist _).subset member)

end

/-! ### Splitting -/

section

variable {scheme rest : Text}

private theorem splitScheme_of (nonempty : scheme ≠ []) (free : ∀ c ∈ scheme, c ∉ schemeStops) :
    splitScheme (scheme ++ ':' :: rest) = (some scheme, rest) := by
  unfold splitScheme
  rw [upTo_append free, since_append free, upTo_cons_stop (by decide), since_cons_stop (by decide),
    List.append_nil]
  cases scheme with
  | nil => exact absurd rfl nonempty
  | cons c scheme => rfl

/-- A scheme and two slashes make the text up to the next stop the authority. -/
theorem split_of_authority (nonempty : scheme ≠ []) (free : ∀ c ∈ scheme, c ∉ schemeStops) :
    Uri.split (scheme ++ ':' :: '/' :: '/' :: rest) =
      .ofParts (some scheme) (some (upTo authorityStops rest)) (since authorityStops rest) := by
  unfold Uri.split
  rw [splitScheme_of nonempty free]
  rfl

/-- A scheme and nothing behind the colon has no authority. -/
theorem split_of_scheme (nonempty : scheme ≠ []) (free : ∀ c ∈ scheme, c ∉ schemeStops) :
    Uri.split (scheme ++ [':']) = .ofParts (some scheme) none [] := by
  unfold Uri.split
  rw [splitScheme_of nonempty free]
  rfl

end

section

variable {scheme : Text} (http : scheme = "http".toList ∨ scheme = "https".toList)

include http

theorem scheme_ne_nil : scheme ≠ [] := by
  rcases http with rfl | rfl
  · decide
  · decide

theorem scheme_free : ∀ c ∈ scheme, c ∉ schemeStops := by
  rcases http with rfl | rfl
  · simp [schemeStops]
  · simp [schemeStops]

/-- What stands before the host opens neither a query nor a fragment. -/
theorem beforeHost_free : ∀ c ∈ scheme ++ [':', '/', '/'], c ∉ pathStops := by
  rcases http with rfl | rfl
  · simp [pathStops]
  · simp [pathStops]

end

private theorem eq_of_splitScheme {text scheme : Text}
    (schemed : (splitScheme text).1 = some scheme) :
    text = scheme ++ ':' :: (splitScheme text).2 := by
  unfold splitScheme at schemed ⊢
  split at schemed
  next c first rest before after =>
    cases schemed
    rw [← before, ← after, upTo_append_since]
  next => cases schemed

private theorem eq_of_splitAuthority {text authority : Text}
    (authorised : (splitAuthority text).1 = some authority) :
    ∃ rest, text = '/' :: '/' :: rest ∧ authority = upTo authorityStops rest := by
  unfold splitAuthority at authorised
  split at authorised
  next rest =>
    cases authorised
    exact ⟨rest, rfl, rfl⟩
  next => cases authorised

/-- A text with a scheme and an authority begins with both. -/
theorem exists_of_split {text scheme authority : Text}
    (schemed : (Uri.split text).scheme = some scheme)
    (authorised : (Uri.split text).authority = some authority) :
    ∃ rest, text = scheme ++ ':' :: '/' :: '/' :: rest ∧ authority = upTo authorityStops rest := by
  have before : text = scheme ++ ':' :: (splitScheme text).2 := eq_of_splitScheme schemed
  obtain ⟨rest, after, within⟩ := eq_of_splitAuthority authorised
  rw [after] at before
  exact ⟨rest, before, within⟩

/-- A path that is followed by a query ends there. -/
theorem ofParts_query {scheme authority : Option Text} {path query : Text}
    (pathFree : ∀ c ∈ path, c ∉ pathStops) (queryFree : ∀ c ∈ query, c ∉ queryStops) :
    Uri.ofParts scheme authority (path ++ '?' :: query) =
      ⟨scheme, authority, path, some query, none⟩ := by
  unfold Uri.ofParts
  rw [upTo_append pathFree, since_append pathFree, upTo_cons_stop (by decide),
    since_cons_stop (by decide), List.append_nil]
  simp only [splitQuery, upTo_eq_self queryFree, since_eq_nil queryFree, splitFragment]

/-- Without a question mark or a hash all of it is path. -/
theorem ofParts_path {scheme authority : Option Text} {path : Text}
    (pathFree : ∀ c ∈ path, c ∉ pathStops) :
    Uri.ofParts scheme authority path = ⟨scheme, authority, path, none, none⟩ := by
  unfold Uri.ofParts
  rw [upTo_eq_self pathFree, since_eq_nil pathFree]
  rfl

end Ratewall.Http
