import Ratewall.Foundation.Descent
import Ratewall.Http.Client
import Ratewall.Http.Uri

/-! Owns what the URL parser of WHATWG does to the path of an `http` or `https` URL: tabs
and line breaks are dropped, a backslash is a slash up to the query, a segment `.` stays
and a segment `..` goes up a level, where each dot may be spelled `%2e`, and a path that
ends in one of them ends in a slash. Which other characters are escaped, and how, is a
parameter: it is decided for each character alone. -/

namespace Ratewall.Http

open Ratewall.Rust
open Ratewall.Foundation

/-- Tabs and line breaks are dropped wherever they stand. -/
def untabbed (text : Text) : Text := text.filter fun c => !"\t\n\r".toList.contains c

def slashed (text : Text) : Text := text.map fun c => if c = '\\' then '/' else c

/-- The text with slashes for backslashes, up to the query or the fragment. -/
def forwardSlashes (text : Text) : Text := slashed (upTo pathStops text) ++ since pathStops text

/-- The segments of a path, each of which follows a slash. -/
def segments : Text → List Text
  | '/' :: rest => rest.splitOn '/'
  | _ => []

def segmentKind (segment : Text) : Descent.Kind :=
  let lower := segment.map Char.toLower
  if lower = ".".toList ∨ lower = "%2e".toList then .here
  else if lower = "..".toList ∨ lower = ".%2e".toList ∨ lower = "%2e.".toList ∨
      lower = "%2e%2e".toList then .up
  else .name

def spellSegment (segment : Text) : Text := '/' :: segment

def pathText (names : List Text) : Text := names.flatMap spellSegment

/-- What stands behind the names: a slash, if the last segment was not a name. -/
def trailing (steps : List Text) : Text :=
  match steps.getLast? with
  | none => ['/']
  | some last => if segmentKind last = .name then [] else ['/']

/-- The path that is requested. -/
def resolvedPath (path : Text) : Text :=
  pathText (Descent.walk segmentKind [] (segments path)) ++ trailing (segments path)

/-- The names on the way to a base path, and the path that they make. -/
def baseNames (path : Text) : List Text := Descent.walk segmentKind [] (segments path)

def basePath (path : Text) : Text := pathText (baseNames path)

def asRead (text : Text) : Text := forwardSlashes (untabbed text)

/-- A URL text as the parser takes it apart. -/
def parsed (text : Text) : Uri := Uri.split (asRead text)

/-- The URL has a host, whichever slashes it is written with. -/
def HasHost (text : Text) : Prop :=
  ∃ authority, (parsed text).authority = some authority ∧ hostOf authority ≠ []

/-- The path is read as the `url` crate documents it. Blanks at the end of a text are
dropped, so it must not end in one. -/
structure ResolvesPaths (urls : UrlCrate) (pathOf : urls.Url → Text) (escape : Char → Text) :
    Prop where
  path : ∀ {scheme rest : Text} {url : urls.Url}, scheme = "http".toList ∨ scheme = "https".toList →
    HasHost (scheme ++ ':' :: '/' :: '/' :: rest) → (∀ c ∈ rest.getLast?, ' ' < c) →
    urls.parse (scheme ++ ':' :: '/' :: '/' :: rest) = some url →
    pathOf url = (resolvedPath (parsed (scheme ++ ':' :: '/' :: '/' :: rest)).path).flatMap escape

/-! ### Segments -/

section

variable {first tail path : Text}

private theorem pathText_segments (rooted : path = [] ∨ ∃ rest, path = '/' :: rest) :
    pathText (segments path) = path := by
  have joined : ∀ names : List Text, names ≠ [] →
      pathText names = '/' :: ['/'].intercalate names := by
    intro names
    induction names with
    | nil => exact fun nonempty => absurd rfl nonempty
    | cons name rest ih =>
        intro _
        cases rest with
        | nil => simp [pathText, spellSegment, List.intercalate]
        | cons second others =>
            have later := ih (List.cons_ne_nil second others)
            show spellSegment name ++ pathText (second :: others) = _
            rw [later]
            simp [spellSegment, List.intercalate]
  rcases rooted with rfl | ⟨rest, rfl⟩
  · rfl
  · show pathText (rest.splitOn '/') = '/' :: rest
    rw [joined _ (List.splitOn_ne_nil '/' rest), List.intercalate_splitOn]

private theorem segments_append (rooted : first = [] ∨ ∃ rest, first = '/' :: rest) :
    segments (first ++ '/' :: tail) = segments first ++ segments ('/' :: tail) := by
  rcases rooted with rfl | ⟨rest, rfl⟩
  · rfl
  · exact List.splitOn_append_cons_self rest tail

private theorem segments_ne_nil : segments ('/' :: tail) ≠ [] := List.splitOn_ne_nil '/' tail

private theorem trailing_append {steps later : List Text} (nonempty : later ≠ []) :
    trailing (steps ++ later) = trailing later := by
  unfold trailing
  rw [List.getLast?_append_of_ne_nil _ nonempty]

/-- A base path without dot segments is taken as it is written. -/
theorem basePath_of_names (rooted : path = [] ∨ ∃ rest, path = '/' :: rest)
    (names : ∀ segment ∈ segments path, segmentKind segment = .name) : basePath path = path := by
  unfold basePath baseNames
  rw [Descent.walk_of_names names, List.nil_append, pathText_segments rooted]

/-- The path that is requested begins with the base path in front exactly if what its
rest climbs out of is spelled again by what the rest goes down to. -/
theorem basePath_prefix_iff (escape : Char → Text)
    (rooted : first = [] ∨ ∃ rest, first = '/' :: rest) :
    (basePath first).flatMap escape <+: (resolvedPath (first ++ '/' :: tail)).flatMap escape ↔
      (pathText ((baseNames first).drop ((baseNames first).length -
          (Descent.course segmentKind (segments ('/' :: tail))).up))).flatMap escape <+:
        (pathText (Descent.course segmentKind (segments ('/' :: tail))).down ++
          trailing (segments ('/' :: tail))).flatMap escape := by
  unfold resolvedPath basePath pathText
  rw [segments_append rooted, Descent.walk_append, trailing_append segments_ne_nil]
  simp only [List.flatMap_append, List.flatMap_assoc]
  exact Descent.prefix_walk_iff _ (baseNames first) (segments ('/' :: tail)) _

/-- Alone, a base path is requested as it is. -/
theorem basePath_prefix_self (escape : Char → Text) (path : Text) :
    (basePath path).flatMap escape <+: (resolvedPath path).flatMap escape := by
  unfold resolvedPath
  rw [List.flatMap_append]
  exact List.prefix_append _ _

end

/-! ### Where the path of a longer URL begins -/

section

variable {first second scheme rest tail query : Text}

private theorem tabless_of_stop {c : Char} (stop : c ∈ pathStops) :
    "\t\n\r".toList.contains c = false := by
  have tabless : pathStops.all fun c => !"\t\n\r".toList.contains c := by decide
  simpa using List.all_eq_true.mp tabless c stop

private theorem mem_untabbed_of_stop {c : Char} (member : c ∈ first) (stop : c ∈ pathStops) :
    c ∈ untabbed first := by
  refine List.mem_filter.mpr ⟨member, ?_⟩
  rw [tabless_of_stop stop]
  rfl

private theorem slashed_free (free : ∀ c ∈ first, c ∉ pathStops) :
    ∀ c ∈ slashed first, c ∉ pathStops := by
  intro c member
  obtain ⟨other, inside, rfl⟩ := List.mem_map.mp member
  split
  next => decide
  next => exact free other inside

private theorem untabbed_free (free : ∀ c ∈ first, c ∉ pathStops) :
    ∀ c ∈ untabbed first, c ∉ pathStops :=
  fun c member => free c (List.filter_sublist.subset member)

private theorem untabbed_append (first second : Text) :
    untabbed (first ++ second) = untabbed first ++ untabbed second := List.filter_append first second

theorem untabbed_of_visible (visible : ∀ c ∈ first, ' ' < c) : untabbed first = first := by
  apply List.filter_eq_self.mpr
  intro c member
  have above := visible c member
  have kept : c ∉ "\t\n\r".toList := by
    intro tab
    have blanks : "\t\n\r".toList.all fun c => !decide (' ' < c) := by decide
    simpa [above] using List.all_eq_true.mp blanks c tab
  simpa using kept

private theorem forwardSlashes_append (free : ∀ c ∈ first, c ∉ pathStops) :
    forwardSlashes (first ++ second) = slashed first ++ forwardSlashes second := by
  unfold forwardSlashes
  rw [upTo_append free, since_append free]
  simp [slashed]

private theorem asRead_append (free : ∀ c ∈ first, c ∉ pathStops) :
    asRead (first ++ second) = slashed (untabbed first) ++ asRead second := by
  unfold asRead
  rw [untabbed_append, forwardSlashes_append (untabbed_free free)]

private theorem asRead_of_free (free : ∀ c ∈ first, c ∉ pathStops) :
    asRead first = slashed (untabbed first) := by
  have alone : asRead (first ++ []) = slashed (untabbed first) ++ [] := asRead_append free
  simpa using alone

/-- Behind a query or a fragment a backslash stays one. -/
theorem asRead_append_of_stop (stop : ∃ c ∈ first, c ∈ pathStops) :
    asRead (first ++ second) = asRead first ++ untabbed second := by
  have kept : ∃ c ∈ untabbed first, c ∈ pathStops := by
    obtain ⟨c, member, stops⟩ := stop
    exact ⟨c, mem_untabbed_of_stop member stops, stops⟩
  unfold asRead forwardSlashes
  rw [untabbed_append, upTo_append_of_stop kept, since_append_of_stop kept, List.append_assoc]

private theorem stop_of_asRead (stop : ∃ c ∈ first, c ∈ pathStops) :
    ∃ c ∈ asRead first, c ∈ pathStops := by
  have kept : since pathStops (untabbed first) ≠ [] := by
    intro none
    obtain ⟨c, member, stops⟩ := stop
    have inside := mem_untabbed_of_stop member stops
    rw [← upTo_append_since pathStops (untabbed first), none, List.append_nil] at inside
    exact not_stop_of_mem_upTo inside stops
  rcases since_cases pathStops (untabbed first) with none | ⟨c, later, begins, stops⟩
  · exact absurd none kept
  · refine ⟨c, ?_, stops⟩
    unfold asRead forwardSlashes
    rw [begins]
    exact List.mem_append_right _ List.mem_cons_self

variable (http : scheme = "http".toList ∨ scheme = "https".toList)

include http

private theorem asRead_scheme (rest : Text) :
    asRead (scheme ++ ':' :: '/' :: '/' :: rest) = scheme ++ ':' :: '/' :: '/' :: asRead rest := by
  have split : scheme ++ ':' :: '/' :: '/' :: rest = (scheme ++ [':', '/', '/']) ++ rest := by simp
  rw [split, asRead_append (beforeHost_free http)]
  rcases http with rfl | rfl
  · rfl
  · rfl

private theorem parsed_eq (rest : Text) :
    parsed (scheme ++ ':' :: '/' :: '/' :: rest) =
      .ofParts (some scheme) (some (upTo authorityStops (asRead rest)))
        (since authorityStops (asRead rest)) := by
  unfold parsed
  rw [asRead_scheme http, split_of_authority (scheme_ne_nil http) (scheme_free http)]

private theorem parsed_path (rest : Text) :
    (parsed (scheme ++ ':' :: '/' :: '/' :: rest)).path =
      upTo pathStops (since authorityStops (asRead rest)) := by
  rw [parsed_eq http]
  rfl

/-- Behind an authority the path is empty or begins with a slash. -/
theorem parsed_path_rooted (rest : Text) :
    (parsed (scheme ++ ':' :: '/' :: '/' :: rest)).path = [] ∨
      ∃ more, (parsed (scheme ++ ':' :: '/' :: '/' :: rest)).path = '/' :: more := by
  rw [parsed_path http]
  rcases since_cases authorityStops (asRead rest) with none | ⟨c, later, begins, stop⟩
  · rw [none]
    exact Or.inl rfl
  · rw [begins]
    by_cases slash : c = '/'
    · rw [slash]
      exact Or.inr ⟨upTo pathStops later, rfl⟩
    · have ends : c ∈ pathStops := by
        simpa [authorityStops, pathStops, slash] using stop
      exact Or.inl (upTo_cons_stop ends)

/-- The authority ends where it ended before a suffix came. -/
theorem parsed_authority_append (rest more : Text) :
    (parsed (scheme ++ ':' :: '/' :: '/' :: (rest ++ '/' :: more))).authority =
      (parsed (scheme ++ ':' :: '/' :: '/' :: rest)).authority := by
  have same : upTo authorityStops (asRead (rest ++ '/' :: more)) =
      upTo authorityStops (asRead rest) := by
    by_cases stop : ∃ c ∈ rest, c ∈ pathStops
    · have closed : ∃ c ∈ asRead rest, c ∈ authorityStops := by
        obtain ⟨c, member, stops⟩ := stop_of_asRead stop
        exact ⟨c, member, List.mem_cons_of_mem _ stops⟩
      rw [asRead_append_of_stop stop, upTo_append_of_stop closed]
    · push Not at stop
      have slash : ∃ later, asRead ('/' :: more) = '/' :: later :=
        ⟨asRead more, @asRead_append ['/'] more (by simp [pathStops])⟩
      obtain ⟨later, begins⟩ := slash
      rw [asRead_append stop, asRead_of_free stop, begins, upTo_append_stop (by decide)]
  rw [parsed_eq http, parsed_eq http, same]
  rfl

/-- More path leaves the host as it is. -/
theorem hasHost_append {more : Text} (host : HasHost (scheme ++ ':' :: '/' :: '/' :: rest)) :
    HasHost (scheme ++ ':' :: '/' :: '/' :: (rest ++ '/' :: more)) := by
  unfold HasHost
  rw [parsed_authority_append http]
  exact host

/-- As long as no query has begun, a suffix prolongs the path. -/
theorem parsed_path_suffix (free : ∀ c ∈ rest, c ∉ pathStops)
    (tailFree : ∀ c ∈ tail, c ∉ pathStops) (begins : query = [] ∨ ∃ more, query = '?' :: more) :
    (parsed (scheme ++ ':' :: '/' :: '/' :: (rest ++ '/' :: (tail ++ query)))).path =
      (parsed (scheme ++ ':' :: '/' :: '/' :: rest)).path ++ '/' :: slashed (untabbed tail) := by
  have slashFree : ∀ c ∈ '/' :: tail, c ∉ pathStops := by
    intro c member
    rcases List.mem_cons.mp member with rfl | behind
    · decide
    · exact tailFree c behind
  have ends : upTo pathStops (asRead query) = [] := by
    rcases begins with rfl | ⟨more, rfl⟩
    · rfl
    · rfl
  have tailEnds : upTo pathStops ('/' :: (slashed (untabbed tail) ++ asRead query)) =
      '/' :: slashed (untabbed tail) := by
    have ended := @upTo_append pathStops (slashed (untabbed ('/' :: tail))) (asRead query)
      (slashed_free (untabbed_free slashFree))
    rw [ends, List.append_nil] at ended
    exact ended
  have tailRead : asRead ('/' :: (tail ++ query)) =
      '/' :: (slashed (untabbed tail) ++ asRead query) := @asRead_append ('/' :: tail) query slashFree
  have baseFree : ∀ c ∈ since authorityStops (slashed (untabbed rest)), c ∉ pathStops := by
    intro c member
    exact slashed_free (untabbed_free free) c ((List.dropWhile_sublist _).subset member)
  rw [parsed_path http, parsed_path http, asRead_append free, asRead_of_free free, tailRead,
    since_append_stop (by decide), upTo_append baseFree, tailEnds, upTo_eq_self baseFree]

/-- Once a query or a fragment has begun, nothing prolongs the path. -/
theorem parsed_path_of_stop (stop : ∃ c ∈ rest, c ∈ pathStops) (more : Text) :
    (parsed (scheme ++ ':' :: '/' :: '/' :: (rest ++ more))).path =
      (parsed (scheme ++ ':' :: '/' :: '/' :: rest)).path := by
  have inside := stop_of_asRead stop
  have behind : ∃ c ∈ since authorityStops (asRead rest), c ∈ pathStops := by
    by_contra free
    push Not at free
    obtain ⟨c, member, stops⟩ := inside
    exact since_free_iff.mp free c member stops
  have closed : ∃ c ∈ asRead rest, c ∈ authorityStops := by
    obtain ⟨c, member, stops⟩ := inside
    exact ⟨c, member, List.mem_cons_of_mem _ stops⟩
  rw [parsed_path http, parsed_path http, asRead_append_of_stop stop,
    since_append_of_stop closed, upTo_append_of_stop behind]

end

/-- Absolute URLs as they are written, on which paths without escapes can be evaluated. -/
def writtenUrls : UrlCrate where
  Url := Text
  parse text := some text
  join _ reference := some (charsOf reference)
  scheme text := (parsed text).scheme.getD []
  authority text := (splitUser ((parsed text).authority.getD [])).1
  userInfo text := (splitUser ((parsed text).authority.getD [])).2

def plainPath (url : Text) : Text := resolvedPath (parsed url).path

/-- The parser of the source's own texts resolves paths as documented. -/
theorem writtenUrls_resolvesPaths : ResolvesPaths writtenUrls plainPath fun c => [c] := by
  constructor
  intro scheme rest url _ _ _ written
  have same := Option.some.inj written
  rw [← same, List.flatMap_singleton']
  rfl

end Ratewall.Http
