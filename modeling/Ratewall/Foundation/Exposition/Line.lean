import Ratewall.Foundation.Exposition.Token

/-! Owns the lines of the Prometheus text format: a sample, the docstring or the kind of a
metric, or nothing that counts (a blank line, any other comment). A line that was written
is read back as what it was written for. Which lines may follow one another is not owned
here. -/

namespace Ratewall.Foundation.Exposition

inductive Kind where
  | counter
  | gauge
  | histogram
  | summary
  | untyped
deriving DecidableEq, Repr

def Kind.text : Kind → List Char
  | .counter => "counter".toList
  | .gauge => "gauge".toList
  | .histogram => "histogram".toList
  | .summary => "summary".toList
  | .untyped => "untyped".toList

structure Sample where
  name : List Char
  labels : List (List Char × List Char)
  value : List Char
  timestamp : Option (List Char)
deriving DecidableEq, Repr

inductive Line where
  | nothing
  | help (name doc : List Char)
  | kind (name : List Char) (kind : Kind)
  | sample (sample : Sample)
deriving DecidableEq, Repr

/-! ### Reading -/

def readKind (word : List Char) : Option Kind :=
  [Kind.counter, .gauge, .histogram, .summary, .untyped].find? fun kind => kind.text = word

def readLabel (text : List Char) : Option ((List Char × List Char) × List Char) :=
  (readName false (skip text)).bind fun name =>
    match skip name.2 with
    | '=' :: rest =>
        match skip rest with
        | '"' :: rest => (readQuoted rest).map fun value => ((name.1, value.1), value.2)
        | _ => none
    | _ => none

/-- The labels up to the closing brace, at most so many. A comma may stand before it. -/
def readLabels : ℕ → List Char → Option (List (List Char × List Char) × List Char)
  | 0, _ => none
  | left + 1, text =>
      match skip text with
      | '\x7d' :: rest => some ([], rest)
      | text =>
          (readLabel text).bind fun label =>
            match skip label.2 with
            | '\x7d' :: rest => some ([label.1], rest)
            | ',' :: rest =>
                (readLabels left rest).map fun later => (label.1 :: later.1, later.2)
            | _ => none

def readLabelSet (text : List Char) : Option (List (List Char × List Char) × List Char) :=
  match skip text with
  | '\x7b' :: rest => readLabels (rest.length + 1) rest
  | rest => some ([], rest)

def readTimestamp : List (List Char) → Option (Option (List Char))
  | [] => some none
  | [stamp] => if (readInteger stamp).isSome then some (some stamp) else none
  | _ => none

def readSample (text : List Char) : Option Sample :=
  (readName true text).bind fun name =>
    (readLabelSet name.2).bind fun labels =>
      match words labels.2 with
      | value :: rest =>
          if (labels.1.map Prod.fst).Nodup ∧ (readNumber value).isSome then
            (readTimestamp rest).map fun stamp => ⟨name.1, labels.1, value, stamp⟩
          else none
      | [] => none

def helpKeyword : List Char := "HELP".toList

def typeKeyword : List Char := "TYPE".toList

/-- A token ends here. -/
def ended (rest : List Char) : Bool := rest.head?.all isBlank

def readComment (text : List Char) : Option Line :=
  let keyword := (skip text).takeWhile fun c => !isBlank c
  let rest := (skip text).dropWhile fun c => !isBlank c
  if keyword = helpKeyword then
    (readName true (skip rest)).bind fun name =>
      if ended name.2 then (readDoc (skip name.2)).map (.help name.1) else none
  else if keyword = typeKeyword then
    (readName true (skip rest)).bind fun name =>
      match words name.2 with
      | [word] => if ended name.2 then (readKind word).map (.kind name.1) else none
      | _ => none
  else some .nothing

def readLine (line : List Char) : Option Line :=
  match skip line with
  | [] => some .nothing
  | '#' :: rest => readComment rest
  | text => (readSample text).map .sample

/-- The lines of a text, each of which has to end in a line feed. -/
def readLines (text : List Char) : Option (List (List Char)) :=
  if (text.splitOn '\n').getLast? = some [] then some (text.splitOn '\n').dropLast else none

/-! ### Writing -/

def printLabel (label : List Char × List Char) : List Char :=
  label.1 ++ '=' :: '"' :: (escaped true label.2 ++ ['"'])

def printLabels (labels : List (List Char × List Char)) : List Char :=
  [','].intercalate (labels.map printLabel)

def printTimestamp : Option (List Char) → List Char
  | none => []
  | some stamp => ' ' :: stamp

def Sample.print (sample : Sample) : List Char :=
  sample.name ++ '\x7b' :: (printLabels sample.labels ++ '\x7d' :: ' ' ::
    (sample.value ++ printTimestamp sample.timestamp))

def printHelp (name doc : List Char) : List Char :=
  '#' :: ' ' :: (helpKeyword ++ ' ' :: (name ++ ' ' :: escaped false doc))

def printKind (name : List Char) (kind : Kind) : List Char :=
  '#' :: ' ' :: (typeKeyword ++ ' ' :: (name ++ ' ' :: kind.text))

/-- The parts of the sample are tokens of their kind. -/
structure Sample.WellFormed (sample : Sample) : Prop where
  name : isName true sample.name = true
  labelNames : ∀ label ∈ sample.labels, isName false label.1 = true
  distinct : (sample.labels.map Prod.fst).Nodup
  value : IsWord sample.value ∧ (readNumber sample.value).isSome = true
  timestamp : ∀ stamp ∈ sample.timestamp, IsWord stamp ∧ (readInteger stamp).isSome = true

/-! ### Lines read back -/

section

variable {name doc rest : List Char} {label : List Char × List Char}
  {labels : List (List Char × List Char)}

theorem readKind_text (kind : Kind) : readKind kind.text = some kind := by
  cases kind <;> decide

private theorem not_blank_of_continues {colons : Bool} {c : Char}
    (continues : continuesName colons c = true) :
    isBlank c = false := by
  by_contra blank
  rw [Bool.not_eq_false, isBlank, Bool.or_eq_true, beq_iff_eq, beq_iff_eq] at blank
  rcases blank with rfl | rfl
  · cases colons <;> cases continues
  · cases colons <;> cases continues

private theorem skip_name {colons : Bool} (isName' : isName colons name = true) :
    skip (name ++ rest) = name ++ rest := by
  obtain ⟨c, more, rfl, opens⟩ := head_of_isName isName'
  apply skip_of_head
  intro first head
  obtain rfl : c = first := Option.some.inj head
  exact not_blank_of_continues (continues_of_isName isName' c List.mem_cons_self)

private theorem readLabel_print (named : isName false label.1 = true) (rest : List Char) :
    readLabel (printLabel label ++ rest) = some (label, rest) := by
  have split : printLabel label ++ rest =
      label.1 ++ '=' :: '"' :: (escaped true label.2 ++ '"' :: rest) := by
    simp [printLabel]
  unfold readLabel
  rw [split, skip_name named, readName_append named (by simp [continuesName, opensName])]
  show (readQuoted (escaped true label.2 ++ '"' :: rest)).map _ = _
  rw [readQuoted_escaped]
  rfl

private theorem head_printLabel (named : isName false label.1 = true) :
    ∃ c more, printLabel label = c :: more ∧ isBlank c = false ∧ c ≠ '\x7d' := by
  obtain ⟨c, more, begins, opens⟩ := head_of_isName named
  refine ⟨c, more ++ '=' :: '"' :: (escaped true label.2 ++ ['"']), by rw [printLabel, begins]; rfl,
    @not_blank_of_continues false c (by simp [continuesName, opens]), ?_⟩
  rintro rfl
  cases opens

/-- A nonempty list of labels is read from its first label on. -/
theorem readLabels_cons (named : isName false label.1 = true) (left : ℕ) (rest : List Char) :
    readLabels (left + 1) (printLabel label ++ rest) =
      match skip rest with
      | '\x7d' :: rest => some ([label], rest)
      | ',' :: rest => (readLabels left rest).map fun later => (label :: later.1, later.2)
      | _ => none := by
  obtain ⟨c, more, begins, unblank, brace⟩ := head_printLabel named
  have starts : skip (printLabel label ++ rest) = printLabel label ++ rest := by
    rw [begins]
    exact skip_of_head (by rintro _ ⟨rfl⟩; exact unblank)
  have read := readLabel_print named rest
  rw [readLabels, starts]
  split
  next same =>
    rw [begins] at same
    injection same with first _
    exact absurd first brace
  next =>
    rw [read]
    rfl

private theorem printLabels_singleton (label : List Char × List Char) :
    printLabels [label] = printLabel label := by
  simp [printLabels, List.intercalate]

private theorem printLabels_cons_cons (label second : List Char × List Char)
    (others : List (List Char × List Char)) :
    printLabels (label :: second :: others) =
      printLabel label ++ ',' :: printLabels (second :: others) := by
  simp [printLabels, List.intercalate]

theorem readLabels_print (named : ∀ label ∈ labels, isName false label.1 = true) {left : ℕ}
    (enough : labels.length < left) (rest : List Char) :
    readLabels left (printLabels labels ++ '\x7d' :: rest) = some (labels, rest) := by
  obtain ⟨left, rfl⟩ : ∃ before, left = before + 1 := ⟨left - 1, by omega⟩
  induction labels generalizing left with
  | nil => rfl
  | cons label later ih =>
      have first := named label List.mem_cons_self
      cases later with
      | nil =>
          rw [printLabels_singleton, readLabels_cons first]
          rfl
      | cons second others =>
          simp only [List.length_cons] at enough ih
          obtain ⟨left, rfl⟩ : ∃ before, left = before + 1 := ⟨left - 1, by omega⟩
          have behind := ih (fun other member => named other (List.mem_cons_of_mem label member)) left
            (by omega)
          rw [printLabels_cons_cons, List.append_assoc, List.cons_append, readLabels_cons first]
          show (readLabels (left + 1) _).map _ = _
          rw [behind]
          rfl

private theorem length_printLabels (labels : List (List Char × List Char)) :
    labels.length ≤ (printLabels labels).length := by
  induction labels with
  | nil => exact Nat.zero_le _
  | cons label later ih =>
      have own : 1 ≤ (printLabel label).length := by
        rw [printLabel, List.length_append, List.length_cons]
        omega
      cases later with
      | nil =>
          rw [printLabels_singleton, List.length_singleton]
          exact own
      | cons second others =>
          rw [printLabels_cons_cons, List.length_append]
          simp only [List.length_cons] at ih ⊢
          omega

private theorem words_values {value : List Char} {stamp : Option (List Char)}
    (isValue : IsWord value) (isStamp : ∀ word ∈ stamp, IsWord word) :
    words (' ' :: (value ++ printTimestamp stamp)) = value :: stamp.toList := by
  cases stamp with
  | none =>
      rw [printTimestamp, List.append_nil]
      exact words_blank_word isValue
  | some word => exact words_blank_pair isValue (isStamp word rfl)

theorem readSample_print {sample : Sample} (wellFormed : sample.WellFormed) :
    readSample sample.print = some sample := by
  obtain ⟨name, labels, value, stamp⟩ := sample
  have named : readName true (Sample.print ⟨name, labels, value, stamp⟩) = some (name,
      '\x7b' :: (printLabels labels ++ '\x7d' :: ' ' :: (value ++ printTimestamp stamp))) :=
    readName_append wellFormed.name (by simp [continuesName, opensName])
  have labelled : readLabelSet ('\x7b' :: (printLabels labels ++
      '\x7d' :: ' ' :: (value ++ printTimestamp stamp))) =
        some (labels, ' ' :: (value ++ printTimestamp stamp)) := by
    apply readLabels_print wellFormed.labelNames
    have shorter := length_printLabels labels
    have whole : (printLabels labels).length ≤ (printLabels labels ++
        '\x7d' :: ' ' :: (value ++ printTimestamp stamp)).length := by
      rw [List.length_append]
      exact Nat.le_add_right _ _
    exact Nat.lt_succ_of_le (shorter.trans whole)
  have valued := words_values wellFormed.value.1 fun word some => (wellFormed.timestamp word some).1
  have stamped : readTimestamp stamp.toList = some stamp := by
    cases stamp with
    | none => rfl
    | some word => exact if_pos (wellFormed.timestamp word rfl).2
  simp only [readSample, named, labelled, valued, Option.bind_some, stamped, Option.map_some]
  exact if_pos ⟨wellFormed.distinct, wellFormed.value.2⟩

theorem readLine_sample {sample : Sample} (wellFormed : sample.WellFormed) :
    readLine sample.print = some (.sample sample) := by
  obtain ⟨c, more, begins, opens⟩ := head_of_isName wellFormed.name
  have starts : sample.print = c :: (more ++ '\x7b' :: (printLabels sample.labels ++
      '\x7d' :: ' ' :: (sample.value ++ printTimestamp sample.timestamp))) := by
    rw [Sample.print, begins]
    rfl
  have read := readSample_print wellFormed
  unfold readLine
  rw [show skip sample.print = sample.print from skip_name wellFormed.name]
  split
  next none =>
    rw [starts] at none
    cases none
  next comment =>
    rw [starts] at comment
    injection comment with first _
    subst first
    cases opens
  next =>
    rw [read]
    rfl

private theorem readLine_comment (text : List Char) :
    readLine ('#' :: text) = readComment text := by
  have starts : skip ('#' :: text) = '#' :: text := by simp [skip, isBlank]
  unfold readLine
  rw [starts]
  rfl

/-- The keyword of a comment, and what stands behind it. -/
theorem keyword_of_comment {keyword : List Char} (plain : keyword.all fun c => !isBlank c)
    (nonempty : keyword ≠ []) (text : List Char) :
    (skip (' ' :: (keyword ++ ' ' :: text))).takeWhile (fun c => !isBlank c) = keyword ∧
      (skip (' ' :: (keyword ++ ' ' :: text))).dropWhile (fun c => !isBlank c) = ' ' :: text := by
  have passes := List.all_eq_true.mp plain
  have starts : skip (keyword ++ ' ' :: text) = keyword ++ ' ' :: text := by
    obtain ⟨c, more, rfl⟩ := List.exists_cons_of_ne_nil nonempty
    apply skip_of_head
    rintro _ ⟨rfl⟩
    simpa using passes c List.mem_cons_self
  rw [skip_blank, starts, List.takeWhile_append_of_pos passes, List.dropWhile_append_of_pos passes]
  simp [isBlank]

private theorem skip_escaped (head : ∀ c ∈ doc.head?, isBlank c = false) :
    skip (escaped false doc) = escaped false doc := by
  cases doc with
  | nil => rfl
  | cons c more =>
      have own := head c rfl
      apply skip_of_head
      intro first isFirst
      have split : escaped false (c :: more) = escape false c ++ escaped false more := rfl
      rw [split] at isFirst
      unfold escape at isFirst
      split at isFirst
      · cases isFirst
        rfl
      · split at isFirst
        · cases isFirst
          rfl
        · cases isFirst
          exact own

theorem readLine_help (named : isName true name = true) (head : ∀ c ∈ doc.head?, isBlank c = false) :
    readLine (printHelp name doc) = some (.help name doc) := by
  obtain ⟨keyword, rest⟩ := @keyword_of_comment helpKeyword (by decide) (by decide)
    (name ++ ' ' :: escaped false doc)
  have read : readName true (name ++ ' ' :: escaped false doc) =
      some (name, ' ' :: escaped false doc) :=
    readName_append named (by simp [continuesName, opensName])
  unfold printHelp
  rw [readLine_comment]
  unfold readComment
  rw [keyword, rest, if_pos rfl, skip_blank, skip_name named, read, Option.bind_some,
    if_pos (show ended (' ' :: escaped false doc) = true from rfl), skip_blank, skip_escaped head,
    readDoc_escaped]
  rfl

theorem readLine_kind (named : isName true name = true) (kind : Kind) :
    readLine (printKind name kind) = some (.kind name kind) := by
  obtain ⟨keyword, rest⟩ := @keyword_of_comment typeKeyword (by decide) (by decide)
    (name ++ ' ' :: kind.text)
  have read : readName true (name ++ ' ' :: kind.text) = some (name, ' ' :: kind.text) :=
    readName_append named (by simp [continuesName, opensName])
  have word : words (' ' :: kind.text) = [kind.text] := by
    cases kind <;> decide
  unfold printKind
  rw [readLine_comment]
  unfold readComment
  rw [keyword, rest, if_neg (by decide), if_pos rfl, skip_blank, skip_name named, read,
    Option.bind_some]
  simp only [word, readKind_text]
  rfl

end

/-! ### Lines of a text -/

private theorem newline_notMem_name {colons : Bool} {name : List Char}
    (named : isName colons name = true) :
    '\n' ∉ name := by
  intro member
  have continues := continues_of_isName named '\n' member
  cases colons <;> cases continues

theorem newline_notMem_help {name : List Char} (named : isName true name = true) (doc : List Char) :
    '\n' ∉ printHelp name doc := by
  have keyword : '\n' ∉ helpKeyword := by decide
  simp [printHelp, keyword, newline_notMem_name named, newline_notMem_escaped]

theorem newline_notMem_kind {name : List Char} (named : isName true name = true) (kind : Kind) :
    '\n' ∉ printKind name kind := by
  have keyword : '\n' ∉ typeKeyword := by decide
  have word : '\n' ∉ kind.text := by
    cases kind <;> decide
  simp [printKind, keyword, word, newline_notMem_name named]

private theorem newline_notMem_labels {labels : List (List Char × List Char)}
    (named : ∀ label ∈ labels, isName false label.1 = true) : '\n' ∉ printLabels labels := by
  have single : ∀ label ∈ labels, '\n' ∉ printLabel label := by
    intro label member
    simp [printLabel, newline_notMem_name (named label member), newline_notMem_escaped]
  clear named
  induction labels with
  | nil => simp [printLabels, List.intercalate]
  | cons label later ih =>
      have own := single label List.mem_cons_self
      have rest := ih fun other member => single other (List.mem_cons_of_mem label member)
      cases later with
      | nil =>
          rw [printLabels_singleton]
          exact own
      | cons second others =>
          rw [printLabels_cons_cons]
          simp [own, rest]

theorem newline_notMem_sample {sample : Sample} (wellFormed : sample.WellFormed) :
    '\n' ∉ sample.print := by
  have value : '\n' ∉ sample.value := fun member => (wellFormed.value.1.2 '\n' member).2 rfl
  have stamp : '\n' ∉ printTimestamp sample.timestamp := by
    cases stamped : sample.timestamp with
    | none => simp [printTimestamp]
    | some word =>
        intro member
        rcases List.mem_cons.mp member with same | inside
        · cases same
        · exact ((wellFormed.timestamp word stamped).1.2 '\n' inside).2 rfl
  simp [Sample.print, newline_notMem_name wellFormed.name,
    newline_notMem_labels wellFormed.labelNames, value, stamp]

/-- A text is read back as the lines that it was put together from. -/
theorem readLines_flatMap {lines : List (List Char)} (single : ∀ line ∈ lines, '\n' ∉ line) :
    readLines (lines.flatMap (· ++ ['\n'])) = some lines := by
  have split : (lines.flatMap (· ++ ['\n'])).splitOn '\n' = lines ++ [[]] := by
    induction lines with
    | nil => rfl
    | cons line later ih =>
        have own := single line List.mem_cons_self
        have rest := ih fun other member => single other (List.mem_cons_of_mem line member)
        have whole : line.splitOn '\n' = [line] := by
          apply List.splitOnP_eq_singleton
          intro c member
          simpa using fun same : c = '\n' => own (same ▸ member)
        rw [List.flatMap_cons, List.append_assoc, List.singleton_append,
          List.splitOn_append_cons_self, rest, whole]
        rfl
  unfold readLines
  rw [split]
  simp

end Ratewall.Foundation.Exposition
