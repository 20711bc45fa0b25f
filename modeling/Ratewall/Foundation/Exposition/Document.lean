import Mathlib.Data.List.Nodup
import Mathlib.Data.List.Pairwise
import Ratewall.Foundation.Exposition.Line

/-! Owns documents of the Prometheus text format: the lines about one metric follow one
another, its docstring and its kind come once and before its samples, and no series comes
twice. A document that keeps to this is read back from its text. What a histogram's buckets
have to do with its count is not owned here. -/

namespace Ratewall.Foundation.Exposition

/-- The same metric with the same labels, in whichever order. -/
def Sample.Same (first second : Sample) : Prop :=
  first.name = second.name ∧ first.labels.Perm second.labels

instance (first second : Sample) : Decidable (first.Same second) :=
  inferInstanceAs (Decidable (_ ∧ _))

instance : Std.Symm fun first second : Sample => ¬ first.Same second where
  symm _ _ apart back := apart ⟨back.1.symm, back.2.symm⟩

structure Family where
  name : List Char
  help : Option (List Char)
  kind : Option Kind
  samples : List Sample
deriving DecidableEq, Repr

/-- What may follow the name of the family in the names of its samples. -/
def suffixes : Option Kind → List (List Char)
  | some .histogram => ["_bucket".toList, "_sum".toList, "_count".toList]
  | some .summary => ["_sum".toList, "_count".toList]
  | _ => []

/-- The metrics that belong to the family. -/
def Family.names (family : Family) : List (List Char) :=
  family.name :: (suffixes family.kind).map (family.name ++ ·)

def Family.owns (family : Family) (name : List Char) : Bool := family.names.contains name

def Family.fresh (name : List Char) : Family := ⟨name, none, none, []⟩

/-! ### Reading -/

/-- The family that a line about this metric belongs to, and those that are complete. The
latest family stands first, and only it can go on. -/
def groupOf (families : List Family) (name : List Char) : Option (Family × List Family) :=
  match families with
  | [] => some (.fresh name, [])
  | latest :: done =>
      if done.any (·.owns name) then none
      else if latest.owns name then some (latest, done)
      else some (.fresh name, latest :: done)

def extend (families : List Family) : Line → Option (List Family)
  | .nothing => some families
  | .help name doc =>
      (groupOf families name).bind fun group =>
        if group.1.name = name ∧ group.1.help = none ∧ group.1.samples = [] then
          some ({ group.1 with help := some doc } :: group.2)
        else none
  | .kind name kind =>
      (groupOf families name).bind fun group =>
        if group.1.name = name ∧ group.1.kind = none ∧ group.1.samples = [] then
          some ({ group.1 with kind := some kind } :: group.2)
        else none
  | .sample sample =>
      (groupOf families sample.name).bind fun group =>
        if group.1.samples.any (fun other => decide (other.Same sample)) then none
        else some ({ group.1 with samples := group.1.samples ++ [sample] } :: group.2)

def extendLine (families : List Family) (line : List Char) : Option (List Family) :=
  (readLine line).bind (extend families)

def parse (text : List Char) : Option (List Family) :=
  (readLines text).bind fun lines => (lines.foldlM extendLine []).map List.reverse

/-! ### Writing -/

def Family.lines (family : Family) : List (List Char) :=
  (family.help.map (printHelp family.name)).toList ++
    ((family.kind.map (printKind family.name)).toList ++ family.samples.map Sample.print)

def print (families : List Family) : List Char :=
  (families.flatMap Family.lines).flatMap (· ++ ['\n'])

structure Family.WellFormed (family : Family) : Prop where
  name : isName true family.name = true
  help : ∀ doc ∈ family.help, ∀ c ∈ doc.head?, isBlank c = false
  samples : ∀ sample ∈ family.samples, sample.WellFormed
  owned : ∀ sample ∈ family.samples, family.owns sample.name = true
  distinct : family.samples.Pairwise fun first second => ¬ first.Same second
  begun : family ≠ .fresh family.name

structure WellFormed (families : List Family) : Prop where
  each : ∀ family ∈ families, family.WellFormed
  apart : (families.flatMap Family.names).Nodup

/-! ### One line after another -/

/-- The families so far, with one of which perhaps nothing has been read yet. -/
def opened (family : Family) (done : List Family) : List Family :=
  if family = .fresh family.name then done else family :: done

section

variable {family : Family} {done : List Family} {name : List Char}

theorem owns_iff : family.owns name = true ↔ name ∈ family.names := List.contains_iff_mem

private theorem owns_name (family : Family) : family.owns family.name = true :=
  owns_iff.mpr List.mem_cons_self

private theorem groupOf_opened (apart : ∀ other ∈ done, other.owns name = false)
    (owned : family.owns name = true) : groupOf (opened family done) name = some (family, done) := by
  have unowned : done.any (·.owns name) = false := by
    rw [List.any_eq_false]
    intro other member
    simp [apart other member]
  unfold opened
  split
  next bare =>
    have named : name = family.name := by
      rw [bare] at owned
      simpa [Family.owns, Family.names, Family.fresh, suffixes] using owned
    have same : Family.fresh name = family := by rw [named, ← bare]
    cases done with
    | nil => rw [groupOf, same]
    | cons latest done =>
        rw [List.any_cons, Bool.or_eq_false_iff] at unowned
        rw [groupOf, unowned.2, unowned.1, same]
        rfl
  next =>
    rw [groupOf, unowned, owned]
    rfl

private theorem opened_of_ne (begun : family ≠ .fresh family.name) :
    opened family done = family :: done :=
  if_neg begun

variable {help : Option (List Char)} {kind : Option Kind} {samples : List Sample}

private theorem foldlM_help (named : isName true name = true)
    (apart : ∀ other ∈ done, other.owns name = false)
    (head : ∀ doc ∈ help, ∀ c ∈ doc.head?, isBlank c = false) :
    (help.map (printHelp name)).toList.foldlM extendLine (opened ⟨name, none, none, []⟩ done) =
      some (opened ⟨name, help, none, []⟩ done) := by
  cases help with
  | none => rfl
  | some doc =>
      have group := groupOf_opened apart (owns_name ⟨name, none, none, []⟩)
      have added : extendLine (opened ⟨name, none, none, []⟩ done) (printHelp name doc) =
          some (opened ⟨name, some doc, none, []⟩ done) := by
        unfold extendLine
        rw [readLine_help named (head doc rfl), Option.bind_some, extend, group, Option.bind_some,
          if_pos ⟨rfl, rfl, rfl⟩, opened_of_ne (by simp [Family.fresh])]
      rw [Option.map_some, Option.toList_some, List.foldlM_cons, added]
      rfl

private theorem foldlM_kind (named : isName true name = true)
    (apart : ∀ other ∈ done, other.owns name = false) :
    (kind.map (printKind name)).toList.foldlM extendLine (opened ⟨name, help, none, []⟩ done) =
      some (opened ⟨name, help, kind, []⟩ done) := by
  cases kind with
  | none => rfl
  | some kind =>
      have group := groupOf_opened apart (owns_name ⟨name, help, none, []⟩)
      have added : extendLine (opened ⟨name, help, none, []⟩ done) (printKind name kind) =
          some (opened ⟨name, help, some kind, []⟩ done) := by
        unfold extendLine
        rw [readLine_kind named kind, Option.bind_some, extend, group, Option.bind_some,
          if_pos ⟨rfl, rfl, rfl⟩, opened_of_ne (by simp [Family.fresh])]
      rw [Option.map_some, Option.toList_some, List.foldlM_cons, added]
      rfl

private theorem foldlM_samples {earlier : List Sample}
    (wellFormed : ∀ sample ∈ samples, sample.WellFormed)
    (owned : ∀ sample ∈ samples, Family.owns ⟨name, help, kind, []⟩ sample.name = true)
    (apart : ∀ sample ∈ samples, ∀ other ∈ done, other.owns sample.name = false)
    (distinct : (earlier ++ samples).Pairwise fun first second => ¬ first.Same second) :
    (samples.map Sample.print).foldlM extendLine (opened ⟨name, help, kind, earlier⟩ done) =
      some (opened ⟨name, help, kind, earlier ++ samples⟩ done) := by
  induction samples generalizing earlier with
  | nil =>
      rw [List.append_nil]
      rfl
  | cons sample later ih =>
      have group := @groupOf_opened ⟨name, help, kind, earlier⟩ done sample.name
        (apart sample List.mem_cons_self) (owned sample List.mem_cons_self)
      have read := readLine_sample (wellFormed sample List.mem_cons_self)
      have new : ¬ earlier.any (fun other => decide (other.Same sample)) = true := by
        rw [List.any_eq_true]
        rintro ⟨other, member, same⟩
        exact (List.pairwise_append.mp distinct).2.2 other member sample List.mem_cons_self
          (of_decide_eq_true same)
      have added : extendLine (opened ⟨name, help, kind, earlier⟩ done) sample.print =
          some (opened ⟨name, help, kind, earlier ++ [sample]⟩ done) := by
        unfold extendLine
        rw [read, Option.bind_some, extend, group, Option.bind_some, if_neg new,
          opened_of_ne (by simp [Family.fresh])]
      rw [List.append_cons] at distinct ⊢
      rw [List.map_cons, List.foldlM_cons, added]
      exact ih (fun other member => wellFormed other (List.mem_cons_of_mem sample member))
        (fun other member => owned other (List.mem_cons_of_mem sample member))
        (fun other member => apart other (List.mem_cons_of_mem sample member)) distinct

/-- The lines of a family add it to those before. -/
theorem foldlM_family (wellFormed : family.WellFormed)
    (apart : ∀ other ∈ done, ∀ name, family.owns name = true → other.owns name = false) :
    family.lines.foldlM extendLine done = some (family :: done) := by
  have own : ∀ other ∈ done, other.owns family.name = false :=
    fun other member => apart other member family.name (owns_name family)
  have bare : opened ⟨family.name, none, none, []⟩ done = done := if_pos rfl
  have helped := @foldlM_help done family.name family.help wellFormed.name own wellFormed.help
  have kinded := @foldlM_kind done family.name family.help family.kind wellFormed.name own
  have sampled := @foldlM_samples done family.name family.help family.kind family.samples []
    wellFormed.samples wellFormed.owned
    (fun sample member other before =>
      apart other before sample.name (wellFormed.owned sample member)) wellFormed.distinct
  rw [bare] at helped
  rw [List.nil_append, opened_of_ne wellFormed.begun] at sampled
  rw [Family.lines, List.foldlM_append, helped, Option.bind_eq_bind, Option.bind_some,
    List.foldlM_append, kinded, Option.bind_eq_bind, Option.bind_some]
  exact sampled

end

/-! ### Documents -/

section

variable {families : List Family}

private theorem WellFormed.disjoint (wellFormed : WellFormed families) :
    families.Pairwise fun first second => ∀ name, second.owns name = true → first.owns name = false := by
  apply (List.nodup_flatMap.mp wellFormed.apart).2.imp
  intro first second apart name owned
  by_contra shared
  rw [Bool.not_eq_false] at shared
  exact apart (owns_iff.mp shared) (owns_iff.mp owned)

theorem foldlM_families {done : List Family} (each : ∀ family ∈ families, family.WellFormed)
    (apart : (done.reverse ++ families).Pairwise fun first second =>
      ∀ name, second.owns name = true → first.owns name = false) :
    (families.flatMap Family.lines).foldlM extendLine done = some (families.reverse ++ done) := by
  induction families generalizing done with
  | nil => rfl
  | cons family later ih =>
      have before : ∀ other ∈ done, ∀ name, family.owns name = true → other.owns name = false := by
        intro other member
        exact (List.pairwise_append.mp apart).2.2 other (List.mem_reverse.mpr member) family
          List.mem_cons_self
      have added := foldlM_family (each family List.mem_cons_self) before
      rw [List.append_cons, ← List.reverse_cons] at apart
      rw [List.flatMap_cons, List.foldlM_append, added, Option.bind_eq_bind, Option.bind_some,
        ih (fun other member => each other (List.mem_cons_of_mem family member)) apart]
      simp

private theorem newline_notMem_lines (wellFormed : ∀ family ∈ families, family.WellFormed) :
    ∀ line ∈ families.flatMap Family.lines, '\n' ∉ line := by
  intro line member
  obtain ⟨family, inside, isLine⟩ := List.mem_flatMap.mp member
  have own := wellFormed family inside
  simp only [Family.lines, List.mem_append, Option.mem_toList, Option.map_eq_some_iff,
    List.mem_map] at isLine
  rcases isLine with ⟨doc, -, rfl⟩ | ⟨kind, -, rfl⟩ | ⟨sample, isSample, rfl⟩
  · exact newline_notMem_help own.name doc
  · exact newline_notMem_kind own.name kind
  · exact newline_notMem_sample (own.samples sample isSample)

/-- A document is read back from its text. -/
theorem parse_print (wellFormed : WellFormed families) : parse (print families) = some families := by
  have read := @foldlM_families families [] wellFormed.each wellFormed.disjoint
  unfold parse print
  rw [readLines_flatMap (newline_notMem_lines wellFormed.each), Option.bind_some, read]
  simp

/-! ### Looking a series up -/

def samplesOf (families : List Family) : List Sample := families.flatMap Family.samples

/-- The value of a series. -/
def lookup (families : List Family) (name : List Char) (labels : List (List Char × List Char)) :
    Option Number :=
  ((samplesOf families).find? fun sample => sample.name = name ∧ sample.labels.Perm labels).bind
    fun sample => readNumber sample.value

theorem distinct_samplesOf (wellFormed : WellFormed families) :
    (samplesOf families).Pairwise fun first second => ¬ first.Same second := by
  unfold samplesOf
  rw [List.pairwise_flatMap]
  refine ⟨fun family member => (wellFormed.each family member).distinct, ?_⟩
  apply wellFormed.disjoint.imp_of_mem
  intro first second isFirst isSecond apart sample inFirst other inSecond same
  have owned := (wellFormed.each first isFirst).owned sample inFirst
  have foreign := apart other.name ((wellFormed.each second isSecond).owned other inSecond)
  rw [← same.1, owned] at foreign
  cases foreign

/-- A lookup finds the sample that is there. -/
theorem lookup_of_mem (distinct : (samplesOf families).Pairwise fun first second => ¬ first.Same second)
    {sample : Sample} (member : sample ∈ samplesOf families) :
    lookup families sample.name sample.labels = readNumber sample.value := by
  unfold lookup
  obtain ⟨found, isFound⟩ : ∃ found, (samplesOf families).find? (fun other =>
      other.name = sample.name ∧ other.labels.Perm sample.labels) = some found := by
    rw [← Option.isSome_iff_exists, List.find?_isSome]
    exact ⟨sample, member, by simp⟩
  have same : found.Same sample := by simpa [Sample.Same] using List.find?_some isFound
  have inside := List.mem_of_find?_eq_some isFound
  have equal : found = sample := by
    by_contra differs
    exact distinct.forall inside member differs same
  rw [isFound, equal]
  rfl

/-- A lookup finds nothing where there is no sample. -/
theorem lookup_of_absent {name : List Char} {labels : List (List Char × List Char)}
    (absent : ∀ sample ∈ samplesOf families,
      ¬(sample.name = name ∧ sample.labels.Perm labels)) :
    lookup families name labels = none := by
  unfold lookup
  rw [List.find?_eq_none.mpr]
  · rfl
  · intro sample member
    simpa using absent sample member

end

end Ratewall.Foundation.Exposition
