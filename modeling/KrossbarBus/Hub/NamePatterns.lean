import KrossbarBus.Hub.NameMatching

namespace KrossbarHub

/-- The sections of the pattern grammar: a text without asterisks, `*` or `**`. -/
def PatternSection (section_string : String) : Prop :=
  section_string ≠ "" ∧
    ('*' ∉ section_string.toList ∨ section_string = "*" ∨ section_string = "**")

def NameSectionPattern.written : NameSectionPattern → String
  | .anyName => "*"
  | .anySections => "**"
  | .name string => string

def NameSectionPattern.IsWildcard (pattern : NameSectionPattern) : Prop :=
  pattern = .anyName ∨ pattern = .anySections

/-- The sections of a pattern written back and joined with dots. -/
def NamePattern.written (pattern : NamePattern) : String :=
  ".".intercalate (pattern.section_patterns.map NameSectionPattern.written)

theorem splitOnChar_join (string : String) : ".".intercalate (splitOnChar string '.') = string := by
  apply String.toList_injective
  rw [String.toList_intercalate]
  have pieces : (splitOnChar string '.').map String.toList = string.toList.splitOn '.' := by
    simp [splitOnChar, Function.comp_def]
  rw [pieces]
  exact List.intercalate_splitOn '.'

theorem splitOnChar_injective {string other : String}
    (same : splitOnChar string '.' = splitOnChar other '.') : string = other := by
  rw [← splitOnChar_join string, same, splitOnChar_join]

theorem section_fromString_ok {section_string : String} {pattern : NameSectionPattern}
    (parsed : NameSectionPattern.fromString section_string = .ok pattern) :
    PatternSection section_string ∧ pattern.written = section_string := by
  unfold NameSectionPattern.fromString at parsed
  split at parsed
  next => cases parsed
  next nonempty =>
    split at parsed
    next asterisk =>
      split at parsed
      next star =>
        cases parsed
        exact ⟨⟨nonempty, .inr (.inl star)⟩, star.symm⟩
      next =>
        split at parsed
        next stars =>
          cases parsed
          exact ⟨⟨nonempty, .inr (.inr stars)⟩, stars.symm⟩
        next => cases parsed
    next plain =>
      cases parsed
      exact ⟨⟨nonempty, .inl plain⟩, rfl⟩

theorem section_fromString_accepts {section_string : String} (grammar : PatternSection section_string) :
    ∃ pattern, NameSectionPattern.fromString section_string = .ok pattern := by
  obtain ⟨nonempty, plain | rfl | rfl⟩ := grammar
  · exact ⟨.name section_string, by simp [NameSectionPattern.fromString, nonempty, plain]⟩
  · exact ⟨.anyName, by decide⟩
  · exact ⟨.anySections, by decide⟩

theorem sectionPatterns_ok {section_strings : List String} {patterns : List NameSectionPattern}
    (parsed : sectionPatterns section_strings = .ok patterns) :
    (∀ section_string ∈ section_strings, PatternSection section_string) ∧
      patterns.map NameSectionPattern.written = section_strings := by
  induction section_strings generalizing patterns with
  | nil =>
    cases parsed
    simp
  | cons section_string rest ih =>
    simp only [sectionPatterns] at parsed
    split at parsed
    next => cases parsed
    next pattern head =>
      split at parsed
      next => cases parsed
      next others tail =>
        cases parsed
        obtain ⟨grammar, written⟩ := section_fromString_ok head
        obtain ⟨grammars, restWritten⟩ := ih tail
        exact ⟨List.forall_mem_cons.mpr ⟨grammar, grammars⟩, by simp [written, restWritten]⟩

theorem sectionPatterns_accepts {section_strings : List String}
    (grammar : ∀ section_string ∈ section_strings, PatternSection section_string) :
    ∃ patterns, sectionPatterns section_strings = .ok patterns := by
  induction section_strings with
  | nil => exact ⟨[], rfl⟩
  | cons section_string rest ih =>
    obtain ⟨first, others⟩ := List.forall_mem_cons.mp grammar
    obtain ⟨pattern, head⟩ := section_fromString_accepts first
    obtain ⟨patterns, tail⟩ := ih others
    exact ⟨pattern :: patterns, by simp [sectionPatterns, head, tail]⟩

theorem fromString_ok {string : String} {pattern : NamePattern}
    (parsed : NamePattern.fromString string = .ok pattern) :
    sectionPatterns (splitOnChar string '.') = .ok pattern.section_patterns := by
  unfold NamePattern.fromString at parsed
  split at parsed
  next => cases parsed
  next patterns sections =>
    cases parsed
    exact sections

theorem fromString_accepts (string : String) :
    (∃ pattern, NamePattern.fromString string = .ok pattern) ↔
      ∀ section_string ∈ splitOnChar string '.', PatternSection section_string := by
  constructor
  · intro ⟨pattern, parsed⟩
    exact (sectionPatterns_ok (fromString_ok parsed)).1
  · intro grammar
    obtain ⟨patterns, sections⟩ := sectionPatterns_accepts grammar
    exact ⟨⟨patterns⟩, by simp [NamePattern.fromString, sections]⟩

theorem fromString_written {string : String} {pattern : NamePattern}
    (parsed : NamePattern.fromString string = .ok pattern) : pattern.written = string := by
  rw [NamePattern.written, (sectionPatterns_ok (fromString_ok parsed)).2, splitOnChar_join]

theorem fromString_injective {string other : String} {pattern : NamePattern}
    (parsed : NamePattern.fromString string = .ok pattern)
    (again : NamePattern.fromString other = .ok pattern) : other = string :=
  (fromString_written again).symm.trans (fromString_written parsed)

theorem plain_takes_group {pattern : NameSectionPattern} (plain : ¬ pattern.IsWildcard) (group : List String) :
    pattern.TakesGroup group ↔ group = [pattern.written] := by
  cases pattern with
  | anyName => exact absurd (.inl rfl) plain
  | anySections => exact absurd (.inr rfl) plain
  | name string => exact Iff.rfl

theorem plain_takes_groups {patterns : List NameSectionPattern}
    (plain : ∀ pattern ∈ patterns, ¬ pattern.IsWildcard) (groups : List (List String)) :
    List.Forall₂ NameSectionPattern.TakesGroup patterns groups ↔
      groups = patterns.map fun pattern => [pattern.written] := by
  induction patterns generalizing groups with
  | nil => simp
  | cons pattern rest ih =>
    obtain ⟨first, others⟩ := List.forall_mem_cons.mp plain
    cases groups with
    | nil => simp
    | cons group groups => simp [plain_takes_group first, ih others]

/-- Without wildcards each section of the pattern stands for itself. -/
theorem splits_of_plain {pattern : NamePattern} (plain : ∀ name ∈ pattern.section_patterns, ¬ name.IsWildcard)
    (service_name : String) :
    pattern.Splits service_name ↔
      pattern.section_patterns.map NameSectionPattern.written = splitOnChar service_name '.' := by
  have singletons : (pattern.section_patterns.map fun name => [name.written]).flatten =
      pattern.section_patterns.map NameSectionPattern.written := by
    rw [← List.flatMap_def, List.map_eq_flatMap]
  simp only [NamePattern.Splits, plain_takes_groups plain]
  constructor
  · intro ⟨groups, flat, same⟩
    rw [← singletons, ← same, flat]
  · intro same
    exact ⟨_, singletons.trans same, rfl⟩

theorem matches_of_plain {string : String} {pattern : NamePattern} (order : HashOrder)
    (parsed : NamePattern.fromString string = .ok pattern)
    (plain : ∀ name ∈ pattern.section_patterns, ¬ name.IsWildcard)
    {service_name : String} (valid : ¬ InvalidName service_name) :
    pattern.matches order service_name = some (.ok (decide (service_name = string))) := by
  obtain ⟨answer, matched, splits⟩ := matches_of_valid order pattern service_name valid
  have equal : pattern.Splits service_name ↔ service_name = string := by
    rw [splits_of_plain plain, (sectionPatterns_ok (fromString_ok parsed)).2]
    exact ⟨fun same => (splitOnChar_injective same).symm, fun same => by rw [same]⟩
  have decided : answer = decide (service_name = string) :=
    Bool.eq_iff_iff.mpr ((splits.trans equal).trans decide_eq_true_iff.symm)
  rw [matched, decided]

/-- The parser accepts exactly the grammar and loses nothing: what it parsed can be written back, so
    no two strings parse to one pattern, and a pattern without wildcards matches its own text only. -/
theorem from_string_grammar (string : String) :
    ((∃ pattern, NamePattern.fromString string = .ok pattern) ↔
      ∀ section_string ∈ splitOnChar string '.', section_string ≠ "" ∧
        ('*' ∉ section_string.toList ∨ section_string = "*" ∨ section_string = "**")) ∧
    ∀ pattern, NamePattern.fromString string = .ok pattern →
      pattern.written = string ∧
      (∀ other, NamePattern.fromString other = .ok pattern → other = string) ∧
      ((∀ name ∈ pattern.section_patterns, ¬ name.IsWildcard) →
        ∀ order service_name, ¬ InvalidName service_name →
          pattern.matches order service_name = some (.ok (decide (service_name = string)))) := by
  refine ⟨fromString_accepts string, fun pattern parsed => ⟨fromString_written parsed, ?_, ?_⟩⟩
  · intro other again
    exact fromString_injective parsed again
  · intro plain order service_name valid
    exact matches_of_plain order parsed plain valid

end KrossbarHub
