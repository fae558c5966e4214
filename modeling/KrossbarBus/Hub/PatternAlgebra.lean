import KrossbarBus.Hub.NamePatterns
import KrossbarBus.Hub.Sections
import KrossbarBus.Matching.Wildcards

namespace KrossbarHub

open Matching (Segment Cut)

variable {order : HashOrder} {left right service_name : String} {pattern other joined : NamePattern}
  {patterns others : List NameSectionPattern}

theorem matches_true_iff : pattern.matches order service_name = some (.ok true) ↔
    ¬ InvalidName service_name ∧ pattern.Splits service_name := by
  by_cases invalid : InvalidName service_name
  · obtain ⟨e, failed⟩ := matches_of_invalid order pattern service_name invalid
    simp [failed, invalid]
  · obtain ⟨answer, matched, splits⟩ := matches_of_valid order pattern service_name invalid
    rw [matched, ← splits]
    simp [invalid]

theorem dotted_sections (left right : String) :
    splitOnChar (left ++ "." ++ right) '.' = splitOnChar left '.' ++ splitOnChar right '.' :=
  splitOnChar_joined left right '.'

theorem invalid_dotted : InvalidName (left ++ "." ++ right) ↔ InvalidName left ∨ InvalidName right := by
  have asterisk : '*' ∈ (left ++ "." ++ right).toList ↔ '*' ∈ left.toList ∨ '*' ∈ right.toList := by simp
  unfold InvalidName
  rw [asterisk, dotted_sections, List.mem_append]
  tauto

theorem sectionPatterns_append {first second : List String} (parsed : sectionPatterns first = .ok patterns)
    (again : sectionPatterns second = .ok others) : sectionPatterns (first ++ second) = .ok (patterns ++ others) := by
  induction first generalizing patterns with
  | nil =>
    cases parsed
    exact again
  | cons section_string rest ih =>
    simp only [sectionPatterns] at parsed
    split at parsed
    next => cases parsed
    next pattern head =>
      split at parsed
      next => cases parsed
      next behind tail =>
        cases parsed
        simp only [List.cons_append, sectionPatterns, head, ih tail]

theorem fromString_dotted (parsed : NamePattern.fromString left = .ok pattern)
    (again : NamePattern.fromString right = .ok other) :
    NamePattern.fromString (left ++ "." ++ right) = .ok ⟨pattern.section_patterns ++ other.section_patterns⟩ := by
  unfold NamePattern.fromString
  rw [dotted_sections, sectionPatterns_append (fromString_ok parsed) (fromString_ok again)]

theorem section_patterns_ne_nil (parsed : NamePattern.fromString left = .ok pattern) :
    pattern.section_patterns ≠ [] := by
  have written := (sectionPatterns_ok (fromString_ok parsed)).2
  intro none
  rw [none] at written
  exact splitOnChar_ne_nil left '.' written.symm

theorem cut_ne_nil {word : List String} (some : patterns ≠ [])
    (cut : Cut (patterns.map NameSectionPattern.segment) word) : word ≠ [] := by
  rintro rfl
  cases patterns with
  | nil => exact some rfl
  | cons pattern rest => exact Matching.cut_cons_nil cut

theorem splits_dotted (first : pattern.section_patterns ≠ []) (second : other.section_patterns ≠ []) :
    NamePattern.Splits ⟨pattern.section_patterns ++ other.section_patterns⟩ service_name ↔
      ∃ front back, service_name = front ++ "." ++ back ∧ pattern.Splits front ∧ other.Splits back := by
  rw [splits_iff_cut, List.map_append, Matching.cut_append]
  constructor
  · intro ⟨front, back, split, frontCut, backCut⟩
    obtain ⟨left, right, same, fronts, backs⟩ :=
      splitOnChar_cut split (cut_ne_nil first frontCut) (cut_ne_nil second backCut)
    refine ⟨left, right, same, ?_, ?_⟩
    · rw [splits_iff_cut, fronts]
      exact frontCut
    · rw [splits_iff_cut, backs]
      exact backCut
  · intro ⟨front, back, same, frontSplits, backSplits⟩
    rw [same, dotted_sections]
    exact ⟨_, _, rfl, (splits_iff_cut _ _).mp frontSplits, (splits_iff_cut _ _).mp backSplits⟩

/-- A pattern that is joined of two with a dot matches the names that are joined of two that these match. -/
theorem patterns_compose (parsed : NamePattern.fromString left = .ok pattern)
    (again : NamePattern.fromString right = .ok other) :
    ∃ joined, NamePattern.fromString (left ++ "." ++ right) = .ok joined ∧
      ∀ order service_name, joined.matches order service_name = some (.ok true) ↔
        ∃ front back, service_name = front ++ "." ++ back ∧ pattern.matches order front = some (.ok true) ∧
          other.matches order back = some (.ok true) := by
  refine ⟨_, fromString_dotted parsed again, fun order service_name => ?_⟩
  rw [matches_true_iff, splits_dotted (section_patterns_ne_nil parsed) (section_patterns_ne_nil again)]
  simp only [matches_true_iff]
  constructor
  · intro ⟨valid, front, back, same, frontSplits, backSplits⟩
    rw [same, invalid_dotted, not_or] at valid
    exact ⟨front, back, same, ⟨valid.1, frontSplits⟩, valid.2, backSplits⟩
  · intro ⟨front, back, same, ⟨frontValid, frontSplits⟩, backValid, backSplits⟩
    refine ⟨?_, front, back, same, frontSplits, backSplits⟩
    rw [same, invalid_dotted, not_or]
    exact ⟨frontValid, backValid⟩

theorem patterns_compose_wildcard : ∃ joined, NamePattern.fromString "com.a.**" = .ok joined ∧
    ∀ order service_name, joined.matches order service_name = some (.ok true) ↔
      ∃ front back, service_name = front ++ "." ++ back ∧
        (NamePattern.mk [.name "com", .name "a"]).matches order front = some (.ok true) ∧
        (NamePattern.mk [.anySections]).matches order back = some (.ok true) := by
  have joined := @patterns_compose "com.a" "**" ⟨[.name "com", .name "a"]⟩ ⟨[.anySections]⟩ (by decide +kernel)
    (by decide +kernel)
  exact joined

/-- The edits of a pattern that are meant to let more names in: a name becomes `*`, a part of the pattern becomes
    `**`, and a run of wildcards is written another way, with no `**` lost. -/
inductive Widens : List NameSectionPattern → List NameSectionPattern → Prop
  | same (patterns : List NameSectionPattern) : Widens patterns patterns
  | anyName (front back : List NameSectionPattern) (string : String) :
      Widens (front ++ .name string :: back) (front ++ .anyName :: back)
  | anySections (front part back : List NameSectionPattern) (nonempty : part ≠ []) :
      Widens (front ++ (part ++ back)) (front ++ .anySections :: back)
  | wildcards (front run other back : List NameSectionPattern) (wild : ∀ pattern ∈ run, pattern.IsWildcard)
      (wilder : ∀ pattern ∈ other, pattern.IsWildcard) (length : other.length = run.length)
      (repeats : .anySections ∈ run → .anySections ∈ other) :
      Widens (front ++ (run ++ back)) (front ++ (other ++ back))
  | trans {patterns middle others : List NameSectionPattern} (first : Widens patterns middle)
      (second : Widens middle others) : Widens patterns others

theorem segment_anything {section_pattern : NameSectionPattern} (wild : section_pattern.IsWildcard) :
    section_pattern.segment.Anything := by
  rcases wild with rfl | rfl
  · exact fun _ => trivial
  · exact fun _ => trivial

theorem segments_repeat (wild : ∀ pattern ∈ patterns, pattern.IsWildcard) :
    (patterns.map NameSectionPattern.segment).any Segment.repeats = true ↔ .anySections ∈ patterns := by
  rw [List.any_map, List.any_eq_true]
  constructor
  · intro ⟨pattern, member, repeats⟩
    rcases wild pattern member with rfl | rfl
    · cases repeats
    · exact member
  · intro member
    exact ⟨.anySections, member, rfl⟩

/-- A change within a pattern. -/
theorem cut_within {front part wider back : List NameSectionPattern} {word : List String}
    (takes : ∀ word, Cut (part.map NameSectionPattern.segment) word →
      Cut (wider.map NameSectionPattern.segment) word)
    (cut : Cut ((front ++ (part ++ back)).map NameSectionPattern.segment) word) :
    Cut ((front ++ (wider ++ back)).map NameSectionPattern.segment) word := by
  rw [List.map_append, List.map_append, Matching.cut_append] at cut ⊢
  obtain ⟨left, behind, split, leftCut, behindCut⟩ := cut
  obtain ⟨middle, right, divided, middleCut, rightCut⟩ := Matching.cut_append.mp behindCut
  exact ⟨left, behind, split, leftCut,
    Matching.cut_append.mpr ⟨middle, right, divided, takes middle middleCut, rightCut⟩⟩

theorem Widens.cut (widens : Widens patterns others) {word : List String}
    (cut : Cut (patterns.map NameSectionPattern.segment) word) :
    Cut (others.map NameSectionPattern.segment) word := by
  induction widens with
  | same => exact cut
  | anyName front back string =>
    refine @cut_within front [.name string] [.anyName] back word (fun group taken => ?_) cut
    obtain ⟨first, rest, split, ⟨x, same, _⟩, none⟩ := Matching.cut_cons.mp taken
    exact Matching.cut_cons.mpr ⟨first, rest, split, ⟨x, same, trivial⟩, none⟩
  | anySections front part back nonempty =>
    refine @cut_within front part [.anySections] back word (fun group taken => ?_) cut
    refine Matching.cut_cons.mpr ⟨group, [], (List.append_nil _).symm, ⟨?_, fun _ _ => trivial⟩,
      Matching.cut_nil.mpr rfl⟩
    exact cut_ne_nil nonempty taken
  | wildcards front run other back wild wilder length repeats =>
    refine cut_within (fun group taken => ?_) cut
    have anything : ∀ patterns : List NameSectionPattern, (∀ pattern ∈ patterns, pattern.IsWildcard) →
        ∀ segment ∈ patterns.map NameSectionPattern.segment, segment.Anything := by
      intro patterns wild segment member
      obtain ⟨pattern, inside, rfl⟩ := List.mem_map.mp member
      exact segment_anything (wild pattern inside)
    rw [Matching.cut_anything (anything run wild)] at taken
    rw [Matching.cut_anything (anything other wilder)]
    simp only [segments_repeat wild, segments_repeat wilder, List.length_map, length] at taken ⊢
    by_cases many : .anySections ∈ run
    · rw [if_pos many] at taken
      rw [if_pos (repeats many)]
      exact taken
    · rw [if_neg many] at taken
      split
      · exact Nat.le_of_eq taken.symm
      · exact taken
  | trans _ _ first second => exact second (first cut)

theorem Widens.splits (widens : Widens pattern.section_patterns other.section_patterns)
    (splits : pattern.Splits service_name) : other.Splits service_name :=
  (splits_iff_cut _ _).mpr (widens.cut ((splits_iff_cut _ _).mp splits))

end KrossbarHub
