import KrossbarBus.Hub.ServiceNames

namespace KrossbarHub

open Matching

/-- The groups of name sections that one section of a pattern stands for. -/
def NameSectionPattern.TakesGroup : NameSectionPattern → List String → Prop
  | .anyName, group => group.length = 1
  | .anySections, group => 1 ≤ group.length
  | .name string, group => group = [string]

/-- The name can be cut into consecutive groups, one for each section of the pattern in order. -/
def NamePattern.Splits (pattern : NamePattern) (service_name : String) : Prop :=
  ∃ groups : List (List String), groups.flatten = splitOnChar service_name '.' ∧
    List.Forall₂ NameSectionPattern.TakesGroup pattern.section_patterns groups

/-- The texts that are not service names: with an asterisk, or with an empty section. -/
def InvalidName (service_name : String) : Prop :=
  '*' ∈ service_name.toList ∨ "" ∈ splitOnChar service_name '.'

instance (service_name : String) : Decidable (InvalidName service_name) :=
  inferInstanceAs (Decidable (_ ∨ _))

def NameSectionPattern.segment : NameSectionPattern → Segment String
  | .anyName => .one fun _ => True
  | .anySections => .many fun _ => True
  | .name string => .one fun name_section => string = name_section

theorem segment_takes (pattern : NameSectionPattern) (group : List String) :
    pattern.segment.Takes group ↔ pattern.TakesGroup group := by
  cases pattern with
  | anyName => simp [NameSectionPattern.segment, Segment.Takes, NameSectionPattern.TakesGroup,
      List.length_eq_one_iff]
  | anySections => simp [NameSectionPattern.segment, Segment.Takes, NameSectionPattern.TakesGroup,
      Nat.one_le_iff_ne_zero]
  | name string => simp [NameSectionPattern.segment, Segment.Takes, NameSectionPattern.TakesGroup]

theorem splits_iff_cut (pattern : NamePattern) (service_name : String) :
    pattern.Splits service_name ↔
      Cut (pattern.section_patterns.map NameSectionPattern.segment) (splitOnChar service_name '.') := by
  unfold NamePattern.Splits Cut
  simp only [List.forall₂_map_left_iff, segment_takes]

theorem matchLeaf_spec (section_patterns : List NameSectionPattern) (name_section : String)
    (leaves : List Nat) (index : Nat) (bound : index ≤ section_patterns.length) :
    ∃ result, matchLeaf section_patterns name_section leaves index = some result ∧
      ∀ next, next ∈ result ↔ next ∈ leaves ∨
        ∃ segment, (section_patterns.map NameSectionPattern.segment)[index]? = some segment ∧
          segment.Moves name_section index next := by
  by_cases last : index = section_patterns.length
  · refine ⟨leaves, by simp [matchLeaf, last], ?_⟩
    intro next
    simp [last]
  · have inside : index < section_patterns.length := by omega
    have present := List.getElem?_eq_getElem inside
    simp only [matchLeaf, last, ↓reduceIte, List.getElem?_map, present, Option.map_some,
      Option.some.injEq, exists_eq_left']
    cases section_patterns[index] with
    | anyName =>
      refine ⟨_, rfl, fun next => ?_⟩
      simp [NameSectionPattern.segment, Segment.Moves, or_comm]
    | anySections =>
      refine ⟨_, rfl, fun next => ?_⟩
      simp [NameSectionPattern.segment, Segment.Moves]
      grind
    | name string =>
      by_cases same : string = name_section
      · refine ⟨leaves.insert (index + 1), by simp [same], fun next => ?_⟩
        simp [NameSectionPattern.segment, Segment.Moves, same, or_comm]
      · refine ⟨leaves, by simp [same], fun next => ?_⟩
        simp [NameSectionPattern.segment, Segment.Moves, same]

theorem matchLeaves_spec (section_patterns : List NameSectionPattern) (name_section : String)
    (visited leaves : List Nat) (bound : ∀ index ∈ visited, index ≤ section_patterns.length) :
    ∃ result, visited.foldlM (matchLeaf section_patterns name_section) leaves = some result ∧
      ∀ next, next ∈ result ↔ next ∈ leaves ∨ ∃ index ∈ visited,
        ∃ segment, (section_patterns.map NameSectionPattern.segment)[index]? = some segment ∧
          segment.Moves name_section index next := by
  induction visited generalizing leaves with
  | nil => exact ⟨leaves, rfl, by simp⟩
  | cons index rest ih =>
    obtain ⟨middle, head, headMem⟩ := matchLeaf_spec section_patterns name_section leaves index
      (bound index (by simp))
    obtain ⟨result, tail, tailMem⟩ := ih middle (fun other member => bound other (by simp [member]))
    refine ⟨result, by simp [List.foldlM_cons, head, tail], fun next => ?_⟩
    rw [tailMem, headMem, or_assoc, List.exists_mem_cons_iff]

theorem matchSections_spec (order : HashOrder) (section_patterns : List NameSectionPattern)
    (seen rest : List String) (leaves : List Nat)
    (live : ∀ index, index ∈ leaves ↔
      Live (section_patterns.map NameSectionPattern.segment) seen index) :
    ∃ result, matchSections order section_patterns rest leaves = some result ∧
      ∀ index, index ∈ result ↔
        Live (section_patterns.map NameSectionPattern.segment) (seen ++ rest) index := by
  induction rest generalizing seen leaves with
  | nil => exact ⟨leaves, rfl, by simpa using live⟩
  | cons name_section rest ih =>
    have visits : ∀ index, index ∈ order.visit rest.length leaves ↔ index ∈ leaves :=
      fun index => (order.perm rest.length leaves).mem_iff
    have bound : ∀ index ∈ order.visit rest.length leaves, index ≤ section_patterns.length := by
      intro index member
      have within := ((live index).mp ((visits index).mp member)).le_length
      simpa using within
    obtain ⟨next, round, nextMem⟩ := matchLeaves_spec section_patterns name_section _ [] bound
    have nextLive : ∀ index, index ∈ next ↔
        Live (section_patterns.map NameSectionPattern.segment) (seen ++ [name_section]) index := by
      intro index
      rw [nextMem, live_snoc]
      simp only [List.not_mem_nil, false_or, visits, live]
      constructor
      · intro ⟨before, alive, segment, present, moves⟩
        exact ⟨before, segment, alive, present, moves⟩
      · intro ⟨before, segment, alive, present, moves⟩
        exact ⟨before, alive, segment, present, moves⟩
    obtain ⟨result, walked, resultMem⟩ := ih (seen ++ [name_section]) next nextLive
    refine ⟨result, by simp [matchSections, round, walked], ?_⟩
    simpa using resultMem

theorem matches_of_valid (order : HashOrder) (pattern : NamePattern) (service_name : String)
    (valid : ¬ InvalidName service_name) :
    ∃ answer, pattern.matches order service_name = some (.ok answer) ∧
      (answer = true ↔ pattern.Splits service_name) := by
  have start : ∀ index, index ∈ [0] ↔
      Live (pattern.section_patterns.map NameSectionPattern.segment) [] index := by
    intro index
    rw [live_nil, List.mem_singleton]
  obtain ⟨leaves, walked, leavesMem⟩ := matchSections_spec order pattern.section_patterns []
    (splitOnChar service_name '.') [0] start
  have full : Live (pattern.section_patterns.map NameSectionPattern.segment)
      (splitOnChar service_name '.') (pattern.section_patterns.map NameSectionPattern.segment).length ↔
        Cut (pattern.section_patterns.map NameSectionPattern.segment) (splitOnChar service_name '.') :=
    live_length
  rw [List.length_map] at full
  simp only [InvalidName, not_or] at valid
  refine ⟨leaves.contains pattern.section_patterns.length, ?_, ?_⟩
  · simp [NamePattern.matches, valid.1, valid.2, walked]
  · rw [List.contains_iff_mem, leavesMem, splits_iff_cut, List.nil_append]
    exact full

theorem matches_of_invalid (order : HashOrder) (pattern : NamePattern) (service_name : String)
    (invalid : InvalidName service_name) :
    ∃ e, pattern.matches order service_name = some (.error e) := by
  unfold NamePattern.matches
  by_cases asterisk : '*' ∈ service_name.toList
  · exact ⟨.nameContainsAsterisk, by simp [asterisk]⟩
  · have empty : "" ∈ splitOnChar service_name '.' := invalid.resolve_left asterisk
    exact ⟨.emptySection, by simp [asterisk, empty]⟩

theorem matches_order (order other : HashOrder) (pattern : NamePattern) (service_name : String) :
    pattern.matches other service_name = pattern.matches order service_name := by
  by_cases invalid : InvalidName service_name
  · unfold NamePattern.matches
    by_cases asterisk : '*' ∈ service_name.toList
    · simp [asterisk]
    · have empty : "" ∈ splitOnChar service_name '.' := invalid.resolve_left asterisk
      simp [asterisk, empty]
  · obtain ⟨answer, first, firstSplits⟩ := matches_of_valid order pattern service_name invalid
    obtain ⟨again, second, secondSplits⟩ := matches_of_valid other pattern service_name invalid
    have same : again = answer := Bool.eq_iff_iff.mpr (secondSplits.trans firstSplits.symm)
    rw [first, second, same]

/-- Matching is splitting: errors are exactly the invalid names, the answer is whether the name can
    be cut along the pattern, no index is out of bounds, and no hash order changes the result. -/
theorem matches_iff_splits (order : HashOrder) (pattern : NamePattern) (service_name : String) :
    pattern.matches order service_name ≠ none ∧
    ((∃ e, pattern.matches order service_name = some (.error e)) ↔ InvalidName service_name) ∧
    (¬ InvalidName service_name →
      (pattern.matches order service_name = some (.ok true) ↔ pattern.Splits service_name) ∧
      (pattern.matches order service_name = some (.ok false) ↔ ¬ pattern.Splits service_name)) ∧
    ∀ other : HashOrder, pattern.matches other service_name = pattern.matches order service_name := by
  have independent := fun other => matches_order order other pattern service_name
  by_cases invalid : InvalidName service_name
  · obtain ⟨e, failed⟩ := matches_of_invalid order pattern service_name invalid
    refine ⟨by simp [failed], ⟨fun _ => invalid, fun _ => ⟨e, failed⟩⟩, ?_, independent⟩
    intro valid
    exact absurd invalid valid
  · obtain ⟨answer, matched, splits⟩ := matches_of_valid order pattern service_name invalid
    refine ⟨by simp [matched], by simp [matched, invalid], ?_, independent⟩
    intro _
    cases answer with
    | true => simp [matched, ← splits]
    | false => simp [matched, ← splits]

end KrossbarHub
