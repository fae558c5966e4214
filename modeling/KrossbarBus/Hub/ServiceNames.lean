import KrossbarBus.Matching.Positions

namespace KrossbarHub

inductive NameError
  | invalidSection (string : String)
  | nameContainsAsterisk
  | emptySection
  deriving DecidableEq, Repr

inductive NameSectionPattern
  | anyName
  | anySections
  | name (string : String)
  deriving DecidableEq, Repr

/-- `str::split` on one character: it always yields at least one piece. -/
def splitOnChar (string : String) (separator : Char) : List String :=
  (string.toList.splitOn separator).map String.ofList

def NameSectionPattern.fromString (string : String) : Except NameError NameSectionPattern :=
  if string = "" then .error .emptySection
  else if '*' ∈ string.toList then
    if string = "*" then .ok .anyName
    else if string = "**" then .ok .anySections
    else .error (.invalidSection string)
  else .ok (.name string)

structure NamePattern where
  section_patterns : List NameSectionPattern
  deriving DecidableEq, Repr

/-- The loop of `from_string`: it stops at the first section that is not a pattern. -/
def sectionPatterns : List String → Except NameError (List NameSectionPattern)
  | [] => .ok []
  | section_string :: rest =>
    match NameSectionPattern.fromString section_string with
    | .error e => .error e
    | .ok pattern =>
      match sectionPatterns rest with
      | .error e => .error e
      | .ok patterns => .ok (pattern :: patterns)

def NamePattern.fromString (string : String) : Except NameError NamePattern :=
  match sectionPatterns (splitOnChar string '.') with
  | .error e => .error e
  | .ok section_patterns => .ok ⟨section_patterns⟩

/-- One leaf of the match tree against one name section. `none` is the panic of an index that is
    out of bounds. -/
def matchLeaf (section_patterns : List NameSectionPattern) (name_section : String)
    (next_pattern_tree_leaves : List Nat) (index : Nat) : Option (List Nat) :=
  if index = section_patterns.length then some next_pattern_tree_leaves
  else match section_patterns[index]? with
    | none => none
    | some .anyName => some (next_pattern_tree_leaves.insert (index + 1))
    | some .anySections => some ((next_pattern_tree_leaves.insert index).insert (index + 1))
    | some (.name pattern_section) =>
      if pattern_section = name_section then some (next_pattern_tree_leaves.insert (index + 1))
      else some next_pattern_tree_leaves

/-- The iteration orders of the hash sets: round `k` visits the elements of a set in `visit k set`. -/
structure HashOrder where
  visit : Nat → List Nat → List Nat
  perm : ∀ round set, (visit round set).Perm set

def matchSections (order : HashOrder) (section_patterns : List NameSectionPattern) :
    List String → List Nat → Option (List Nat)
  | [], pattern_tree_leaves => some pattern_tree_leaves
  | name_section :: rest, pattern_tree_leaves =>
    match (order.visit rest.length pattern_tree_leaves).foldlM
      (matchLeaf section_patterns name_section) [] with
    | none => none
    | some next_pattern_tree_leaves => matchSections order section_patterns rest next_pattern_tree_leaves

/-- `none` is a panic. -/
def NamePattern.matches (order : HashOrder) (pattern : NamePattern) (service_name : String) :
    Option (Except NameError Bool) :=
  if '*' ∈ service_name.toList then some (.error .nameContainsAsterisk)
  else if "" ∈ splitOnChar service_name '.' then some (.error .emptySection)
  else
    match matchSections order pattern.section_patterns (splitOnChar service_name '.') [0] with
    | none => none
    | some pattern_tree_leaves =>
      some (.ok (pattern_tree_leaves.contains pattern.section_patterns.length))

end KrossbarHub
