import KrossbarBus.Hub.NameMatching

namespace KrossbarMonitor

open KrossbarHub

/-- The loop of `short_name` with the text built so far. `red` colours the last section of the
    target's name; `none` is the panic of `unwrap` on a section without a first character. -/
def shortSections (red : String → String) (target_service : Bool) (result : String) :
    List String → Option String
  | [] => some result
  | [last_section] => some (result ++ if target_service then red last_section else last_section)
  | name_section :: rest =>
    match name_section.toList.head? with
    | none => none
    | some first => shortSections red target_service ((result.push first).push '.') rest

def shortName (red : String → String) (name : String) (target_service : Bool) : Option String :=
  shortSections red target_service "" (splitOnChar name '.')

theorem shortSections_panics (red : String → String) (target_service : Bool) (result : String)
    (sections : List String) :
    shortSections red target_service result sections = none ↔ "" ∈ sections.dropLast := by
  induction sections generalizing result with
  | nil => simp [shortSections]
  | cons name_section rest ih =>
    cases rest with
    | nil => simp [shortSections]
    | cons next rest =>
      rw [List.dropLast_cons_of_ne_nil (List.cons_ne_nil next rest), List.mem_cons]
      simp only [shortSections]
      cases first : name_section.toList.head? with
      | none =>
        have empty : name_section = "" := by simpa using first
        simp [empty]
      | some letter =>
        have filled : "" ≠ name_section := by
          intro same
          rw [← same] at first
          cases first
        simp [ih, filled]

theorem shortName_panics (red : String → String) (name : String) (target_service : Bool) :
    shortName red name target_service = none ↔ "" ∈ (splitOnChar name '.').dropLast :=
  shortSections_panics red target_service "" (splitOnChar name '.')

theorem shortName_of_valid (red : String → String) {name : String} (target_service : Bool)
    (valid : ¬ InvalidName name) : shortName red name target_service ≠ none := by
  intro panic
  exact valid (.inr (List.dropLast_subset _ ((shortName_panics red name target_service).mp panic)))

end KrossbarMonitor
