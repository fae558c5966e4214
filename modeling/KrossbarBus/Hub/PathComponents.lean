import KrossbarBus.Hub.FileSystem

namespace KrossbarHub

theorem separator_mem_utf8EncodeChar (c : Char) : separator ∈ String.utf8EncodeChar c ↔ c = '/' := by
  refine ⟨fun member => ?_, fun same => by subst same; decide⟩
  have value : c.val.toNat = 47 := by
    simp only [String.utf8EncodeChar, separator] at member
    split at member
    · rename_i small
      have equal := congrArg UInt8.toNat (List.mem_singleton.mp member)
      change 47 = c.val.toNat % 256 at equal
      omega
    · exfalso
      split at member
      · simp [← UInt8.toNat_inj] at member
        omega
      · split at member
        · simp [← UInt8.toNat_inj] at member
          omega
        · simp [← UInt8.toNat_inj] at member
          omega
  exact Char.ext (UInt32.toNat_inj.mp value)

theorem separator_mem_osString (string : String) : separator ∈ osString string ↔ '/' ∈ string.toList := by
  simp [osString, List.mem_flatMap, separator_mem_utf8EncodeChar]

theorem separator_not_mem_piece (path piece : OsString) (member : piece ∈ path.splitOn separator) :
    separator ∉ piece := by
  induction path generalizing piece with
  | nil =>
    rw [List.splitOn_nil, List.mem_singleton] at member
    simp [member]
  | cons byte rest ih =>
    obtain ⟨first, others, shape⟩ := List.exists_cons_of_ne_nil (List.splitOn_ne_nil separator rest)
    rw [List.splitOn_cons_eq_if_modifyHead, shape] at member
    rw [shape] at ih
    split at member
    · rcases List.mem_cons.mp member with rfl | member
      · simp
      · exact ih piece member
    · rename_i different
      rcases List.mem_cons.mp member with rfl | member
      · have tail := ih first (by simp)
        simp only [List.mem_cons, not_or]
        exact ⟨fun same => different (by simp [same]), tail⟩
      · exact ih piece (List.mem_cons_of_mem _ member)

theorem separator_not_mem_normal (path name : OsString) (member : Component.normal name ∈ components path) :
    separator ∉ name := by
  have inside : Component.normal name ∈ (path.splitOn separator).filterMap pieceComponent := by
    rcases List.mem_append.mp member with leading | inside
    · unfold leadingComponent at leading
      split at leading
      · simp at leading
      · split at leading <;> simp at leading
    · exact inside
  obtain ⟨piece, piecePresent, shape⟩ := List.mem_filterMap.mp inside
  have same : piece = name := by
    unfold pieceComponent at shape
    split at shape
    · cases shape
    · split at shape
      · cases shape
      · exact Component.normal.inj (Option.some.inj shape)
  exact same ▸ separator_not_mem_piece path piece piecePresent

theorem components_append_separator (base path : OsString) (nonempty : base ≠ []) :
    components (base ++ separator :: path) =
      components base ++ (path.splitOn separator).filterMap pieceComponent := by
  have firstByte : (base ++ separator :: path).head? = base.head? := by
    cases base with
    | nil => exact absurd rfl nonempty
    | cons byte rest => rfl
  have firstPiece : ((base ++ separator :: path).splitOn separator).head? =
      (base.splitOn separator).head? := by
    rw [List.splitOn_append_cons_self]
    cases pieces : base.splitOn separator with
    | nil => exact absurd pieces (List.splitOn_ne_nil separator base)
    | cons piece rest => rfl
  simp only [components, leadingComponent, firstByte, firstPiece]
  rw [List.splitOn_append_cons_self, List.filterMap_append, List.append_assoc]

theorem components_separator (path : OsString) :
    components (separator :: path) = .rootDir :: (path.splitOn separator).filterMap pieceComponent := by
  simp [components, leadingComponent, List.splitOn_cons_eq_if_modifyHead, pieceComponent]

theorem components_join (dir name : OsString) (simple : separator ∉ name) (long : 3 ≤ name.length) :
    components (joinPath dir name) = components dir ++ [.normal name] := by
  have relative : name.head? ≠ some separator := by
    intro first
    exact simple (List.mem_of_head? first)
  have single : (name.splitOn separator).filterMap pieceComponent = [.normal name] := by
    rw [List.splitOn_eq_singleton simple]
    have notEmpty : name ≠ [] := by intro same; simp [same] at long
    have notDot : name ≠ [46] := by intro same; simp [same] at long
    have notDots : name ≠ [46, 46] := by intro same; simp [same] at long
    simp [pieceComponent, notEmpty, notDot, notDots]
  by_cases empty : dir = []
  · subst empty
    have notDot : name ≠ [46] := by intro same; simp [same] at long
    simp [joinPath, relative, components, leadingComponent, List.splitOn_eq_singleton simple,
      notDot] at single ⊢
    simpa [pieceComponent] using single
  · by_cases closed : dir.getLast? = some separator
    · obtain ⟨base, rfl⟩ : ∃ base, dir = base ++ [separator] := by
        obtain ⟨base, shape⟩ := List.getLast?_eq_some_iff.mp closed
        exact ⟨base, shape⟩
      simp only [joinPath, relative, ↓reduceIte, closed, or_true, List.append_assoc,
        List.singleton_append]
      by_cases rooted : base = []
      · subst rooted
        rw [List.nil_append, components_separator, single, List.nil_append, components_separator]
        simp [pieceComponent]
      · rw [components_append_separator base name rooted, single,
          components_append_separator base [] rooted]
        simp [pieceComponent]
    · simp only [joinPath, relative, ↓reduceIte, empty, closed, or_self]
      rw [components_append_separator dir name empty, single]

theorem FileSystem.walk_append (files : FileSystem) (node : Node) (front back : List Component) :
    files.walk node (front ++ back) = (files.walk node front).bind fun middle => files.walk middle back := by
  induction front generalizing node with
  | nil => simp [FileSystem.walk]
  | cons component rest ih =>
    cases node with
    | directory inode =>
      cases component with
      | rootDir => exact ih _
      | curDir => exact ih _
      | parentDir => exact ih _
      | normal name =>
        simp only [List.cons_append, FileSystem.walk]
        cases files.entry inode name with
        | none => rfl
        | some next => exact ih next
    | file contents => simp [FileSystem.walk]
    | denied => simp [FileSystem.walk]

end KrossbarHub
