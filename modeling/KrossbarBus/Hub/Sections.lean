import KrossbarBus.Hub.ServiceNames

namespace KrossbarHub

variable {separator : Char} {string word left right : String} {words front back : List String}

theorem splitOnChar_single (plain : separator ∉ word.toList) : splitOnChar word separator = [word] := by
  simp [splitOnChar, List.splitOn_eq_singleton plain]

theorem splitOnChar_ne_nil (string : String) (separator : Char) : splitOnChar string separator ≠ [] := by
  simp [splitOnChar, List.splitOn_ne_nil]

theorem splitOnChar_joined (left right : String) (separator : Char) :
    splitOnChar (left ++ String.singleton separator ++ right) separator =
      splitOnChar left separator ++ splitOnChar right separator := by
  have letters : (left ++ String.singleton separator ++ right).toList = left.toList ++ separator :: right.toList := by
    simp
  rw [splitOnChar, letters, List.splitOn_append_cons_self, List.map_append]
  rfl

theorem splitOnChar_word (plain : separator ∉ word.toList) (rest : String) :
    splitOnChar (word ++ String.singleton separator ++ rest) separator = word :: splitOnChar rest separator := by
  rw [splitOnChar_joined, splitOnChar_single plain]
  rfl

/-- The first piece of a string, and what is behind it. -/
theorem splitOnChar_cons (split : splitOnChar string separator = word :: words) :
    separator ∉ word.toList ∧ (string = word ∧ words = [] ∨
      ∃ rest, string = word ++ String.singleton separator ++ rest ∧ splitOnChar rest separator = words) := by
  by_cases plain : separator ∈ string.toList
  · obtain ⟨letters, others, shape, first⟩ := List.eq_append_cons_of_mem plain
    have whole : string = String.ofList letters ++ String.singleton separator ++ String.ofList others := by
      apply String.toList_injective
      simp [shape]
    have front : separator ∉ (String.ofList letters).toList := by simpa using first
    rw [whole, splitOnChar_word front] at split
    obtain ⟨rfl, rfl⟩ := List.cons.inj split
    exact ⟨front, .inr ⟨_, whole, rfl⟩⟩
  · rw [splitOnChar_single plain] at split
    obtain ⟨rfl, rfl⟩ := List.cons.inj split
    exact ⟨plain, .inl ⟨rfl, rfl⟩⟩

theorem splitOnChar_one (split : splitOnChar string separator = [word]) : string = word := by
  rcases (splitOnChar_cons split).2 with ⟨same, _⟩ | ⟨rest, _, none⟩
  · exact same
  · exact absurd none (splitOnChar_ne_nil rest separator)

/-- Where the pieces of a string fall into two parts, so does the string. -/
theorem splitOnChar_cut (split : splitOnChar string separator = front ++ back) (first : front ≠ []) (last : back ≠ []) :
    ∃ left right, string = left ++ String.singleton separator ++ right ∧ splitOnChar left separator = front ∧
      splitOnChar right separator = back := by
  induction front generalizing string with
  | nil => exact absurd rfl first
  | cons word rest ih =>
    obtain ⟨plain, ⟨_, none⟩ | ⟨behind, whole, pieces⟩⟩ := splitOnChar_cons split
    · exact absurd (List.append_eq_nil_iff.mp none).2 last
    · cases rest with
      | nil => exact ⟨word, behind, whole, splitOnChar_single plain, pieces⟩
      | cons next others =>
        obtain ⟨left, right, same, fronts, backs⟩ := ih pieces (List.cons_ne_nil _ _)
        refine ⟨word ++ String.singleton separator ++ left, right, ?_, ?_, backs⟩
        · rw [whole, same]
          simp only [String.append_assoc]
        · rw [splitOnChar_word plain, fronts]

end KrossbarHub
