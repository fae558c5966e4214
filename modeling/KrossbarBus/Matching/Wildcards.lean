import KrossbarBus.Matching.Segments

namespace Matching

variable {α : Type*} {segments : List (Segment α)} {word : List α}

/-- A segment that takes any elements at all. -/
def Segment.Anything : Segment α → Prop
  | .one accept => ∀ x, accept x
  | .many accept => ∀ x, accept x

def Segment.repeats : Segment α → Bool
  | .one _ => false
  | .many _ => true

/-- A run of segments that take anything bounds the length of the word only. -/
theorem cut_anything (anything : ∀ segment ∈ segments, segment.Anything) :
    Cut segments word ↔ if segments.any Segment.repeats then segments.length ≤ word.length
      else word.length = segments.length := by
  induction segments generalizing word with
  | nil => simp [cut_nil]
  | cons segment rest ih =>
    obtain ⟨first, others⟩ := List.forall_mem_cons.mp anything
    rw [cut_cons]
    cases segment with
    | one accept =>
      constructor
      · intro ⟨group, behind, split, ⟨x, same, _⟩, cut⟩
        have bounded := (ih others).mp cut
        subst split same
        simp only [List.any_cons, Segment.repeats, Bool.false_or, List.length_cons, List.length_append,
          List.length_nil]
        split
        · rename_i repeats
          rw [if_pos repeats] at bounded
          omega
        · rename_i single
          rw [if_neg single] at bounded
          omega
      · intro bounded
        simp only [List.any_cons, Segment.repeats, Bool.false_or, List.length_cons] at bounded
        cases word with
        | nil =>
          split at bounded
          · exact absurd bounded (by simp)
          · exact absurd bounded (by simp)
        | cons x behind =>
          refine ⟨[x], behind, rfl, ⟨x, rfl, first x⟩, (ih others).mpr ?_⟩
          simpa using bounded
    | many accept =>
      simp only [List.any_cons, Segment.repeats, Bool.true_or, if_true, List.length_cons]
      constructor
      · intro ⟨group, behind, split, ⟨nonempty, _⟩, cut⟩
        have bounded := (ih others).mp cut
        have long := List.length_pos_iff.mpr nonempty
        subst split
        rw [List.length_append]
        split at bounded
        · omega
        · omega
      · intro bounded
        refine ⟨word.take (word.length - rest.length), word.drop (word.length - rest.length),
          (List.take_append_drop _ _).symm, ⟨?_, fun x _ => first x⟩, (ih others).mpr ?_⟩
        · intro empty
          have none := congrArg List.length empty
          rw [List.length_take, List.length_nil] at none
          omega
        · rw [List.length_drop]
          split
          · omega
          · omega

end Matching
