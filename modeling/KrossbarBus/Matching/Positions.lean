import KrossbarBus.Matching.Segments

namespace Matching

variable {α : Type*} {segments : List (Segment α)} {xs : List α} {x : α} {index next : Nat}

/-- Reading `x` moves a matcher from one segment index to another. -/
def Segment.Moves (x : α) (index next : Nat) : Segment α → Prop
  | .one accept => accept x ∧ next = index + 1
  | .many accept => accept x ∧ (next = index ∨ next = index + 1)

/-- A matcher that has read `xs` can stand at `index`: all segments before it are used up, or the
    segment there is a repeated one that has begun. -/
def Live (segments : List (Segment α)) (xs : List α) (index : Nat) : Prop :=
  (index ≤ segments.length ∧ Cut (segments.take index) xs) ∨
    ∃ accept, segments[index]? = some (.many accept) ∧ Cut (segments.take (index + 1)) xs

theorem Live.le_length (live : Live segments xs index) : index ≤ segments.length := by
  rcases live with ⟨bound, _⟩ | ⟨accept, present, _⟩
  · exact bound
  · obtain ⟨bound, _⟩ := List.getElem?_eq_some_iff.mp present
    exact Nat.le_of_lt bound

theorem take_next {segment : Segment α} (present : segments[index]? = some segment) :
    segments.take (index + 1) = segments.take index ++ [segment] := by
  rw [List.take_add_one, present]
  rfl

theorem cut_cons_nil {segment : Segment α} : ¬ Cut (segment :: segments) [] := by
  intro cut
  obtain ⟨group, rest, split, taken, _⟩ := cut_cons.mp cut
  have empty : group = [] := (List.append_eq_nil_iff.mp split.symm).1
  exact Segment.takes_ne_nil taken empty

theorem live_nil : Live segments [] index ↔ index = 0 := by
  constructor
  · rintro (⟨bound, cut⟩ | ⟨accept, present, cut⟩)
    · cases segments with
      | nil => simpa using bound
      | cons segment rest =>
        cases index with
        | zero => rfl
        | succ n => exact absurd cut cut_cons_nil
    · obtain ⟨bound, _⟩ := List.getElem?_eq_some_iff.mp present
      cases segments with
      | nil => simp at bound
      | cons segment rest => exact absurd cut cut_cons_nil
  · rintro rfl
    exact .inl ⟨Nat.zero_le _, cut_nil.mpr rfl⟩

theorem Live.move {segment : Segment α} (live : Live segments xs index)
    (present : segments[index]? = some segment) (moves : segment.Moves x index next) :
    Live segments (xs ++ [x]) next := by
  obtain ⟨bound, _⟩ := List.getElem?_eq_some_iff.mp present
  cases segment with
  | one accept =>
    obtain ⟨accepted, rfl⟩ := moves
    rcases live with ⟨_, cut⟩ | ⟨other, repeated, _⟩
    · exact .inl ⟨bound, by rw [take_next present, cut_snoc_one]; exact ⟨accepted, cut⟩⟩
    · rw [present] at repeated
      cases repeated
  | many accept =>
    obtain ⟨accepted, target⟩ := moves
    have grown : Cut (segments.take (index + 1)) (xs ++ [x]) := by
      rw [take_next present, cut_snoc_many]
      refine ⟨accepted, ?_⟩
      rcases live with ⟨_, cut⟩ | ⟨_, _, cut⟩
      · exact .inl cut
      · exact .inr (take_next present ▸ cut)
    rcases target with rfl | rfl
    · exact .inr ⟨accept, present, grown⟩
    · exact .inl ⟨bound, grown⟩

theorem live_of_cut_next {segment : Segment α} (present : segments[index]? = some segment)
    (cut : Cut (segments.take (index + 1)) (xs ++ [x])) :
    Live segments xs index ∧ segment.Moves x index (index + 1) := by
  obtain ⟨bound, _⟩ := List.getElem?_eq_some_iff.mp present
  rw [take_next present] at cut
  cases segment with
  | one accept =>
    obtain ⟨accepted, earlier⟩ := cut_snoc_one.mp cut
    exact ⟨.inl ⟨Nat.le_of_lt bound, earlier⟩, accepted, rfl⟩
  | many accept =>
    obtain ⟨accepted, earlier⟩ := cut_snoc_many.mp cut
    refine ⟨?_, accepted, .inr rfl⟩
    rcases earlier with fresh | begun
    · exact .inl ⟨Nat.le_of_lt bound, fresh⟩
    · exact .inr ⟨accept, present, take_next present ▸ begun⟩

theorem live_snoc : Live segments (xs ++ [x]) next ↔
    ∃ index segment, Live segments xs index ∧ segments[index]? = some segment ∧
      segment.Moves x index next := by
  constructor
  · rintro (⟨bound, cut⟩ | ⟨accept, present, cut⟩)
    · cases next with
      | zero => simp [cut_nil] at cut
      | succ index =>
        have present : segments[index]? = some segments[index] := List.getElem?_eq_getElem bound
        obtain ⟨live, moves⟩ := live_of_cut_next present cut
        exact ⟨index, _, live, present, moves⟩
    · obtain ⟨live, accepted, _⟩ := live_of_cut_next present cut
      exact ⟨next, _, live, present, accepted, .inl rfl⟩
  · rintro ⟨index, segment, live, present, moves⟩
    exact live.move present moves

theorem live_length : Live segments xs segments.length ↔ Cut segments xs := by
  constructor
  · rintro (⟨_, cut⟩ | ⟨accept, present, _⟩)
    · simpa using cut
    · simp at present
  · intro cut
    exact .inl ⟨Nat.le_refl _, by simpa using cut⟩

end Matching
