import Mathlib.Data.List.Forall2

namespace Matching

variable {α : Type*}

/-- A segment of a pattern over lists: it takes one element, or one or more consecutive ones. -/
inductive Segment (α : Type*) where
  | one (accept : α → Prop)
  | many (accept : α → Prop)

def Segment.Takes : Segment α → List α → Prop
  | .one accept, group => ∃ x, group = [x] ∧ accept x
  | .many accept, group => group ≠ [] ∧ ∀ x ∈ group, accept x

def Cut (segments : List (Segment α)) (xs : List α) : Prop :=
  ∃ groups : List (List α), groups.flatten = xs ∧ List.Forall₂ Segment.Takes segments groups

theorem cut_nil {xs : List α} : Cut [] xs ↔ xs = [] := by
  constructor
  · rintro ⟨groups, rfl, matched⟩
    cases matched
    rfl
  · rintro rfl
    exact ⟨[], rfl, .nil⟩

theorem cut_cons {segment : Segment α} {segments : List (Segment α)} {xs : List α} :
    Cut (segment :: segments) xs ↔
      ∃ group rest, xs = group ++ rest ∧ segment.Takes group ∧ Cut segments rest := by
  constructor
  · rintro ⟨groups, rfl, matched⟩
    cases matched with
    | cons taken rest => exact ⟨_, _, rfl, taken, _, rfl, rest⟩
  · rintro ⟨group, rest, rfl, taken, groups, rfl, matched⟩
    exact ⟨group :: groups, rfl, .cons taken matched⟩

theorem cut_append {front back : List (Segment α)} {xs : List α} :
    Cut (front ++ back) xs ↔ ∃ left right, xs = left ++ right ∧ Cut front left ∧ Cut back right := by
  induction front generalizing xs with
  | nil => simp [cut_nil]
  | cons segment front ih =>
    constructor
    · intro cut
      obtain ⟨group, rest, rfl, taken, tail⟩ := cut_cons.mp cut
      obtain ⟨left, right, rfl, leftCut, rightCut⟩ := ih.mp tail
      exact ⟨group ++ left, right, by simp, cut_cons.mpr ⟨group, left, rfl, taken, leftCut⟩, rightCut⟩
    · rintro ⟨left, right, rfl, leftCut, rightCut⟩
      obtain ⟨group, rest, rfl, taken, tail⟩ := cut_cons.mp leftCut
      exact cut_cons.mpr ⟨group, rest ++ right, by simp, taken, ih.mpr ⟨rest, right, rfl, tail, rightCut⟩⟩

theorem cut_snoc {segments : List (Segment α)} {segment : Segment α} {xs : List α} :
    Cut (segments ++ [segment]) xs ↔
      ∃ initial group, xs = initial ++ group ∧ Cut segments initial ∧ segment.Takes group := by
  rw [cut_append]
  constructor
  · rintro ⟨left, right, rfl, leftCut, rightCut⟩
    obtain ⟨group, rest, rfl, taken, tail⟩ := cut_cons.mp rightCut
    rw [cut_nil] at tail
    subst tail
    exact ⟨left, group, by simp, leftCut, taken⟩
  · rintro ⟨initial, group, rfl, initialCut, taken⟩
    exact ⟨initial, group, rfl, initialCut, cut_cons.mpr ⟨group, [], by simp, taken, cut_nil.mpr rfl⟩⟩

theorem Segment.takes_ne_nil {segment : Segment α} {group : List α} (taken : segment.Takes group) :
    group ≠ [] := by
  cases segment with
  | one accept =>
    obtain ⟨x, rfl, _⟩ := taken
    simp
  | many accept => exact taken.1

theorem cut_snoc_one {segments : List (Segment α)} {accept : α → Prop} {xs : List α} {x : α} :
    Cut (segments ++ [.one accept]) (xs ++ [x]) ↔ accept x ∧ Cut segments xs := by
  rw [cut_snoc]
  constructor
  · rintro ⟨initial, group, split, initialCut, y, rfl, accepted⟩
    obtain ⟨rfl, same⟩ := List.append_inj' split rfl
    cases same
    exact ⟨accepted, initialCut⟩
  · rintro ⟨accepted, cut⟩
    exact ⟨xs, [x], rfl, cut, x, rfl, accepted⟩

theorem cut_snoc_many {segments : List (Segment α)} {accept : α → Prop} {xs : List α} {x : α} :
    Cut (segments ++ [.many accept]) (xs ++ [x]) ↔
      accept x ∧ (Cut segments xs ∨ Cut (segments ++ [.many accept]) xs) := by
  constructor
  · intro cut
    obtain ⟨initial, group, split, initialCut, nonempty, accepted⟩ := cut_snoc.mp cut
    obtain ⟨front, last, rfl⟩ : ∃ front last, group = front ++ [last] :=
      ⟨_, _, (List.dropLast_append_getLast nonempty).symm⟩
    rw [← List.append_assoc] at split
    obtain ⟨rfl, same⟩ := List.append_inj' split rfl
    cases same
    refine ⟨accepted _ (by simp), ?_⟩
    by_cases single : front = []
    · subst single
      exact .inl (by simpa using initialCut)
    · refine .inr (cut_snoc.mpr ⟨initial, front, rfl, initialCut, single, ?_⟩)
      exact fun y member => accepted y (by simp [member])
  · rintro ⟨accepted, cut | cut⟩
    · exact cut_snoc.mpr ⟨xs, [x], rfl, cut, by simp, by simpa using accepted⟩
    · obtain ⟨initial, group, rfl, initialCut, nonempty, all⟩ := cut_snoc.mp cut
      refine cut_snoc.mpr ⟨initial, group ++ [x], by simp, initialCut, by simp, ?_⟩
      intro y member
      rcases List.mem_append.mp member with member | member
      · exact all y member
      · rw [List.mem_singleton.mp member]
        exact accepted

end Matching
