import Mathlib.Data.List.Nodup

/-- What the places hold lies in one place only, and there once. -/
structure Apart {P K : Type*} (held : P → List K) : Prop where
  nodup : ∀ p, (held p).Nodup
  alone : ∀ p q k, k ∈ held p → k ∈ held q → p = q

variable {P K : Type*} {held after : P → List K} {p q : P} {k : K} {rest : List K}

theorem Apart.empty (nothing : ∀ p, held p = []) : Apart held where
  nodup p := by rw [nothing]; exact List.nodup_nil
  alone p _ _ there := by rw [nothing] at there; cases there

theorem Apart.fewer (apart : Apart held) (fewer : ∀ p, (after p).Sublist (held p)) : Apart after where
  nodup p := (apart.nodup p).sublist (fewer p)
  alone p q k there here := apart.alone p q k ((fewer p).subset there) ((fewer q).subset here)

/-- Something new comes to a place. -/
theorem Apart.add (apart : Apart held) (fresh : ∀ p, k ∉ held p) (here : after q = held q ++ [k])
    (others : ∀ p, p ≠ q → after p = held p) : Apart after := by
  have origin : ∀ {p other}, other ∈ after p → other ∈ held p ∨ p = q ∧ other = k := by
    intro p other there
    by_cases same : p = q
    · subst same
      rw [here] at there
      rcases List.mem_append.mp there with old | new
      · exact .inl old
      · exact .inr ⟨rfl, List.mem_singleton.mp new⟩
    · rw [others p same] at there
      exact .inl there
  constructor
  · intro p
    by_cases same : p = q
    · subst same
      rw [here, List.nodup_append_comm]
      exact List.nodup_cons.mpr ⟨fresh p, apart.nodup p⟩
    · rw [others p same]
      exact apart.nodup p
  · intro p p' other there there'
    rcases origin there with old | ⟨rfl, rfl⟩
    · rcases origin there' with old' | ⟨_, rfl⟩
      · exact apart.alone p p' other old old'
      · exact absurd old (fresh p)
    · rcases origin there' with old' | ⟨same, _⟩
      · exact absurd old' (fresh p')
      · exact same.symm

/-- The first of one place moves to the end of another. -/
theorem Apart.move (apart : Apart held) (first : held p = k :: rest) (different : p ≠ q) (left : after p = rest)
    (here : after q = held q ++ [k]) (others : ∀ r, r ≠ p → r ≠ q → after r = held r) : Apart after := by
  have there : k ∈ held p := by rw [first]; exact List.mem_cons_self
  classical
  have without : Apart fun r => if r = p then rest else held r := by
    refine apart.fewer fun r => ?_
    split
    · rename_i same
      rw [same, first]
      exact List.sublist_cons_self k rest
    · exact List.Sublist.refl _
  refine without.add (k := k) (q := q) (fun r member => ?_) ?_ fun r elsewhere => ?_
  · split at member
    · have nodup := apart.nodup p
      rw [first] at nodup
      exact (List.nodup_cons.mp nodup).1 member
    · rename_i elsewhere
      exact elsewhere (apart.alone r p k member there)
  · rw [if_neg (Ne.symm different), here]
  · split
    · rename_i same
      rw [same, left]
    · rename_i elsewhere'
      exact others r elsewhere' elsewhere
