import KrossbarBus.Collections.Mutex

namespace Table

variable {ι τ α : Type*} {tasks : Table ι τ} {holds : τ → Bool} {taken : τ → List α} {lock : Option ι}
  {stored : List α} {owner : ι} {task next : τ} {member : α}

/-- The members of a list behind a lock: those in the list, and those the owner of the lock has
    taken out of it. -/
def members (tasks : Table ι τ) (taken : τ → List α) (lock : Option ι) (stored : List α) : List α :=
  stored ++ ((lock.bind tasks.get).map taken).getD []

@[simp] theorem members_free : tasks.members taken none stored = stored := List.append_nil stored

theorem members_held (present : tasks.get owner = some task) :
    tasks.members taken (some owner) stored = stored ++ taken task := by
  simp [members, present]

/-- Whoever takes members out of a list owns its lock and leaves nothing in it. -/
structure Drained (tasks : Table ι τ) (holds : τ → Bool) (lock : Option ι) (stored : List α) : Prop where
  guard : tasks.Guards holds lock
  emptied : lock ≠ none → stored = []

theorem Drained.free (drained : tasks.Drained holds lock stored) (present : tasks.get owner = some task)
    (idle : holds task = false) : lock ≠ some owner := by
  intro held
  obtain ⟨found, there, holding⟩ := (drained.guard owner).mp held
  rw [present] at there
  cases there
  rw [idle] at holding
  cases holding

theorem Drained.unheld (drained : tasks.Drained holds lock stored) (absent : tasks.get owner = none) :
    lock ≠ some owner := by
  intro held
  obtain ⟨found, there, _⟩ := (drained.guard owner).mp held
  rw [absent] at there
  cases there

theorem Drained.members_owner (drained : tasks.Drained holds lock stored)
    (present : tasks.get owner = some task) (holding : holds task = true) :
    tasks.members taken lock stored = taken task := by
  have held := drained.guard.held present holding
  have empty := drained.emptied (by simp [held])
  rw [held, members_held present, empty, List.nil_append]

variable [DecidableEq ι]

theorem members_insert (different : lock ≠ some owner) :
    (tasks.insert owner next).members taken lock stored = tasks.members taken lock stored := by
  cases lock with
  | none => simp
  | some other =>
    have elsewhere : other ≠ owner := fun same => different (by rw [same])
    simp [members, get_insert_of_ne elsewhere]

theorem members_remove (different : lock ≠ some owner) :
    (tasks.remove owner).members taken lock stored = tasks.members taken lock stored := by
  cases lock with
  | none => simp
  | some other =>
    have elsewhere : other ≠ owner := fun same => different (by rw [same])
    simp [members, get_remove_of_ne elsewhere]

theorem Drained.pass (drained : tasks.Drained holds lock stored) (present : tasks.get owner = some task)
    (was : holds task = false) (now : holds next = false) :
    (tasks.insert owner next).Drained holds lock stored :=
  ⟨drained.guard.pass present was now, drained.emptied⟩

theorem Drained.spawn (drained : tasks.Drained holds lock stored) (absent : tasks.get owner = none)
    (idle : holds next = false) : (tasks.insert owner next).Drained holds lock stored :=
  ⟨drained.guard.spawn absent idle, drained.emptied⟩

theorem Drained.remove (drained : tasks.Drained holds lock stored) (present : tasks.get owner = some task)
    (idle : holds task = false) : (tasks.remove owner).Drained holds lock stored :=
  ⟨drained.guard.remove present idle, drained.emptied⟩

/-- The owner goes on with what it has taken. -/
theorem Drained.take (drained : tasks.Drained holds lock stored) (present : tasks.get owner = some task)
    (free : lock = none ∨ holds task = true) (now : holds next = true) :
    (tasks.insert owner next).Drained holds (some owner) ([] : List α) :=
  ⟨drained.guard.take present free now, fun _ => rfl⟩

theorem Drained.vacate (drained : tasks.Drained holds lock stored) (present : tasks.get owner = some task)
    (free : lock = none ∨ holds task = true) (now : holds next = false) (kept : List α) :
    (tasks.insert owner next).Drained holds none kept :=
  ⟨drained.guard.vacate present free now, fun held => absurd rfl held⟩

/-- The owner is gone, and what it had taken with it. -/
theorem Drained.abandon (drained : tasks.Drained holds lock stored) (present : tasks.get owner = some task)
    (holding : holds task = true) : (tasks.remove owner).Drained holds none stored := by
  refine ⟨?_, fun held => absurd rfl held⟩
  intro other
  have held := drained.guard.held present holding
  constructor
  · intro free
    cases free
  · rintro ⟨found, there, owns⟩
    rw [get_remove] at there
    split at there
    · cases there
    · rename_i elsewhere
      have again := drained.guard.held there owns
      rw [held] at again
      exact absurd (Option.some.inj again).symm elsewhere

end Table
