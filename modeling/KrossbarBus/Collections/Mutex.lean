import KrossbarBus.Collections.Table

namespace Table

variable {ι τ : Type*} {tasks : Table ι τ} {holds : τ → Bool} {lock : Option ι} {owner : ι}
  {task next : τ}

/-- The lock belongs to whichever task is in a state that holds it. -/
def Guards (tasks : Table ι τ) (holds : τ → Bool) (lock : Option ι) : Prop :=
  ∀ owner, lock = some owner ↔ ∃ task, tasks.get owner = some task ∧ holds task = true

theorem Guards.held (guards : tasks.Guards holds lock) (present : tasks.get owner = some task)
    (holder : holds task = true) : lock = some owner := (guards owner).mpr ⟨task, present, holder⟩

theorem Guards.idle (guards : tasks.Guards holds lock) (free : lock = none)
    (present : tasks.get owner = some task) : holds task = false := by
  cases holder : holds task with
  | false => rfl
  | true =>
    have held := guards.held present holder
    rw [free] at held
    cases held

theorem Guards.ne_none_iff (guards : tasks.Guards holds lock) :
    lock ≠ none ↔ ∃ owner task, tasks.get owner = some task ∧ holds task = true := by
  constructor
  · intro held
    obtain ⟨owner, owned⟩ := Option.ne_none_iff_exists'.mp held
    exact ⟨owner, (guards owner).mp owned⟩
  · intro holder free
    obtain ⟨owner, task, present, holds⟩ := holder
    have idle := guards.idle free present
    rw [holds] at idle
    cases idle

variable [DecidableEq ι]

theorem Guards.move (guards : tasks.Guards holds lock) (present : tasks.get owner = some task) (next : τ)
    (acquires : holds next = true → lock = none ∨ holds task = true) :
    (tasks.insert owner next).Guards holds
      (if holds next = true then some owner else if holds task = true then none else lock) := by
  intro other
  have others := guards other
  by_cases same : other = owner
  · subst same
    have self : lock = some other ↔ holds task = true := by
      rw [others, present]
      simp
    by_cases enters : holds next = true
    · simp [enters]
    · by_cases held : holds task = true
      · simp [enters, held]
      · simp [enters, held, self]
  · rw [get_insert_of_ne same, ← others]
    by_cases enters : holds next = true
    · have elsewhere : lock ≠ some other := by
        rcases acquires enters with free | held
        · simp [free]
        · simp [guards.held present held, Ne.symm same]
      simp [enters, elsewhere, Ne.symm same]
    · by_cases held : holds task = true
      · simp [enters, held, guards.held present held, Ne.symm same]
      · simp [enters, held]

theorem Guards.pass (guards : tasks.Guards holds lock) (present : tasks.get owner = some task)
    (was : holds task = false) (now : holds next = false) : (tasks.insert owner next).Guards holds lock := by
  have moved := guards.move present next (by simp [now])
  simpa [was, now] using moved

theorem Guards.take (guards : tasks.Guards holds lock) (present : tasks.get owner = some task)
    (free : lock = none ∨ holds task = true) (now : holds next = true) :
    (tasks.insert owner next).Guards holds (some owner) := by
  have moved := guards.move present next fun _ => free
  simpa [now] using moved

theorem Guards.vacate (guards : tasks.Guards holds lock) (present : tasks.get owner = some task)
    (free : lock = none ∨ holds task = true) (now : holds next = false) :
    (tasks.insert owner next).Guards holds none := by
  have moved := guards.move present next (by simp [now])
  rcases free with free | was
  · simpa [now, free] using moved
  · simpa [now, was] using moved

theorem Guards.spawn (guards : tasks.Guards holds lock) (absent : tasks.get owner = none)
    (idle : holds next = false) : (tasks.insert owner next).Guards holds lock := by
  intro other
  rw [guards other, get_insert]
  by_cases same : other = owner
  · simp [same, absent, idle]
  · simp [same]

theorem Guards.remove (guards : tasks.Guards holds lock) (present : tasks.get owner = some task)
    (idle : holds task = false) : (tasks.remove owner).Guards holds lock := by
  intro other
  rw [guards other, get_remove]
  by_cases same : other = owner
  · simp [same, present, idle]
  · simp [same]

end Table
