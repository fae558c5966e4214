import Mathlib.Logic.Function.Basic

structure Table (κ ν : Type*) where
  get : κ → Option ν

namespace Table

variable {κ ν : Type*} [DecidableEq κ] {table : Table κ ν} {key other : κ} {value : ν}

def empty : Table κ ν := ⟨fun _ => none⟩

def containsKey (table : Table κ ν) (key : κ) : Bool := (table.get key).isSome

def insert (table : Table κ ν) (key : κ) (value : ν) : Table κ ν :=
  ⟨Function.update table.get key (some value)⟩

def remove (table : Table κ ν) (key : κ) : Table κ ν :=
  ⟨Function.update table.get key none⟩

omit [DecidableEq κ] in
@[simp] theorem get_empty (key : κ) : (empty : Table κ ν).get key = none := rfl

theorem get_insert : (table.insert key value).get other = if other = key then some value else table.get other := by
  simp [insert, Function.update_apply]

theorem get_remove : (table.remove key).get other = if other = key then none else table.get other := by
  simp [remove, Function.update_apply]

@[simp] theorem get_insert_self : (table.insert key value).get key = some value := by
  simp [get_insert]

theorem get_of_remove (present : (table.remove key).get other = some value) : table.get other = some value := by
  rw [get_remove] at present
  split at present
  · cases present
  · exact present

@[simp] theorem get_remove_self : (table.remove key).get key = none := by
  simp [get_remove]

/-- What holds of all entries holds of them with one more. -/
theorem forall_insert {p : κ → ν → Prop} (new : p key value)
    (others : ∀ other found, table.get other = some found → p other found) (other : κ) (found : ν)
    (there : (table.insert key value).get other = some found) : p other found := by
  rw [get_insert] at there
  split at there
  · rename_i this
    cases there
    rw [this]
    exact new
  · exact others other found there

theorem get_insert_of_ne (different : other ≠ key) :
    (table.insert key value).get other = table.get other := by
  simp [get_insert, different]

theorem get_remove_of_ne (different : other ≠ key) : (table.remove key).get other = table.get other := by
  simp [get_remove, different]

section Numbered

variable {entries : Table Nat ν} {number clock : Nat} {entry next : ν}
  (fresh : ∀ number entry, entries.get number = some entry → number < clock)

include fresh

theorem fresh_absent : entries.get clock = none := by
  cases present : entries.get clock with
  | none => rfl
  | some entry => exact absurd (fresh clock entry present) (Nat.lt_irrefl clock)

theorem fresh_next (number : Nat) (found : ν) (there : (entries.insert clock entry).get number = some found) :
    number < clock + 1 := by
  apply forall_insert (p := fun number _ => number < clock + 1) (Nat.lt_succ_self clock) _ number found there
  exact fun other earlier present => Nat.lt_succ_of_lt (fresh other earlier present)

theorem fresh_insert (present : entries.get number = some entry) (other : Nat) (found : ν)
    (there : (entries.insert number next).get other = some found) : other < clock :=
  forall_insert (p := fun number _ => number < clock) (fresh number entry present) fresh other found there

theorem fresh_remove (other : Nat) (found : ν) (there : (entries.remove number).get other = some found) :
    other < clock := fresh other found (get_of_remove there)

end Numbered

end Table
