import KrossbarBus.Collections.Table
import Mathlib.Algebra.BigOperators.Group.Finset.Basic

namespace Table

/-- The sums of two functions differ by what one number has in them, if nothing else differs. -/
theorem sum_range_update {left right : Nat → Nat} {number bound : Nat} (below : number < bound)
    (same : ∀ other, other ≠ number → left other = right other) :
    (∑ other ∈ Finset.range bound, left other) + right number =
      (∑ other ∈ Finset.range bound, right other) + left number := by
  have member : number ∈ Finset.range bound := Finset.mem_range.mpr below
  have rest : ∑ other ∈ (Finset.range bound).erase number, left other =
      ∑ other ∈ (Finset.range bound).erase number, right other :=
    Finset.sum_congr rfl fun other there => same other (Finset.ne_of_mem_erase there)
  have split := Finset.add_sum_erase _ left member
  have others := Finset.add_sum_erase _ right member
  omega

/-- What lies above the bound does not count. -/
theorem sum_range_later {function : Nat → Nat} {bound later : Nat} (grows : bound ≤ later)
    (absent : ∀ number, bound ≤ number → function number = 0) :
    ∑ number ∈ Finset.range later, function number = ∑ number ∈ Finset.range bound, function number := by
  refine (Finset.sum_subset (Finset.range_mono grows) fun number _ outside => ?_).symm
  exact absent number (by simpa using outside)

variable {ν : Type*} {entries others : Table Nat ν} {entry : ν} {number bound : Nat}

/-- The weights of the entries below a bound. -/
def total (entries : Table Nat ν) (bound : Nat) (weight : ν → Nat) : Nat :=
  ∑ number ∈ Finset.range bound, (entries.get number).elim 0 weight

theorem total_congr (weight : ν → Nat) (same : ∀ other, other < bound → entries.get other = others.get other) :
    entries.total bound weight = others.total bound weight := by
  refine Finset.sum_congr rfl fun other there => ?_
  rw [same other (Finset.mem_range.mp there)]

theorem total_update (weight : ν → Nat) (below : number < bound)
    (same : ∀ other, other ≠ number → entries.get other = others.get other) :
    entries.total bound weight + (others.get number).elim 0 weight =
      others.total bound weight + (entries.get number).elim 0 weight := by
  have weights : ∀ other, other ≠ number →
      (entries.get other).elim 0 weight = (others.get other).elim 0 weight := by
    intro other different
    rw [same other different]
  exact sum_range_update below weights

theorem total_insert (weight : ν → Nat) (present : entries.get number = some entry) (below : number < bound)
    (next : ν) :
    (entries.insert number next).total bound weight + weight entry = entries.total bound weight + weight next := by
  have others : ∀ other, other ≠ number → (entries.insert number next).get other = entries.get other :=
    fun other different => get_insert_of_ne different
  have changed := total_update weight below others
  rwa [present, get_insert_self] at changed

theorem total_insert_le (weight : ν → Nat) (entries : Table Nat ν) (number bound : Nat) (next : ν) :
    (entries.insert number next).total bound weight ≤ entries.total bound weight + weight next := by
  have others : ∀ other, other ≠ number → (entries.insert number next).get other = entries.get other :=
    fun other different => get_insert_of_ne different
  by_cases below : number < bound
  · have changed := total_update weight below others
    rw [get_insert_self, Option.elim_some] at changed
    omega
  · rw [total_congr weight fun other under => others other (by omega)]
    exact Nat.le_add_right _ _

theorem total_remove (weight : ν → Nat) (present : entries.get number = some entry) (below : number < bound) :
    (entries.remove number).total bound weight + weight entry = entries.total bound weight := by
  have others : ∀ other, other ≠ number → (entries.remove number).get other = entries.get other :=
    fun other different => get_remove_of_ne different
  have changed := total_update weight below others
  rwa [present, get_remove_self] at changed

theorem total_succ (weight : ν → Nat) (absent : entries.get bound = none) :
    entries.total (bound + 1) weight = entries.total bound weight := by
  simp [total, Finset.sum_range_succ, absent]

theorem total_add (weight : ν → Nat) (entries : Table Nat ν) (bound : Nat) (next : ν) :
    (entries.insert bound next).total (bound + 1) weight = entries.total bound weight + weight next := by
  have others : ∀ other, other < bound → (entries.insert bound next).get other = entries.get other :=
    fun other under => get_insert_of_ne (Nat.ne_of_lt under)
  rw [← total_congr weight others]
  simp [total, Finset.sum_range_succ]

end Table
