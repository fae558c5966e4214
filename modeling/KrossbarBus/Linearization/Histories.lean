import Mathlib.Data.List.Basic
import Mathlib.Data.List.Nodup

namespace Linearization

variable {α ι Op Ret σ : Type*}

/-- What the callers of an object see. -/
inductive CallEvent (ι Op Ret : Type*)
  | called (id : ι) (op : Op)
  | returned (id : ι) (ret : Ret)
  deriving DecidableEq

/-- An operation that has taken effect, with what it returns once that is known. -/
structure Operation (ι Op Ret : Type*) where
  id : ι
  op : Op
  ret : Option Ret

def Before (l : List α) (a b : α) : Prop := ∃ earlier later, l = earlier ++ later ∧ a ∈ earlier ∧ b ∈ later

/-- The operations one after the other, each on the state that the one before has left. -/
inductive Legal (spec : σ → Op → Option Ret → σ → Prop) (origin : σ) : List (Operation ι Op Ret) → σ → Prop
  | start : Legal spec origin [] origin
  | next {order : List (Operation ι Op Ret)} {middle after : σ} (earlier : Legal spec origin order middle)
      (operation : Operation ι Op Ret) (applies : spec middle operation.op operation.ret after) :
      Legal spec origin (order ++ [operation]) after

/-- The order is one of calls, each once, and of all that have returned. Who has returned before another is called
    comes before it. -/
structure Orders (seen : List (CallEvent ι Op Ret)) (order : List (Operation ι Op Ret)) : Prop where
  once : (order.map Operation.id).Nodup
  called : ∀ operation ∈ order, .called operation.id operation.op ∈ seen
  returned : ∀ id ret, .returned id ret ∈ seen → ∃ op, ⟨id, op, some ret⟩ ∈ order
  inTime : ∀ id ret other op, Before seen (.returned id ret) (.called other op) → other ∈ order.map Operation.id →
    Before (order.map Operation.id) id other

variable {l : List α} {a b c : α} {seen : List (CallEvent ι Op Ret)} {order : List (Operation ι Op Ret)} {id : ι}
  {op : Op} {ret : Ret}

theorem Before.left (before : Before l a b) : a ∈ l := by
  obtain ⟨earlier, later, rfl, there, _⟩ := before
  exact List.mem_append_left later there

theorem Before.more (before : Before l a b) (c : α) : Before (l ++ [c]) a b := by
  obtain ⟨earlier, later, rfl, left, right⟩ := before
  exact ⟨earlier, later ++ [c], List.append_assoc .., left, List.mem_append_left _ right⟩

theorem before_last (there : a ∈ l) (b : α) : Before (l ++ [b]) a b :=
  ⟨l, [b], rfl, there, List.mem_singleton_self b⟩

theorem before_snoc (before : Before (l ++ [c]) a b) : Before l a b ∨ (a ∈ l ∧ b = c) := by
  obtain ⟨earlier, later, split, left, right⟩ := before
  rcases List.eq_nil_or_concat later with rfl | ⟨rest, last, rfl⟩
  · cases right
  · rw [List.concat_eq_append, ← List.append_assoc] at split
    obtain ⟨rfl, same⟩ := List.append_inj' split rfl
    obtain rfl := List.singleton_inj.mp same
    rw [List.concat_eq_append] at right
    rcases List.mem_append.mp right with old | new
    · exact .inl ⟨earlier, rest, rfl, left, old⟩
    · exact .inr ⟨List.mem_append_left rest left, List.mem_singleton.mp new⟩

theorem Orders.start : Orders ([] : List (CallEvent ι Op Ret)) [] where
  once := List.nodup_nil
  called := by simp
  returned := by simp
  inTime := by simp

theorem Orders.call (orders : Orders seen order) (fresh : id ∉ order.map Operation.id) (op : Op) :
    Orders (seen ++ [.called id op]) order where
  once := orders.once
  called operation there := List.mem_append_left _ (orders.called operation there)
  returned other ret member := by
    rcases List.mem_append.mp member with old | new
    · exact orders.returned other ret old
    · cases List.mem_singleton.mp new
  inTime other ret later op' before there := by
    rcases before_snoc before with old | ⟨_, same⟩
    · exact orders.inTime other ret later op' old there
    · cases same
      exact absurd there fresh

/-- A call that has been seen takes effect, after those that have done so. -/
theorem Orders.take (orders : Orders seen order) (fresh : id ∉ order.map Operation.id) (called : .called id op ∈ seen) :
    Orders seen (order ++ [⟨id, op, none⟩]) where
  once := by
    rw [List.map_append, List.nodup_append_comm]
    exact List.nodup_cons.mpr ⟨fresh, orders.once⟩
  called operation there := by
    rcases List.mem_append.mp there with old | new
    · exact orders.called operation old
    · rw [List.mem_singleton.mp new]
      exact called
  returned other ret member := by
    obtain ⟨op, there⟩ := orders.returned other ret member
    exact ⟨op, List.mem_append_left _ there⟩
  inTime other ret later op' before there := by
    rw [List.map_append] at there ⊢
    obtain ⟨op, earlier⟩ := orders.returned other ret before.left
    rcases List.mem_append.mp there with old | new
    · exact (orders.inTime other ret later op' before old).more id
    · rw [List.mem_singleton.mp new]
      exact before_last (List.mem_map_of_mem earlier) id

/-- What the last operation returns becomes known. -/
theorem Orders.answer (orders : Orders seen (order ++ [⟨id, op, none⟩])) (ret : Ret) :
    Orders seen (order ++ [⟨id, op, some ret⟩]) where
  once := by simpa using orders.once
  called operation there := by
    rcases List.mem_append.mp there with old | new
    · exact orders.called operation (List.mem_append_left _ old)
    · rw [List.mem_singleton.mp new]
      exact orders.called ⟨id, op, none⟩ (List.mem_append_right _ (List.mem_singleton_self _))
  returned other given member := by
    obtain ⟨op', there⟩ := orders.returned other given member
    rcases List.mem_append.mp there with old | new
    · exact ⟨op', List.mem_append_left _ old⟩
    · cases List.mem_singleton.mp new
  inTime other given later op' before there := by
    simpa using orders.inTime other given later op' before (by simpa using there)

theorem Orders.tell (orders : Orders seen order) (there : ⟨id, op, some ret⟩ ∈ order) :
    Orders (seen ++ [.returned id ret]) order where
  once := orders.once
  called operation member := List.mem_append_left _ (orders.called operation member)
  returned other given member := by
    rcases List.mem_append.mp member with old | new
    · exact orders.returned other given old
    · cases List.mem_singleton.mp new
      exact ⟨op, there⟩
  inTime other given later op' before member := by
    rcases before_snoc before with old | ⟨_, same⟩
    · exact orders.inTime other given later op' old member
    · cases same

end Linearization
