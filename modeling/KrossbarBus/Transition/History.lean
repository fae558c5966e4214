import KrossbarBus.Transition.Run
import Mathlib.Data.List.Induction

namespace Transition

variable {ε : Type*} {P : List ε → ε → Prop} {log out : List ε}

def Justified (P : List ε → ε → Prop) (log : List ε) : Prop :=
  ∀ before event after, log = before ++ event :: after → P before event

/-- The events of `out` are justified when they are logged one by one after `log`. -/
def JustifiedAfter (P : List ε → ε → Prop) (log : List ε) : List ε → Prop
  | [] => True
  | event :: rest => P log event ∧ JustifiedAfter P (log ++ [event]) rest

@[simp] theorem justifiedAfter_nil : JustifiedAfter P log [] := trivial

theorem justifiedAfter_of_forall (always : ∀ before event, event ∈ out → P before event) :
    JustifiedAfter P log out := by
  induction out generalizing log with
  | nil => exact justifiedAfter_nil
  | cons event rest ih =>
    refine ⟨always log event List.mem_cons_self, ?_⟩
    apply ih
    intro before later member
    exact always before later (List.mem_cons_of_mem event member)

theorem JustifiedAfter.append {more : List ε} (first : JustifiedAfter P log out)
    (second : JustifiedAfter P (log ++ out) more) : JustifiedAfter P log (out ++ more) := by
  induction out generalizing log with
  | nil => simpa using second
  | cons event rest ih =>
    refine ⟨first.1, ih first.2 ?_⟩
    simpa using second

theorem JustifiedAfter.split (justified : JustifiedAfter P log out) {before after : List ε} {event : ε}
    (split : out = before ++ event :: after) : P (log ++ before) event := by
  induction before generalizing log out with
  | nil =>
    subst split
    simpa using justified.1
  | cons first rest ih =>
    subst split
    have tail := ih justified.2 rfl
    simpa using tail

theorem justified_nil : Justified P [] := by
  intro before event after split
  simp at split

theorem Justified.append (old : Justified P log) (new : JustifiedAfter P log out) :
    Justified P (log ++ out) := by
  intro before event after split
  rcases List.append_eq_append_iff.mp split with ⟨extra, rfl, right⟩ | ⟨extra, left, right⟩
  · exact new.split right
  · cases extra with
    | nil =>
      have first : P (log ++ []) event := new.split right.symm
      simp only [List.append_nil] at left first
      rwa [left] at first
    | cons first rest =>
      obtain ⟨rfl, rfl⟩ := List.cons.inj right
      exact old before event rest left

/-- The last event of a kind. -/
def latest (kind : ε → Bool) (log : List ε) : Option ε := (log.filter kind).getLast?

section Latest

variable {kind narrower : ε → Bool} {event : ε}

@[simp] theorem latest_nil : latest kind [] = none := rfl

theorem latest_concat (log : List ε) (event : ε) :
    latest kind (log ++ [event]) = if kind event then some event else latest kind log := by
  unfold latest
  rw [List.filter_append]
  by_cases this : kind event = true
  · rw [if_pos this, List.filter_cons_of_pos this, List.filter_nil, List.getLast?_concat]
  · rw [if_neg this, List.filter_cons_of_neg this, List.filter_nil, List.append_nil]

theorem latest_narrow (found : latest kind log = some event) (member : narrower event = true)
    (narrows : ∀ event, narrower event = true → kind event = true) : latest narrower log = some event := by
  induction log using List.reverseRecOn with
  | nil => cases found
  | append_singleton log last ih =>
    rw [latest_concat] at found ⊢
    by_cases this : kind last = true
    · rw [if_pos this] at found
      cases found
      rw [if_pos member]
    · rw [if_neg this] at found
      rw [if_neg (fun inside => this (narrows last inside))]
      exact ih found

theorem latest_kind (found : latest kind log = some event) : kind event = true := by
  have member := List.mem_of_getLast? found
  exact (List.mem_filter.mp member).2

theorem latest_absent (absent : latest kind log = none) (narrows : ∀ event, narrower event = true → kind event = true) :
    latest narrower log = none := by
  have empty : log.filter kind = [] := List.getLast?_eq_none_iff.mp absent
  have narrow : log.filter narrower = [] := by
    rw [List.filter_eq_nil_iff] at empty ⊢
    exact fun event member inside => empty event member (narrows event inside)
  rw [latest, narrow]
  rfl

end Latest

end Transition
