import KrossbarBus.Transition.Run

namespace Transition

variable {σ α ε : Type*} {step : Step σ α ε} {allowed : σ → α → Prop} {goal : σ → Prop} {state : σ}

/-- Whichever of the allowed steps are taken, the goal is reached, and there is always a step towards it. -/
inductive Inevitably (step : Step σ α ε) (allowed : σ → α → Prop) (goal : σ → Prop) : σ → Prop
  | reached {state : σ} (reached : goal state) : Inevitably step allowed goal state
  | moves {state : σ} (enabled : ∃ action after out, allowed state action ∧ step state action = some (after, out))
      (next : ∀ action after out, allowed state action → step state action = some (after, out) →
        Inevitably step allowed goal after) : Inevitably step allowed goal state

theorem Inevitably.run (inevitably : Inevitably step allowed goal state) :
    ∃ log final, RunWith step allowed state log final ∧ goal final := by
  induction inevitably with
  | reached reached => exact ⟨[], _, .start, reached⟩
  | moves enabled _ ih =>
    obtain ⟨action, after, out, ok, taken⟩ := enabled
    obtain ⟨log, final, run, reached⟩ := ih action after out ok taken
    exact ⟨_, final, run.ahead ok taken, reached⟩

/-- The progress rule: an invariant under which a rank descends along a well-founded relation, and under which
    some step is enabled as long as the goal has not been reached. -/
theorem Inevitably.of_wellFounded {ι : Type*} {r : ι → ι → Prop} (wellFounded : WellFounded r) {I : σ → Prop}
    (rank : σ → ι)
    (preserved : ∀ state action after out, I state → allowed state action → step state action = some (after, out) →
      I after ∧ r (rank after) (rank state))
    (enabled : ∀ state, I state → goal state ∨
      ∃ action after out, allowed state action ∧ step state action = some (after, out))
    (initial : I state) : Inevitably step allowed goal state := by
  generalize ranked : rank state = bound
  induction bound using wellFounded.induction generalizing state with
  | _ bound ih =>
    rcases enabled state initial with reached | moves
    · exact .reached reached
    · refine .moves moves fun action after out ok taken => ?_
      obtain ⟨kept, less⟩ := preserved state action after out initial ok taken
      rw [ranked] at less
      exact ih (rank after) less kept rfl

theorem Inevitably.of_decreasing {I : σ → Prop} (measure : σ → Nat)
    (preserved : ∀ state action after out, I state → allowed state action → step state action = some (after, out) →
      I after ∧ measure after < measure state)
    (enabled : ∀ state, I state → goal state ∨
      ∃ action after out, allowed state action ∧ step state action = some (after, out))
    (initial : I state) : Inevitably step allowed goal state :=
  .of_wellFounded Nat.lt_wfRel.wf measure preserved enabled initial

end Transition
