import Mathlib.Data.List.Basic

namespace Transition

variable {σ α ε : Type*}

/-- A labelled step function. `none` means that the action is not enabled; the list holds what the
    step makes observable, in order. -/
abbrev Step (σ α ε : Type*) := σ → α → Option (σ × List ε)

/-- The logs and states reached from `origin` by steps that all satisfy `allowed`. -/
inductive RunWith (step : Step σ α ε) (allowed : σ → α → Prop) (origin : σ) : List ε → σ → Prop
  | start : RunWith step allowed origin [] origin
  | next {log : List ε} {state after : σ} {action : α} {out : List ε}
      (run : RunWith step allowed origin log state) (ok : allowed state action)
      (taken : step state action = some (after, out)) :
      RunWith step allowed origin (log ++ out) after

abbrev Run (step : Step σ α ε) (origin : σ) : List ε → σ → Prop :=
  RunWith step (fun _ _ => True) origin

variable {step : Step σ α ε} {allowed : σ → α → Prop} {origin state : σ} {log : List ε}

theorem RunWith.run (run : RunWith step allowed origin log state) : Run step origin log state := by
  induction run with
  | start => exact .start
  | next _ _ taken ih => exact .next ih trivial taken

/-- The induction rule: what holds at the origin and survives every allowed step holds in every
    state reached. The run so far is at hand, so that earlier invariants can be used. -/
theorem RunWith.invariant {I : List ε → σ → Prop} (initial : I [] origin)
    (preserved : ∀ log state action after out, RunWith step allowed origin log state → I log state →
      allowed state action → step state action = some (after, out) → I (log ++ out) after)
    (run : RunWith step allowed origin log state) : I log state := by
  induction run with
  | start => exact initial
  | next run ok taken ih => exact preserved _ _ _ _ _ run ih ok taken

theorem RunWith.weaken {weaker : σ → α → Prop} (run : RunWith step allowed origin log state)
    (implies : ∀ state action, allowed state action → weaker state action) :
    RunWith step weaker origin log state := by
  induction run with
  | start => exact .start
  | next _ ok taken ih => exact .next ih (implies _ _ ok) taken

theorem RunWith.append {middle : σ} {later : List ε} (run : RunWith step allowed origin log middle)
    (rest : RunWith step allowed middle later state) : RunWith step allowed origin (log ++ later) state := by
  induction rest with
  | start => simpa using run
  | next _ ok taken ih =>
    rw [← List.append_assoc]
    exact ih.next ok taken

theorem RunWith.ahead {middle : σ} {action : α} {out later : List ε} (ok : allowed origin action)
    (taken : step origin action = some (middle, out)) (rest : RunWith step allowed middle later state) :
    RunWith step allowed origin (out ++ later) state := by
  have first : RunWith step allowed origin ([] ++ out) middle := .next .start ok taken
  exact first.append rest

/-- Every event of a log comes from a step of the run. -/
theorem RunWith.emitted (run : RunWith step allowed origin log state) {event : ε} (member : event ∈ log) :
    ∃ before middle action after out, RunWith step allowed origin before middle ∧ allowed middle action ∧
      step middle action = some (after, out) ∧ event ∈ out ∧ ∃ later, log = before ++ out ++ later := by
  induction run with
  | start => cases member
  | next run ok taken ih =>
    rcases List.mem_append.mp member with old | new
    · obtain ⟨before, middle, action, after, out, earlier, passed, step, emitted, later, split⟩ := ih old
      refine ⟨before, middle, action, after, out, earlier, passed, step, emitted, ?_⟩
      rw [split, List.append_assoc]
      exact ⟨_, rfl⟩
    · exact ⟨_, _, _, _, _, run, ok, taken, new, [], by rw [List.append_nil]⟩

/-- The simulation rule: a relation that every allowed step keeps, by a run of the other system, holds
    after every run. -/
theorem RunWith.simulate {σ' α' ε' : Type*} {step' : Step σ' α' ε'} {allowed' : σ' → α' → Prop}
    {R : σ → σ' → Prop} {image : σ'} (related : R origin image)
    (matched : ∀ state action after out image, R state image → allowed state action →
      step state action = some (after, out) →
      ∃ log image', RunWith step' allowed' image log image' ∧ R after image')
    (run : RunWith step allowed origin log state) :
    ∃ log' image', RunWith step' allowed' image log' image' ∧ R state image' := by
  induction run with
  | start => exact ⟨[], image, .start, related⟩
  | next _ ok taken ih =>
    obtain ⟨earlier, middle, first, related⟩ := ih
    obtain ⟨later, final, rest, related⟩ := matched _ _ _ _ middle related ok taken
    exact ⟨earlier ++ later, final, first.append rest, related⟩

/-- The refinement rule: where every step, seen through `view` and `observe`, is a run of the other system,
    so is every run. -/
theorem RunWith.refine {σ' α' ε' : Type*} {step' : Step σ' α' ε'} {allowed' : σ' → α' → Prop} (view : σ → σ')
    (observe : ε → Option ε')
    (matched : ∀ log state action after out, RunWith step allowed origin log state → allowed state action →
      step state action = some (after, out) →
      RunWith step' allowed' (view state) (out.filterMap observe) (view after))
    (run : RunWith step allowed origin log state) :
    RunWith step' allowed' (view origin) (log.filterMap observe) (view state) := by
  induction run with
  | start => exact .start
  | next run ok taken ih =>
    rw [List.filterMap_append]
    exact ih.append (matched _ _ _ _ _ run ok taken)

def guarded (step : Step σ α ε) (ok : σ → α → Bool) : Step σ α ε :=
  fun state action => if ok state action then step state action else none

theorem RunWith.of_guarded {ok : σ → α → Bool}
    (sound : ∀ log state action, RunWith step allowed origin log state → ok state action = true →
      allowed state action)
    (run : Run (guarded step ok) origin log state) : RunWith step allowed origin log state := by
  induction run with
  | start => exact .start
  | next _ _ taken ih =>
    unfold guarded at taken
    split at taken
    · rename_i passed
      exact .next ih (sound _ _ _ ih passed) taken
    · cases taken

def execute (step : Step σ α ε) : σ → List α → Option (σ × List ε)
  | state, [] => some (state, [])
  | state, action :: rest =>
    match step state action with
    | none => none
    | some (middle, out) =>
      match execute step middle rest with
      | none => none
      | some (final, log) => some (final, out ++ log)

theorem execute_cons {action : α} {rest : List α} {final : σ} :
    execute step state (action :: rest) = some (final, log) ↔
      ∃ middle out tail, step state action = some (middle, out) ∧
        execute step middle rest = some (final, tail) ∧ log = out ++ tail := by
  cases taken : step state action with
  | none => simp [execute, taken]
  | some next =>
    obtain ⟨middle, out⟩ := next
    cases continued : execute step middle rest with
    | none => simp [execute, taken, continued]
    | some last =>
      obtain ⟨last, tail⟩ := last
      simp only [execute, taken, continued, Option.some.injEq, Prod.mk.injEq]
      constructor
      · intro ⟨same, joined⟩
        exact ⟨middle, out, tail, ⟨rfl, rfl⟩, by rw [continued, same], joined.symm⟩
      · intro ⟨other, first, second, same, again, joined⟩
        obtain ⟨rfl, rfl⟩ := same
        rw [continued] at again
        cases again
        exact ⟨rfl, joined.symm⟩

theorem execute_extends {actions : List α} {middle final : σ} {before tail : List ε}
    (run : Run step origin before middle) (executed : execute step middle actions = some (final, tail)) :
    Run step origin (before ++ tail) final := by
  induction actions generalizing middle before tail with
  | nil =>
    obtain ⟨rfl, rfl⟩ := Prod.mk.inj (Option.some.inj executed)
    simpa using run
  | cons action rest ih =>
    obtain ⟨next, out, log, taken, continued, rfl⟩ := execute_cons.mp executed
    rw [← List.append_assoc]
    exact ih (run.next trivial taken) continued

theorem execute_run {actions : List α} {final : σ} {tail : List ε}
    (executed : execute step origin actions = some (final, tail)) : Run step origin tail final :=
  execute_extends .start executed

theorem exists_run_of_execute (step : Step σ α ε) (origin : σ) (actions : List α)
    (check : List ε → σ → Bool)
    (passed : (execute step origin actions).any (fun r => check r.2 r.1) = true) :
    ∃ log state, Run step origin log state ∧ check log state = true := by
  rw [Option.any_eq_true] at passed
  obtain ⟨⟨final, tail⟩, executed, good⟩ := passed
  exact ⟨tail, final, execute_run executed, good⟩

/-- Actions that change nothing can be left out of an execution. -/
theorem execute_erase {I : σ → Prop} {keep : α → Bool}
    (kept : ∀ state action after out, I state → step state action = some (after, out) → I after)
    (idle : ∀ state action after out, I state → keep action = false →
      step state action = some (after, out) → after = state ∧ out = [])
    {actions : List α} {final : σ} (holds : I state)
    (executed : execute step state actions = some (final, log)) :
    execute step state (actions.filter keep) = some (final, log) := by
  induction actions generalizing state log with
  | nil => exact executed
  | cons action rest ih =>
    obtain ⟨middle, out, tail, taken, continued, rfl⟩ := execute_cons.mp executed
    have erased := ih (kept state action middle out holds taken) continued
    cases keeps : keep action with
    | true =>
      rw [List.filter_cons_of_pos keeps]
      exact execute_cons.mpr ⟨middle, out, tail, taken, erased, rfl⟩
    | false =>
      obtain ⟨rfl, rfl⟩ := idle state action middle out holds keeps taken
      rw [List.filter_cons_of_neg (by simp [keeps])]
      exact erased

end Transition
