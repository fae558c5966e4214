import KrossbarBus.Lib.Connect

namespace KrossbarLib

open KrossbarHub (Error)

variable {monitor : Bool} {service after : Service} {action : ServiceAction} {out : List ServiceEvent}
  {phase : PollPhase}

/-- `Service::run`, which owns the service: it awaits `self.poll()`, or has returned. -/
inductive ServiceRun
  | looping (service : Service)
  | returned (result : Except Error Unit)

def Service.run (service : Service) : ServiceRun :=
  .looping { service with activity := .polling .selecting }

/-- What `Service::poll` has returned, if it has. The arm of the interrupt says `return Ok(())`, all
    others come to the `Ok(())` at the end. -/
def Service.pollResult (service : Service) : Option (Except Error Unit) :=
  match service.activity with
  | .idle => some (.ok ())
  | _ => none

/-- What only the owner of a service can do. -/
def ServiceAction.byOwner : ServiceAction → Bool
  | .connect .. | .poll | .cancel => true
  | _ => false

/-- One step of `loop { self.poll().await? }`. -/
def Service.runStep (monitor : Bool) : Transition.Step ServiceRun ServiceAction ServiceEvent
  | .looping service, action =>
    if action.byOwner then none
    else match Service.step monitor service action with
      | none => none
      | some (after, out) =>
        match after.pollResult with
        | none => some (.looping after, out)
        | some (.ok ()) => some (after.run, out)
        | some (.error e) => some (.returned (.error e), out)
  | .returned _, _ => none

def ServiceRun.Polls (run : ServiceRun) : Prop :=
  ∃ service phase, run = .looping service ∧ service.activity = .polling phase

theorem Service.run_polls (service : Service) : service.run.Polls :=
  ⟨{ service with activity := .polling .selecting }, .selecting, rfl, rfl⟩

/-- A polled service goes on polling, or `poll` returns. -/
theorem Service.Moves.polling (moves : service.Moves monitor action after out)
    (polling : service.activity = .polling phase) :
    after.activity = .idle ∨ ∃ next, after.activity = .polling next := by
  cases moves with
  | opens idle _ _ _ => rw [idle] at polling; cases polling
  | polls idle _ => rw [idle] at polling; cases polling
  | cancels _ now => exact .inl now
  | stays _ now => exact .inr ⟨phase, now.trans polling⟩
  | shakes _ _ _ _ _ _ connecting _ => rw [connecting] at polling; cases polling
  | awaits _ next now =>
    rw [polling] at now
    exact .inr ⟨next, now⟩
  | concludes _ now =>
    rw [polling] at now
    exact .inl now
  | returns _ now _ => exact .inl now

/-- `run` takes the steps of a polled service, and polls again when `poll` has returned. -/
theorem Service.runStep_cases {state : ServiceRun} (polling : service.activity = .polling phase)
    (taken : Service.runStep monitor (.looping service) action = some (state, out)) :
    ∃ after, Service.step monitor service action = some (after, out) ∧
      ((state = .looping after ∧ ∃ next, after.activity = .polling next) ∨
        (state = after.run ∧ after.activity = .idle)) := by
  simp only [Service.runStep] at taken
  split at taken
  · cases taken
  · split at taken
    · cases taken
    · rename_i after events stepped
      rcases (Service.step_cases stepped).moves.polling polling with idle | ⟨next, polls⟩
      · simp only [Service.pollResult, idle] at taken
        cases taken
        exact ⟨after, stepped, .inr ⟨rfl, idle⟩⟩
      · simp only [Service.pollResult, polls] at taken
        cases taken
        exact ⟨after, stepped, .inl ⟨rfl, next, polls⟩⟩

theorem ServiceRun.Polls.step {state next : ServiceRun} (polls : state.Polls)
    (taken : Service.runStep monitor state action = some (next, out)) : next.Polls := by
  obtain ⟨service, phase, rfl, polling⟩ := polls
  obtain ⟨after, _, ⟨rfl, next, polls⟩ | ⟨rfl, _⟩⟩ := Service.runStep_cases polling taken
  · exact ⟨after, next, rfl, polls⟩
  · exact after.run_polls

/-- The arm of the interrupt only makes `run` poll again. -/
theorem ServiceRun.Polls.interrupt {state next : ServiceRun} (polls : state.Polls)
    (taken : Service.runStep monitor state .interrupt = some (next, out)) : next = state ∧ out = [] := by
  obtain ⟨service, phase, rfl, polling⟩ := polls
  obtain ⟨after, stepped, shape⟩ := Service.runStep_cases polling taken
  cases Service.step_cases stepped with
  | interrupted selecting =>
    have selects : phase = .selecting := by simpa [polling, Activity.pollPhase] using selecting
    subst selects
    have idle : service.pollReturns.activity = .idle := by
      simp [Service.pollReturns, Activity.pollReturns, polling]
    rcases shape with ⟨_, next, polls⟩ | ⟨rfl, _⟩
    · rw [idle] at polls
      cases polls
    · refine ⟨?_, rfl⟩
      simp only [Service.run, Service.pollReturns, ← polling]

def ServiceAction.isInterrupt : ServiceAction → Bool
  | .interrupt => true
  | _ => false

/-- The run of the trace ends with the interrupt, having handled what came before, and returns `Ok`
    in no other way. -/
structure StopsOnInterrupt (monitor : Bool) (service : Service) (actions : List ServiceAction) : Prop where
  stops : ∀ before later, actions = before ++ .interrupt :: later → later = [] ∧
    ∃ state log, Transition.execute (Service.runStep monitor) service.run before = some (state, log) ∧
      Transition.execute (Service.runStep monitor) service.run actions = some (.returned (.ok ()), log)
  goesOn : .interrupt ∉ actions → ∀ log,
    Transition.execute (Service.runStep monitor) service.run actions ≠ some (.returned (.ok ()), log)

theorem run_polls {actions : List ServiceAction} {state : ServiceRun} {log : List ServiceEvent}
    (executed : Transition.execute (Service.runStep monitor) service.run actions = some (state, log)) :
    state.Polls :=
  (Transition.execute_run executed).invariant (I := fun _ state => state.Polls) service.run_polls
    fun _ _ _ _ _ _ polls _ taken => polls.step taken

/-- `run` stops on no interrupt: it never returns, and goes on as if the interrupts had not been sent.
    So it stops as it should only when there is none. -/
theorem run_ignores_interrupt {actions : List ServiceAction} {state : ServiceRun} {log : List ServiceEvent}
    (executed : Transition.execute (Service.runStep monitor) service.run actions = some (state, log)) :
    (StopsOnInterrupt monitor service actions ↔ .interrupt ∉ actions) ∧
    (∃ after, state = .looping after) ∧
    Transition.execute (Service.runStep monitor) service.run
      (actions.filter fun action => !action.isInterrupt) = some (state, log) := by
  obtain ⟨after, phase, loops, _⟩ := run_polls executed
  have unreturned : ∀ result log, Transition.execute (Service.runStep monitor) service.run actions ≠
      some (.returned result, log) := by
    intro result log returned
    rw [executed, loops] at returned
    cases returned
  refine ⟨⟨?_, ?_⟩, ⟨after, loops⟩, ?_⟩
  · intro stops interrupted
    obtain ⟨before, later, split⟩ := List.append_of_mem interrupted
    obtain ⟨_, _, log, _, returned⟩ := stops.stops before later split
    exact unreturned _ log returned
  · intro absent
    refine ⟨?_, fun _ => unreturned _⟩
    intro before later split
    exact absurd (by simp [split]) absent
  · apply Transition.execute_erase (I := ServiceRun.Polls) _ _ service.run_polls executed
    · intro state action after out polls taken
      exact polls.step taken
    · intro state action after out polls interrupt taken
      cases action with
      | interrupt => exact polls.interrupt taken
      | _ => cases interrupt

theorem run_ignores_interrupt_serving : ∃ state log,
    Transition.execute (Service.runStep true) (Service.new "com.b").run
      [.hubRequest (.fd "com.a" 3), .interrupt, .clientMessage 0, .handled] = some (state, log) ∧
    (∃ after, state = .looping after) ∧
    Transition.execute (Service.runStep true) (Service.new "com.b").run
      [.hubRequest (.fd "com.a" 3), .clientMessage 0, .handled] = some (state, log) := by
  have served : (Transition.execute (Service.runStep true) (Service.new "com.b").run
      [.hubRequest (.fd "com.a" 3), .interrupt, .clientMessage 0, .handled]).isSome := by decide
  obtain ⟨⟨state, log⟩, executed⟩ := Option.isSome_iff_exists.mp served
  have ignored := run_ignores_interrupt executed
  exact ⟨state, log, executed, ignored.2.1, ignored.2.2⟩

/-- The interrupt of a new service does not end its run: the peer that connects next is accepted. -/
theorem interrupted_run_accepts :
    ¬ StopsOnInterrupt true (Service.new "com.b") [.interrupt] ∧
    ∃ after, Transition.execute (Service.runStep true) (Service.new "com.b").run
      [.interrupt, .hubRequest (.fd "com.a" 3)] = some (.looping after, [.accepted "com.a" 3]) := by
  have loops : Transition.execute (Service.runStep true) (Service.new "com.b").run [.interrupt] =
      some ((Service.new "com.b").run, []) := rfl
  constructor
  · intro stops
    obtain ⟨_, _, log, _, returned⟩ := stops.stops [] [] rfl
    rw [loops] at returned
    cases returned
  · exact ⟨_, rfl⟩

end KrossbarLib
