import KrossbarBus.Lib.Conversations

namespace KrossbarLib

variable {Bson : Type} {monitor inspection : Bool} {serving after : Serving Bson} {action : ServingAction Bson}
  {log out : List (ServingEvent Bson)} {number id : Nat}

/-- The function of a method awaits the response of a call that it has made through the client of a handle. -/
def Serving.Awaits (serving : Serving Bson) (number id : Nat) : Prop :=
  ∃ request awaiting, serving.handling = some ⟨request, .running awaiting⟩ ∧ (number, id) ∈ awaiting

/-- A call is being handled only while its handle is in an arm, whatever futures have been dropped. -/
def Serving.Busy (serving : Serving Bson) : Prop :=
  serving.handling.isSome = true → serving.service.activity.held.isSome = true

theorem Serving.Steps.busy (steps : serving.Steps monitor inspection action after out) (busy : serving.Busy) :
    after.Busy := by
  cases steps with
  | service action service events apart drained taken =>
    intro handling
    simp only at handling ⊢
    split at handling
    · assumption
    · cases handling
  | register _ _ => exact busy
  | arrive _ _ _ _ _ _ => exact busy
  | arriveResponse _ _ _ _ => exact busy
  | read number request rest service events first taken =>
    obtain ⟨_, poll_handle, _, _, holds⟩ := message_taken taken
    intro _
    simp [holds]
  | deliver number id rest first polls =>
    intro handling
    rw [Option.isSome_map] at handling
    exact busy handling
  | call number request awaiting running =>
    intro _
    exact busy (by rw [running]; rfl)
  | resume input call number poll_handle phase current held resumed =>
    intro _
    simp [held]
  | complete _ _ _ _ _ _ _ _ =>
    intro handling
    cases handling

theorem run_busy {service_name : String}
    (run : Transition.Run (Serving.step monitor inspection) (.new service_name) log serving) : serving.Busy :=
  run.invariant (I := fun _ serving => serving.Busy) (by intro handling; cases handling)
    fun _ _ _ _ _ _ busy _ taken => (Serving.step_cases taken).busy busy

/-- Outside an arm the response at the head of a connection reaches the one who awaits it. -/
theorem deliver_enabled (polls : serving.service.pollsRpc number = true) {rest : List (Frame Bson)}
    (first : serving.inbox number = .response id :: rest) :
    ∃ after, Serving.step monitor inspection serving (.deliver number) = some (after, [.delivered number id]) := by
  simp only [Serving.step, first, polls, if_true]
  exact ⟨_, rfl⟩

theorem Serving.Steps.delivers (steps : serving.Steps monitor inspection action after out)
    (delivered : .delivered number id ∈ out) : serving.service.activity.held = none := by
  cases steps with
  | deliver _ _ _ _ polls => exact pollsRpc_free polls
  | service _ _ events _ _ _ => simp at delivered
  | resume input call _ _ _ _ _ _ => cases call.phase.response input <;> simp at delivered
  | _ => simp at delivered

/-- The futures of the handles are polled by the select alone, and the arm that runs the function is not it. -/
theorem awaits_undelivered (busy : serving.Busy) (awaits : serving.Awaits number id)
    (taken : Serving.step monitor inspection serving action = some (after, out)) : .delivered number id ∉ out := by
  intro delivered
  obtain ⟨request, awaiting, running, _⟩ := awaits
  have held := busy (by rw [running]; rfl)
  rw [(Serving.step_cases taken).delivers delivered] at held
  cases held

theorem Serving.Awaits.kept (awaits : serving.Awaits number id) (busy : serving.Busy) (spares : serving.Spares action)
    (runs : ∀ result, action ≠ .resume (.returned result))
    (steps : serving.Steps monitor inspection action after out) : after.Awaits number id := by
  obtain ⟨request, awaiting, running, member⟩ := awaits
  have held := busy (by rw [running]; rfl)
  cases steps with
  | service action service events apart drained taken =>
    refine ⟨request, awaiting, ?_, member⟩
    simp only [step_held spares apart taken, held, if_true, running]
  | register _ _ => exact ⟨request, awaiting, running, member⟩
  | arrive _ _ _ _ _ _ => exact ⟨request, awaiting, running, member⟩
  | arriveResponse _ _ _ _ => exact ⟨request, awaiting, running, member⟩
  | read _ _ _ _ _ _ taken =>
    rw [(message_taken taken).1] at held
    cases held
  | deliver _ _ _ _ polls =>
    rw [pollsRpc_free polls] at held
    cases held
  | call other _ _ running' =>
    rw [running] at running'
    cases running'
    exact ⟨request, _, rfl, List.mem_append_left _ member⟩
  | resume input call _ _ phase current _ resumed =>
    rw [running] at current
    cases current
    cases input with
    | returned result => exact absurd rfl (runs result)
    | _ => cases resumed
  | complete _ _ _ _ _ current _ _ =>
    rw [running] at current
    cases current

/-- Until the function gives up by itself or the future of the poll is dropped, the function keeps waiting and
    no step of the service delivers the response to it. -/
theorem handler_never_hears {service_name : String}
    (run : Transition.Run (Serving.step monitor inspection) (.new service_name) log serving)
    (awaits : serving.Awaits number id) {later_log : List (ServingEvent Bson)} {later : Serving Bson}
    (rest : Transition.RunWith (Serving.step monitor inspection)
      (fun serving action => serving.Spares action ∧ ∀ result, action ≠ .resume (.returned result))
      serving later_log later) :
    later.Awaits number id ∧ ∀ action after out,
      Serving.step monitor inspection later action = some (after, out) → .delivered number id ∉ out := by
  have kept : later.Busy ∧ later.Awaits number id := by
    apply rest.invariant (I := fun _ serving => serving.Busy ∧ serving.Awaits number id)
    · exact ⟨run_busy run, awaits⟩
    · intro _ serving action after out _ kept allowed taken
      have steps := Serving.step_cases taken
      exact ⟨steps.busy kept.1, kept.2.kept kept.1 allowed.1 allowed.2 steps⟩
  exact ⟨kept.2, fun action after out taken => awaits_undelivered kept.1 kept.2 taken⟩

/-- The method of `com.a` that `com.b` has called calls `com.c` and awaits its response, which has come. -/
def relaying : List (ServingAction Nat) :=
  [.register (.asyncMethod "relay" fun _ => none), .service .poll, .service (.hubRequest (.fd "com.b" 4)),
    .service .poll, .service (.hubRequest (.fd "com.c" 5)), .service .poll, .arrive 0 7 "relay" (.call 5), .read 0,
    .call 1, .arriveResponse 1 0]

theorem relaying_awaits : ∃ log serving,
    Transition.Run (Serving.step true true) (Serving.new "com.a" : Serving Nat) log serving ∧
    serving.Awaits 1 0 ∧ .response 0 ∈ serving.inbox 1 := by
  obtain ⟨log, serving, run, shown⟩ := Transition.exists_run_of_execute (Serving.step true true)
    (Serving.new "com.a" : Serving Nat) relaying
    (fun _ serving => serving.handling == some ⟨⟨4, 7, "relay", .call 5⟩, .running [(1, 0)]⟩ &&
      serving.inbox 1 == [.response 0])
    (by decide +kernel)
  simp only [Bool.and_eq_true, beq_iff_eq] at shown
  exact ⟨log, serving, run, ⟨_, _, shown.1, by simp⟩, by simp [shown.2]⟩

theorem handler_never_hears_relaying : ∃ log serving,
    Transition.Run (Serving.step true true) (Serving.new "com.a" : Serving Nat) log serving ∧
    .response 0 ∈ serving.inbox 1 ∧ serving.Awaits 1 0 ∧ ∀ action after out,
      Serving.step true true serving action = some (after, out) → .delivered 1 0 ∉ out := by
  obtain ⟨log, serving, run, awaits, available⟩ := relaying_awaits
  obtain ⟨awaits, unheard⟩ := handler_never_hears run awaits .start
  exact ⟨log, serving, run, available, awaits, unheard⟩

/-- The response is there, and no step hands it to the function. -/
theorem response_stays_behind_handler : ¬ ∀ log serving number id,
    Transition.Run (Serving.step true true) (Serving.new "com.a" : Serving Nat) log serving →
    serving.Awaits number id → .response id ∈ serving.inbox number →
    ∃ action after out, Serving.step true true serving action = some (after, out) ∧ .delivered number id ∈ out := by
  intro claimed
  obtain ⟨log, serving, run, awaits, available⟩ := relaying_awaits
  obtain ⟨action, after, out, taken, delivered⟩ := claimed log serving 1 0 run awaits available
  exact awaits_undelivered (run_busy run) awaits taken delivered

end KrossbarLib
