import KrossbarBus.Lib.ServiceSteps

namespace KrossbarLib

open KrossbarHub (Error monitorServiceName)

variable {monitor : Bool} {origin service after : Service} {action : ServiceAction}
  {log out : List ServiceEvent} {service_name : String} {wait : Bool} {handshake : Handshake}
  {phase : PollPhase}

/-- The steps with which `Service::poll` is through with an event. -/
def Service.concludes (monitor : Bool) (service : Service) : ServiceAction → Bool
  | .handled | .monitorSet | .reconnected | .interrupt => true
  | .registered failure => failure.isSome
  | .hubRequest (.fd client_name _) => !(monitor && client_name == monitorServiceName)
  | .hubRequest .other => true
  | .streamLost number => (service.client_poll_handles.get number).any fun poll_handle => !poll_handle.outgoing
  | .resumed (.handle number) =>
    match service.handshake (.handle number) with
    | some (_, _, .replied (.error _)) => true
    | _ => false
  | .reconnectEvent (.handle _) => service.reconnect_signal.head?.any Option.isSome
  | _ => false

def Activity.connects : Activity → Bool
  | .connecting .. => true
  | _ => false

@[simp] theorem setHandshake_handle_activity (number : Nat) :
    (service.setHandshake handshake (.handle number)).activity = service.activity := by
  rw [setHandshake_handle]

/-- A connecting service goes on, returns, or panics. The panic needs a step that concludes. -/
structure ConnectOutcome (monitor : Bool) (service : Service) (action : ServiceAction) (service_name : String)
    (wait : Bool) (after : Service) (out : List ServiceEvent) : Prop where
  panics : after.activity = .panicked ↔ service.concludes monitor action = true
  survives : after.activity ≠ .panicked →
    (∃ handshake phase, after.activity = .connecting service_name wait handshake phase) ∨
    after.activity = .idle ∧
      (action = .cancel ∨ (∃ client, .returned client ∈ out) ∨ ∃ e, .refused e ∈ out)

theorem ConnectOutcome.concluded (ended : service.concludes monitor action = true)
    (panicked : after.activity = .panicked) :
    ConnectOutcome monitor service action service_name wait after out where
  panics := ⟨fun _ => ended, fun _ => panicked⟩
  survives := fun alive => absurd panicked alive

theorem ConnectOutcome.goes_on (quiet : service.concludes monitor action = false)
    (connecting : after.activity = .connecting service_name wait handshake phase) :
    ConnectOutcome monitor service action service_name wait after out where
  panics := by simp [connecting, quiet]
  survives := fun _ => .inl ⟨handshake, phase, connecting⟩

theorem ConnectOutcome.returned (quiet : service.concludes monitor action = false) (idle : after.activity = .idle)
    (because : action = .cancel ∨ (∃ client, .returned client ∈ out) ∨ ∃ e, .refused e ∈ out) :
    ConnectOutcome monitor service action service_name wait after out where
  panics := by simp [idle, quiet]
  survives := fun _ => .inr ⟨idle, because⟩

/-- What a step makes of the activity, and whether `Service::poll` is through with an event. -/
inductive Service.Moves (monitor : Bool) (service : Service) (action : ServiceAction) (after : Service)
    (out : List ServiceEvent) : Prop
  | opens (idle : service.activity = .idle) (service_name : String) (wait : Bool)
      (now : after.activity = .connecting service_name wait .sending .selecting)
  | polls (idle : service.activity = .idle) (now : after.activity = .polling .selecting)
  | cancels (cancel : action = .cancel) (now : after.activity = .idle)
  | stays (quiet : service.concludes monitor action = false) (now : after.activity = service.activity)
  | shakes (quiet : service.concludes monitor action = false) (service_name : String) (wait : Bool)
      (handshake next : Handshake) (phase : PollPhase)
      (connecting : service.activity = .connecting service_name wait handshake phase)
      (now : after.activity = .connecting service_name wait next phase)
  | awaits (quiet : service.concludes monitor action = false) (phase : PollPhase)
      (now : after.activity = service.activity.withPhase phase)
  | concludes (ended : service.concludes monitor action = true) (now : after.activity = service.activity.pollReturns)
  | returns (quiet : service.concludes monitor action = false) (now : after.activity = .idle)
      (result : (∃ client, .returned client ∈ out) ∨ ∃ e, .refused e ∈ out)

theorem moves_setHandshake (requester : Requester) (next : Handshake)
    (same : after.activity = (service.setHandshake next requester).activity)
    (quiet : service.concludes monitor action = false) : service.Moves monitor action after out := by
  cases requester with
  | connect =>
    simp only [Service.setHandshake] at same
    split at same
    · rename_i service_name wait handshake phase connecting
      exact .shakes quiet service_name wait handshake next phase connecting same
    · exact .stays quiet same
  | handle number =>
    rw [setHandshake_handle_activity] at same
    exact .stays quiet same

theorem Service.Steps.moves (steps : service.Steps monitor action after out) :
    service.Moves monitor action after out := by
  cases steps with
  | known _ _ _ _ _ _ _ => exact .stays rfl rfl
  | stale _ _ _ _ _ => exact .stays rfl rfl
  | opened service_name wait idle _ => exact .opens idle service_name wait rfl
  | polled idle => exact .polls idle rfl
  | cancelled _ _ => exact .cancels rfl rfl
  | sent requester _ _ _ _ => exact moves_setHandshake requester _ rfl rfl
  | unsent requester _ _ _ _ => exact moves_setHandshake requester _ rfl rfl
  | resolved requester _ _ _ _ _ _ => exact moves_setHandshake requester _ rfl rfl
  | unclaimed _ _ _ => exact .stays rfl rfl
  | callLost requester _ _ _ _ _ => exact moves_setHandshake requester _ rfl rfl
  | resumed requester target _ reply _ _ _ there finished =>
    cases Service.finish_cases finished with
    | opened pair => exact .returns rfl rfl (.inl ⟨service.clock, by simp⟩)
    | refused e => exact .returns rfl rfl (.inr ⟨e, by simp⟩)
    | reopened number pair poll_handle present => exact .stays (by simp only [Service.concludes, there]) rfl
    | abandoned number e => exact .concludes (by simp only [Service.concludes, there]) rfl
  | hubBack requester _ _ rest _ there signal =>
    have quiet : service.concludes monitor (.reconnectEvent requester) = false := by
      cases requester with
      | connect => rfl
      | handle number => simp [Service.concludes, signal]
    exact moves_setHandshake requester .sending rfl quiet
  | hubGone requester _ _ e rest _ _ _ there signal finished =>
    cases Service.finish_cases finished with
    | refused e => exact .returns rfl rfl (.inr ⟨e, by simp⟩)
    | abandoned number e => exact .concludes (by simp [Service.concludes, signal]) rfl
  | message number poll_handle _ _ _ => exact .awaits rfl (.handlingCall number poll_handle) rfl
  | handled _ _ _ => exact .concludes rfl rfl
  | reconnects number _ _ present _ outgoing => exact .stays (by simp [Service.concludes, present, outgoing]) rfl
  | drops number _ _ present _ incoming => exact .concludes (by simp [Service.concludes, present, incoming]) rfl
  | hubRequest request _ =>
    cases request with
    | other => exact .concludes rfl rfl
    | fd client_name stream =>
      cases special : monitor && client_name == monitorServiceName with
      | true =>
        apply Service.Moves.awaits
        · simp only [Service.concludes, special, Bool.not_true]
        · simp only [Service.handleNewConnection, special, if_true]
          rfl
      | false =>
        apply Service.Moves.concludes
        · simp only [Service.concludes, special, Bool.not_false]
        · simp only [Service.handleNewConnection, special, Bool.false_eq_true, if_false]
          split <;> rfl
  | monitorSet _ => exact .concludes rfl rfl
  | hubLost _ => exact .awaits rfl .registering rfl
  | registered _ => exact .awaits rfl .reconnecting rfl
  | rejected _ _ => exact .concludes rfl rfl
  | reconnected _ => exact .concludes rfl rfl
  | interrupted _ => exact .concludes rfl rfl

theorem Service.Moves.outcome (moves : service.Moves monitor action after out)
    (connecting : service.activity = .connecting service_name wait handshake phase) :
    ConnectOutcome monitor service action service_name wait after out := by
  cases moves with
  | opens idle _ _ _ => rw [idle] at connecting; cases connecting
  | polls idle _ => rw [idle] at connecting; cases connecting
  | cancels cancel now =>
    subst cancel
    exact .returned rfl now (.inl rfl)
  | stays quiet now => exact .goes_on quiet (now.trans connecting)
  | shakes quiet _ _ _ next _ there now =>
    rw [there] at connecting
    cases connecting
    exact .goes_on quiet now
  | awaits quiet next now =>
    rw [connecting] at now
    exact .goes_on quiet now
  | concludes ended now =>
    rw [connecting] at now
    exact .concluded ended now
  | returns quiet now result => exact .returned quiet now (.inr result)

theorem Service.Moves.calm (moves : service.Moves monitor action after out)
    (calm : service.activity.connects = false) (alive : service.activity ≠ .panicked) :
    after.activity ≠ .panicked := by
  cases moves with
  | opens _ _ _ now => simp [now]
  | polls _ now => simp [now]
  | cancels _ now => simp [now]
  | stays _ now =>
    rw [now]
    exact alive
  | shakes _ _ _ _ _ _ _ now => simp [now]
  | awaits _ next now =>
    rw [now]
    revert calm alive
    cases service.activity <;> simp [Activity.withPhase]
  | concludes _ now =>
    rw [now]
    revert calm alive
    cases service.activity <;> simp [Activity.connects, Activity.pollReturns]
  | returns _ now _ => simp [now]

theorem Activity.connects_cases {activity : Activity} (connects : activity.connects = true) :
    ∃ service_name wait handshake phase, activity = .connecting service_name wait handshake phase := by
  cases activity with
  | connecting service_name wait handshake phase => exact ⟨service_name, wait, handshake, phase, rfl⟩
  | _ => cases connects

theorem connect_begins (idle : service.activity = .idle) (service_name : String) (wait : Bool) :
    ∃ after out, Service.step monitor service (.connect service_name wait) = some (after, out) ∧
      (after.activity = .connecting service_name wait .sending .selecting ∨
        after.activity = .idle ∧ ∃ client, .returned client ∈ out) := by
  simp only [Service.step, idle, ne_eq, not_true_eq_false, if_false]
  split
  · rename_i number _
    split
    · exact ⟨_, _, rfl, .inr ⟨idle, number, List.mem_singleton.mpr rfl⟩⟩
    · exact ⟨_, _, rfl, .inr ⟨idle, number, List.mem_singleton.mpr rfl⟩⟩
  · exact ⟨_, _, rfl, .inl rfl⟩

/-- `connect` returns as long as the service is through with no event meanwhile. -/
theorem connect_returns (alive : origin.activity ≠ .panicked)
    (run : Transition.RunWith (Service.step monitor)
      (fun service action => service.activity.connects = true → service.concludes monitor action = false)
      origin log service) :
    service.activity ≠ .panicked ∧
    (service.activity = .idle → ∀ service_name wait, ∃ after out,
      Service.step monitor service (.connect service_name wait) = some (after, out) ∧
      (after.activity = .connecting service_name wait .sending .selecting ∨
        after.activity = .idle ∧ ∃ client, .returned client ∈ out)) ∧
    ∀ service_name wait handshake phase, service.activity = .connecting service_name wait handshake phase →
      (∀ action after out, Service.step monitor service action = some (after, out) →
        ConnectOutcome monitor service action service_name wait after out) ∧
      ∀ reply, handshake = .replied reply → ∃ after out,
        Service.step monitor service (.resumed .connect) = some (after, out) ∧ after.activity = .idle ∧
        match reply with
        | .error e => out = [.refused e]
        | .stream pair => out = [.adopted service_name pair, .returned service.clock] ∧
          after.client_map.get service_name = some service.clock ∧
          after.client_poll_handles.get service.clock = some ⟨service_name, pair, true, wait, .polling⟩ := by
  refine ⟨?_, connect_begins, ?_⟩
  · apply run.invariant (I := fun _ service => service.activity ≠ .panicked) alive
    intro _ service action after out _ alive through taken
    have steps := Service.step_cases taken
    cases connects : service.activity.connects with
    | false => exact steps.moves.calm connects alive
    | true =>
      obtain ⟨service_name, wait, handshake, phase, connecting⟩ := Activity.connects_cases connects
      intro panicked
      have ended := (steps.moves.outcome connecting).panics.mp panicked
      rw [through connects] at ended
      cases ended
  · intro service_name wait handshake phase connecting
    refine ⟨fun action after out taken => (Service.step_cases taken).moves.outcome connecting, ?_⟩
    rintro reply rfl
    have there : service.handshake .connect = some (service_name, wait, .replied reply) := by
      simp only [Service.handshake, Activity.handshake, connecting]
    have taken : Service.step monitor service (.resumed .connect) =
        service.finish .connect service_name wait reply := by
      simp [Service.step, Service.runs, there]
    rw [taken]
    cases reply with
    | error e => exact ⟨_, _, rfl, rfl, rfl⟩
    | stream pair =>
      refine ⟨_, _, rfl, rfl, rfl, ?_, ?_⟩
      · exact Table.get_insert_self
      · exact Table.get_insert_self

theorem connect_returns_reconnecting : ∃ log service after out,
    Transition.Run (Service.step true) (Service.new "com.a") log service ∧
    .adopted "com.c" 5 ∈ log ∧
    Service.step true service (.resumed .connect) = some (after, out) ∧
    out = [.adopted "com.b" 6, .returned service.clock] := by
  obtain ⟨log, service, run, shown⟩ := Transition.exists_run_of_execute
    (Transition.guarded (Service.step true) fun service action =>
      !service.activity.connects || !service.concludes true action)
    (Service.new "com.a")
    [.connect "com.c" false, .sent .connect true, .resolved 0 (.stream 4), .resumed .connect,
      .connect "com.b" true, .sent .connect true, .streamLost 1, .sent (.handle 1) true,
      .resolved 3 (.stream 5), .resumed (.handle 1), .resolved 2 (.stream 6)]
    (fun log service => log.contains (.adopted "com.c" 5) &&
      service.activity == .connecting "com.b" true (.replied (.stream 6)) .selecting)
    (by decide +kernel)
  simp only [Bool.and_eq_true, beq_iff_eq, List.contains_iff_mem] at shown
  have quiet : Transition.RunWith (Service.step true)
      (fun service action => service.activity.connects = true → service.concludes true action = false)
      (Service.new "com.a") log service := by
    apply run.of_guarded
    intro _ service action _ passed connects
    simpa [connects] using passed
  obtain ⟨_, _, returns⟩ := connect_returns (by decide) quiet
  obtain ⟨_, resolved⟩ := returns "com.b" true (.replied (.stream 6)) .selecting shown.2
  obtain ⟨after, out, taken, _, result, _⟩ := resolved (.stream 6) rfl
  exact ⟨log, service, after, out, quiet.run, shown.1, taken, result⟩

theorem connect_panics_on_incoming_connection : ∃ log service,
    Transition.Run (Service.step true) (Service.new "com.a") log service ∧ service.activity = .panicked := by
  obtain ⟨log, service, run, shown⟩ := Transition.exists_run_of_execute
    (Service.step true) (Service.new "com.a")
    [.connect "com.b" true, .sent .connect true, .hubRequest (.fd "com.c" 4)]
    (fun _ service => service.activity == .panicked)
    (by decide +kernel)
  exact ⟨log, service, run, beq_iff_eq.mp shown⟩

end KrossbarLib
