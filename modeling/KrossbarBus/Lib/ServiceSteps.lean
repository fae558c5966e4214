import KrossbarBus.Lib.Service

namespace KrossbarLib

open KrossbarHub (Error)

variable {monitor : Bool} {service after : Service} {action : ServiceAction} {out : List ServiceEvent}

inductive Service.Steps (monitor : Bool) (service : Service) :
    ServiceAction → Service → List ServiceEvent → Prop
  | known (service_name : String) (wait : Bool) (number : Nat) (poll_handle : ClientHandle)
      (idle : service.activity = .idle) (entry : service.client_map.get service_name = some number)
      (present : service.client_poll_handles.get number = some poll_handle) :
      Steps monitor service (.connect service_name wait)
        (service.setHandle number { poll_handle with outgoing := true }) [.returned number]
  | stale (service_name : String) (wait : Bool) (number : Nat) (idle : service.activity = .idle)
      (entry : service.client_map.get service_name = some number) :
      Steps monitor service (.connect service_name wait) service [.returned number]
  | opened (service_name : String) (wait : Bool) (idle : service.activity = .idle)
      (absent : service.client_map.get service_name = none) :
      Steps monitor service (.connect service_name wait)
        { service with activity := .connecting service_name wait .sending .selecting } []
  | polled (idle : service.activity = .idle) :
      Steps monitor service .poll { service with activity := .polling .selecting } []
  | cancelled (phase : PollPhase) (busy : service.activity.pollPhase = some phase) :
      Steps monitor service .cancel { service with activity := .idle } []
  | sent (requester : Requester) (service_name : String) (wait : Bool) (runs : service.runs requester = true)
      (handshake : service.handshake requester = some (service_name, wait, .sending)) :
      Steps monitor service (.sent requester true)
        { service.setHandshake (.awaiting service.clock) requester with clock := service.clock + 1 }
        [.requested service.clock service_name wait]
  | unsent (requester : Requester) (service_name : String) (wait : Bool) (runs : service.runs requester = true)
      (handshake : service.handshake requester = some (service_name, wait, .sending)) :
      Steps monitor service (.sent requester false) (service.setHandshake .waitingHub requester) []
  | resolved (requester : Requester) (service_name : String) (wait : Bool) (message_id : Int) (reply : Reply)
      (selecting : service.activity.pollPhase = some .selecting)
      (handshake : service.handshake requester = some (service_name, wait, .awaiting message_id)) :
      Steps monitor service (.resolved message_id reply) (service.setHandshake (.replied reply) requester) []
  | unclaimed (message_id : Int) (reply : Reply) (selecting : service.activity.pollPhase = some .selecting) :
      Steps monitor service (.resolved message_id reply) service []
  | callLost (requester : Requester) (e : Error) (service_name : String) (wait : Bool) (message_id : Int)
      (handshake : service.handshake requester = some (service_name, wait, .awaiting message_id)) :
      Steps monitor service (.callLost requester e)
        (service.setHandshake (.replied (.error e)) requester) []
  | resumed (requester : Requester) (service_name : String) (wait : Bool) (reply : Reply)
      (after : Service) (out : List ServiceEvent) (runs : service.runs requester = true)
      (handshake : service.handshake requester = some (service_name, wait, .replied reply))
      (finished : service.finish requester service_name wait reply = some (after, out)) :
      Steps monitor service (.resumed requester) after out
  | hubBack (requester : Requester) (service_name : String) (wait : Bool) (rest : List (Option Error))
      (runs : service.runs requester = true)
      (handshake : service.handshake requester = some (service_name, wait, .waitingHub))
      (signal : service.reconnect_signal = none :: rest) :
      Steps monitor service (.reconnectEvent requester)
        { service.setHandshake .sending requester with reconnect_signal := rest } []
  | hubGone (requester : Requester) (service_name : String) (wait : Bool) (e : Error)
      (rest : List (Option Error)) (after : Service) (out : List ServiceEvent)
      (runs : service.runs requester = true)
      (handshake : service.handshake requester = some (service_name, wait, .waitingHub))
      (signal : service.reconnect_signal = some e :: rest)
      (finished : { service with reconnect_signal := rest }.finish requester service_name wait (.error e) =
        some (after, out)) :
      Steps monitor service (.reconnectEvent requester) after out
  | message (number : Nat) (poll_handle : ClientHandle)
      (selecting : service.activity.pollPhase = some .selecting)
      (present : service.client_poll_handles.get number = some poll_handle)
      (polling : poll_handle.phase = .polling) :
      Steps monitor service (.clientMessage number)
        ({ service with client_poll_handles := service.client_poll_handles.remove number }.inPhase
          (.handlingCall number poll_handle)) []
  | handled (number : Nat) (poll_handle : ClientHandle)
      (handling : service.activity.pollPhase = some (.handlingCall number poll_handle)) :
      Steps monitor service .handled
        (service.setHandle number { poll_handle with phase := .polling }).pollReturns []
  | reconnects (number : Nat) (poll_handle : ClientHandle)
      (selecting : service.activity.pollPhase = some .selecting)
      (present : service.client_poll_handles.get number = some poll_handle)
      (polling : poll_handle.phase = .polling) (outgoing : poll_handle.outgoing = true) :
      Steps monitor service (.streamLost number)
        (service.setHandle number { poll_handle with phase := .reconnecting .sending }) []
  | drops (number : Nat) (poll_handle : ClientHandle)
      (selecting : service.activity.pollPhase = some .selecting)
      (present : service.client_poll_handles.get number = some poll_handle)
      (polling : poll_handle.phase = .polling) (incoming : poll_handle.outgoing = false) :
      Steps monitor service (.streamLost number) (service.disconnect number poll_handle.service_name).1
        [.disconnected poll_handle.service_name]
  | hubRequest (request : HubRequest) (selecting : service.activity.pollPhase = some .selecting) :
      Steps monitor service (.hubRequest request) (service.handleNewConnection monitor request).1
        (service.handleNewConnection monitor request).2
  | monitorSet (setting : service.activity.pollPhase = some .settingMonitor) :
      Steps monitor service .monitorSet service.pollReturns []
  | hubLost (selecting : service.activity.pollPhase = some .selecting) :
      Steps monitor service .hubLost (service.inPhase .registering) []
  | registered (registering : service.activity.pollPhase = some .registering) :
      Steps monitor service (.registered none) (service.inPhase .reconnecting) []
  | rejected (e : Error) (registering : service.activity.pollPhase = some .registering) :
      Steps monitor service (.registered (some e))
        { service with reconnect_signal := service.reconnect_signal ++ [some e] }.pollReturns []
  | reconnected (reconnecting : service.activity.pollPhase = some .reconnecting) :
      Steps monitor service .reconnected
        { service with reconnect_signal := service.reconnect_signal ++ [none] }.pollReturns []
  | interrupted (selecting : service.activity.pollPhase = some .selecting) :
      Steps monitor service .interrupt service.pollReturns []

theorem Service.awaiter_awaits {message_id : Int} {requester : Requester}
    (found : service.awaiter message_id = some requester) :
    ∃ service_name wait, service.handshake requester = some (service_name, wait, .awaiting message_id) := by
  have awaits := List.find?_some found
  rw [Option.any_eq_true] at awaits
  obtain ⟨⟨service_name, wait, handshake⟩, there, same⟩ := awaits
  rw [beq_iff_eq] at same
  exact ⟨service_name, wait, by rw [there, same]⟩

theorem handshake_connecting {service_name : String} {wait : Bool} {handshake : Handshake}
    (there : service.handshake .connect = some (service_name, wait, handshake)) :
    ∃ phase, service.activity = .connecting service_name wait handshake phase := by
  simp only [Service.handshake, Activity.handshake] at there
  split at there
  · rename_i phase connecting
    cases there
    exact ⟨phase, connecting⟩
  · cases there

/-- The ends of a handshake. -/
inductive Service.Finishes (service : Service) (service_name : String) (wait : Bool) :
    Requester → Reply → Service → List ServiceEvent → Prop
  | opened (pair : Nat) :
      Finishes service service_name wait .connect (.stream pair)
        { service.addClient service_name pair true wait with activity := .idle }
        [.adopted service_name pair, .returned service.clock]
  | refused (e : Error) :
      Finishes service service_name wait .connect (.error e) { service with activity := .idle } [.refused e]
  | reopened (number pair : Nat) (poll_handle : ClientHandle)
      (present : service.client_poll_handles.get number = some poll_handle) :
      Finishes service service_name wait (.handle number) (.stream pair)
        (service.setHandle number { poll_handle with rpc := pair, phase := .polling }) [.adopted service_name pair]
  | abandoned (number : Nat) (e : Error) :
      Finishes service service_name wait (.handle number) (.error e) (service.disconnect number service_name).1
        [.disconnected service_name]

theorem Service.finish_cases {requester : Requester} {service_name : String} {wait : Bool} {reply : Reply}
    (finished : service.finish requester service_name wait reply = some (after, out)) :
    service.Finishes service_name wait requester reply after out := by
  cases requester with
  | connect =>
    cases reply with
    | stream pair =>
      cases finished
      exact .opened pair
    | error e =>
      cases finished
      exact .refused e
  | handle number =>
    cases reply with
    | stream pair =>
      simp only [Service.finish] at finished
      split at finished
      · cases finished
      · rename_i poll_handle present
        cases finished
        exact .reopened number pair poll_handle present
    | error e =>
      cases finished
      exact .abandoned number e

theorem Service.connect_cases {service_name : String} {wait : Bool}
    (taken : Service.step monitor service (.connect service_name wait) = some (after, out)) :
    service.Steps monitor (.connect service_name wait) after out := by
  simp only [Service.step] at taken
  split at taken
  · cases taken
  · rename_i idle
    have idle := not_not.mp idle
    split at taken
    · rename_i number entry
      split at taken
      · rename_i poll_handle present
        cases taken
        exact .known service_name wait number poll_handle idle entry present
      · cases taken
        exact .stale service_name wait number idle entry
    · rename_i absent
      cases taken
      exact .opened service_name wait idle absent

theorem Service.sent_cases {requester : Requester} {ok : Bool}
    (taken : Service.step monitor service (.sent requester ok) = some (after, out)) :
    service.Steps monitor (.sent requester ok) after out := by
  simp only [Service.step] at taken
  split at taken
  · cases taken
  · rename_i runs
    simp only [Bool.not_eq_true', Bool.not_eq_false] at runs
    split at taken
    · rename_i service_name wait handshake
      cases ok with
      | true =>
        cases taken
        exact .sent requester service_name wait runs handshake
      | false =>
        cases taken
        exact .unsent requester service_name wait runs handshake
    · cases taken

theorem Service.resolved_cases {message_id : Int} {reply : Reply}
    (taken : Service.step monitor service (.resolved message_id reply) = some (after, out)) :
    service.Steps monitor (.resolved message_id reply) after out := by
  simp only [Service.step] at taken
  split at taken
  · cases taken
  · rename_i selecting
    have selecting := not_not.mp selecting
    split at taken
    · rename_i requester found
      obtain ⟨service_name, wait, handshake⟩ := Service.awaiter_awaits found
      cases taken
      exact .resolved requester service_name wait message_id reply selecting handshake
    · cases taken
      exact .unclaimed message_id reply selecting

theorem Service.resumed_cases {requester : Requester}
    (taken : Service.step monitor service (.resumed requester) = some (after, out)) :
    service.Steps monitor (.resumed requester) after out := by
  simp only [Service.step] at taken
  split at taken
  · cases taken
  · rename_i runs
    simp only [Bool.not_eq_true', Bool.not_eq_false] at runs
    split at taken
    · rename_i service_name wait reply handshake
      exact .resumed requester service_name wait reply after out runs handshake taken
    · cases taken

theorem Service.reconnectEvent_cases {requester : Requester}
    (taken : Service.step monitor service (.reconnectEvent requester) = some (after, out)) :
    service.Steps monitor (.reconnectEvent requester) after out := by
  simp only [Service.step] at taken
  split at taken
  · cases taken
  · rename_i runs
    simp only [Bool.not_eq_true', Bool.not_eq_false] at runs
    split at taken
    · rename_i service_name wait rest handshake signal
      cases taken
      exact .hubBack requester service_name wait rest runs handshake signal
    · rename_i service_name wait e rest handshake signal
      exact .hubGone requester service_name wait e rest after out runs handshake signal taken
    · cases taken

theorem Service.clientMessage_cases {number : Nat}
    (taken : Service.step monitor service (.clientMessage number) = some (after, out)) :
    service.Steps monitor (.clientMessage number) after out := by
  simp only [Service.step] at taken
  split at taken
  · cases taken
  · rename_i selecting
    split at taken
    · rename_i poll_handle present
      split at taken
      · cases taken
      · rename_i polling
        cases taken
        exact .message number poll_handle (not_not.mp selecting) present (not_not.mp polling)
    · cases taken

theorem Service.streamLost_cases {number : Nat}
    (taken : Service.step monitor service (.streamLost number) = some (after, out)) :
    service.Steps monitor (.streamLost number) after out := by
  simp only [Service.step] at taken
  split at taken
  · cases taken
  · rename_i selecting
    split at taken
    · rename_i poll_handle present
      split at taken
      · cases taken
      · rename_i polling
        split at taken
        · rename_i outgoing
          cases taken
          exact .reconnects number poll_handle (not_not.mp selecting) present (not_not.mp polling) outgoing
        · rename_i incoming
          cases taken
          exact .drops number poll_handle (not_not.mp selecting) present (not_not.mp polling)
            (eq_false_of_ne_true incoming)
    · cases taken

theorem Service.step_cases (taken : Service.step monitor service action = some (after, out)) :
    service.Steps monitor action after out := by
  cases action with
  | connect service_name wait => exact Service.connect_cases taken
  | sent requester ok => exact Service.sent_cases taken
  | resolved message_id reply => exact Service.resolved_cases taken
  | resumed requester => exact Service.resumed_cases taken
  | reconnectEvent requester => exact Service.reconnectEvent_cases taken
  | clientMessage number => exact Service.clientMessage_cases taken
  | streamLost number => exact Service.streamLost_cases taken
  | poll =>
    simp only [Service.step] at taken
    split at taken
    · cases taken
    · rename_i idle
      cases taken
      exact .polled (not_not.mp idle)
  | cancel =>
    simp only [Service.step] at taken
    split at taken
    · rename_i phase busy
      cases taken
      exact .cancelled phase (by rw [busy]; rfl)
    · rename_i phase busy
      cases taken
      exact .cancelled phase (by rw [busy]; rfl)
    · cases taken
  | callLost requester e =>
    simp only [Service.step] at taken
    split at taken
    · rename_i service_name wait message_id handshake
      cases taken
      exact .callLost requester e service_name wait message_id handshake
    · cases taken
  | handled =>
    simp only [Service.step] at taken
    split at taken
    · rename_i number poll_handle handling
      cases taken
      exact .handled number poll_handle handling
    · cases taken
  | registered failure =>
    cases failure <;> simp only [Service.step] at taken <;> split at taken <;> cases taken
    · rename_i registering
      exact .registered (not_not.mp registering)
    · rename_i e registering
      exact .rejected e (not_not.mp registering)
  | hubRequest request =>
    simp only [Service.step] at taken
    split at taken
    · cases taken
    · rename_i selecting
      obtain ⟨rfl, rfl⟩ := Prod.mk.inj (Option.some.inj taken)
      exact .hubRequest request (not_not.mp selecting)
  | monitorSet =>
    simp only [Service.step] at taken
    split at taken <;> cases taken
    rename_i setting
    exact .monitorSet (not_not.mp setting)
  | hubLost =>
    simp only [Service.step] at taken
    split at taken <;> cases taken
    rename_i selecting
    exact .hubLost (not_not.mp selecting)
  | reconnected =>
    simp only [Service.step] at taken
    split at taken <;> cases taken
    rename_i reconnecting
    exact .reconnected (not_not.mp reconnecting)
  | interrupt =>
    simp only [Service.step] at taken
    split at taken <;> cases taken
    rename_i selecting
    exact .interrupted (not_not.mp selecting)

/-- The handshake of a `connect` is in the activity, that of a handle is in the handle. -/
theorem setHandshake_connect (next : Handshake) : service.setHandshake next .connect =
    { service with activity := (service.setHandshake next .connect).activity } := by
  simp only [Service.setHandshake]
  split <;> rfl

theorem setHandshake_handle (next : Handshake) (number : Nat) : service.setHandshake next (.handle number) =
    { service with client_poll_handles := (service.setHandshake next (.handle number)).client_poll_handles } := by
  simp only [Service.setHandshake]
  split <;> rfl

theorem setHandshake_frame (next : Handshake) (requester : Requester) : service.setHandshake next requester =
    { service with
      activity := (service.setHandshake next requester).activity
      client_poll_handles := (service.setHandshake next requester).client_poll_handles } := by
  cases requester with
  | connect =>
    rw [setHandshake_connect]
  | handle number =>
    rw [setHandshake_handle]

end KrossbarLib
