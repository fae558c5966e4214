import KrossbarBus.Collections.Totals
import KrossbarBus.Lib.Conversations
import KrossbarBus.Transition.Inevitability

namespace KrossbarLib

open Transition (Inevitably)

/-- The steps that wait for no one: the owner polls, sends complete, futures that are ready are resumed. -/
def ServiceAction.internal : ServiceAction → Bool
  | .poll | .sent .. | .resumed _ | .reconnectEvent _ | .handled | .monitorSet | .reconnected => true
  | _ => false

/-- The steps by which a service takes what the hub has sent. -/
def ServiceAction.reads : ServiceAction → Bool
  | .resolved .. | .hubRequest _ | .registered none => true
  | _ => false

/-- What the parts of a service count in a sum over it. -/
structure Weights where
  handshake : Handshake → Nat
  phase : PollPhase → Nat
  idle : Nat
  signal : Nat

def ClientHandle.weight (weights : Weights) (poll_handle : ClientHandle) : Nat :=
  match poll_handle.phase with
  | .polling => 0
  | .reconnecting handshake => weights.handshake handshake

def Activity.weight (weights : Weights) : Activity → Nat
  | .idle => weights.idle
  | .polling phase => weights.phase phase
  | .connecting _ _ handshake phase => weights.handshake handshake + weights.phase phase
  | .panicked => 0

def Service.weight (weights : Weights) (service : Service) : Nat :=
  service.activity.weight weights + weights.signal * service.reconnect_signal.length +
    service.client_poll_handles.total service.clock (ClientHandle.weight weights)

/-- What a step takes from the sum and what it adds. -/
inductive Trade (weights : Weights) : ServiceAction → Nat → Nat → Prop
  | polled : Trade weights .poll weights.idle (weights.phase .selecting)
  | sent (requester : Requester) (message_id : Int) : Trade weights (.sent requester true)
      (weights.handshake .sending) (weights.handshake (.awaiting message_id))
  | unsent (requester : Requester) : Trade weights (.sent requester false)
      (weights.handshake .sending) (weights.handshake .waitingHub)
  | resumed (requester : Requester) (reply : Reply) : Trade weights (.resumed requester)
      (weights.handshake (.replied reply)) weights.idle
  | hubBack (requester : Requester) : Trade weights (.reconnectEvent requester)
      (weights.handshake .waitingHub + weights.signal) (weights.handshake .sending)
  | hubGone (requester : Requester) : Trade weights (.reconnectEvent requester)
      (weights.handshake .waitingHub + weights.signal) weights.idle
  | message (number : Nat) (poll_handle : ClientHandle) : Trade weights (.clientMessage number)
      (weights.phase .selecting) (weights.phase (.handlingCall number poll_handle))
  | handled (number : Nat) (poll_handle : ClientHandle) : Trade weights .handled
      (weights.phase (.handlingCall number poll_handle)) weights.idle
  | monitorSet : Trade weights .monitorSet (weights.phase .settingMonitor) weights.idle
  | reconnected : Trade weights .reconnected (weights.phase .reconnecting) (weights.idle + weights.signal)
  | resolved (message_id : Int) (reply : Reply) : Trade weights (.resolved message_id reply)
      (weights.handshake (.awaiting message_id)) (weights.handshake (.replied reply))
  | unclaimed (message_id : Int) (reply : Reply) : Trade weights (.resolved message_id reply) 0 0
  | connection (request : HubRequest) : Trade weights (.hubRequest request) (weights.phase .selecting) weights.idle
  | monitored (request : HubRequest) : Trade weights (.hubRequest request)
      (weights.phase .selecting) (weights.phase .settingMonitor)
  | registered : Trade weights (.registered none) (weights.phase .registering) (weights.phase .reconnecting)

/-- A bound for the steps that a service takes by itself. Each signal of the hub's return may send one request
    again. -/
def steps : Weights where
  handshake
    | .sending | .replied _ => 2
    | .waitingHub => 1
    | .awaiting _ => 0
  phase
    | .selecting => 0
    | .handlingCall .. | .settingMonitor => 2
    | .registering | .reconnecting => 4
  idle := 1
  signal := 2

def Service.work (service : Service) : Nat := service.weight steps

/-- The service selects and has nothing to do before it hears from the hub or a peer. -/
structure Service.AtRest (service : Service) : Prop where
  selecting : service.activity.pollPhase = some .selecting
  settled : ∀ requester service_name wait handshake,
    service.handshake requester = some (service_name, wait, handshake) →
    (∃ message_id, handshake = .awaiting message_id) ∨ handshake = .waitingHub ∧ service.reconnect_signal = []

/-- It waits for the answer to its registration, or `connect_impl` has panicked. -/
def Service.Halted (service : Service) : Prop :=
  service.activity.pollPhase = some .registering ∨ service.activity = .panicked

variable {monitor inspection : Bool} {service after : Service} {action : ServiceAction} {out : List ServiceEvent}
  {number : Nat} {poll_handle : ClientHandle} {requester : Requester} {service_name : String} {wait : Bool}
  {handshake : Handshake} {phase : PollPhase} {reply : Reply} (weights : Weights)

theorem weight_pollReturns (polls : service.activity.pollPhase = some phase) :
    service.activity.pollReturns.weight weights + weights.phase phase ≤
      service.activity.weight weights + weights.idle := by
  cases activity : service.activity with
  | polling current =>
    rw [activity] at polls
    cases polls
    simp only [Activity.pollReturns, Activity.weight]
    omega
  | connecting _ _ handshake current =>
    rw [activity] at polls
    cases polls
    simp only [Activity.pollReturns, Activity.weight]
    omega
  | _ =>
    rw [activity] at polls
    cases polls

theorem weight_withPhase (polls : service.activity.pollPhase = some phase) (next : PollPhase) :
    (service.activity.withPhase next).weight weights + weights.phase phase =
      service.activity.weight weights + weights.phase next := by
  cases activity : service.activity with
  | polling current =>
    rw [activity] at polls
    cases polls
    simp only [Activity.withPhase, Activity.weight]
    omega
  | connecting _ _ handshake current =>
    rw [activity] at polls
    cases polls
    simp only [Activity.withPhase, Activity.weight]
    omega
  | _ =>
    rw [activity] at polls
    cases polls

theorem handshake_weight (there : service.handshake (.handle number) = some (service_name, wait, handshake)) :
    ∃ poll_handle, service.client_poll_handles.get number = some poll_handle ∧
      poll_handle.weight weights = weights.handshake handshake := by
  simp only [Service.handshake, Option.bind_eq_some_iff] at there
  obtain ⟨poll_handle, present, going⟩ := there
  refine ⟨poll_handle, present, ?_⟩
  simp only [ClientHandle.handshake] at going
  split at going
  · cases going
  · rename_i phase
    cases going
    rw [ClientHandle.weight, phase]

theorem weight_addClient (service : Service) (service_name : String) (stream : Nat) (outgoing wait_connect : Bool) :
    (service.addClient service_name stream outgoing wait_connect).weight weights = service.weight weights := by
  have total := Table.total_add (ClientHandle.weight weights) service.client_poll_handles service.clock
    ⟨service_name, stream, outgoing, wait_connect, .polling⟩
  have added : ClientHandle.weight weights ⟨service_name, stream, outgoing, wait_connect, .polling⟩ = 0 := rfl
  simp only [Service.addClient, Service.weight]
  omega

theorem weight_handleNewConnection (selecting : service.activity.pollPhase = some .selecting) (request : HubRequest) :
    ∃ gained, Trade weights (.hubRequest request) (weights.phase .selecting) gained ∧
      (service.handleNewConnection monitor request).1.weight weights + weights.phase .selecting ≤
        service.weight weights + gained := by
  have returns := weight_pollReturns weights selecting
  cases request with
  | other =>
    refine ⟨weights.idle, .connection _, ?_⟩
    simp only [Service.handleNewConnection, Service.pollReturns, Service.weight]
    omega
  | fd client_name stream =>
    simp only [Service.handleNewConnection]
    split
    · have moved := weight_withPhase weights selecting .settingMonitor
      refine ⟨weights.phase .settingMonitor, .monitored _, ?_⟩
      simp only [Service.inPhase, Service.weight]
      omega
    · refine ⟨weights.idle, .connection _, ?_⟩
      split
      · simp only [Service.pollReturns, Service.weight]
        omega
      · have added := weight_addClient weights service client_name stream false false
        simp only [Service.addClient, Service.pollReturns, Service.weight] at added ⊢
        omega

section Numbered

variable (older : ∀ number poll_handle, service.client_poll_handles.get number = some poll_handle →
  number < service.clock)
include older

theorem weight_setHandshake (there : service.handshake requester = some (service_name, wait, handshake))
    (next : Handshake) : (service.setHandshake next requester).weight weights + weights.handshake handshake =
      service.weight weights + weights.handshake next := by
  cases requester with
  | connect =>
    obtain ⟨phase, connecting⟩ := handshake_connecting there
    simp only [Service.setHandshake, connecting, Service.weight, Activity.weight]
    omega
  | handle number =>
    obtain ⟨poll_handle, present, busy⟩ := handshake_weight weights there
    have total := Table.total_insert (ClientHandle.weight weights) present (older number poll_handle present)
      { poll_handle with phase := .reconnecting next }
    have renewed : ClientHandle.weight weights { poll_handle with phase := .reconnecting next } =
        weights.handshake next := rfl
    simp only [Service.setHandshake, present, Service.setHandle, Service.weight]
    omega

theorem weight_disconnect (selecting : service.activity.pollPhase = some .selecting)
    (present : service.client_poll_handles.get number = some poll_handle) (service_name : String) :
    (service.disconnect number service_name).1.weight weights + poll_handle.weight weights ≤
      service.weight weights + weights.idle := by
  have total := Table.total_remove (ClientHandle.weight weights) present (older number poll_handle present)
  have returns := weight_pollReturns weights selecting
  simp only [Service.disconnect, Service.pollReturns, Service.weight]
  omega

/-- A handshake that ends takes its weight with it. -/
theorem weight_finish (there : service.handshake requester = some (service_name, wait, handshake))
    (runs : service.runs requester = true)
    (finished : service.finish requester service_name wait reply = some (after, out)) :
    after.weight weights + weights.handshake handshake ≤ service.weight weights + weights.idle := by
  cases Service.finish_cases finished with
  | opened pair =>
    obtain ⟨phase, connecting⟩ := handshake_connecting there
    have added := weight_addClient weights service service_name pair true wait
    simp only [Service.addClient, Service.weight, connecting, Activity.weight] at added ⊢
    omega
  | refused e =>
    obtain ⟨phase, connecting⟩ := handshake_connecting there
    simp only [Service.weight, connecting, Activity.weight]
    omega
  | reopened number pair poll_handle present =>
    obtain ⟨_, present', busy⟩ := handshake_weight weights there
    rw [present] at present'
    cases present'
    have total := Table.total_insert (ClientHandle.weight weights) present (older number poll_handle present)
      { poll_handle with rpc := pair, phase := .polling }
    have polling : ClientHandle.weight weights { poll_handle with rpc := pair, phase := .polling } = 0 := rfl
    simp only [Service.setHandle, Service.weight]
    omega
  | abandoned number e =>
    obtain ⟨selecting, _⟩ := reconnecting_handle runs there
    obtain ⟨poll_handle, present, busy⟩ := handshake_weight weights there
    have dropped := weight_disconnect weights older selecting present service_name
    omega

theorem fresh_setHandshake (there : service.handshake requester = some (service_name, wait, handshake))
    (next : Handshake) : (service.setHandshake next requester).client_poll_handles.get service.clock = none := by
  cases requester with
  | connect =>
    rw [setHandshake_connect]
    exact Table.fresh_absent older
  | handle number =>
    obtain ⟨poll_handle, present, _⟩ := handshake_weight steps there
    simp only [Service.setHandshake, present, Service.setHandle]
    rw [Table.get_insert_of_ne (Nat.ne_of_gt (older number poll_handle present))]
    exact Table.fresh_absent older

theorem Service.Steps.trades (moves : service.Steps monitor action after out)
    (settles : (action.internal || action.reads || action.servesCall) = true) : ∃ spent gained,
    Trade weights action spent gained ∧ after.weight weights + spent ≤ service.weight weights + gained := by
  cases moves with
  | polled idle =>
    refine ⟨_, _, .polled, ?_⟩
    simp only [Service.weight, idle, Activity.weight]
    omega
  | sent requester service_name wait runs there =>
    have moved := weight_setHandshake weights older there (.awaiting service.clock)
    have total := Table.total_succ (ClientHandle.weight weights)
      (fresh_setHandshake older there (.awaiting service.clock))
    refine ⟨_, _, .sent requester service.clock, ?_⟩
    simp only [Service.weight, setHandshake_clock] at moved ⊢
    omega
  | unsent requester service_name wait runs there =>
    exact ⟨_, _, .unsent requester, Nat.le_of_eq (weight_setHandshake weights older there .waitingHub)⟩
  | resolved requester service_name wait message_id reply selecting there =>
    exact ⟨_, _, .resolved message_id reply, Nat.le_of_eq (weight_setHandshake weights older there (.replied reply))⟩
  | unclaimed message_id reply selecting => exact ⟨_, _, .unclaimed message_id reply, le_rfl⟩
  | resumed requester service_name wait reply after out runs there finished =>
    exact ⟨_, _, .resumed requester reply, weight_finish weights older there runs finished⟩
  | hubBack requester service_name wait rest runs there signal =>
    have moved := weight_setHandshake weights older there .sending
    have same : (service.setHandshake .sending requester).reconnect_signal = none :: rest := by
      rw [setHandshake_frame, signal]
    refine ⟨_, _, .hubBack requester, ?_⟩
    simp only [Service.weight, same, signal, List.length_cons, Nat.mul_succ] at moved ⊢
    omega
  | hubGone requester service_name wait e rest after out runs there signal finished =>
    let before : Service := { service with reconnect_signal := rest }
    have ended : after.weight weights + weights.handshake .waitingHub ≤ before.weight weights + weights.idle :=
      weight_finish weights older there runs finished
    refine ⟨_, _, .hubGone requester, ?_⟩
    simp only [before, Service.weight, signal, List.length_cons, Nat.mul_succ] at ended ⊢
    omega
  | message number poll_handle selecting present polling =>
    have total := Table.total_remove (ClientHandle.weight weights) present (older number poll_handle present)
    have moved := weight_withPhase weights selecting (.handlingCall number poll_handle)
    refine ⟨_, _, .message number poll_handle, ?_⟩
    simp only [Service.inPhase, Service.weight]
    omega
  | handled number poll_handle handling =>
    have returns := weight_pollReturns weights handling
    have total := Table.total_insert_le (ClientHandle.weight weights) service.client_poll_handles number service.clock
      { poll_handle with phase := .polling }
    have polling : ClientHandle.weight weights { poll_handle with phase := .polling } = 0 := rfl
    refine ⟨_, _, .handled number poll_handle, ?_⟩
    simp only [Service.setHandle, Service.pollReturns, Service.weight]
    omega
  | hubRequest request selecting =>
    obtain ⟨gained, trade, weighs⟩ := weight_handleNewConnection weights selecting request
    exact ⟨_, gained, trade, weighs⟩
  | monitorSet setting =>
    have returns := weight_pollReturns weights setting
    refine ⟨_, _, .monitorSet, ?_⟩
    simp only [Service.pollReturns, Service.weight]
    omega
  | registered registering =>
    have moved := weight_withPhase weights registering .reconnecting
    refine ⟨_, _, .registered, ?_⟩
    simp only [Service.inPhase, Service.weight]
    omega
  | reconnected reconnecting =>
    have returns := weight_pollReturns weights reconnecting
    refine ⟨_, _, .reconnected, ?_⟩
    simp only [Service.pollReturns, Service.weight, List.length_append, List.length_singleton, Nat.mul_succ]
    omega
  | _ => cases settles

theorem Service.Steps.works (moves : service.Steps monitor action after out) (internal : action.internal = true) :
    after.work < service.work := by
  obtain ⟨spent, gained, trade, weighs⟩ := moves.trades steps older (by simp [internal])
  have less : gained < spent := by
    cases trade with
    | message _ _ | resolved _ _ | unclaimed _ _ | connection _ | monitored _ | registered => cases internal
    | _ => simp [steps]
  simp only [Service.work]
  omega

end Numbered

/-- A handshake that is neither with the hub nor waiting for it goes on when it is polled. -/
theorem handshake_enabled (runs : service.runs requester = true)
    (there : service.handshake requester = some (service_name, wait, handshake))
    (unsettled : ¬ ((∃ message_id, handshake = .awaiting message_id) ∨
      handshake = .waitingHub ∧ service.reconnect_signal = [])) :
    ∃ action after out, action.internal = true ∧ Service.step monitor service action = some (after, out) := by
  have finishes : ∀ {before : Service} reply, before.handshake requester = some (service_name, wait, handshake) →
      ∃ after out, before.finish requester service_name wait reply = some (after, out) := by
    intro before reply going
    cases requester with
    | connect => cases reply <;> exact ⟨_, _, rfl⟩
    | handle number =>
      obtain ⟨poll_handle, present, _⟩ := handshake_weight steps going
      cases reply with
      | stream pair => exact ⟨_, _, by simp only [Service.finish, present]; rfl⟩
      | error e => exact ⟨_, _, rfl⟩
  cases handshake with
  | sending => exact ⟨.sent requester false, _, _, rfl, by simp [Service.step, runs, there]; exact ⟨rfl, rfl⟩⟩
  | awaiting message_id => exact absurd (.inl ⟨message_id, rfl⟩) unsettled
  | replied reply =>
    obtain ⟨after, out, finished⟩ := finishes reply there
    exact ⟨.resumed requester, after, out, rfl, by simp [Service.step, runs, there, finished]⟩
  | waitingHub =>
    cases signal : service.reconnect_signal with
    | nil => exact absurd (.inr ⟨rfl, signal⟩) unsettled
    | cons outcome rest =>
      cases outcome with
      | none =>
        exact ⟨.reconnectEvent requester, _, _, rfl, by simp [Service.step, runs, there, signal]; exact ⟨rfl, rfl⟩⟩
      | some e =>
        obtain ⟨after, out, finished⟩ := @finishes { service with reconnect_signal := rest } (.error e) there
        exact ⟨.reconnectEvent requester, after, out, rfl, by simp [Service.step, runs, there, signal, finished]⟩

theorem Service.internal_enabled (service : Service) : (service.AtRest ∨ service.Halted) ∨
    ∃ action after out, action.internal = true ∧ Service.step monitor service action = some (after, out) := by
  cases polls : service.activity.pollPhase with
  | none =>
    cases activity : service.activity with
    | idle => exact .inr ⟨.poll, _, _, rfl, by simp [Service.step, activity]; exact ⟨rfl, rfl⟩⟩
    | panicked => exact .inl (.inr (.inr activity))
    | _ =>
      rw [activity] at polls
      cases polls
  | some phase =>
    cases phase with
    | selecting =>
      by_cases settled : ∀ requester service_name wait handshake,
          service.handshake requester = some (service_name, wait, handshake) →
          (∃ message_id, handshake = .awaiting message_id) ∨ handshake = .waitingHub ∧ service.reconnect_signal = []
      · exact .inl (.inl ⟨polls, settled⟩)
      · simp only [not_forall] at settled
        obtain ⟨requester, service_name, wait, handshake, there, unsettled⟩ := settled
        have runs : service.runs requester = true := by cases requester <;> simp [Service.runs, polls]
        exact .inr (handshake_enabled runs there unsettled)
    | handlingCall number poll_handle =>
      exact .inr ⟨.handled, _, _, rfl, by simp [Service.step, polls]; exact ⟨rfl, rfl⟩⟩
    | settingMonitor => exact .inr ⟨.monitorSet, _, _, rfl, by simp [Service.step, polls]; exact ⟨rfl, rfl⟩⟩
    | registering => exact .inl (.inr (.inl polls))
    | reconnecting => exact .inr ⟨.reconnected, _, _, rfl, by simp [Service.step, polls]; exact ⟨rfl, rfl⟩⟩

end KrossbarLib
