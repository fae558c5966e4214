import KrossbarBus.Bus.Machine
import KrossbarBus.Hub.Steps

namespace KrossbarBus

open KrossbarHub KrossbarLib

variable {env : HubEnvironment} {bus after : Bus} {action : BusAction} {out log : List BusEvent}

theorem setProcess_cases {pid other : Nat} {process found : Process}
    (there : (bus.setProcess pid process).processes.get other = some found) :
    (other = pid ∧ found = process) ∨ (other ≠ pid ∧ bus.processes.get other = some found) := by
  simp only [Bus.setProcess, Table.get_insert] at there
  split at there
  · rename_i same
    exact .inl ⟨same, (Option.some.inj there).symm⟩
  · rename_i different
    exact .inr ⟨different, there⟩

theorem send_cases {conn other : Conn} {messages : List Message} {message : Message}
    (member : message ∈ (bus.send conn messages).toHub other) :
    message ∈ bus.toHub other ∨ (other = conn ∧ message ∈ messages) := by
  simp only [Bus.send, Function.update_apply] at member
  split at member
  · rename_i same
    rw [same]
    rcases List.mem_append.mp member with before | new
    · exact .inl before
    · exact .inr ⟨rfl, new⟩
  · exact .inl member

theorem mem_of_mem_taken {conn other : Conn} {next delivery : Delivery} {rest : List Delivery}
    (queue : bus.fromHub conn = next :: rest) (member : delivery ∈ (bus.taken conn rest).fromHub other) :
    delivery ∈ bus.fromHub other := by
  simp only [Bus.taken, Function.update_apply] at member
  split at member
  · rename_i same
    rw [same, queue]
    exact List.mem_cons_of_mem next member
  · exact member

theorem mem_taken {conn other : Conn} {next delivery : Delivery} {rest : List Delivery}
    (queue : bus.fromHub conn = next :: rest) (member : delivery ∈ bus.fromHub other) :
    (other = conn ∧ delivery = next) ∨ delivery ∈ (bus.taken conn rest).fromHub other := by
  by_cases same : other = conn
  · subst same
    rw [queue] at member
    rcases List.mem_cons.mp member with first | later
    · exact .inl ⟨rfl, first⟩
    · right
      simp only [Bus.taken, Function.update_self]
      exact later
  · right
    simp only [Bus.taken, Function.update_of_ne same]
    exact member

theorem mem_serviceEvents {pid other : Nat} {event : ServiceEvent} {events : List ServiceEvent} :
    .service other event ∈ events.map (BusEvent.service pid) ↔ other = pid ∧ event ∈ events := by
  rw [List.mem_map]
  constructor
  · rintro ⟨inner, there, same⟩
    cases same
    exact ⟨rfl, there⟩
  · rintro ⟨rfl, there⟩
    exact ⟨event, there, rfl⟩

theorem hub_notMem_serviceEvents (pid : Nat) (event : Event) (events : List ServiceEvent) :
    .hub event ∉ events.map (BusEvent.service pid) := by
  intro member
  obtain ⟨_, _, same⟩ := List.mem_map.mp member
  cases same

inductive Bus.Steps (env : HubEnvironment) (bus : Bus) : BusAction → Bus → List BusEvent → Prop
  | started (service_name : String) (monitor : Bool) (credentials : UCred) (message_id : Int) (middle : Bus)
      (out : List BusEvent)
      (connected : bus.hubConnect env bus.clock service_name credentials message_id = some (middle, out)) :
      Steps env bus (.start service_name monitor credentials message_id)
        { middle.setProcess bus.clock ⟨service_name, monitor, none, bus.hub.clock, none⟩ with
          clock := bus.clock + 1 } out
  | registered (pid : Nat) (process : Process) (message_id : Int) (rest : List Delivery)
      (present : bus.processes.get pid = some process) (waiting : process.service = none)
      (queue : bus.fromHub process.hub_connection = .response message_id .ok :: rest) :
      Steps env bus (.registered pid) ((bus.taken process.hub_connection rest).setProcess pid
        { process with service := some (.new process.service_name) }) []
  | exited (pid : Nat) : Steps env bus (.exit pid) { bus with processes := bus.processes.remove pid } []
  | served (pid : Nat) (process : Process) (service : Service) (action : ServiceAction) (after : Bus)
      (out : List BusEvent) (present : bus.processes.get pid = some process)
      (running : process.service = some service) (own : ownServiceAction action = true)
      (stepped : bus.serviceStep pid process service action = some (after, out)) :
      Steps env bus (.service pid action) after out
  | delivered (pid : Nat) (process : Process) (service : Service) (next : Delivery) (rest : List Delivery)
      (action : ServiceAction) (after : Bus) (out : List BusEvent)
      (present : bus.processes.get pid = some process) (running : process.service = some service)
      (queue : bus.fromHub process.hub_connection = next :: rest) (means : next.action = some action)
      (stepped : (bus.taken process.hub_connection rest).serviceStep pid process service action =
        some (after, out)) :
      Steps env bus (.deliver pid) after out
  | ignored (pid : Nat) (process : Process) (service : Service) (next : Delivery) (rest : List Delivery)
      (present : bus.processes.get pid = some process) (running : process.service = some service)
      (queue : bus.fromHub process.hub_connection = next :: rest) (means : next.action = none) :
      Steps env bus (.deliver pid) (bus.taken process.hub_connection rest) []
  | rejoining (pid : Nat) (process : Process) (service : Service) (credentials : UCred) (message_id : Int)
      (middle : Bus) (out : List BusEvent) (present : bus.processes.get pid = some process)
      (running : process.service = some service)
      (connected : bus.hubConnect env pid process.service_name credentials message_id = some (middle, out)) :
      Steps env bus (.rejoin pid credentials message_id)
        (middle.setProcess pid { process with joining := some bus.hub.clock }) out
  | rejoined (pid : Nat) (process : Process) (service : Service) (conn : Conn) (message_id : Int)
      (rest : List Delivery) (after : Bus) (out : List BusEvent)
      (present : bus.processes.get pid = some process) (running : process.service = some service)
      (joining : process.joining = some conn) (queue : bus.fromHub conn = .response message_id .ok :: rest)
      (stepped : (bus.taken conn rest).serviceStep pid { process with hub_connection := conn, joining := none }
        service (.registered none) = some (after, out)) :
      Steps env bus (.rejoined pid) after out
  | rejoinFailed (pid : Nat) (process : Process) (service : Service) (e : Error) (after : Bus)
      (out : List BusEvent) (present : bus.processes.get pid = some process)
      (running : process.service = some service)
      (stepped : bus.serviceStep pid { process with joining := none } service (.registered (some e)) =
        some (after, out)) :
      Steps env bus (.rejoinFailed pid e) after out
  | received (conn : Conn) (message : Message) (rest : List Message) (after : Bus) (out : List BusEvent)
      (queue : bus.toHub conn = message :: rest)
      (stepped : { bus with toHub := Function.update bus.toHub conn rest }.hubStep env
        (.task conn (.polled (some message))) = some (after, out)) :
      Steps env bus (.receive conn) after out
  | hub (action : Action) (after : Bus) (out : List BusEvent) (own : ownHubAction action = true)
      (stepped : bus.hubStep env action = some (after, out)) :
      Steps env bus (.hub action) after out

theorem deliver_cases {pid : Nat} (taken : Bus.step env bus (.deliver pid) = some (after, out)) :
    bus.Steps env (.deliver pid) after out := by
  simp only [Bus.step] at taken
  split at taken
  · rename_i process present
    split at taken
    · rename_i service next rest running queue
      split at taken
      · rename_i action means
        exact .delivered pid process service next rest action after out present running queue means taken
      · rename_i means
        cases taken
        exact .ignored pid process service next rest present running queue means
    · cases taken
  · cases taken

theorem rejoin_cases {pid : Nat} {credentials : UCred} {message_id : Int}
    (taken : Bus.step env bus (.rejoin pid credentials message_id) = some (after, out)) :
    bus.Steps env (.rejoin pid credentials message_id) after out := by
  simp only [Bus.step] at taken
  split at taken
  · rename_i process present
    split at taken
    · rename_i service running
      split at taken
      · cases taken
      · split at taken
        · cases taken
        · rename_i middle events connected
          cases taken
          exact .rejoining pid process service credentials message_id middle _ present running connected
    · cases taken
  · cases taken

theorem rejoined_cases {pid : Nat} (taken : Bus.step env bus (.rejoined pid) = some (after, out)) :
    bus.Steps env (.rejoined pid) after out := by
  simp only [Bus.step] at taken
  split at taken
  · rename_i process present
    split at taken
    · rename_i service conn running joining
      split at taken
      · rename_i message_id rest queue
        exact .rejoined pid process service conn message_id rest after out present running joining queue taken
      · cases taken
    · cases taken
  · cases taken

theorem bus_step_cases (taken : Bus.step env bus action = some (after, out)) : bus.Steps env action after out := by
  cases action with
  | deliver pid => exact deliver_cases taken
  | rejoin pid credentials message_id => exact rejoin_cases taken
  | rejoined pid => exact rejoined_cases taken
  | start service_name monitor credentials message_id =>
    simp only [Bus.step] at taken
    split at taken
    · cases taken
    · rename_i middle events connected
      cases taken
      exact .started service_name monitor credentials message_id middle _ connected
  | registered pid =>
    simp only [Bus.step] at taken
    split at taken
    · rename_i process present
      split at taken
      · rename_i message_id rest waiting queue
        cases taken
        exact .registered pid process message_id rest present waiting queue
      · cases taken
    · cases taken
  | exit pid =>
    simp only [Bus.step] at taken
    cases taken
    exact .exited pid
  | service pid action =>
    simp only [Bus.step] at taken
    split at taken
    · rename_i process present
      split at taken
      · rename_i service running
        split at taken
        · rename_i own
          exact .served pid process service action after out present running own taken
        · cases taken
      · cases taken
    · cases taken
  | rejoinFailed pid e =>
    simp only [Bus.step] at taken
    split at taken
    · rename_i process present
      split at taken
      · rename_i service running
        exact .rejoinFailed pid process service e after out present running taken
      · cases taken
    · cases taken
  | receive conn =>
    simp only [Bus.step] at taken
    split at taken
    · rename_i message rest queue
      exact .received conn message rest after out queue taken
    · cases taken
  | hub action =>
    simp only [Bus.step] at taken
    split at taken
    · rename_i own
      exact .hub action after out own taken
    · cases taken

theorem hubStep_cases {action : Action} (stepped : bus.hubStep env action = some (after, out)) :
    ∃ hub events, KrossbarHub.step env bus.hub action = some (hub, events) ∧ out = events.map .hub ∧
      after = { bus with
        hub := hub
        fromHub := fun conn => bus.fromHub conn ++ events.filterMap (delivery conn) } := by
  unfold Bus.hubStep at stepped
  split at stepped
  · cases stepped
  · rename_i hub events taken
    cases stepped
    exact ⟨hub, events, taken, rfl, rfl⟩

theorem serviceStep_cases {pid : Nat} {process : Process} {service : Service} {action : ServiceAction}
    (stepped : bus.serviceStep pid process service action = some (after, out)) :
    ∃ next events, Service.step process.monitor service action = some (next, events) ∧
      out = events.map (.service pid) ∧
      after = (bus.setProcess pid { process with service := some next }).send process.hub_connection
        (events.filterMap callMessage) := by
  unfold Bus.serviceStep at stepped
  split at stepped
  · cases stepped
  · rename_i next events taken
    cases stepped
    exact ⟨next, events, taken, rfl, rfl⟩

theorem hubConnect_cases {pid : Nat} {service_name : String} {credentials : UCred} {message_id : Int}
    (connected : bus.hubConnect env pid service_name credentials message_id = some (after, out)) :
    ∃ middle, bus.hubStep env (.accept (some credentials)) = some (middle, out) ∧
      after = { middle with owners := middle.owners.insert bus.hub.clock (pid, service_name) }.send bus.hub.clock
        [⟨message_id, hubRegisterMethod, .call (.ok (.register service_name))⟩] := by
  unfold Bus.hubConnect at connected
  split at connected
  · cases connected
  · rename_i middle events stepped
    cases connected
    exact ⟨middle, stepped, rfl⟩

def hubEvent : BusEvent → Option Event
  | .hub event => some event
  | .service _ _ => none

@[simp] theorem hubEvents_hub (events : List Event) : (events.map BusEvent.hub).filterMap hubEvent = events := by
  rw [List.filterMap_map]
  exact List.filterMap_some

@[simp] theorem hubEvents_service (pid : Nat) (events : List ServiceEvent) :
    (events.map (BusEvent.service pid)).filterMap hubEvent = [] := by
  rw [List.filterMap_map]
  exact List.filterMap_eq_nil_iff.mpr fun _ _ => rfl

theorem mem_hubEvents {event : Event} : event ∈ log.filterMap hubEvent ↔ .hub event ∈ log := by
  rw [List.mem_filterMap]
  constructor
  · rintro ⟨found, member, same⟩
    cases found with
    | hub inner =>
      cases same
      exact member
    | service pid inner => cases same
  · intro member
    exact ⟨_, member, rfl⟩

theorem hubStep_moves {action : Action} (stepped : bus.hubStep env action = some (after, out)) :
    KrossbarHub.step env bus.hub action = some (after.hub, out.filterMap hubEvent) := by
  obtain ⟨hub, events, taken, rfl, rfl⟩ := hubStep_cases stepped
  rw [hubEvents_hub]
  exact taken

theorem serviceStep_rests {pid : Nat} {process : Process} {service : Service} {action : ServiceAction}
    (stepped : bus.serviceStep pid process service action = some (after, out)) :
    after.hub = bus.hub ∧ out.filterMap hubEvent = [] := by
  obtain ⟨next, events, _, rfl, rfl⟩ := serviceStep_cases stepped
  exact ⟨rfl, hubEvents_service pid events⟩

theorem Bus.Steps.hub_moves (steps : bus.Steps env action after out) :
    (after.hub = bus.hub ∧ out.filterMap hubEvent = []) ∨
    ∃ action, KrossbarHub.step env bus.hub action = some (after.hub, out.filterMap hubEvent) := by
  cases steps with
  | started _ _ _ _ _ _ connected =>
    obtain ⟨middle, stepped, rfl⟩ := hubConnect_cases connected
    have moved := hubStep_moves stepped
    exact .inr ⟨_, moved⟩
  | registered _ _ _ _ _ _ _ => exact .inl ⟨rfl, rfl⟩
  | exited _ => exact .inl ⟨rfl, rfl⟩
  | served _ _ _ _ _ _ _ _ _ stepped => exact .inl (serviceStep_rests stepped)
  | delivered _ _ _ _ _ _ _ _ _ _ _ _ stepped =>
    have rests := serviceStep_rests stepped
    exact .inl rests
  | ignored _ _ _ _ _ _ _ _ _ => exact .inl ⟨rfl, rfl⟩
  | rejoining _ _ _ _ _ _ _ _ _ connected =>
    obtain ⟨middle, stepped, rfl⟩ := hubConnect_cases connected
    have moved := hubStep_moves stepped
    exact .inr ⟨_, moved⟩
  | rejoined _ _ _ _ _ _ _ _ _ _ _ _ stepped =>
    have rests := serviceStep_rests stepped
    exact .inl rests
  | rejoinFailed _ _ _ _ _ _ _ _ stepped =>
    have rests := serviceStep_rests stepped
    exact .inl rests
  | received _ _ _ _ _ _ stepped =>
    have moved := hubStep_moves stepped
    exact .inr ⟨_, moved⟩
  | hub _ _ _ _ stepped => exact .inr ⟨_, hubStep_moves stepped⟩

/-- The hub of a bus runs like a hub alone. -/
theorem hub_run {allowed : Bus → BusAction → Prop} {additional_service_dirs : List OsString} {files : FileSystem}
    (run : Transition.RunWith (Bus.step env) allowed (Bus.new additional_service_dirs files) log bus) :
    KrossbarHub.Run env additional_service_dirs files (log.filterMap hubEvent) bus.hub := by
  apply run.invariant
    (I := fun log bus => KrossbarHub.Run env additional_service_dirs files (log.filterMap hubEvent) bus.hub)
  · exact .start
  · intro log bus action after out _ before _ taken
    rw [List.filterMap_append]
    rcases (bus_step_cases taken).hub_moves with ⟨same, quiet⟩ | ⟨inner, moved⟩
    · rw [same, quiet, List.append_nil]
      exact before
    · exact before.next trivial moved

end KrossbarBus
