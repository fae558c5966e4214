import KrossbarBus.Bus.Calls
import KrossbarBus.Hub.RegistryHistory

namespace KrossbarBus

open KrossbarHub KrossbarLib

variable {env : HubEnvironment} {bus after : Bus} {action : BusAction} {out log : List BusEvent}
  {pid : Nat} {target : String} {pair : Nat} {additional_service_dirs : List OsString} {files : FileSystem}

theorem registered_owner (wired : Wired log bus none) {conn : Conn} {service_name : String}
    (registered : RegisteredAs (log.filterMap hubEvent) conn service_name) :
    ∃ pid, bus.owners.get conn = some (pid, service_name) := by
  obtain ⟨request, received, writer, body⟩ := registered
  obtain ⟨pid, name, owner, what⟩ := wired.received none request (mem_hubEvents.mp received)
  rw [writer] at owner
  rcases what with register | ⟨_, _, connect, _⟩
  · rw [body] at register
    cases register
    exact ⟨pid, owner⟩
  · rw [body] at connect
    cases connect

/-- A descriptor that answers the call of a service is one end of a pair for the target of that call. -/
theorem answer_earned (wired : Wired log bus none) (asked : Asked log bus)
    (run : KrossbarHub.Run env additional_service_dirs files (log.filterMap hubEvent) bus.hub)
    {process : Process} {service : Service} {requester : Requester} {wait : Bool} {message_id : Int}
    (present : bus.processes.get pid = some process) (running : process.service = some service)
    (waiting : service.handshake requester = some (target, wait, .awaiting message_id))
    (answered : .response message_id (.fd pair) ∈ bus.fromHub process.hub_connection) :
    Earned log bus.owners pid target pair := by
  obtain ⟨request, handed, writer, number⟩ := wired.answered _ message_id pair answered
  obtain ⟨callee, initiator, named, offered⟩ := handed_offered run (mem_hubEvents.mpr handed)
  have offer := connectionRequest_offer run offered
  obtain ⟨wait', body⟩ := offer.body
  obtain ⟨caller, callerOwned⟩ := registered_owner wired offer.initiator
  obtain ⟨other, calleeOwned⟩ := registered_owner wired offer.target
  -- the call that was answered is the one that the service waits for
  obtain ⟨_, owner, _⟩ := wired.process pid process present
  obtain ⟨sender, name, sent, what⟩ := wired.received _ request (mem_hubEvents.mp offer.called)
  rw [writer, owner] at sent
  cases sent
  rw [writer, owner] at callerOwned
  cases callerOwned
  have same : named = target := by
    rcases what with register | ⟨asked_target, asked_wait, connect, requested⟩
    · rw [body] at register
      cases register
    · rw [body] at connect
      cases connect
      rw [number] at requested
      exact asked.single pid message_id named target _ _ requested
        (asked.awaits pid process service requester target wait message_id present running waiting)
  subst same
  exact ⟨callee, _, request, other, mem_hubEvents.mp offered, by rw [writer]; exact owner, calleeOwned⟩

theorem hubStep_keeps {action : Action} (stepped : bus.hubStep env action = some (after, out)) :
    (∀ pid event, .service pid event ∉ out) ∧ after.clock = bus.clock ∧ after.owners = bus.owners ∧
      after.processes = bus.processes := by
  obtain ⟨hub, events, _, rfl, rfl⟩ := hubStep_cases stepped
  exact ⟨by simp, rfl, rfl, rfl⟩

theorem hubConnect_quiet {service_name : String} {credentials : UCred} {message_id : Int}
    (connected : bus.hubConnect env pid service_name credentials message_id = some (after, out)) :
    ∀ pid event, .service pid event ∉ out := by
  obtain ⟨middle, stepped, _⟩ := hubConnect_cases connected
  exact (hubStep_keeps stepped).1

theorem new_handshake (service_name : String) (requester : Requester) :
    (Service.new service_name).handshake requester = none := by
  cases requester <;> rfl

theorem Asked.preserved (asked : Asked log bus) (wired : Wired log bus none)
    (run : KrossbarHub.Run env additional_service_dirs files (log.filterMap hubEvent) bus.hub)
    (taken : Bus.step env bus action = some (after, out)) : Asked (log ++ out) after := by
  have hubStep : ∀ {before : Bus} {action after out}, Asked log before →
      before.hubStep env action = some (after, out) → Asked (log ++ out) after := by
    intro before action after out asked stepped
    obtain ⟨quiet, clock, owners, processes⟩ := hubStep_keeps stepped
    apply asked.background quiet (by omega) (by rw [owners]; exact fun _ _ same => same)
    intro pid process there
    rw [processes] at there
    exact .inl ⟨process, there, rfl⟩
  have sameQueues : ∀ toHub fromHub, Asked log { bus with toHub := toHub, fromHub := fromHub } :=
    fun _ _ => ⟨asked.active, asked.counted, asked.single, asked.awaits, asked.replied, asked.adopted⟩
  cases bus_step_cases taken with
  | started service_name monitor credentials message_id middle _ connected =>
    obtain ⟨_, _, clock, processes, owned⟩ := wired.hubConnect connected
    refine asked.background (hubConnect_quiet connected) (Nat.le_succ _) owned ?_
    intro other process there
    rcases setProcess_cases there with ⟨rfl, rfl⟩ | ⟨_, before⟩
    · refine .inr ⟨?_, fun _ _ none => by cases none⟩
      intro message_id target wait member
      have bound := asked.active _ _ member
      omega
    · rw [processes] at before
      exact .inl ⟨process, before, rfl⟩
  | registered pid process message_id rest present waiting queue =>
    refine asked.background (by simp) (Nat.le_refl _) (fun _ _ same => same) ?_
    intro other process' there
    rcases setProcess_cases there with ⟨rfl, rfl⟩ | ⟨_, before⟩
    · refine .inr ⟨?_, ?_⟩
      · intro message_id target wait member
        obtain ⟨service, running, _⟩ := asked.counted _ process message_id target wait present member
        rw [waiting] at running
        cases running
      · intro service requester running
        cases running
        exact new_handshake process.service_name requester
    · exact .inl ⟨process', before, rfl⟩
  | exited pid =>
    refine asked.background (by simp) (Nat.le_refl _) (fun _ _ same => same) ?_
    intro other process there
    exact .inl ⟨process, Table.get_of_remove there, rfl⟩
  | served pid process service action _ _ present running own stepped =>
    apply asked.serviceStep stepped (wired.process pid process present).1 present running
    intro message_id pair requester target wait was
    rw [was] at own
    cases own
  | delivered pid process service next rest action _ _ present running queue means stepped =>
    apply (sameQueues bus.toHub _).serviceStep stepped (wired.process pid process present).1 present running
    intro message_id pair requester target wait was waiting
    have answers : next = .response message_id (.fd pair) := by
      rw [was] at means
      unfold Delivery.action at means
      split at means <;> cases means
      rfl
    have answered : .response message_id (.fd pair) ∈ bus.fromHub process.hub_connection := by
      rw [queue, answers]
      exact List.mem_cons_self
    have earned := answer_earned wired asked run present running waiting answered
    exact earned
  | ignored pid process service next rest present running queue means =>
    rw [List.append_nil]
    exact sameQueues bus.toHub _
  | rejoining pid process service credentials message_id middle _ present running connected =>
    obtain ⟨_, _, clock, processes, owned⟩ := wired.hubConnect connected
    refine asked.background (hubConnect_quiet connected) (by simp only [Bus.setProcess]; omega) owned ?_
    intro other process' there
    rcases setProcess_cases there with ⟨rfl, rfl⟩ | ⟨_, before⟩
    · exact .inl ⟨process, present, rfl⟩
    · rw [processes] at before
      exact .inl ⟨process', before, rfl⟩
  | rejoined pid process service conn message_id rest _ _ present running joining queue stepped =>
    apply (sameQueues bus.toHub _).serviceStep stepped (wired.process pid process present).1 present running
    intro _ _ _ _ _ impossible
    cases impossible
  | rejoinFailed pid process service e _ _ present running stepped =>
    apply asked.serviceStep stepped (wired.process pid process present).1 present running
    intro _ _ _ _ _ impossible
    cases impossible
  | received conn message rest _ _ queue stepped => exact hubStep (sameQueues _ bus.fromHub) stepped
  | hub action _ _ own stepped => exact hubStep asked stepped

theorem run_asked {allowed : Bus → BusAction → Prop}
    (run : Transition.RunWith (Bus.step env) allowed (Bus.new additional_service_dirs files) log bus) :
    Asked log bus :=
  run.invariant (I := fun log bus => Asked log bus) (Asked.initial additional_service_dirs files)
    fun _ _ _ _ _ before asked _ taken => asked.preserved (run_wired before) (hub_run before) taken

theorem discards_iff_clashes (taken : Bus.step env bus action = some (after, out)) :
    (∃ pid initiator pair, .service pid (.discarded initiator pair) ∈ out) ↔ bus.clashes action = true := by
  have unheard : ∀ {before : Bus} {action after out}, before.hubStep env action = some (after, out) →
      ∀ pid event, .service pid event ∉ out := fun stepped => (hubStep_keeps stepped).1
  have discards : ∀ {before : Bus} {pid process service action after out initiator pair other},
      before.serviceStep pid process service action = some (after, out) →
      .service other (.discarded initiator pair) ∈ out → action = .hubRequest (.fd initiator pair) ∧
        (!(process.monitor && initiator == monitorServiceName) &&
          service.client_map.containsKey initiator) = true := by
    intro before pid process service action after out initiator pair other stepped member
    obtain ⟨next, events, moved, rfl, _⟩ := serviceStep_cases stepped
    exact (Service.step_cases moved).discards (mem_serviceEvents.mp member).2
  constructor
  · rintro ⟨pid, initiator, pair, member⟩
    cases bus_step_cases taken with
    | started _ _ _ _ _ _ connected => exact absurd member (hubConnect_quiet connected pid _)
    | registered _ _ _ _ _ _ _ => cases member
    | exited _ => cases member
    | ignored _ _ _ _ _ _ _ _ _ => cases member
    | rejoining _ _ _ _ _ _ _ _ _ connected => exact absurd member (hubConnect_quiet connected pid _)
    | received _ _ _ _ _ _ stepped => exact absurd member (unheard stepped pid _)
    | hub _ _ _ _ stepped => exact absurd member (unheard stepped pid _)
    | rejoined _ _ _ _ _ _ _ _ _ _ _ _ stepped =>
      obtain ⟨impossible, _⟩ := discards stepped member
      cases impossible
    | rejoinFailed _ _ _ _ _ _ _ _ stepped =>
      obtain ⟨impossible, _⟩ := discards stepped member
      cases impossible
    | served _ _ _ _ _ _ _ _ own stepped =>
      obtain ⟨was, _⟩ := discards stepped member
      rw [was] at own
      cases own
    | delivered _ process service next rest _ _ _ present running queue means stepped =>
      obtain ⟨was, clash⟩ := discards stepped member
      rw [was] at means
      unfold Delivery.action at means
      split at means <;> cases means
      simp only [Bus.clashes, present, running, queue]
      exact clash
  · intro clash
    cases bus_step_cases taken with
    | delivered pid process service next rest action _ _ present running queue means stepped =>
      simp only [Bus.clashes, present, running, queue] at clash
      obtain ⟨_, events, moved, rfl, _⟩ := serviceStep_cases stepped
      cases next with
      | response _ _ => cases clash
      | connectionRequest initiator pair =>
        cases means
        simp only [Bool.and_eq_true, Bool.not_eq_true'] at clash
        refine ⟨pid, initiator, pair, ?_⟩
        cases Service.step_cases moved with
        | hubRequest _ selecting => simp [Service.handleNewConnection, clash.1, clash.2]
    | ignored pid process service next rest present running queue means =>
      simp only [Bus.clashes, present, running, queue] at clash
      cases next with
      | response _ _ => cases clash
      | connectionRequest initiator pair => cases means
    | _ => cases clash

/-- As long as no service takes a connection request from a peer that is in its map, no target throws an end away: of
    every adopted pair the target has the other end, or the hub has sent it on a connection of the target that has not
    yielded it yet. There it stays if the target has given up that connection. -/
theorem pairs_kept (run : Transition.RunWith (Bus.step env) (fun bus action => bus.clashes action = false)
      (Bus.new additional_service_dirs files) log bus) :
    (∀ pid initiator pair, .service pid (.discarded initiator pair) ∉ log) ∧
    (∀ pid target pair, .service pid (.adopted target pair) ∈ log →
      ∃ writer initiator request other,
        .hub (.connectionRequest writer initiator target pair request) ∈ log ∧
        bus.owners.get request.writer = some (pid, initiator) ∧
        bus.owners.get writer = some (other, target) ∧
        (.connectionRequest initiator pair ∈ bus.fromHub writer ∨
          .service other (.accepted initiator pair) ∈ log ∨ .service other (.monitored initiator pair) ∈ log)) ∧
    ∀ action after out, Bus.step env bus action = some (after, out) →
      ((∃ pid initiator pair, .service pid (.discarded initiator pair) ∈ out) ↔ bus.clashes action = true) := by
  have kept : ∀ pid initiator pair, .service pid (.discarded initiator pair) ∉ log := by
    apply run.invariant
      (I := fun log _ => ∀ pid initiator pair, .service pid (.discarded initiator pair) ∉ log) (by simp)
    intro log bus action after out _ kept quiet taken pid initiator pair member
    rcases List.mem_append.mp member with old | new
    · exact kept pid initiator pair old
    · have clash := (discards_iff_clashes taken).mp ⟨pid, initiator, pair, new⟩
      rw [quiet] at clash
      cases clash
  refine ⟨kept, ?_, fun _ _ _ taken => discards_iff_clashes taken⟩
  intro pid target pair adopted
  obtain ⟨writer, initiator, request, other, offered, caller, callee⟩ :=
    (run_asked run).adopted pid target pair adopted
  refine ⟨writer, initiator, request, other, offered, caller, callee, ?_⟩
  rcases (run_wired run).offered writer initiator target pair request offered with waiting | held | settled
  · exact .inl waiting
  · cases held
  · obtain ⟨owner, name, owns, what⟩ := settled
    rw [callee] at owns
    cases owns
    rcases what with accepted | monitored | discarded
    · exact .inr (.inl accepted)
    · exact .inr (.inr monitored)
    · exact absurd discarded (kept other initiator pair)

def starting (pid : Nat) (conn : Conn) (service_name : String) : List BusAction :=
  [.start service_name true ⟨some 7⟩ 0, .receive conn, .hub (.task conn .locked), .hub (.task conn (.sent true)),
    .hub (.task conn .elapsed), .hub (.task conn .locked), .registered pid]

def adopting (pid : Nat) (conn : Conn) (target : String) : List BusAction :=
  [.service pid (.connect target false), .service pid (.sent .connect true), .receive conn,
    .hub (.task conn .locked), .hub (.task conn (.sent true)), .hub (.task conn (.sent true)), .deliver pid,
    .service pid (.resumed .connect)]

def openBus : Bus := Bus.new [] (openFiles ["com.a", "com.b"])

theorem pairs_kept_connected : ∃ log bus,
    Transition.Run (Bus.step openEnvironment) openBus log bus ∧
    .service 0 (.adopted "com.b" 13) ∈ log ∧ .service 1 (.accepted "com.a" 13) ∈ log ∧
    ∃ writer initiator request other, .hub (.connectionRequest writer initiator "com.b" 13 request) ∈ log ∧
      bus.owners.get request.writer = some (0, initiator) ∧ bus.owners.get writer = some (other, "com.b") := by
  obtain ⟨log, bus, run, shown⟩ := Transition.exists_run_of_execute
    (Transition.guarded (Bus.step openEnvironment) fun bus action => !bus.clashes action) openBus
    (starting 0 0 "com.a" ++ starting 1 6 "com.b" ++ adopting 0 0 "com.b" ++ [.service 1 .poll, .deliver 1])
    (fun log _ => log.contains (.service 0 (.adopted "com.b" 13)) &&
      log.contains (.service 1 (.accepted "com.a" 13)))
    (by decide +kernel)
  simp only [Bool.and_eq_true, List.contains_iff_mem] at shown
  have quiet : Transition.RunWith (Bus.step openEnvironment) (fun bus action => bus.clashes action = false)
      openBus log bus := by
    apply run.of_guarded
    intro _ bus action _ passed
    simpa using passed
  obtain ⟨writer, initiator, request, other, offered, caller, callee, _⟩ :=
    (pairs_kept quiet).2.1 0 "com.b" 13 shown.1
  exact ⟨log, bus, quiet.run, shown.1, shown.2, writer, initiator, request, other, offered, caller, callee⟩

/-- com.b starts again and connects to com.a, whose entry for com.b is still that of the lost pair 13. -/
theorem restarted_peer_discarded : ∃ log bus process service number poll_handle,
    Transition.Run (Bus.step openEnvironment) openBus log bus ∧
    .service 2 (.adopted "com.a" 24) ∈ log ∧ .service 0 (.discarded "com.b" 24) ∈ log ∧
    bus.processes.get 0 = some process ∧ process.service = some service ∧
    service.client_map.get "com.b" = some number ∧
    service.client_poll_handles.get number = some poll_handle ∧ poll_handle.rpc = 13 := by
  obtain ⟨log, bus, run, shown⟩ := Transition.exists_run_of_execute (Bus.step openEnvironment) openBus
    (starting 0 0 "com.a" ++ starting 1 6 "com.b" ++ adopting 0 0 "com.b" ++
      [.service 1 .poll, .deliver 1, .exit 1, .hub (.task 6 (.polled none)), .hub (.next 6), .hub .removeClient,
        .service 0 .poll, .service 0 (.streamLost 1)] ++
      starting 2 17 "com.b" ++ adopting 2 17 "com.a" ++ [.deliver 0])
    (fun log bus => log.contains (.service 2 (.adopted "com.a" 24)) &&
      log.contains (.service 0 (.discarded "com.b" 24)) &&
      (bus.processes.get 0).any fun process => process.service.any fun service =>
        (service.client_map.get "com.b").any fun number =>
          (service.client_poll_handles.get number).any fun poll_handle => poll_handle.rpc == 13)
    (by decide +kernel)
  simp only [Bool.and_eq_true, List.contains_iff_mem, Option.any_eq_true, beq_iff_eq] at shown
  obtain ⟨⟨adopted, discarded⟩, process, present, service, running, number, entry, poll_handle, there, old⟩ := shown
  exact ⟨log, bus, process, service, number, poll_handle, run, adopted, discarded, present, running, entry,
    there, old⟩

end KrossbarBus
