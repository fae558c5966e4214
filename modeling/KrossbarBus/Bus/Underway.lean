import KrossbarBus.Bus.Pairs
import KrossbarBus.Hub.Responses
import KrossbarBus.Lib.AwaitedCalls
import KrossbarBus.Lib.Reconnects

namespace KrossbarBus

open KrossbarHub KrossbarLib

variable {env : HubEnvironment} {bus after : Bus} {action : BusAction} {out log log' : List BusEvent}
  {pid : Nat} {process : Process} {service : Service} {conn : Conn} {message_id : Int} {target : String} {wait : Bool}
  {additional_service_dirs : List OsString} {files : FileSystem}

/-- Where a connect call is that a service awaits: unread on its connection, at the hub, or answered. -/
inductive Underway (log : List BusEvent) (bus : Bus) (conn : Conn) (message_id : Int) (target : String) (wait : Bool) :
    Prop
  | unread (message : Message) (member : message ∈ bus.toHub conn) (own : message.message_id = message_id)
      (body : message.body = .call (.ok (.connect target wait))) : Underway log bus conn message_id target wait
  | unanswered (client : Option String) (request : RpcRequest) (received : .hub (.received client request) ∈ log)
      (writer : request.writer = conn) (own : request.message_id = message_id)
      (body : request.body = .call (.ok (.connect target wait)))
      (silent : ∀ response, .hub (.responded request response) ∉ log) : Underway log bus conn message_id target wait
  | answered (response : Response) (refused : response ≠ .ok)
      (queued : .response message_id response ∈ bus.fromHub conn) : Underway log bus conn message_id target wait

/-- Only registrations are answered with a plain `Ok`. -/
theorem ok_registers {hub next : Hub} {action : Action} {events past : List Event} {request : RpcRequest}
    (run : KrossbarHub.Run env additional_service_dirs files past hub)
    (taken : KrossbarHub.step env hub action = some (next, events)) (member : .responded request .ok ∈ events) :
    ∃ service_name, request.body = .call (.ok (.register service_name)) := by
  obtain ⟨conn, task, input, progress, _, present, _, _, responds⟩ := step_responds taken member
  generalize plain : Response.ok = response at responds
  cases responds with
  | registration service_name was _ _ =>
    exact ⟨service_name, (run_traced run).registering conn task service_name request present was⟩
  | handed _ _ _ _ ok _ _ _ => cases ok <;> cases plain
  | _ => cases plain

theorem reads_calmly {hub : Hub} {task : Task} {message : Message} :
    KrossbarHub.resume env hub conn task (.polled (some message)) ≠ some none := by
  cases phase : task.phase with
  | authPoll | clientPoll _ =>
    simp only [KrossbarHub.resume, phase]
    split <;> simp
  | _ => simp [KrossbarHub.resume, phase]

theorem step_receives {hub next : Hub} {message : Message} {events : List Event}
    (taken : KrossbarHub.step env hub (.task conn (.polled (some message))) = some (next, events)) :
    ∃ client, .received client (message.request hub.clock conn) ∈ events := by
  cases step_cases taken with
  | resumed _ task _ progress selecting present resumes =>
    cases resumes.treats with
    | other unpolled _ _ _ => exact absurd rfl (unpolled message)
    | receives same polled _ rest shape _ =>
      cases polled
      exact ⟨task.phase.registeredAs, by rw [shape]; exact List.mem_cons_self⟩
    | proceeds unpolled _ _ _ => exact absurd rfl (unpolled message)
  | crashed _ task _ _ _ panics => exact absurd panics reads_calmly

theorem unanswered_new {hub : Hub} {past : List Event}
    (run : KrossbarHub.Run env additional_service_dirs files past hub) (message : Message) (conn : Conn)
    (response : Response) :
    .responded (message.request hub.clock conn) response ∉ past := by
  intro member
  have accounted := run_accounted run
  have counted : answers past (message.request hub.clock conn) ≠ 0 := Nat.ne_of_gt (answers_answered member)
  obtain ⟨client, received⟩ := accounted.ledger.known _ counted
  exact Nat.lt_irrefl _ (accounted.fresh client _ received)

/-- A request the hub holds is answered by a step, or still held after it. -/
theorem Underway.held {action : Action} {client : Option String} {request : RpcRequest}
    (stepped : bus.hubStep env action = some (after, out))
    (run : KrossbarHub.Run env additional_service_dirs files (log.filterMap hubEvent) bus.hub)
    (received : .hub (.received client request) ∈ log ++ out)
    (writer : request.writer = conn) (own : request.message_id = message_id)
    (body : request.body = .call (.ok (.connect target wait)))
    (silent : ∀ response, .hub (.responded request response) ∉ log) :
    Underway (log ++ out) after conn message_id target wait := by
  obtain ⟨hub, events, taken, rfl, rfl⟩ := hubStep_cases stepped
  by_cases answers : ∃ response, .responded request response ∈ events
  · obtain ⟨response, member⟩ := answers
    refine .answered response ?_ (List.mem_append_right _ ?_)
    · rintro rfl
      obtain ⟨service_name, registers⟩ := ok_registers run taken member
      rw [body] at registers
      cases registers
    · exact List.mem_filterMap.mpr ⟨_, member, by simp [delivery, writer, own]⟩
  · refine .unanswered client request received writer own body fun response member => ?_
    rcases List.mem_append.mp member with old | new
    · exact silent response old
    · obtain ⟨event, there, same⟩ := List.mem_map.mp new
      cases same
      exact answers ⟨response, there⟩

theorem Underway.hubStep {action : Action} (underway : Underway log bus conn message_id target wait)
    (run : KrossbarHub.Run env additional_service_dirs files (log.filterMap hubEvent) bus.hub)
    (stepped : bus.hubStep env action = some (after, out)) :
    Underway (log ++ out) after conn message_id target wait := by
  cases underway with
  | unread message member own body =>
    obtain ⟨hub, events, taken, rfl, rfl⟩ := hubStep_cases stepped
    exact .unread message member own body
  | unanswered client request received writer own body silent =>
    exact .held stepped run (List.mem_append_left _ received) writer own body silent
  | answered response refused queued =>
    obtain ⟨hub, events, taken, rfl, rfl⟩ := hubStep_cases stepped
    exact .answered response refused (List.mem_append_left _ queued)

/-- The hub reads the first message of a connection. -/
theorem Underway.read {reader : Conn} {first : Message} {rest : List Message}
    (underway : Underway log bus conn message_id target wait)
    (run : KrossbarHub.Run env additional_service_dirs files (log.filterMap hubEvent) bus.hub)
    (queue : bus.toHub reader = first :: rest)
    (stepped : { bus with toHub := Function.update bus.toHub reader rest }.hubStep env
      (.task reader (.polled (some first))) = some (after, out)) :
    Underway (log ++ out) after conn message_id target wait := by
  have left : Underway log { bus with toHub := Function.update bus.toHub reader rest } conn message_id target wait →
      Underway (log ++ out) after conn message_id target wait := fun still => still.hubStep run stepped
  cases underway with
  | unread message member own body =>
    by_cases this : conn = reader ∧ message = first
    · obtain ⟨rfl, rfl⟩ := this
      obtain ⟨hub, events, taken, rfl, _⟩ := hubStep_cases stepped
      obtain ⟨client, received⟩ := step_receives taken
      have come : BusEvent.hub (.received client (message.request bus.hub.clock conn)) ∈ log ++ events.map .hub :=
        List.mem_append_right _ (List.mem_map_of_mem received)
      refine .held stepped run come rfl own body fun response member => ?_
      exact unanswered_new run message conn response (mem_hubEvents.mpr member)
    · refine left (.unread message ?_ own body)
      simp only [Function.update_apply]
      split
      · rename_i same
        subst same
        rw [queue] at member
        rcases List.mem_cons.mp member with rfl | later
        · exact absurd ⟨rfl, rfl⟩ this
        · exact later
      · exact member
  | unanswered client request received writer own body silent =>
    exact left (.unanswered client request received writer own body silent)
  | answered response refused queued => exact left (.answered response refused queued)

/-- Whatever leaves the hub alone, adds to the messages for it and takes other deliveries. -/
theorem Underway.aside (underway : Underway log bus conn message_id target wait)
    (toHub : ∀ message, message ∈ bus.toHub conn → message ∈ after.toHub conn)
    (hub : ∀ event, .hub event ∈ log ++ out ↔ .hub event ∈ log)
    (fromHub : ∀ response, response ≠ .ok → .response message_id response ∈ bus.fromHub conn →
      .response message_id response ∈ after.fromHub conn) :
    Underway (log ++ out) after conn message_id target wait := by
  cases underway with
  | unread message member own body => exact .unread message (toHub message member) own body
  | unanswered client request received writer own body silent =>
    refine .unanswered client request ((hub _).mpr received) writer own body fun response member => ?_
    exact silent response ((hub _).mp member)
  | answered response refused queued => exact .answered response refused (fromHub response refused queued)

/-- Every awaited call of a service is underway on one of its connections. -/
structure Carried (log : List BusEvent) (bus : Bus) : Prop where
  numbered : ∀ pid process service, bus.processes.get pid = some process → process.service = some service →
    service.Numbered ∧ service.CallsApart
  underway : ∀ pid process service requester target wait message_id, bus.processes.get pid = some process →
    process.service = some service → service.handshake requester = some (target, wait, .awaiting message_id) →
    ∃ conn name, bus.owners.get conn = some (pid, name) ∧ Underway log bus conn message_id target wait

theorem Carried.initial (additional_service_dirs : List OsString) (files : FileSystem) :
    Carried [] (Bus.new additional_service_dirs files) where
  numbered := by simp [Bus.new]
  underway := by simp [Bus.new]

theorem Carried.background (carried : Carried log bus)
    (owned : ∀ conn owner, bus.owners.get conn = some owner → after.owners.get conn = some owner)
    (processes : ∀ pid process service, after.processes.get pid = some process → process.service = some service →
      (∃ before, bus.processes.get pid = some before ∧ before.service = some service) ∨
        ∃ service_name, service = .new service_name)
    (kept : ∀ conn message_id target wait, Underway log bus conn message_id target wait →
      Underway (log ++ out) after conn message_id target wait) : Carried (log ++ out) after := by
  refine ⟨?_, ?_⟩
  · intro pid process service there running
    rcases processes pid process service there running with ⟨before, present, was⟩ | ⟨service_name, rfl⟩
    · exact carried.numbered pid before service present was
    · exact ⟨.initial service_name, .initial service_name⟩
  · intro pid process service requester target wait message_id there running going
    rcases processes pid process service there running with ⟨before, present, was⟩ | ⟨service_name, rfl⟩
    · obtain ⟨conn, name, owner, underway⟩ :=
        carried.underway pid before service requester target wait message_id present was going
      exact ⟨conn, name, owned conn _ owner, kept conn message_id target wait underway⟩
    · rw [new_handshake] at going
      cases going

/-- A service that reads the answer to a call does not await it any more. -/
theorem Carried.serviceStep (carried : Carried log bus) {before : Process} {action : ServiceAction}
    {queues : Conn → List Delivery}
    (stepped : { bus with fromHub := queues }.serviceStep pid process service action = some (after, out))
    (present : bus.processes.get pid = some before) (running : before.service = some service)
    (owner : bus.owners.get process.hub_connection = some (pid, process.service_name))
    (kept : ∀ conn message_id target wait, Underway log bus conn message_id target wait →
      Underway log { bus with fromHub := queues } conn message_id target wait ∨
        ∃ name reply, bus.owners.get conn = some (pid, name) ∧ action = .resolved message_id reply) :
    Carried (log ++ out) after := by
  obtain ⟨next, events, taken, rfl, rfl⟩ := serviceStep_cases stepped
  have steps := Service.step_cases taken
  obtain ⟨numbered, apart⟩ := carried.numbered pid before service present running
  have aside : ∀ {conn message_id target wait},
      Underway log { bus with fromHub := queues } conn message_id target wait →
      Underway (log ++ events.map (BusEvent.service pid))
        (({ bus with fromHub := queues }.setProcess pid { process with service := some next }).send
          process.hub_connection (events.filterMap callMessage)) conn message_id target wait := by
    intro conn message_id target wait underway
    refine underway.aside ?_ ?_ fun response _ queued => queued
    · intro message member
      simp only [Bus.send, Bus.setProcess, Function.update_apply]
      split
      · rename_i this
        rw [← this]
        exact List.mem_append_left _ member
      · exact member
    · intro event
      rw [List.mem_append]
      exact ⟨fun member => member.resolve_right (hub_notMem_serviceEvents pid event events), .inl⟩
  refine ⟨?_, ?_⟩
  · intro other found service' there running'
    rcases setProcess_cases there with ⟨rfl, rfl⟩ | ⟨_, there'⟩
    · cases running'
      exact ⟨steps.numbered numbered, apart.preserved steps⟩
    · exact carried.numbered other found service' there' running'
  · intro other found service' requester target wait message_id there running' going
    rcases setProcess_cases there with ⟨rfl, rfl⟩ | ⟨different, there'⟩
    · cases running'
      rcases steps.awaits going with was | ⟨rfl, requested⟩
      · obtain ⟨conn, name, owns, underway⟩ :=
          carried.underway other before service requester target wait message_id present running was
        refine ⟨conn, name, owns, ?_⟩
        rcases kept conn message_id target wait underway with still | ⟨_, reply, _, rfl⟩
        · exact aside still
        · exact absurd ⟨target, wait, going⟩ fun awaits =>
            resolved_unawaited apart (fun _ _ there => numbered.older there) taken awaits
      · refine ⟨process.hub_connection, _, owner, .unread
          ⟨service.clock, hubConnectMethod, .call (.ok (.connect target wait))⟩ ?_ rfl rfl⟩
        simp only [Bus.send, Function.update_self]
        exact List.mem_append_right _ (List.mem_filterMap.mpr ⟨_, requested, rfl⟩)
    · obtain ⟨conn, name, owns, underway⟩ :=
        carried.underway other found service' requester target wait message_id there' running' going
      refine ⟨conn, name, owns, ?_⟩
      rcases kept conn message_id target wait underway with still | ⟨_, _, own, _⟩
      · exact aside still
      · rw [own] at owns
        cases owns
        exact absurd rfl different

theorem Underway.same (underway : Underway log bus conn message_id target wait) (toHub : after.toHub = bus.toHub)
    (fromHub : after.fromHub = bus.fromHub) : Underway log after conn message_id target wait := by
  cases underway with
  | unread message member own body => exact .unread message (by rwa [toHub]) own body
  | unanswered client request received writer own body silent =>
    exact .unanswered client request received writer own body silent
  | answered response refused queued => exact .answered response refused (by rwa [fromHub])

/-- Taking what answers a registration, or no call at all, leaves the answers to the calls. -/
theorem Underway.taken {reader : Conn} {next : Delivery} {rest : List Delivery}
    (underway : Underway log bus conn message_id target wait) (queue : bus.fromHub reader = next :: rest)
    (other : conn = reader → ∀ response, next = .response message_id response → response = .ok) :
    Underway log (bus.taken reader rest) conn message_id target wait := by
  have aside := @Underway.aside bus (bus.taken reader rest) [] log conn message_id target wait underway
    (fun _ member => member) (by simp) fun response refused queued => ?_
  · rwa [List.append_nil] at aside
  · rcases mem_taken queue queued with ⟨reads, same⟩ | left
    · exact absurd (other reads response same.symm) refused
    · exact left

theorem Underway.connects {name : String} {credentials : UCred} {registration : Int}
    (underway : Underway log bus conn message_id target wait)
    (run : KrossbarHub.Run env additional_service_dirs files (log.filterMap hubEvent) bus.hub)
    (connected : bus.hubConnect env pid name credentials registration = some (after, out)) :
    Underway (log ++ out) after conn message_id target wait := by
  obtain ⟨middle, stepped, rfl⟩ := hubConnect_cases connected
  cases underway.hubStep run stepped with
  | unread message member own body =>
    refine .unread message ?_ own body
    simp only [Bus.send, Function.update_apply]
    split
    · rename_i this
      rw [← this]
      exact List.mem_append_left _ member
    · exact member
  | unanswered client request received writer own body silent =>
    exact .unanswered client request received writer own body silent
  | answered response refused queued => exact .answered response refused queued

theorem Carried.preserved (carried : Carried log bus) (wired : Wired log bus none)
    (run : KrossbarHub.Run env additional_service_dirs files (log.filterMap hubEvent) bus.hub)
    (taken : Bus.step env bus action = some (after, out)) : Carried (log ++ out) after := by
  have same : ∀ {changed : Bus}, changed.processes = bus.processes → ∀ pid process service,
      changed.processes.get pid = some process → process.service = some service →
      (∃ before, bus.processes.get pid = some before ∧ before.service = some service) ∨
        ∃ service_name, service = .new service_name := by
    intro changed processes pid process service there running
    rw [processes] at there
    exact .inl ⟨process, there, running⟩
  cases bus_step_cases taken with
  | started service_name monitor credentials registration middle _ connected =>
    obtain ⟨_, _, _, processes, owned⟩ := wired.hubConnect connected
    refine carried.background owned ?_ fun _ _ _ _ underway => (underway.connects run connected).same rfl rfl
    intro pid process service there running
    rcases setProcess_cases there with ⟨rfl, rfl⟩ | ⟨_, before⟩
    · cases running
    · exact same processes pid process service before running
  | registered pid process registration rest present waiting queue =>
    refine carried.background (fun _ _ there => there) ?_ fun _ _ _ _ underway => ?_
    · intro other found service there running
      rcases setProcess_cases there with ⟨rfl, rfl⟩ | ⟨_, before⟩
      · cases running
        exact .inr ⟨process.service_name, rfl⟩
      · exact .inl ⟨found, before, running⟩
    · rw [List.append_nil]
      exact (underway.taken queue fun _ _ answers => by cases answers; rfl).same rfl rfl
  | exited pid =>
    refine carried.background (fun _ _ there => there) ?_ fun _ _ _ _ underway => ?_
    · exact fun other found service there running => .inl ⟨found, Table.get_of_remove there, running⟩
    · rw [List.append_nil]
      exact underway.same rfl rfl
  | served pid process service action _ _ present running own stepped =>
    refine carried.serviceStep stepped present running (wired.process pid process present).2.1 ?_
    exact fun _ _ _ _ underway => .inl underway
  | delivered pid process service next rest action _ _ present running queue means stepped =>
    have owner := (wired.process pid process present).2.1
    refine carried.serviceStep stepped present running owner fun conn message_id target wait underway => ?_
    by_cases this : conn = process.hub_connection ∧ ∃ reply, action = .resolved message_id reply
    · obtain ⟨rfl, reply, resolves⟩ := this
      exact .inr ⟨_, reply, owner, resolves⟩
    · refine .inl (underway.taken queue fun reads response answers => ?_)
      rw [answers] at means
      cases response with
      | ok => rfl
      | _ =>
        cases means
        exact absurd ⟨reads, _, rfl⟩ this
  | ignored pid process service next rest present running queue means =>
    refine carried.background (fun _ _ there => there) (same rfl) fun _ _ _ _ underway => ?_
    rw [List.append_nil]
    refine underway.taken queue fun _ response answers => ?_
    rw [answers] at means
    cases response <;> first | rfl | cases means
  | rejoining pid process service credentials registration middle _ present running connected =>
    obtain ⟨_, _, _, processes, owned⟩ := wired.hubConnect connected
    refine carried.background owned ?_ fun _ _ _ _ underway => (underway.connects run connected).same rfl rfl
    intro other found service' there running'
    rcases setProcess_cases there with ⟨rfl, rfl⟩ | ⟨_, before⟩
    · exact .inl ⟨process, present, running'⟩
    · exact same processes other found service' before running'
  | rejoined pid process service conn registration rest _ _ present running joining queue stepped =>
    have owner := (wired.process pid process present).2.2 conn joining
    refine carried.serviceStep stepped present running owner fun _ _ _ _ underway => .inl ?_
    exact underway.taken queue fun _ _ answers => by cases answers; rfl
  | rejoinFailed pid process service e _ _ present running stepped =>
    refine carried.serviceStep stepped present running (wired.process pid process present).2.1 ?_
    exact fun _ _ _ _ underway => .inl underway
  | received conn message rest _ _ queue stepped =>
    obtain ⟨_, _, owners, processes⟩ := hubStep_keeps stepped
    refine carried.background (by rw [owners]; exact fun _ _ there => there) (same processes) ?_
    exact fun _ _ _ _ underway => underway.read run queue stepped
  | hub action _ _ own stepped =>
    obtain ⟨_, _, owners, processes⟩ := hubStep_keeps stepped
    refine carried.background (by rw [owners]; exact fun _ _ there => there) (same processes) ?_
    exact fun _ _ _ _ underway => underway.hubStep run stepped

theorem run_carried {allowed : Bus → BusAction → Prop}
    (run : Transition.RunWith (Bus.step env) allowed (Bus.new additional_service_dirs files) log bus) :
    Carried log bus :=
  run.invariant (I := fun log bus => Carried log bus) (Carried.initial additional_service_dirs files)
    fun _ _ _ _ _ before carried _ taken => carried.preserved (run_wired before) (hub_run before) taken

end KrossbarBus
