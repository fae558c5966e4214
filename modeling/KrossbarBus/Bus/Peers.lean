import KrossbarBus.Bus.Pairs
import KrossbarBus.Hub.SocketPairs
import KrossbarBus.Lib.StreamOrigins

namespace KrossbarBus

open KrossbarHub KrossbarLib

variable {env : HubEnvironment} {bus after : Bus} {action : BusAction} {out log log' : List BusEvent}
  {pid : Nat} {process : Process} {service : Service} {poll_handle : ClientHandle}
  {additional_service_dirs : List OsString} {files : FileSystem}

/-- The process got the stream of the handle under the name of the handle. -/
def Given (log : List BusEvent) (pid : Nat) (poll_handle : ClientHandle) : Prop :=
  .service pid (.adopted poll_handle.service_name poll_handle.rpc) ∈ log ∨
    .service pid (.accepted poll_handle.service_name poll_handle.rpc) ∈ log

def Offered (log : List BusEvent) (conn : Conn) (initiator : String) (pair : Nat) : Prop :=
  ∃ target request, .hub (.connectionRequest conn initiator target pair request) ∈ log

structure Peered (log : List BusEvent) (bus : Bus) : Prop where
  born : ∀ conn pid name, bus.owners.get conn = some (pid, name) → pid < bus.clock
  named : ∀ conn pid name process, bus.owners.get conn = some (pid, name) →
    bus.processes.get pid = some process → name = process.service_name
  arriving : ∀ conn initiator pair, .connectionRequest initiator pair ∈ bus.fromHub conn →
    Offered log conn initiator pair
  accepted : ∀ pid initiator pair, .service pid (.accepted initiator pair) ∈ log →
    ∃ conn name, bus.owners.get conn = some (pid, name) ∧ Offered log conn initiator pair
  held : ∀ pid process service poll_handle, bus.processes.get pid = some process →
    process.service = some service → service.Holds poll_handle → Given log pid poll_handle

theorem Given.grow (given : Given log pid poll_handle) (logs : ∀ event ∈ log, event ∈ log') :
    Given log' pid poll_handle := given.imp (logs _) (logs _)

theorem Offered.grow {conn : Conn} {initiator : String} {pair : Nat} (offered : Offered log conn initiator pair)
    (logs : ∀ event ∈ log, event ∈ log') : Offered log' conn initiator pair := by
  obtain ⟨target, request, member⟩ := offered
  exact ⟨target, request, logs _ member⟩

theorem Peered.initial (additional_service_dirs : List OsString) (files : FileSystem) :
    Peered [] (Bus.new additional_service_dirs files) where
  born := by simp [Bus.new]
  named := by simp [Bus.new]
  arriving := by simp [Bus.new]
  accepted := by simp
  held := by simp [Bus.new]

theorem Peered.hubStep (peered : Peered log bus) {action : Action}
    (stepped : bus.hubStep env action = some (after, out)) : Peered (log ++ out) after := by
  obtain ⟨hub, events, taken, rfl, rfl⟩ := hubStep_cases stepped
  have logs : ∀ event ∈ log, event ∈ log ++ events.map BusEvent.hub :=
    fun event member => List.mem_append_left _ member
  refine ⟨peered.born, peered.named, ?_, ?_, ?_⟩
  · intro conn initiator pair member
    rcases List.mem_append.mp member with old | new
    · exact (peered.arriving conn initiator pair old).grow logs
    · obtain ⟨event, there, written⟩ := List.mem_filterMap.mp new
      unfold delivery at written
      split at written
      · split at written <;> cases written
      · rename_i writer found target number request
        split at written
        · rename_i this
          cases written
          subst this
          exact ⟨target, request, List.mem_append_right _ (List.mem_map_of_mem there)⟩
        · cases written
      · cases written
  · intro pid initiator pair member
    have old := (List.mem_append.mp member).resolve_right (by simp)
    obtain ⟨conn, name, owner, offered⟩ := peered.accepted pid initiator pair old
    exact ⟨conn, name, owner, offered.grow logs⟩
  · intro pid process service poll_handle present running holds
    exact (peered.held pid process service poll_handle present running holds).grow logs

theorem Peered.take (peered : Peered log bus) {conn : Conn} {next : Delivery} {rest : List Delivery}
    (queue : bus.fromHub conn = next :: rest) : Peered log (bus.taken conn rest) :=
  ⟨peered.born, peered.named,
    fun other initiator pair member => peered.arriving other initiator pair (mem_of_mem_taken queue member),
    peered.accepted, peered.held⟩

theorem accepts_offer {monitor : Bool} {next : Service} {action : ServiceAction} {events : List ServiceEvent}
    (steps : service.Steps monitor action next events) {initiator : String} {pair : Nat}
    (member : .accepted initiator pair ∈ events) : action = .hubRequest (.fd initiator pair) := by
  cases steps.emits.2 _ member with
  | offered request _ was offer =>
    obtain ⟨client_name, stream, rfl, which⟩ := offered_events offer
    simp only [ServiceEvent.accepted.injEq, reduceCtorEq, or_false] at which
    obtain ⟨rfl, rfl⟩ := which
    exact was

/-- A service takes a step. `source` is where the hub's request comes from, if it takes one. -/
theorem Peered.serviceStep (peered : Peered log bus) {before : Process} {action : ServiceAction}
    (stepped : bus.serviceStep pid process service action = some (after, out))
    (present : bus.processes.get pid = some before) (running : before.service = some service)
    (same : process.service_name = before.service_name)
    (source : ∀ initiator pair, action = .hubRequest (.fd initiator pair) →
      ∃ conn name, bus.owners.get conn = some (pid, name) ∧ Offered log conn initiator pair) :
    Peered (log ++ out) after := by
  obtain ⟨next, events, taken, rfl, rfl⟩ := serviceStep_cases stepped
  have steps := Service.step_cases taken
  have logs : ∀ event ∈ log, event ∈ log ++ events.map (BusEvent.service pid) :=
    fun event member => List.mem_append_left _ member
  have logged : ∀ event ∈ events, .service pid event ∈ log ++ events.map (BusEvent.service pid) :=
    fun event member => List.mem_append_right _ (List.mem_map_of_mem member)
  refine ⟨peered.born, ?_, ?_, ?_, ?_⟩
  · intro conn other name process' owner there
    rcases setProcess_cases there with ⟨rfl, rfl⟩ | ⟨_, there'⟩
    · rw [peered.named conn other name before owner present]
      exact same.symm
    · exact peered.named conn other name process' owner there'
  · intro conn initiator pair member
    exact (peered.arriving conn initiator pair member).grow logs
  · intro other initiator pair member
    have found : ∃ conn name, bus.owners.get conn = some (other, name) ∧ Offered log conn initiator pair := by
      rcases List.mem_append.mp member with old | new
      · exact peered.accepted other initiator pair old
      · obtain ⟨rfl, emitted⟩ := mem_serviceEvents.mp new
        exact source initiator pair (accepts_offer steps emitted)
    obtain ⟨conn, name, owner, offered⟩ := found
    exact ⟨conn, name, owner, offered.grow logs⟩
  · intro other process' service' poll_handle there running' holds
    rcases setProcess_cases there with ⟨rfl, rfl⟩ | ⟨_, there'⟩
    · cases running'
      cases steps.obtains holds with
      | kept earlier held name stream =>
        have given := peered.held other before service earlier present running held
        rw [Given, name, stream] at given
        exact Given.grow given logs
      | adopted member => exact .inl (logged _ member)
      | accepted member => exact .inr (logged _ member)
    · exact (peered.held other process' service' poll_handle there' running' holds).grow logs

/-- A process is entered that has no service yet, or a service without peers. -/
theorem Peered.setProcess (peered : Peered log bus)
    (named : ∀ conn name, bus.owners.get conn = some (pid, name) → name = process.service_name)
    (held : ∀ service poll_handle, process.service = some service → service.Holds poll_handle →
      Given log pid poll_handle) : Peered log (bus.setProcess pid process) := by
  refine ⟨peered.born, ?_, peered.arriving, peered.accepted, ?_⟩
  · intro conn other name process' owner there
    rcases setProcess_cases there with ⟨rfl, rfl⟩ | ⟨_, before⟩
    · exact named conn name owner
    · exact peered.named conn other name process' owner before
  · intro other process' service poll_handle there running holds
    rcases setProcess_cases there with ⟨rfl, rfl⟩ | ⟨_, before⟩
    · exact held service poll_handle running holds
    · exact peered.held other process' service poll_handle before running holds

theorem Peered.hubConnect (peered : Peered log bus) (wired : Wired log bus none) {service_name : String}
    {credentials : UCred} {message_id : Int} {clock : Nat}
    (connected : bus.hubConnect env pid service_name credentials message_id = some (after, out))
    (later : bus.clock ≤ clock) (number : pid < clock)
    (named : ∀ process, bus.processes.get pid = some process → service_name = process.service_name) :
    Peered (log ++ out) { after with clock := clock } ∧
      (∀ conn name, after.owners.get conn = some (pid, name) →
        name = service_name ∨ bus.owners.get conn = some (pid, name)) := by
  obtain ⟨middle, stepped, rfl⟩ := hubConnect_cases connected
  have before := peered.hubStep stepped
  obtain ⟨hub, events, taken, rfl, rfl⟩ := hubStep_cases stepped
  have split : ∀ {conn pid' name}, (bus.owners.insert bus.hub.clock (pid, service_name)).get conn = some (pid', name) →
      pid' = pid ∧ name = service_name ∨ bus.owners.get conn = some (pid', name) := by
    intro conn pid' name there
    rw [Table.get_insert] at there
    split at there
    · cases there
      exact .inl ⟨rfl, rfl⟩
    · exact .inr there
  refine ⟨⟨?_, ?_, before.arriving, ?_, before.held⟩, ?_⟩
  · intro conn other name there
    rcases split there with ⟨rfl, _⟩ | old
    · exact number
    · exact Nat.lt_of_lt_of_le (peered.born conn other name old) later
  · intro conn other name process there present
    rcases split there with ⟨rfl, rfl⟩ | old
    · exact named process present
    · exact peered.named conn other name process old present
  · intro other initiator pair member
    obtain ⟨conn, name, owner, offered⟩ := before.accepted other initiator pair member
    have bound := wired.fresh conn _ owner
    exact ⟨conn, name, (Table.get_insert_of_ne (Nat.ne_of_lt bound)).trans owner, offered⟩
  · intro conn name there
    exact (split there).imp_left And.right

theorem Peered.preserved (peered : Peered log bus) (wired : Wired log bus none)
    (taken : Bus.step env bus action = some (after, out)) : Peered (log ++ out) after := by
  cases bus_step_cases taken with
  | started service_name monitor credentials message_id middle _ connected =>
    have unborn : ∀ conn name, bus.owners.get conn ≠ some (bus.clock, name) := by
      intro conn name owner
      exact absurd (peered.born conn _ name owner) (Nat.lt_irrefl _)
    have nobody : ∀ process, bus.processes.get bus.clock = some process → service_name = process.service_name := by
      intro process present
      exact absurd (wired.process _ process present).1 (Nat.lt_irrefl _)
    obtain ⟨joined, owners⟩ := peered.hubConnect wired connected (Nat.le_succ _) (Nat.lt_succ_self _) nobody
    refine joined.setProcess ?_ (fun _ _ none => by cases none)
    intro conn name owner
    exact (owners conn name owner).resolve_right (unborn conn name)
  | registered pid process message_id rest present waiting queue =>
    rw [List.append_nil]
    refine (peered.take queue).setProcess ?_ ?_
    · intro conn name owner
      exact peered.named conn pid name process owner present
    · intro service poll_handle fresh holds
      cases fresh
      rcases holds with ⟨number, there⟩ | ⟨number, uses⟩
      · cases there
      · cases uses
  | exited pid =>
    rw [List.append_nil]
    exact ⟨peered.born, fun conn other name process owner there =>
        peered.named conn other name process owner (Table.get_of_remove there), peered.arriving, peered.accepted,
      fun other process service poll_handle there =>
        peered.held other process service poll_handle (Table.get_of_remove there)⟩
  | served pid process service action _ _ present running own stepped =>
    apply peered.serviceStep stepped present running rfl
    intro initiator pair was
    rw [was] at own
    cases own
  | delivered pid process service next rest action _ _ present running queue means stepped =>
    apply (peered.take queue).serviceStep stepped present running rfl
    intro initiator pair was
    have offer : next = .connectionRequest initiator pair := by
      rw [was] at means
      unfold Delivery.action at means
      split at means <;> cases means
      rfl
    have member : .connectionRequest initiator pair ∈ bus.fromHub process.hub_connection := by
      rw [queue, offer]
      exact List.mem_cons_self
    exact ⟨_, _, (wired.process pid process present).2.1, peered.arriving _ initiator pair member⟩
  | ignored pid process service next rest present running queue means =>
    rw [List.append_nil]
    exact peered.take queue
  | rejoining pid process service credentials message_id middle _ present running connected =>
    have clock := (wired.hubConnect connected).2.2.1
    have processes := (wired.hubConnect connected).2.2.2.1
    have only : ∀ process', bus.processes.get pid = some process' →
        process.service_name = process'.service_name := by
      intro process' there
      rw [present] at there
      cases there
      rfl
    obtain ⟨joined, owners⟩ := peered.hubConnect wired connected (Nat.le_of_eq clock.symm)
      (clock.symm ▸ (wired.process pid process present).1) only
    refine joined.setProcess ?_ ?_
    · intro conn name owner
      rcases owners conn name owner with same | old
      · exact same
      · exact peered.named conn pid name process old present
    · intro service' poll_handle running' holds
      exact joined.held pid process service' poll_handle (processes ▸ present) running' holds
  | rejoined pid process service conn message_id rest _ _ present running joining queue stepped =>
    apply (peered.take queue).serviceStep stepped present running rfl
    intro _ _ impossible
    cases impossible
  | rejoinFailed pid process service e _ _ present running stepped =>
    apply peered.serviceStep stepped present running rfl
    intro _ _ impossible
    cases impossible
  | received conn message rest _ _ queue stepped =>
    have shorter : Peered log { bus with toHub := Function.update bus.toHub conn rest } :=
      ⟨peered.born, peered.named, peered.arriving, peered.accepted, peered.held⟩
    exact shorter.hubStep stepped
  | hub action _ _ own stepped => exact peered.hubStep stepped

theorem run_peered {allowed : Bus → BusAction → Prop}
    (run : Transition.RunWith (Bus.step env) allowed (Bus.new additional_service_dirs files) log bus) :
    Peered log bus :=
  run.invariant (Peered.initial additional_service_dirs files)
    fun _ _ _ _ _ before peered _ taken => peered.preserved (run_wired before) taken

/-- The process and the name at both ends of a pair: the owner of the requesting connection and that of the
    target's. The hub has admitted both under these names and allowed the request. -/
structure Ends (log : List BusEvent) (owners : Table Conn (Nat × String)) (pair : Nat)
    (first second : Nat × String) : Prop where
  offered : ∃ writer request, .hub (.connectionRequest writer first.2 second.2 pair request) ∈ log ∧
    owners.get request.writer = some first ∧ owners.get writer = some second ∧
    ∃ before, before <+: log.filterMap hubEvent ∧ Sanctioned before writer first.2 second.2 request

theorem ends_of_offer (run : KrossbarHub.Run env additional_service_dirs files (log.filterMap hubEvent) bus.hub)
    {writer : Conn} {request : RpcRequest} {pair : Nat} {first second : Nat × String}
    (offered : .hub (.connectionRequest writer first.2 second.2 pair request) ∈ log)
    (caller : bus.owners.get request.writer = some first) (callee : bus.owners.get writer = some second) :
    Ends log bus.owners pair first second := by
  obtain ⟨before, later, split⟩ := List.append_of_mem (mem_hubEvents.mpr offered)
  have sanctioned : Sanctioned before writer first.2 second.2 request :=
    (run_vetted run).history before _ later split
  exact ⟨writer, request, offered, caller, callee, before, ⟨_, split.symm⟩, sanctioned⟩

theorem ends_unique (run : KrossbarHub.Run env additional_service_dirs files (log.filterMap hubEvent) bus.hub)
    {pair : Nat} {first second first' second' : Nat × String} (ends : Ends log bus.owners pair first second)
    (others : Ends log bus.owners pair first' second') : first' = first ∧ second' = second := by
  obtain ⟨writer, request, offered, caller, callee, _⟩ := ends.offered
  obtain ⟨writer', request', offered', caller', callee', _⟩ := others.offered
  obtain ⟨rfl, _, _, rfl⟩ :=
    pair_offered_once run (mem_hubEvents.mpr offered) (mem_hubEvents.mpr offered')
  rw [caller] at caller'
  rw [callee] at callee'
  exact ⟨(Option.some.inj caller').symm, (Option.some.inj callee').symm⟩

/-- A handle of a process and the pair that its stream is an end of. -/
def Bus.Handle (bus : Bus) (pid : Nat) (name : String) (poll_handle : ClientHandle) : Prop :=
  ∃ process service, bus.processes.get pid = some process ∧ process.service = some service ∧
    process.service_name = name ∧ service.Holds poll_handle

theorem handle_ends (wired : Wired log bus none) (asked : Asked log bus) (peered : Peered log bus)
    (run : KrossbarHub.Run env additional_service_dirs files (log.filterMap hubEvent) bus.hub) {name : String}
    (handle : bus.Handle pid name poll_handle) : ∃ other,
      Ends log bus.owners poll_handle.rpc (pid, name) (other, poll_handle.service_name) ∨
      Ends log bus.owners poll_handle.rpc (other, poll_handle.service_name) (pid, name) := by
  obtain ⟨process, service, present, running, rfl, holds⟩ := handle
  rcases peered.held pid process service poll_handle present running holds with adopted | accepted
  · obtain ⟨writer, initiator, request, other, offered, caller, callee⟩ := asked.adopted pid _ _ adopted
    rw [peered.named _ pid initiator process caller present] at offered caller
    exact ⟨other, .inl (ends_of_offer run offered caller callee)⟩
  · obtain ⟨writer, name, callee, target, request, offered⟩ := peered.accepted pid _ _ accepted
    have offer := connectionRequest_offer run (mem_hubEvents.mpr offered)
    obtain ⟨other, caller⟩ := registered_owner wired offer.initiator
    obtain ⟨owner, owned⟩ := registered_owner wired offer.target
    rw [callee] at owned
    cases owned
    rw [peered.named writer pid name process callee present] at offered callee
    exact ⟨other, .inr (ends_of_offer run offered caller callee)⟩

/-- The name under which a service knows a peer is that of the process at the other end of the stream, which the
    hub has admitted under it and, with the pair, allowed to be there. No third process has an end of it. -/
theorem peer_names_authentic (run : Transition.Run (Bus.step env) (Bus.new additional_service_dirs files) log bus)
    {name : String} (handle : bus.Handle pid name poll_handle) :
    ∃ first second, Ends log bus.owners poll_handle.rpc first second ∧
      ((first = (pid, name) ∧ second.2 = poll_handle.service_name) ∨
        (second = (pid, name) ∧ first.2 = poll_handle.service_name)) ∧
      ∀ other another poll_handle', bus.Handle other another poll_handle' → poll_handle'.rpc = poll_handle.rpc →
        ((other, another) = first ∧ poll_handle'.service_name = second.2) ∨
          ((other, another) = second ∧ poll_handle'.service_name = first.2) := by
  have wired := run_wired run
  have hub := hub_run run
  have ends : ∀ {pid name poll_handle}, bus.Handle pid name poll_handle → _ :=
    fun handle => handle_ends wired (run_asked run) (run_peered run) hub handle
  obtain ⟨peer, mine⟩ := ends handle
  have alone : ∀ {first second}, Ends log bus.owners poll_handle.rpc first second →
      ∀ other another poll_handle', bus.Handle other another poll_handle' → poll_handle'.rpc = poll_handle.rpc →
        ((other, another) = first ∧ poll_handle'.service_name = second.2) ∨
          ((other, another) = second ∧ poll_handle'.service_name = first.2) := by
    intro first second mine other another poll_handle' handle' same
    obtain ⟨peer', theirs⟩ := ends handle'
    rw [same] at theirs
    rcases theirs with theirs | theirs
    · obtain ⟨rfl, rfl⟩ := ends_unique hub mine theirs
      exact .inl ⟨rfl, rfl⟩
    · obtain ⟨rfl, rfl⟩ := ends_unique hub mine theirs
      exact .inr ⟨rfl, rfl⟩
  rcases mine with mine | mine
  · exact ⟨_, _, mine, .inl ⟨rfl, rfl⟩, alone mine⟩
  · exact ⟨_, _, mine, .inr ⟨rfl, rfl⟩, alone mine⟩

theorem peer_names_authentic_accepted : ∃ log bus poll_handle,
    Transition.Run (Bus.step openEnvironment) openBus log bus ∧ bus.Handle 1 "com.b" poll_handle ∧
    poll_handle.service_name = "com.a" ∧ ∃ first second, Ends log bus.owners poll_handle.rpc first second ∧
      ((first = (1, "com.b") ∧ second.2 = "com.a") ∨ (second = (1, "com.b") ∧ first.2 = "com.a")) := by
  obtain ⟨log, bus, run, shown⟩ := Transition.exists_run_of_execute (Bus.step openEnvironment) openBus
    (starting 0 0 "com.a" ++ starting 1 6 "com.b" ++ adopting 0 0 "com.b" ++ [.service 1 .poll, .deliver 1])
    (fun _ bus => (bus.processes.get 1).any fun process =>
      process.service_name == "com.b" && process.service.any fun service =>
        (service.client_poll_handles.get 0).any fun poll_handle => poll_handle.service_name == "com.a")
    (by decide +kernel)
  simp only [Option.any_eq_true, Bool.and_eq_true, beq_iff_eq] at shown
  obtain ⟨process, present, named, service, running, poll_handle, there, peer⟩ := shown
  have handle : bus.Handle 1 "com.b" poll_handle := ⟨process, service, present, running, named, .inl ⟨0, there⟩⟩
  obtain ⟨first, second, ends, sides, _⟩ := peer_names_authentic run handle
  rw [peer] at sides
  exact ⟨log, bus, poll_handle, run, handle, peer, first, second, ends, sides⟩

end KrossbarBus
