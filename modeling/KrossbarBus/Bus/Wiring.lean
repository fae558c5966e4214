import KrossbarBus.Bus.Steps
import KrossbarBus.Hub.Offers
import KrossbarBus.Lib.Handshakes

namespace KrossbarBus

open KrossbarHub KrossbarLib

variable {env : HubEnvironment} {bus after : Bus} {action : BusAction} {out log log' : List BusEvent}
  {owners owners' : Table Conn (Nat × String)} {conn : Conn} {hand : Option (Conn × Delivery)}

def Sent (log : List BusEvent) (owners : Table Conn (Nat × String)) (conn : Conn) (message_id : Int)
    (body : Body) : Prop :=
  ∃ pid service_name, owners.get conn = some (pid, service_name) ∧
    (body = .call (.ok (.register service_name)) ∨
      ∃ target wait, body = .call (.ok (.connect target wait)) ∧
        .service pid (.requested message_id target wait) ∈ log)

def Handed (log : List BusEvent) (conn : Conn) (message_id : Int) (pair : Nat) : Prop :=
  ∃ request, .hub (.responded request (.fd pair)) ∈ log ∧ request.writer = conn ∧ request.message_id = message_id

def Settled (log : List BusEvent) (owners : Table Conn (Nat × String)) (writer : Conn) (initiator : String)
    (pair : Nat) : Prop :=
  ∃ pid service_name, owners.get writer = some (pid, service_name) ∧
    (.service pid (.accepted initiator pair) ∈ log ∨ .service pid (.monitored initiator pair) ∈ log ∨
      .service pid (.discarded initiator pair) ∈ log)

/-- What is on the connections, and what was, has the right origin. `hand` is what a service has just
    read from a connection. -/
structure Wired (log : List BusEvent) (bus : Bus) (hand : Option (Conn × Delivery)) : Prop where
  fresh : ∀ conn owner, bus.owners.get conn = some owner → conn < bus.hub.clock
  process : ∀ pid process, bus.processes.get pid = some process → pid < bus.clock ∧
    bus.owners.get process.hub_connection = some (pid, process.service_name) ∧
    ∀ conn, process.joining = some conn → bus.owners.get conn = some (pid, process.service_name)
  queued : ∀ conn message, message ∈ bus.toHub conn → Sent log bus.owners conn message.message_id message.body
  received : ∀ client request, .hub (.received client request) ∈ log →
    Sent log bus.owners request.writer request.message_id request.body
  answered : ∀ conn message_id pair, .response message_id (.fd pair) ∈ bus.fromHub conn →
    Handed log conn message_id pair
  offered : ∀ writer initiator target pair request,
    .hub (.connectionRequest writer initiator target pair request) ∈ log →
    .connectionRequest initiator pair ∈ bus.fromHub writer ∨
      hand = some (writer, .connectionRequest initiator pair) ∨ Settled log bus.owners writer initiator pair

section Growth

variable (logs : ∀ event ∈ log, event ∈ log')
  (owned : ∀ conn owner, owners.get conn = some owner → owners'.get conn = some owner)
include logs

theorem Handed.grow {message_id : Int} {pair : Nat} (handed : Handed log conn message_id pair) :
    Handed log' conn message_id pair := by
  obtain ⟨request, answered, rest⟩ := handed
  exact ⟨request, logs _ answered, rest⟩

include owned

theorem Sent.grow {message_id : Int} {body : Body} (sent : Sent log owners conn message_id body) :
    Sent log' owners' conn message_id body := by
  obtain ⟨pid, service_name, owner, what⟩ := sent
  refine ⟨pid, service_name, owned _ _ owner, ?_⟩
  rcases what with register | ⟨target, wait, connect, requested⟩
  · exact .inl register
  · exact .inr ⟨target, wait, connect, logs _ requested⟩

theorem Settled.grow {initiator : String} {pair : Nat} (settled : Settled log owners conn initiator pair) :
    Settled log' owners' conn initiator pair := by
  obtain ⟨pid, service_name, owner, what⟩ := settled
  refine ⟨pid, service_name, owned _ _ owner, ?_⟩
  rcases what with accepted | monitored | discarded
  · exact .inl (logs _ accepted)
  · exact .inr (.inl (logs _ monitored))
  · exact .inr (.inr (logs _ discarded))

end Growth

theorem Wired.initial (additional_service_dirs : List OsString) (files : FileSystem) :
    Wired [] (Bus.new additional_service_dirs files) none where
  fresh := by simp [Bus.new]
  process := by simp [Bus.new]
  queued := by simp [Bus.new]
  received := by simp
  answered := by simp [Bus.new]
  offered := by simp

theorem hub_clock {hub next : Hub} {action : Action} {events : List Event}
    (taken : KrossbarHub.step env hub action = some (next, events)) : hub.clock ≤ next.clock := by
  cases KrossbarHub.step_cases taken with
  | accepted credentials selecting => exact Nat.le_succ _
  | resumed conn task input progress selecting present resumes => exact Nat.le_succ _
  | _ => exact Nat.le_refl _

theorem accept_clock {hub next : Hub} {credentials : UCred} {events : List Event}
    (taken : KrossbarHub.step env hub (.accept (some credentials)) = some (next, events)) :
    hub.clock < next.clock ∧ events = [.accepted hub.clock credentials] := by
  cases KrossbarHub.step_cases taken with
  | accepted _ selecting => exact ⟨Nat.lt_succ_self _, rfl⟩

theorem Wired.hubStep (wired : Wired log bus hand) {action : Action}
    (stepped : bus.hubStep env action = some (after, out))
    (reads : ∀ client request, .hub (.received client request) ∈ out →
      Sent log bus.owners request.writer request.message_id request.body) : Wired (log ++ out) after hand := by
  obtain ⟨hub, events, taken, rfl, rfl⟩ := hubStep_cases stepped
  have logs : ∀ event ∈ log, event ∈ log ++ events.map BusEvent.hub :=
    fun event member => List.mem_append_left _ member
  refine ⟨?_, wired.process, ?_, ?_, ?_, ?_⟩
  · intro conn owner there
    exact Nat.lt_of_lt_of_le (wired.fresh conn owner there) (hub_clock taken)
  · intro conn message member
    exact (wired.queued conn message member).grow logs fun _ _ same => same
  · intro client request member
    rcases List.mem_append.mp member with old | new
    · exact (wired.received client request old).grow logs fun _ _ same => same
    · exact (reads client request new).grow logs fun _ _ same => same
  · intro conn message_id pair member
    rcases List.mem_append.mp member with old | new
    · exact (wired.answered conn message_id pair old).grow logs
    · obtain ⟨event, there, written⟩ := List.mem_filterMap.mp new
      unfold delivery at written
      split at written
      · split at written
        · rename_i request response here
          cases written
          exact ⟨request, List.mem_append_right _ (List.mem_map_of_mem there), here, rfl⟩
        · cases written
      · split at written <;> cases written
      · cases written
  · intro writer initiator target pair request member
    rcases List.mem_append.mp member with old | new
    · rcases wired.offered writer initiator target pair request old with waiting | held | settled
      · exact .inl (List.mem_append_left _ waiting)
      · exact .inr (.inl held)
      · exact .inr (.inr (settled.grow logs fun _ _ same => same))
    · obtain ⟨event, there, same⟩ := List.mem_map.mp new
      cases same
      exact .inl (List.mem_append_right _ (List.mem_filterMap.mpr ⟨_, there, by simp [delivery]⟩))

theorem Wired.serviceStep (wired : Wired log bus hand) {pid : Nat} {process : Process} {service : Service}
    {action : ServiceAction} (stepped : bus.serviceStep pid process service action = some (after, out))
    (number : pid < bus.clock) (owner : bus.owners.get process.hub_connection = some (pid, process.service_name))
    (joins : ∀ conn, process.joining = some conn → bus.owners.get conn = some (pid, process.service_name)) :
    Wired (log ++ out) after hand := by
  obtain ⟨next, events, taken, rfl, rfl⟩ := serviceStep_cases stepped
  have logs : ∀ event ∈ log, event ∈ log ++ events.map (BusEvent.service pid) :=
    fun event member => List.mem_append_left _ member
  refine ⟨wired.fresh, ?_, ?_, ?_, ?_, ?_⟩
  · intro other process' there
    rcases setProcess_cases there with ⟨rfl, rfl⟩ | ⟨_, before⟩
    · exact ⟨number, owner, joins⟩
    · exact wired.process other process' before
  · intro conn message member
    rcases send_cases member with before | ⟨rfl, new⟩
    · exact (wired.queued conn message before).grow logs fun _ _ same => same
    · obtain ⟨event, there, written⟩ := List.mem_filterMap.mp new
      have logged : .service pid event ∈ log ++ events.map (BusEvent.service pid) :=
        List.mem_append_right _ (List.mem_map_of_mem there)
      unfold callMessage at written
      split at written
      · rename_i message_id target wait
        cases written
        exact ⟨pid, process.service_name, owner, .inr ⟨target, wait, rfl, logged⟩⟩
      · cases written
  · intro client request member
    have old := (List.mem_append.mp member).resolve_right (hub_notMem_serviceEvents pid _ events)
    exact (wired.received client request old).grow logs fun _ _ same => same
  · intro conn message_id pair member
    exact (wired.answered conn message_id pair member).grow logs
  · intro writer initiator target pair request member
    have old := (List.mem_append.mp member).resolve_right (hub_notMem_serviceEvents pid _ events)
    rcases wired.offered writer initiator target pair request old with waiting | held | settled
    · exact .inl waiting
    · exact .inr (.inl held)
    · exact .inr (.inr (settled.grow logs fun _ _ same => same))

theorem Wired.take (wired : Wired log bus none) {next : Delivery} {rest : List Delivery}
    (queue : bus.fromHub conn = next :: rest) : Wired log (bus.taken conn rest) (some (conn, next)) := by
  refine ⟨wired.fresh, wired.process, wired.queued, wired.received, ?_, ?_⟩
  · intro other message_id pair member
    exact wired.answered other message_id pair (mem_of_mem_taken queue member)
  · intro writer initiator target pair request member
    rcases wired.offered writer initiator target pair request member with waiting | held | settled
    · rcases mem_taken queue waiting with ⟨rfl, first⟩ | later
      · rw [← first]
        exact .inr (.inl rfl)
      · exact .inl later
    · cases held
    · exact .inr (.inr settled)

theorem Wired.settle {next : Delivery} (wired : Wired log bus (some (conn, next)))
    (dealt : ∀ initiator pair, next = .connectionRequest initiator pair →
      Settled log bus.owners conn initiator pair) : Wired log bus none := by
  refine ⟨wired.fresh, wired.process, wired.queued, wired.received, wired.answered, ?_⟩
  intro writer initiator target pair request member
  rcases wired.offered writer initiator target pair request member with waiting | held | settled
  · exact .inl waiting
  · cases held
    exact .inr (.inr (dealt initiator pair rfl))
  · exact .inr (.inr settled)

theorem Wired.setProcess (wired : Wired log bus hand) {pid : Nat} {process : Process} (number : pid < bus.clock)
    (owner : bus.owners.get process.hub_connection = some (pid, process.service_name))
    (joins : ∀ conn, process.joining = some conn → bus.owners.get conn = some (pid, process.service_name)) :
    Wired log (bus.setProcess pid process) hand := by
  refine ⟨wired.fresh, ?_, wired.queued, wired.received, wired.answered, wired.offered⟩
  intro other process' there
  rcases setProcess_cases there with ⟨rfl, rfl⟩ | ⟨_, before⟩
  · exact ⟨number, owner, joins⟩
  · exact wired.process other process' before

theorem Wired.hubConnect (wired : Wired log bus none) {pid : Nat} {service_name : String} {credentials : UCred}
    {message_id : Int} (connected : bus.hubConnect env pid service_name credentials message_id = some (after, out)) :
    Wired (log ++ out) after none ∧ after.owners.get bus.hub.clock = some (pid, service_name) ∧
      after.clock = bus.clock ∧ after.processes = bus.processes ∧
      ∀ conn owner, bus.owners.get conn = some owner → after.owners.get conn = some owner := by
  obtain ⟨middle, stepped, rfl⟩ := hubConnect_cases connected
  obtain ⟨hub, events, taken, rfl, rfl⟩ := hubStep_cases stepped
  obtain ⟨later, logged⟩ := accept_clock taken
  have unread : ∀ client request, .hub (.received client request) ∈ events.map BusEvent.hub →
      Sent log bus.owners request.writer request.message_id request.body := by
    intro client request member
    rw [logged] at member
    simp at member
  have before := wired.hubStep stepped unread
  have owned : ∀ conn owner, bus.owners.get conn = some owner →
      (bus.owners.insert bus.hub.clock (pid, service_name)).get conn = some owner := by
    intro conn owner there
    have bound := wired.fresh conn owner there
    exact (Table.get_insert_of_ne (Nat.ne_of_lt bound)).trans there
  refine ⟨⟨?_, ?_, ?_, ?_, before.answered, ?_⟩, Table.get_insert_self, rfl, rfl, owned⟩
  · intro conn owner there
    simp only [Bus.send, Table.get_insert] at there
    split at there
    · rename_i this
      rw [this]
      exact later
    · exact before.fresh conn owner there
  · intro other process there
    obtain ⟨bound, owner, joins⟩ := before.process other process there
    exact ⟨bound, owned _ _ owner, fun conn joining => owned _ _ (joins conn joining)⟩
  · intro conn message member
    rcases send_cases member with old | ⟨rfl, new⟩
    · exact (before.queued conn message old).grow (fun _ same => same) owned
    · cases List.mem_singleton.mp new
      exact ⟨pid, service_name, Table.get_insert_self, .inl rfl⟩
  · intro client request member
    exact (before.received client request member).grow (fun _ same => same) owned
  · intro writer initiator target pair request member
    rcases before.offered writer initiator target pair request member with waiting | held | settled
    · exact .inl waiting
    · exact .inr (.inl held)
    · exact .inr (.inr (settled.grow (fun _ same => same) owned))

theorem Wired.tick (wired : Wired log bus hand) {clock : Nat} (later : bus.clock ≤ clock) :
    Wired log { bus with clock := clock } hand := by
  refine ⟨wired.fresh, ?_, wired.queued, wired.received, wired.answered, wired.offered⟩
  intro pid process there
  obtain ⟨bound, rest⟩ := wired.process pid process there
  exact ⟨Nat.lt_of_lt_of_le bound later, rest⟩

theorem Wired.exit (wired : Wired log bus hand) (pid : Nat) :
    Wired log { bus with processes := bus.processes.remove pid } hand :=
  ⟨wired.fresh, fun other process there => wired.process other process (Table.get_of_remove there), wired.queued,
    wired.received, wired.answered, wired.offered⟩

theorem Wired.read (wired : Wired log bus none) {message : Message} {rest : List Message}
    (queue : bus.toHub conn = message :: rest)
    (stepped : { bus with toHub := Function.update bus.toHub conn rest }.hubStep env
      (.task conn (.polled (some message))) = some (after, out)) : Wired (log ++ out) after none := by
  have shorter : Wired log { bus with toHub := Function.update bus.toHub conn rest } none := by
    refine ⟨wired.fresh, wired.process, ?_, wired.received, wired.answered, wired.offered⟩
    intro other queued member
    simp only [Function.update_apply] at member
    split at member
    · rename_i this
      apply wired.queued
      rw [this, queue]
      exact List.mem_cons_of_mem message member
    · exact wired.queued other queued member
  apply shorter.hubStep stepped
  intro client request member
  obtain ⟨hub, events, taken, rfl, _⟩ := hubStep_cases stepped
  obtain ⟨event, there, same⟩ := List.mem_map.mp member
  cases same
  obtain ⟨polled, was, is⟩ := step_received taken there
  cases was
  rw [is]
  exact wired.queued request.writer message (by rw [queue]; exact List.mem_cons_self)

theorem own_hub_reads_nothing {action : Action} (own : ownHubAction action = true)
    (stepped : bus.hubStep env action = some (after, out)) {client : Option String} {request : RpcRequest} :
    .hub (.received client request) ∉ out := by
  intro member
  obtain ⟨hub, events, taken, rfl, _⟩ := hubStep_cases stepped
  obtain ⟨event, there, same⟩ := List.mem_map.mp member
  cases same
  obtain ⟨polled, was, _⟩ := step_received taken there
  rw [was] at own
  cases own

theorem delivery_settled {pid : Nat} {process : Process} {service : Service} {action : ServiceAction}
    {next : Delivery} (stepped : bus.serviceStep pid process service action = some (after, out))
    (means : next.action = some action) (owner : bus.owners.get conn = some (pid, process.service_name))
    (initiator : String) (pair : Nat) (offer : next = .connectionRequest initiator pair) :
    Settled (log ++ out) bus.owners conn initiator pair := by
  obtain ⟨after, events, taken, rfl, _⟩ := serviceStep_cases stepped
  rw [offer] at means
  cases means
  have logged : ∀ event, event ∈ events → .service pid event ∈ log ++ events.map (BusEvent.service pid) :=
    fun event member => List.mem_append_right _ (List.mem_map_of_mem member)
  refine ⟨pid, process.service_name, owner, ?_⟩
  cases Service.step_cases taken with
  | hubRequest _ selecting =>
    rcases handleNewConnection_events process.monitor service initiator pair with shape | shape | shape
    · exact .inl (logged _ (by rw [shape]; exact List.mem_cons_self))
    · exact .inr (.inl (logged _ (by rw [shape]; exact List.mem_cons_self)))
    · exact .inr (.inr (logged _ (by rw [shape]; exact List.mem_cons_self)))

theorem serviceStep_owners {pid : Nat} {process : Process} {service : Service} {action : ServiceAction}
    (stepped : bus.serviceStep pid process service action = some (after, out)) : after.owners = bus.owners := by
  obtain ⟨_, _, _, _, rfl⟩ := serviceStep_cases stepped
  rfl

theorem Wired.preserved (wired : Wired log bus none) (taken : Bus.step env bus action = some (after, out)) :
    Wired (log ++ out) after none := by
  cases bus_step_cases taken with
  | started service_name monitor credentials message_id middle _ connected =>
    obtain ⟨joined, owner, clock, _, _⟩ := wired.hubConnect connected
    have later : middle.clock ≤ bus.clock + 1 := by omega
    exact (joined.tick later).setProcess (Nat.lt_succ_self _) owner fun _ joining => by cases joining
  | registered pid process message_id rest present waiting queue =>
    obtain ⟨number, owner, joins⟩ := wired.process pid process present
    rw [List.append_nil]
    have read := (wired.take queue).settle fun _ _ impossible => by cases impossible
    exact read.setProcess number owner joins
  | exited pid =>
    rw [List.append_nil]
    exact wired.exit pid
  | served pid process service action _ _ present running own stepped =>
    obtain ⟨number, owner, joins⟩ := wired.process pid process present
    exact wired.serviceStep stepped number owner joins
  | delivered pid process service next rest action _ _ present running queue means stepped =>
    obtain ⟨number, owner, joins⟩ := wired.process pid process present
    apply ((wired.take queue).serviceStep stepped number owner joins).settle
    intro initiator pair offer
    rw [serviceStep_owners stepped]
    exact delivery_settled stepped means owner initiator pair offer
  | ignored pid process service next rest present running queue means =>
    rw [List.append_nil]
    apply (wired.take queue).settle
    intro initiator pair offer
    rw [offer] at means
    cases means
  | rejoining pid process service credentials message_id middle _ present running connected =>
    obtain ⟨joined, owner, clock, processes, owned⟩ := wired.hubConnect connected
    obtain ⟨number, own, _⟩ := wired.process pid process present
    refine joined.setProcess (by omega) (owned _ _ own) ?_
    intro conn joining
    cases joining
    exact owner
  | rejoined pid process service conn message_id rest _ _ present running joining queue stepped =>
    obtain ⟨number, _, joins⟩ := wired.process pid process present
    have served := (wired.take queue).serviceStep stepped number (joins conn joining) fun _ other => by cases other
    exact served.settle fun _ _ impossible => by cases impossible
  | rejoinFailed pid process service e _ _ present running stepped =>
    obtain ⟨number, owner, _⟩ := wired.process pid process present
    exact wired.serviceStep stepped number owner fun _ other => by cases other
  | received conn message rest _ _ queue stepped => exact wired.read queue stepped
  | hub action _ _ own stepped =>
    apply wired.hubStep stepped
    intro client request member
    exact absurd member (own_hub_reads_nothing own stepped)

theorem run_wired {allowed : Bus → BusAction → Prop} {additional_service_dirs : List OsString} {files : FileSystem}
    (run : Transition.RunWith (Bus.step env) allowed (Bus.new additional_service_dirs files) log bus) :
    Wired log bus none :=
  run.invariant (I := fun log bus => Wired log bus none) (Wired.initial additional_service_dirs files)
    fun _ _ _ _ _ _ wired _ taken => wired.preserved taken

end KrossbarBus
