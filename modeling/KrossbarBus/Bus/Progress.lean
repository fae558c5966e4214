import KrossbarBus.Bus.Underway
import KrossbarBus.Hub.Progress
import KrossbarBus.Lib.Progress

namespace KrossbarBus

open KrossbarHub KrossbarLib
open Transition (Inevitably)

variable {env : HubEnvironment} {bus after : Bus} {action : BusAction} {out log : List BusEvent}
  {pid : Nat} {process : Process} {service : Service} {conn : Conn}
  {additional_service_dirs : List OsString} {files : FileSystem}

/-- What has been sent arrives, sends complete, and who has something to do does it. Not among these steps is that a
    service hears of the refusal of its registration. -/
def BusAction.internal : BusAction → Bool
  | .registered _ | .deliver _ | .rejoined _ | .receive _ => true
  | .service _ action => action.internal
  | .hub action => action.internal
  | _ => false

/-- How many messages a service may still send to the hub before it hears from it. -/
def requests : Weights where
  handshake
    | .sending => 2
    | _ => 0
  phase
    | .registering => 5
    | .reconnecting => 4
    | _ => 0
  idle := 0
  signal := 3

def Process.weight (weights : Weights) (process : Process) : Nat :=
  process.service.elim 0 (Service.weight weights)

def Bus.weight (weights : Weights) (bus : Bus) : Nat := bus.processes.total bus.clock (Process.weight weights)

def Bus.toHubs (bus : Bus) : Nat := ∑ conn ∈ Finset.range bus.hub.clock, (bus.toHub conn).length

def Bus.fromHubs (bus : Bus) : Nat := ∑ conn ∈ Finset.range bus.hub.clock, (bus.fromHub conn).length

/-- What comes to the hub counts for more than what the hub does with it, and this for more than what comes from
    it. -/
def Bus.rank (bus : Bus) : Nat × (Nat × Nat) × Nat :=
  (bus.weight requests + bus.toHubs, bus.hub.rank, bus.weight steps + 3 * bus.fromHubs)

def Settles (next previous : Nat × (Nat × Nat) × Nat) : Prop :=
  Prod.Lex (· < ·) (Prod.Lex Descends (· < ·)) next previous

theorem settles_wellFounded : WellFounded Settles :=
  WellFounded.prod_lex Nat.lt_wfRel.wf (WellFounded.prod_lex descends_wellFounded Nat.lt_wfRel.wf)

theorem settles_of_less {next previous : Nat × (Nat × Nat) × Nat} (first : next.1 ≤ previous.1)
    (second : next.2.1 = previous.2.1) (third : next.2.2 < previous.2.2) : Settles next previous := by
  obtain ⟨demand, rank, chores⟩ := next
  obtain ⟨demand', rank', chores'⟩ := previous
  simp only at first second third
  subst second
  rcases Nat.lt_or_eq_of_le first with less | rfl
  · exact .left _ _ less
  · exact .right _ (.right _ third)

/-- The hub has read everything on the connections that it keeps and has nothing to do, and neither has a service. A
    service that registers again counts as halted, and one that has not started yet is not a service: no registration
    that was accepted is on its way to either, a refusal may be. -/
structure Bus.AtRest (bus : Bus) : Prop where
  hub : bus.hub.AtRest
  toHub : ∀ conn task, bus.hub.tasks.get conn = some task → bus.toHub conn = []
  services : ∀ pid process service, bus.processes.get pid = some process → process.service = some service →
    service.Halted ∨ service.AtRest ∧ bus.fromHub process.hub_connection = []
  starting : ∀ pid process message_id rest, bus.processes.get pid = some process → process.service = none →
    bus.fromHub process.hub_connection ≠ .response message_id .ok :: rest
  rejoining : ∀ pid process service conn message_id rest, bus.processes.get pid = some process →
    process.service = some service → service.activity.pollPhase = some .registering → process.joining = some conn →
    bus.fromHub conn ≠ .response message_id .ok :: rest

theorem weight_setProcess (weights : Weights) (present : bus.processes.get pid = some process) (below : pid < bus.clock)
    (next : Process) : (bus.setProcess pid next).weight weights + process.weight weights =
      bus.weight weights + next.weight weights :=
  Table.total_insert (Process.weight weights) present below next

theorem toHubs_send (bus : Bus) (below : conn < bus.hub.clock) (messages : List Message) :
    (bus.send conn messages).toHubs = bus.toHubs + messages.length := by
  have others : ∀ other, other ≠ conn →
      ((bus.send conn messages).toHub other).length = (bus.toHub other).length := by
    intro other different
    simp only [Bus.send, Function.update_of_ne different]
  have changed := Table.sum_range_update below others
  simp only [Bus.send, Function.update_self, List.length_append] at changed
  simp only [Bus.toHubs, Bus.send]
  omega

theorem fromHubs_taken {next : Delivery} {rest : List Delivery} (below : conn < bus.hub.clock)
    (queue : bus.fromHub conn = next :: rest) : (bus.taken conn rest).fromHubs + 1 = bus.fromHubs := by
  have others : ∀ other, other ≠ conn →
      ((bus.taken conn rest).fromHub other).length = (bus.fromHub other).length := by
    intro other different
    simp only [Bus.taken, Function.update_of_ne different]
  have changed := Table.sum_range_update below others
  simp only [Bus.taken, Function.update_self, queue, List.length_cons] at changed
  simp only [Bus.fromHubs, Bus.taken]
  omega

theorem callMessages_length {monitor : Bool} {next : Service} {action : ServiceAction} {events : List ServiceEvent}
    (moves : service.Steps monitor action next events) : events.filterMap callMessage = [] ∨
      (∃ requester, action = .sent requester true) ∧ (events.filterMap callMessage).length = 1 := by
  by_cases asks : ∃ message_id target wait, .requested message_id target wait ∈ events
  · obtain ⟨message_id, target, wait, requested⟩ := asks
    obtain ⟨requester, sends, _⟩ := moves.sender requested
    obtain ⟨_, _, all⟩ := moves.requests requested
    exact .inr ⟨⟨requester, sends⟩, by rw [all]; rfl⟩
  · refine .inl (List.filterMap_eq_nil_iff.mpr fun event member => ?_)
    cases event with
    | requested message_id target wait => exact absurd ⟨message_id, target, wait, member⟩ asks
    | _ => rfl

/-- What a service sends to the hub it has had in store, and it gains little from what it reads. -/
theorem service_trades {monitor : Bool} {next : Service} {action : ServiceAction} {events : List ServiceEvent}
    (numbered : service.Numbered) (moves : service.Steps monitor action next events)
    (settles : (action.internal || action.reads) = true) :
    next.weight requests + (events.filterMap callMessage).length ≤ service.weight requests ∧
      next.work ≤ service.work + 2 ∧ (action = .registered none →
        next.weight requests + (events.filterMap callMessage).length < service.weight requests) := by
  have older := fun number poll_handle present => @Service.Numbered.older service number poll_handle numbered present
  have settles : (action.internal || action.reads || action.servesCall) = true := by simp [settles]
  obtain ⟨spent, gained, trade, weighs⟩ := moves.trades requests older settles
  obtain ⟨spent', gained', trade', weighs'⟩ := moves.trades steps older settles
  refine ⟨?_, ?_, ?_⟩
  · rcases callMessages_length moves with none | ⟨⟨requester, rfl⟩, one⟩
    · have enough : gained ≤ spent := by cases trade <;> simp [requests]
      rw [none, List.length_nil]
      omega
    · have paid : gained + 1 ≤ spent := by
        cases trade
        simp [requests]
      omega
  · have little : gained' ≤ spent' + 2 := by cases trade' <;> simp [steps]
    simp only [Service.work]
    omega
  · rintro rfl
    rcases callMessages_length moves with none | ⟨⟨requester, other⟩, _⟩
    · have less : gained < spent := by
        cases trade
        simp [requests]
      rw [none, List.length_nil]
      omega
    · cases other

theorem serviceStep_ranks {before : Process} {action : ServiceAction}
    (stepped : bus.serviceStep pid process service action = some (after, out))
    (present : bus.processes.get pid = some before) (running : before.service = some service)
    (below : pid < bus.clock) (connected : process.hub_connection < bus.hub.clock) (numbered : service.Numbered)
    (settles : (action.internal || action.reads) = true) :
    after.weight requests + after.toHubs ≤ bus.weight requests + bus.toHubs ∧
      after.weight steps ≤ bus.weight steps + 2 ∧ (action.internal = true → after.weight steps < bus.weight steps) ∧
      (action = .registered none → after.weight requests + after.toHubs < bus.weight requests + bus.toHubs) ∧
      after.hub = bus.hub ∧ after.fromHubs = bus.fromHubs := by
  obtain ⟨next, events, taken, _, rfl⟩ := serviceStep_cases stepped
  have moves := Service.step_cases taken
  obtain ⟨asks, work, registers⟩ := service_trades numbered moves settles
  have sends := toHubs_send (bus.setProcess pid { process with service := some next }) connected
    (events.filterMap callMessage)
  have demand := weight_setProcess requests present below { process with service := some next }
  have chores := weight_setProcess steps present below { process with service := some next }
  have was : ∀ weights, before.weight weights = service.weight weights := fun weights => by
    rw [Process.weight, running, Option.elim_some]
  have now : ∀ weights, Process.weight weights { process with service := some next } = next.weight weights :=
    fun _ => rfl
  rw [was, now] at demand chores
  have asked : (((bus.setProcess pid { process with service := some next }).send process.hub_connection
      (events.filterMap callMessage)).toHubs) = bus.toHubs + (events.filterMap callMessage).length := sends
  have same : ∀ weights, ((bus.setProcess pid { process with service := some next }).send process.hub_connection
      (events.filterMap callMessage)).weight weights =
      (bus.setProcess pid { process with service := some next }).weight weights := fun _ => rfl
  simp only [Service.work] at work
  refine ⟨?_, ?_, ?_, ?_, rfl, rfl⟩
  · rw [asked, same]
    omega
  · rw [same]
    omega
  · intro internal
    have works := moves.works (fun _ _ there => numbered.older there) internal
    simp only [Service.work] at works
    rw [same]
    omega
  · intro registered
    have fewer := registers registered
    rw [asked, same]
    omega

theorem accepted_conn (wired : Wired log bus none) (above : bus.hub.clock ≤ conn) : bus.toHub conn = [] := by
  by_contra unread
  obtain ⟨message, member⟩ := List.exists_mem_of_ne_nil _ unread
  obtain ⟨pid, service_name, owner, _⟩ := wired.queued conn message member
  exact absurd (wired.fresh conn _ owner) (Nat.not_lt.mpr above)

theorem toHubs_later (fresh : ∀ conn, bus.hub.clock ≤ conn → bus.toHub conn = [])
    (later : bus.hub.clock ≤ after.hub.clock) (same : after.toHub = bus.toHub) : after.toHubs = bus.toHubs := by
  simp only [Bus.toHubs, same]
  exact Table.sum_range_later later fun conn above => by rw [fresh conn above, List.length_nil]

theorem hubStep_later {action : Action} (stepped : bus.hubStep env action = some (after, out)) :
    bus.hub.clock ≤ after.hub.clock ∧ after.toHub = bus.toHub ∧ after.processes = bus.processes ∧
      after.clock = bus.clock := by
  obtain ⟨hub, events, taken, rfl, rfl⟩ := hubStep_cases stepped
  exact ⟨hub_clock taken, rfl, rfl, rfl⟩

theorem internal_settles (run : Transition.Run (Bus.step env) (Bus.new additional_service_dirs files) log bus)
    (internal : action.internal = true) (taken : Bus.step env bus action = some (after, out)) :
    Settles after.rank bus.rank := by
  have wired := run_wired run
  have carried := run_carried run
  have weighs : ∀ {before later : Bus} weights, later.processes = before.processes → later.clock = before.clock →
      later.weight weights = before.weight weights := by
    intro before later weights processes clock
    rw [Bus.weight, Bus.weight, processes, clock]
  cases bus_step_cases taken with
  | registered pid process message_id rest present waiting queue =>
    obtain ⟨below, owner, _⟩ := wired.process pid process present
    have fewer := fromHubs_taken (wired.fresh _ _ owner) queue
    have old : ∀ weights, process.weight weights = 0 := fun weights => by rw [Process.weight, waiting, Option.elim_none]
    have demand := weight_setProcess requests present below { process with service := some (.new process.service_name) }
    have chores := weight_setProcess steps present below { process with service := some (.new process.service_name) }
    rw [old, show Process.weight requests { process with service := some (.new process.service_name) } = 0 from rfl]
      at demand
    rw [old, show Process.weight steps { process with service := some (.new process.service_name) } = 1 from rfl]
      at chores
    refine settles_of_less (Nat.add_le_add_right (Nat.le_of_eq demand) _) rfl ?_
    show (bus.setProcess pid _).weight steps + 3 * (bus.taken process.hub_connection rest).fromHubs < _
    simp only [Bus.rank]
    omega
  | served pid process service action _ _ present running own stepped =>
    obtain ⟨below, owner, _⟩ := wired.process pid process present
    have numbered := (carried.numbered pid process service present running).1
    obtain ⟨demand, _, chores, _, hub, fromHubs⟩ := serviceStep_ranks stepped present running below
      (wired.fresh _ _ owner) numbered (by simp [show action.internal = true from internal])
    refine settles_of_less demand (congrArg Hub.rank hub) ?_
    have less := chores internal
    simp only [Bus.rank, fromHubs]
    omega
  | delivered pid process service next rest action _ _ present running queue means stepped =>
    obtain ⟨below, owner, _⟩ := wired.process pid process present
    have connected := wired.fresh _ _ owner
    have numbered := (carried.numbered pid process service present running).1
    have reads : action.reads = true := by
      unfold Delivery.action at means
      split at means <;> cases means <;> rfl
    have fewer := fromHubs_taken connected queue
    obtain ⟨demand, chores, _, _, hub, fromHubs⟩ := serviceStep_ranks stepped present running below connected numbered
      (by simp [reads])
    refine settles_of_less demand (congrArg Hub.rank hub) ?_
    have same : (bus.taken process.hub_connection rest).weight steps = bus.weight steps := rfl
    simp only [Bus.rank, fromHubs]
    omega
  | ignored pid process service next rest present running queue means =>
    obtain ⟨_, owner, _⟩ := wired.process pid process present
    have fewer := fromHubs_taken (wired.fresh _ _ owner) queue
    refine settles_of_less le_rfl rfl ?_
    have same : (bus.taken process.hub_connection rest).weight steps = bus.weight steps := rfl
    simp only [Bus.rank]
    omega
  | rejoined pid process service conn message_id rest _ _ present running joining queue stepped =>
    obtain ⟨below, _, owner⟩ := wired.process pid process present
    have numbered := (carried.numbered pid process service present running).1
    obtain ⟨_, _, _, demand, _⟩ := serviceStep_ranks stepped present running below
      (wired.fresh _ _ (owner conn joining)) numbered rfl
    exact .left _ _ (demand rfl)
  | received conn message rest _ _ queue stepped =>
    have below : conn < bus.hub.clock := by
      by_contra above
      rw [accepted_conn wired (Nat.not_lt.mp above)] at queue
      cases queue
    obtain ⟨later, toHub, processes, clock⟩ := hubStep_later stepped
    have others : ∀ other, other ≠ conn →
        (Function.update bus.toHub conn rest other).length = (bus.toHub other).length := by
      intro other different
      rw [Function.update_of_ne different]
    have fewer := Table.sum_range_update below others
    rw [Function.update_self, queue, List.length_cons] at fewer
    have fresh : ∀ other, bus.hub.clock ≤ other → Function.update bus.toHub conn rest other = [] := by
      intro other above
      have different : other ≠ conn := by
        rintro rfl
        exact absurd below (Nat.not_lt.mpr above)
      rw [Function.update_of_ne different, accepted_conn wired above]
    have same := toHubs_later fresh later toHub
    simp only [Bus.rank, weighs requests processes clock, same]
    refine .left _ _ ?_
    show bus.weight requests + _ < bus.weight requests + _
    simp only [Bus.toHubs]
    omega
  | hub action _ _ own stepped =>
    obtain ⟨later, toHub, processes, clock⟩ := hubStep_later stepped
    have descends := internal_descends (run_consistent (hub_run run)) internal (hubStep_moves stepped)
    have same := toHubs_later (fun _ => accepted_conn wired) later toHub
    simp only [Bus.rank, same, weighs requests processes clock]
    exact .right _ (.left _ _ descends)
  | _ => cases internal

theorem receive_enabled {task : Task} {message : Message} {rest : List Message} (selecting : bus.hub.main = .selecting)
    (present : bus.hub.tasks.get conn = some task) (polls : task.phase.polls = true)
    (queue : bus.toHub conn = message :: rest) :
    ∃ after out, Bus.step env bus (.receive conn) = some (after, out) := by
  obtain ⟨progress, resumed⟩ : ∃ progress,
      KrossbarHub.resume env bus.hub conn task (.polled (some message)) = some (some progress) := by
    cases phase : task.phase with
    | authPoll | clientPoll _ =>
      simp only [KrossbarHub.resume, phase]
      split <;> exact ⟨_, rfl⟩
    | _ =>
      rw [phase] at polls
      cases polls
  exact ⟨_, _, by
    simp only [Bus.step, queue, Bus.hubStep, KrossbarHub.step, selecting, present, resumed]; rfl⟩

theorem deliver_enabled {next : Delivery} {rest : List Delivery} (present : bus.processes.get pid = some process)
    (running : process.service = some service) (selecting : service.activity.pollPhase = some .selecting)
    (queue : bus.fromHub process.hub_connection = next :: rest) :
    ∃ after out, Bus.step env bus (.deliver pid) = some (after, out) := by
  cases means : next.action with
  | none => exact ⟨_, _, by simp only [Bus.step, present, running, queue, means]; rfl⟩
  | some action =>
    have reads : ∃ after out, Service.step process.monitor service action = some (after, out) := by
      unfold Delivery.action at means
      split at means <;> cases means
      · simp only [Service.step, selecting]
        cases service.awaiter _ <;> exact ⟨_, _, rfl⟩
      · simp only [Service.step, selecting]
        cases service.awaiter _ <;> exact ⟨_, _, rfl⟩
      · exact ⟨_, _, by simp only [Service.step, selecting]; rfl⟩
    obtain ⟨after, out, taken⟩ := reads
    exact ⟨_, _, by simp only [Bus.step, present, running, queue, means, Bus.serviceStep, taken]; rfl⟩

/-- Short of its rest the bus has something to do, as long as the main loop of the hub goes on. -/
theorem bus_enabled (run : Transition.Run (Bus.step env) (Bus.new additional_service_dirs files) log bus) :
    (bus.AtRest ∨ bus.hub.Halted) ∨
      ∃ action after out, action.internal = true ∧ Bus.step env bus action = some (after, out) := by
  rcases @KrossbarHub.internal_enabled env _ (fun _ _ => True) (run_consistent (hub_run run)) with
    (rest | halted | stalled) | ⟨action, hub, events, own, taken⟩
  · by_cases stuck : ∃ action after out, action.internal = true ∧ Bus.step env bus action = some (after, out)
    · exact .inr stuck
    · refine .inl (.inl ⟨rest, ?_, ?_, ?_, ?_⟩)
      · intro conn task present
        cases queue : bus.toHub conn with
        | nil => rfl
        | cons message later =>
          obtain ⟨after, out, taken⟩ := receive_enabled rest.1 present (rest.2 conn task present) queue
          exact absurd ⟨_, after, out, rfl, taken⟩ stuck
      · intro pid process service present running
        rcases @Service.internal_enabled process.monitor service with
          (resting | halted) | ⟨action, _, _, internal, taken⟩
        · refine .inr ⟨resting, ?_⟩
          cases queue : bus.fromHub process.hub_connection with
          | nil => rfl
          | cons next later =>
            obtain ⟨after, out, taken⟩ := deliver_enabled present running resting.selecting queue
            exact absurd ⟨_, after, out, rfl, taken⟩ stuck
        · exact .inl halted
        · have own : ownServiceAction action = true := by cases action <;> first | rfl | cases internal
          exact absurd ⟨.service pid action, _, _, internal, by
            simp only [Bus.step, present, running, own, Bus.serviceStep, taken]; rfl⟩ stuck
      · intro pid process message_id later present waiting queue
        exact stuck ⟨.registered pid, _, _, rfl, by simp only [Bus.step, present, waiting, queue]; rfl⟩
      · intro pid process service conn message_id later present running registering joining queue
        exact stuck ⟨.rejoined pid, _, _, rfl, by
          simp only [Bus.step, present, running, joining, queue, Bus.serviceStep, Service.step, registering]; rfl⟩
  · exact .inl (.inr halted)
  · obtain ⟨_, _, _, _, refuses⟩ := stalled.stalls
    exact absurd trivial refuses
  · have internal := own.internal
    have own : ownHubAction action = true := by
      cases action with
      | task conn input => cases input <;> first | rfl | cases internal
      | _ => first | rfl | cases internal
    exact .inr ⟨.hub action, _, _, internal, by simp only [Bus.step, own, Bus.hubStep, taken]; rfl⟩

/-- Why a service still awaits a call when all has come to rest: the target is away and the call waits for it, the
    connection of the call has ended, or it has been replaced by another one. -/
inductive Pending (bus : Bus) (pid : Nat) (process : Process) (message_id : Int) (target : String) (wait : Bool) : Prop
  | waits (request : RpcRequest) (name : String) (owner : bus.owners.get request.writer = some (pid, name))
      (own : request.message_id = message_id) (patient : wait = true)
      (waiting : request ∈ (bus.hub.context.waiters target).map Prod.snd)
      (absent : bus.hub.context.client_registry.get target = none) : Pending bus pid process message_id target wait
  | unread (conn : Conn) (name : String) (owner : bus.owners.get conn = some (pid, name)) (message : Message)
      (own : message.message_id = message_id) (member : message ∈ bus.toHub conn)
      (ended : bus.hub.tasks.get conn = none) : Pending bus pid process message_id target wait
  | replaced (conn : Conn) (name : String) (owner : bus.owners.get conn = some (pid, name)) (response : Response)
      (queued : .response message_id response ∈ bus.fromHub conn) (former : conn ≠ process.hub_connection) :
      Pending bus pid process message_id target wait

theorem pending_at_rest (run : Transition.Run (Bus.step env) (Bus.new additional_service_dirs files) log bus)
    (rest : bus.AtRest) {requester : Requester} {target : String} {wait : Bool} {message_id : Int}
    (present : bus.processes.get pid = some process) (running : process.service = some service)
    (going : ¬ service.Halted) (awaits : service.handshake requester = some (target, wait, .awaiting message_id)) :
    Pending bus pid process message_id target wait := by
  obtain ⟨conn, name, owner, underway⟩ :=
    (run_carried run).underway pid process service requester target wait message_id present running awaits
  cases underway with
  | unread message member own body =>
    refine .unread conn name owner message own member ?_
    cases task : bus.hub.tasks.get conn with
    | none => rfl
    | some task' =>
      rw [rest.toHub conn task' task] at member
      cases member
  | unanswered client request received writer own body silent =>
    have past := hub_run run
    rcases answered_at_rest past rest.hub (mem_hubEvents.mpr received) (by simp [body]) with
      answered | ⟨target', wait', body', waiting, absent⟩
    · have counted : 0 < answers (log.filterMap hubEvent) request := by omega
      obtain ⟨event, there, answers⟩ := List.countP_pos_iff.mp counted
      cases event with
      | responded other response =>
        simp only [answersRequest, decide_eq_true_eq] at answers
        rw [answers] at there
        exact absurd (mem_hubEvents.mp there) (silent response)
      | _ => simp [answersRequest] at answers
    · rw [body] at body'
      cases body'
      obtain ⟨waiter, member, rfl⟩ := List.mem_map.mp waiting
      have patient := run_patient past target waiter member
      rw [body] at patient
      cases patient
      exact .waits waiter.2 name (by rw [writer]; exact owner) own rfl waiting absent
  | answered response _ queued =>
    refine .replaced conn name owner response queued ?_
    rintro rfl
    have taken := ((rest.services pid process service present running).resolve_left going).2
    rw [taken] at queued
    cases queued

/-- Left to itself the bus comes to rest, whatever the order in which messages arrive and the hub and the services
    go on, or the main loop of the hub ends or waits for ever. At rest no call of a service that goes on has got
    lost. -/
theorem bus_settles (run : Transition.Run (Bus.step env) (Bus.new additional_service_dirs files) log bus) :
    Inevitably (Bus.step env) (fun _ action => action.internal = true) (fun bus => bus.AtRest ∨ bus.hub.Halted) bus ∧
    (bus.AtRest → ∀ pid process service requester target wait message_id, bus.processes.get pid = some process →
      process.service = some service → ¬ service.Halted →
      service.handshake requester = some (target, wait, .awaiting message_id) →
      Pending bus pid process message_id target wait) := by
  refine ⟨?_, fun rest _ _ _ _ _ _ _ present running going awaits =>
    pending_at_rest run rest present running going awaits⟩
  refine .of_wellFounded settles_wellFounded
    (I := fun bus => ∃ log, Transition.Run (Bus.step env) (Bus.new additional_service_dirs files) log bus)
    Bus.rank ?_ ?_ ⟨log, run⟩
  · rintro bus action after out ⟨past, run⟩ internal taken
    exact ⟨⟨_, run.next trivial taken⟩, internal_settles run internal taken⟩
  · rintro bus ⟨past, run⟩
    exact bus_enabled run

/-- `com.a` waits for `com.b`, which is not there. -/
theorem bus_settles_waiting : ∃ log bus process service,
    Transition.Run (Bus.step openEnvironment) openBus log bus ∧ bus.AtRest ∧
    bus.processes.get 0 = some process ∧ process.service = some service ∧
    service.handshake .connect = some ("com.b", true, .awaiting 0) ∧ Pending bus 0 process 0 "com.b" true ∧
    Inevitably (Bus.step openEnvironment) (fun _ action => action.internal = true)
      (fun bus => bus.AtRest ∨ bus.hub.Halted) bus := by
  obtain ⟨log, bus, run, shown⟩ := Transition.exists_run_of_execute (Bus.step openEnvironment) openBus
    (starting 0 0 "com.a" ++ [.service 0 (.connect "com.b" true), .service 0 (.sent .connect true), .receive 0,
      .hub (.task 0 .locked)])
    (fun _ bus => bus.hub.main == .selecting && (bus.hub.clock == 8 && (bus.clock == 1 &&
      ((List.range 8).all (fun conn => (bus.hub.tasks.get conn).all fun task =>
        task.phase.polls && (bus.toHub conn).isEmpty) &&
      (bus.processes.get 0).any fun process => (bus.fromHub process.hub_connection).isEmpty &&
        process.service.any fun service =>
          service.activity == .connecting "com.b" true (.awaiting 0) .selecting &&
            (service.clock == 1 && service.client_poll_handles.get 0 == none)))))
    (by decide +kernel)
  simp only [Bool.and_eq_true, beq_iff_eq, List.all_eq_true, List.mem_range, Option.any_eq_true] at shown
  obtain ⟨main, clock, number, tasks, process, present, empty, service, running, activity, below, alone⟩ := shown
  have consistent := run_consistent (hub_run run)
  have read : ∀ conn task, bus.hub.tasks.get conn = some task → task.phase.polls = true ∧ bus.toHub conn = [] := by
    intro conn task there
    have polled := tasks conn (clock ▸ consistent.fresh conn task there)
    simpa [there] using polled
  have selecting : service.activity.pollPhase = some .selecting := by rw [activity]; rfl
  have settled : service.AtRest := by
    refine ⟨selecting, fun requester name wait handshake going => .inl ?_⟩
    cases requester with
    | connect =>
      rw [Service.handshake, activity] at going
      cases going
      exact ⟨0, rfl⟩
    | handle handle =>
      simp only [Service.handshake, Option.bind_eq_some_iff] at going
      obtain ⟨poll_handle, there, _⟩ := going
      have older := ((run_carried run).numbered 0 process service present running).1.older there
      obtain rfl : handle = 0 := by omega
      rw [alone] at there
      cases there
  have only : ∀ pid found, bus.processes.get pid = some found → found = process := by
    intro pid found there
    have first := ((run_wired run).process pid found there).1
    obtain rfl : pid = 0 := by omega
    rw [present] at there
    exact (Option.some.inj there).symm
  have rest : bus.AtRest := by
    refine ⟨⟨main, fun conn task there => (read conn task there).1⟩, fun conn task there => (read conn task there).2,
      ?_, ?_, ?_⟩
    · intro pid found other there running'
      obtain rfl := only pid found there
      rw [running] at running'
      cases running'
      exact .inr ⟨settled, List.isEmpty_iff.mp empty⟩
    · intro pid found message_id later there waiting
      obtain rfl := only pid found there
      rw [running] at waiting
      cases waiting
    · intro pid found other conn message_id later there running' registering
      obtain rfl := only pid found there
      rw [running] at running'
      cases running'
      rw [selecting] at registering
      cases registering
  have awaits : service.handshake .connect = some ("com.b", true, .awaiting 0) := by
    rw [Service.handshake, activity]
    rfl
  have going : ¬ service.Halted := by simp [Service.Halted, activity, Activity.pollPhase]
  obtain ⟨settles, resting⟩ := bus_settles run
  exact ⟨log, bus, process, service, run, rest, present, running, awaits,
    resting rest 0 process service .connect "com.b" true 0 present running going awaits, settles⟩

end KrossbarBus
