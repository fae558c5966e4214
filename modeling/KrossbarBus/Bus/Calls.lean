import KrossbarBus.Bus.Wiring

namespace KrossbarBus

open KrossbarHub KrossbarLib

variable {bus after : Bus} {action : BusAction} {out log log' : List BusEvent}
  {owners owners' : Table Conn (Nat × String)} {pid : Nat} {target : String} {pair : Nat}
  {additional_service_dirs : List OsString} {files : FileSystem}

def Earned (log : List BusEvent) (owners : Table Conn (Nat × String)) (pid : Nat) (target : String)
    (pair : Nat) : Prop :=
  ∃ writer initiator request other, .hub (.connectionRequest writer initiator target pair request) ∈ log ∧
    owners.get request.writer = some (pid, initiator) ∧ owners.get writer = some (other, target)

theorem Earned.grow (earned : Earned log owners pid target pair) (logs : ∀ event ∈ log, event ∈ log')
    (owned : ∀ conn owner, owners.get conn = some owner → owners'.get conn = some owner) :
    Earned log' owners' pid target pair := by
  obtain ⟨writer, initiator, request, other, offered, caller, callee⟩ := earned
  exact ⟨writer, initiator, request, other, logs _ offered, owned _ _ caller, owned _ _ callee⟩

structure Asked (log : List BusEvent) (bus : Bus) : Prop where
  active : ∀ pid event, .service pid event ∈ log → pid < bus.clock
  counted : ∀ pid process (message_id : Int) target wait, bus.processes.get pid = some process →
    .service pid (.requested message_id target wait) ∈ log →
    ∃ service, process.service = some service ∧ message_id < service.clock
  single : ∀ pid (message_id : Int) first second wait wait', .service pid (.requested message_id first wait) ∈ log →
    .service pid (.requested message_id second wait') ∈ log → first = second
  awaits : ∀ pid process service requester target wait (message_id : Int), bus.processes.get pid = some process →
    process.service = some service → service.handshake requester = some (target, wait, .awaiting message_id) →
    .service pid (.requested message_id target wait) ∈ log
  replied : ∀ pid process service requester target wait pair, bus.processes.get pid = some process →
    process.service = some service →
    service.handshake requester = some (target, wait, .replied (.stream pair)) →
    Earned log bus.owners pid target pair
  adopted : ∀ pid target pair, .service pid (.adopted target pair) ∈ log → Earned log bus.owners pid target pair

theorem Asked.initial (additional_service_dirs : List OsString) (files : FileSystem) :
    Asked [] (Bus.new additional_service_dirs files) where
  active := by simp
  counted := by simp
  single := by simp
  awaits := by simp [Bus.new]
  replied := by simp [Bus.new]
  adopted := by simp

theorem Asked.background (asked : Asked log bus) (quiet : ∀ pid event, .service pid event ∉ out)
    (clock : bus.clock ≤ after.clock)
    (owned : ∀ conn owner, bus.owners.get conn = some owner → after.owners.get conn = some owner)
    (processes : ∀ pid process, after.processes.get pid = some process →
      (∃ before, bus.processes.get pid = some before ∧ before.service = process.service) ∨
      (∀ message_id target wait, .service pid (.requested message_id target wait) ∉ log) ∧
        ∀ service requester, process.service = some service → service.handshake requester = none) :
    Asked (log ++ out) after := by
  have logs : ∀ event ∈ log, event ∈ log ++ out := fun event member => List.mem_append_left out member
  have old : ∀ {pid event}, .service pid event ∈ log ++ out → .service pid event ∈ log := by
    intro pid event member
    exact (List.mem_append.mp member).resolve_right (quiet pid event)
  refine ⟨?_, ?_, ?_, ?_, ?_, ?_⟩
  · intro pid event member
    exact Nat.lt_of_lt_of_le (asked.active pid event (old member)) clock
  · intro pid process message_id target wait there member
    rcases processes pid process there with ⟨before, present, same⟩ | ⟨nothing, _⟩
    · rw [← same]
      exact asked.counted pid before message_id target wait present (old member)
    · exact absurd (old member) (nothing message_id target wait)
  · intro pid message_id first second wait wait' member again
    exact asked.single pid message_id first second wait wait' (old member) (old again)
  · intro pid process service requester target wait message_id there running going
    rcases processes pid process there with ⟨before, present, same⟩ | ⟨_, idle⟩
    · exact logs _ (asked.awaits pid before service requester target wait message_id present
        (same.trans running) going)
    · rw [idle service requester running] at going
      cases going
  · intro pid process service requester target wait pair there running going
    rcases processes pid process there with ⟨before, present, same⟩ | ⟨_, idle⟩
    · exact (asked.replied pid before service requester target wait pair present (same.trans running) going).grow
        logs owned
    · rw [idle service requester running] at going
      cases going
  · intro pid target pair member
    exact (asked.adopted pid target pair (old member)).grow logs owned

theorem Asked.serviceStep (asked : Asked log bus) {process before : Process} {service : Service}
    {action : ServiceAction} (stepped : bus.serviceStep pid process service action = some (after, out))
    (number : pid < bus.clock) (present : bus.processes.get pid = some before)
    (running : before.service = some service)
    (earned : ∀ message_id pair requester target wait, action = .resolved message_id (.stream pair) →
      service.handshake requester = some (target, wait, .awaiting message_id) →
      Earned log bus.owners pid target pair) : Asked (log ++ out) after := by
  obtain ⟨next, events, taken, rfl, rfl⟩ := serviceStep_cases stepped
  have steps := Service.step_cases taken
  have later := steps.emits.1
  have logs : ∀ event ∈ log, event ∈ log ++ events.map (BusEvent.service pid) :=
    fun event member => List.mem_append_left _ member
  -- a logged event is an old one or one of this step
  have origin : ∀ {other event}, .service other event ∈ log ++ events.map (BusEvent.service pid) →
      .service other event ∈ log ∨ other = pid ∧ event ∈ events := by
    intro other event member
    rcases List.mem_append.mp member with old | new
    · exact .inl old
    · exact .inr (mem_serviceEvents.mp new)
  have counted : ∀ {message_id : Int} {target wait}, .service pid (.requested message_id target wait) ∈ log →
      message_id < service.clock := by
    intro message_id target wait member
    obtain ⟨service', same, bound⟩ := asked.counted pid before message_id target wait present member
    rw [running] at same
    cases same
    exact bound
  refine ⟨?_, ?_, ?_, ?_, ?_, ?_⟩
  · intro other event member
    rcases origin member with old | ⟨rfl, _⟩
    · exact asked.active other event old
    · exact number
  · intro other process' message_id target wait there member
    rcases setProcess_cases there with ⟨rfl, rfl⟩ | ⟨different, there'⟩
    · refine ⟨next, rfl, ?_⟩
      rcases origin member with old | ⟨_, new⟩
      · have bound := counted old
        omega
      · obtain ⟨is, clock, _⟩ := steps.requests new
        omega
    · rcases origin member with old | ⟨same, _⟩
      · exact asked.counted other process' message_id target wait there' old
      · exact absurd same different
  · intro other message_id first second wait wait' member again
    rcases origin member with old | ⟨rfl, new⟩
    · rcases origin again with old' | ⟨rfl, new'⟩
      · exact asked.single other message_id first second wait wait' old old'
      · have bound := counted old
        have is := (steps.requests new').1
        omega
    · rcases origin again with old' | ⟨_, new'⟩
      · have bound := counted old'
        have is := (steps.requests new).1
        omega
      · have all := (steps.requests new).2.2
        have again := (steps.requests new').2.2
        rw [again] at all
        cases all
        rfl
  · intro other process' service' requester target wait message_id there running' going
    rcases setProcess_cases there with ⟨rfl, rfl⟩ | ⟨_, there'⟩
    · cases running'
      cases steps.progress going with
      | kept _ was =>
        have earlier := asked.awaits other before service requester target wait message_id present running was
        exact logs _ earlier
      | sent all =>
        rw [all]
        exact List.mem_append_right _ (List.mem_map_of_mem List.mem_cons_self)
    · exact logs _ (asked.awaits other process' service' requester target wait message_id there' running' going)
  · intro other process' service' requester target wait pair there running' going
    rcases setProcess_cases there with ⟨rfl, rfl⟩ | ⟨_, there'⟩
    · cases running'
      cases steps.progress going with
      | kept _ was =>
        exact (asked.replied other before service requester target wait pair present running was).grow logs
          fun _ _ same => same
      | resolved message_id _ was waiting =>
        exact (earned message_id pair requester target wait was waiting).grow logs fun _ _ same => same
    · exact (asked.replied other process' service' requester target wait pair there' running' going).grow logs
        fun _ _ same => same
  · intro other target pair member
    rcases origin member with old | ⟨rfl, new⟩
    · exact (asked.adopted other target pair old).grow logs fun _ _ same => same
    · obtain ⟨requester, wait, was⟩ := steps.adopts new
      have earlier := asked.replied other before service requester target wait pair present running was
      exact earlier.grow logs fun _ _ same => same

end KrossbarBus
