import KrossbarBus.Hub.Answers
import KrossbarBus.Hub.Authorization

namespace KrossbarHub

open Transition

variable {env : HubEnvironment} {hub after : Hub} {conn : Conn} {credentials : UCred}
  {input : Input} {progress : Progress} {task : Task} {action : Action} {out log : List Event}
  {additional_service_dirs : List OsString} {files : FileSystem}

structure Traced (log : List Event) (hub : Hub) : Prop where
  registering : ∀ conn task service_name request, hub.tasks.get conn = some task →
    task.phase = .registerLock service_name request → request.body = .call (.ok (.register service_name))
  named : ∀ conn credentials service_name allowed, .nameChecked conn credentials service_name allowed ∈ log →
    ∃ request, .received none request ∈ log ∧ request.writer = conn ∧
      request.body = .call (.ok (.register service_name))
  checked : ∀ request initiator target allowed, .connectionChecked request initiator target allowed ∈ log →
    .received (some initiator) request ∈ log ∧ ∃ wait, request.body = .call (.ok (.connect target wait))

theorem Traced.initial (additional_service_dirs : List OsString) (files : FileSystem) :
    Traced [] (Hub.new additional_service_dirs files) where
  registering := by simp [Hub.new]
  named := by simp
  checked := by simp

theorem Traced.resume (traced : Traced log hub) (accounted : Accounted log hub) (consistent : hub.Consistent)
    (present : hub.tasks.get conn = some task)
    (resumes : Resumes env hub conn task.credentials task.phase input progress) :
    Traced (log ++ progress.events) (hub.advance conn task progress) := by
  refine ⟨?_, ?_, ?_⟩
  · intro other next service_name request there registers
    rw [advance_get] at there
    split at there
    · cases there
      have decoded := resumes.decoded
      rw [show progress.phase = _ from registers] at decoded
      exact decoded
    · exact traced.registering other next service_name request there registers
  · intro other credentials service_name allowed member
    rcases List.mem_append.mp member with old | new
    · obtain ⟨request, received, rest⟩ := traced.named other credentials service_name allowed old
      exact ⟨request, List.mem_append_left _ received, rest⟩
    · cases resumes.emits _ new with
      | nameChecked _ request _ was _ =>
        have processes : task.phase.processing = some request := by rw [was]; rfl
        have busy : hub.busy none request := ⟨conn, task, present, processes, by rw [was]; rfl⟩
        exact ⟨request, List.mem_append_left _ (accounted.ledger.processing none request busy).1,
          consistent.own conn task request present processes,
          traced.registering conn task service_name request present was⟩
  · intro request initiator target allowed member
    rcases List.mem_append.mp member with old | new
    · obtain ⟨received, body⟩ := traced.checked request initiator target allowed old
      exact ⟨List.mem_append_left _ received, body⟩
    · cases resumes.emits _ new with
      | connectionChecked _ _ _ wait _ was _ =>
        have busy : hub.busy (some initiator) request := ⟨conn, task, present, by rw [was]; rfl, by rw [was]; rfl⟩
        exact ⟨List.mem_append_left _ (accounted.ledger.processing _ request busy).1, wait,
          accounted.bodies conn task initiator target request wait present was⟩

theorem Traced.background (traced : Traced log hub)
    (tasks : ∀ conn task, after.tasks.get conn = some task →
      hub.tasks.get conn = some task ∨ task.phase = .authPoll)
    (unnamed : ∀ conn credentials service_name allowed, .nameChecked conn credentials service_name allowed ∉ out)
    (unchecked : ∀ request initiator target allowed, .connectionChecked request initiator target allowed ∉ out) :
    Traced (log ++ out) after := by
  refine ⟨?_, ?_, ?_⟩
  · intro conn task service_name request there registers
    rcases tasks conn task there with before | fresh
    · exact traced.registering conn task service_name request before registers
    · rw [fresh] at registers
      cases registers
  · intro conn credentials service_name allowed member
    have old := (List.mem_append.mp member).resolve_right (unnamed conn credentials service_name allowed)
    obtain ⟨request, received, rest⟩ := traced.named conn credentials service_name allowed old
    exact ⟨request, List.mem_append_left out received, rest⟩
  · intro request initiator target allowed member
    have old := (List.mem_append.mp member).resolve_right (unchecked request initiator target allowed)
    obtain ⟨received, body⟩ := traced.checked request initiator target allowed old
    exact ⟨List.mem_append_left out received, body⟩

theorem Traced.preserved (traced : Traced log hub) (accounted : Accounted log hub) (consistent : hub.Consistent)
    (taken : step env hub action = some (after, out)) : Traced (log ++ out) after := by
  cases step_cases taken with
  | resumed conn task input progress selecting present resumes =>
    exact traced.resume accounted consistent present resumes
  | accepted credentials selecting =>
    refine traced.background ?_ (by simp) (by simp)
    exact Table.forall_insert (.inr rfl) fun _ _ there => .inl there
  | disconnected conn credentials service_name selecting present =>
    exact traced.background (fun _ _ there => .inl (Table.get_of_remove there)) (by simp) (by simp)
  | anonymousDisconnected conn credentials selecting present =>
    exact traced.background (fun _ _ there => .inl (Table.get_of_remove there)) (by simp) (by simp)
  | _ => exact traced.background (fun _ _ there => .inl there) (by simp) (by simp)

theorem run_traced (run : Run env additional_service_dirs files log hub) : Traced log hub :=
  run.invariant (Traced.initial additional_service_dirs files) fun _ _ _ _ _ before traced _ taken =>
    traced.preserved (run_accounted before) (run_consistent before) taken

def RegisteredAs (log : List Event) (conn : Conn) (service_name : String) : Prop :=
  ∃ request, .received none request ∈ log ∧ request.writer = conn ∧
    request.body = .call (.ok (.register service_name))

/-- What stands behind a connection request: the call of the initiator and both registrations. -/
structure Offer (log : List Event) (writer : RpcWriter) (initiator target : String) (request : RpcRequest) : Prop where
  called : .received (some initiator) request ∈ log
  body : ∃ wait, request.body = .call (.ok (.connect target wait))
  initiator : RegisteredAs log request.writer initiator
  target : RegisteredAs log writer target

theorem connectionRequest_offer (run : Run env additional_service_dirs files log hub) {writer : RpcWriter}
    {initiator target : String} {pair : Nat} {request : RpcRequest}
    (offered : .connectionRequest writer initiator target pair request ∈ log) :
    Offer log writer initiator target request := by
  have traced := run_traced run
  obtain ⟨before, later, split⟩ := List.append_of_mem offered
  have sanctioned : Sanctioned before writer initiator target request :=
    (run_vetted run).history before _ later split
  have earlier : ∀ event ∈ before, event ∈ log := by
    intro event member
    rw [split]
    exact List.mem_append_left _ member
  obtain ⟨called, body⟩ := traced.checked request initiator target true (earlier _ sanctioned.checked)
  obtain ⟨_, _, initiatorChecked⟩ := sanctioned.admitted
  obtain ⟨_, _, targetChecked⟩ := sanctioned.targetAdmitted
  exact ⟨called, body, traced.named _ _ _ _ (earlier _ initiatorChecked),
    traced.named _ _ _ _ (earlier _ targetChecked)⟩

theorem handed_offered (run : Run env additional_service_dirs files log hub) {request : RpcRequest} {pair : Nat}
    (handed : .responded request (.fd pair) ∈ log) :
    ∃ writer initiator target, .connectionRequest writer initiator target pair request ∈ log := by
  obtain ⟨before, later, split⟩ := List.append_of_mem handed
  obtain ⟨writer, initiator, target, offered, _⟩ := (run_vetted run).history before _ later split
  refine ⟨writer, initiator, target, ?_⟩
  rw [split]
  exact List.mem_append_left _ offered

theorem step_received {client : Option String} {request : RpcRequest}
    (taken : step env hub action = some (after, out)) (member : .received client request ∈ out) :
    ∃ message, action = .task request.writer (.polled (some message)) ∧
      request = message.request hub.clock request.writer := by
  cases step_cases taken with
  | resumed conn task input progress selecting present resumes =>
    obtain ⟨message, _, polled, _, rfl, _⟩ := resumes.treats.received member
    exact ⟨message, by rw [polled]; rfl, rfl⟩
  | accepted credentials selecting => simp at member
  | removed conn service_name reaping free => simp at member
  | _ => simp at member

end KrossbarHub
