import KrossbarBus.Lib.ServiceSteps

namespace KrossbarLib

open KrossbarHub (Error monitorServiceName)

variable {monitor : Bool} {service after : Service} {action : ServiceAction} {out : List ServiceEvent}
  {service_name : String} {wait : Bool} {handshake : Handshake} {requester : Requester}

@[simp] theorem handshake_withPhase (activity : Activity) (phase : PollPhase) :
    (activity.withPhase phase).handshake = activity.handshake := by
  cases activity <;> rfl

@[simp] theorem handshake_pollReturns (activity : Activity) : activity.pollReturns.handshake = none := by
  cases activity <;> rfl

theorem handshake_setHandle (number : Nat) (poll_handle : ClientHandle) (requester : Requester) :
    (service.setHandle number poll_handle).handshake requester =
      if requester = .handle number then poll_handle.handshake else service.handshake requester := by
  cases requester with
  | connect => rfl
  | handle other =>
    simp only [Service.handshake, Service.setHandle, Table.get_insert, Requester.handle.injEq]
    split <;> rfl

theorem handshake_setHandshake (there : service.handshake requester = some (service_name, wait, handshake))
    (next : Handshake) (other : Requester) :
    (service.setHandshake next requester).handshake other =
      if other = requester then some (service_name, wait, next) else service.handshake other := by
  cases requester with
  | connect =>
    obtain ⟨phase, connecting⟩ := handshake_connecting there
    simp only [Service.setHandshake, connecting]
    cases other with
    | connect => rfl
    | handle number => rfl
  | handle number =>
    simp only [Service.handshake, Option.bind_eq_some_iff] at there
    obtain ⟨poll_handle, present, going⟩ := there
    simp only [Service.setHandshake, present]
    rw [handshake_setHandle]
    split
    · simp only [ClientHandle.handshake] at going
      split at going
      · cases going
      · cases going
        rfl
    · rfl

def Service.Within (after service : Service) : Prop :=
  ∀ requester entry, after.handshake requester = some entry → service.handshake requester = some entry

theorem within_of_parts
    (activity : ∀ entry, after.activity.handshake = some entry → service.activity.handshake = some entry)
    (handles : ∀ number poll_handle, after.client_poll_handles.get number = some poll_handle →
      poll_handle.handshake = none ∨ service.client_poll_handles.get number = some poll_handle) :
    after.Within service := by
  intro requester entry there
  cases requester with
  | connect => exact activity entry there
  | handle number =>
    simp only [Service.handshake, Option.bind_eq_some_iff] at there ⊢
    obtain ⟨poll_handle, present, going⟩ := there
    rcases handles number poll_handle present with quiet | before
    · rw [quiet] at going
      cases going
    · exact ⟨poll_handle, before, going⟩

theorem within_pollReturns (service : Service) : service.pollReturns.Within service := by
  apply within_of_parts
  · intro entry there
    simp [Service.pollReturns] at there
  · intro number poll_handle present
    exact .inr present

theorem within_inPhase (service : Service) (phase : PollPhase) : (service.inPhase phase).Within service := by
  apply within_of_parts
  · intro entry there
    simpa [Service.inPhase] using there
  · intro number poll_handle present
    exact .inr present

theorem Service.Within.trans {middle : Service} (first : after.Within middle) (second : middle.Within service) :
    after.Within service :=
  fun requester entry there => second requester entry (first requester entry there)

theorem within_setHandle (number : Nat) {poll_handle : ClientHandle}
    (same : poll_handle.handshake = none ∨ poll_handle.handshake = service.handshake (.handle number)) :
    (service.setHandle number poll_handle).Within service := by
  intro requester entry there
  rw [handshake_setHandle] at there
  split at there
  · rename_i this
    rcases same with quiet | same
    · rw [quiet] at there
      cases there
    · rw [this, ← same]
      exact there
  · exact there

theorem within_remove (service : Service) (number : Nat) :
    Service.Within { service with client_poll_handles := service.client_poll_handles.remove number } service :=
  within_of_parts (fun _ there => there) fun _ _ present => .inr (Table.get_of_remove present)

theorem within_disconnect (service : Service) (number : Nat) (service_name : String) :
    (service.disconnect number service_name).1.Within service :=
  (within_pollReturns _).trans
    (within_of_parts (fun _ there => there) fun _ _ present => .inr (Table.get_of_remove present))

theorem within_addClient (service : Service) (service_name : String) (stream : Nat)
    (outgoing wait_connect : Bool) :
    (service.addClient service_name stream outgoing wait_connect).Within service := by
  apply within_of_parts
  · exact fun _ there => there
  · exact Table.forall_insert (.inl rfl) fun _ _ present => .inr present

theorem within_handleNewConnection (monitor : Bool) (service : Service) (request : HubRequest) :
    (service.handleNewConnection monitor request).1.Within service := by
  cases request with
  | other => exact within_pollReturns service
  | fd client_name stream =>
    simp only [Service.handleNewConnection]
    split
    · exact within_inPhase service .settingMonitor
    · split
      · exact within_pollReturns service
      · exact (within_pollReturns _).trans (within_addClient service client_name stream false false)

theorem within_finish {reply : Reply}
    (finished : service.finish requester service_name wait reply = some (after, out)) : after.Within service := by
  cases Service.finish_cases finished with
  | opened pair =>
    apply within_of_parts
    · intro entry there
      cases there
    · exact Table.forall_insert (.inl rfl) fun _ _ present => .inr present
  | refused e => exact within_of_parts (fun _ there => by cases there) fun _ _ present => .inr present
  | reopened number pair poll_handle present => exact within_setHandle number (.inl rfl)
  | abandoned number e => exact within_disconnect service number service_name

/-- How a handshake has come to where it is after a step. -/
inductive Service.Progress (service : Service) (action : ServiceAction) (out : List ServiceEvent)
    (requester : Requester) (service_name : String) (wait : Bool) : Handshake → Prop
  | kept (handshake : Handshake) (before : service.handshake requester = some (service_name, wait, handshake)) :
      Progress service action out requester service_name wait handshake
  | sending : Progress service action out requester service_name wait .sending
  | unsent : Progress service action out requester service_name wait .waitingHub
  | sent (all : out = [.requested service.clock service_name wait]) :
      Progress service action out requester service_name wait (.awaiting service.clock)
  | failed (e : Error) : Progress service action out requester service_name wait (.replied (.error e))
  | resolved (message_id : Int) (reply : Reply) (was : action = .resolved message_id reply)
      (before : service.handshake requester = some (service_name, wait, .awaiting message_id)) :
      Progress service action out requester service_name wait (.replied reply)

theorem progress_setHandshake {current : Requester} {name : String} {flag : Bool} {was : Handshake}
    (there : service.handshake current = some (name, flag, was)) (next : Handshake)
    (same : ∀ requester, after.handshake requester = (service.setHandshake next current).handshake requester)
    (going : after.handshake requester = some (service_name, wait, handshake))
    (moved : requester = current → name = service_name → flag = wait →
      service.Progress action out requester service_name wait next) :
    service.Progress action out requester service_name wait handshake := by
  rw [same, handshake_setHandshake there] at going
  split at going
  · rename_i this
    cases going
    exact moved this rfl rfl
  · exact .kept handshake going

theorem Service.Steps.progress (steps : service.Steps monitor action after out)
    (going : after.handshake requester = some (service_name, wait, handshake)) :
    service.Progress action out requester service_name wait handshake := by
  have stays : after.Within service → service.Progress action out requester service_name wait handshake :=
    fun within => .kept handshake (within requester _ going)
  cases steps with
  | known name flag number poll_handle idle entry present =>
    apply stays
    apply within_setHandle
    right
    simp only [Service.handshake, present, Option.bind_some, ClientHandle.handshake]
  | stale _ _ _ _ _ => exact stays fun _ _ there => there
  | opened name flag idle absent =>
    cases requester with
    | connect =>
      cases going
      exact .sending
    | handle number => exact .kept handshake going
  | polled idle =>
    exact stays (within_of_parts (fun _ there => by cases there) fun _ _ present => .inr present)
  | cancelled _ _ =>
    exact stays (within_of_parts (fun _ there => by cases there) fun _ _ present => .inr present)
  | sent current name flag runs there =>
    refine progress_setHandshake there (.awaiting service.clock) ?_ going ?_
    · intro requester
      cases requester <;> rfl
    · rintro rfl rfl rfl
      exact .sent rfl
  | unsent current name flag runs there =>
    exact progress_setHandshake there .waitingHub (fun _ => rfl) going fun _ _ _ => .unsent
  | resolved current name flag message_id reply selecting there =>
    apply progress_setHandshake there (.replied reply) (fun _ => rfl) going
    rintro rfl rfl rfl
    exact .resolved message_id reply rfl there
  | unclaimed _ _ _ => exact stays fun _ _ there => there
  | callLost current e name flag message_id there =>
    exact progress_setHandshake there (.replied (.error e)) (fun _ => rfl) going fun _ _ _ => .failed e
  | resumed current name flag reply _ _ runs there finished => exact stays (within_finish finished)
  | hubBack current name flag rest runs there signal =>
    refine progress_setHandshake there .sending ?_ going fun _ _ _ => .sending
    intro requester
    cases requester <;> rfl
  | hubGone current name flag e rest _ _ runs there signal finished =>
    exact stays ((within_finish finished).trans fun _ _ same => same)
  | message number poll_handle selecting present polling =>
    exact stays ((within_inPhase _ _).trans (within_remove service number))
  | handled number poll_handle handling =>
    exact stays ((within_pollReturns _).trans (within_setHandle number (.inl rfl)))
  | reconnects number poll_handle selecting present polling outgoing =>
    rw [handshake_setHandle] at going
    split at going
    · cases going
      exact .sending
    · exact .kept handshake going
  | drops number poll_handle selecting present polling incoming =>
    exact stays (within_disconnect service number poll_handle.service_name)
  | hubRequest request selecting => exact stays (within_handleNewConnection monitor service request)
  | monitorSet _ => exact stays (within_pollReturns service)
  | hubLost _ => exact stays (within_inPhase service .registering)
  | registered _ => exact stays (within_inPhase service .reconnecting)
  | rejected e _ => exact stays ((within_pollReturns _).trans fun _ _ same => same)
  | reconnected _ => exact stays ((within_pollReturns _).trans fun _ _ same => same)
  | interrupted _ => exact stays (within_pollReturns service)

@[simp] theorem setHandshake_clock (next : Handshake) (requester : Requester) :
    (service.setHandshake next requester).clock = service.clock := by
  rw [setHandshake_frame]

theorem finish_events {reply : Reply}
    (finished : service.finish requester service_name wait reply = some (after, out)) :
    service.clock ≤ after.clock ∧ ∀ event ∈ out,
      (∃ pair, reply = .stream pair ∧ event = .adopted service_name pair) ∨ (∃ client, event = .returned client) ∨
      (∃ e, event = .refused e) ∨ event = .disconnected service_name := by
  cases Service.finish_cases finished with
  | opened pair => exact ⟨Nat.le_succ _, by simp⟩
  | refused e => exact ⟨Nat.le_refl _, by simp⟩
  | reopened number pair poll_handle present => exact ⟨Nat.le_refl _, by simp⟩
  | abandoned number e => exact ⟨Nat.le_refl _, by simp⟩

theorem handleNewConnection_events (monitor : Bool) (service : Service) (client_name : String) (stream : Nat) :
    (service.handleNewConnection monitor (.fd client_name stream)).2 = [.accepted client_name stream] ∨
    (service.handleNewConnection monitor (.fd client_name stream)).2 = [.monitored client_name stream] ∨
    (service.handleNewConnection monitor (.fd client_name stream)).2 = [.discarded client_name stream] := by
  simp only [Service.handleNewConnection]
  split
  · exact .inr (.inl rfl)
  · split
    · exact .inr (.inr rfl)
    · exact .inl rfl

theorem handleNewConnection_clock (monitor : Bool) (service : Service) (request : HubRequest) :
    service.clock ≤ (service.handleNewConnection monitor request).1.clock := by
  cases request with
  | other => exact Nat.le_refl _
  | fd client_name stream =>
    simp only [Service.handleNewConnection]
    split
    · exact Nat.le_refl _
    · split
      · exact Nat.le_refl _
      · exact Nat.le_succ _

inductive Service.Emits (monitor : Bool) (service : Service) (action : ServiceAction) (after : Service)
    (out : List ServiceEvent) : ServiceEvent → Prop
  | requested (service_name : String) (wait : Bool) (clock : after.clock = service.clock + 1)
      (all : out = [.requested service.clock service_name wait]) :
      Emits monitor service action after out (.requested service.clock service_name wait)
  | adopted (requester : Requester) (service_name : String) (wait : Bool) (pair : Nat)
      (handshake : service.handshake requester = some (service_name, wait, .replied (.stream pair))) :
      Emits monitor service action after out (.adopted service_name pair)
  | returned (client : Nat) : Emits monitor service action after out (.returned client)
  | refused (e : Error) : Emits monitor service action after out (.refused e)
  | offered (request : HubRequest) (event : ServiceEvent) (was : action = .hubRequest request)
      (member : event ∈ (service.handleNewConnection monitor request).2) :
      Emits monitor service action after out event
  | disconnected (service_name : String) : Emits monitor service action after out (.disconnected service_name)

theorem Service.Steps.emits (steps : service.Steps monitor action after out) :
    service.clock ≤ after.clock ∧ ∀ event ∈ out, service.Emits monitor action after out event := by
  have finished : ∀ {before final : Service} {events requester service_name wait reply},
      before.finish requester service_name wait reply = some (final, events) →
      (∀ pair, reply = .stream pair → service.handshake requester = some (service_name, wait, .replied reply)) →
      before.clock = service.clock →
      service.clock ≤ final.clock ∧ ∀ event ∈ events, service.Emits monitor action final events event := by
    intro before final events requester service_name wait reply finished there same
    obtain ⟨clock, shapes⟩ := finish_events finished
    refine ⟨by omega, ?_⟩
    intro event member
    rcases shapes event member with ⟨pair, stream, rfl⟩ | ⟨client, rfl⟩ | ⟨e, rfl⟩ | rfl
    · have handshake := there pair stream
      rw [stream] at handshake
      exact .adopted requester service_name wait pair handshake
    · exact .returned client
    · exact .refused e
    · exact .disconnected service_name
  cases steps with
  | known _ _ number _ _ _ _ =>
    refine ⟨Nat.le_refl _, ?_⟩
    intro event member
    cases List.mem_singleton.mp member
    exact .returned number
  | stale _ _ number _ _ =>
    refine ⟨Nat.le_refl _, ?_⟩
    intro event member
    cases List.mem_singleton.mp member
    exact .returned number
  | sent requester service_name wait _ _ =>
    refine ⟨Nat.le_succ _, ?_⟩
    intro event member
    cases List.mem_singleton.mp member
    exact .requested service_name wait rfl rfl
  | unsent _ _ _ _ _ => exact ⟨by simp, by simp⟩
  | resolved _ _ _ _ _ _ _ => exact ⟨by simp, by simp⟩
  | callLost _ _ _ _ _ _ => exact ⟨by simp, by simp⟩
  | hubBack _ _ _ _ _ _ _ => exact ⟨by simp, by simp⟩
  | resumed requester _ _ _ _ _ _ there fin => exact finished fin (fun _ _ => there) rfl
  | hubGone requester _ _ e _ _ _ _ there _ fin => exact finished fin (fun _ impossible => by cases impossible) rfl
  | drops number poll_handle _ _ _ _ =>
    refine ⟨Nat.le_refl _, ?_⟩
    intro event member
    cases List.mem_singleton.mp member
    exact .disconnected poll_handle.service_name
  | hubRequest request _ =>
    exact ⟨handleNewConnection_clock monitor service request, fun event member => .offered request event rfl member⟩
  | _ => exact ⟨Nat.le_refl _, by simp⟩

theorem offered_events {request : HubRequest} {event : ServiceEvent}
    (member : event ∈ (service.handleNewConnection monitor request).2) :
    ∃ client_name stream, request = .fd client_name stream ∧ (event = .accepted client_name stream ∨
      event = .monitored client_name stream ∨ event = .discarded client_name stream) := by
  cases request with
  | other => cases member
  | fd client_name stream =>
    refine ⟨client_name, stream, rfl, ?_⟩
    rcases handleNewConnection_events monitor service client_name stream with shape | shape | shape
    · rw [shape] at member
      exact .inl (List.mem_singleton.mp member)
    · rw [shape] at member
      exact .inr (.inl (List.mem_singleton.mp member))
    · rw [shape] at member
      exact .inr (.inr (List.mem_singleton.mp member))

theorem Service.Steps.requests (steps : service.Steps monitor action after out) {message_id : Int}
    (member : .requested message_id service_name wait ∈ out) :
    message_id = service.clock ∧ after.clock = service.clock + 1 ∧
      out = [.requested service.clock service_name wait] := by
  cases steps.emits.2 _ member with
  | requested _ _ clock all => exact ⟨rfl, clock, all⟩
  | offered request _ was offer =>
    obtain ⟨_, _, _, impossible⟩ := offered_events offer
    simp at impossible

theorem Service.Steps.adopts (steps : service.Steps monitor action after out) {pair : Nat}
    (member : .adopted service_name pair ∈ out) :
    ∃ requester wait, service.handshake requester = some (service_name, wait, .replied (.stream pair)) := by
  cases steps.emits.2 _ member with
  | adopted requester _ wait _ was => exact ⟨requester, wait, was⟩
  | offered request _ was offer =>
    obtain ⟨_, _, _, impossible⟩ := offered_events offer
    simp at impossible

/-- A stream is discarded only if its initiator has an entry in the map. -/
theorem Service.Steps.discards (steps : service.Steps monitor action after out) {initiator : String} {pair : Nat}
    (member : .discarded initiator pair ∈ out) : action = .hubRequest (.fd initiator pair) ∧
      (!(monitor && initiator == monitorServiceName) && service.client_map.containsKey initiator) = true := by
  cases steps.emits.2 _ member with
  | offered request _ was offer =>
    obtain ⟨client_name, stream, rfl, which⟩ := offered_events offer
    simp only [reduceCtorEq, ServiceEvent.discarded.injEq, false_or] at which
    obtain ⟨rfl, rfl⟩ := which
    refine ⟨was, ?_⟩
    simp only [Service.handleNewConnection] at offer
    split at offer
    · simp at offer
    · rename_i ordinary
      split at offer
      · rename_i known
        simp [ordinary, known]
      · simp at offer

end KrossbarLib
