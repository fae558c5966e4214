import KrossbarBus.Lib.Clients
import KrossbarBus.Lib.Handshakes

namespace KrossbarLib

variable {monitor : Bool} {service after before : Service} {action : ServiceAction} {out : List ServiceEvent}
  {poll_handle : ClientHandle} {requester : Requester} {service_name : String} {wait : Bool}
  {reply : Reply}

/-- The handle is scheduled, or in use for a call. -/
def Service.Holds (service : Service) (poll_handle : ClientHandle) : Prop :=
  (∃ number, service.client_poll_handles.get number = some poll_handle) ∨
    ∃ number, service.activity.held = some (number, poll_handle)

/-- The handle had its stream before, or gets it now: by a handshake of its own or from the hub. -/
inductive Service.Obtains (service : Service) (out : List ServiceEvent) (poll_handle : ClientHandle) : Prop
  | kept (earlier : ClientHandle) (holds : service.Holds earlier)
      (name : earlier.service_name = poll_handle.service_name) (stream : earlier.rpc = poll_handle.rpc)
  | adopted (member : .adopted poll_handle.service_name poll_handle.rpc ∈ out)
  | accepted (member : .accepted poll_handle.service_name poll_handle.rpc ∈ out)

theorem obtains_same (holds : service.Holds poll_handle) : service.Obtains out poll_handle :=
  .kept poll_handle holds rfl rfl

theorem obtains_of_parts (holds : after.Holds poll_handle)
    (handles : ∀ number poll_handle, after.client_poll_handles.get number = some poll_handle →
      service.Obtains out poll_handle)
    (held : ∀ number poll_handle, after.activity.held = some (number, poll_handle) →
      service.Obtains out poll_handle) : service.Obtains out poll_handle := by
  rcases holds with ⟨number, there⟩ | ⟨number, uses⟩
  · exact handles number poll_handle there
  · exact held number poll_handle uses

theorem obtains_scheduled (number : Nat) (poll_handle : ClientHandle)
    (there : service.client_poll_handles.get number = some poll_handle) : service.Obtains out poll_handle :=
  obtains_same (.inl ⟨number, there⟩)

theorem obtains_held (number : Nat) (poll_handle : ClientHandle)
    (uses : service.activity.held = some (number, poll_handle)) : service.Obtains out poll_handle :=
  obtains_same (.inr ⟨number, uses⟩)

/-- The step schedules other handles, while none is in use after it. -/
theorem obtains_free (holds : after.Holds poll_handle) (free : after.activity.held = none)
    (handles : ∀ number poll_handle, after.client_poll_handles.get number = some poll_handle →
      service.Obtains out poll_handle) : service.Obtains out poll_handle := by
  apply obtains_of_parts holds handles
  intro number poll_handle uses
  rw [free] at uses
  cases uses

theorem obtains_still (holds : after.Holds poll_handle) (free : after.activity.held = none)
    (same : after.client_poll_handles = service.client_poll_handles) : service.Obtains out poll_handle := by
  apply obtains_free holds free
  rw [same]
  exact obtains_scheduled

theorem obtains_setHandshake (next : Handshake)
    (holds : (service.setHandshake next requester).Holds poll_handle) : service.Obtains out poll_handle := by
  apply obtains_of_parts holds
  · intro number found there
    cases requester with
    | connect =>
      rw [handles_setHandshake_connect] at there
      exact obtains_scheduled number found there
    | handle other =>
      simp only [Service.setHandshake] at there
      split at there
      · rename_i earlier present
        refine Table.forall_insert (p := fun _ found => service.Obtains out found) ?_ obtains_scheduled number found
          there
        exact .kept earlier (.inl ⟨other, present⟩) rfl rfl
      · exact obtains_scheduled number found there
  · intro number found uses
    rw [held_setHandshake] at uses
    exact obtains_held number found uses

theorem obtains_addClient {stream : Nat} {outgoing wait_connect : Bool} (holds : after.Holds poll_handle)
    (free : after.activity.held = none)
    (handles : after.client_poll_handles =
      (service.addClient service_name stream outgoing wait_connect).client_poll_handles)
    (member : .adopted service_name stream ∈ out ∨ .accepted service_name stream ∈ out) :
    service.Obtains out poll_handle := by
  apply obtains_free holds free
  intro number found there
  rw [handles] at there
  refine Table.forall_insert (p := fun _ found => service.Obtains out found) ?_ obtains_scheduled number found there
  rcases member with adopted | accepted
  · exact .adopted adopted
  · exact .accepted accepted

theorem obtains_finish (runs : service.runs requester = true) {handshake : Handshake}
    (there : service.handshake requester = some (service_name, wait, handshake))
    (finished : service.finish requester service_name wait reply = some (after, out))
    (holds : after.Holds poll_handle) : service.Obtains out poll_handle := by
  cases Service.finish_cases finished with
  | opened pair => exact obtains_addClient holds rfl rfl (.inl List.mem_cons_self)
  | refused e => exact obtains_still holds rfl rfl
  | reopened number pair earlier present =>
    obtain ⟨selecting, named, present', rfl⟩ := reconnecting_handle runs there
    rw [present] at present'
    cases present'
    refine obtains_free holds (held_phase selecting) ?_
    refine Table.forall_insert (p := fun _ found => service.Obtains [.adopted earlier.service_name pair] found) ?_
      obtains_scheduled
    exact .adopted List.mem_cons_self
  | abandoned number e =>
    exact obtains_free holds (held_pollReturns _)
      fun number found there => obtains_scheduled number found (Table.get_of_remove there)

theorem obtains_handleNewConnection (selecting : service.activity.pollPhase = some .selecting)
    (request : HubRequest) (holds : (service.handleNewConnection monitor request).1.Holds poll_handle) :
    service.Obtains (service.handleNewConnection monitor request).2 poll_handle := by
  cases request with
  | other => exact obtains_still holds (held_pollReturns _) rfl
  | fd client_name stream =>
    simp only [Service.handleNewConnection] at holds ⊢
    split at holds
    · rename_i special
      exact obtains_still holds (held_withPhase selecting _) rfl
    · split at holds
      · exact obtains_still holds (held_pollReturns _) rfl
      · rename_i ordinary unknown
        rw [if_neg ordinary, if_neg unknown]
        exact obtains_addClient holds (held_pollReturns _) rfl (.inr List.mem_cons_self)

/-- Every stream that a step leaves with a handle was with it before, or was adopted or accepted for it. -/
theorem Service.Steps.obtains (steps : service.Steps monitor action after out) (holds : after.Holds poll_handle) :
    service.Obtains out poll_handle := by
  cases steps with
  | known service_name wait number earlier idle entry present =>
    have free : service.activity.held = none := by
      rw [idle]
      rfl
    refine obtains_free holds free ?_
    refine Table.forall_insert (p := fun _ found => service.Obtains [.returned number] found) ?_ obtains_scheduled
    exact .kept earlier (.inl ⟨number, present⟩) rfl rfl
  | stale _ _ _ _ _ => exact obtains_same holds
  | opened _ _ _ _ => exact obtains_still holds rfl rfl
  | polled _ => exact obtains_still holds rfl rfl
  | cancelled _ _ => exact obtains_still holds rfl rfl
  | sent requester _ _ _ _ => exact obtains_setHandshake (.awaiting service.clock) holds
  | unsent requester _ _ _ _ => exact obtains_setHandshake .waitingHub holds
  | resolved requester _ _ _ reply _ _ => exact obtains_setHandshake (.replied reply) holds
  | unclaimed _ _ _ => exact obtains_same holds
  | callLost requester e _ _ _ _ => exact obtains_setHandshake (.replied (.error e)) holds
  | resumed requester _ _ _ _ _ runs there finished => exact obtains_finish runs there finished holds
  | hubBack requester _ _ _ _ _ _ => exact obtains_setHandshake .sending holds
  | hubGone requester service_name wait e rest _ _ runs there _ finished =>
    have finished' : service.finish requester service_name wait (.error e) =
        some ({ after with reconnect_signal := service.reconnect_signal }, out) := by
      cases Service.finish_cases finished <;> rfl
    exact obtains_finish runs there finished' holds
  | message number earlier selecting present _ =>
    apply obtains_of_parts holds
    · intro other found there
      exact obtains_scheduled other found (Table.get_of_remove there)
    · intro other found uses
      simp only [Service.inPhase, held_withPhase selecting, PollPhase.held, Option.some.injEq, Prod.mk.injEq] at uses
      obtain ⟨rfl, rfl⟩ := uses
      exact obtains_scheduled number earlier present
  | handled number earlier handling =>
    refine obtains_free holds (held_pollReturns _) ?_
    refine Table.forall_insert (p := fun _ found => service.Obtains [] found) ?_ obtains_scheduled
    exact .kept earlier (.inr ⟨number, held_phase handling⟩) rfl rfl
  | reconnects number earlier selecting present _ _ =>
    refine obtains_free holds (held_phase selecting) ?_
    refine Table.forall_insert (p := fun _ found => service.Obtains [] found) ?_ obtains_scheduled
    exact .kept earlier (.inl ⟨number, present⟩) rfl rfl
  | drops number earlier _ _ _ _ =>
    exact obtains_free holds (held_pollReturns _)
      fun other found there => obtains_scheduled other found (Table.get_of_remove there)
  | hubRequest request selecting => exact obtains_handleNewConnection selecting request holds
  | monitorSet _ => exact obtains_still holds (held_pollReturns _) rfl
  | hubLost selecting => exact obtains_still holds (held_withPhase selecting _) rfl
  | registered registering => exact obtains_still holds (held_withPhase registering _) rfl
  | rejected _ _ => exact obtains_still holds (held_pollReturns _) rfl
  | reconnected _ => exact obtains_still holds (held_pollReturns _) rfl
  | interrupted _ => exact obtains_still holds (held_pollReturns _) rfl

end KrossbarLib
