import KrossbarBus.Lib.Connect
import KrossbarBus.Lib.Tracking

namespace KrossbarLib

variable {monitor : Bool} {service after : Service} {action : ServiceAction} {out : List ServiceEvent}
  {number : Nat} {poll_handle : ClientHandle} {requester : Requester} {service_name : String} {wait : Bool}
  {reply : Reply} {handshake : Handshake}

/-- A handle apart from its stream and what its future is at. -/
structure HandleIdentity where
  service_name : String
  outgoing : Bool
  wait_connect : Bool
  deriving DecidableEq

def ClientHandle.identity (poll_handle : ClientHandle) : HandleIdentity :=
  ⟨poll_handle.service_name, poll_handle.outgoing, poll_handle.wait_connect⟩

/-- The handle of that number, scheduled or in use. -/
def Service.handleOf (service : Service) (number : Nat) : Option ClientHandle :=
  match service.client_poll_handles.get number with
  | some poll_handle => some poll_handle
  | none =>
    match service.activity.held with
    | some (other, poll_handle) => if other = number then some poll_handle else none
    | none => none

def Service.identityOf (service : Service) (number : Nat) : Option HandleIdentity :=
  (service.handleOf number).map ClientHandle.identity

/-- What a step has to do to the clients of the service. -/
inductive Bookkeeping
  | nothing
  | mark (service_name : String)
  | make (service_name : String) (number : Nat) (outgoing : Bool)
  | forget (service_name : String)

def Service.bookkeeping (service : Service) : ServiceAction → List ServiceEvent → Bookkeeping
  | .connect service_name _, [.returned _] => .mark service_name
  | .resumed .connect, [.adopted service_name _, .returned number] => .make service_name number true
  | .hubRequest _, [.accepted service_name _] => .make service_name service.clock false
  | _, [.disconnected service_name] => .forget service_name
  | _, _ => .nothing

inductive Service.Changes (service after : Service) : Bookkeeping → Prop
  | nothing (map : after.client_map = service.client_map)
      (handles : ∀ number, after.identityOf number = service.identityOf number) : Changes service after .nothing
  | mark (service_name : String) (number : Nat) (entry : service.client_map.get service_name = some number)
      (map : after.client_map = service.client_map)
      (handles : ∀ other, after.identityOf other = if other = number then
        (service.identityOf number).map fun identity => { identity with outgoing := true }
        else service.identityOf other) : Changes service after (.mark service_name)
  | make (service_name : String) (outgoing wait_connect : Bool)
      (map : after.client_map = service.client_map.insert service_name service.clock)
      (handles : ∀ other, after.identityOf other = if other = service.clock then
        some ⟨service_name, outgoing, wait_connect⟩ else service.identityOf other) :
      Changes service after (.make service_name service.clock outgoing)
  | forget (service_name : String) (number : Nat) (entry : service.client_map.get service_name = some number)
      (map : after.client_map = service.client_map.remove service_name)
      (handles : ∀ other, after.identityOf other = if other = number then none else service.identityOf other) :
      Changes service after (.forget service_name)

theorem identityOf_free (free : service.activity.held = none) (number : Nat) :
    service.identityOf number = (service.client_poll_handles.get number).map ClientHandle.identity := by
  simp only [Service.identityOf, Service.handleOf, free]
  cases service.client_poll_handles.get number <;> rfl

theorem identityOf_same (handles : after.client_poll_handles = service.client_poll_handles)
    (held : after.activity.held = service.activity.held) (number : Nat) :
    after.identityOf number = service.identityOf number := by
  simp only [Service.identityOf, Service.handleOf, handles, held]

theorem identityOf_setHandle (present : service.client_poll_handles.get number = some poll_handle)
    {next : ClientHandle} (same : next.identity = poll_handle.identity) (other : Nat) :
    (service.setHandle number next).identityOf other = service.identityOf other := by
  by_cases this : other = number
  · subst this
    simp [Service.identityOf, Service.handleOf, Service.setHandle, present, same]
  · simp only [Service.identityOf, Service.handleOf, Service.setHandle, Table.get_insert_of_ne this]

theorem handles_setHandshake_connect (next : Handshake) :
    (service.setHandshake next .connect).client_poll_handles = service.client_poll_handles := by
  rw [setHandshake_connect]

theorem held_setHandshake (next : Handshake) (requester : Requester) :
    (service.setHandshake next requester).activity.held = service.activity.held := by
  cases requester with
  | connect =>
    simp only [Service.setHandshake]
    split
    · rename_i connecting
      rw [connecting]
      rfl
    · rfl
  | handle number => rw [setHandshake_handle_activity]

theorem map_setHandshake (next : Handshake) (requester : Requester) :
    (service.setHandshake next requester).client_map = service.client_map := by
  rw [setHandshake_frame]

theorem identityOf_setHandshake (next : Handshake) (requester : Requester) (number : Nat) :
    (service.setHandshake next requester).identityOf number = service.identityOf number := by
  cases requester with
  | connect =>
    exact identityOf_same (handles_setHandshake_connect next) (held_setHandshake next .connect) number
  | handle other =>
    simp only [Service.setHandshake]
    split
    · rename_i poll_handle present
      apply identityOf_setHandle present
      rfl
    · rfl

theorem changes_setHandshake (next : Handshake) (requester : Requester) :
    service.Changes (service.setHandshake next requester) .nothing :=
  .nothing (map_setHandshake next requester) (identityOf_setHandshake next requester)

theorem changes_setHandle (present : service.client_poll_handles.get number = some poll_handle)
    {next : ClientHandle} (same : next.identity = poll_handle.identity) :
    service.Changes (service.setHandle number next) .nothing :=
  .nothing rfl (identityOf_setHandle present same)

/-- The step leaves the collections alone and no handle is in use before or after it. -/
theorem changes_still (map : after.client_map = service.client_map)
    (handles : after.client_poll_handles = service.client_poll_handles) (free : service.activity.held = none)
    (after_free : after.activity.held = none) : service.Changes after .nothing :=
  .nothing map (identityOf_same handles (after_free.trans free.symm))

theorem changes_addClient {stream : Nat} {outgoing wait_connect : Bool} (free : service.activity.held = none)
    (after_free : after.activity.held = none)
    (map : after.client_map = (service.addClient service_name stream outgoing wait_connect).client_map)
    (handles : after.client_poll_handles =
      (service.addClient service_name stream outgoing wait_connect).client_poll_handles) :
    service.Changes after (.make service_name service.clock outgoing) := by
  apply Service.Changes.make service_name outgoing wait_connect map
  intro other
  rw [identityOf_free free, identityOf_free after_free, handles, Service.addClient, Table.get_insert]
  split <;> rfl

theorem changes_disconnect (tracked : service.Tracked) (free : service.activity.held = none)
    (present : service.client_poll_handles.get number = some poll_handle) (after_free : after.activity.held = none)
    (map : after.client_map = service.client_map.remove poll_handle.service_name)
    (handles : after.client_poll_handles = service.client_poll_handles.remove number) :
    service.Changes after (.forget poll_handle.service_name) := by
  apply Service.Changes.forget poll_handle.service_name number (tracked.scheduled number poll_handle present) map
  intro other
  rw [identityOf_free free, identityOf_free after_free, handles, Table.get_remove]
  split <;> rfl

theorem changes_finish (tracked : service.Tracked) (runs : service.runs requester = true)
    (spares : requester = .connect → service.activity.held = none)
    (there : service.handshake requester = some (service_name, wait, handshake))
    (finished : service.finish requester service_name wait reply = some (after, out)) :
    service.Changes after (service.bookkeeping (.resumed requester) out) := by
  cases Service.finish_cases finished with
  | opened pair => exact changes_addClient (spares rfl) rfl rfl rfl
  | refused e => exact changes_still rfl rfl (spares rfl) rfl
  | reopened number pair poll_handle present => exact changes_setHandle present rfl
  | abandoned number e =>
    obtain ⟨selecting, poll_handle, present, rfl⟩ := reconnecting_handle runs there
    exact changes_disconnect tracked (held_phase selecting) present (held_pollReturns _) rfl rfl

theorem changes_handleNewConnection (selecting : service.activity.pollPhase = some .selecting)
    (request : HubRequest) :
    service.Changes (service.handleNewConnection monitor request).1
      (service.bookkeeping (.hubRequest request) (service.handleNewConnection monitor request).2) := by
  have free := held_phase selecting
  cases request with
  | other => exact changes_still rfl rfl free (held_pollReturns _)
  | fd client_name stream =>
    simp only [Service.handleNewConnection]
    split
    · exact changes_still rfl rfl free (held_withPhase selecting _)
    · split
      · exact changes_still rfl rfl free (held_pollReturns _)
      · exact changes_addClient free (held_pollReturns _) rfl rfl

theorem changes_known (idle : service.activity = .idle) (entry : service.client_map.get service_name = some number)
    (present : service.client_poll_handles.get number = some poll_handle) :
    service.Changes (service.setHandle number { poll_handle with outgoing := true }) (.mark service_name) := by
  have free : service.activity.held = none := by
    rw [idle]
    rfl
  have after_free : (service.setHandle number { poll_handle with outgoing := true }).activity.held = none := free
  apply Service.Changes.mark service_name number entry
  · rfl
  · intro other
    rw [identityOf_free after_free, identityOf_free free, identityOf_free free, Service.setHandle, Table.get_insert,
      present]
    split <;> rfl

theorem step_changes (tracked : service.Tracked) (spares : service.Spares action)
    (taken : Service.step monitor service action = some (after, out)) :
    service.Changes after (service.bookkeeping action out) := by
  cases Service.step_cases taken with
  | known service_name wait number poll_handle idle entry present => exact changes_known idle entry present
  | stale service_name wait number idle entry =>
    -- the entry of an idle service has its handle, so this is the branch above
    have free : service.activity.held = none := by
      rw [idle]
      rfl
    obtain ⟨poll_handle, _, present⟩ := (tracked.unheld free).entries service_name number entry
    have present := present.resolve_right (by simp)
    simp only [Service.step, idle, ne_eq, not_true_eq_false, if_false, entry, present, Option.some.injEq,
      Prod.mk.injEq, and_true] at taken
    have marked := changes_known idle entry present
    rw [taken] at marked
    exact marked
  | opened service_name wait idle absent => exact changes_still rfl rfl (by rw [idle]; rfl) rfl
  | polled idle => exact changes_still rfl rfl (by rw [idle]; rfl) rfl
  | cancelled phase busy => exact changes_still rfl rfl (spares rfl) rfl
  | sent requester service_name wait runs there =>
    exact .nothing (map_setHandshake _ requester) fun number => identityOf_setHandshake _ requester number
  | unsent requester service_name wait runs there => exact changes_setHandshake _ requester
  | resolved requester service_name wait message_id reply selecting there => exact changes_setHandshake _ requester
  | unclaimed _ _ _ => exact .nothing rfl fun _ => rfl
  | callLost requester e service_name wait message_id there => exact changes_setHandshake _ requester
  | resumed requester service_name wait reply _ _ runs there finished =>
    apply changes_finish tracked runs _ there finished
    rintro rfl
    exact spares rfl
  | hubBack requester service_name wait rest runs there signal =>
    exact .nothing (map_setHandshake _ requester) fun number => identityOf_setHandshake _ requester number
  | hubGone requester service_name wait e rest _ _ runs there signal finished =>
    cases Service.finish_cases finished with
    | refused e => exact changes_still rfl rfl (spares (by simp [Service.dropsPoll, signal])) rfl
    | abandoned number e =>
      obtain ⟨selecting, poll_handle, present, rfl⟩ := reconnecting_handle runs there
      exact changes_disconnect tracked (held_phase selecting) present (held_pollReturns _) rfl rfl
  | message number poll_handle selecting present polling =>
    have free := held_phase selecting
    apply Service.Changes.nothing
    · rfl
    · intro other
      rw [identityOf_free free]
      simp only [Service.identityOf, Service.handleOf, Service.inPhase, held_withPhase selecting, PollPhase.held]
      by_cases this : other = number
      · subst this
        simp [present]
      · cases there : service.client_poll_handles.get other with
        | none => simp [Table.get_remove_of_ne this, there, Ne.symm this]
        | some found => simp [Table.get_remove_of_ne this, there]
  | handled number poll_handle handling =>
    have holds : service.activity.held = some (number, poll_handle) := held_phase handling
    have absent := (tracked.handling number poll_handle holds).2.1
    have free : (service.setHandle number { poll_handle with phase := .polling }).pollReturns.activity.held = none :=
      held_pollReturns _
    apply Service.Changes.nothing
    · rfl
    · intro other
      rw [identityOf_free free]
      simp only [Service.identityOf, Service.handleOf, holds, Service.pollReturns, Service.setHandle]
      by_cases this : other = number
      · subst this
        simp [absent, ClientHandle.identity]
      · cases there : service.client_poll_handles.get other with
        | none => simp [Table.get_insert_of_ne this, there, Ne.symm this]
        | some found => simp [Table.get_insert_of_ne this, there]
  | reconnects number poll_handle selecting present polling outgoing =>
    exact changes_setHandle present rfl
  | drops number poll_handle selecting present polling incoming =>
    exact changes_disconnect tracked (held_phase selecting) present (held_pollReturns _) rfl rfl
  | hubRequest request selecting => exact changes_handleNewConnection selecting request
  | monitorSet setting => exact changes_still rfl rfl (held_phase setting) (held_pollReturns _)
  | hubLost selecting => exact changes_still rfl rfl (held_phase selecting) (held_withPhase selecting _)
  | registered registering => exact changes_still rfl rfl (held_phase registering) (held_withPhase registering _)
  | rejected e registering => exact changes_still rfl rfl (held_phase registering) (held_pollReturns _)
  | reconnected reconnecting => exact changes_still rfl rfl (held_phase reconnecting) (held_pollReturns _)
  | interrupted selecting => exact changes_still rfl rfl (held_phase selecting) (held_pollReturns _)

end KrossbarLib
