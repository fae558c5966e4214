import KrossbarBus.Hub.Authorization

namespace KrossbarHub

open Transition

variable {env : HubEnvironment} {hub after : Hub} {conn : Conn} {credentials : UCred} {phase : Phase}
  {input : Input} {progress : Progress} {action : Action} {out log : List Event}
  {additional_service_dirs : List OsString} {files : FileSystem}

/-- What `check_connection_allowed` gives for the service files of the moment. -/
def Hub.Allows (env : HubEnvironment) (hub : Hub) (initiator target : String) : Prop :=
  (hub.context.permissions.checkConnectionAllowed env.toEnvironment initiator target
    hub.files).1 = some true

/-- The waiters whose descriptors a task that resolves a batch has not sent yet. -/
def Phase.unsent : Phase → List (String × RpcRequest)
  | .sendTarget _ _ _ (.resolve waiters) => waiters
  | .sendInitiator _ (.resolve waiters) => waiters
  | _ => []

inductive Hub.Awaits (hub : Hub) (target : String) (waiter : String × RpcRequest) : Prop
  | pending (waiting : waiter ∈ hub.context.waiters target)
  | resolving (conn : Conn) (task : Task) (present : hub.tasks.get conn = some task)
      (named : task.phase.registeredAs = some target) (unsent : waiter ∈ task.phase.unsent)

/-- An edit of the service files takes no permission from a request that waits for its target. -/
def Hub.WithdrawsNothing (env : HubEnvironment) (hub : Hub) : Action → Prop
  | .editFiles files => ∀ target initiator request, hub.Awaits target (initiator, request) →
      hub.Allows env initiator target → { hub with files }.Allows env initiator target
  | _ => True

theorem Resumes.permissions (resumes : Resumes env hub conn credentials phase input progress) :
    progress.context.permissions = hub.context.permissions := by
  cases resumes <;> rfl

theorem resolveWaiters_unsent {clock : Nat} {service_name : String} {stream : RpcWriter}
    {waiters : List (String × RpcRequest)} {events : List Event}
    (batch : resolveWaiters env clock service_name stream waiters = (phase, events)) :
    (∀ waiter ∈ phase.unsent, waiter ∈ waiters) ∧
      ∀ {writer initiator target pair request}, .connectionRequest writer initiator target pair request ∈ events →
        target = service_name ∧ (initiator, request) ∈ waiters := by
  rcases resolveWaiters_cases batch with ⟨rfl, rfl, rfl⟩ | ⟨initiator, request, rest, rfl, made⟩
  · simp [Phase.unsent]
  · rcases sendConnectionDescriptors_cases made with ⟨rfl, rfl⟩ | ⟨rfl, text, rfl⟩
    · refine ⟨fun waiter member => List.mem_cons_of_mem _ member, ?_⟩
      intro writer other target pair own member
      cases List.mem_singleton.mp member
      exact ⟨rfl, List.mem_cons_self⟩
    · exact ⟨fun waiter member => List.mem_cons_of_mem _ member, by simp⟩

/-- Where the waiters of a task come from that its next phase has still to serve. -/
theorem Resumes.unsent (resumes : Resumes env hub conn credentials phase input progress)
    {waiter : String × RpcRequest} (member : waiter ∈ progress.phase.unsent) :
    waiter ∈ phase.unsent ∧ progress.phase.registeredAs = phase.registeredAs ∨
      ∃ service_name, progress.phase.registeredAs = some service_name ∧
        waiter ∈ hub.context.waiters service_name := by
  cases resumes with
  | authReceived message right phase events body =>
    rcases authorizeBody_cases body with ⟨service_name, _, rfl, rfl⟩ | ⟨_, rfl, e, rfl⟩ <;> cases member
  | authContinued request ok phase events body =>
    rcases authorizeBody_cases body with ⟨service_name, _, rfl, rfl⟩ | ⟨_, rfl, e, rfl⟩ <;> cases member
  | clientReceived service_name message right phase events body =>
    rcases clientBody_cases body with ⟨target, wait, _, rfl, rfl⟩ | ⟨_, ⟨rfl, e, rfl⟩ | ⟨rfl, rfl⟩⟩ <;>
      cases member
  | clientContinued service_name request ok phase events body =>
    rcases clientBody_cases body with ⟨target, wait, _, rfl, rfl⟩ | ⟨_, ⟨rfl, e, rfl⟩ | ⟨rfl, rfl⟩⟩ <;>
      cases member
  | pendingTaken service_name free waiters waiting phase events batch =>
    have drawn := (resolveWaiters_unsent batch).1 waiter member
    refine .inr ⟨service_name, (resolveWaiters_phase batch).1, ?_⟩
    simpa [HubContext.waiters, waiting] using drawn
  | connectRegistered service_name target request wait free allowed target_writer present phase events made =>
    rcases sendConnectionDescriptors_cases made with ⟨rfl, rfl⟩ | ⟨rfl, text, rfl⟩ <;> cases member
  | targetSent service_name handover pair next ok =>
    cases next with
    | loop => cases member
    | resolve waiters => exact .inl ⟨member, rfl⟩
  | batchContinued service_name waiters ok phase events batch =>
    exact .inl ⟨(resolveWaiters_unsent batch).1 waiter member, (resolveWaiters_phase batch).1⟩
  | _ => cases member

/-- The two ways of a hand-over: right after the check, or from the waiters of the target. -/
theorem Resumes.handover_cases (resumes : Resumes env hub conn credentials phase input progress)
    {writer : RpcWriter} {initiator target : String} {pair : Nat} {request : RpcRequest}
    (handed : .connectionRequest writer initiator target pair request ∈ progress.events) :
    hub.Allows env initiator target ∨ (initiator, request) ∈ hub.context.waiters target ∨
      phase.registeredAs = some target ∧ (initiator, request) ∈ phase.unsent := by
  cases resumes with
  | authReceived message right phase events body =>
    rcases authorizeBody_cases body with ⟨service_name, _, rfl, rfl⟩ | ⟨_, rfl, e, rfl⟩ <;> simp at handed
  | authContinued request ok phase events body =>
    rcases authorizeBody_cases body with ⟨service_name, _, rfl, rfl⟩ | ⟨_, rfl, e, rfl⟩ <;> simp at handed
  | clientReceived service_name message right phase events body =>
    rcases clientBody_cases body with ⟨target, wait, _, rfl, rfl⟩ | ⟨_, ⟨rfl, e, rfl⟩ | ⟨rfl, rfl⟩⟩ <;>
      simp at handed
  | clientContinued service_name request ok phase events body =>
    rcases clientBody_cases body with ⟨target, wait, _, rfl, rfl⟩ | ⟨_, ⟨rfl, e, rfl⟩ | ⟨rfl, rfl⟩⟩ <;>
      simp at handed
  | pendingTaken service_name free waiters waiting phase events batch =>
    obtain ⟨rfl, drawn⟩ := (resolveWaiters_unsent batch).2 handed
    exact .inr (.inl (by simpa [HubContext.waiters, waiting] using drawn))
  | connectRegistered service_name target request wait free allowed target_writer present phase events made =>
    rcases sendConnectionDescriptors_cases made with ⟨rfl, rfl⟩ | ⟨rfl, text, rfl⟩
    · simp only [List.mem_cons, reduceCtorEq, List.not_mem_nil, or_false, false_or,
        Event.connectionRequest.injEq] at handed
      obtain ⟨_, rfl, rfl, _⟩ := handed
      exact .inl allowed
    · simp at handed
  | batchContinued service_name waiters ok phase events batch =>
    obtain ⟨rfl, drawn⟩ := (resolveWaiters_unsent batch).2 handed
    exact .inr (.inr ⟨rfl, drawn⟩)
  | _ => simp at handed

/-- Whoever waits for a target may connect to it now. -/
def Hub.Permitted (env : HubEnvironment) (hub : Hub) : Prop :=
  ∀ target initiator request, hub.Awaits target (initiator, request) → hub.Allows env initiator target

theorem Hub.Permitted.new (additional_service_dirs : List OsString) (files : FileSystem) :
    (Hub.new additional_service_dirs files).Permitted env := by
  intro target initiator request awaits
  cases awaits with
  | pending waiting => simp [Hub.new, HubContext.waiters] at waiting
  | resolving conn task present named unsent => cases present

theorem Hub.Permitted.resume (permitted : hub.Permitted env) {task : Task}
    (present : hub.tasks.get conn = some task)
    (resumes : Resumes env hub conn task.credentials task.phase input progress) :
    (hub.advance conn task progress).Permitted env := by
  have same : ∀ initiator target, (hub.advance conn task progress).Allows env initiator target ↔
      hub.Allows env initiator target := by
    intro initiator target
    unfold Hub.Allows
    rw [advance_context, resumes.permissions]
    rfl
  intro target initiator request awaits
  rw [same]
  cases awaits with
  | pending waiting =>
    rcases resumes.queues.waiting waiting with old | ⟨_, events⟩
    · exact permitted target initiator request (.pending old)
    · have checked : .connectionChecked request initiator target true ∈ progress.events := by simp [events]
      cases resumes.emits _ checked with
      | connectionChecked _ _ _ wait _ was result => exact result
  | resolving other next there named unsent =>
    rw [advance_get] at there
    split at there
    · cases there
      rcases resumes.unsent unsent with ⟨old, kept⟩ | ⟨service_name, resolves, waiting⟩
      · refine permitted target initiator request (.resolving conn task present ?_ old)
        rw [← kept]
        exact named
      · have own : service_name = target := Option.some.inj (resolves.symm.trans named)
        subst own
        exact permitted service_name initiator request (.pending waiting)
    · exact permitted target initiator request (.resolving other next there named unsent)

theorem Hub.Awaits.before {target : String} {waiter : String × RpcRequest} (awaits : after.Awaits target waiter)
    (pending : after.context.waiters target = hub.context.waiters target)
    (tasks : ∀ conn task, after.tasks.get conn = some task → hub.tasks.get conn = some task ∨ task.phase.unsent = []) :
    hub.Awaits target waiter := by
  cases awaits with
  | pending waiting =>
    rw [pending] at waiting
    exact .pending waiting
  | resolving conn task present named unsent =>
    rcases tasks conn task present with there | served
    · exact .resolving conn task there named unsent
    · rw [served] at unsent
      cases unsent

theorem Hub.Permitted.preserved (permitted : hub.Permitted env) (kept : hub.WithdrawsNothing env action)
    (taken : step env hub action = some (after, out)) : after.Permitted env := by
  cases step_cases taken with
  | accepted credentials selecting =>
    intro target initiator request awaits
    refine permitted target initiator request (awaits.before rfl fun conn task present => ?_)
    rw [Table.get_insert] at present
    split at present
    · cases present
      exact .inr rfl
    · exact .inl present
  | resumed conn task input progress selecting present resumes => exact permitted.resume present resumes
  | disconnected conn credentials service_name selecting present =>
    intro target initiator request awaits
    exact permitted target initiator request (awaits.before rfl fun _ _ there => .inl (Table.get_of_remove there))
  | anonymousDisconnected conn credentials selecting present =>
    intro target initiator request awaits
    exact permitted target initiator request (awaits.before rfl fun _ _ there => .inl (Table.get_of_remove there))
  | filesEdited files =>
    intro target initiator request awaits
    have before : hub.Awaits target (initiator, request) := awaits.before rfl fun _ _ there => .inl there
    exact kept target initiator request before (permitted target initiator request before)
  | _ =>
    intro target initiator request awaits
    exact permitted target initiator request (awaits.before rfl fun _ _ there => .inl there)

/-- As long as no edit withdraws the permission of a request that waits, every socket pair is handed
    over with the permission of the service files of that very moment. -/
theorem handovers_permitted
    (run : RunWith (step env) (Hub.WithdrawsNothing env) (Hub.new additional_service_dirs files) log hub)
    (taken : step env hub action = some (after, out)) {writer : RpcWriter} {initiator target : String}
    {pair : Nat} {request : RpcRequest}
    (handed : .connectionRequest writer initiator target pair request ∈ out) :
    hub.Allows env initiator target := by
  have permitted : hub.Permitted env :=
    run.invariant (I := fun _ hub => hub.Permitted env) (Hub.Permitted.new additional_service_dirs files)
      fun _ _ _ _ _ _ permitted kept taken => permitted.preserved kept taken
  cases step_cases taken with
  | resumed conn task input progress selecting present resumes =>
    rcases resumes.handover_cases handed with allowed | waiting | ⟨named, unsent⟩
    · exact allowed
    · exact permitted target initiator request (.pending waiting)
    · exact permitted target initiator request (.resolving conn task present named unsent)
  | _ => simp at handed

def waitingRequest : RpcRequest := ⟨6, 0, 1, hubConnectMethod, .call (.ok (.connect "com.b" true))⟩

/-- The target has been registered and waits for the lock to serve its waiters. -/
def resolvingActions : List Action :=
  registering 0 "com.a" ++ connecting 0 "com.b" true ++ (registering 8 "com.b").take 5

def handsOver (hub : Hub) : Bool :=
  (step openEnvironment hub (.task 8 .locked)).any fun r =>
    r.2.contains (.connectionRequest 8 "com.a" "com.b" hub.clock waitingRequest)

theorem handsOver_iff (hub : Hub) : handsOver hub = true ↔ ∃ after out,
    step openEnvironment hub (.task 8 .locked) = some (after, out) ∧
      .connectionRequest 8 "com.a" "com.b" hub.clock waitingRequest ∈ out := by
  simp [handsOver, Option.any_eq_true]

theorem handovers_permitted_waiter : ∃ log hub after out writer pair request,
    RunWith (step openEnvironment) (Hub.WithdrawsNothing openEnvironment)
      (Hub.new [] (openFiles ["com.a", "com.b"])) log hub ∧
    .queued "com.b" "com.a" request ∈ log ∧
    step openEnvironment hub (.task 8 .locked) = some (after, out) ∧
    .connectionRequest writer "com.a" "com.b" pair request ∈ out ∧
    hub.Allows openEnvironment "com.a" "com.b" := by
  let unedited : Hub → Action → Bool := fun _ action => match action with
    | .editFiles _ => false
    | _ => true
  obtain ⟨log, hub, run, shown⟩ := exists_run_of_execute (guarded (step openEnvironment) unedited)
    (Hub.new [] (openFiles ["com.a", "com.b"])) resolvingActions
    (fun log hub => log.contains (.queued "com.b" "com.a" waitingRequest) && handsOver hub) (by decide +kernel)
  rw [Bool.and_eq_true, List.contains_iff_mem, handsOver_iff] at shown
  obtain ⟨queued, after, out, taken, handed⟩ := shown
  have kept : RunWith (step openEnvironment) (Hub.WithdrawsNothing openEnvironment)
      (Hub.new [] (openFiles ["com.a", "com.b"])) log hub := by
    apply RunWith.of_guarded _ run
    intro log state action _ unedited
    cases action with
    | editFiles files => cases unedited
    | _ => trivial
  exact ⟨log, hub, after, out, 8, hub.clock, waitingRequest, kept, queued, taken, handed,
    handovers_permitted kept taken handed⟩

theorem withdrawn_permission_used : ∃ log hub after out writer pair request,
    Run openEnvironment [] (openFiles ["com.a", "com.b"]) log hub ∧
    step openEnvironment hub (.task 8 .locked) = some (after, out) ∧
    .connectionRequest writer "com.a" "com.b" pair request ∈ out ∧
    (hub.context.permissions.checkConnectionAllowed openEnvironment.toEnvironment "com.a" "com.b"
      hub.files).1 = some false := by
  obtain ⟨log, hub, run, shown⟩ := exists_run_of_execute (step openEnvironment)
    (Hub.new [] (openFiles ["com.a", "com.b"])) (resolvingActions ++ [.editFiles (openFiles ["com.a"])])
    (fun _ hub => handsOver hub && (hub.context.permissions.checkConnectionAllowed
      openEnvironment.toEnvironment "com.a" "com.b" hub.files).1 == some false) (by decide +kernel)
  rw [Bool.and_eq_true, handsOver_iff, beq_iff_eq] at shown
  obtain ⟨⟨after, out, taken, handed⟩, denied⟩ := shown
  exact ⟨log, hub, after, out, 8, hub.clock, waitingRequest, run, taken, handed, denied⟩

end KrossbarHub
