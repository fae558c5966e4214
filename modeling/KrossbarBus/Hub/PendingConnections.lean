import KrossbarBus.Hub.RegistryHistory

namespace KrossbarHub

variable {env : HubEnvironment} {hub : Hub} {conn : Conn} {credentials : UCred} {phase : Phase}
  {input : Input} {progress : Progress}

def HubContext.waiters (context : HubContext) (target : String) : List (String × RpcRequest) :=
  (context.pending_connections.get target).getD []

def Phase.batch : Phase → List (String × RpcRequest)
  | .sendTarget _ handover _ (.resolve waiters) => (handover.initiator, handover.request) :: waiters
  | .sendInitiator _ (.resolve waiters) => waiters
  | _ => []

def Handles (hub : Hub) (conn : Conn) (phase : Phase) (input : Input) (request : RpcRequest) : Prop :=
  phase.processing = some request ∨
    ∃ message, input = .polled (some message) ∧ request = Message.request message hub.clock conn

def Aside (handles : RpcRequest → Prop) : Event → Prop
  | .queued .. => False
  | .responded request _ => handles request
  | _ => True

/-- What a step of a task does to the pending connections: nothing, it adds its own request, it
    begins or continues a batch, or it answers the waiter whose descriptor it has sent. -/
inductive Queues (env : HubEnvironment) (hub : Hub) (conn : Conn) (phase : Phase) (input : Input)
    (progress : Progress) : Prop
  | quiet (pending : progress.context.pending_connections = hub.context.pending_connections)
      (batch : progress.phase.batch = phase.batch)
      (aside : ∀ event ∈ progress.events, Aside (Handles hub conn phase input) event)
  | queued (service_name target : String) (request : RpcRequest) (wait : Bool)
      (was : phase = .connectLock service_name target request wait)
      (now : progress.phase = .clientPoll service_name)
      (allowed : (hub.context.permissions.checkConnectionAllowed env.toEnvironment service_name target
        hub.files).1 = some true)
      (absent : hub.context.client_registry.get target = none)
      (context : progress.context = { hub.context with
        pending_connections := hub.context.pending_connections.insert target
          (hub.context.waiters target ++ [(service_name, request)]) })
      (events : progress.events =
        [.connectionChecked request service_name target true, .queued target service_name request])
  | drawn (service_name : String) (waiters : List (String × RpcRequest))
      (source : (phase = .resolveLock service_name ∧ hub.context.waiters service_name = waiters ∧
          progress.context = { hub.context with
            pending_connections := hub.context.pending_connections.remove service_name }) ∨
        (phase = .sendInitiator service_name (.resolve waiters) ∧ progress.context = hub.context))
      (batch : resolveWaiters env hub.clock service_name conn waiters = (progress.phase, progress.events))
  | answered (service_name : String) (handover : Handover) (pair : Nat)
      (waiters : List (String × RpcRequest)) (response : Response)
      (was : phase = .sendTarget service_name handover pair (.resolve waiters))
      (now : progress.phase = .sendInitiator service_name (.resolve waiters))
      (context : progress.context = hub.context)
      (events : progress.events = [.responded handover.request response])

theorem Resumes.queues (resumes : Resumes env hub conn credentials phase input progress) :
    Queues env hub conn phase input progress := by
  cases resumes with
  | authRefused message wrong e =>
    exact .quiet rfl rfl (by simp [Aside, Handles])
  | authReceived message right phase events body =>
    rcases authorizeBody_cases body with ⟨service_name, _, rfl, rfl⟩ | ⟨_, rfl, e, rfl⟩
    · exact .quiet rfl rfl (by simp [Aside])
    · exact .quiet rfl rfl (by simp [Aside, Handles])
  | authContinued request ok phase events body =>
    rcases authorizeBody_cases body with ⟨service_name, _, rfl, rfl⟩ | ⟨_, rfl, e, rfl⟩
    · exact .quiet rfl rfl (by simp)
    · exact .quiet rfl rfl (by simp [Aside, Handles, Phase.processing])
  | alreadyRegistered service_name request free taken =>
    exact .quiet rfl rfl (by simp [Aside, Handles, Phase.processing])
  | registrationDenied service_name request free absent denied =>
    exact .quiet rfl rfl (by simp [Aside, Handles, Phase.processing])
  | registrationAllowed service_name request free absent allowed =>
    exact .quiet rfl rfl (by simp [Aside, Handles, Phase.processing])
  | pendingTaken service_name free waiters waiting phase events batch =>
    exact .drawn service_name waiters (.inl ⟨rfl, by simp [HubContext.waiters, waiting], rfl⟩) batch
  | clientRefused service_name message wrong e =>
    exact .quiet rfl rfl (by simp [Aside, Handles])
  | clientReceived service_name message right phase events body =>
    rcases clientBody_cases body with ⟨target, wait, _, rfl, rfl⟩ | ⟨_, ⟨rfl, e, rfl⟩ | ⟨rfl, rfl⟩⟩
    · exact .quiet rfl rfl (by simp [Aside])
    · exact .quiet rfl rfl (by simp [Aside, Handles])
    · exact .quiet rfl rfl (by simp [Aside])
  | clientContinued service_name request ok phase events body =>
    rcases clientBody_cases body with ⟨target, wait, _, rfl, rfl⟩ | ⟨_, ⟨rfl, e, rfl⟩ | ⟨rfl, rfl⟩⟩
    · exact .quiet rfl rfl (by simp)
    · exact .quiet rfl rfl (by simp [Aside, Handles, Phase.processing])
    · exact .quiet rfl rfl (by simp)
  | connectDenied service_name target request wait free denied =>
    exact .quiet rfl rfl (by simp [Aside, Handles, Phase.processing])
  | connectRegistered service_name target request wait free allowed target_writer present phase events pair =>
    rcases sendConnectionDescriptors_cases pair with ⟨rfl, rfl⟩ | ⟨rfl, text, rfl⟩
    · exact .quiet rfl rfl (by simp [Aside])
    · exact .quiet rfl rfl (by simp [Aside, Handles, Phase.processing])
  | connectNotFound service_name target request wait free allowed absent hopeless =>
    exact .quiet rfl rfl (by simp [Aside, Handles, Phase.processing])
  | connectQueued service_name target request wait free allowed absent waits exist =>
    exact .queued service_name target request wait rfl rfl allowed absent rfl rfl
  | targetSent service_name handover pair next ok =>
    cases next with
    | resolve waiters => exact .answered service_name handover pair waiters _ rfl rfl rfl rfl
    | loop => exact .quiet rfl rfl (by simp [Aside, Handles, Phase.processing])
  | batchContinued service_name waiters ok phase events batch =>
    exact .drawn service_name waiters (.inr ⟨rfl, rfl⟩) batch
  | _ => exact .quiet rfl rfl (by simp)

@[simp] theorem waiters_insert (context : HubContext) (target other : String)
    (waiters : List (String × RpcRequest)) :
    HubContext.waiters
        { context with pending_connections := context.pending_connections.insert target waiters } other =
      if other = target then waiters else context.waiters other := by
  simp only [HubContext.waiters, Table.get_insert]
  split <;> rfl

@[simp] theorem waiters_remove (context : HubContext) (target other : String) :
    HubContext.waiters
        { context with pending_connections := context.pending_connections.remove target } other =
      if other = target then [] else context.waiters other := by
  simp only [HubContext.waiters, Table.get_remove]
  split <;> rfl

theorem resolveWaiters_batch {clock : Nat} {service_name : String} {stream : RpcWriter}
    {waiters : List (String × RpcRequest)} {events : List Event}
    (batch : resolveWaiters env clock service_name stream waiters = (phase, events)) :
    (phase.batch = waiters ∧ (waiters = [] ∧ events = [] ∨
      ∃ initiator request rest, waiters = (initiator, request) :: rest ∧
        phase = .sendTarget service_name ⟨initiator, request, service_name, stream⟩ clock (.resolve rest) ∧
        events = [.connectionRequest stream initiator service_name clock request])) ∨
    ∃ initiator request e, waiters = (initiator, request) :: phase.batch ∧
      phase = .sendInitiator service_name (.resolve phase.batch) ∧ events = [.responded request (.err e)] := by
  rcases resolveWaiters_cases batch with ⟨rfl, rfl, rfl⟩ | ⟨initiator, request, rest, rfl, pair⟩
  · exact .inl ⟨rfl, .inl ⟨rfl, rfl⟩⟩
  · rcases sendConnectionDescriptors_cases pair with ⟨rfl, rfl⟩ | ⟨rfl, text, rfl⟩
    · exact .inl ⟨rfl, .inr ⟨initiator, request, rest, rfl, rfl, rfl⟩⟩
    · exact .inr ⟨initiator, request, _, rfl, rfl, rfl⟩

theorem Queues.waiting (queues : Queues env hub conn phase input progress) {target initiator : String}
    {request : RpcRequest} (member : (initiator, request) ∈ progress.context.waiters target) :
    (initiator, request) ∈ hub.context.waiters target ∨
      (∃ wait, phase = .connectLock initiator target request wait) ∧
        progress.events =
          [.connectionChecked request initiator target true, .queued target initiator request] := by
  cases queues with
  | quiet pending batch aside =>
    rw [HubContext.waiters, pending] at member
    exact .inl member
  | queued service_name queue own wait was now allowed absent context events =>
    rw [context, waiters_insert] at member
    split at member
    · rename_i same
      subst same
      rcases List.mem_append.mp member with old | new
      · exact .inl old
      · obtain ⟨rfl, rfl⟩ := Prod.mk.inj (List.mem_singleton.mp new)
        exact .inr ⟨⟨wait, was⟩, events⟩
    · exact .inl member
  | drawn service_name waiters source batch =>
    rcases source with ⟨was, taken, context⟩ | ⟨was, context⟩
    · rw [context, waiters_remove] at member
      split at member
      · cases member
      · exact .inl member
    · rw [context] at member
      exact .inl member
  | answered service_name handover pair waiters response was now context events =>
    rw [context] at member
    exact .inl member

theorem Queues.batched (queues : Queues env hub conn phase input progress) {waiter : String × RpcRequest}
    (member : waiter ∈ progress.phase.batch) :
    waiter ∈ phase.batch ∨
      ∃ service_name, phase = .resolveLock service_name ∧ waiter ∈ hub.context.waiters service_name := by
  cases queues with
  | quiet pending batch aside =>
    rw [batch] at member
    exact .inl member
  | queued service_name queue own wait was now allowed absent context events =>
    rw [now] at member
    cases member
  | drawn service_name waiters source batch =>
    have drawn : waiter ∈ waiters := by
      rcases resolveWaiters_batch batch with ⟨all, _⟩ | ⟨initiator, request, e, split, _⟩
      · rwa [all] at member
      · rw [split]
        exact List.mem_cons_of_mem _ member
    rcases source with ⟨was, taken, _⟩ | ⟨was, _⟩
    · rw [← taken] at drawn
      exact .inr ⟨service_name, was, drawn⟩
    · rw [was]
      exact .inl drawn
  | answered service_name handover pair waiters response was now context events =>
    rw [now] at member
    rw [was]
    exact .inl (List.mem_cons_of_mem _ member)

def Draws (hub : Hub) (phase : Phase) (target : String) (waiter : String × RpcRequest) : Prop :=
  phase.registeredAs = some target ∧
    (waiter ∈ phase.batch ∨ phase = .resolveLock target ∧ waiter ∈ hub.context.waiters target)

inductive Emits (env : HubEnvironment) (hub : Hub) (conn : Conn) (credentials : UCred) (phase : Phase)
    (input : Input) (events : List Event) : Event → Prop
  | received (client : Option String) (request : RpcRequest) (handles : Handles hub conn phase input request) :
      Emits env hub conn credentials phase input events (.received client request)
  | nameChecked (service_name : String) (request : RpcRequest) (allowed : Bool)
      (was : phase = .registerLock service_name request)
      (result : (hub.context.permissions.checkServiceNameAllowed env.toEnvironment credentials service_name
        hub.files).1 = some allowed) :
      Emits env hub conn credentials phase input events (.nameChecked conn credentials service_name allowed)
  | registered (service_name : String) (request : RpcRequest)
      (was : phase = .registerLock service_name request)
      (checked : .nameChecked conn credentials service_name true ∈ events) :
      Emits env hub conn credentials phase input events (.registered service_name request.writer)
  | connectionChecked (service_name target : String) (request : RpcRequest) (wait allowed : Bool)
      (was : phase = .connectLock service_name target request wait)
      (result : (hub.context.permissions.checkConnectionAllowed env.toEnvironment service_name target
        hub.files).1 = some allowed) :
      Emits env hub conn credentials phase input events
        (.connectionChecked request service_name target allowed)
  | queued (service_name target : String) (request : RpcRequest) (wait : Bool)
      (was : phase = .connectLock service_name target request wait) :
      Emits env hub conn credentials phase input events (.queued target service_name request)
  | direct (service_name target : String) (request : RpcRequest) (wait : Bool) (writer : RpcWriter)
      (pair : Nat) (was : phase = .connectLock service_name target request wait)
      (present : hub.context.client_registry.get target = some writer)
      (all : events = [.connectionChecked request service_name target true,
        .connectionRequest writer service_name target pair request]) :
      Emits env hub conn credentials phase input events
        (.connectionRequest writer service_name target pair request)
  | batched (target initiator : String) (request : RpcRequest) (pair : Nat)
      (source : Draws hub phase target (initiator, request))
      (all : events = [.connectionRequest conn initiator target pair request]) :
      Emits env hub conn credentials phase input events
        (.connectionRequest conn initiator target pair request)
  | failed (target initiator : String) (request : RpcRequest) (e : Error)
      (source : Draws hub phase target (initiator, request)) :
      Emits env hub conn credentials phase input events (.responded request (.err e))
  | answered (request : RpcRequest) (response : Response) (handles : Handles hub conn phase input request)
      (plain : ∀ pair, response ≠ .fd pair) :
      Emits env hub conn credentials phase input events (.responded request response)
  | handed (service_name : String) (handover : Handover) (pair : Nat) (next : After) (ok : Bool)
      (was : phase = .sendTarget service_name handover pair next)
      (all : events = [.responded handover.request (if ok then .fd pair else .err .peerDisconnected)]) :
      Emits env hub conn credentials phase input events
        (.responded handover.request (if ok then .fd pair else .err .peerDisconnected))

theorem authorizeBody_emits {request : RpcRequest} {events all : List Event} {next : Phase}
    (body : authorizeBody env request = (next, events)) (handles : Handles hub conn phase input request) :
    ∀ event ∈ events, Emits env hub conn credentials phase input all event := by
  rcases authorizeBody_cases body with ⟨service_name, _, rfl, rfl⟩ | ⟨_, rfl, e, rfl⟩
  · simp
  · intro event member
    cases List.mem_singleton.mp member
    exact .answered request _ handles (by simp)

theorem clientBody_emits {service_name : String} {request : RpcRequest} {events all : List Event}
    {next : Phase} (body : clientBody env service_name request = (next, events))
    (handles : Handles hub conn phase input request) :
    ∀ event ∈ events, Emits env hub conn credentials phase input all event := by
  rcases clientBody_cases body with ⟨target, wait, _, rfl, rfl⟩ | ⟨_, ⟨rfl, e, rfl⟩ | ⟨rfl, rfl⟩⟩
  · simp
  · intro event member
    cases List.mem_singleton.mp member
    exact .answered request _ handles (by simp)
  · simp

theorem resolveWaiters_emits {service_name : String} {waiters : List (String × RpcRequest)}
    {events : List Event} {next : Phase}
    (batch : resolveWaiters env hub.clock service_name conn waiters = (next, events))
    (source : ∀ waiter ∈ waiters, Draws hub phase service_name waiter) :
    ∀ event ∈ events, Emits env hub conn credentials phase input events event := by
  rcases resolveWaiters_batch batch with
    ⟨_, ⟨_, rfl⟩ | ⟨initiator, request, rest, rfl, _, rfl⟩⟩ | ⟨initiator, request, e, split, _, rfl⟩
  · simp
  · intro event member
    cases List.mem_singleton.mp member
    exact .batched service_name initiator request _ (source _ List.mem_cons_self) rfl
  · intro event member
    cases List.mem_singleton.mp member
    exact .failed service_name initiator request e (source _ (by rw [split]; exact List.mem_cons_self))

theorem Resumes.emits (resumes : Resumes env hub conn credentials phase input progress) :
    ∀ event ∈ progress.events, Emits env hub conn credentials phase input progress.events event := by
  cases resumes with
  | authRefused message wrong e =>
    simp only [List.forall_mem_cons, List.not_mem_nil, false_implies, implies_true, and_true]
    exact ⟨.received _ _ (.inr ⟨message, rfl, rfl⟩), .answered _ _ (.inr ⟨message, rfl, rfl⟩) (by simp)⟩
  | authReceived message right phase events body =>
    rw [List.forall_mem_cons]
    exact ⟨.received _ _ (.inr ⟨message, rfl, rfl⟩), authorizeBody_emits body (.inr ⟨message, rfl, rfl⟩)⟩
  | authContinued request ok phase events body => exact authorizeBody_emits body (.inl rfl)
  | alreadyRegistered service_name request free taken =>
    simp only [List.forall_mem_cons, List.not_mem_nil, false_implies, implies_true, and_true]
    exact .answered request _ (.inl rfl) (by simp)
  | registrationDenied service_name request free absent denied =>
    simp only [List.forall_mem_cons, List.not_mem_nil, false_implies, implies_true, and_true]
    exact ⟨.nameChecked service_name request false rfl denied, .answered request _ (.inl rfl) (by simp)⟩
  | registrationAllowed service_name request free absent allowed =>
    simp only [List.forall_mem_cons, List.not_mem_nil, false_implies, implies_true, and_true]
    exact ⟨.nameChecked service_name request true rfl allowed,
      .registered service_name request rfl List.mem_cons_self, .answered request _ (.inl rfl) (by simp)⟩
  | pendingTaken service_name free waiters waiting phase events batch =>
    apply resolveWaiters_emits batch
    intro waiter member
    exact ⟨rfl, .inr ⟨rfl, by simpa [HubContext.waiters, waiting] using member⟩⟩
  | clientRefused service_name message wrong e =>
    simp only [List.forall_mem_cons, List.not_mem_nil, false_implies, implies_true, and_true]
    exact ⟨.received _ _ (.inr ⟨message, rfl, rfl⟩), .answered _ _ (.inr ⟨message, rfl, rfl⟩) (by simp)⟩
  | clientReceived service_name message right phase events body =>
    rw [List.forall_mem_cons]
    exact ⟨.received _ _ (.inr ⟨message, rfl, rfl⟩), clientBody_emits body (.inr ⟨message, rfl, rfl⟩)⟩
  | clientContinued service_name request ok phase events body => exact clientBody_emits body (.inl rfl)
  | connectDenied service_name target request wait free denied =>
    simp only [List.forall_mem_cons, List.not_mem_nil, false_implies, implies_true, and_true]
    exact ⟨.connectionChecked service_name target request wait false rfl denied,
      .answered request _ (.inl rfl) (by simp)⟩
  | connectRegistered service_name target request wait free allowed target_writer present phase events pair =>
    rcases sendConnectionDescriptors_cases pair with ⟨rfl, rfl⟩ | ⟨rfl, text, rfl⟩
    · simp only [List.forall_mem_cons, List.not_mem_nil, false_implies, implies_true, and_true]
      exact ⟨.connectionChecked service_name target request wait true rfl allowed,
        .direct service_name target request wait target_writer _ rfl present rfl⟩
    · simp only [List.forall_mem_cons, List.not_mem_nil, false_implies, implies_true, and_true]
      exact ⟨.connectionChecked service_name target request wait true rfl allowed,
        .answered request _ (.inl rfl) (by simp)⟩
  | connectNotFound service_name target request wait free allowed absent hopeless =>
    simp only [List.forall_mem_cons, List.not_mem_nil, false_implies, implies_true, and_true]
    exact ⟨.connectionChecked service_name target request wait true rfl allowed,
      .answered request _ (.inl rfl) (by simp)⟩
  | connectQueued service_name target request wait free allowed absent waits exist =>
    simp only [List.forall_mem_cons, List.not_mem_nil, false_implies, implies_true, and_true]
    exact ⟨.connectionChecked service_name target request wait true rfl allowed,
      .queued service_name target request wait rfl⟩
  | targetSent service_name handover pair next ok =>
    simp only [List.forall_mem_cons, List.not_mem_nil, false_implies, implies_true, and_true]
    exact .handed service_name handover pair next ok rfl rfl
  | batchContinued service_name waiters ok phase events batch =>
    apply resolveWaiters_emits batch
    intro waiter member
    exact ⟨rfl, .inl member⟩
  | _ => simp

end KrossbarHub
