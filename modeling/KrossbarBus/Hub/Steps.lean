import KrossbarBus.Hub.Machine

namespace KrossbarHub

/-- What ends an await of a task and where the task goes then, one constructor for each path of
    the code that starts at an await point. -/
inductive Resumes (env : HubEnvironment) (hub : Hub) (conn : Conn) (credentials : UCred) :
    Phase → Input → Progress → Prop
  | authLost : Resumes env hub conn credentials .authPoll (.polled none) ⟨.finished none, hub.context, []⟩
  | authRefused (message : Message) (wrong : message.endpoint ≠ hubRegisterMethod) (e : Error) :
      Resumes env hub conn credentials .authPoll (.polled (some message))
        ⟨.authEndpointReply (message.request hub.clock conn), hub.context,
          [.received none (message.request hub.clock conn),
            .responded (message.request hub.clock conn) (.err e)]⟩
  | authReceived (message : Message) (right : message.endpoint = hubRegisterMethod) (phase : Phase)
      (events : List Event)
      (body : authorizeBody env (message.request hub.clock conn) = (phase, events)) :
      Resumes env hub conn credentials .authPoll (.polled (some message))
        ⟨phase, hub.context, .received none (message.request hub.clock conn) :: events⟩
  | authContinued (request : RpcRequest) (ok : Bool) (phase : Phase) (events : List Event)
      (body : authorizeBody env request = (phase, events)) :
      Resumes env hub conn credentials (.authEndpointReply request) (.sent ok)
        ⟨phase, hub.context, events⟩
  | alreadyRegistered (service_name : String) (request : RpcRequest) (free : hub.lock = none)
      (taken : hub.context.client_registry.containsKey service_name = true) :
      Resumes env hub conn credentials (.registerLock service_name request) .locked
        ⟨.authErrorReply, hub.context, [.responded request (.err .alreadyRegistered)]⟩
  | registrationDenied (service_name : String) (request : RpcRequest) (free : hub.lock = none)
      (absent : hub.context.client_registry.get service_name = none)
      (denied : (hub.context.permissions.checkServiceNameAllowed env.toEnvironment credentials
        service_name hub.files).1 = some false) :
      Resumes env hub conn credentials (.registerLock service_name request) .locked
        ⟨.authErrorReply, hub.context, [.nameChecked conn credentials service_name false,
          .responded request (.err .notAllowed)]⟩
  | registrationAllowed (service_name : String) (request : RpcRequest) (free : hub.lock = none)
      (absent : hub.context.client_registry.get service_name = none)
      (allowed : (hub.context.permissions.checkServiceNameAllowed env.toEnvironment credentials
        service_name hub.files).1 = some true) :
      Resumes env hub conn credentials (.registerLock service_name request) .locked
        ⟨.registerReply service_name,
          { hub.context with
            client_registry := hub.context.client_registry.insert service_name request.writer },
          [.nameChecked conn credentials service_name true, .registered service_name request.writer,
            .responded request .ok]⟩
  | registerReplied (service_name : String) (ok : Bool) :
      Resumes env hub conn credentials (.registerReply service_name) (.sent ok)
        ⟨.resolveSleep service_name, hub.context, []⟩
  | slept (service_name : String) :
      Resumes env hub conn credentials (.resolveSleep service_name) .elapsed
        ⟨.resolveLock service_name, hub.context, []⟩
  | nothingPending (service_name : String) (free : hub.lock = none)
      (nobody : hub.context.pending_connections.get service_name = none) :
      Resumes env hub conn credentials (.resolveLock service_name) .locked
        ⟨.clientPoll service_name, hub.context, []⟩
  | pendingTaken (service_name : String) (free : hub.lock = none)
      (waiters : List (String × RpcRequest))
      (waiting : hub.context.pending_connections.get service_name = some waiters) (phase : Phase)
      (events : List Event)
      (batch : resolveWaiters env hub.clock service_name conn waiters = (phase, events)) :
      Resumes env hub conn credentials (.resolveLock service_name) .locked
        ⟨phase, { hub.context with
          pending_connections := hub.context.pending_connections.remove service_name }, events⟩
  | authErrorReplied (ok : Bool) :
      Resumes env hub conn credentials .authErrorReply (.sent ok) ⟨.authErrorFlush, hub.context, []⟩
  | authErrorFlushed (ok : Bool) :
      Resumes env hub conn credentials .authErrorFlush (.sent ok) ⟨.finished none, hub.context, []⟩
  | clientLost (service_name : String) :
      Resumes env hub conn credentials (.clientPoll service_name) (.polled none)
        ⟨.finished (some service_name), hub.context, []⟩
  | clientRefused (service_name : String) (message : Message)
      (wrong : message.endpoint ≠ hubConnectMethod) (e : Error) :
      Resumes env hub conn credentials (.clientPoll service_name) (.polled (some message))
        ⟨.clientEndpointReply service_name (message.request hub.clock conn), hub.context,
          [.received (some service_name) (message.request hub.clock conn),
            .responded (message.request hub.clock conn) (.err e)]⟩
  | clientReceived (service_name : String) (message : Message)
      (right : message.endpoint = hubConnectMethod) (phase : Phase) (events : List Event)
      (body : clientBody env service_name (message.request hub.clock conn) = (phase, events)) :
      Resumes env hub conn credentials (.clientPoll service_name) (.polled (some message))
        ⟨phase, hub.context, .received (some service_name) (message.request hub.clock conn) :: events⟩
  | clientContinued (service_name : String) (request : RpcRequest) (ok : Bool) (phase : Phase)
      (events : List Event) (body : clientBody env service_name request = (phase, events)) :
      Resumes env hub conn credentials (.clientEndpointReply service_name request) (.sent ok)
        ⟨phase, hub.context, events⟩
  | clientErrorReplied (service_name : String) (ok : Bool) :
      Resumes env hub conn credentials (.clientErrorReply service_name) (.sent ok)
        ⟨.finished (some service_name), hub.context, []⟩
  | connectDenied (service_name target : String) (request : RpcRequest) (wait : Bool)
      (free : hub.lock = none)
      (denied : (hub.context.permissions.checkConnectionAllowed env.toEnvironment service_name target
        hub.files).1 = some false) :
      Resumes env hub conn credentials (.connectLock service_name target request wait) .locked
        ⟨.connectReply service_name, hub.context,
          [.connectionChecked request service_name target false, .responded request (.err .notAllowed)]⟩
  | connectRegistered (service_name target : String) (request : RpcRequest) (wait : Bool)
      (free : hub.lock = none)
      (allowed : (hub.context.permissions.checkConnectionAllowed env.toEnvironment service_name target
        hub.files).1 = some true)
      (target_writer : RpcWriter)
      (present : hub.context.client_registry.get target = some target_writer) (phase : Phase)
      (events : List Event)
      (pair : sendConnectionDescriptors env hub.clock service_name
        ⟨service_name, request, target, target_writer⟩ .loop = (phase, events)) :
      Resumes env hub conn credentials (.connectLock service_name target request wait) .locked
        ⟨phase, hub.context, .connectionChecked request service_name target true :: events⟩
  | connectNotFound (service_name target : String) (request : RpcRequest) (wait : Bool)
      (free : hub.lock = none)
      (allowed : (hub.context.permissions.checkConnectionAllowed env.toEnvironment service_name target
        hub.files).1 = some true)
      (absent : hub.context.client_registry.get target = none)
      (hopeless : wait = false ∨ (hub.context.permissions.checkServiceExists target hub.files).1 = false) :
      Resumes env hub conn credentials (.connectLock service_name target request wait) .locked
        ⟨.connectReply service_name, hub.context,
          [.connectionChecked request service_name target true,
            .responded request (.err .serviceNotFound)]⟩
  | connectQueued (service_name target : String) (request : RpcRequest) (wait : Bool)
      (free : hub.lock = none)
      (allowed : (hub.context.permissions.checkConnectionAllowed env.toEnvironment service_name target
        hub.files).1 = some true)
      (absent : hub.context.client_registry.get target = none) (waits : wait = true)
      (exist : (hub.context.permissions.checkServiceExists target hub.files).1 = true) :
      Resumes env hub conn credentials (.connectLock service_name target request wait) .locked
        ⟨.clientPoll service_name,
          { hub.context with
            pending_connections := hub.context.pending_connections.insert target
              ((hub.context.pending_connections.get target).getD [] ++ [(service_name, request)]) },
          [.connectionChecked request service_name target true, .queued target service_name request]⟩
  | connectReplied (service_name : String) (ok : Bool) :
      Resumes env hub conn credentials (.connectReply service_name) (.sent ok)
        ⟨.clientPoll service_name, hub.context, []⟩
  | targetSent (service_name : String) (handover : Handover) (pair : Nat) (after : After) (ok : Bool) :
      Resumes env hub conn credentials (.sendTarget service_name handover pair after) (.sent ok)
        ⟨.sendInitiator service_name after, hub.context,
          [.responded handover.request (if ok then .fd pair else .err .peerDisconnected)]⟩
  | initiatorSent (service_name : String) (ok : Bool) :
      Resumes env hub conn credentials (.sendInitiator service_name .loop) (.sent ok)
        ⟨.clientPoll service_name, hub.context, []⟩
  | batchContinued (service_name : String) (waiters : List (String × RpcRequest)) (ok : Bool)
      (phase : Phase) (events : List Event)
      (batch : resolveWaiters env hub.clock service_name conn waiters = (phase, events)) :
      Resumes env hub conn credentials (.sendInitiator service_name (.resolve waiters)) (.sent ok)
        ⟨phase, hub.context, events⟩

theorem authorizeBody_cases {env : HubEnvironment} {request : RpcRequest} {phase : Phase}
    {events : List Event} (body : authorizeBody env request = (phase, events)) :
    (∃ service_name, request.body = .call (.ok (.register service_name)) ∧
      phase = .registerLock service_name request ∧ events = []) ∨
    ((∀ service_name, request.body ≠ .call (.ok (.register service_name))) ∧
      phase = .authErrorReply ∧ ∃ e, events = [.responded request (.err e)]) := by
  unfold authorizeBody at body
  split at body
  · rename_i service_name decoded
    cases body
    exact .inl ⟨service_name, decoded, rfl, rfl⟩
  · rename_i message different decoded
    cases body
    refine .inr ⟨?_, rfl, _, rfl⟩
    intro service_name same
    rw [decoded] at same
    cases same
    exact different _ rfl
  · rename_i text decoded
    cases body
    exact .inr ⟨by simp [decoded], rfl, _, rfl⟩
  · rename_i decoded
    cases body
    exact .inr ⟨by simp [decoded], rfl, _, rfl⟩

theorem clientBody_cases {env : HubEnvironment} {service_name : String} {request : RpcRequest}
    {phase : Phase} {events : List Event} (body : clientBody env service_name request = (phase, events)) :
    (∃ target wait, request.body = .call (.ok (.connect target wait)) ∧
      phase = .connectLock service_name target request wait ∧ events = []) ∨
    ((∀ target wait, request.body ≠ .call (.ok (.connect target wait))) ∧
      ((phase = .clientErrorReply service_name ∧ ∃ e, events = [.responded request (.err e)]) ∨
        (phase = .finished (some service_name) ∧ events = []))) := by
  unfold clientBody at body
  split at body
  · rename_i target wait decoded
    cases body
    exact .inl ⟨target, wait, decoded, rfl, rfl⟩
  · rename_i message different decoded
    cases body
    refine .inr ⟨?_, .inl ⟨rfl, _, rfl⟩⟩
    intro target wait same
    rw [decoded] at same
    cases same
    exact different _ _ rfl
  · rename_i text decoded
    cases body
    exact .inr ⟨by simp [decoded], .inl ⟨rfl, _, rfl⟩⟩
  · rename_i decoded
    cases body
    exact .inr ⟨by simp [decoded], .inr ⟨rfl, rfl⟩⟩

theorem sendConnectionDescriptors_cases {env : HubEnvironment} {clock : Nat} {service_name : String}
    {handover : Handover} {after : After} {phase : Phase} {events : List Event}
    (pair : sendConnectionDescriptors env clock service_name handover after = (phase, events)) :
    (phase = .sendTarget service_name handover clock after ∧
      events = [.connectionRequest handover.writer handover.initiator handover.target clock
        handover.request]) ∨
    (phase = .sendInitiator service_name after ∧
      ∃ text, events = [.responded handover.request (.err (.internalError text))]) := by
  unfold sendConnectionDescriptors at pair
  split at pair
  · cases pair
    exact .inl ⟨rfl, rfl⟩
  · cases pair
    exact .inr ⟨rfl, _, rfl⟩

theorem resolveWaiters_cases {env : HubEnvironment} {clock : Nat} {service_name : String}
    {stream : RpcWriter} {waiters : List (String × RpcRequest)} {phase : Phase} {events : List Event}
    (batch : resolveWaiters env clock service_name stream waiters = (phase, events)) :
    (waiters = [] ∧ phase = .clientPoll service_name ∧ events = []) ∨
    ∃ initiator request rest, waiters = (initiator, request) :: rest ∧
      sendConnectionDescriptors env clock service_name ⟨initiator, request, service_name, stream⟩
        (.resolve rest) = (phase, events) := by
  cases waiters with
  | nil =>
    cases batch
    exact .inl ⟨rfl, rfl, rfl⟩
  | cons waiter rest => exact .inr ⟨waiter.1, waiter.2, rest, rfl, batch⟩

theorem handleAuthRequest_cases {env : HubEnvironment} {hub : Hub} {conn : Conn} {credentials : UCred}
    {service_name : String} {request : RpcRequest} {progress : Progress} (free : hub.lock = none)
    (handled : handleAuthRequest env hub conn credentials service_name request = some progress) :
    Resumes env hub conn credentials (.registerLock service_name request) .locked progress := by
  unfold handleAuthRequest at handled
  split at handled
  · rename_i taken
    cases handled
    exact .alreadyRegistered service_name request free taken
  · rename_i untaken
    have absent : hub.context.client_registry.get service_name = none := by
      simpa [Table.containsKey] using untaken
    split at handled
    · cases handled
    · rename_i denied
      cases handled
      exact .registrationDenied service_name request free absent denied
    · rename_i allowed
      cases handled
      exact .registrationAllowed service_name request free absent allowed

theorem handleConnectionRequest_cases {env : HubEnvironment} {hub : Hub} {conn : Conn}
    {credentials : UCred} {service_name target : String} {request : RpcRequest} {wait : Bool}
    {progress : Progress} (free : hub.lock = none)
    (handled : handleConnectionRequest env hub service_name target request wait = some progress) :
    Resumes env hub conn credentials (.connectLock service_name target request wait) .locked progress := by
  unfold handleConnectionRequest at handled
  split at handled
  · cases handled
  · rename_i denied
    cases handled
    exact .connectDenied service_name target request wait free denied
  · rename_i allowed
    split at handled
    · rename_i target_writer present
      cases handled
      exact .connectRegistered service_name target request wait free allowed target_writer present _ _ rfl
    · rename_i absent
      split at handled
      · rename_i impatient
        cases handled
        exact .connectNotFound service_name target request wait free allowed absent
          (.inl (by simpa using impatient))
      · rename_i patient
        split at handled
        · rename_i missing
          cases handled
          exact .connectNotFound service_name target request wait free allowed absent
            (.inr (by simpa using missing))
        · rename_i exist
          cases handled
          exact .connectQueued service_name target request wait free allowed absent
            (by simpa using patient) (by simpa using exist)

theorem resolvePendingConnections_cases {env : HubEnvironment} {hub : Hub} {conn : Conn}
    {credentials : UCred} {service_name : String} (free : hub.lock = none) :
    Resumes env hub conn credentials (.resolveLock service_name) .locked
      (resolvePendingConnections env hub service_name conn) := by
  unfold resolvePendingConnections
  split
  · rename_i nobody
    exact .nothingPending service_name free nobody
  · rename_i waiters waiting
    exact .pendingTaken service_name free waiters waiting _ _ rfl

theorem resume_cases {env : HubEnvironment} {hub : Hub} {conn : Conn} {task : Task} {input : Input}
    {progress : Progress} (resumed : resume env hub conn task input = some (some progress)) :
    Resumes env hub conn task.credentials task.phase input progress := by
  unfold resume at resumed
  cases input with
  | polled message =>
    cases message with
    | none =>
      dsimp only at resumed
      split at resumed
      · rename_i phase
        cases resumed
        rw [phase]
        exact .authLost
      · rename_i service_name phase
        cases resumed
        rw [phase]
        exact .clientLost service_name
      · cases resumed
    | some message =>
      dsimp only at resumed
      split at resumed
      · rename_i phase
        rw [phase]
        split at resumed
        · rename_i wrong
          cases resumed
          exact .authRefused message wrong _
        · rename_i right
          cases resumed
          exact .authReceived message (not_not.mp right) _ _ rfl
      · rename_i service_name phase
        rw [phase]
        split at resumed
        · rename_i wrong
          cases resumed
          exact .clientRefused service_name message wrong _
        · rename_i right
          cases resumed
          exact .clientReceived service_name message (not_not.mp right) _ _ rfl
      · cases resumed
  | sent ok =>
    dsimp only at resumed
    split at resumed
    all_goals first | (rename_i phase; cases resumed; rw [phase]) | cases resumed
    · exact .authContinued _ ok _ _ rfl
    · exact .registerReplied _ ok
    · exact .authErrorReplied ok
    · exact .authErrorFlushed ok
    · exact .clientContinued _ _ ok _ _ rfl
    · exact .clientErrorReplied _ ok
    · exact .connectReplied _ ok
    · exact .targetSent _ _ _ _ ok
    · exact .initiatorSent _ ok
    · exact .batchContinued _ _ ok _ _ rfl
  | elapsed =>
    dsimp only at resumed
    split at resumed
    · rename_i service_name phase
      cases resumed
      rw [phase]
      exact .slept service_name
    · cases resumed
  | locked =>
    dsimp only at resumed
    split at resumed
    · cases resumed
    · rename_i held
      have free : hub.lock = none := not_not.mp held
      split at resumed
      · rename_i service_name request phase
        rw [phase]
        exact handleAuthRequest_cases free (Option.some.inj resumed)
      · rename_i service_name phase
        cases resumed
        rw [phase]
        exact resolvePendingConnections_cases free
      · rename_i service_name target request wait phase
        rw [phase]
        exact handleConnectionRequest_cases free (Option.some.inj resumed)
      · cases resumed

inductive Steps (env : HubEnvironment) (hub : Hub) : Action → Hub → List Event → Prop
  | accepted (credentials : UCred) (selecting : hub.main = .selecting) :
      Steps env hub (.accept (some credentials))
        { hub with
          tasks := hub.tasks.insert hub.clock ⟨credentials, .authPoll⟩
          clock := hub.clock + 1 } [.accepted hub.clock credentials]
  | acceptFailed (selecting : hub.main = .selecting) : Steps env hub (.accept none) hub []
  | resumed (conn : Conn) (task : Task) (input : Input) (progress : Progress)
      (selecting : hub.main = .selecting) (present : hub.tasks.get conn = some task)
      (resumes : Resumes env hub conn task.credentials task.phase input progress) :
      Steps env hub (.task conn input) (hub.advance conn task progress) progress.events
  | crashed (conn : Conn) (task : Task) (input : Input) (selecting : hub.main = .selecting)
      (present : hub.tasks.get conn = some task) (panics : resume env hub conn task input = some none) :
      Steps env hub (.task conn input) { hub with main := .crashed } []
  | disconnected (conn : Conn) (credentials : UCred) (service_name : String)
      (selecting : hub.main = .selecting)
      (present : hub.tasks.get conn = some ⟨credentials, .finished (some service_name)⟩) :
      Steps env hub (.next conn)
        { hub with tasks := hub.tasks.remove conn, main := .disconnected conn service_name } []
  | anonymousDisconnected (conn : Conn) (credentials : UCred) (selecting : hub.main = .selecting)
      (present : hub.tasks.get conn = some ⟨credentials, .finished none⟩) :
      Steps env hub (.next conn) { hub with tasks := hub.tasks.remove conn } []
  | removed (conn : Conn) (service_name : String) (reaping : hub.main = .disconnected conn service_name)
      (free : hub.lock = none) :
      Steps env hub .removeClient
        { hub with
          context := { hub.context with
            client_registry := hub.context.client_registry.remove service_name }
          main := .selecting } [.removed service_name conn]
  | interrupted (selecting : hub.main = .selecting) :
      Steps env hub .interrupt { hub with main := .stopped } []
  | filesEdited (files : FileSystem) : Steps env hub (.editFiles files) { hub with files } []

theorem step_cases {env : HubEnvironment} {hub after : Hub} {action : Action} {out : List Event}
    (taken : step env hub action = some (after, out)) : Steps env hub action after out := by
  cases action with
  | accept credentials =>
    simp only [step] at taken
    split at taken
    · cases taken
    · rename_i polls
      split at taken
      · cases taken
        exact .acceptFailed (not_not.mp polls)
      · rename_i credentials
        cases taken
        exact .accepted credentials (not_not.mp polls)
  | task conn input =>
    simp only [step] at taken
    split at taken
    · cases taken
    · rename_i polls
      split at taken
      · cases taken
      · rename_i task present
        split at taken
        · cases taken
        · rename_i panics
          cases taken
          exact .crashed conn task input (not_not.mp polls) present panics
        · rename_i progress resumed
          cases taken
          exact .resumed conn task input progress (not_not.mp polls) present (resume_cases resumed)
  | next conn =>
    simp only [step] at taken
    split at taken
    · cases taken
    · rename_i polls
      split at taken
      · rename_i credentials service_name present
        cases taken
        exact .disconnected conn credentials service_name (not_not.mp polls) present
      · rename_i credentials present
        cases taken
        exact .anonymousDisconnected conn credentials (not_not.mp polls) present
      · cases taken
  | removeClient =>
    simp only [step] at taken
    split at taken
    · rename_i conn service_name reaping
      split at taken
      · cases taken
      · rename_i held
        cases taken
        exact .removed conn service_name reaping (not_not.mp held)
    · cases taken
  | interrupt =>
    simp only [step] at taken
    split at taken
    · cases taken
    · rename_i polls
      cases taken
      exact .interrupted (not_not.mp polls)
  | editFiles files =>
    simp only [step] at taken
    cases taken
    exact .filesEdited files

end KrossbarHub
