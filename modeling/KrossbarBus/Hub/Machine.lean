import KrossbarBus.Collections.Table
import KrossbarBus.Hub.Messages
import KrossbarBus.Transition.History

namespace KrossbarHub

/-- The parts of a hub that its own code does not decide. `socketPair` is the outcome of
    `UnixStream::pair` at a given time, `debug` the derived `Debug` text of a message. -/
structure HubEnvironment extends Environment where
  socketPair : Nat → Except String Unit
  debug : HubMessage → String

structure HubContext where
  client_registry : Table String RpcWriter
  pending_connections : Table String (List (String × RpcRequest))
  permissions : Permissions

structure Handover where
  initiator : String
  request : RpcRequest
  target : String
  writer : RpcWriter
  deriving DecidableEq

/-- What a task does after handing over a socket pair: it goes on with the batch of waiters it
    resolves, or returns to its client loop. -/
inductive After
  | resolve (waiters : List (String × RpcRequest))
  | loop
  deriving DecidableEq

/-- The await points of a client task: `Hub::authorize`, then `Client::client_loop`. -/
inductive Phase
  | authPoll
  | authEndpointReply (request : RpcRequest)
  | registerLock (service_name : String) (request : RpcRequest)
  | registerReply (service_name : String)
  | resolveSleep (service_name : String)
  | resolveLock (service_name : String)
  | authErrorReply
  | authErrorFlush
  | clientPoll (service_name : String)
  | clientEndpointReply (service_name : String) (request : RpcRequest)
  | clientErrorReply (service_name : String)
  | connectLock (service_name target : String) (request : RpcRequest) (wait : Bool)
  | connectReply (service_name : String)
  | sendTarget (service_name : String) (handover : Handover) (pair : Nat) (after : After)
  | sendInitiator (service_name : String) (after : After)
  | finished (service_name : Option String)
  deriving DecidableEq

def Phase.holdsLock : Phase → Bool
  | .connectReply _ => true
  | .sendTarget .. => true
  | .sendInitiator .. => true
  | _ => false

structure Task where
  credentials : UCred
  phase : Phase
  deriving DecidableEq

/-- `Hub::run`: selecting, or in the arm of a disconnected client, waiting for the context. -/
inductive MainLoop
  | selecting
  | disconnected (conn : Conn) (service_name : String)
  | stopped
  | crashed
  deriving DecidableEq

/-- `clock` numbers connections, requests and socket pairs. -/
structure Hub where
  context : HubContext
  lock : Option Conn
  tasks : Table Conn Task
  main : MainLoop
  files : FileSystem
  clock : Nat

def Hub.new (additional_service_dirs : List OsString) (files : FileSystem) : Hub where
  context := ⟨.empty, .empty, .new additional_service_dirs⟩
  lock := none
  tasks := .empty
  main := .selecting
  files := files
  clock := 0

inductive Input
  | polled (message : Option Message)
  | sent (ok : Bool)
  | elapsed
  | locked
  deriving DecidableEq

structure Progress where
  phase : Phase
  context : HubContext
  events : List Event

/-- `authorize` from `match request.take_body()` on. -/
def authorizeBody (env : HubEnvironment) (request : RpcRequest) : Phase × List Event :=
  match request.body with
  | .call (.ok (.register service_name)) => (.registerLock service_name request, [])
  | .call (.ok message) => (.authErrorReply,
      [.responded request (.err (.internalError ("Invalid register message body: " ++ env.debug message)))])
  | .call (.error text) => (.authErrorReply, [.responded request (.err (.internalError text))])
  | .notCall => (.authErrorReply, [.responded request
      (.err (.internalError "Waiting for a registration message. Received a call"))])

def clientBody (env : HubEnvironment) (service_name : String) (request : RpcRequest) : Phase × List Event :=
  match request.body with
  | .call (.ok (.connect peer_service_name wait)) =>
    (.connectLock service_name peer_service_name request wait, [])
  | .call (.ok message) => (.clientErrorReply service_name,
      [.responded request (.err (.internalError ("Invalid connection message body: " ++ env.debug message)))])
  | .call (.error text) => (.clientErrorReply service_name,
      [.responded request (.err (.internalError text))])
  | .notCall => (.finished (some service_name), [])

/-- `handle_auth_request` from the lock on, with the answer that `authorize` sends. `none` is a
    panic of the permission check. -/
def handleAuthRequest (env : HubEnvironment) (hub : Hub) (conn : Conn) (credentials : UCred)
    (service_name : String) (request : RpcRequest) : Option Progress :=
  if hub.context.client_registry.containsKey service_name then
    some ⟨.authErrorReply, hub.context, [.responded request (.err .alreadyRegistered)]⟩
  else
    match (hub.context.permissions.checkServiceNameAllowed env.toEnvironment credentials service_name
      hub.files).1 with
    | none => none
    | some false => some ⟨.authErrorReply, hub.context,
        [.nameChecked conn credentials service_name false, .responded request (.err .notAllowed)]⟩
    | some true => some ⟨.registerReply service_name,
        { hub.context with
          client_registry := hub.context.client_registry.insert service_name request.writer },
        [.nameChecked conn credentials service_name true, .registered service_name request.writer,
          .responded request .ok]⟩

def sendConnectionDescriptors (env : HubEnvironment) (clock : Nat) (service_name : String)
    (handover : Handover) (after : After) : Phase × List Event :=
  match env.socketPair clock with
  | .ok _ => (.sendTarget service_name handover clock after,
      [.connectionRequest handover.writer handover.initiator handover.target clock handover.request])
  | .error text => (.sendInitiator service_name after,
      [.responded handover.request (.err (.internalError text))])

def resolveWaiters (env : HubEnvironment) (clock : Nat) (service_name : String) (stream : RpcWriter) :
    List (String × RpcRequest) → Phase × List Event
  | [] => (.clientPoll service_name, [])
  | (initiator, request) :: rest =>
    sendConnectionDescriptors env clock service_name ⟨initiator, request, service_name, stream⟩
      (.resolve rest)

/-- `resolve_pending_connections` from the lock on. -/
def resolvePendingConnections (env : HubEnvironment) (hub : Hub) (service_name : String)
    (stream : RpcWriter) : Progress :=
  match hub.context.pending_connections.get service_name with
  | none => ⟨.clientPoll service_name, hub.context, []⟩
  | some waiters =>
    let (phase, events) := resolveWaiters env hub.clock service_name stream waiters
    ⟨phase, { hub.context with
      pending_connections := hub.context.pending_connections.remove service_name }, events⟩

/-- `handle_connection_request` from the lock on. `none` is a panic of the permission check. -/
def handleConnectionRequest (env : HubEnvironment) (hub : Hub) (service_name target_service : String)
    (request : RpcRequest) (add_pending : Bool) : Option Progress :=
  match (hub.context.permissions.checkConnectionAllowed env.toEnvironment service_name target_service
    hub.files).1 with
  | none => none
  | some false => some ⟨.connectReply service_name, hub.context,
      [.connectionChecked request service_name target_service false,
        .responded request (.err .notAllowed)]⟩
  | some true =>
    match hub.context.client_registry.get target_service with
    | some target_writer =>
      let (phase, events) := sendConnectionDescriptors env hub.clock service_name
        ⟨service_name, request, target_service, target_writer⟩ .loop
      some ⟨phase, hub.context,
        .connectionChecked request service_name target_service true :: events⟩
    | none =>
      if !add_pending then some ⟨.connectReply service_name, hub.context,
        [.connectionChecked request service_name target_service true,
          .responded request (.err .serviceNotFound)]⟩
      else if !(hub.context.permissions.checkServiceExists target_service hub.files).1 then
        some ⟨.connectReply service_name, hub.context,
          [.connectionChecked request service_name target_service true,
            .responded request (.err .serviceNotFound)]⟩
      else some ⟨.clientPoll service_name,
        { hub.context with
          pending_connections := hub.context.pending_connections.insert target_service
            ((hub.context.pending_connections.get target_service).getD [] ++ [(service_name, request)]) },
        [.connectionChecked request service_name target_service true,
          .queued target_service service_name request]⟩

/-- A task runs from one await to the next. The outer `none` says that the input does not end the
    await, the inner one that the code panics. -/
def resume (env : HubEnvironment) (hub : Hub) (conn : Conn) (task : Task) :
    Input → Option (Option Progress)
  | .polled none =>
    match task.phase with
    | .authPoll => some (some ⟨.finished none, hub.context, []⟩)
    | .clientPoll service_name => some (some ⟨.finished (some service_name), hub.context, []⟩)
    | _ => none
  | .polled (some message) =>
    let request := message.request hub.clock conn
    match task.phase with
    | .authPoll =>
      if request.endpoint ≠ hubRegisterMethod then
        some (some ⟨.authEndpointReply request, hub.context, [.received none request, .responded request
          (.err (.internalError ("Expected registration call from a client. Got " ++ request.endpoint)))]⟩)
      else
        let (phase, events) := authorizeBody env request
        some (some ⟨phase, hub.context, .received none request :: events⟩)
    | .clientPoll service_name =>
      if request.endpoint ≠ hubConnectMethod then
        some (some ⟨.clientEndpointReply service_name request, hub.context,
          [.received (some service_name) request, .responded request (.err (.internalError
            ("Expected only connection messages from a client. Got " ++ request.endpoint ++ " call")))]⟩)
      else
        let (phase, events) := clientBody env service_name request
        some (some ⟨phase, hub.context, .received (some service_name) request :: events⟩)
    | _ => none
  | .sent ok =>
    match task.phase with
    | .authEndpointReply request =>
      let (phase, events) := authorizeBody env request
      some (some ⟨phase, hub.context, events⟩)
    | .registerReply service_name => some (some ⟨.resolveSleep service_name, hub.context, []⟩)
    | .authErrorReply => some (some ⟨.authErrorFlush, hub.context, []⟩)
    | .authErrorFlush => some (some ⟨.finished none, hub.context, []⟩)
    | .clientEndpointReply service_name request =>
      let (phase, events) := clientBody env service_name request
      some (some ⟨phase, hub.context, events⟩)
    | .clientErrorReply service_name => some (some ⟨.finished (some service_name), hub.context, []⟩)
    | .connectReply service_name => some (some ⟨.clientPoll service_name, hub.context, []⟩)
    | .sendTarget service_name handover pair after =>
      some (some ⟨.sendInitiator service_name after, hub.context,
        [.responded handover.request (if ok then .fd pair else .err .peerDisconnected)]⟩)
    | .sendInitiator service_name .loop => some (some ⟨.clientPoll service_name, hub.context, []⟩)
    | .sendInitiator service_name (.resolve waiters) =>
      let (phase, events) := resolveWaiters env hub.clock service_name conn waiters
      some (some ⟨phase, hub.context, events⟩)
    | _ => none
  | .elapsed =>
    match task.phase with
    | .resolveSleep service_name => some (some ⟨.resolveLock service_name, hub.context, []⟩)
    | _ => none
  | .locked =>
    if hub.lock ≠ none then none
    else match task.phase with
      | .registerLock service_name request =>
        some (handleAuthRequest env hub conn task.credentials service_name request)
      | .resolveLock service_name => some (some (resolvePendingConnections env hub service_name conn))
      | .connectLock service_name target request wait =>
        some (handleConnectionRequest env hub service_name target request wait)
      | _ => none

/-- The task enters its next phase. It owns the guard of the context exactly in the phases that
    hold the lock. -/
def Hub.advance (hub : Hub) (conn : Conn) (task : Task) (progress : Progress) : Hub :=
  { hub with
    context := progress.context
    lock := if progress.phase.holdsLock then some conn
      else if task.phase.holdsLock then none else hub.lock
    tasks := hub.tasks.insert conn { task with phase := progress.phase }
    clock := hub.clock + 1 }

inductive Action
  | accept (credentials : Option UCred)
  | task (conn : Conn) (input : Input)
  /-- `self.tasks.next()` yields the result of a finished task. -/
  | next (conn : Conn)
  /-- The main loop gets the context and removes the disconnected client. -/
  | removeClient
  | interrupt
  | editFiles (files : FileSystem)

/-- One step of the hub. Tasks are polled only by `self.tasks.next()`, that is while the main loop
    is selecting. -/
def step (env : HubEnvironment) : Transition.Step Hub Action Event
  | hub, .accept credentials =>
    if hub.main ≠ .selecting then none
    else match credentials with
      | none => some (hub, [])
      | some credentials => some ({ hub with
          tasks := hub.tasks.insert hub.clock ⟨credentials, .authPoll⟩
          clock := hub.clock + 1 }, [.accepted hub.clock credentials])
  | hub, .task conn input =>
    if hub.main ≠ .selecting then none
    else match hub.tasks.get conn with
      | none => none
      | some task =>
        match resume env hub conn task input with
        | none => none
        | some none => some ({ hub with main := .crashed }, [])
        | some (some progress) => some (hub.advance conn task progress, progress.events)
  | hub, .next conn =>
    if hub.main ≠ .selecting then none
    else match hub.tasks.get conn with
      | some ⟨_, .finished (some service_name)⟩ => some ({ hub with
          tasks := hub.tasks.remove conn
          main := .disconnected conn service_name }, [])
      | some ⟨_, .finished none⟩ => some ({ hub with tasks := hub.tasks.remove conn }, [])
      | _ => none
  | hub, .removeClient =>
    match hub.main with
    | .disconnected conn service_name =>
      if hub.lock ≠ none then none
      else some ({ hub with
        context := { hub.context with
          client_registry := hub.context.client_registry.remove service_name }
        main := .selecting }, [.removed service_name conn])
    | _ => none
  | hub, .interrupt => if hub.main ≠ .selecting then none else some ({ hub with main := .stopped }, [])
  | hub, .editFiles files => some ({ hub with files }, [])

abbrev Run (env : HubEnvironment) (additional_service_dirs : List OsString) (files : FileSystem) :
    List Event → Hub → Prop :=
  Transition.Run (step env) (Hub.new additional_service_dirs files)

end KrossbarHub
