import KrossbarBus.Collections.Mutex
import KrossbarBus.Hub.Steps

namespace KrossbarHub

def Phase.registeredAs : Phase → Option String
  | .registerReply service_name => some service_name
  | .resolveSleep service_name => some service_name
  | .resolveLock service_name => some service_name
  | .clientPoll service_name => some service_name
  | .clientEndpointReply service_name _ => some service_name
  | .clientErrorReply service_name => some service_name
  | .connectLock service_name .. => some service_name
  | .connectReply service_name => some service_name
  | .sendTarget service_name .. => some service_name
  | .sendInitiator service_name _ => some service_name
  | .finished service_name => service_name
  | _ => none

/-- The request of its own client that a task is processing. -/
def Phase.processing : Phase → Option RpcRequest
  | .authEndpointReply request => some request
  | .registerLock _ request => some request
  | .clientEndpointReply _ request => some request
  | .connectLock _ _ request _ => some request
  | .sendTarget _ handover _ .loop => some handover.request
  | _ => none

variable {env : HubEnvironment} {hub after : Hub} {conn : Conn} {credentials : UCred} {phase : Phase}
  {input : Input} {progress : Progress} {out log : List Event} {action : Action}

theorem sendConnectionDescriptors_phase {clock : Nat} {service_name : String} {handover : Handover}
    {next : After} {events : List Event}
    (pair : sendConnectionDescriptors env clock service_name handover next = (phase, events)) :
    phase.holdsLock = true ∧ phase.registeredAs = some service_name ∧
      (∀ name writer, .registered name writer ∉ events) ∧ ∀ name conn, .removed name conn ∉ events := by
  rcases sendConnectionDescriptors_cases pair with ⟨rfl, rfl⟩ | ⟨rfl, text, rfl⟩
  · simp [Phase.holdsLock, Phase.registeredAs]
  · simp [Phase.holdsLock, Phase.registeredAs]

theorem resolveWaiters_phase {clock : Nat} {service_name : String} {stream : RpcWriter}
    {waiters : List (String × RpcRequest)} {events : List Event}
    (batch : resolveWaiters env clock service_name stream waiters = (phase, events)) :
    phase.registeredAs = some service_name ∧
      (∀ name writer, .registered name writer ∉ events) ∧ ∀ name conn, .removed name conn ∉ events := by
  rcases resolveWaiters_cases batch with ⟨rfl, rfl, rfl⟩ | ⟨initiator, request, rest, rfl, pair⟩
  · simp [Phase.registeredAs]
  · exact (sendConnectionDescriptors_phase pair).2

theorem authorizeBody_phase {request : RpcRequest} {events : List Event}
    (body : authorizeBody env request = (phase, events)) :
    phase.holdsLock = false ∧ phase.registeredAs = none ∧
      (∀ name writer, .registered name writer ∉ events) ∧ ∀ name conn, .removed name conn ∉ events := by
  rcases authorizeBody_cases body with ⟨service_name, _, rfl, rfl⟩ | ⟨_, rfl, e, rfl⟩
  · simp [Phase.holdsLock, Phase.registeredAs]
  · simp [Phase.holdsLock, Phase.registeredAs]

theorem clientBody_phase {service_name : String} {request : RpcRequest} {events : List Event}
    (body : clientBody env service_name request = (phase, events)) :
    phase.holdsLock = false ∧ phase.registeredAs = some service_name ∧
      (∀ name writer, .registered name writer ∉ events) ∧ ∀ name conn, .removed name conn ∉ events := by
  rcases clientBody_cases body with ⟨target, wait, _, rfl, rfl⟩ | ⟨_, ⟨rfl, e, rfl⟩ | ⟨rfl, rfl⟩⟩
  · simp [Phase.holdsLock, Phase.registeredAs]
  · simp [Phase.holdsLock, Phase.registeredAs]
  · simp [Phase.holdsLock, Phase.registeredAs]

theorem Resumes.registration (resumes : Resumes env hub conn credentials phase input progress) :
    (progress.phase.registeredAs = phase.registeredAs ∧
      progress.context.client_registry = hub.context.client_registry ∧
      ∀ name writer, .registered name writer ∉ progress.events) ∨
    ∃ service_name request, phase = .registerLock service_name request ∧
      progress.phase = .registerReply service_name ∧
      hub.context.client_registry.get service_name = none ∧
      progress.context.client_registry = hub.context.client_registry.insert service_name request.writer ∧
      progress.events = [.nameChecked conn credentials service_name true,
        .registered service_name request.writer, .responded request .ok] := by
  cases resumes with
  | registrationAllowed service_name request free absent allowed =>
    exact .inr ⟨service_name, request, rfl, rfl, absent, rfl, rfl⟩
  | authReceived message right phase events body =>
    have shape := authorizeBody_phase body
    exact .inl ⟨shape.2.1, rfl, by simp [shape.2.2.1]⟩
  | authContinued request ok phase events body =>
    have shape := authorizeBody_phase body
    exact .inl ⟨shape.2.1, rfl, shape.2.2.1⟩
  | pendingTaken service_name free waiters waiting phase events batch =>
    have shape := resolveWaiters_phase batch
    exact .inl ⟨shape.1, rfl, shape.2.1⟩
  | batchContinued service_name waiters ok phase events batch =>
    have shape := resolveWaiters_phase batch
    exact .inl ⟨shape.1, rfl, shape.2.1⟩
  | clientReceived service_name message right phase events body =>
    have shape := clientBody_phase body
    exact .inl ⟨shape.2.1, rfl, by simp [shape.2.2.1]⟩
  | clientContinued service_name request ok phase events body =>
    have shape := clientBody_phase body
    exact .inl ⟨shape.2.1, rfl, shape.2.2.1⟩
  | connectRegistered service_name target request wait free allowed target_writer present phase events pair =>
    have shape := sendConnectionDescriptors_phase pair
    exact .inl ⟨shape.2.1, rfl, by simp [shape.2.2.1]⟩
  | _ => exact .inl ⟨rfl, rfl, by simp⟩

theorem Resumes.entry_kept (resumes : Resumes env hub conn credentials phase input progress)
    {service_name : String} {owner : Conn}
    (entry : hub.context.client_registry.get service_name = some owner) :
    progress.context.client_registry.get service_name = some owner := by
  rcases resumes.registration with ⟨_, registry, _⟩ | ⟨name, request, _, _, absent, registry, _⟩
  · rw [registry]
    exact entry
  · rw [registry, Table.get_insert]
    split
    · rename_i same
      rw [same, absent] at entry
      cases entry
    · exact entry

theorem Resumes.not_removed (resumes : Resumes env hub conn credentials phase input progress)
    (name : String) (other : Conn) : .removed name other ∉ progress.events := by
  cases resumes with
  | authReceived message right phase events body => simp [(authorizeBody_phase body).2.2.2]
  | authContinued request ok phase events body => exact (authorizeBody_phase body).2.2.2 name other
  | pendingTaken service_name free waiters waiting phase events batch =>
    exact (resolveWaiters_phase batch).2.2 name other
  | batchContinued service_name waiters ok phase events batch =>
    exact (resolveWaiters_phase batch).2.2 name other
  | clientReceived service_name message right phase events body => simp [(clientBody_phase body).2.2.2]
  | clientContinued service_name request ok phase events body => exact (clientBody_phase body).2.2.2 name other
  | connectRegistered service_name target request wait free allowed target_writer present phase events pair =>
    simp [(sendConnectionDescriptors_phase pair).2.2.2]
  | _ => simp

theorem Resumes.locks (resumes : Resumes env hub conn credentials phase input progress)
    (holds : progress.phase.holdsLock = true) : hub.lock = none ∨ phase.holdsLock = true := by
  cases resumes with
  | authReceived message right phase events body => simp [(authorizeBody_phase body).1] at holds
  | authContinued request ok phase events body => simp [(authorizeBody_phase body).1] at holds
  | clientReceived service_name message right phase events body => simp [(clientBody_phase body).1] at holds
  | clientContinued service_name request ok phase events body => simp [(clientBody_phase body).1] at holds
  | pendingTaken service_name free waiters waiting phase events batch => exact .inl free
  | batchContinued service_name waiters ok phase events batch => exact .inr rfl
  | connectDenied service_name target request wait free denied => exact .inl free
  | connectRegistered service_name target request wait free allowed target_writer present phase events pair =>
    exact .inl free
  | connectNotFound service_name target request wait free allowed absent hopeless => exact .inl free
  | targetSent service_name handover pair after ok => exact .inr rfl
  | _ => simp [Phase.holdsLock] at holds

/-- A task goes on with the request it processes, or has just received a new one. -/
theorem Resumes.processes (resumes : Resumes env hub conn credentials phase input progress)
    {request : RpcRequest} (processes : progress.phase.processing = some request) :
    phase.processing = some request ∨
      ∃ message, input = .polled (some message) ∧ request = Message.request message hub.clock conn := by
  cases resumes with
  | authRefused message wrong e => exact .inr ⟨message, rfl, (Option.some.inj processes).symm⟩
  | authReceived message right phase events body =>
    rcases authorizeBody_cases body with ⟨service_name, _, rfl, _⟩ | ⟨_, rfl, _⟩
    · exact .inr ⟨message, rfl, (Option.some.inj processes).symm⟩
    · cases processes
  | authContinued request ok phase events body =>
    rcases authorizeBody_cases body with ⟨service_name, _, rfl, _⟩ | ⟨_, rfl, _⟩
    · exact .inl processes
    · cases processes
  | clientRefused service_name message wrong e =>
    exact .inr ⟨message, rfl, (Option.some.inj processes).symm⟩
  | clientReceived service_name message right phase events body =>
    rcases clientBody_cases body with ⟨target, wait, _, rfl, _⟩ | ⟨_, ⟨rfl, _⟩ | ⟨rfl, _⟩⟩
    · exact .inr ⟨message, rfl, (Option.some.inj processes).symm⟩
    · cases processes
    · cases processes
  | clientContinued service_name request ok phase events body =>
    rcases clientBody_cases body with ⟨target, wait, _, rfl, _⟩ | ⟨_, ⟨rfl, _⟩ | ⟨rfl, _⟩⟩
    · exact .inl processes
    · cases processes
    · cases processes
  | connectRegistered service_name target request wait free allowed target_writer present phase events pair =>
    rcases sendConnectionDescriptors_cases pair with ⟨rfl, _⟩ | ⟨rfl, _⟩
    · exact .inl processes
    · cases processes
  | pendingTaken service_name free waiters waiting phase events batch =>
    rcases resolveWaiters_cases batch with ⟨_, rfl, _⟩ | ⟨initiator, request, rest, _, pair⟩
    · cases processes
    · rcases sendConnectionDescriptors_cases pair with ⟨rfl, _⟩ | ⟨rfl, _⟩ <;> cases processes
  | batchContinued service_name waiters ok phase events batch =>
    rcases resolveWaiters_cases batch with ⟨_, rfl, _⟩ | ⟨initiator, request, rest, _, pair⟩
    · cases processes
    · rcases sendConnectionDescriptors_cases pair with ⟨rfl, _⟩ | ⟨rfl, _⟩ <;> cases processes
  | _ => cases processes

/-- The connection is authorized under the name and its finished task has not been reaped. -/
def Hub.Owns (hub : Hub) (service_name : String) (conn : Conn) : Prop :=
  (∃ task, hub.tasks.get conn = some task ∧ task.phase.registeredAs = some service_name) ∨
    hub.main = .disconnected conn service_name

@[simp] theorem advance_get (hub : Hub) (conn other : Conn) (task : Task) (progress : Progress) :
    (hub.advance conn task progress).tasks.get other =
      if other = conn then some { task with phase := progress.phase } else hub.tasks.get other :=
  Table.get_insert

@[simp] theorem advance_main (hub : Hub) (conn : Conn) (task : Task) (progress : Progress) :
    (hub.advance conn task progress).main = hub.main := rfl

@[simp] theorem advance_clock (hub : Hub) (conn : Conn) (task : Task) (progress : Progress) :
    (hub.advance conn task progress).clock = hub.clock + 1 := rfl

@[simp] theorem advance_context (hub : Hub) (conn : Conn) (task : Task) (progress : Progress) :
    (hub.advance conn task progress).context = progress.context := rfl

/-- The lock belongs to the task in a locked send, and the registry to the authorized tasks. -/
structure Hub.Consistent (hub : Hub) : Prop where
  fresh : ∀ conn task, hub.tasks.get conn = some task → conn < hub.clock
  reaping : ∀ conn service_name, hub.main = .disconnected conn service_name →
    conn < hub.clock ∧ hub.tasks.get conn = none
  own : ∀ conn task request, hub.tasks.get conn = some task →
    task.phase.processing = some request → request.writer = conn
  lock : hub.tasks.Guards (fun task => task.phase.holdsLock) hub.lock
  registry : ∀ service_name conn,
    hub.context.client_registry.get service_name = some conn ↔ hub.Owns service_name conn

theorem Hub.Consistent.initial (additional_service_dirs : List OsString) (files : FileSystem) :
    (Hub.new additional_service_dirs files).Consistent where
  fresh := by simp [Hub.new]
  reaping := by simp [Hub.new]
  own := by simp [Hub.new]
  lock := by simp [Hub.new, Table.Guards]
  registry := by simp [Hub.new, Hub.Owns]

theorem owns_advance (hub : Hub) (conn other : Conn) (task : Task) (progress : Progress)
    (selecting : hub.main = .selecting) (service_name : String) :
    (hub.advance conn task progress).Owns service_name other ↔
      if other = conn then progress.phase.registeredAs = some service_name
      else hub.Owns service_name other := by
  by_cases same : other = conn
  · simp [Hub.Owns, same, selecting]
  · simp [Hub.Owns, same, selecting]

theorem owns_task (selecting : hub.main = .selecting) {task : Task}
    (present : hub.tasks.get conn = some task) (service_name : String) :
    hub.Owns service_name conn ↔ task.phase.registeredAs = some service_name := by
  simp [Hub.Owns, selecting, present]

theorem Hub.Consistent.advance_registry (consistent : hub.Consistent) (selecting : hub.main = .selecting)
    {task : Task} (present : hub.tasks.get conn = some task)
    (resumes : Resumes env hub conn task.credentials task.phase input progress) (service_name : String)
    (other : Conn) :
    progress.context.client_registry.get service_name = some other ↔
      (hub.advance conn task progress).Owns service_name other := by
  rw [owns_advance _ _ _ _ _ selecting]
  have old := consistent.registry service_name other
  rcases resumes.registration with ⟨named, registry, _⟩ | ⟨name, request, was, now, absent, registry, _⟩
  · rw [registry, named, old]
    split
    · rename_i same
      rw [same]
      exact owns_task selecting present service_name
    · rfl
  · have writer : request.writer = conn := consistent.own conn task request present (by rw [was]; rfl)
    rw [registry, writer, now, Table.get_insert]
    by_cases same : service_name = name
    · subst same
      have nobody : ¬ hub.Owns service_name other := by
        rw [← old, absent]
        simp
      by_cases self : other = conn
      · simp [self, Phase.registeredAs]
      · simp [self, nobody, Ne.symm self]
    · rw [if_neg same, old]
      by_cases self : other = conn
      · subst self
        rw [owns_task selecting present, was]
        simp [Phase.registeredAs, Ne.symm same]
      · simp [self]

theorem Hub.Consistent.accept (consistent : hub.Consistent) (selecting : hub.main = .selecting)
    (credentials : UCred) :
    Hub.Consistent { hub with
      tasks := hub.tasks.insert hub.clock ⟨credentials, .authPoll⟩
      clock := hub.clock + 1 } := by
  have unused : hub.tasks.get hub.clock = none := Table.fresh_absent consistent.fresh
  have others : ∀ conn task, (hub.tasks.insert hub.clock ⟨credentials, .authPoll⟩).get conn = some task →
      (conn = hub.clock ∧ task = ⟨credentials, .authPoll⟩) ∨ hub.tasks.get conn = some task := by
    intro conn task present
    rw [Table.get_insert] at present
    split at present
    · rename_i same
      exact .inl ⟨same, (Option.some.inj present).symm⟩
    · exact .inr present
  refine ⟨?_, ?_, ?_, ?_, ?_⟩
  · exact Table.fresh_next consistent.fresh
  · intro conn service_name reaping
    rw [selecting] at reaping
    cases reaping
  · intro conn task request present processes
    rcases others conn task present with ⟨_, same⟩ | old
    · rw [same] at processes
      cases processes
    · exact consistent.own conn task request old processes
  · exact consistent.lock.spawn unused rfl
  · intro service_name conn
    rw [consistent.registry service_name conn]
    simp only [Hub.Owns, Table.get_insert]
    by_cases same : conn = hub.clock
    · simp [same, unused, Phase.registeredAs]
    · simp [same]

theorem Hub.Consistent.resume (consistent : hub.Consistent) (selecting : hub.main = .selecting)
    {task : Task} (present : hub.tasks.get conn = some task)
    (resumes : Resumes env hub conn task.credentials task.phase input progress) :
    (hub.advance conn task progress).Consistent := by
  have lock : (hub.advance conn task progress).tasks.Guards (fun task => task.phase.holdsLock)
      (hub.advance conn task progress).lock := consistent.lock.move present _ resumes.locks
  refine ⟨?_, ?_, ?_, lock, consistent.advance_registry selecting present resumes⟩
  · intro other next there
    rw [advance_get] at there
    split at there
    · rename_i same
      rw [same]
      exact Nat.lt_succ_of_lt (consistent.fresh conn task present)
    · exact Nat.lt_succ_of_lt (consistent.fresh other next there)
  · intro other service_name reaping
    rw [advance_main, selecting] at reaping
    cases reaping
  · intro other next request there processes
    rw [advance_get] at there
    split at there
    · rename_i same
      rw [← Option.some.inj there] at processes
      rcases resumes.processes processes with old | ⟨message, _, rfl⟩
      · exact same ▸ consistent.own conn task request present old
      · exact same.symm
    · exact consistent.own other next request there processes

theorem Hub.Consistent.reap (consistent : hub.Consistent) (selecting : hub.main = .selecting)
    {result : Option String} (present : hub.tasks.get conn = some ⟨credentials, .finished result⟩)
    (main : MainLoop)
    (arm : main = match result with
      | some service_name => .disconnected conn service_name
      | none => .selecting) :
    Hub.Consistent { hub with tasks := hub.tasks.remove conn, main } := by
  refine ⟨?_, ?_, ?_, ?_, ?_⟩
  · exact Table.fresh_remove consistent.fresh
  · intro other service_name reaping
    have same : other = conn := by
      subst arm
      cases result with
      | none => cases reaping
      | some name => exact (MainLoop.disconnected.inj reaping).1.symm
    subst same
    exact ⟨consistent.fresh other _ present, Table.get_remove_self⟩
  · intro other task request there processes
    rw [Table.get_remove] at there
    split at there
    · cases there
    · exact consistent.own other task request there processes
  · exact consistent.lock.remove present rfl
  · intro service_name other
    rw [consistent.registry service_name other]
    simp only [Hub.Owns, Table.get_remove, selecting]
    by_cases same : other = conn
    · subst same
      cases result with
      | none => simp [arm, present, Phase.registeredAs]
      | some name => simp [arm, present, Phase.registeredAs]
    · cases result with
      | none => simp [arm, same]
      | some name => simp [arm, same, Ne.symm same]

theorem Hub.Consistent.remove (consistent : hub.Consistent) {service_name : String}
    (reaping : hub.main = .disconnected conn service_name) :
    Hub.Consistent { hub with
      context := { hub.context with
        client_registry := hub.context.client_registry.remove service_name }
      main := .selecting } := by
  refine ⟨consistent.fresh, by simp, consistent.own, consistent.lock, ?_⟩
  intro name other
  rw [Table.get_remove]
  split
  · rename_i same
    subst same
    have entry := (consistent.registry name conn).mpr (.inr reaping)
    have gone := (consistent.reaping conn name reaping).2
    simp only [Hub.Owns, reduceCtorEq, or_false, false_iff]
    intro owned
    have second := (consistent.registry name other).mpr (.inl owned)
    rw [entry] at second
    obtain ⟨task, there, _⟩ := owned
    rw [← Option.some.inj second, gone] at there
    cases there
  · rename_i different
    rw [consistent.registry name other]
    simp [Hub.Owns, reaping, Ne.symm different]

theorem Hub.Consistent.preserved (consistent : hub.Consistent)
    (taken : step env hub action = some (after, out)) : after.Consistent := by
  cases step_cases taken with
  | accepted credentials selecting => exact consistent.accept selecting credentials
  | acceptFailed selecting => exact consistent
  | resumed conn task input progress selecting present resumes =>
    exact consistent.resume selecting present resumes
  | crashed conn task input selecting present panics =>
    refine ⟨consistent.fresh, by simp, consistent.own, consistent.lock, ?_⟩
    intro service_name other
    rw [consistent.registry service_name other]
    simp [Hub.Owns, selecting]
  | disconnected conn credentials service_name selecting present =>
    exact consistent.reap selecting present _ rfl
  | anonymousDisconnected conn credentials selecting present =>
    exact consistent.reap selecting present hub.main selecting
  | removed conn service_name reaping free => exact consistent.remove reaping
  | interrupted selecting =>
    refine ⟨consistent.fresh, by simp, consistent.own, consistent.lock, ?_⟩
    intro service_name other
    rw [consistent.registry service_name other]
    simp [Hub.Owns, selecting]
  | filesEdited files =>
    exact ⟨consistent.fresh, consistent.reaping, consistent.own, consistent.lock, consistent.registry⟩

theorem run_consistent {additional_service_dirs : List OsString} {files : FileSystem}
    {allowed : Hub → Action → Prop}
    (run : Transition.RunWith (step env) allowed (Hub.new additional_service_dirs files) log hub) :
    hub.Consistent :=
  run.invariant (I := fun _ hub => hub.Consistent) (Hub.Consistent.initial additional_service_dirs files)
    fun _ _ _ _ _ _ consistent _ taken => consistent.preserved taken

end KrossbarHub
