import KrossbarBus.Hub.PendingConnections

namespace KrossbarHub

open Transition

variable {env : HubEnvironment} {hub after : Hub} {conn : Conn} {credentials : UCred} {phase : Phase}
  {input : Input} {progress : Progress} {action : Action} {out log before : List Event}
  {additional_service_dirs : List OsString} {files : FileSystem}

def Admitted (log : List Event) (service_name : String) (conn : Conn) : Prop :=
  ∃ credentials, .accepted conn credentials ∈ log ∧ .nameChecked conn credentials service_name true ∈ log

def registrantStep (service_name : String) (owner : Option Conn) : Event → Option Conn
  | .registered name writer => if name = service_name then some writer else owner
  | .removed name _ => if name = service_name then none else owner
  | _ => owner

def registrant (log : List Event) (service_name : String) : Option Conn :=
  log.foldl (registrantStep service_name) none

/-- Both sides of a connection were admitted under their names, the target is the one registered at
    the moment, and the very request was allowed. -/
structure Sanctioned (before : List Event) (writer : RpcWriter) (initiator target : String)
    (request : RpcRequest) : Prop where
  admitted : Admitted before initiator request.writer
  registered : registrant before target = some writer
  targetAdmitted : Admitted before target writer
  checked : .connectionChecked request initiator target true ∈ before

/-- Every connection request is sanctioned when it is sent, and still is when the other end of its
    socket pair goes to the requesting connection. -/
def Authorized (before : List Event) : Event → Prop
  | .connectionRequest writer initiator target _ request =>
    Sanctioned before writer initiator target request
  | .responded request (.fd pair) => ∃ writer initiator target,
    .connectionRequest writer initiator target pair request ∈ before ∧
      Sanctioned before writer initiator target request
  | _ => True

theorem Admitted.append {service_name : String} (admitted : Admitted log service_name conn)
    (out : List Event) : Admitted (log ++ out) service_name conn := by
  obtain ⟨credentials, accepted, checked⟩ := admitted
  exact ⟨credentials, List.mem_append_left out accepted, List.mem_append_left out checked⟩

theorem registrant_append (service_name : String) :
    registrant (log ++ out) service_name = out.foldl (registrantStep service_name) (registrant log service_name) :=
  List.foldl_append

theorem registrant_quiet {service_name : String} (unregistered : ∀ writer, .registered service_name writer ∉ out)
    (unremoved : ∀ conn, .removed service_name conn ∉ out) :
    registrant (log ++ out) service_name = registrant log service_name := by
  rw [registrant_append]
  generalize registrant log service_name = owner
  induction out generalizing owner with
  | nil => rfl
  | cons event rest ih =>
    have same : registrantStep service_name owner event = owner := by
      unfold registrantStep
      split
      · rename_i name writer
        split
        · rename_i equal
          subst equal
          exact absurd List.mem_cons_self (unregistered writer)
        · rfl
      · rename_i name conn
        split
        · rename_i equal
          subst equal
          exact absurd List.mem_cons_self (unremoved conn)
        · rfl
      · rfl
    rw [List.foldl_cons, same]
    exact ih (fun writer member => unregistered writer (List.mem_cons_of_mem event member))
      (fun conn member => unremoved conn (List.mem_cons_of_mem event member)) owner

theorem Sanctioned.append {writer : RpcWriter} {initiator target : String} {request : RpcRequest}
    (sanctioned : Sanctioned log writer initiator target request)
    (registered : registrant (log ++ out) target = some writer) :
    Sanctioned (log ++ out) writer initiator target request :=
  ⟨sanctioned.admitted.append out, registered, sanctioned.targetAdmitted.append out,
    List.mem_append_left out sanctioned.checked⟩

theorem Resumes.hands (resumes : Resumes env hub conn credentials phase input progress)
    {request : RpcRequest} {pair : Nat} (member : .responded request (.fd pair) ∈ progress.events) :
    ∃ service_name handover next, phase = .sendTarget service_name handover pair next ∧
      handover.request = request ∧ progress.events = [.responded request (.fd pair)] := by
  generalize which : Event.responded request (.fd pair) = event at member
  cases resumes.emits event member with
  | handed service_name handover number next ok was all =>
    cases ok with
    | false => simp at which
    | true =>
      simp only [↓reduceIte, Event.responded.injEq, Response.fd.injEq] at which
      obtain ⟨rfl, rfl⟩ := which
      exact ⟨service_name, handover, next, was, rfl, all⟩
  | answered other response handles plain =>
    obtain ⟨_, rfl⟩ := Event.responded.inj which
    exact absurd rfl (plain pair)
  | _ => simp at which

theorem Resumes.sending (resumes : Resumes env hub conn credentials phase input progress)
    {service_name : String} {handover : Handover} {pair : Nat} {next : After}
    (sends : progress.phase = .sendTarget service_name handover pair next) :
    .connectionRequest handover.writer handover.initiator handover.target pair handover.request ∈
      progress.events := by
  have sent : ∀ {clock service_name handover next phase events}, sendConnectionDescriptors env clock
      service_name handover next = (phase, events) → ∀ {name other number later},
      phase = .sendTarget name other number later →
      .connectionRequest other.writer other.initiator other.target number other.request ∈ events := by
    intro clock service_name handover next phase events made name other number later is
    rcases sendConnectionDescriptors_cases made with ⟨rfl, rfl⟩ | ⟨rfl, text, rfl⟩
    · cases is
      exact List.mem_singleton.mpr rfl
    · cases is
  cases resumes with
  | authReceived message right phase events body =>
    rcases authorizeBody_cases body with ⟨service_name, _, rfl, rfl⟩ | ⟨_, rfl, e, rfl⟩ <;> cases sends
  | authContinued request ok phase events body =>
    rcases authorizeBody_cases body with ⟨service_name, _, rfl, rfl⟩ | ⟨_, rfl, e, rfl⟩ <;> cases sends
  | clientReceived service_name message right phase events body =>
    rcases clientBody_cases body with ⟨target, wait, _, rfl, rfl⟩ | ⟨_, ⟨rfl, e, rfl⟩ | ⟨rfl, rfl⟩⟩ <;>
      cases sends
  | clientContinued service_name request ok phase events body =>
    rcases clientBody_cases body with ⟨target, wait, _, rfl, rfl⟩ | ⟨_, ⟨rfl, e, rfl⟩ | ⟨rfl, rfl⟩⟩ <;>
      cases sends
  | pendingTaken service_name free waiters waiting phase events batch =>
    rcases resolveWaiters_cases batch with ⟨rfl, rfl, rfl⟩ | ⟨initiator, request, rest, rfl, made⟩
    · cases sends
    · exact sent made sends
  | batchContinued service_name waiters ok phase events batch =>
    rcases resolveWaiters_cases batch with ⟨rfl, rfl, rfl⟩ | ⟨initiator, request, rest, rfl, made⟩
    · cases sends
    · exact sent made sends
  | connectRegistered service_name target request wait free allowed target_writer present phase events made =>
    exact List.mem_cons_of_mem _ (sent made sends)
  | _ => cases sends

structure Cleared (log : List Event) (target initiator : String) (request : RpcRequest) : Prop where
  admitted : Admitted log initiator request.writer
  checked : .connectionChecked request initiator target true ∈ log

theorem Cleared.append {target initiator : String} {request : RpcRequest}
    (cleared : Cleared log target initiator request) (out : List Event) :
    Cleared (log ++ out) target initiator request :=
  ⟨cleared.admitted.append out, List.mem_append_left out cleared.checked⟩

/-- Names, writers and requests stay together on all their ways through the hub. -/
structure Vetted (log : List Event) (hub : Hub) : Prop where
  credentials : ∀ conn task, hub.tasks.get conn = some task → .accepted conn task.credentials ∈ log
  single : ∀ conn first, .accepted conn first ∈ log →
    conn < hub.clock ∧ ∀ second, .accepted conn second ∈ log → first = second
  registry : ∀ service_name, hub.context.client_registry.get service_name = registrant log service_name
  admitted : ∀ service_name conn, .registered service_name conn ∈ log → Admitted log service_name conn
  waiting : ∀ target initiator request, (initiator, request) ∈ hub.context.waiters target →
    Cleared log target initiator request
  batched : ∀ conn task target initiator request, hub.tasks.get conn = some task →
    task.phase.registeredAs = some target → (initiator, request) ∈ task.phase.batch →
    Cleared log target initiator request
  sending : ∀ conn task service_name handover pair next, hub.tasks.get conn = some task →
    task.phase = .sendTarget service_name handover pair next →
    .connectionRequest handover.writer handover.initiator handover.target pair handover.request ∈ log ∧
      Sanctioned log handover.writer handover.initiator handover.target handover.request
  history : Justified Authorized log

theorem Vetted.initial (additional_service_dirs : List OsString) (files : FileSystem) :
    Vetted [] (Hub.new additional_service_dirs files) where
  credentials := by simp [Hub.new]
  single := by simp
  registry := by simp [Hub.new, registrant]
  admitted := by simp
  waiting := by simp [Hub.new, HubContext.waiters]
  batched := by simp [Hub.new]
  sending := by simp [Hub.new]
  history := justified_nil

theorem Vetted.silent (vetted : Vetted log hub) (clock : hub.clock ≤ after.clock)
    (context : after.context = hub.context)
    (tasks : ∀ conn task, after.tasks.get conn = some task → hub.tasks.get conn = some task) :
    Vetted log after := by
  refine ⟨?_, ?_, ?_, vetted.admitted, ?_, ?_, ?_, vetted.history⟩
  · intro conn task there
    exact vetted.credentials conn task (tasks conn task there)
  · intro conn first accepted
    obtain ⟨bound, same⟩ := vetted.single conn first accepted
    exact ⟨Nat.lt_of_lt_of_le bound clock, same⟩
  · rw [context]
    exact vetted.registry
  · rw [context]
    exact vetted.waiting
  · intro conn task target initiator request there
    exact vetted.batched conn task target initiator request (tasks conn task there)
  · intro conn task service_name handover pair next there
    exact vetted.sending conn task service_name handover pair next (tasks conn task there)

theorem Vetted.owner_admitted (vetted : Vetted log hub) (recorded : Recorded log hub)
    (consistent : hub.Consistent) {service_name : String}
    (entry : hub.context.client_registry.get service_name = some conn) : Admitted log service_name conn := by
  have owns := (consistent.registry service_name conn).mp entry
  exact vetted.admitted service_name conn (recorded.owned service_name conn owns).1

theorem Vetted.drawn_cleared (vetted : Vetted log hub) {task : Task}
    (present : hub.tasks.get conn = some task) {target initiator : String} {request : RpcRequest}
    (draws : Draws hub task.phase target (initiator, request)) : Cleared log target initiator request := by
  rcases draws.2 with batched | ⟨_, waiting⟩
  · exact vetted.batched conn task target initiator request present draws.1 batched
  · exact vetted.waiting target initiator request waiting

theorem Vetted.request_sanctioned (vetted : Vetted log hub) (recorded : Recorded log hub)
    (consistent : hub.Consistent) (selecting : hub.main = .selecting) {task : Task}
    (present : hub.tasks.get conn = some task)
    (resumes : Resumes env hub conn task.credentials task.phase input progress) {writer : RpcWriter}
    {initiator target : String} {pair : Nat} {request : RpcRequest}
    (member : .connectionRequest writer initiator target pair request ∈ progress.events) :
    ∃ before, progress.events = before ++ [.connectionRequest writer initiator target pair request] ∧
      (∀ event ∈ before, ∃ allowed, event = .connectionChecked request initiator target allowed) ∧
      Sanctioned (log ++ before) writer initiator target request := by
  have owner : ∀ {service_name}, task.phase.registeredAs = some service_name →
      hub.context.client_registry.get service_name = some conn := by
    intro service_name named
    rw [consistent.registry, owns_task selecting present]
    exact named
  cases resumes.emits _ member with
  | direct _ _ _ wait _ _ connects entry all =>
    have own : request.writer = conn := consistent.own conn task request present (by rw [connects]; rfl)
    refine ⟨[.connectionChecked request initiator target true], all, by simp, ?_, ?_, ?_, by simp⟩
    · rw [own]
      exact (vetted.owner_admitted recorded consistent (owner (by rw [connects]; rfl))).append _
    · rw [registrant_quiet (by simp) (by simp), ← vetted.registry]
      exact entry
    · exact (vetted.owner_admitted recorded consistent entry).append _
  | batched _ _ _ _ source all =>
    have cleared := vetted.drawn_cleared present source
    have entry := owner source.1
    refine ⟨[], all, by simp, ?_⟩
    rw [List.append_nil]
    exact ⟨cleared.admitted, by rw [← vetted.registry]; exact entry,
      vetted.owner_admitted recorded consistent entry, cleared.checked⟩

theorem Vetted.events_authorized (vetted : Vetted log hub) (recorded : Recorded log hub)
    (consistent : hub.Consistent) (selecting : hub.main = .selecting) {task : Task}
    (present : hub.tasks.get conn = some task)
    (resumes : Resumes env hub conn task.credentials task.phase input progress) :
    JustifiedAfter Authorized log progress.events := by
  by_cases sends : ∃ writer initiator target pair request,
      .connectionRequest writer initiator target pair request ∈ progress.events
  · obtain ⟨writer, initiator, target, pair, request, member⟩ := sends
    obtain ⟨before, all, checks, sanctioned⟩ :=
      vetted.request_sanctioned recorded consistent selecting present resumes member
    rw [all]
    apply JustifiedAfter.append
    · apply justifiedAfter_of_forall
      intro earlier event there
      obtain ⟨allowed, rfl⟩ := checks event there
      trivial
    · exact ⟨sanctioned, trivial⟩
  · by_cases hands : ∃ request pair, .responded request (.fd pair) ∈ progress.events
    · obtain ⟨request, pair, member⟩ := hands
      obtain ⟨service_name, handover, next, was, own, all⟩ := resumes.hands member
      rw [all]
      refine ⟨?_, trivial⟩
      have sent := vetted.sending conn task service_name handover pair next present was
      subst own
      exact ⟨handover.writer, handover.initiator, handover.target, sent⟩
    · apply justifiedAfter_of_forall
      intro earlier event member
      unfold Authorized
      split
      · rename_i writer initiator target pair request
        exact absurd ⟨writer, initiator, target, pair, request, member⟩ sends
      · rename_i request pair
        exact absurd ⟨request, pair, member⟩ hands
      · trivial

theorem Vetted.resume (vetted : Vetted log hub) (recorded : Recorded log hub)
    (consistent : hub.Consistent) (selecting : hub.main = .selecting) {task : Task}
    (present : hub.tasks.get conn = some task)
    (resumes : Resumes env hub conn task.credentials task.phase input progress) :
    Vetted (log ++ progress.events) (hub.advance conn task progress) := by
  have accepted := vetted.credentials conn task present
  have unaccepted : ∀ other credentials, .accepted other credentials ∈ log ++ progress.events →
      .accepted other credentials ∈ log := by
    intro other credentials member
    rcases List.mem_append.mp member with old | new
    · exact old
    · cases resumes.emits _ new
  have registry : ∀ service_name, progress.context.client_registry.get service_name =
      registrant (log ++ progress.events) service_name := by
    intro service_name
    rcases resumes.registration with ⟨_, same, unregistered⟩ | ⟨name, request, _, _, _, inserted, events⟩
    · rw [same, registrant_quiet (unregistered service_name) (resumes.not_removed service_name)]
      exact vetted.registry service_name
    · rw [inserted, events, registrant_append, Table.get_insert]
      simp [registrantStep, vetted.registry, eq_comm]
  have history := vetted.history.append
    (vetted.events_authorized recorded consistent selecting present resumes)
  refine ⟨?_, ?_, registry, ?_, ?_, ?_, ?_, history⟩
  · intro other next there
    apply List.mem_append_left
    rw [advance_get] at there
    split at there
    · rename_i same
      cases there
      rw [same]
      exact accepted
    · exact vetted.credentials other next there
  · intro other first member
    obtain ⟨bound, same⟩ := vetted.single other first (unaccepted other first member)
    exact ⟨Nat.lt_succ_of_lt bound, fun second later => same second (unaccepted other second later)⟩
  · intro service_name other member
    rcases List.mem_append.mp member with old | new
    · exact (vetted.admitted service_name other old).append _
    · cases resumes.emits _ new with
      | registered _ request was checked =>
        rw [consistent.own conn task request present (by rw [was]; rfl)]
        exact ⟨task.credentials, List.mem_append_left _ accepted, List.mem_append_right _ checked⟩
  · intro target initiator request member
    rcases resumes.queues.waiting member with old | ⟨⟨wait, connects⟩, events⟩
    · exact (vetted.waiting target initiator request old).append _
    · have entry : hub.context.client_registry.get initiator = some conn := by
        rw [consistent.registry, owns_task selecting present, connects]
        rfl
      refine ⟨?_, by simp [events]⟩
      rw [consistent.own conn task request present (by rw [connects]; rfl)]
      exact (vetted.owner_admitted recorded consistent entry).append _
  · intro other next target initiator request there named member
    rw [advance_get] at there
    split at there
    · cases there
      apply Cleared.append
      have kept : task.phase.registeredAs = some target := by
        rcases resumes.registration with ⟨kept, _⟩ | ⟨name, own, _, now, _⟩
        · rw [← kept]
          exact named
        · rw [now] at member
          cases member
      rcases resumes.queues.batched member with old | ⟨service_name, was, waiting⟩
      · exact vetted.batched conn task target initiator request present kept old
      · rw [was] at kept
        cases kept
        exact vetted.waiting target initiator request waiting
    · exact (vetted.batched other next target initiator request there named member).append _
  · intro other next service_name handover pair later there sends
    rw [advance_get] at there
    split at there
    · cases there
      have member := resumes.sending sends
      obtain ⟨before, all, _, sanctioned⟩ :=
        vetted.request_sanctioned recorded consistent selecting present resumes member
      refine ⟨List.mem_append_right _ member, ?_⟩
      rw [all, ← List.append_assoc]
      apply sanctioned.append
      rw [registrant_quiet (by simp) (by simp)]
      exact sanctioned.registered
    · obtain ⟨member, sanctioned⟩ := vetted.sending other next service_name handover pair later there sends
      refine ⟨List.mem_append_left _ member, sanctioned.append ?_⟩
      rw [← registry]
      apply resumes.entry_kept
      rw [vetted.registry]
      exact sanctioned.registered

theorem Vetted.accept (vetted : Vetted log hub) (credentials : UCred) :
    Vetted (log ++ [.accepted hub.clock credentials]) { hub with
      tasks := hub.tasks.insert hub.clock ⟨credentials, .authPoll⟩
      clock := hub.clock + 1 } := by
  have registry : ∀ service_name,
      registrant (log ++ [.accepted hub.clock credentials]) service_name = registrant log service_name :=
    fun service_name => registrant_quiet (by simp) (by simp)
  refine ⟨?_, ?_, ?_, ?_, ?_, ?_, ?_, vetted.history.append ⟨trivial, trivial⟩⟩
  · apply Table.forall_insert
    · simp
    · exact fun conn task there => List.mem_append_left _ (vetted.credentials conn task there)
  · intro conn first member
    rcases List.mem_append.mp member with old | new
    · obtain ⟨bound, same⟩ := vetted.single conn first old
      refine ⟨Nat.lt_succ_of_lt bound, ?_⟩
      intro second later
      rcases List.mem_append.mp later with older | newer
      · exact same second older
      · cases List.mem_singleton.mp newer
        exact absurd bound (Nat.lt_irrefl _)
    · cases List.mem_singleton.mp new
      refine ⟨Nat.lt_succ_self _, ?_⟩
      intro second later
      rcases List.mem_append.mp later with older | newer
      · exact absurd (vetted.single _ second older).1 (Nat.lt_irrefl _)
      · cases List.mem_singleton.mp newer
        rfl
  · intro service_name
    rw [registry]
    exact vetted.registry service_name
  · intro service_name conn member
    have old : .registered service_name conn ∈ log := by simpa using member
    exact (vetted.admitted service_name conn old).append _
  · intro target initiator request member
    exact (vetted.waiting target initiator request member).append _
  · intro conn task target initiator request there named member
    rw [Table.get_insert] at there
    split at there
    · cases there
      cases member
    · exact (vetted.batched conn task target initiator request there named member).append _
  · intro conn task service_name handover pair next there sends
    rw [Table.get_insert] at there
    split at there
    · cases there
      cases sends
    · obtain ⟨member, sanctioned⟩ := vetted.sending conn task service_name handover pair next there sends
      refine ⟨List.mem_append_left _ member, sanctioned.append ?_⟩
      rw [registry]
      exact sanctioned.registered

theorem Vetted.remove (vetted : Vetted log hub) (consistent : hub.Consistent) (service_name : String)
    (free : hub.lock = none) :
    Vetted (log ++ [.removed service_name conn]) { hub with
      context := { hub.context with
        client_registry := hub.context.client_registry.remove service_name }
      main := .selecting } := by
  refine ⟨?_, ?_, ?_, ?_, ?_, ?_, ?_, vetted.history.append ⟨trivial, trivial⟩⟩
  · intro other task there
    exact List.mem_append_left _ (vetted.credentials other task there)
  · intro other first member
    obtain ⟨bound, same⟩ := vetted.single other first (by simpa using member)
    exact ⟨bound, fun second later => same second (by simpa using later)⟩
  · intro name
    rw [registrant_append, Table.get_remove]
    simp [registrantStep, vetted.registry, eq_comm]
  · intro name other member
    exact (vetted.admitted name other (by simpa using member)).append _
  · intro target initiator request member
    exact (vetted.waiting target initiator request member).append _
  · intro other task target initiator request there named member
    exact (vetted.batched other task target initiator request there named member).append _
  · intro other task name handover pair next there sends
    -- a task that sends owns the lock
    have idle : task.phase.holdsLock = false := consistent.lock.idle free there
    rw [sends] at idle
    cases idle

theorem Vetted.preserved (vetted : Vetted log hub) (recorded : Recorded log hub)
    (consistent : hub.Consistent) (taken : step env hub action = some (after, out)) :
    Vetted (log ++ out) after := by
  have silent : ∀ after : Hub, hub.clock ≤ after.clock → after.context = hub.context →
      (∀ conn task, after.tasks.get conn = some task → hub.tasks.get conn = some task) →
      Vetted (log ++ []) after := by
    intro after clock context tasks
    rw [List.append_nil]
    exact vetted.silent clock context tasks
  cases step_cases taken with
  | accepted credentials selecting => exact vetted.accept credentials
  | resumed conn task input progress selecting present resumes =>
    exact vetted.resume recorded consistent selecting present resumes
  | disconnected conn credentials service_name selecting present =>
    exact silent _ (Nat.le_refl _) rfl fun _ _ there => Table.get_of_remove there
  | anonymousDisconnected conn credentials selecting present =>
    exact silent _ (Nat.le_refl _) rfl fun _ _ there => Table.get_of_remove there
  | removed conn service_name reaping free => exact vetted.remove consistent service_name free
  | _ => exact silent _ (Nat.le_refl _) rfl fun _ _ there => there

theorem run_vetted (run : Run env additional_service_dirs files log hub) : Vetted log hub :=
  run.invariant (Vetted.initial additional_service_dirs files) fun _ _ _ _ _ before vetted _ taken =>
    vetted.preserved (run_recorded before) (run_consistent before) taken

/-- What a step logs about its checks is what the checks gave for the files of the moment, for the
    credentials and the request of the task that makes the step. -/
def Truthful (env : HubEnvironment) (hub : Hub) : Event → Prop
  | .nameChecked conn credentials service_name allowed =>
    (∃ task, hub.tasks.get conn = some task ∧ task.credentials = credentials) ∧
      (hub.context.permissions.checkServiceNameAllowed env.toEnvironment credentials service_name
        hub.files).1 = some allowed
  | .connectionChecked request initiator target allowed =>
    (∃ task wait, hub.tasks.get request.writer = some task ∧
      task.phase = .connectLock initiator target request wait) ∧
      (hub.context.permissions.checkConnectionAllowed env.toEnvironment initiator target
        hub.files).1 = some allowed
  | _ => True

theorem step_truthful (consistent : hub.Consistent) (taken : step env hub action = some (after, out)) :
    ∀ event ∈ out, Truthful env hub event := by
  intro event member
  cases step_cases taken with
  | resumed conn task input progress selecting present resumes =>
    cases resumes.emits event member with
    | nameChecked service_name request allowed was result =>
      exact ⟨⟨task, present, rfl⟩, result⟩
    | connectionChecked service_name target request wait allowed was result =>
      refine ⟨⟨task, wait, ?_, was⟩, result⟩
      rw [consistent.own conn task request present (by rw [was]; rfl)]
      exact present
    | _ => trivial
  | accepted credentials selecting =>
    cases List.mem_singleton.mp member
    trivial
  | removed conn service_name reaping free =>
    cases List.mem_singleton.mp member
    trivial
  | _ => cases member

/-- Every socket pair joins a connection that was admitted as the initiator with the one registered
    as the target, after the very request passed the check of the service file. -/
theorem sockets_authorized (run : Run env additional_service_dirs files log hub) :
    Justified Authorized log ∧
    (∀ service_name, hub.context.client_registry.get service_name = registrant log service_name) ∧
    (∀ conn first second, .accepted conn first ∈ log → .accepted conn second ∈ log → first = second) ∧
    ∀ action after out, step env hub action = some (after, out) → ∀ event ∈ out, Truthful env hub event := by
  have vetted := run_vetted run
  refine ⟨vetted.history, vetted.registry, ?_, ?_⟩
  · intro conn first second accepted again
    exact (vetted.single conn first accepted).2 second again
  · intro action after out taken
    exact step_truthful (run_consistent run) taken

theorem sockets_authorized_handover : ∃ log hub,
    Run openEnvironment [] (openFiles ["com.a", "com.b"]) log hub ∧
    ∃ request pair, .responded request (.fd pair) ∈ log ∧
      ∃ before, Authorized before (.responded request (.fd pair)) := by
  obtain ⟨log, hub, run, handed⟩ := exists_run_of_execute (step openEnvironment)
    (Hub.new [] (openFiles ["com.a", "com.b"]))
    (registering 0 "com.a" ++ registering 6 "com.b" ++ connecting 0 "com.b" false ++ [.task 0 (.sent true)])
    (fun log _ => log.any (· == .responded ⟨12, 0, 1, hubConnectMethod, .call (.ok (.connect "com.b" false))⟩
      (.fd 13))) (by decide +kernel)
  obtain ⟨event, member, same⟩ := List.any_eq_true.mp handed
  rw [beq_iff_eq.mp same] at member
  obtain ⟨before, later, split⟩ := List.append_of_mem member
  exact ⟨log, hub, run, _, _, member, before, (sockets_authorized run).1 before _ later split⟩

end KrossbarHub
