import KrossbarBus.Hub.RequestLedger
import KrossbarBus.Hub.WaitingLine

namespace KrossbarHub

open Transition

variable {env : HubEnvironment} {hub after : Hub} {conn : Conn} {input : Input} {progress : Progress}
  {task : Task} {action : Action} {out log : List Event} {additional_service_dirs : List OsString}
  {files : FileSystem}

/-- Some task processes the request, which came from a connection with that name. -/
def Hub.busy (hub : Hub) (client : Option String) (request : RpcRequest) : Prop :=
  ∃ conn task, hub.tasks.get conn = some task ∧ task.phase.processing = some request ∧
    task.phase.registeredAs = client

def Hub.othersBusy (hub : Hub) (conn : Conn) (client : Option String) (request : RpcRequest) : Prop :=
  ∃ other task, other ≠ conn ∧ hub.tasks.get other = some task ∧ task.phase.processing = some request ∧
    task.phase.registeredAs = client

def Hub.requests (hub : Hub) (target : String) : List RpcRequest := (hub.line target).map Prod.snd

structure Accounted (log : List Event) (hub : Hub) : Prop where
  fresh : ∀ client request, .received client request ∈ log → request.number < hub.clock
  bodies : ∀ conn task service_name target request wait, hub.tasks.get conn = some task →
    task.phase = .connectLock service_name target request wait →
    request.body = .call (.ok (.connect target wait))
  ledger : Ledger log hub.requests hub.busy none

theorem busy_advance (client : Option String) (request : RpcRequest) :
    (hub.advance conn task progress).busy client request ↔ hub.othersBusy conn client request ∨
      progress.phase.processing = some request ∧ progress.phase.registeredAs = client := by
  constructor
  · intro busy
    obtain ⟨other, next, there, processes, named⟩ := busy
    rw [advance_get] at there
    split at there
    · cases there
      exact .inr ⟨processes, named⟩
    · rename_i different
      exact .inl ⟨other, next, different, there, processes, named⟩
  · intro either
    rcases either with ⟨other, next, different, there, processes, named⟩ | ⟨processes, named⟩
    · exact ⟨other, next, by simp [different, there], processes, named⟩
    · exact ⟨conn, { task with phase := progress.phase }, by simp, processes, named⟩

theorem busy_idle (present : hub.tasks.get conn = some task) (idle : task.phase.processing = none) :
    hub.busy = hub.othersBusy conn := by
  funext client request
  apply propext
  constructor
  · intro busy
    obtain ⟨other, next, there, processes, named⟩ := busy
    refine ⟨other, next, ?_, there, processes, named⟩
    intro same
    rw [same, present] at there
    cases there
    rw [idle] at processes
    cases processes
  · intro busy
    obtain ⟨other, next, _, there, processes, named⟩ := busy
    exact ⟨other, next, there, processes, named⟩

theorem busy_others (consistent : hub.Consistent) (present : hub.tasks.get conn = some task)
    {request : RpcRequest} (processes : task.phase.processing = some request) (client : Option String)
    (other : RpcRequest) :
    hub.othersBusy conn client other ↔ hub.busy client other ∧ other ≠ request := by
  have own := consistent.own conn task request present processes
  constructor
  · intro busy
    obtain ⟨elsewhere, next, different, there, processes', named⟩ := busy
    refine ⟨⟨elsewhere, next, there, processes', named⟩, ?_⟩
    intro same
    have writer := consistent.own elsewhere next other there processes'
    rw [same, own] at writer
    exact different writer.symm
  · intro busy
    obtain ⟨⟨elsewhere, next, there, processes', named⟩, different⟩ := busy
    refine ⟨elsewhere, next, ?_, there, processes', named⟩
    intro same
    rw [same, present] at there
    cases there
    rw [processes] at processes'
    exact different (Option.some.inj processes').symm

/-- The body of a request that waits for the lock is what its phase says. -/
def Phase.Decoded : Phase → Prop
  | .registerLock service_name request => request.body = .call (.ok (.register service_name))
  | .connectLock _ target request wait => request.body = .call (.ok (.connect target wait))
  | _ => True

theorem sendConnectionDescriptors_decoded {clock : Nat} {service_name : String} {handover : Handover}
    {next : After} {phase : Phase} {events : List Event}
    (made : sendConnectionDescriptors env clock service_name handover next = (phase, events)) : phase.Decoded := by
  rcases sendConnectionDescriptors_cases made with ⟨rfl, _⟩ | ⟨rfl, _⟩
  · trivial
  · trivial

theorem resolveWaiters_decoded {clock : Nat} {service_name : String} {stream : RpcWriter}
    {waiters : List (String × RpcRequest)} {phase : Phase} {events : List Event}
    (batch : resolveWaiters env clock service_name stream waiters = (phase, events)) : phase.Decoded := by
  rcases resolveWaiters_cases batch with ⟨_, rfl, _⟩ | ⟨initiator, request, rest, _, made⟩
  · trivial
  · exact sendConnectionDescriptors_decoded made

theorem authorizeBody_decoded {request : RpcRequest} {phase : Phase} {events : List Event}
    (body : authorizeBody env request = (phase, events)) : phase.Decoded := by
  rcases authorizeBody_cases body with ⟨service_name, decoded, rfl, _⟩ | ⟨_, rfl, _⟩
  · exact decoded
  · trivial

theorem clientBody_decoded {service_name : String} {request : RpcRequest} {phase : Phase} {events : List Event}
    (body : clientBody env service_name request = (phase, events)) : phase.Decoded := by
  rcases clientBody_cases body with ⟨target, wait, decoded, rfl, _⟩ | ⟨_, ⟨rfl, _⟩ | ⟨rfl, _⟩⟩
  · exact decoded
  · trivial
  · trivial

theorem Resumes.decoded {credentials : UCred} {phase : Phase}
    (resumes : Resumes env hub conn credentials phase input progress) : progress.phase.Decoded := by
  cases resumes with
  | authReceived message right phase events body => exact authorizeBody_decoded body
  | authContinued request ok phase events body => exact authorizeBody_decoded body
  | clientReceived service_name message right phase events body => exact clientBody_decoded body
  | clientContinued service_name request ok phase events body => exact clientBody_decoded body
  | pendingTaken service_name free waiters waiting phase events batch => exact resolveWaiters_decoded batch
  | batchContinued service_name waiters ok phase events batch => exact resolveWaiters_decoded batch
  | connectRegistered service_name target request wait free allowed target_writer present phase events pair =>
    exact sendConnectionDescriptors_decoded pair
  | _ => trivial

theorem Accounted.initial (additional_service_dirs : List OsString) (files : FileSystem) :
    Accounted [] (Hub.new additional_service_dirs files) where
  fresh := by simp
  bodies := by simp [Hub.new]
  ledger := by
    have nobody : (Hub.new additional_service_dirs files).busy = fun _ _ => False := by
      funext client request
      simp [Hub.busy, Hub.new]
    have nothing : (Hub.new additional_service_dirs files).requests = fun _ => [] := by
      funext target
      simp [Hub.requests, Hub.line, Hub.batch, Hub.new, HubContext.waiters]
    rw [nobody, nothing]
    exact .empty

theorem requests_same (same : ∀ target, after.line target = hub.line target) :
    after.requests = hub.requests := by
  funext target
  rw [Hub.requests, Hub.requests, same]

theorem busy_outcome {client : Option String} {request : RpcRequest} {seen : Nat} {rest : List Event}
    (outcome : Outcome client request seen rest progress.phase) (owner : Option String)
    (other : RpcRequest) :
    (hub.advance conn task progress).busy owner other ↔
      hub.othersBusy conn owner other ∨ owner = client ∧ progress.phase.processing = some other := by
  rw [busy_advance]
  apply or_congr_right
  constructor
  · intro holds
    exact ⟨by rw [← holds.2, outcome.named holds.1], holds.1⟩
  · intro holds
    exact ⟨holds.2, by rw [holds.1, outcome.named holds.2]⟩

theorem LineMoves.lines {phase : Phase} {rest : List Event} {request : RpcRequest}
    (moves : LineMoves hub after conn phase input out) (begins : List Event) (all : out = begins ++ rest)
    (arrival : ∀ target initiator, .queued target initiator request ∉ begins)
    (own : ∀ other, phase.processing = some other → other = request)
    (handles : (∃ client, .received client request ∈ begins) ∨ phase.processing = some request)
    (bodies : ∀ service_name target wait, phase = .connectLock service_name target request wait →
      request.body = .call (.ok (.connect target wait))) :
    Lines hub.requests after.requests request rest := by
  cases moves with
  | still same aside =>
    refine .inl ⟨requests_same same, ?_⟩
    intro target initiator member
    exact aside _ (by rw [all]; exact List.mem_append_right _ member)
  | joins target initiator other asks grown same events =>
    obtain ⟨wait, was⟩ := asks
    have equal : other = request := own other (by rw [was]; rfl)
    subst equal
    have member : .queued target initiator other ∈ begins ++ rest := by simp [← all, events]
    refine .inr ⟨target, initiator, ?_, ⟨wait, bodies initiator target wait was⟩, ?_, ?_⟩
    · exact (List.mem_append.mp member).resolve_left (arrival target initiator)
    · simp [Hub.requests, grown]
    · intro name different
      rw [Hub.requests, Hub.requests, same name different]
  | leaves target initiator other response idle head same events =>
    rcases handles with ⟨client, arrived⟩ | processes
    · have member : .received client request ∈ out := by rw [all]; exact List.mem_append_left _ arrived
      simp [events] at member
    · rw [idle] at processes
      cases processes

theorem Accounted.resume (accounted : Accounted log hub) (consistent : hub.Consistent)
    (selecting : hub.main = .selecting) (present : hub.tasks.get conn = some task)
    (resumes : Resumes env hub conn task.credentials task.phase input progress) :
    Accounted (log ++ progress.events) (hub.advance conn task progress) := by
  have moves := lineMoves consistent selecting present resumes
  have bodies := fun service_name target request wait =>
    accounted.bodies conn task service_name target request wait present
  refine ⟨?_, ?_, ?_⟩
  · intro client request member
    rcases List.mem_append.mp member with old | new
    · exact Nat.lt_succ_of_lt (accounted.fresh client request old)
    · obtain ⟨message, _, _, _, rfl, _⟩ := resumes.treats.received new
      exact Nat.lt_succ_self _
  · intro other next service_name target request wait there connects
    rw [advance_get] at there
    split at there
    · cases there
      have decoded := resumes.decoded
      rw [show progress.phase = _ from connects] at decoded
      exact decoded
    · exact accounted.bodies other next service_name target request wait there connects
  · cases resumes.treats with
    | other unpolled was now unreceived =>
      have same : (hub.advance conn task progress).busy = hub.busy := by
        funext client request
        rw [busy_idle present was]
        apply propext
        rw [busy_advance, now]
        simp
      have nobody : ∀ request, ¬ Handles hub conn task.phase input request := by
        intro request handles
        rcases handles with processes | ⟨message, polled, _⟩
        · rw [was] at processes
          cases processes
        · exact unpolled message polled
      rw [same]
      cases moves with
      | still lines aside =>
        rw [requests_same lines]
        apply accounted.ledger.neutral
        intro event member
        have quiet := aside event member
        cases event with
        | received client request => exact absurd member (unreceived client request)
        | responded request response => exact nobody request quiet
        | _ => exact quiet
      | joins target initiator request asks grown lines all =>
        obtain ⟨wait, asking⟩ := asks
        rw [asking] at was
        cases was
      | leaves target initiator request response idle head lines all =>
        have served : hub.requests target = request :: (hub.advance conn task progress).requests target := by
          simp [Hub.requests, head]
        rw [all]
        apply accounted.ledger.serve served
        intro other different
        rw [Hub.requests, Hub.requests, lines other different]
    | receives message polled was rest events outcome =>
      have new : ∀ client, .received client (message.request hub.clock conn) ∉ log :=
        fun client old => Nat.lt_irrefl _ (accounted.fresh client _ old)
      obtain ⟨ledger, held⟩ := accounted.ledger.receive task.phase.registeredAs new
      rw [busy_idle present was] at ledger
      have lines := moves.lines [.received task.phase.registeredAs (message.request hub.clock conn)] events
        (by simp) (by simp [was]) (.inl ⟨_, List.mem_singleton.mpr rfl⟩)
        (fun service_name target wait => bodies service_name target _ wait)
      rw [events, List.append_cons]
      exact outcome.ledger ledger held lines (busy_outcome outcome)
    | proceeds unpolled request was outcome =>
      obtain ⟨ledger, held⟩ := accounted.ledger.pick ⟨conn, task, present, was, rfl⟩
        (busy_others consistent present was)
      have lines := moves.lines [] rfl (by simp) (by simp [was]) (.inr was)
        (fun service_name target wait => bodies service_name target _ wait)
      exact outcome.ledger ledger held lines (busy_outcome outcome)

theorem Accounted.background (accounted : Accounted log hub) (clock : hub.clock ≤ after.clock)
    (neutral : ∀ event ∈ out, Neutral event)
    (tasks : ∀ conn task, after.tasks.get conn = some task →
      hub.tasks.get conn = some task ∨ task.phase.processing = none)
    (kept : ∀ conn task request, hub.tasks.get conn = some task →
      task.phase.processing = some request → after.tasks.get conn = some task)
    (lines : ∀ target, after.line target = hub.line target) : Accounted (log ++ out) after := by
  have same : after.busy = hub.busy := by
    funext client request
    apply propext
    constructor
    · intro busy
      obtain ⟨conn, task, there, processes, named⟩ := busy
      rcases tasks conn task there with old | idle
      · exact ⟨conn, task, old, processes, named⟩
      · rw [idle] at processes
        cases processes
    · intro busy
      obtain ⟨conn, task, there, processes, named⟩ := busy
      exact ⟨conn, task, kept conn task request there processes, processes, named⟩
  refine ⟨?_, ?_, ?_⟩
  · intro client request member
    rw [received_of_neutral neutral] at member
    exact Nat.lt_of_lt_of_le (accounted.fresh client request member) clock
  · intro conn task service_name target request wait there connects
    rcases tasks conn task there with old | idle
    · exact accounted.bodies conn task service_name target request wait old connects
    · rw [connects] at idle
      cases idle
  · rw [same, requests_same lines]
    exact accounted.ledger.neutral neutral

theorem line_same (waiters : ∀ target, after.context.waiters target = hub.context.waiters target)
    (batches : ∀ target, after.batch target = hub.batch target) (target : String) :
    after.line target = hub.line target := by
  rw [Hub.line, Hub.line, waiters, batches]

theorem Accounted.accept (accounted : Accounted log hub) (consistent : hub.Consistent)
    (credentials : UCred) :
    Accounted (log ++ [.accepted hub.clock credentials]) { hub with
      tasks := hub.tasks.insert hub.clock ⟨credentials, .authPoll⟩
      clock := hub.clock + 1 } := by
  refine accounted.background (Nat.le_succ _) (by simp [Neutral]) ?_ ?_ (line_same (fun _ => rfl) ?_)
  · exact Table.forall_insert (.inr rfl) fun _ _ there => .inl there
  · intro conn task request there processes
    rw [Table.get_insert_of_ne (Nat.ne_of_lt (consistent.fresh conn task there))]
    exact there
  · intro target
    simp only [Hub.batch]
    cases entry : hub.context.client_registry.get target with
    | none => rfl
    | some owner =>
      have bound := consistent.owner_lt ((consistent.registry target owner).mp entry)
      simp only [Table.get_insert_of_ne (Nat.ne_of_lt bound)]

theorem Accounted.reap (accounted : Accounted log hub) {credentials : UCred} {result : Option String}
    (present : hub.tasks.get conn = some ⟨credentials, .finished result⟩) (main : MainLoop) :
    Accounted (log ++ []) { hub with tasks := hub.tasks.remove conn, main } := by
  refine accounted.background (Nat.le_refl _) (by simp) ?_ ?_ (line_same (fun _ => rfl) ?_)
  · intro other task there
    exact .inl (Table.get_of_remove there)
  · intro other task request there processes
    have different : other ≠ conn := by
      intro same
      rw [same, present] at there
      cases there
      cases processes
    rw [Table.get_remove_of_ne different]
    exact there
  · intro target
    simp only [Hub.batch]
    cases entry : hub.context.client_registry.get target with
    | none => rfl
    | some owner =>
      by_cases same : owner = conn
      · simp [same, present, Phase.batch]
      · simp only [Table.get_remove_of_ne same]

theorem Accounted.remove (accounted : Accounted log hub) (consistent : hub.Consistent)
    {service_name : String} (reaping : hub.main = .disconnected conn service_name) :
    Accounted (log ++ [.removed service_name conn]) { hub with
      context := { hub.context with
        client_registry := hub.context.client_registry.remove service_name }
      main := .selecting } := by
  refine accounted.background (Nat.le_refl _) (by simp [Neutral]) (fun _ _ => .inl) (fun _ _ _ there _ => there)
    (line_same (fun _ => rfl) ?_)
  intro target
  simp only [Hub.batch, Table.get_remove]
  by_cases same : target = service_name
  · have owner := (consistent.registry service_name conn).mpr (.inr reaping)
    have gone := (consistent.reaping conn service_name reaping).2
    simp [same, owner, gone]
  · simp [same]

theorem Accounted.preserved (accounted : Accounted log hub) (consistent : hub.Consistent)
    (taken : step env hub action = some (after, out)) : Accounted (log ++ out) after := by
  cases step_cases taken with
  | accepted credentials selecting => exact accounted.accept consistent credentials
  | resumed conn task input progress selecting present resumes =>
    exact accounted.resume consistent selecting present resumes
  | disconnected conn credentials service_name selecting present => exact accounted.reap present _
  | anonymousDisconnected conn credentials selecting present => exact accounted.reap present hub.main
  | removed conn service_name reaping free => exact accounted.remove consistent reaping
  | _ =>
    exact accounted.background (Nat.le_refl _) (by simp) (fun _ _ => .inl) (fun _ _ _ there _ => there)
      fun _ => rfl

theorem run_accounted (run : Run env additional_service_dirs files log hub) : Accounted log hub :=
  run.invariant (Accounted.initial additional_service_dirs files) fun _ _ _ _ _ before accounted _ taken =>
    accounted.preserved (run_consistent before) taken

/-- Between the insertion of `handle_auth_request` and the removal of `resolve_pending_connections`. -/
def Phase.Opening (phase : Phase) (target : String) : Prop :=
  phase = .registerReply target ∨ phase = .resolveSleep target ∨ phase = .resolveLock target

def Hub.Registering (hub : Hub) (target : String) : Prop :=
  ∃ conn task, hub.context.client_registry.get target = some conn ∧ hub.tasks.get conn = some task ∧
    task.phase.Opening target

theorem Resumes.opening {credentials : UCred} {phase : Phase}
    (resumes : Resumes env hub conn credentials phase input progress) {target : String}
    (opening : phase.Opening target) :
    progress.phase.Opening target ∨ progress.context.waiters target = [] := by
  rcases opening with rfl | rfl | rfl
  · cases resumes with
    | registerReplied _ ok => exact .inl (.inr (.inl rfl))
  · cases resumes with
    | slept _ => exact .inl (.inr (.inr rfl))
  · cases resumes with
    | nothingPending _ free nobody => exact .inr (by simp [HubContext.waiters, nobody])
    | pendingTaken _ free waiters waiting phase events batch => exact .inr (by simp)

def Hub.Awaited (hub : Hub) : Prop :=
  ∀ target, hub.context.waiters target ≠ [] →
    hub.context.client_registry.get target = none ∨ hub.Registering target

theorem Hub.Awaited.resume (awaited : hub.Awaited) (consistent : hub.Consistent)
    (present : hub.tasks.get conn = some task)
    (resumes : Resumes env hub conn task.credentials task.phase input progress) :
    (hub.advance conn task progress).Awaited := by
  intro target waits
  rw [advance_context] at waits ⊢
  by_cases before : hub.context.waiters target = []
  · obtain ⟨⟨initiator, request⟩, member⟩ := List.exists_mem_of_ne_nil _ waits
    rcases resumes.queues.waiting member with old | ⟨⟨wait, connects⟩, events⟩
    · rw [before] at old
      cases old
    · cases resumes.queues with
      | quiet pending _ _ =>
        rw [HubContext.waiters, pending] at waits
        exact absurd before waits
      | queued service_name name own wait was now allowed absent context _ =>
        rw [connects] at was
        cases was
        exact .inl (by rw [context]; exact absent)
      | drawn service_name waiters source _ =>
        rcases source with ⟨was, _⟩ | ⟨was, _⟩ <;> rw [connects] at was <;> cases was
      | answered service_name handover pair waiters response was _ _ _ =>
        rw [connects] at was
        cases was
  · rcases awaited target before with absent | ⟨owner, next, entry, there, opening⟩
    · rcases resumes.registration with ⟨_, registry, _⟩ | ⟨name, request, was, now, _, registry, _⟩
      · exact .inl (by rw [registry]; exact absent)
      · by_cases same : target = name
        · subst same
          have own := consistent.own conn task request present (by rw [was]; rfl)
          refine .inr ⟨conn, { task with phase := progress.phase }, ?_, by simp, .inl now⟩
          rw [advance_context, registry, Table.get_insert_self, own]
        · exact .inl (by rw [registry, Table.get_insert_of_ne same]; exact absent)
    · have kept := resumes.entry_kept entry
      by_cases same : owner = conn
      · subst same
        rw [present] at there
        cases there
        rcases resumes.opening opening with still | empty
        · exact .inr ⟨owner, { task with phase := progress.phase }, kept, by simp, still⟩
        · exact absurd empty waits
      · exact .inr ⟨owner, next, kept, by simp [same, there], opening⟩

theorem Hub.Awaited.preserved (awaited : hub.Awaited) (consistent : hub.Consistent)
    (taken : step env hub action = some (after, out)) : after.Awaited := by
  have elsewhere : ∀ {changed : Hub}, changed.context = hub.context →
      (∀ conn task target, hub.tasks.get conn = some task → task.phase.Opening target →
        changed.tasks.get conn = some task) → changed.Awaited := by
    intro changed context kept target waits
    rw [context] at waits ⊢
    apply (awaited target waits).imp_right
    intro registering
    obtain ⟨conn, task, entry, there, opening⟩ := registering
    exact ⟨conn, task, by rw [context]; exact entry, kept conn task target there opening, opening⟩
  have reaped : ∀ {gone : Conn} {credentials : UCred} {result : Option String} {main : MainLoop},
      hub.tasks.get gone = some ⟨credentials, .finished result⟩ →
      Hub.Awaited { hub with tasks := hub.tasks.remove gone, main } := by
    intro gone credentials result main present
    apply elsewhere
    · rfl
    · intro conn task target there opening
      have different : conn ≠ gone := by
        intro same
        rw [same, present] at there
        cases there
        rcases opening with finished | finished | finished <;> cases finished
      exact (Table.get_remove_of_ne different).trans there
  cases step_cases taken with
  | accepted credentials selecting =>
    apply elsewhere
    · rfl
    · intro conn task target there _
      have older := consistent.fresh conn task there
      exact (Table.get_insert_of_ne (Nat.ne_of_lt older)).trans there
  | resumed conn task input progress selecting present resumes =>
    exact awaited.resume consistent present resumes
  | disconnected conn credentials service_name selecting present => exact reaped present
  | anonymousDisconnected conn credentials selecting present => exact reaped present
  | removed conn service_name reaping free =>
    intro target waits
    by_cases same : target = service_name
    · exact .inl (by simp [same])
    · rcases awaited target waits with absent | ⟨owner, task, entry, there, opening⟩
      · exact .inl (by simp [Table.get_remove_of_ne same, absent])
      · exact .inr ⟨owner, task, by simp [Table.get_remove_of_ne same, entry], there, opening⟩
  | _ => exact elsewhere rfl fun _ _ _ there _ => there

/-- The request has had its one answer, or waits once for its target without any. -/
def AnsweredOrWaiting (log : List Event) (hub : Hub) (request : RpcRequest) (target : String) : Prop :=
  (answers log request = 1 ∧ ∀ name, request ∉ hub.requests name) ∨
    (answers log request = 0 ∧ (hub.requests target).count request = 1 ∧
      ∀ name, name ≠ target → request ∉ hub.requests name)

theorem answered_or_waiting_iff (accounted : Accounted log hub) {client : Option String}
    {request : RpcRequest} {target : String} {wait : Bool} (received : .received client request ∈ log)
    (endpoint : request.endpoint = hubConnectMethod)
    (body : request.body = .call (.ok (.connect target wait)))
    (handled : ∀ client, ¬ hub.busy client request) :
    AnsweredOrWaiting log hub request target ↔ client ≠ none := by
  have ledger := accounted.ledger
  have alone : ∀ name, request ∈ hub.requests name → name = target := by
    intro name member
    obtain ⟨⟨wait', body'⟩, _⟩ := ledger.waiting name request member
    rw [body] at body'
    cases body'
    rfl
  have unanswered : ∀ name, request ∈ hub.requests name → answers log request = refusals client request := by
    intro name member
    obtain ⟨_, other, came, counted⟩ := ledger.waiting name request member
    rw [counted, ledger.single other client request came received]
  have settled : (answers log request = refusals client request + 1 ∧ ∀ name, request ∉ hub.requests name) ∨
      request ∈ hub.requests target := by
    rcases ledger.settled client request received (by simp [body]) with held | busy | done | ⟨name, member⟩
    · cases held
    · exact absurd busy (handled client)
    · exact .inl done
    · exact .inr (alone name member ▸ member)
  cases client with
  | none =>
    have wrong : refusals none request = 1 := by
      rw [refusals, endpoint]
      decide
    simp only [ne_eq, not_true_eq_false, iff_false]
    intro either
    rcases settled with ⟨counted, _⟩ | member
    · rcases either with ⟨once, _⟩ | ⟨never, _⟩ <;> omega
    · have counted := unanswered target member
      rcases either with ⟨_, absent⟩ | ⟨never, _⟩
      · exact absent target member
      · omega
  | some service_name =>
    have right : refusals (some service_name) request = 0 := by
      rw [refusals, endpoint]
      decide
    simp only [ne_eq, reduceCtorEq, not_false_eq_true, iff_true]
    rcases settled with ⟨counted, absent⟩ | member
    · exact .inl ⟨by omega, absent⟩
    · refine .inr ⟨by rw [unanswered target member, right], ?_, ?_⟩
      · rw [(ledger.nodup target).count, if_pos member]
      · intro name different there
        exact different (alone name there)

/-- No waiter is lost, duplicated or overtaken: a queue is only filled while its target is away or
    about to take it, a connect call is answered once or waits once exactly if its sender had
    registered, and the waiters for a target are answered in the order in which they were queued. -/
theorem waiters_accounted (run : Run env additional_service_dirs files log hub) :
    (∀ target, hub.context.waiters target ≠ [] →
      hub.context.client_registry.get target = none ∨ hub.Registering target) ∧
    (∀ client request target wait, .received client request ∈ log →
      request.endpoint = hubConnectMethod → request.body = .call (.ok (.connect target wait)) →
      (∀ client, ¬ hub.busy client request) →
      (AnsweredOrWaiting log hub request target ↔ client ≠ none)) ∧
    ∀ target, outstanding log target = (hub.batch target ++ hub.context.waiters target).map Prod.snd ∧
      (outstanding log target).Nodup ∧ Justified (Fifo (waitingOp target)) log := by
  have accounted := run_accounted run
  have awaited : hub.Awaited := by
    apply run.invariant (I := fun _ hub => hub.Awaited)
    · intro target waits
      exact absurd rfl waits
    · intro log state action after out before awaited _ taken
      exact awaited.preserved (run_consistent before) taken
  refine ⟨awaited, ?_, ?_⟩
  · intro client request target wait received endpoint body handled
    exact answered_or_waiting_iff accounted received endpoint body handled
  · intro target
    refine ⟨accounted.ledger.queue target, ?_, accounted.ledger.order target⟩
    rw [accounted.ledger.queue target]
    exact accounted.ledger.nodup target

theorem waiters_accounted_queued : ∃ log hub,
    Run openEnvironment [] (openFiles ["com.a", "com.b"]) log hub ∧
    ∃ request, AnsweredOrWaiting log hub request "com.b" ∧ outstanding log "com.b" = [request] := by
  obtain ⟨log, hub, run, waits⟩ := exists_run_of_execute (step openEnvironment)
    (Hub.new [] (openFiles ["com.a", "com.b"])) (registering 0 "com.a" ++ connecting 0 "com.b" true)
    (fun log hub => log.any (· == .received (some "com.a")
        ⟨6, 0, 1, hubConnectMethod, .call (.ok (.connect "com.b" true))⟩) &&
      (hub.batch "com.b" ++ hub.context.waiters "com.b").map Prod.snd ==
        [⟨6, 0, 1, hubConnectMethod, .call (.ok (.connect "com.b" true))⟩]) (by decide +kernel)
  rw [Bool.and_eq_true, beq_iff_eq, List.any_eq_true] at waits
  obtain ⟨⟨event, member, same⟩, line⟩ := waits
  rw [beq_iff_eq.mp same] at member
  have result := waiters_accounted run
  have line := (result.2.2 "com.b").1.trans line
  refine ⟨log, hub, run, _, ?_, line⟩
  refine (result.2.1 (some "com.a") _ "com.b" true member rfl rfl ?_).mpr (by simp)
  intro client busy
  have ledger := (run_accounted run).ledger
  apply (ledger.processing client _ busy).2.2 "com.b"
  rw [← ledger.queue, line]
  exact List.mem_singleton.mpr rfl

/-- The first message of a connection is a connect call. -/
theorem connect_before_register_answered_twice : ∃ log hub request,
    Run openEnvironment [] (openFiles ["com.a", "com.b"]) log hub ∧
    .received none request ∈ log ∧ request.endpoint = hubConnectMethod ∧
    request.body = .call (.ok (.connect "com.b" false)) ∧ (∀ client, ¬ hub.busy client request) ∧
    ¬ AnsweredOrWaiting log hub request "com.b" := by
  obtain ⟨log, hub, run, twice⟩ := exists_run_of_execute (step openEnvironment)
    (Hub.new [] (openFiles ["com.a", "com.b"]))
    [.accept (some ⟨some 7⟩),
      .task 0 (.polled (some ⟨1, hubConnectMethod, .call (.ok (.connect "com.b" false))⟩)), .task 0 (.sent true)]
    (fun log hub => log.any (· == .received none
        ⟨1, 0, 1, hubConnectMethod, .call (.ok (.connect "com.b" false))⟩) &&
      (answers log ⟨1, 0, 1, hubConnectMethod, .call (.ok (.connect "com.b" false))⟩ == 2 &&
        (hub.tasks.get 0).map Task.phase == some .authErrorReply)) (by decide +kernel)
  rw [Bool.and_eq_true, Bool.and_eq_true, beq_iff_eq, beq_iff_eq, List.any_eq_true] at twice
  obtain ⟨⟨event, member, same⟩, counted, phase⟩ := twice
  rw [beq_iff_eq.mp same] at member
  refine ⟨log, hub, _, run, member, rfl, rfl, ?_, ?_⟩
  · intro client busy
    obtain ⟨conn, task, there, processes, _⟩ := busy
    have own : 0 = conn := (run_consistent run).own conn task _ there processes
    subst own
    rw [there] at phase
    rw [Option.some.inj phase] at processes
    cases processes
  · intro either
    unfold AnsweredOrWaiting at either
    omega

end KrossbarHub
