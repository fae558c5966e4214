import KrossbarBus.Collections.Totals
import KrossbarBus.Hub.Answers
import KrossbarBus.Hub.ContextLock
import KrossbarBus.Transition.Inevitability

namespace KrossbarHub

open Transition (Inevitably)

variable {env : HubEnvironment} {hub after : Hub} {conn : Conn} {credentials : UCred} {phase : Phase}
  {input : Input} {progress : Progress} {task : Task} {action : Action} {out log : List Event}
  {additional_service_dirs : List OsString} {files : FileSystem}

/-- The steps of the hub's own code: sends, sleeps, locks, and the reaping of tasks. A send completes only if the
    client that it is for reads. -/
def Action.internal : Action → Bool
  | .task _ (.polled _) => false
  | .task _ _ | .next _ | .removeClient => true
  | _ => false

def Phase.polls : Phase → Bool
  | .authPoll | .clientPoll _ => true
  | _ => false

def Phase.awaitsLock : Phase → Bool
  | .registerLock .. | .resolveLock _ | .connectLock .. => true
  | _ => false

def Phase.writes : Phase → Bool
  | .authEndpointReply _ | .registerReply _ | .authErrorReply | .authErrorFlush => true
  | .clientEndpointReply .. | .clientErrorReply _ | .connectReply _ => true
  | .sendTarget .. | .sendInitiator .. => true
  | _ => false

def Hub.AtRest (hub : Hub) : Prop :=
  hub.main = .selecting ∧ ∀ conn task, hub.tasks.get conn = some task → task.phase.polls = true

def Hub.Halted (hub : Hub) : Prop := hub.Deadlocked ∨ hub.main = .stopped ∨ hub.main = .crashed

/-- The task is suspended in a send that its client does not take. Which sends complete is up to the clients. -/
def Stalls (completes : Conn → Phase → Prop) (conn : Conn) (task : Task) : Prop :=
  task.phase.writes = true ∧ ¬ completes conn task.phase

/-- The hub only waits, for some client to read. -/
structure Hub.Stalled (completes : Conn → Phase → Prop) (hub : Hub) : Prop where
  main : hub.main = .selecting
  stalls : ∃ conn task, hub.tasks.get conn = some task ∧ Stalls completes conn task
  waits : ∀ conn task, hub.tasks.get conn = some task →
    task.phase.polls = true ∨ Stalls completes conn task ∨ task.phase.awaitsLock = true ∧ hub.lock ≠ none

/-- A step of the hub, which sends only where the send completes. -/
structure Hub.Own (completes : Conn → Phase → Prop) (hub : Hub) (action : Action) : Prop where
  internal : action.internal = true
  sends : ∀ conn ok task, action = .task conn (.sent ok) → hub.tasks.get conn = some task → completes conn task.phase

def After.waiting : After → Nat
  | .resolve waiters => waiters.length
  | .loop => 0

/-- How many internal steps a task is from its next poll, or from being reaped, but for the waiters of a
    batch. -/
def Phase.work : Phase → Nat
  | .authPoll | .clientPoll _ => 0
  | .connectReply _ | .sendTarget .. | .sendInitiator .. => 1
  | .connectLock .. | .resolveLock _ | .finished _ => 2
  | .resolveSleep _ | .clientErrorReply _ | .authErrorFlush => 3
  | .registerReply _ | .authErrorReply | .clientEndpointReply .. => 4
  | .registerLock .. => 5
  | .authEndpointReply _ => 6

def Phase.sends : Phase → Nat
  | .sendTarget _ _ _ after => 2 * after.waiting + 1
  | .sendInitiator _ after => 2 * after.waiting
  | _ => 0

def MainLoop.work : MainLoop → Nat
  | .disconnected .. => 2
  | .selecting => 1
  | _ => 0

def Hub.rank (hub : Hub) : Nat × Nat :=
  (hub.tasks.total hub.clock (fun task => task.phase.work) + hub.main.work,
    hub.tasks.total hub.clock (fun task => task.phase.sends))

def Descends (next previous : Nat × Nat) : Prop := Prod.Lex (· < ·) (· < ·) next previous

theorem descends_wellFounded : WellFounded Descends := (Prod.lex Nat.lt_wfRel Nat.lt_wfRel).wf

theorem descends_iff {next previous : Nat × Nat} :
    Descends next previous ↔ next.1 < previous.1 ∨ next.1 = previous.1 ∧ next.2 < previous.2 := Prod.lex_def

theorem authorizeBody_work {request : RpcRequest} {events : List Event}
    (body : authorizeBody env request = (phase, events)) : phase.work ≤ 5 := by
  rcases authorizeBody_cases body with ⟨service_name, _, rfl, _⟩ | ⟨_, rfl, _⟩
  · exact Nat.le_refl 5
  · exact Nat.le_succ 4

theorem clientBody_work {service_name : String} {request : RpcRequest} {events : List Event}
    (body : clientBody env service_name request = (phase, events)) : phase.work ≤ 3 := by
  rcases clientBody_cases body with ⟨target, wait, _, rfl, _⟩ | ⟨_, ⟨rfl, _⟩ | ⟨rfl, _⟩⟩
  · exact Nat.le_succ 2
  · exact Nat.le_refl 3
  · exact Nat.le_succ 2

theorem sendConnectionDescriptors_work {clock : Nat} {service_name : String} {handover : Handover} {next : After}
    {events : List Event} (pair : sendConnectionDescriptors env clock service_name handover next = (phase, events)) :
    phase.work = 1 ∧ phase.sends ≤ 2 * next.waiting + 1 := by
  rcases sendConnectionDescriptors_cases pair with ⟨rfl, _⟩ | ⟨rfl, _⟩
  · exact ⟨rfl, Nat.le_refl _⟩
  · exact ⟨rfl, Nat.le_succ _⟩

theorem resolveWaiters_work {clock : Nat} {service_name : String} {stream : RpcWriter}
    {waiters : List (String × RpcRequest)} {events : List Event}
    (batch : resolveWaiters env clock service_name stream waiters = (phase, events)) :
    phase.work = 0 ∨ phase.work = 1 ∧ phase.sends < 2 * waiters.length := by
  rcases resolveWaiters_cases batch with ⟨_, rfl, _⟩ | ⟨initiator, request, rest, rfl, pair⟩
  · exact .inl rfl
  · obtain ⟨work, sends⟩ := sendConnectionDescriptors_work pair
    refine .inr ⟨work, ?_⟩
    simp only [After.waiting] at sends
    simp only [List.length_cons]
    omega

/-- A task that is resumed without a new message comes nearer to its next poll. -/
theorem Resumes.descends (resumes : Resumes env hub conn credentials phase input progress)
    (unread : ∀ message, input ≠ .polled message) :
    Descends (progress.phase.work, progress.phase.sends) (phase.work, phase.sends) := by
  rw [descends_iff]
  cases resumes with
  | authLost => exact absurd rfl (unread _)
  | authRefused message _ _ => exact absurd rfl (unread _)
  | authReceived message _ _ _ _ => exact absurd rfl (unread _)
  | clientLost _ => exact absurd rfl (unread _)
  | clientRefused _ message _ _ => exact absurd rfl (unread _)
  | clientReceived _ message _ _ _ _ => exact absurd rfl (unread _)
  | authContinued request ok phase events body => exact .inl (Nat.lt_succ_of_le (authorizeBody_work body))
  | clientContinued service_name request ok phase events body =>
    exact .inl (Nat.lt_succ_of_le (clientBody_work body))
  | connectRegistered service_name target request wait free allowed target_writer present phase events pair =>
    left
    rw [(sendConnectionDescriptors_work pair).1]
    exact Nat.lt_succ_self 1
  | pendingTaken service_name free waiters waiting phase events batch =>
    left
    show phase.work < 2
    rcases resolveWaiters_work batch with done | ⟨more, _⟩ <;> omega
  | targetSent service_name handover pair after ok => exact .inr ⟨rfl, Nat.lt_succ_self _⟩
  | batchContinued service_name waiters ok phase events batch =>
    rcases resolveWaiters_work batch with done | ⟨more, fewer⟩
    · left
      rw [done]
      exact Nat.zero_lt_one
    · exact .inr ⟨more, fewer⟩
  | _ => exact .inl (by simp [Phase.work])

theorem rank_advance (consistent : hub.Consistent) (present : hub.tasks.get conn = some task)
    (descends : Descends (progress.phase.work, progress.phase.sends) (task.phase.work, task.phase.sends)) :
    Descends (hub.advance conn task progress).rank hub.rank := by
  have below := consistent.fresh conn task present
  have absent := Table.fresh_absent consistent.fresh
  have grown : ∀ weight : Task → Nat, (hub.advance conn task progress).tasks.total
      (hub.advance conn task progress).clock weight + weight task =
        hub.tasks.total hub.clock weight + weight { task with phase := progress.phase } := by
    intro weight
    have unborn : (hub.tasks.insert conn { task with phase := progress.phase }).get hub.clock = none := by
      rw [Table.get_insert_of_ne (Nat.ne_of_gt below)]
      exact absent
    rw [← Table.total_insert weight present below, advance_clock]
    exact congrArg (· + weight task) (Table.total_succ weight unborn)
  have work := grown fun task => task.phase.work
  have sends := grown fun task => task.phase.sends
  rw [descends_iff] at descends ⊢
  simp only [Hub.rank, advance_main]
  simp only at work sends descends
  omega

theorem rank_reap (consistent : hub.Consistent) {result : Option String}
    (present : hub.tasks.get conn = some ⟨credentials, .finished result⟩) {main : MainLoop}
    (light : main.work ≤ hub.main.work + 1) :
    Descends (Hub.rank { hub with tasks := hub.tasks.remove conn, main }) hub.rank := by
  have below := consistent.fresh conn _ present
  have work := Table.total_remove (fun task => task.phase.work) present below
  have two : (Phase.finished result).work = 2 := rfl
  rw [descends_iff]
  left
  dsimp only [Hub.rank] at work ⊢
  omega

theorem internal_descends (consistent : hub.Consistent) (internal : action.internal = true)
    (taken : step env hub action = some (after, out)) : Descends after.rank hub.rank := by
  cases step_cases taken with
  | resumed conn task input progress selecting present resumes =>
    apply rank_advance consistent present
    apply resumes.descends
    intro message polled
    rw [polled] at internal
    cases internal
  | crashed conn task input selecting present panics =>
    rw [descends_iff]
    left
    simp [Hub.rank, selecting, MainLoop.work]
  | disconnected conn credentials service_name selecting present =>
    apply rank_reap consistent present
    simp [selecting, MainLoop.work]
  | anonymousDisconnected conn credentials selecting present =>
    exact rank_reap consistent present (Nat.le_succ _)
  | removed conn service_name reaping free =>
    rw [descends_iff]
    left
    simp [Hub.rank, reaping, MainLoop.work]
  | _ => cases internal

/-- A task that is not polling goes on, or waits for the lock. -/
theorem task_resumes (busy : task.phase.polls = false) (unfinished : ∀ result, task.phase ≠ .finished result)
    (turn : task.phase.awaitsLock = true → hub.lock = none) :
    ∃ input, (∀ message, input ≠ .polled message) ∧ (∀ ok, input = .sent ok → task.phase.writes = true) ∧
      resume env hub conn task input ≠ none := by
  cases phase : task.phase with
  | authPoll => simp [phase, Phase.polls] at busy
  | clientPoll _ => simp [phase, Phase.polls] at busy
  | finished result => exact absurd phase (unfinished result)
  | resolveSleep service_name => exact ⟨.elapsed, by simp, by simp, by simp [resume, phase]⟩
  | registerLock service_name request =>
    have free : hub.lock = none := turn (by rw [phase]; rfl)
    exact ⟨.locked, by simp, by simp, by simp [resume, phase, free]⟩
  | resolveLock service_name =>
    have free : hub.lock = none := turn (by rw [phase]; rfl)
    exact ⟨.locked, by simp, by simp, by simp [resume, phase, free]⟩
  | connectLock service_name target request wait =>
    have free : hub.lock = none := turn (by rw [phase]; rfl)
    exact ⟨.locked, by simp, by simp, by simp [resume, phase, free]⟩
  | sendInitiator service_name after =>
    refine ⟨.sent true, by simp, fun _ _ => rfl, ?_⟩
    cases after <;> simp [resume, phase]
  | _ => exact ⟨.sent true, by simp, fun _ _ => rfl, by simp [resume, phase]⟩

theorem step_of_resume (selecting : hub.main = .selecting) (present : hub.tasks.get conn = some task)
    (resumed : resume env hub conn task input ≠ none) :
    ∃ after out, step env hub (.task conn input) = some (after, out) := by
  cases outcome : resume env hub conn task input with
  | none => exact absurd outcome resumed
  | some result =>
    cases result with
    | none => exact ⟨_, _, by simp [step, selecting, present, outcome]; exact ⟨rfl, rfl⟩⟩
    | some progress => exact ⟨_, _, by simp [step, selecting, present, outcome]; exact ⟨rfl, rfl⟩⟩

theorem internal_task (unread : ∀ message, input ≠ .polled message) :
    (Action.task conn input).internal = true := by
  cases input with
  | polled message => exact absurd rfl (unread message)
  | _ => rfl

theorem Hub.Own.unsent {completes : Conn → Phase → Prop} (internal : action.internal = true)
    (unsent : ∀ conn ok, action ≠ .task conn (.sent ok)) : hub.Own completes action where
  internal := internal
  sends conn ok _ same _ := absurd same (unsent conn ok)

/-- Short of its rest the hub has something to do, unless its main loop has ended or waits for ever, or all that
    is left to do waits for a client to read. -/
theorem internal_enabled (completes : Conn → Phase → Prop) (consistent : hub.Consistent) :
    (hub.AtRest ∨ hub.Halted ∨ hub.Stalled completes) ∨
      ∃ action after out, hub.Own completes action ∧ step env hub action = some (after, out) := by
  cases main : hub.main with
  | stopped => exact .inl (.inr (.inl (.inr (.inl main))))
  | crashed => exact .inl (.inr (.inl (.inr (.inr main))))
  | disconnected conn service_name =>
    by_cases free : hub.lock = none
    · have own : hub.Own completes .removeClient := .unsent rfl (by simp)
      exact .inr ⟨.removeClient, _, _, own, by simp [step, main, free]; exact ⟨rfl, rfl⟩⟩
    · exact .inl (.inr (.inl (.inl ⟨⟨conn, service_name, main⟩, free⟩)))
  | selecting =>
    by_cases waits : ∀ conn task, hub.tasks.get conn = some task → task.phase.polls = true ∨
        Stalls completes conn task ∨ task.phase.awaitsLock = true ∧ hub.lock ≠ none
    · left
      by_cases stalls : ∃ conn task, hub.tasks.get conn = some task ∧ Stalls completes conn task
      · exact .inr (.inr ⟨main, stalls, waits⟩)
      · refine .inl ⟨main, fun conn task present => ?_⟩
        rcases waits conn task present with polls | stalled | ⟨_, locked⟩
        · exact polls
        · exact absurd ⟨conn, task, present, stalled⟩ stalls
        · -- whoever holds the lock is in a send
          obtain ⟨owner, holder, there, holds⟩ := consistent.locked_iff.mp locked
          rcases waits owner holder there with polls | stalled | ⟨awaits, _⟩
          · cases phase : holder.phase <;> simp_all [Phase.polls, Phase.holdsLock]
          · exact absurd ⟨owner, holder, there, stalled⟩ stalls
          · cases phase : holder.phase <;> simp_all [Phase.awaitsLock, Phase.holdsLock]
    · right
      simp only [not_forall, not_or, not_and, not_not, Bool.not_eq_true] at waits
      obtain ⟨conn, task, present, busy, goes, turn⟩ := waits
      by_cases finished : ∃ result, task.phase = .finished result
      · obtain ⟨result, phase⟩ := finished
        have there : hub.tasks.get conn = some ⟨task.credentials, .finished result⟩ := by
          rw [present, ← phase]
        have own : hub.Own completes (.next conn) := .unsent rfl (by simp)
        cases result with
        | none => exact ⟨.next conn, _, _, own, by simp [step, main, there]; exact ⟨rfl, rfl⟩⟩
        | some service_name => exact ⟨.next conn, _, _, own, by simp [step, main, there]; exact ⟨rfl, rfl⟩⟩
      · obtain ⟨input, unread, sends, resumed⟩ : ∃ input, (∀ message, input ≠ .polled message) ∧
            (∀ ok, input = .sent ok → task.phase.writes = true) ∧ resume env hub conn task input ≠ none :=
          task_resumes busy (not_exists.mp finished) turn
        obtain ⟨after, out, taken⟩ := step_of_resume main present resumed
        refine ⟨_, after, out, ⟨internal_task unread, fun other ok found same there => ?_⟩, taken⟩
        cases same
        rw [present] at there
        cases there
        exact Classical.not_not.mp fun refuses => goes ⟨sends ok rfl, refuses⟩

theorem internal_inevitable (completes : Conn → Phase → Prop) (consistent : hub.Consistent) :
    Inevitably (step env) (Hub.Own completes) (fun hub => hub.AtRest ∨ hub.Halted ∨ hub.Stalled completes) hub :=
  .of_wellFounded descends_wellFounded Hub.rank
    (fun _ _ _ _ consistent own taken =>
      ⟨consistent.preserved taken, internal_descends consistent own.internal taken⟩)
    (fun _ consistent => internal_enabled completes consistent) consistent

theorem idle_at_rest (rest : hub.AtRest) (client : Option String) (request : RpcRequest) :
    ¬ hub.busy client request := by
  intro busy
  obtain ⟨conn, task, present, processes, _⟩ := busy
  have polls := rest.2 conn task present
  cases phase : task.phase <;> simp_all [Phase.polls, Phase.processing]

theorem unresolved_at_rest (rest : hub.AtRest) (target : String) :
    ¬ hub.Registering target ∧ hub.batch target = [] := by
  constructor
  · intro registering
    obtain ⟨conn, task, _, present, opening⟩ := registering
    have polls := rest.2 conn task present
    rcases opening with phase | phase | phase <;> simp [phase, Phase.polls] at polls
  · unfold Hub.batch
    split
    · rfl
    · split
      · rfl
      · rename_i task present
        have polls := rest.2 _ task present
        cases phase : task.phase <;> simp_all [Phase.polls, Phase.batch]

theorem run_awaited (run : Run env additional_service_dirs files log hub) : hub.Awaited :=
  run.invariant (I := fun _ hub => hub.Awaited) (fun _ waits => absurd rfl waits)
    fun _ _ _ _ _ before awaited _ taken => awaited.preserved (run_consistent before) taken

/-- Only a connect that is willing to wait does. -/
def Hub.Patient (hub : Hub) : Prop := ∀ target waiter, waiter ∈ hub.context.waiters target →
  waiter.2.body = .call (.ok (.connect target true))

theorem Hub.Patient.resume (patient : hub.Patient) (accounted : Accounted log hub)
    (present : hub.tasks.get conn = some task)
    (resumes : Resumes env hub conn task.credentials task.phase input progress) :
    (hub.advance conn task progress).Patient := by
  rintro target ⟨initiator, request⟩ member
  rw [advance_context] at member
  rcases resumes.queues.waiting member with old | ⟨⟨wait, was⟩, events⟩
  · exact patient target _ old
  · have body := accounted.bodies conn task initiator target request wait present was
    rw [was] at resumes
    cases resumes with
    | connectDenied _ _ _ _ _ _ => simp at events
    | connectRegistered _ _ _ _ _ _ _ _ _ _ pair =>
      rcases sendConnectionDescriptors_cases pair with ⟨_, rfl⟩ | ⟨_, _, rfl⟩ <;> simp at events
    | connectNotFound _ _ _ _ _ _ _ _ => simp at events
    | connectQueued _ _ _ _ _ _ _ waits _ => rwa [waits] at body

theorem run_patient (run : Run env additional_service_dirs files log hub) : hub.Patient := by
  refine run.invariant (I := fun _ hub => hub.Patient) ?_ fun log hub action after out before patient _ taken => ?_
  · intro target waiter member
    cases member
  · cases step_cases taken with
    | resumed conn task input progress selecting present resumes =>
      exact patient.resume (run_accounted before) present resumes
    | _ => exact patient

/-- At rest the hub has answered every call, but for connects that wait for a service that is away. -/
theorem answered_at_rest (run : Run env additional_service_dirs files log hub) (rest : hub.AtRest)
    {client : Option String} {request : RpcRequest} (received : .received client request ∈ log)
    (call : request.body ≠ .notCall) : answers log request = refusals client request + 1 ∨
      ∃ target wait, request.body = .call (.ok (.connect target wait)) ∧
        request ∈ (hub.context.waiters target).map Prod.snd ∧ hub.context.client_registry.get target = none := by
  have ledger := (run_accounted run).ledger
  rcases ledger.settled client request received call with held | busy | ⟨counted, _⟩ | ⟨target, waits⟩
  · cases held
  · exact absurd busy (idle_at_rest rest client request)
  · exact .inl counted
  · obtain ⟨⟨wait, body⟩, _⟩ := ledger.waiting target request waits
    obtain ⟨unregistering, unbatched⟩ := unresolved_at_rest rest target
    rw [Hub.requests, Hub.line, unbatched, List.nil_append] at waits
    have someone : hub.context.waiters target ≠ [] := by
      intro nobody
      rw [nobody] at waits
      cases waits
    exact .inr ⟨target, wait, body, waits, (run_awaited run target someone).resolve_right unregistering⟩

/-- Left to itself the hub comes to rest, whatever the order of its own steps and whichever of its sends complete,
    or its main loop ends or waits for ever, or all that is left to do waits for a client to read. At rest it has
    answered every call, but for connects that wait for a service that is away. -/
theorem hub_settles (completes : Conn → Phase → Prop) (run : Run env additional_service_dirs files log hub) :
    Inevitably (step env) (Hub.Own completes) (fun hub => hub.AtRest ∨ hub.Halted ∨ hub.Stalled completes) hub ∧
    (hub.AtRest → hub.lock = none ∧
      ∀ client request, .received client request ∈ log → request.body ≠ .notCall →
        answers log request = refusals client request + 1 ∨
        ∃ target wait, request.body = .call (.ok (.connect target wait)) ∧
          request ∈ (hub.context.waiters target).map Prod.snd ∧
          hub.context.client_registry.get target = none) := by
  have consistent := run_consistent run
  refine ⟨internal_inevitable completes consistent, fun rest => ⟨?_, fun client request received call =>
    answered_at_rest run rest received call⟩⟩
  by_contra held
  obtain ⟨owner, task, present, holds⟩ := consistent.locked_iff.mp held
  have polls := rest.2 owner task present
  cases phase : task.phase <;> simp_all [Phase.polls, Phase.holdsLock]

/-- The last message of `com.a` is a connect to `com.b`, which is away. No client but `com.a` reads. -/
theorem hub_settles_waiting : ∃ log hub request,
    Run openEnvironment [] (openFiles ["com.a", "com.b"]) log hub ∧ hub.AtRest ∧
    answers log request = 0 ∧ request ∈ (hub.context.waiters "com.b").map Prod.snd ∧
    Inevitably (step openEnvironment) (Hub.Own fun conn _ => conn = 0)
      (fun hub => hub.AtRest ∨ hub.Halted ∨ hub.Stalled fun conn _ => conn = 0) hub := by
  obtain ⟨log, hub, run, shown⟩ := Transition.exists_run_of_execute (step openEnvironment)
    (Hub.new [] (openFiles ["com.a", "com.b"])) (registering 0 "com.a" ++ connecting 0 "com.b" true)
    (fun log hub => log.contains (.received (some "com.a")
        ⟨6, 0, 1, hubConnectMethod, .call (.ok (.connect "com.b" true))⟩) &&
      (answers log ⟨6, 0, 1, hubConnectMethod, .call (.ok (.connect "com.b" true))⟩ == 0 &&
        (hub.main == .selecting && hub.clock == 8 && (List.range 8).all fun conn =>
          (hub.tasks.get conn).all fun task => task.phase.polls))) (by decide +kernel)
  simp only [Bool.and_eq_true, List.contains_iff_mem, beq_iff_eq, List.all_eq_true, List.mem_range] at shown
  obtain ⟨received, unanswered, ⟨main, clock⟩, polls⟩ := shown
  have rest : hub.AtRest := by
    refine ⟨main, fun conn task present => ?_⟩
    have below := (run_consistent run).fresh conn task present
    rw [clock] at below
    have polled := polls conn below
    rwa [present] at polled
  obtain ⟨settles, resting⟩ := hub_settles (fun conn _ => conn = 0) run
  rcases (resting rest).2 _ _ received (by simp) with answered | ⟨target, wait, body, waits, _⟩
  · rw [unanswered] at answered
    cases answered
  · cases body
    exact ⟨log, hub, _, run, rest, unanswered, waits, settles⟩

end KrossbarHub
