import KrossbarBus.Rendezvous.Machine
import KrossbarBus.Hub.Offers

namespace KrossbarHub

open Transition

variable {env : HubEnvironment} {hub after : Hub} {conn : Conn} {input : Input} {progress : Progress} {task : Task}
  {action : Action} {request : RpcRequest} {target : String} {response : Response} {out log : List Event}
  {additional_service_dirs : List OsString} {files : FileSystem}

/-- The name that a request asks to be connected to. -/
def RpcRequest.wanted (request : RpcRequest) : Option String :=
  match request.body with
  | .call (.ok (.connect target _)) => some target
  | _ => none

/-- What the log of the hub says of the names, their members and the requests for them. -/
def Event.rendezvous : Event → Option (Rendezvous.Event String RpcWriter RpcRequest)
  | .registered service_name writer => some (.joined service_name writer)
  | .removed service_name conn => some (.left service_name conn)
  | .queued _ _ request => some (.waited request)
  | .responded request response =>
    if request.wanted = none then none
    else match response with
      | .fd _ => some (.met request)
      | _ => some (.declined request)
  | _ => none

def Hub.rendezvous (hub : Hub) : Rendezvous String RpcWriter RpcRequest where
  members := hub.context.client_registry
  waiting := hub.requests

abbrev Meets : List (Rendezvous.Event String RpcWriter RpcRequest) → Rendezvous String RpcWriter RpcRequest →
    Rendezvous String RpcWriter RpcRequest → Prop :=
  fun log place after => Transition.Run (Rendezvous.step RpcRequest.wanted) place log after

theorem wanted_of_body (body : ∃ wait, request.body = .call (.ok (.connect target wait))) :
    request.wanted = some target := by
  obtain ⟨wait, decoded⟩ := body
  simp [RpcRequest.wanted, decoded]

theorem requests_wanted (accounted : Accounted log hub) (waits : request ∈ hub.requests target) :
    request.wanted = some target := wanted_of_body (accounted.ledger.waiting target request waits).1

/-- A request that a task handles waits in no line. -/
theorem handled_absent (accounted : Accounted log hub) (present : hub.tasks.get conn = some task)
    (handles : Handles hub conn task.phase input request) (target : String) : request ∉ hub.requests target := by
  rcases handles with processes | ⟨message, _, own⟩
  · exact (accounted.ledger.processing _ request ⟨conn, task, present, processes, rfl⟩).2.2 target
  · intro waits
    obtain ⟨_, client, received, _⟩ := accounted.ledger.waiting target request waits
    have old := accounted.fresh client request received
    rw [own] at old
    exact Nat.lt_irrefl _ old

/-- Whoever gets a descriptor asked for a name that is registered. -/
theorem handed_registered (run : Run env additional_service_dirs files log hub)
    (present : hub.tasks.get conn = some task)
    (resumes : Resumes env hub conn task.credentials task.phase input progress) {pair : Nat}
    (member : .responded request (.fd pair) ∈ progress.events) :
    ∃ target, request.wanted = some target ∧ hub.context.client_registry.containsKey target = true := by
  obtain ⟨service_name, handover, next, was, rfl, _⟩ := resumes.hands member
  obtain ⟨offered, sanctioned⟩ := (run_vetted run).sending conn task service_name handover pair next present was
  refine ⟨handover.target, wanted_of_body (connectionRequest_offer run offered).body, ?_⟩
  rw [Table.containsKey, (run_vetted run).registry, sanctioned.registered]
  rfl

theorem responded_shown {event : Rendezvous.Event String RpcWriter RpcRequest}
    (shows : (Event.responded request response).rendezvous = some event) :
    ∃ target, request.wanted = some target ∧
      ((event = .met request ∧ ∃ pair, response = .fd pair) ∨ event = .declined request) := by
  simp only [Event.rendezvous] at shows
  split at shows
  · cases shows
  · rename_i wants
    obtain ⟨target, wanted⟩ := Option.ne_none_iff_exists'.mp wants
    refine ⟨target, wanted, ?_⟩
    split at shows
    · rename_i pair
      exact .inl ⟨(Option.some.inj shows).symm, pair, rfl⟩
    · exact .inr (Option.some.inj shows).symm

theorem responded_aside (run : Run env additional_service_dirs files log hub)
    (present : hub.tasks.get conn = some task)
    (resumes : Resumes env hub conn task.credentials task.phase input progress)
    (member : .responded request response ∈ progress.events) (handles : Handles hub conn task.phase input request)
    {event : Rendezvous.Event String RpcWriter RpcRequest}
    (shows : (Event.responded request response).rendezvous = some event) :
    Rendezvous.step RpcRequest.wanted hub.rendezvous event = some (hub.rendezvous, [event]) := by
  have aside : ∀ target, request ∉ hub.rendezvous.waiting target :=
    handled_absent (run_accounted run) present handles
  obtain ⟨target, wanted, ⟨rfl, pair, rfl⟩ | rfl⟩ := responded_shown shows
  · obtain ⟨other, same, registered⟩ := handed_registered run present resumes member
    rw [wanted] at same
    cases same
    have there : hub.rendezvous.members.containsKey target = true := registered
    simp [Rendezvous.step, wanted, there, Rendezvous.answer_aside (aside target)]
  · simp [Rendezvous.step, wanted, Rendezvous.answer_aside (aside target)]

/-- The head of a line is answered by the task that is registered under its name. -/
theorem served_registered (run : Run env additional_service_dirs files log hub) (selecting : hub.main = .selecting)
    (present : hub.tasks.get conn = some task)
    (resumes : Resumes env hub conn task.credentials task.phase input progress)
    (idle : task.phase.processing = none) (waits : request ∈ hub.requests target)
    (all : progress.events = [.responded request response]) : hub.context.client_registry.get target = some conn := by
  have accounted := run_accounted run
  have consistent := run_consistent run
  suffices named : task.phase.registeredAs = some target by
    rw [consistent.registry, owns_task selecting present]
    exact named
  have unhandled : ¬ Handles hub conn task.phase input request :=
    fun handles => handled_absent accounted present handles target waits
  have mine : ∀ {service_name initiator}, task.phase.registeredAs = some service_name →
      (initiator, request) ∈ hub.line service_name → task.phase.registeredAs = some target := by
    intro service_name initiator named there
    have wanted := requests_wanted accounted (List.mem_map_of_mem (f := Prod.snd) there)
    rw [requests_wanted accounted waits] at wanted
    cases wanted
    exact named
  have batch : ∀ {service_name}, task.phase.registeredAs = some service_name →
      hub.batch service_name = task.phase.batch := batch_of_task consistent selecting present
  cases resumes.emits (.responded request response) (by rw [all]; exact List.mem_singleton.mpr rfl) with
  | failed name initiator _ e source =>
    apply mine source.1
    rcases source.2 with batched | ⟨_, waiting⟩
    · exact List.mem_append_left _ (by rw [batch source.1]; exact batched)
    · exact List.mem_append_right _ waiting
  | answered _ _ handles plain => exact absurd handles unhandled
  | handed service_name handover pair next ok was all =>
    cases next with
    | loop =>
      rw [was] at idle
      cases idle
    | resolve waiters =>
      have named : task.phase.registeredAs = some service_name := by rw [was]; rfl
      apply mine named
      apply List.mem_append_left
      rw [batch named, was]
      exact List.mem_cons_self

theorem queued_absent {credentials : UCred} {phase : Phase} {initiator : String}
    (resumes : Resumes env hub conn credentials phase input progress)
    (queued : .queued target initiator request ∈ progress.events) :
    hub.context.client_registry.get target = none := by
  cases resumes.queues with
  | quiet pending batch aside => exact (aside _ queued).elim
  | queued service_name other own wait was now allowed absent context events =>
    rw [events] at queued
    simp only [List.mem_cons, reduceCtorEq, List.not_mem_nil, or_false, false_or, Event.queued.injEq] at queued
    rw [queued.1]
    exact absent
  | drawn service_name waiters source drawn =>
    rcases resolveWaiters_batch drawn with ⟨_, ⟨_, events⟩ | ⟨_, _, _, _, _, events⟩⟩ | ⟨_, _, _, _, _, events⟩ <;>
      simp [events] at queued
  | answered service_name handover pair waiters response was now context events => simp [events] at queued

theorem meets_one {place later : Rendezvous String RpcWriter RpcRequest}
    {event : Rendezvous.Event String RpcWriter RpcRequest}
    (taken : Rendezvous.step RpcRequest.wanted place event = some (later, [event])) : Meets [event] place later := by
  have first : Meets ([] ++ [event]) place later := .next .start trivial taken
  exact first

theorem resumed_meets (run : Run env additional_service_dirs files log hub) (selecting : hub.main = .selecting)
    (present : hub.tasks.get conn = some task)
    (resumes : Resumes env hub conn task.credentials task.phase input progress) :
    Meets (progress.events.filterMap Event.rendezvous) hub.rendezvous (hub.advance conn task progress).rendezvous := by
  have accounted := run_accounted run
  have moves := lineMoves (run_consistent run) selecting present resumes
  rcases resumes.registration with ⟨_, registry, unregistered⟩ | ⟨service_name, request, was, _, absent, registry, all⟩
  · have members : (hub.advance conn task progress).rendezvous.members = hub.rendezvous.members := registry
    cases moves with
    | still same aside =>
      have place : (hub.advance conn task progress).rendezvous = hub.rendezvous := by
        rw [Hub.rendezvous, requests_same same, advance_context, registry]
        rfl
      rw [place]
      apply Rendezvous.run_aside
      intro event shown
      obtain ⟨source, member, shows⟩ := List.mem_filterMap.mp shown
      cases source with
      | registered name writer => exact absurd member (unregistered name writer)
      | removed name other => exact absurd member (resumes.not_removed name other)
      | queued name initiator request => exact (aside _ member).elim
      | responded request response => exact responded_aside run present resumes member (aside _ member) shows
      | _ => cases shows
    | joins target initiator request asks grown same all =>
      obtain ⟨wait, asking⟩ := asks
      have wanted : request.wanted = some target :=
        wanted_of_body ⟨wait, accounted.bodies conn task initiator target request wait present asking⟩
      have absent : hub.rendezvous.members.containsKey target = false := by
        have queued : .queued target initiator request ∈ progress.events := by rw [all]; simp
        have free : hub.context.client_registry.get target = none := queued_absent resumes queued
        simp [Hub.rendezvous, Table.containsKey, free]
      have handles : Handles hub conn task.phase input request := .inl (by rw [asking]; rfl)
      have new : request ∉ hub.rendezvous.waiting target := handled_absent accounted present handles target
      have later : (hub.advance conn task progress).rendezvous = { hub.rendezvous with
          waiting := Function.update hub.rendezvous.waiting target (hub.rendezvous.waiting target ++ [request]) } := by
        simp only [Hub.rendezvous, advance_context, registry, Rendezvous.mk.injEq, true_and]
        funext other
        rw [Function.update_apply]
        split
        · rename_i this
          rw [this]
          simp [Hub.requests, grown]
        · rename_i different
          rw [Hub.requests, Hub.requests, same other different]
      have shown : progress.events.filterMap Event.rendezvous = [.waited request] := by rw [all]; rfl
      rw [shown, later]
      apply meets_one
      simp [Rendezvous.step, wanted, absent, new]
    | leaves target initiator request response idle head same all =>
      have line : hub.requests target = request :: (hub.advance conn task progress).requests target := by
        simp [Hub.requests, head]
      have waits : request ∈ hub.requests target := by rw [line]; exact List.mem_cons_self
      have wanted := requests_wanted accounted waits
      have attended : hub.rendezvous.members.containsKey target = true := by
        have holds := served_registered run selecting present resumes idle waits all
        simp [Hub.rendezvous, Table.containsKey, holds]
      have later : (hub.advance conn task progress).rendezvous = { hub.rendezvous with
          waiting := Function.update hub.rendezvous.waiting target
            ((hub.advance conn task progress).requests target) } := by
        simp only [Hub.rendezvous, advance_context, registry, Rendezvous.mk.injEq, true_and]
        funext other
        rw [Function.update_apply]
        split
        · rename_i this
          rw [this]
        · rename_i different
          rw [Hub.requests, Hub.requests, same other different]
      have answered := Rendezvous.answer_head line attended
      cases shows : (Event.responded request response).rendezvous with
      | none => simp [Event.rendezvous, wanted] at shows; split at shows <;> cases shows
      | some event =>
        have shown : progress.events.filterMap Event.rendezvous = [event] := by
          rw [all, List.filterMap_cons_some shows]
          rfl
        rw [shown, later]
        apply meets_one
        obtain ⟨_, _, ⟨rfl, _⟩ | rfl⟩ := responded_shown shows
        · simp [Rendezvous.step, wanted, attended, answered]
        · simp [Rendezvous.step, wanted, answered]
  · have same : (hub.advance conn task progress).requests = hub.requests := by
      cases moves with
      | still same aside => exact requests_same same
      | joins target initiator other asks grown same events => simp [all] at events
      | leaves target initiator other response idle head same events => simp [all] at events
    have unwanted : request.wanted = none := by
      have body := (run_traced run).registering conn task service_name request present was
      simp [RpcRequest.wanted, body]
    have shown : progress.events.filterMap Event.rendezvous = [.joined service_name request.writer] := by
      simp [all, List.filterMap_cons, Event.rendezvous, unwanted]
    have free : hub.rendezvous.members.containsKey service_name = false := by
      simp [Hub.rendezvous, Table.containsKey, absent]
    rw [shown]
    apply meets_one
    simp only [Rendezvous.step, free, Bool.false_eq_true, ↓reduceIte, Option.some.injEq, Prod.mk.injEq, and_true]
    simp [Hub.rendezvous, registry, same]

/-- The lines are read off the log, so that a step that logs nothing about them leaves them alone. -/
theorem requests_kept (accounted : Accounted log hub) (later : Accounted (log ++ out) after)
    (quiet : ∀ event ∈ out, ∀ target, waitingOp target event = .skip) : after.requests = hub.requests := by
  funext target
  rw [← accounted.ledger.queue, ← later.ledger.queue]
  exact backlog_unmoved fun event member => .inl (quiet event member target)

theorem step_meets (run : Run env additional_service_dirs files log hub)
    (taken : step env hub action = some (after, out)) :
    Meets (out.filterMap Event.rendezvous) hub.rendezvous after.rendezvous := by
  have later : Run env additional_service_dirs files (log ++ out) after := run.next trivial taken
  have kept : (∀ event ∈ out, ∀ target, waitingOp target event = .skip) → after.requests = hub.requests :=
    requests_kept (run_accounted run) (run_accounted later)
  have still : out.filterMap Event.rendezvous = [] → (∀ event ∈ out, ∀ target, waitingOp target event = .skip) →
      after.context.client_registry = hub.context.client_registry →
      Meets (out.filterMap Event.rendezvous) hub.rendezvous after.rendezvous := by
    intro silent quiet registry
    have same : after.rendezvous = hub.rendezvous := by rw [Hub.rendezvous, kept quiet, registry, Hub.rendezvous]
    rw [silent, same]
    exact .start
  cases step_cases taken with
  | resumed conn task input progress selecting present resumes => exact resumed_meets run selecting present resumes
  | removed conn service_name reaping free =>
    have holds : hub.rendezvous.members.get service_name = some conn :=
      ((run_consistent run).registry service_name conn).mpr (.inr reaping)
    have same := kept (by simp [waitingOp])
    rw [show [Event.removed service_name conn].filterMap Event.rendezvous = [.left service_name conn] from rfl]
    apply meets_one
    simp only [Rendezvous.step, holds, ↓reduceIte, Option.some.injEq, Prod.mk.injEq, and_true]
    exact congrArg (Rendezvous.mk (hub.context.client_registry.remove service_name)) same.symm
  | accepted credentials selecting => exact still rfl (by simp [waitingOp]) rfl
  | _ => exact still rfl (by simp) rfl

theorem run_refined (run : Run env additional_service_dirs files log hub) :
    Transition.Run (Rendezvous.step RpcRequest.wanted) .empty (log.filterMap Event.rendezvous) hub.rendezvous := by
  have nobody : (Hub.new additional_service_dirs files).rendezvous = .empty := by
    have initial : Run env additional_service_dirs files [] (Hub.new additional_service_dirs files) := .start
    have nothing := (run_accounted initial).ledger.queue
    rw [Hub.rendezvous, Rendezvous.empty, Rendezvous.mk.injEq]
    exact ⟨rfl, funext fun target => (nothing target).symm⟩
  rw [← nobody]
  exact run.refine Hub.rendezvous Event.rendezvous fun _ _ _ _ _ before _ taken => step_meets before taken

/-- Seen through its registrations, removals, queued requests and answers, the hub with its tasks, its lock
    and its sends that take time is a place where everything happens at once. -/
theorem hub_refines_rendezvous (run : Run env additional_service_dirs files log hub) :
    Transition.Run (Rendezvous.step RpcRequest.wanted) .empty (log.filterMap Event.rendezvous)
      { members := hub.context.client_registry, waiting := hub.requests } := run_refined run

theorem hub_refines_rendezvous_met : ∃ log hub,
    Run openEnvironment [] (openFiles ["com.a", "com.b"]) log hub ∧
    log.filterMap Event.rendezvous = [.joined "com.a" 0,
      .waited ⟨6, 0, 1, hubConnectMethod, .call (.ok (.connect "com.b" true))⟩, .joined "com.b" 8,
      .met ⟨6, 0, 1, hubConnectMethod, .call (.ok (.connect "com.b" true))⟩] ∧
    Transition.Run (Rendezvous.step RpcRequest.wanted) .empty (log.filterMap Event.rendezvous) hub.rendezvous := by
  obtain ⟨log, hub, run, shown⟩ := exists_run_of_execute (step openEnvironment)
    (Hub.new [] (openFiles ["com.a", "com.b"]))
    (registering 0 "com.a" ++ connecting 0 "com.b" true ++ registering 8 "com.b" ++ [.task 8 (.sent true)])
    (fun log _ => log.filterMap Event.rendezvous == [.joined "com.a" 0,
      .waited ⟨6, 0, 1, hubConnectMethod, .call (.ok (.connect "com.b" true))⟩, .joined "com.b" 8,
      .met ⟨6, 0, 1, hubConnectMethod, .call (.ok (.connect "com.b" true))⟩]) (by decide +kernel)
  exact ⟨log, hub, run, beq_iff_eq.mp shown, hub_refines_rendezvous run⟩

theorem queued_wanted (run : Run env additional_service_dirs files log hub) {initiator : String}
    (queued : .queued target initiator request ∈ log) : request.wanted = some target := by
  obtain ⟨before, middle, action, after, out, earlier, _, taken, emitted, _⟩ := run.emitted queued
  cases step_cases taken with
  | resumed conn task input progress selecting present resumes =>
    cases resumes.emits _ emitted with
    | queued _ _ _ wait was =>
      exact wanted_of_body ⟨wait, (run_accounted earlier).bodies conn task initiator target request wait present was⟩
  | _ => simp at emitted

/-- Whatever the answer is, a queued request gets none before its target registers. -/
theorem waiters_answered_after_registration (run : Run env additional_service_dirs files log hub) {initiator : String}
    {before middle later : List Event}
    (split : log = before ++ .queued target initiator request :: (middle ++ .responded request response :: later)) :
    ∃ writer, .registered target writer ∈ middle := by
  have queued : .queued target initiator request ∈ log := by simp [split]
  have wanted := queued_wanted run queued
  obtain ⟨event, shows, answers⟩ : ∃ event, (Event.responded request response).rendezvous = some event ∧
      event.answers = some request := by
    cases response with
    | fd pair => exact ⟨.met request, by simp [Event.rendezvous, wanted], rfl⟩
    | ok | err e => exact ⟨.declined request, by simp [Event.rendezvous, wanted], rfl⟩
  have shown : log.filterMap Event.rendezvous = before.filterMap Event.rendezvous ++
      .waited request :: (middle.filterMap Event.rendezvous ++ event :: later.filterMap Event.rendezvous) := by
    have waits : (Event.queued target initiator request).rendezvous = some (.waited request) := rfl
    rw [split, List.filterMap_append, List.filterMap_cons_some waits, List.filterMap_append,
      List.filterMap_cons_some shows]
  obtain ⟨writer, joined⟩ := Rendezvous.joined_meanwhile (run_refined run) wanted answers shown
  obtain ⟨source, member, joins⟩ := List.mem_filterMap.mp joined
  refine ⟨writer, ?_⟩
  cases source with
  | registered name other =>
    cases joins
    exact member
  | responded own answer =>
    obtain ⟨_, _, ⟨same, _⟩ | same⟩ := responded_shown joins <;> cases same
  | removed name other => cases joins
  | queued name own other => cases joins
  | _ => cases joins

theorem waiters_answered_after_registration_served : ∃ log hub before middle,
    Run openEnvironment [] (openFiles ["com.a", "com.b"]) log hub ∧
    log = before ++ .queued "com.b" "com.a" ⟨6, 0, 1, hubConnectMethod, .call (.ok (.connect "com.b" true))⟩ ::
      (middle ++ .responded ⟨6, 0, 1, hubConnectMethod, .call (.ok (.connect "com.b" true))⟩ (.fd 13) :: []) ∧
    ∃ writer, .registered "com.b" writer ∈ middle := by
  obtain ⟨log, hub, run, shown⟩ := exists_run_of_execute (step openEnvironment)
    (Hub.new [] (openFiles ["com.a", "com.b"]))
    (registering 0 "com.a" ++ connecting 0 "com.b" true ++ registering 8 "com.b" ++ [.task 8 (.sent true)])
    (fun log _ => log == log.take 7 ++
      .queued "com.b" "com.a" ⟨6, 0, 1, hubConnectMethod, .call (.ok (.connect "com.b" true))⟩ ::
      ((log.drop 8).take 6 ++
        .responded ⟨6, 0, 1, hubConnectMethod, .call (.ok (.connect "com.b" true))⟩ (.fd 13) :: [])) (by decide +kernel)
  have split := beq_iff_eq.mp shown
  exact ⟨log, hub, log.take 7, (log.drop 8).take 6, run, split, waiters_answered_after_registration run split⟩

end KrossbarHub
