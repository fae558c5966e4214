import KrossbarBus.Hub.Responses

namespace KrossbarHub

open Transition

variable {env : HubEnvironment} {hub after : Hub} {conn : Conn} {credentials : UCred} {phase : Phase}
  {input : Input} {progress : Progress} {task : Task} {action : Action} {out log : List Event}
  {additional_service_dirs : List OsString} {files : FileSystem} {request : RpcRequest} {response : Response}
  {client : Option String}

/-- The request has had one answer at most, an error, and nothing was done for it. -/
structure Refused (log : List Event) (request : RpcRequest) : Prop where
  once : answers log request ≤ 1
  errors : ∀ response, .responded request response ∈ log → ∃ e, response = .err e
  unoffered : ∀ writer initiator target pair, .connectionRequest writer initiator target pair request ∉ log
  unqueued : ∀ target initiator, .queued target initiator request ∉ log

/-- Its sender has also kept the place in the registry that it had. `since` is what the hub has done from the receipt
    of the request on. -/
structure Rejected (log since : List Event) (request : RpcRequest) : Prop extends Refused (log ++ since) request where
  unregistered : ∀ service_name, .registered service_name request.writer ∉ since
  unremoved : ∀ service_name, .removed service_name request.writer ∉ since

/-- The connection yields neither another message nor its end. -/
def Undisturbed (conn : Conn) (_ : Hub) (action : Action) : Prop := ∀ message, action ≠ .task conn (.polled message)

/-- The loop of the client polls its connection again, or the task of the connection has ended and is reaped. -/
def Hub.Through (hub : Hub) (conn : Conn) : Prop :=
  (∀ service_name, hub.main ≠ .disconnected conn service_name) ∧
    ∀ task, hub.tasks.get conn = some task → ∃ service_name, task.phase = .clientPoll service_name

/-- The step is made by a task for the request: it receives it or goes on with it. -/
def Hub.Attends (hub : Hub) (request : RpcRequest) : Action → Prop
  | .task conn input => ∃ task, hub.tasks.get conn = some task ∧ Handles hub conn task.phase input request
  | _ => False

/-- A request whose body is no call is only ever answered with an error, for its endpoint or by
    `authorize`. -/
theorem silent_responds (run : Run env additional_service_dirs files log hub)
    (present : hub.tasks.get conn = some task) (silent : request.body = .notCall)
    (responds : Responds env hub conn task.phase input request response) :
    (∃ e, response = .err e) ∧ Handles hub conn task.phase input request ∧
      (task.phase.registeredAs = none ∨
        ∃ message, input = .polled (some message) ∧ request = message.request hub.clock conn) := by
  have accounted := run_accounted run
  have connects : ∀ {service_name target wait}, task.phase ≠ .connectLock service_name target request wait := by
    intro service_name target wait was
    have body := accounted.bodies conn task service_name target request wait present was
    rw [silent] at body
    cases body
  cases responds with
  | wrongEndpoint message polled own wrong e =>
    exact ⟨⟨e, rfl⟩, .inr ⟨message, polled, own⟩, .inr ⟨message, polled, own⟩⟩
  | invalidRegister handles unnamed body e => exact ⟨⟨e, rfl⟩, handles, .inl unnamed⟩
  | invalidConnect handles called body e => exact absurd silent called
  | registration service_name was response plain =>
    have body := (run_traced run).registering conn task service_name request present was
    rw [silent] at body
    cases body
  | notAllowed service_name target wait was locked denied => exact absurd was connects
  | notFound service_name target wait was locked hopeless => exact absurd was connects
  | unpaired asks text failed =>
    rcases asks with ⟨service_name, target, wait, was⟩ | ⟨target, initiator, draws⟩
    · exact absurd was connects
    · have cleared := (run_vetted run).drawn_cleared present draws
      obtain ⟨_, wait, body⟩ := (run_traced run).checked _ _ _ _ cleared.checked
      rw [silent] at body
      cases body
  | handed service_name handover pair next ok was own sent =>
    have offered := ((run_vetted run).sending conn task service_name handover pair next present was).1
    obtain ⟨wait, body⟩ := (connectionRequest_offer run offered).body
    rw [own, silent] at body
    cases body

theorem queued_body (accounted : Accounted log hub) (taken : step env hub action = some (after, out))
    {target initiator : String} (queued : .queued target initiator request ∈ out) :
    ∃ wait, request.body = .call (.ok (.connect target wait)) := by
  cases step_cases taken with
  | resumed conn task input progress selecting present resumes =>
    cases resumes.emits _ queued with
    | queued _ _ _ wait was =>
      exact ⟨wait, accounted.bodies conn task initiator target request wait present was⟩
  | _ => simp at queued

theorem Outcome.answers_le {seen : Nat} {rest : List Event} {next : Phase}
    (outcome : Outcome client request seen rest next) : answers rest request ≤ 1 := by
  cases outcome with
  | refused response unseen wrong named now all => simp [all]
  | kept due named now neutral => simp [answers_neutral neutral]
  | answered due checks response now neutral all => simp [all, answers_neutral neutral]
  | queued due target initiator now all => simp [all, answers, answersRequest]
  | dropped now silent all => simp [all, answers]

theorem answers_unanswered (unanswered : ∀ response, .responded request response ∉ out) :
    answers out request = 0 := by
  apply List.countP_eq_zero.mpr
  intro event member answering
  unfold answersRequest at answering
  split at answering
  · rename_i other response
    rw [of_decide_eq_true answering] at member
    exact unanswered response member
  · cases answering

/-- A step that receives the request answers it at most once, and it is the first to do so. -/
theorem received_answers (accounted : Accounted log hub) (taken : step env hub action = some (after, out))
    (received : .received client request ∈ out) : answers (log ++ out) request ≤ 1 := by
  have fresh : ∀ other, .received other request ∉ log := by
    intro other old
    obtain ⟨message, _, own⟩ := step_received taken received
    have older := accounted.fresh other request old
    rw [own] at older
    exact Nat.lt_irrefl _ older
  have unseen : answers log request = 0 := by
    by_contra counted
    obtain ⟨other, old⟩ := accounted.ledger.known request counted
    exact fresh other old
  rw [answers_append, unseen, Nat.zero_add]
  cases step_cases taken with
  | resumed conn task input progress selecting present resumes =>
    obtain ⟨message, rest, _, _, _, events, outcome⟩ := resumes.treats.received received
    rw [events, ← List.singleton_append, answers_append, answers_received, Nat.zero_add]
    exact outcome.answers_le
  | accepted credentials selecting => simp at received
  | removed conn service_name reaping free => simp at received
  | _ => cases received

/-- A request without a call from a registered client is never answered again. -/
theorem silent_answers (run : Run env additional_service_dirs files log hub) {service_name : String}
    (received : .received (some service_name) request ∈ log) (silent : request.body = .notCall) :
    answers log request ≤ 1 := by
  apply run.invariant (I := fun log _ => .received (some service_name) request ∈ log → answers log request ≤ 1)
  · simp
  · intro log hub action after out before once _ taken received
    have accounted := run_accounted before
    by_cases new : .received (some service_name) request ∈ out
    · exact received_answers accounted taken new
    · have old := (List.mem_append.mp received).resolve_right new
      have unanswered : ∀ response, .responded request response ∉ out := by
        intro response member
        obtain ⟨conn, task, input, progress, rfl, present, _, _, responds⟩ := step_responds taken member
        obtain ⟨_, handles, source⟩ := silent_responds before present silent responds
        have fresh : ¬ ∃ message, input = .polled (some message) ∧ request = message.request hub.clock conn := by
          rintro ⟨message, _, own⟩
          have older := accounted.fresh _ request old
          rw [own] at older
          exact Nat.lt_irrefl _ older
        have unnamed := source.resolve_right fresh
        have busy : hub.busy none request := ⟨conn, task, present, handles.resolve_right fresh, unnamed⟩
        have stranger := (accounted.ledger.processing none request busy).1
        cases accounted.ledger.single _ _ request old stranger
      rw [answers_append, answers_unanswered unanswered, Nat.add_zero]
      exact once old
  · exact received

theorem silent_refused (run : Run env additional_service_dirs files log hub) {service_name : String}
    (received : .received (some service_name) request ∈ log) (silent : request.body = .notCall) :
    Refused log request := by
  refine ⟨silent_answers run received silent, ?_, ?_, ?_⟩
  · intro response member
    obtain ⟨_, _, _, _, _, before, _, taken, emitted, _⟩ := run.emitted member
    obtain ⟨_, _, _, _, _, present, _, _, responds⟩ := step_responds taken emitted
    exact (silent_responds before present silent responds).1
  · intro writer initiator target pair offered
    obtain ⟨wait, body⟩ := (connectionRequest_offer run offered).body
    rw [silent] at body
    cases body
  · intro target initiator queued
    obtain ⟨before, middle, action, after, out, earlier, _, taken, emitted, _⟩ := run.emitted queued
    have connects := queued_body (run_accounted earlier) taken emitted
    obtain ⟨wait, body⟩ := connects
    rw [silent] at body
    cases body

/-- `authorize` never drops a request: it answers the one that it lets go. -/
theorem Resumes.undropped (resumes : Resumes env hub conn credentials phase input progress)
    (unnamed : phase.registeredAs = none) (handles : Handles hub conn phase input request)
    (released : progress.phase.processing = none) : ∃ response, .responded request response ∈ progress.events := by
  cases resumes with
  | authRefused message wrong e => cases released
  | authReceived message right next events body =>
    have own : request = message.request hub.clock conn := by
      rcases handles with processes | ⟨same, polled, own⟩
      · cases processes
      · cases polled
        exact own
    rcases authorizeBody_cases body with ⟨service_name, _, rfl, rfl⟩ | ⟨_, rfl, e, rfl⟩
    · cases released
    · exact ⟨.err e, by simp [own]⟩
  | authContinued own ok next events body =>
    have same : own = request := by simpa [Handles, Phase.processing] using handles
    rcases authorizeBody_cases body with ⟨service_name, _, rfl, rfl⟩ | ⟨_, rfl, e, rfl⟩
    · cases released
    · exact ⟨.err e, by simp [same]⟩
  | alreadyRegistered service_name own free taken =>
    have same : own = request := by simpa [Handles, Phase.processing] using handles
    exact ⟨_, by rw [same]; exact List.mem_singleton.mpr rfl⟩
  | registrationDenied service_name own free absent denied =>
    have same : own = request := by simpa [Handles, Phase.processing] using handles
    exact ⟨.err .notAllowed, by simp [same]⟩
  | registrationAllowed service_name own free absent allowed =>
    have same : own = request := by simpa [Handles, Phase.processing] using handles
    exact ⟨.ok, by simp [same]⟩
  | authLost => simp [Handles, Phase.processing] at handles
  | authErrorReplied ok => simp [Handles, Phase.processing] at handles
  | authErrorFlushed ok => simp [Handles, Phase.processing] at handles
  | _ => cases unnamed

theorem busy_kept (consistent : hub.Consistent) (taken : step env hub action = some (after, out))
    (busy : hub.busy client request) (elsewhere : ¬ hub.Attends request action) : after.busy client request := by
  obtain ⟨conn, task, there, processes, named⟩ := busy
  have reaped : ∀ {gone credentials result}, hub.tasks.get gone = some ⟨credentials, .finished result⟩ →
      (hub.tasks.remove gone).get conn = some task := by
    intro gone credentials result finished
    have different : conn ≠ gone := by
      intro same
      rw [same, finished] at there
      cases there
      cases processes
    rw [Table.get_remove_of_ne different]
    exact there
  cases step_cases taken with
  | accepted credentials selecting =>
    have older := consistent.fresh conn task there
    exact ⟨conn, task, (Table.get_insert_of_ne (Nat.ne_of_lt older)).trans there, processes, named⟩
  | resumed other next input progress selecting present resumes =>
    have different : conn ≠ other := by
      intro same
      subst same
      exact elsewhere ⟨task, there, .inl processes⟩
    exact ⟨conn, task, by simp [different, there], processes, named⟩
  | disconnected gone credentials service_name selecting present =>
    exact ⟨conn, task, reaped present, processes, named⟩
  | anonymousDisconnected gone credentials selecting present =>
    exact ⟨conn, task, reaped present, processes, named⟩
  | _ => exact ⟨conn, task, there, processes, named⟩

theorem received_attends (taken : step env hub action = some (after, out))
    (received : .received client request ∈ out) : hub.Attends request action := by
  cases step_cases taken with
  | resumed conn task input progress selecting present resumes =>
    cases resumes.emits _ received with
    | received _ _ handles => exact ⟨task, present, handles⟩
  | _ => simp at received

/-- A task of `authorize` that runs on with a request it has refused keeps it or answers it again. -/
theorem Resumes.refuses_again (resumes : Resumes env hub conn credentials phase input progress)
    (unnamed : phase.registeredAs = none) (handles : Handles hub conn phase input request)
    (wrong : refusals none request = 1) :
    (progress.phase.processing = some request ∧ progress.phase.registeredAs = none) ∨
      (phase.processing = some request ∧ 1 ≤ answers progress.events request) := by
  cases resumes.treats with
  | other unpolled was now unreceived =>
    rcases handles with processes | ⟨message, polled, _⟩
    · rw [was] at processes
      cases processes
    · exact absurd polled (unpolled message)
  | receives message polled was rest events outcome =>
    have own : request = message.request hub.clock conn := by
      rcases handles with processes | ⟨same, polled', own⟩
      · rw [was] at processes
        cases processes
      · rw [polled] at polled'
        cases polled'
        exact own
    rw [unnamed, ← own] at outcome
    cases outcome with
    | refused response unseen _ named now all => exact .inl ⟨now, named⟩
    | kept due named now neutral => exact .inl ⟨now, named⟩
    | answered due => omega
    | queued due => omega
    | dropped now silent all =>
      obtain ⟨response, answered⟩ := resumes.undropped unnamed handles now
      simp [events, all] at answered
  | proceeds unpolled own was outcome =>
    have same : own = request := by
      rcases handles with processes | ⟨message, polled, _⟩
      · rw [was] at processes
        exact Option.some.inj processes
      · exact absurd polled (unpolled message)
    subst same
    rw [unnamed] at outcome
    by_cases released : progress.phase.processing = none
    · obtain ⟨response, answered⟩ := resumes.undropped unnamed handles released
      exact .inr ⟨was, answers_answered answered⟩
    · cases outcome with
      | refused response unseen => omega
      | kept due named now neutral => exact .inl ⟨now, named⟩
      | answered due checks response now => exact absurd now released
      | queued due target initiator now => exact absurd now released
      | dropped now => exact absurd now released

theorem refused_again (run : Run env additional_service_dirs files log hub)
    (received : .received none request ∈ log) (wrong : refusals none request = 1) :
    hub.busy none request ∨ 2 ≤ answers log request := by
  apply run.invariant
    (I := fun log hub => .received none request ∈ log → hub.busy none request ∨ 2 ≤ answers log request)
  · simp
  · intro log hub action after out before again _ taken received
    have consistent := run_consistent before
    have later := (run_accounted (before.next trivial taken)).ledger
    by_cases attends : hub.Attends request action
    · cases step_cases taken with
      | resumed conn task input progress selecting present resumes =>
        obtain ⟨same, there, handles⟩ := attends
        rw [present] at there
        cases there
        have unnamed : task.phase.registeredAs = none :=
          later.single _ _ request (handled_received (run_accounted before) present resumes handles) received
        rcases resumes.refuses_again unnamed handles wrong with ⟨processes, named⟩ | ⟨was, answered⟩
        · exact .inl ⟨conn, { task with phase := progress.phase }, by simp, processes, named⟩
        · have once := ((run_accounted before).ledger.processing none request ⟨conn, task, present, was, unnamed⟩).2.1
          rw [answers_append]
          exact .inr (by omega)
      | crashed conn task input selecting present panics =>
        rw [List.append_nil] at received ⊢
        exact again received
      | _ => exact attends.elim
    · have old : .received none request ∈ log :=
        (List.mem_append.mp received).resolve_right fun new => attends (received_attends taken new)
      rcases again old with busy | twice
      · exact .inl (busy_kept consistent taken busy attends)
      · rw [answers_append]
        exact .inr (by omega)
  · exact received

theorem waitingOp_join {target : String} {event : Event} (joins : waitingOp target event = .join request) :
    ∃ initiator, event = .queued target initiator request := by
  cases event with
  | queued name initiator own =>
    simp only [waitingOp] at joins
    split at joins
    · rename_i same
      cases joins
      exact ⟨initiator, by rw [same]⟩
    · cases joins
  | _ => cases joins

/-- The request is refused exactly if it was read by `client_loop` and carries no call: the bodies that `authorize`
    and `client_loop` go on with after the failed test are answered again or acted upon. -/
theorem refused_iff_silent (run : Run env additional_service_dirs files log hub)
    (received : .received client request ∈ log) (wrong : refusals client request = 1)
    (handled : ¬ hub.busy client request) : Refused log request ↔ client ≠ none ∧ request.body = .notCall := by
  constructor
  · intro clean
    have ledger := (run_accounted run).ledger
    have silent : request.body = .notCall := by
      by_contra called
      rcases ledger.settled client request received called with held | busy | ⟨twice, _⟩ | ⟨target, waits⟩
      · cases held
      · exact handled busy
      · have once := clean.once
        omega
      · rw [← ledger.queue] at waits
        obtain ⟨event, member, joins⟩ := backlog_joined waits
        obtain ⟨initiator, rfl⟩ := waitingOp_join joins
        exact clean.unqueued target initiator member
    refine ⟨?_, silent⟩
    rintro rfl
    rcases refused_again run received wrong with busy | twice
    · exact handled busy
    · have once := clean.once
      omega
  · rintro ⟨registered, silent⟩
    obtain ⟨service_name, rfl⟩ := Option.ne_none_iff_exists'.mp registered
    exact silent_refused run received silent

/-- A client whose request without a call `client_loop` has refused, on its way out of the registry. -/
inductive Leaves (conn : Conn) (service_name : String) (since : List Event) (hub : Hub) : Prop
  | replying (task : Task) (request : RpcRequest) (present : hub.tasks.get conn = some task)
      (phase : task.phase = .clientEndpointReply service_name request) (silent : request.body = .notCall)
  | finished (task : Task) (present : hub.tasks.get conn = some task)
      (phase : task.phase = .finished (some service_name))
  | reaped (main : hub.main = .disconnected conn service_name)
  | removed (member : .removed service_name conn ∈ since)

variable {service_name : String} {since : List Event}

/-- A step that leaves the task of the connection alone. -/
theorem Leaves.kept (leaves : Leaves conn service_name since hub) (selecting : hub.main = .selecting)
    (same : ∀ task, hub.tasks.get conn = some task → after.tasks.get conn = some task) :
    Leaves conn service_name (since ++ out) after := by
  cases leaves with
  | replying task request present phase silent => exact .replying task request (same task present) phase silent
  | finished task present phase => exact .finished task (same task present) phase
  | reaped main =>
    rw [selecting] at main
    cases main
  | removed member => exact .removed (List.mem_append_left _ member)

/-- `client_loop` returns the name of the client after the reply, and nothing else becomes of its task. -/
theorem Leaves.resumed (leaves : Leaves conn service_name since hub) (selecting : hub.main = .selecting)
    (present : hub.tasks.get conn = some task)
    (resumes : Resumes env hub conn task.credentials task.phase input progress) :
    Leaves conn service_name (since ++ progress.events) (hub.advance conn task progress) := by
  cases leaves with
  | replying found request there phase silent =>
    rw [present] at there
    cases there
    rw [phase] at resumes
    cases resumes with
    | clientContinued _ _ ok next events body =>
      simp only [clientBody, silent] at body
      cases body
      exact .finished { task with phase := .finished (some service_name) } (by simp) rfl
  | finished found there phase =>
    rw [present] at there
    cases there
    rw [phase] at resumes
    cases resumes
  | reaped main =>
    rw [selecting] at main
    cases main
  | removed member => exact .removed (List.mem_append_left _ member)

/-- A finished task is reaped under the name that it returns. -/
theorem Leaves.next (leaves : Leaves conn service_name since hub) {gone : Conn} {result : Option String}
    (selecting : hub.main = .selecting) (present : hub.tasks.get gone = some ⟨credentials, .finished result⟩)
    (tasks : after.tasks = hub.tasks.remove gone)
    (main : ∀ name, result = some name → after.main = .disconnected gone name) :
    Leaves conn service_name (since ++ out) after := by
  by_cases same : conn = gone
  · subst same
    cases leaves with
    | replying found request there phase silent =>
      rw [present] at there
      cases there
      cases phase
    | finished found there phase =>
      rw [present] at there
      cases there
      cases phase
      exact .reaped (main service_name rfl)
    | reaped reaping =>
      rw [selecting] at reaping
      cases reaping
    | removed member => exact .removed (List.mem_append_left _ member)
  · refine leaves.kept selecting fun task there => ?_
    rw [tasks, Table.get_remove_of_ne same]
    exact there

theorem Leaves.preserved (leaves : Leaves conn service_name since hub) (consistent : hub.Consistent)
    (taken : step env hub action = some (after, out)) : Leaves conn service_name (since ++ out) after := by
  cases step_cases taken with
  | accepted credentials selecting =>
    refine leaves.kept selecting fun task there => ?_
    have older := consistent.fresh conn task there
    exact (Table.get_insert_of_ne (Nat.ne_of_lt older)).trans there
  | acceptFailed selecting => exact leaves.kept selecting fun _ there => there
  | resumed other task input progress selecting present resumes =>
    by_cases same : conn = other
    · subst same
      exact leaves.resumed selecting present resumes
    · exact leaves.kept selecting fun found there => by simp [same, there]
  | crashed other task input selecting present panics => exact leaves.kept selecting fun _ there => there
  | disconnected gone credentials name selecting present =>
    exact leaves.next selecting present rfl fun _ named => by cases named; rfl
  | anonymousDisconnected gone credentials selecting present =>
    exact leaves.next selecting present rfl fun _ named => by cases named
  | removed gone name reaping free =>
    cases leaves with
    | replying found request there phase silent => exact .replying found request there phase silent
    | finished found there phase => exact .finished found there phase
    | reaped main =>
      rw [reaping] at main
      cases main
      exact .removed (List.mem_append_right _ (List.mem_singleton_self _))
    | removed member => exact .removed (List.mem_append_left _ member)
  | interrupted selecting => exact leaves.kept selecting fun _ there => there
  | filesEdited other =>
    rw [List.append_nil]
    cases leaves with
    | replying found request there phase silent => exact .replying found request there phase silent
    | finished found there phase => exact .finished found there phase
    | reaped main => exact .reaped main
    | removed member => exact .removed member

theorem received_leaves (taken : step env hub action = some (after, out))
    (received : .received (some service_name) request ∈ out) (wrong : refusals (some service_name) request = 1)
    (silent : request.body = .notCall) : Leaves request.writer service_name out after := by
  obtain ⟨message, rfl, own⟩ := step_received taken received
  cases step_cases taken with
  | resumed _ task _ progress selecting present resumes =>
    generalize was : task.phase = phase at resumes
    cases resumes with
    | clientRefused name _ unlike e =>
      have named : name = service_name ∧ message.request hub.clock request.writer = request := by
        simpa [eq_comm] using received
      obtain ⟨rfl, same⟩ := named
      rw [same]
      exact .replying { task with phase := .clientEndpointReply name request } request (by simp) rfl silent
    | clientReceived name _ right next events body =>
      rw [own] at wrong
      simp [refusals, Message.request, right] at wrong
    | authRefused _ unlike e => simp at received
    | authReceived _ right next events body =>
      rcases authorizeBody_cases body with ⟨_, _, rfl, rfl⟩ | ⟨_, rfl, e, rfl⟩ <;> simp at received
  | crashed _ task _ selecting present panics => cases received

/-- No request to the wrong endpoint is rejected as it should be, once the hub is through with it and its sender has
    done nothing more: it is answered twice, acted upon or queued, or it costs its sender the place in the
    registry. -/
theorem wrong_endpoints_never_rejected (run : Run env additional_service_dirs files log hub)
    (taken : step env hub action = some (after, out)) (received : .received client request ∈ out)
    (wrong : refusals client request = 1) {later : List Event} {final : Hub}
    (rest : RunWith (step env) (Undisturbed request.writer) after later final)
    (through : final.Through request.writer) :
    ¬ Rejected log (out ++ later) request ∧
      (Refused (log ++ (out ++ later)) request ↔ client ≠ none ∧ request.body = .notCall) := by
  have reached : Run env additional_service_dirs files (log ++ out) after := run.next trivial taken
  have whole : Run env additional_service_dirs files (log ++ (out ++ later)) final := by
    rw [← List.append_assoc]
    exact reached.append rest.run
  have handled : ¬ final.busy client request := by
    rintro ⟨conn, task, present, processes, _⟩
    have own := (run_consistent whole).own conn task request present processes
    rw [← own] at present
    obtain ⟨_, polls⟩ := through.2 task present
    rw [polls] at processes
    cases processes
  have refused := refused_iff_silent whole (List.mem_append_right _ (List.mem_append_left _ received)) wrong handled
  refine ⟨fun rejected => ?_, refused⟩
  obtain ⟨registered, silent⟩ := refused.mp rejected.toRefused
  obtain ⟨service_name, rfl⟩ := Option.ne_none_iff_exists'.mp registered
  have leaves : Leaves request.writer service_name (out ++ later) final := by
    refine rest.invariant (I := fun later final => Leaves request.writer service_name (out ++ later) final) ?_ ?_
    · rw [List.append_nil]
      exact received_leaves taken received wrong silent
    · intro later current action next emitted before leaves _ moved
      rw [← List.append_assoc]
      exact leaves.preserved (run_consistent (reached.append before.run)) moved
  cases leaves with
  | replying task own present phase _ =>
    obtain ⟨_, polls⟩ := through.2 task present
    rw [phase] at polls
    cases polls
  | finished task present phase =>
    obtain ⟨_, polls⟩ := through.2 task present
    rw [phase] at polls
    cases polls
  | reaped main => exact through.1 service_name main
  | removed member => exact rejected.unremoved service_name member

def hearsNothing (conn : Conn) (_ : Hub) : Action → Bool
  | .task other (.polled _) => other != conn
  | _ => true

theorem hearsNothing_undisturbed (passed : hearsNothing conn hub action = true) : Undisturbed conn hub action := by
  rintro message rfl
  simp [hearsNothing] at passed

/-- A message that com.a sends to a wrong endpoint is answered once, and com.a is no longer registered. -/
theorem wrong_endpoints_never_rejected_silent : ∃ log hub action after out later final request,
    Run openEnvironment [] (openFiles ["com.a"]) log hub ∧ hub.context.client_registry.get "com.a" = some 0 ∧
    step openEnvironment hub action = some (after, out) ∧ .received (some "com.a") request ∈ out ∧
    RunWith (step openEnvironment) (Undisturbed request.writer) after later final ∧
    final.context.client_registry.get "com.a" = none ∧
    ¬ Rejected log (out ++ later) request ∧ Refused (log ++ (out ++ later)) request := by
  obtain ⟨log, hub, run, enabled⟩ := exists_run_of_execute (step openEnvironment)
    (Hub.new [] (openFiles ["com.a"])) (registering 0 "com.a")
    (fun _ hub => hub.context.client_registry.get "com.a" == some 0 &&
      (step openEnvironment hub (.task 0 (.polled (some ⟨1, "status", .notCall⟩)))).any fun received =>
        received.2.contains (.received (some "com.a") ⟨6, 0, 1, "status", .notCall⟩) &&
        (execute (guarded (step openEnvironment) (hearsNothing 0)) received.1
          [.task 0 (.sent true), .next 0, .removeClient]).any fun final =>
          final.1.main == .selecting && final.1.tasks.get 0 == none &&
            final.1.context.client_registry.get "com.a" == none) (by decide +kernel)
  simp only [Bool.and_eq_true, Option.any_eq_true, beq_iff_eq, List.contains_iff_mem] at enabled
  obtain ⟨entry, ⟨after, out⟩, taken, received, ⟨final, later⟩, executed, ⟨selecting, absent⟩, gone⟩ := enabled
  have rest : RunWith (step openEnvironment) (Undisturbed 0) after later final :=
    (execute_run executed).of_guarded fun _ _ _ _ passed => hearsNothing_undisturbed passed
  have through : final.Through 0 := by
    refine ⟨fun service_name disconnected => ?_, fun task present => ?_⟩
    · rw [selecting] at disconnected
      cases disconnected
    · rw [absent] at present
      cases present
  obtain ⟨rejected, refused⟩ := wrong_endpoints_never_rejected run taken received (by decide) rest through
  exact ⟨log, hub, _, after, out, later, final, _, run, entry, taken, received, rest, gone, rejected,
    refused.mpr ⟨by simp, rfl⟩⟩

/-- The registration of a client that calls the wrong endpoint is refused, and then made. -/
theorem wrong_endpoint_registers : ∃ log hub action after out later final request,
    Run openEnvironment [] (openFiles ["com.a"]) log hub ∧ step openEnvironment hub action = some (after, out) ∧
    .received none request ∈ out ∧ request.endpoint ≠ hubRegisterMethod ∧
    RunWith (step openEnvironment) (Undisturbed request.writer) after later final ∧
    hub.context.client_registry.get "com.a" = none ∧
    final.context.client_registry.get "com.a" = some request.writer ∧ answers (log ++ (out ++ later)) request = 2 ∧
    ¬ Rejected log (out ++ later) request := by
  obtain ⟨log, hub, run, enabled⟩ := exists_run_of_execute (step openEnvironment)
    (Hub.new [] (openFiles ["com.a"])) [.accept (some ⟨some 7⟩)]
    (fun log hub => hub.context.client_registry.get "com.a" == none &&
      (step openEnvironment hub
        (.task 0 (.polled (some ⟨1, hubConnectMethod, .call (.ok (.register "com.a"))⟩)))).any fun received =>
        received.2.contains (.received none ⟨1, 0, 1, hubConnectMethod, .call (.ok (.register "com.a"))⟩) &&
        (execute (guarded (step openEnvironment) (hearsNothing 0)) received.1
          [.task 0 (.sent true), .task 0 .locked]).any fun final =>
          final.1.context.client_registry.get "com.a" == some 0 &&
            answers (log ++ (received.2 ++ final.2))
              ⟨1, 0, 1, hubConnectMethod, .call (.ok (.register "com.a"))⟩ == 2) (by decide +kernel)
  simp only [Bool.and_eq_true, Option.any_eq_true, beq_iff_eq, List.contains_iff_mem] at enabled
  obtain ⟨absent, ⟨after, out⟩, taken, received, ⟨final, later⟩, executed, entry, twice⟩ := enabled
  have rest : RunWith (step openEnvironment) (Undisturbed 0) after later final :=
    (execute_run executed).of_guarded fun _ _ _ _ passed => hearsNothing_undisturbed passed
  refine ⟨log, hub, _, after, out, later, final, _, run, taken, received, by decide, rest, absent, entry, twice, ?_⟩
  intro rejected
  have once := rejected.once
  rw [twice] at once
  cases Nat.lt_irrefl 1 once

end KrossbarHub
