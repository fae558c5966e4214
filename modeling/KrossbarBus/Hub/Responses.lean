import KrossbarBus.Hub.Offers

namespace KrossbarHub

open Transition

variable {env : HubEnvironment} {hub after : Hub} {conn : Conn} {credentials : UCred} {phase : Phase}
  {input : Input} {progress : Progress} {task : Task} {action : Action} {out log : List Event}
  {request : RpcRequest} {response : Response}

/-- Why a task answers a request when it runs on with that input, one constructor for each place of
    the code that responds. -/
inductive Responds (env : HubEnvironment) (hub : Hub) (conn : Conn) (phase : Phase) (input : Input)
    (request : RpcRequest) : Response → Prop
  | wrongEndpoint (message : Message) (polled : input = .polled (some message))
      (own : request = message.request hub.clock conn) (wrong : refusals phase.registeredAs request = 1)
      (e : Error) : Responds env hub conn phase input request (.err e)
  | invalidRegister (handles : Handles hub conn phase input request) (unnamed : phase.registeredAs = none)
      (body : ∀ service_name, request.body ≠ .call (.ok (.register service_name))) (e : Error) :
      Responds env hub conn phase input request (.err e)
  | invalidConnect (handles : Handles hub conn phase input request) (called : request.body ≠ .notCall)
      (body : ∀ target wait, request.body ≠ .call (.ok (.connect target wait))) (e : Error) :
      Responds env hub conn phase input request (.err e)
  | registration (service_name : String) (was : phase = .registerLock service_name request)
      (response : Response) (plain : ∀ pair, response ≠ .fd pair) :
      Responds env hub conn phase input request response
  | notAllowed (service_name target : String) (wait : Bool)
      (was : phase = .connectLock service_name target request wait) (locked : input = .locked)
      (denied : (hub.context.permissions.checkConnectionAllowed env.toEnvironment service_name target
        hub.files).1 = some false) :
      Responds env hub conn phase input request (.err .notAllowed)
  | notFound (service_name target : String) (wait : Bool)
      (was : phase = .connectLock service_name target request wait) (locked : input = .locked)
      (hopeless : wait = false ∨
        (hub.context.permissions.checkServiceExists target hub.files).1 = false) :
      Responds env hub conn phase input request (.err .serviceNotFound)
  | unpaired (asks : (∃ service_name target wait, phase = .connectLock service_name target request wait) ∨
        ∃ target initiator, Draws hub phase target (initiator, request))
      (text : String) (failed : env.socketPair hub.clock = .error text) :
      Responds env hub conn phase input request (.err (.internalError text))
  | handed (service_name : String) (handover : Handover) (pair : Nat) (next : After) (ok : Bool)
      (was : phase = .sendTarget service_name handover pair next) (own : handover.request = request)
      (sent : input = .sent ok) :
      Responds env hub conn phase input request (if ok then .fd pair else .err .peerDisconnected)

theorem authorizeBody_responds {own : RpcRequest} {events : List Event} {next : Phase}
    (body : authorizeBody env own = (next, events)) (unnamed : phase.registeredAs = none)
    (handles : Handles hub conn phase input own) (member : .responded request response ∈ events) :
    Responds env hub conn phase input request response := by
  rcases authorizeBody_cases body with ⟨service_name, _, rfl, rfl⟩ | ⟨invalid, rfl, e, rfl⟩
  · cases member
  · cases List.mem_singleton.mp member
    exact .invalidRegister handles unnamed invalid e

theorem clientBody_responds {service_name : String} {own : RpcRequest} {events : List Event} {next : Phase}
    (body : clientBody env service_name own = (next, events))
    (handles : Handles hub conn phase input own) (member : .responded request response ∈ events) :
    Responds env hub conn phase input request response := by
  unfold clientBody at body
  split at body
  · cases body
    cases member
  · rename_i message different decoded
    cases body
    cases List.mem_singleton.mp member
    apply Responds.invalidConnect handles (by simp [decoded])
    intro target wait same
    rw [decoded] at same
    cases same
    exact different target wait rfl
  · rename_i text decoded
    cases body
    cases List.mem_singleton.mp member
    exact .invalidConnect handles (by simp [decoded]) (by simp [decoded]) _
  · cases body
    cases member

theorem sendConnectionDescriptors_responds {service_name : String} {handover : Handover} {next : After}
    {later : Phase} {events : List Event}
    (made : sendConnectionDescriptors env hub.clock service_name handover next = (later, events))
    (asks : (∃ service_name target wait, phase = .connectLock service_name target handover.request wait) ∨
      ∃ target initiator, Draws hub phase target (initiator, handover.request))
    (member : .responded request response ∈ events) : Responds env hub conn phase input request response := by
  unfold sendConnectionDescriptors at made
  split at made
  · cases made
    simp at member
  · rename_i text failed
    cases made
    cases List.mem_singleton.mp member
    exact .unpaired asks text failed

theorem resolveWaiters_responds {service_name : String} {stream : RpcWriter}
    {waiters : List (String × RpcRequest)} {later : Phase} {events : List Event}
    (batch : resolveWaiters env hub.clock service_name stream waiters = (later, events))
    (source : ∀ waiter ∈ waiters, Draws hub phase service_name waiter)
    (member : .responded request response ∈ events) : Responds env hub conn phase input request response := by
  rcases resolveWaiters_cases batch with ⟨rfl, rfl, rfl⟩ | ⟨initiator, own, rest, rfl, made⟩
  · cases member
  · have draws : Draws hub phase service_name (initiator, own) := source _ List.mem_cons_self
    exact sendConnectionDescriptors_responds made (.inr ⟨service_name, initiator, draws⟩) member

theorem responded_behind {first : Event} {own : RpcRequest} {answer : Response}
    (other : first ≠ .responded request response)
    (member : .responded request response ∈ [first, .responded own answer]) :
    request = own ∧ response = answer := by
  rcases List.mem_cons.mp member with here | behind
  · exact absurd here.symm other
  · cases List.mem_singleton.mp behind
    exact ⟨rfl, rfl⟩

theorem Resumes.responds (resumes : Resumes env hub conn credentials phase input progress)
    (member : .responded request response ∈ progress.events) :
    Responds env hub conn phase input request response := by
  cases resumes with
  | authRefused message wrong e =>
    obtain ⟨rfl, rfl⟩ := responded_behind (by simp) member
    apply Responds.wrongEndpoint message rfl rfl
    exact if_neg wrong
  | authReceived message right next events body =>
    have answered := (List.mem_cons.mp member).resolve_left (by simp)
    exact authorizeBody_responds body rfl (.inr ⟨message, rfl, rfl⟩) answered
  | authContinued own ok next events body => exact authorizeBody_responds body rfl (.inl rfl) member
  | alreadyRegistered service_name own free taken =>
    cases List.mem_singleton.mp member
    exact .registration service_name rfl _ (by simp)
  | registrationDenied service_name own free absent denied =>
    obtain ⟨rfl, rfl⟩ := responded_behind (by simp) member
    exact .registration service_name rfl _ (by simp)
  | registrationAllowed service_name own free absent allowed =>
    simp only [List.mem_cons, reduceCtorEq, List.not_mem_nil, or_false, false_or, Event.responded.injEq] at member
    obtain ⟨rfl, rfl⟩ := member
    exact .registration service_name rfl _ (by simp)
  | pendingTaken service_name free waiters waiting next events batch =>
    apply resolveWaiters_responds batch _ member
    intro waiter there
    exact ⟨rfl, .inr ⟨rfl, by simpa [HubContext.waiters, waiting] using there⟩⟩
  | clientRefused service_name message wrong e =>
    obtain ⟨rfl, rfl⟩ := responded_behind (by simp) member
    apply Responds.wrongEndpoint message rfl rfl
    exact if_neg wrong
  | clientReceived service_name message right next events body =>
    have answered := (List.mem_cons.mp member).resolve_left (by simp)
    exact clientBody_responds body (.inr ⟨message, rfl, rfl⟩) answered
  | clientContinued service_name own ok next events body => exact clientBody_responds body (.inl rfl) member
  | connectDenied service_name target own wait free denied =>
    obtain ⟨rfl, rfl⟩ := responded_behind (by simp) member
    exact .notAllowed service_name target wait rfl rfl denied
  | connectRegistered service_name target own wait free allowed target_writer present next events pair =>
    have answered := (List.mem_cons.mp member).resolve_left (by simp)
    exact sendConnectionDescriptors_responds pair (.inl ⟨service_name, target, wait, rfl⟩) answered
  | connectNotFound service_name target own wait free allowed absent hopeless =>
    obtain ⟨rfl, rfl⟩ := responded_behind (by simp) member
    exact .notFound service_name target wait rfl rfl hopeless
  | targetSent service_name handover pair next ok =>
    cases List.mem_singleton.mp member
    exact .handed service_name handover pair next ok rfl rfl rfl
  | batchContinued service_name waiters ok next events batch =>
    apply resolveWaiters_responds batch _ member
    intro waiter there
    exact ⟨rfl, .inl there⟩
  | _ => simp at member

theorem answers_answered (member : .responded request response ∈ out) : 1 ≤ answers out request :=
  List.countP_pos_iff.mpr ⟨_, member, decide_eq_true rfl⟩

theorem handled_received (accounted : Accounted log hub) (present : hub.tasks.get conn = some task)
    (resumes : Resumes env hub conn task.credentials task.phase input progress)
    (handles : Handles hub conn task.phase input request) :
    .received task.phase.registeredAs request ∈ log ++ progress.events := by
  rcases handles with processes | ⟨message, polled, own⟩
  · have busy : hub.busy task.phase.registeredAs request := ⟨conn, task, present, processes, rfl⟩
    exact List.mem_append_left _ (accounted.ledger.processing _ request busy).1
  · cases resumes.treats with
    | other unpolled was now unreceived => exact absurd polled (unpolled message)
    | proceeds unpolled request was outcome => exact absurd polled (unpolled message)
    | receives same polled' was rest events outcome =>
      rw [polled] at polled'
      cases polled'
      rw [own, events]
      exact List.mem_append_right _ List.mem_cons_self

/-- Whatever answers, answers for a task of the hub. -/
theorem step_responds (taken : step env hub action = some (after, out))
    (member : .responded request response ∈ out) :
    ∃ conn task input progress, action = .task conn input ∧ hub.tasks.get conn = some task ∧
      out = progress.events ∧ Resumes env hub conn task.credentials task.phase input progress ∧
      Responds env hub conn task.phase input request response := by
  cases step_cases taken with
  | resumed conn task input progress selecting present resumes =>
    exact ⟨conn, task, input, progress, rfl, present, rfl, resumes, resumes.responds member⟩
  | _ => simp at member

end KrossbarHub
