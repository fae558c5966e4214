import KrossbarBus.Hub.PendingConnections

namespace KrossbarHub

variable {env : HubEnvironment} {hub : Hub} {conn : Conn} {credentials : UCred} {phase : Phase}
  {input : Input} {progress : Progress} {log out : List Event} {request other : RpcRequest}

/-- How often a request is answered before its body is looked at: once if its endpoint is wrong. -/
def refusals (client : Option String) (request : RpcRequest) : Nat :=
  match client with
  | none => if request.endpoint = hubRegisterMethod then 0 else 1
  | some _ => if request.endpoint = hubConnectMethod then 0 else 1

def answersRequest (request : RpcRequest) : Event → Bool
  | .responded answered _ => answered = request
  | _ => false

def answers (log : List Event) (request : RpcRequest) : Nat := log.countP (answersRequest request)

def Neutral : Event → Prop
  | .received .. => False
  | .queued .. => False
  | .responded .. => False
  | _ => True

@[simp] theorem answers_append : answers (log ++ out) request = answers log request + answers out request :=
  List.countP_append

theorem answers_neutral (neutral : ∀ event ∈ out, Neutral event) : answers out request = 0 := by
  apply List.countP_eq_zero.mpr
  intro event member answering
  have quiet := neutral event member
  unfold answersRequest at answering
  split at answering
  · exact quiet
  · cases answering

@[simp] theorem answers_responded (response : Response) :
    answers [.responded other response] request = if other = request then 1 else 0 := by
  simp [answers, answersRequest, List.countP_cons]

@[simp] theorem answers_received (client : Option String) : answers [.received client other] request = 0 := rfl

/-- What becomes of a request when its task runs on: `seen` counts the answers that it has had, `rest`
    is what the task logs now. -/
inductive Outcome (client : Option String) (request : RpcRequest) (seen : Nat) (rest : List Event)
    (next : Phase) : Prop
  | refused (response : Response) (unseen : seen = 0) (wrong : refusals client request = 1)
      (named : next.registeredAs = client) (now : next.processing = some request)
      (all : rest = [.responded request response])
  | kept (due : seen = refusals client request) (named : next.registeredAs = client)
      (now : next.processing = some request) (neutral : ∀ event ∈ rest, Neutral event)
  | answered (due : seen = refusals client request) (checks : List Event) (response : Response)
      (now : next.processing = none) (neutral : ∀ event ∈ checks, Neutral event)
      (all : rest = checks ++ [.responded request response])
  | queued (due : seen = refusals client request) (target initiator : String)
      (now : next.processing = none)
      (all : rest = [.connectionChecked request initiator target true, .queued target initiator request])
  | dropped (now : next.processing = none) (silent : request.body = .notCall) (all : rest = [])

/-- The step of a task either leaves all requests of its client alone, or it receives one or goes on
    with the one that it processes. -/
inductive Treats (hub : Hub) (conn : Conn) (phase : Phase) (input : Input) (progress : Progress) : Prop
  | other (unpolled : ∀ message, input ≠ .polled (some message)) (was : phase.processing = none)
      (now : progress.phase.processing = none)
      (unreceived : ∀ client request, .received client request ∉ progress.events)
  | receives (message : Message) (polled : input = .polled (some message)) (was : phase.processing = none)
      (rest : List Event)
      (events : progress.events =
        .received phase.registeredAs (message.request hub.clock conn) :: rest)
      (outcome : Outcome phase.registeredAs (message.request hub.clock conn) 0 rest progress.phase)
  | proceeds (unpolled : ∀ message, input ≠ .polled (some message)) (request : RpcRequest)
      (was : phase.processing = some request)
      (outcome : Outcome phase.registeredAs request (refusals phase.registeredAs request)
        progress.events progress.phase)

theorem authorizeBody_outcome {events : List Event} {next : Phase}
    (body : authorizeBody env request = (next, events)) {seen : Nat} (due : seen = refusals none request) :
    Outcome none request seen events next := by
  rcases authorizeBody_cases body with ⟨service_name, _, rfl, rfl⟩ | ⟨_, rfl, e, rfl⟩
  · exact .kept due rfl rfl (by simp)
  · exact .answered due [] (.err e) rfl (by simp) rfl

theorem clientBody_outcome {service_name : String} {events : List Event} {next : Phase}
    (body : clientBody env service_name request = (next, events)) {seen : Nat}
    (due : seen = refusals (some service_name) request) :
    Outcome (some service_name) request seen events next := by
  unfold clientBody at body
  split at body
  · cases body
    exact .kept due rfl rfl (by simp)
  · cases body
    exact .answered due [] _ rfl (by simp) rfl
  · cases body
    exact .answered due [] _ rfl (by simp) rfl
  · rename_i silent
    cases body
    exact .dropped rfl silent rfl

theorem resolveWaiters_other {service_name : String} {stream : RpcWriter} {clock : Nat}
    {waiters : List (String × RpcRequest)} {events : List Event} {next : Phase}
    (batch : resolveWaiters env clock service_name stream waiters = (next, events)) :
    next.processing = none ∧ ∀ client request, .received client request ∉ events := by
  rcases resolveWaiters_cases batch with ⟨rfl, rfl, rfl⟩ | ⟨initiator, own, rest, rfl, pair⟩
  · exact ⟨rfl, by simp⟩
  · rcases sendConnectionDescriptors_cases pair with ⟨rfl, rfl⟩ | ⟨rfl, text, rfl⟩
    · exact ⟨rfl, by simp⟩
    · exact ⟨rfl, by simp⟩

theorem Resumes.treats (resumes : Resumes env hub conn credentials phase input progress) :
    Treats hub conn phase input progress := by
  cases resumes with
  | authRefused message wrong e =>
    exact .receives message rfl rfl _ rfl (.refused (.err e) rfl (if_neg wrong) rfl rfl rfl)
  | authReceived message right phase events body =>
    exact .receives message rfl rfl events rfl (authorizeBody_outcome body (if_pos right).symm)
  | authContinued request ok phase events body =>
    exact .proceeds (by simp) request rfl (authorizeBody_outcome body rfl)
  | alreadyRegistered service_name request free taken =>
    exact .proceeds (by simp) request rfl (.answered rfl [] _ rfl (by simp) rfl)
  | registrationDenied service_name request free absent denied =>
    exact .proceeds (by simp) request rfl
      (.answered rfl [.nameChecked conn credentials service_name false] _ rfl (by simp [Neutral]) rfl)
  | registrationAllowed service_name request free absent allowed =>
    exact .proceeds (by simp) request rfl
      (.answered rfl [.nameChecked conn credentials service_name true,
        .registered service_name request.writer] _ rfl (by simp [Neutral]) rfl)
  | pendingTaken service_name free waiters waiting phase events batch =>
    have shape := resolveWaiters_other batch
    exact .other (by simp) rfl shape.1 shape.2
  | clientRefused service_name message wrong e =>
    exact .receives message rfl rfl _ rfl (.refused (.err e) rfl (if_neg wrong) rfl rfl rfl)
  | clientReceived service_name message right phase events body =>
    exact .receives message rfl rfl events rfl (clientBody_outcome body (if_pos right).symm)
  | clientContinued service_name request ok phase events body =>
    exact .proceeds (by simp) request rfl (clientBody_outcome body rfl)
  | connectDenied service_name target request wait free denied =>
    exact .proceeds (by simp) request rfl
      (.answered rfl [.connectionChecked request service_name target false] _ rfl (by simp [Neutral]) rfl)
  | connectRegistered service_name target request wait free allowed target_writer present phase events pair =>
    apply Treats.proceeds (by simp) request rfl
    rcases sendConnectionDescriptors_cases pair with ⟨rfl, rfl⟩ | ⟨rfl, text, rfl⟩
    · exact .kept rfl rfl rfl (by simp [Neutral])
    · exact .answered rfl [.connectionChecked request service_name target true] _ rfl (by simp [Neutral]) rfl
  | connectNotFound service_name target request wait free allowed absent hopeless =>
    exact .proceeds (by simp) request rfl
      (.answered rfl [.connectionChecked request service_name target true] _ rfl (by simp [Neutral]) rfl)
  | connectQueued service_name target request wait free allowed absent waits exist =>
    exact .proceeds (by simp) request rfl (.queued rfl target service_name rfl rfl)
  | targetSent service_name handover pair next ok =>
    cases next with
    | resolve waiters => exact .other (by simp) rfl rfl (by simp)
    | loop => exact .proceeds (by simp) handover.request rfl (.answered rfl [] _ rfl (by simp) rfl)
  | batchContinued service_name waiters ok phase events batch =>
    have shape := resolveWaiters_other batch
    exact .other (by simp) rfl shape.1 shape.2
  | _ => exact .other (by simp) rfl rfl (by simp)

end KrossbarHub
