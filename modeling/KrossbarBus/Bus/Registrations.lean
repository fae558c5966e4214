import KrossbarBus.Bus.HubConnect

namespace KrossbarBus

open KrossbarHub KrossbarLib

variable {env : HubEnvironment} {hub after : Hub} {conn : Conn} {action : Action} {out log : List Event}

/-- An event that says nothing on the connection. -/
def Silent (conn : Conn) (event : Event) : Prop :=
  delivery conn event = none ∧ ∀ service_name, event ≠ .registered service_name conn

/-- What a step of the hub writes on a connection. -/
inductive Delivers (log : List Event) (conn : Conn) (out : List Event) : Prop
  | nothing (nothing : out.filterMap (delivery conn) = [])
      (unregistered : ∀ service_name, .registered service_name conn ∉ out)
  | request (initiator : String) (pair : Nat)
      (only : out.filterMap (delivery conn) = [.connectionRequest initiator pair])
      (registered : ∃ service_name, .registered service_name conn ∈ log)
      (unregistered : ∀ service_name, .registered service_name conn ∉ out)
  | accepted (request : RpcRequest) (own : request.writer = conn)
      (only : out.filterMap (delivery conn) = [.response request.message_id .ok])
      (responded : .responded request .ok ∈ out) (service_name : String)
      (registered : .registered service_name conn ∈ out)
  | answered (request : RpcRequest) (own : request.writer = conn) (response : Response)
      (only : out.filterMap (delivery conn) = [.response request.message_id response])
      (responded : .responded request response ∈ out) (refused : response ≠ .ok)
      (unregistered : ∀ service_name, .registered service_name conn ∉ out)

theorem delivers_silent (silent : ∀ event ∈ out, Silent conn event) : Delivers log conn out := by
  refine .nothing ?_ fun service_name member => (silent _ member).2 service_name rfl
  rw [List.filterMap_eq_nil_iff]
  exact fun event member => (silent event member).1

theorem Delivers.behind {event : Event} (delivers : Delivers log conn out) (silent : Silent conn event) :
    Delivers log conn (event :: out) := by
  have same : (event :: out).filterMap (delivery conn) = out.filterMap (delivery conn) :=
    List.filterMap_cons_none silent.1
  have still : (∀ service_name, .registered service_name conn ∉ out) →
      ∀ service_name, .registered service_name conn ∉ event :: out := by
    intro unregistered service_name member
    rcases List.mem_cons.mp member with rfl | later
    · exact silent.2 service_name rfl
    · exact unregistered service_name later
  cases delivers with
  | nothing nothing unregistered => exact .nothing (same.trans nothing) (still unregistered)
  | request initiator pair only registered unregistered =>
    exact .request initiator pair (same.trans only) registered (still unregistered)
  | accepted request own only responded service_name registered =>
    exact .accepted request own (same.trans only) (List.mem_cons_of_mem _ responded) service_name
      (List.mem_cons_of_mem _ registered)
  | answered request own response only responded refused unregistered =>
    exact .answered request own response (same.trans only) (List.mem_cons_of_mem _ responded) refused
      (still unregistered)

theorem delivers_answer {request : RpcRequest} {response : Response} (refused : response ≠ .ok) :
    Delivers log conn [.responded request response] := by
  by_cases own : request.writer = conn
  · exact .answered request own response (by simp [delivery, own]) (by simp) refused (by simp)
  · exact .nothing (by simp [delivery, own]) (by simp)

theorem delivers_request {writer : Conn} {initiator target : String} {pair : Nat} {request : RpcRequest}
    (registered : .registered target writer ∈ log) :
    Delivers log conn [.connectionRequest writer initiator target pair request] := by
  by_cases own : writer = conn
  · subst own
    exact .request initiator pair (by simp [delivery]) ⟨target, registered⟩ (by simp)
  · exact .nothing (by simp [delivery, own]) (by simp)

@[simp] theorem silent_received (client : Option String) (request : RpcRequest) :
    Silent conn (.received client request) := ⟨rfl, by simp⟩

@[simp] theorem silent_connectionChecked (request : RpcRequest) (client target : String) (allowed : Bool) :
    Silent conn (.connectionChecked request client target allowed) := ⟨rfl, by simp⟩

@[simp] theorem silent_queued (target initiator : String) (request : RpcRequest) :
    Silent conn (.queued target initiator request) := ⟨rfl, by simp⟩

theorem sendConnectionDescriptors_delivers {clock : Nat} {service_name : String} {handover : Handover}
    {next : After} {phase : Phase} {events : List Event}
    (pair : sendConnectionDescriptors env clock service_name handover next = (phase, events))
    (registered : .registered handover.target handover.writer ∈ log) : Delivers log conn events := by
  rcases sendConnectionDescriptors_cases pair with ⟨rfl, rfl⟩ | ⟨rfl, text, rfl⟩
  · exact delivers_request registered
  · exact delivers_answer (by simp)

theorem resolveWaiters_delivers {clock : Nat} {service_name : String} {stream : Conn}
    {waiters : List (String × RpcRequest)} {phase : Phase} {events : List Event}
    (batch : resolveWaiters env clock service_name stream waiters = (phase, events))
    (registered : .registered service_name stream ∈ log) : Delivers log conn events := by
  rcases resolveWaiters_cases batch with ⟨rfl, rfl, rfl⟩ | ⟨initiator, request, rest, rfl, pair⟩
  · exact delivers_silent (by simp)
  · exact sendConnectionDescriptors_delivers pair registered

theorem authorizeBody_delivers {request : RpcRequest} {phase : Phase} {events : List Event}
    (body : authorizeBody env request = (phase, events)) : Delivers log conn events := by
  rcases authorizeBody_cases body with ⟨service_name, _, rfl, rfl⟩ | ⟨_, rfl, e, rfl⟩
  · exact delivers_silent (by simp)
  · exact delivers_answer (by simp)

theorem clientBody_delivers {service_name : String} {request : RpcRequest} {phase : Phase} {events : List Event}
    (body : clientBody env service_name request = (phase, events)) : Delivers log conn events := by
  rcases clientBody_cases body with ⟨target, wait, _, rfl, rfl⟩ | ⟨_, ⟨rfl, e, rfl⟩ | ⟨rfl, rfl⟩⟩
  · exact delivers_silent (by simp)
  · exact delivers_answer (by simp)
  · exact delivers_silent (by simp)

theorem resumes_delivers {task : Task} {input : Input} {progress : Progress} {reader : Conn}
    (recorded : Recorded log hub) (consistent : hub.Consistent) (selecting : hub.main = .selecting)
    (present : hub.tasks.get reader = some task)
    (resumes : Resumes env hub reader task.credentials task.phase input progress) :
    Delivers log conn progress.events := by
  have owned : ∀ service_name, task.phase.registeredAs = some service_name →
      .registered service_name reader ∈ log := fun service_name named =>
    (recorded.owned service_name reader ((owns_task selecting present service_name).mpr named)).1
  generalize was : task.phase = phase at resumes owned
  cases resumes with
  | authRefused message wrong e => exact (delivers_answer (by simp)).behind (by simp)
  | authReceived message right phase events body => exact (authorizeBody_delivers body).behind (by simp)
  | authContinued request ok phase events body => exact authorizeBody_delivers body
  | alreadyRegistered service_name request free taken => exact delivers_answer (by simp)
  | registrationDenied service_name request free absent denied =>
    exact (delivers_answer (by simp)).behind ⟨rfl, by simp⟩
  | registrationAllowed service_name request free absent allowed =>
    by_cases own : request.writer = conn
    · exact .accepted request own (by simp [List.filterMap_cons, delivery, own]) (by simp) service_name
        (by simp [own])
    · refine .nothing (by simp [List.filterMap_cons, delivery, own]) ?_
      intro name member
      simp only [List.mem_cons, reduceCtorEq, Event.registered.injEq, List.not_mem_nil, or_false, false_or] at member
      exact own member.2.symm
  | pendingTaken service_name free waiters waiting phase events batch =>
    exact resolveWaiters_delivers batch (owned service_name rfl)
  | clientRefused service_name message wrong e => exact (delivers_answer (by simp)).behind (by simp)
  | clientReceived service_name message right phase events body =>
    exact (clientBody_delivers body).behind (by simp)
  | clientContinued service_name request ok phase events body => exact clientBody_delivers body
  | connectDenied service_name target request wait free denied =>
    exact (delivers_answer (by simp)).behind (by simp)
  | connectRegistered service_name target request wait free allowed target_writer entry phase events pair =>
    have owner := (consistent.registry target target_writer).mp entry
    have registered := (recorded.owned target target_writer owner).1
    exact (sendConnectionDescriptors_delivers pair registered).behind (by simp)
  | connectNotFound service_name target request wait free allowed absent hopeless =>
    exact (delivers_answer (by simp)).behind (by simp)
  | connectQueued service_name target request wait free allowed absent waits exist =>
    exact delivers_silent (by simp)
  | targetSent service_name handover pair next ok =>
    apply delivers_answer
    cases ok <;> simp
  | batchContinued service_name waiters ok phase events batch =>
    exact resolveWaiters_delivers batch (owned service_name rfl)
  | _ => exact delivers_silent (by simp)

theorem step_delivers (recorded : Recorded log hub) (consistent : hub.Consistent)
    (taken : KrossbarHub.step env hub action = some (after, out)) : Delivers log conn out := by
  cases step_cases taken with
  | resumed reader task input progress selecting present resumes =>
    exact resumes_delivers recorded consistent selecting present resumes
  | accepted credentials selecting => exact .nothing (by simp [delivery]) (by simp)
  | removed other service_name reaping free => exact .nothing (by simp [delivery]) (by simp)
  | _ => exact delivers_silent (by simp)

def Accepted (log : List Event) (conn : Conn) : Prop := ∃ service_name, .registered service_name conn ∈ log

/-- What the hub has written on a connection that has asked for a registration only. -/
inductive Replies (log : List Event) (conn : Conn) (message_id : Int) : List Delivery → Prop
  | unanswered (refused : ¬ Accepted log conn) : Replies log conn message_id []
  | refused (e : Error) (refused : ¬ Accepted log conn) :
      Replies log conn message_id [.response message_id (.err e)]
  | accepted (accepted : Accepted log conn) (requests : List Delivery)
      (behind : ∀ next ∈ requests, ∃ initiator pair, next = .connectionRequest initiator pair) :
      Replies log conn message_id (.response message_id .ok :: requests)

def Registers (message_id : Int) (message : Message) : Prop :=
  ∃ service_name, message = ⟨message_id, hubRegisterMethod, .call (.ok (.register service_name))⟩

/-- The one request of the connection is its registration, on its way or received. -/
structure AskedOnce (log : List Event) (conn : Conn) (message_id : Int) (toHub : List Message) : Prop where
  sent : toHub = [] ∨ ∃ message, toHub = [message] ∧ Registers message_id message
  received : ∀ client request, .received client request ∈ log → request.writer = conn →
    client = none ∧ toHub = [] ∧
      ∃ message number, Registers message_id message ∧ request = message.request number conn
  unique : ∀ first second other request, .received first other ∈ log → .received second request ∈ log →
    other.writer = conn → request.writer = conn → other = request

structure Enquired (log : List Event) (deliveries : List Delivery) (conn : Conn) (message_id : Int)
    (toHub : List Message) : Prop where
  once : AskedOnce log conn message_id toHub
  answered : ∀ message_id response, .response message_id response ∈ deliveries →
    ∃ request, request.writer = conn ∧ .responded request response ∈ log
  replies : Replies log conn message_id deliveries

variable {additional_service_dirs : List OsString} {files : FileSystem} {deliveries : List Delivery}
  {message_id : Int} {toHub rest : List Message}

theorem registration_answers (accounted : Accounted log hub) {message : Message} {number : Nat}
    (registers : Registers message_id message)
    (received : .received none (message.request number conn) ∈ log) :
    answers log (message.request number conn) ≤ 1 := by
  obtain ⟨service_name, rfl⟩ := registers
  have unrefused : refusals none (Message.request ⟨message_id, hubRegisterMethod,
      .call (.ok (.register service_name))⟩ number conn) = 0 := by simp [refusals, Message.request]
  rcases accounted.ledger.settled none _ received (by simp [Message.request]) with
    hand | busy | ⟨answered, _⟩ | ⟨target, waits⟩
  · cases hand
  · have unanswered := (accounted.ledger.processing _ _ busy).2.1
    omega
  · omega
  · obtain ⟨⟨wait, body⟩, _⟩ := accounted.ledger.waiting target _ waits
    cases body

/-- Every answer of the hub on the connection is one to its registration. -/
theorem AskedOnce.responded (once : AskedOnce log conn message_id toHub)
    (run : KrossbarHub.Run env additional_service_dirs files log hub) {request : RpcRequest} {response : Response}
    (own : request.writer = conn) (responded : .responded request response ∈ log) :
    ∃ message number, Registers message_id message ∧ request = message.request number conn ∧
      .received none request ∈ log := by
  have answered : 1 ≤ answers log request := answers_answered responded
  obtain ⟨client, received⟩ := (run_accounted run).ledger.known request (by omega)
  obtain ⟨rfl, _, message, number, registers, same⟩ := once.received client request received own
  exact ⟨message, number, registers, same, received⟩

theorem registration_unpaired (run : KrossbarHub.Run env additional_service_dirs files log hub) {message : Message}
    {number pair : Nat} (registers : Registers message_id message) :
    .responded (message.request number conn) (.fd pair) ∉ log := by
  intro responded
  obtain ⟨service_name, rfl⟩ := registers
  obtain ⟨writer, initiator, target, offered⟩ := handed_offered run responded
  obtain ⟨wait, body⟩ := (connectionRequest_offer run offered).body
  cases body

theorem Enquired.unanswered (asked : Enquired log deliveries conn message_id toHub)
    (run : KrossbarHub.Run env additional_service_dirs files log hub)
    (taken : KrossbarHub.step env hub action = some (after, out)) (once : AskedOnce (log ++ out) conn message_id rest)
    {request : RpcRequest} {response : Response} (own : request.writer = conn)
    (responded : .responded request response ∈ out) : deliveries = [] := by
  have whole := run.next trivial taken
  have answered : 1 ≤ answers out request := answers_answered responded
  obtain ⟨message, number, registers, rfl, received⟩ :=
    once.responded whole own (List.mem_append_right _ responded)
  have single := registration_answers (run_accounted whole) registers received
  by_contra replied
  obtain ⟨first, others, split⟩ := List.exists_cons_of_ne_nil replied
  have reply : ∃ id response, first = .response id response := by
    have replies := asked.replies
    rw [split] at replies
    cases replies with
    | refused e _ => exact ⟨_, _, rfl⟩
    | accepted _ requests behind => exact ⟨_, _, rfl⟩
  obtain ⟨id, earlier, rfl⟩ := reply
  obtain ⟨other, others_own, before⟩ := asked.answered id earlier (by rw [split]; exact List.mem_cons_self)
  have counted : 1 ≤ answers log other := answers_answered before
  obtain ⟨again, was⟩ := (run_accounted run).ledger.known other (by omega)
  have same := once.unique again none other _ (List.mem_append_left _ was) received others_own own
  rw [same] at counted
  rw [answers_append] at single
  omega

theorem registered_received (run : KrossbarHub.Run env additional_service_dirs files log hub)
    (accepted : Accepted log conn) : ∃ request, .received none request ∈ log ∧ request.writer = conn := by
  obtain ⟨service_name, registered⟩ := accepted
  obtain ⟨credentials, _, checked⟩ := (run_vetted run).admitted service_name conn registered
  obtain ⟨request, received, own, _⟩ := (run_traced run).named conn credentials service_name true checked
  exact ⟨request, received, own⟩

theorem received_named (run : KrossbarHub.Run env additional_service_dirs files log hub)
    (taken : KrossbarHub.step env hub action = some (after, out)) {client : Option String} {request : RpcRequest}
    (received : .received client request ∈ out) : client = none ∨ Accepted log request.writer := by
  cases step_cases taken with
  | resumed reader task input progress selecting present resumes =>
    obtain ⟨message, _, _, rfl, rfl, _⟩ := resumes.treats.received received
    cases owner : task.phase.registeredAs with
    | none => exact .inl rfl
    | some service_name =>
      have owns := (owns_task selecting present service_name).mpr owner
      exact .inr ⟨service_name, ((run_recorded run).owned service_name reader owns).1⟩
  | accepted credentials selecting => simp at received
  | removed other service_name reaping free => simp at received
  | _ => cases received

theorem accepted_unchanged (unregistered : ∀ service_name, .registered service_name conn ∉ out) :
    Accepted (log ++ out) conn ↔ Accepted log conn := by
  constructor
  · rintro ⟨service_name, member⟩
    exact ⟨service_name, (List.mem_append.mp member).resolve_right (unregistered service_name)⟩
  · rintro ⟨service_name, member⟩
    exact ⟨service_name, List.mem_append_left _ member⟩

theorem delivered_responded {id : Int} {response : Response}
    (delivered : .response id response ∈ out.filterMap (delivery conn)) :
    ∃ request, request.writer = conn ∧ .responded request response ∈ out := by
  obtain ⟨event, there, written⟩ := List.mem_filterMap.mp delivered
  unfold delivery at written
  split at written
  · split at written
    · rename_i own
      cases written
      exact ⟨_, own, there⟩
    · cases written
  · split at written <;> cases written
  · cases written

/-- Only the messages of the connection itself are received on it, in their order. -/
theorem AskedOnce.hubStep (once : AskedOnce log conn message_id toHub)
    (run : KrossbarHub.Run env additional_service_dirs files log hub)
    (taken : KrossbarHub.step env hub action = some (after, out))
    (reading : reads conn action = false ∧ rest = toHub ∨
      ∃ message, toHub = message :: rest ∧ action = .task conn (.polled (some message))) :
    AskedOnce (log ++ out) conn message_id rest := by
  rcases reading with ⟨elsewhere, rfl⟩ | ⟨message, rfl, rfl⟩
  · have old : ∀ client request, .received client request ∈ log ++ out → request.writer = conn →
        .received client request ∈ log := by
      intro client request member own
      rcases List.mem_append.mp member with old | new
      · exact old
      · obtain ⟨message, rfl, _⟩ := step_received taken new
        simp [reads, own] at elsewhere
    refine ⟨once.sent, ?_, ?_⟩
    · intro client request member own
      exact once.received client request (old client request member own) own
    · intro first second other request earlier later other_own own
      exact once.unique first second other request (old first other earlier other_own)
        (old second request later own) other_own own
  · obtain ⟨empty, registers⟩ : rest = [] ∧ Registers message_id message := by
      rcases once.sent with absent | ⟨only, same, registers⟩
      · cases absent
      · cases same
        exact ⟨rfl, registers⟩
    have unread : ∀ client request, .received client request ∈ log → request.writer ≠ conn := by
      intro client request member own
      obtain ⟨_, read, _⟩ := once.received client request member own
      cases read
    have now : ∀ client request, .received client request ∈ log ++ out → request.writer = conn →
        client = none ∧ request = message.request hub.clock conn := by
      intro client request member own
      rcases List.mem_append.mp member with old | new
      · exact absurd own (unread client request old)
      · obtain ⟨polled, same, made⟩ := step_received taken new
        cases same
        refine ⟨(received_named run taken new).resolve_right ?_, made⟩
        intro accepted
        obtain ⟨earlier, received, same⟩ := registered_received run accepted
        exact unread none earlier received same
    refine ⟨.inl empty, ?_, ?_⟩
    · intro client request member own
      obtain ⟨unnamed, made⟩ := now client request member own
      exact ⟨unnamed, empty, message, hub.clock, registers, made⟩
    · intro first second other request earlier later other_own own
      rw [(now first other earlier other_own).2, (now second request later own).2]

theorem Enquired.hubStep (asked : Enquired log deliveries conn message_id toHub)
    (run : KrossbarHub.Run env additional_service_dirs files log hub)
    (taken : KrossbarHub.step env hub action = some (after, out))
    (reading : reads conn action = false ∧ rest = toHub ∨
      ∃ message, toHub = message :: rest ∧ action = .task conn (.polled (some message))) :
    Enquired (log ++ out) (deliveries ++ out.filterMap (delivery conn)) conn message_id rest := by
  have once := asked.once.hubStep run taken reading
  refine ⟨once, ?_, ?_⟩
  · intro id response member
    rcases List.mem_append.mp member with old | new
    · obtain ⟨request, own, responded⟩ := asked.answered id response old
      exact ⟨request, own, List.mem_append_left _ responded⟩
    · obtain ⟨request, own, responded⟩ := delivered_responded new
      exact ⟨request, own, List.mem_append_right _ responded⟩
  · have whole := run.next trivial taken
    have replies := asked.replies
    cases step_delivers (run_recorded run) (run_consistent run) taken with
    | nothing nothing unregistered =>
      rw [nothing, List.append_nil]
      cases replies with
      | unanswered refused => exact .unanswered (by rwa [accepted_unchanged unregistered])
      | refused e refused => exact .refused e (by rwa [accepted_unchanged unregistered])
      | accepted accepted requests behind =>
        exact .accepted (by rwa [accepted_unchanged unregistered]) requests behind
    | request initiator pair only registered unregistered =>
      rw [only]
      cases replies with
      | unanswered refused => exact absurd registered refused
      | refused e refused => exact absurd registered refused
      | accepted accepted requests behind =>
        have still : Accepted (log ++ out) conn := by rwa [accepted_unchanged unregistered]
        refine .accepted still (requests ++ [.connectionRequest initiator pair]) ?_
        intro next member
        rcases List.mem_append.mp member with old | new
        · exact behind next old
        · exact ⟨initiator, pair, List.mem_singleton.mp new⟩
    | accepted request own only responded service_name registered =>
      obtain ⟨message, number, ⟨name, rfl⟩, rfl, _⟩ :=
        once.responded whole own (List.mem_append_right _ responded)
      rw [asked.unanswered run taken once own responded, only]
      exact .accepted ⟨service_name, List.mem_append_right _ registered⟩ [] (by simp)
    | answered request own response only responded refused unregistered =>
      obtain ⟨message, number, registers, rfl, _⟩ :=
        once.responded whole own (List.mem_append_right _ responded)
      have empty := asked.unanswered run taken once own responded
      have absent : ¬ Accepted (log ++ out) conn := by
        rw [accepted_unchanged unregistered]
        rw [empty] at replies
        cases replies with
        | unanswered refused => exact refused
      obtain ⟨e, rfl⟩ : ∃ e, response = .err e := by
        cases response with
        | ok => exact absurd rfl refused
        | err e => exact ⟨e, rfl⟩
        | fd pair => exact absurd (List.mem_append_right _ responded) (registration_unpaired whole registers)
      rw [empty, only]
      obtain ⟨name, rfl⟩ := registers
      exact .refused e absent

def Delivery.request : Delivery → Option (String × Nat)
  | .connectionRequest initiator pair => some (initiator, pair)
  | .response .. => none

def Polled.requested : Polled → Option (String × Nat)
  | .request initiator pair => some (initiator, pair)
  | _ => none

theorem pollRpc_requests (ended : Bool) (arrived : List Delivery) :
    arrived.filterMap Delivery.request =
      (pollRpc ended arrived).2.1.requested.toList ++ (pollRpc ended arrived).2.2.filterMap Delivery.request := by
  induction arrived with
  | nil => cases ended <;> rfl
  | cons next rest ih =>
    cases next with
    | response message_id response => simpa [pollRpc, List.filterMap_cons, Delivery.request] using ih
    | connectionRequest initiator pair => simp [pollRpc, Delivery.request, Polled.requested]

theorem pollRpc_quiet {ended : Bool} {arrived : List Delivery} :
    (pollRpc ended arrived).2.1 = .pending ↔ ended = false ∧ ∀ next ∈ arrived, next.request = none := by
  induction arrived with
  | nil => cases ended <;> simp [pollRpc]
  | cons next rest ih =>
    cases next with
    | response message_id response => simpa [pollRpc, Delivery.request] using ih
    | connectionRequest initiator pair => simp [pollRpc, Delivery.request]

theorem pollRpc_requested {ended : Bool} {arrived : List Delivery} :
    (pollRpc ended arrived).2.1.requested = none ↔ ∀ next ∈ arrived, next.request = none := by
  induction arrived with
  | nil => cases ended <;> simp [pollRpc, Polled.requested]
  | cons next rest ih =>
    cases next with
    | response message_id response => simpa [pollRpc, Delivery.request] using ih
    | connectionRequest initiator pair => simp [pollRpc, Delivery.request, Polled.requested]

theorem Replies.read {arrived fromHub : List Delivery}
    (replies : Replies log conn message_id (arrived ++ fromHub))
    (quiet : ∀ next ∈ arrived, next.request = none) :
    arrived = [] ∨ ∃ response, arrived = [.response message_id response] := by
  cases arrived with
  | nil => exact .inl rfl
  | cons first others =>
    generalize same : first :: others ++ fromHub = all at replies
    cases replies with
    | unanswered refused => cases same
    | refused e refused =>
      obtain ⟨rfl, rest⟩ := List.cons.inj same
      obtain ⟨rfl, _⟩ := List.append_eq_nil_iff.mp rest
      exact .inr ⟨_, rfl⟩
    | accepted accepted requests behind =>
      obtain ⟨rfl, rest⟩ := List.cons.inj same
      cases others with
      | nil => exact .inr ⟨_, rfl⟩
      | cons second more =>
        obtain ⟨initiator, pair, rfl⟩ := behind second (by rw [← rest]; exact List.mem_cons_self)
        cases quiet (.connectionRequest initiator pair) (by simp)

def hubLog (log : List RegistrationEvent) : List Event :=
  log.filterMap fun
    | .hub event => some event
    | .polled .. => none

def sentRequests (conn : Conn) (log : List RegistrationEvent) : List (String × Nat) :=
  ((hubLog log).filterMap (delivery conn)).filterMap Delivery.request

def polledRequests (log : List RegistrationEvent) : List (String × Nat) :=
  log.filterMap fun
    | .hub _ => none
    | .polled initiator pair => some (initiator, pair)

/-- Neither a connection request nor the end of the stream can be read yet. -/
def Registration.Quiet (registration : Registration) : Prop :=
  registration.ended = false ∧ ∀ next ∈ registration.arrived, next.request = none

/-- The connection is quiet when the handshake reads and still waits for the reply. -/
def Registration.ReadsReplyAlone (registration : Registration) : RegistrationAction → Prop
  | .round => registration.call = .waiting none → registration.Quiet
  | _ => True

inductive Standing (log : List Event) (deliveries : List Delivery) (registration : Registration) : Prop
  | waiting (answer : Option Response) (call : registration.call = .waiting answer)
      (asked : Enquired log deliveries registration.conn registration.message_id registration.toHub)
      (unread : deliveries = (answer.map (Delivery.response registration.message_id)).toList ++
        (registration.arrived ++ registration.fromHub))
  | returned (call : registration.call = .returned)
  | failed (e : Error) (call : registration.call = .failed e)
      (asked : Enquired log deliveries registration.conn registration.message_id registration.toHub)
      (refused : deliveries.head? = some (.response registration.message_id (.err e)))

@[simp] theorem hubLog_append (log more : List RegistrationEvent) :
    hubLog (log ++ more) = hubLog log ++ hubLog more := List.filterMap_append

@[simp] theorem hubLog_hub (out : List Event) : hubLog (out.map .hub) = out := by
  simp [hubLog, List.filterMap_map]

@[simp] theorem polledRequests_append (log more : List RegistrationEvent) :
    polledRequests (log ++ more) = polledRequests log ++ polledRequests more := List.filterMap_append

@[simp] theorem polledRequests_hub (out : List Event) : polledRequests (out.map .hub) = [] := by
  simp [polledRequests]

@[simp] theorem hubLog_polled (polled : Polled) : hubLog (polledEvents polled) = [] := by
  cases polled <;> rfl

@[simp] theorem polledRequests_polled (polled : Polled) :
    polledRequests (polledEvents polled) = polled.requested.toList := by
  cases polled <;> rfl

variable {debug : String × Nat → String} {registration next : Registration} {early : List Event}
  {registrationLog registrationOut : List RegistrationEvent} {registrationAction : RegistrationAction}

/-- The hub runs, the handshake stands as it should, and the requests are read in the order of their sends. -/
structure Follows (env : HubEnvironment) (additional_service_dirs : List OsString) (files : FileSystem)
    (early : List Event) (log : List RegistrationEvent) (registration : Registration) : Prop where
  run : KrossbarHub.Run env additional_service_dirs files (early ++ hubLog log) registration.hub
  standing : Standing (early ++ hubLog log) ((hubLog log).filterMap (delivery registration.conn)) registration
  ordered : sentRequests registration.conn log =
    polledRequests log ++ (registration.arrived ++ registration.fromHub).filterMap Delivery.request

theorem registrationHubStep_cases
    (stepped : registration.hubStep env action = some (next, registrationOut)) :
    ∃ hub out, KrossbarHub.step env registration.hub action = some (hub, out) ∧
      registrationOut = out.map .hub ∧ next = { registration with
        hub := hub
        fromHub := registration.fromHub ++ out.filterMap (delivery registration.conn) } := by
  unfold Registration.hubStep at stepped
  split at stepped
  · cases stepped
  · rename_i hub out taken
    split at stepped
    · cases stepped
    · cases stepped
      exact ⟨hub, out, taken, rfl, rfl⟩

theorem Follows.hubStep (follows : Follows env additional_service_dirs files early registrationLog registration)
    (reading : reads registration.conn action = false ∧ rest = registration.toHub ∨
      ∃ message, registration.toHub = message :: rest ∧
        action = .task registration.conn (.polled (some message)))
    (stepped : { registration with toHub := rest }.hubStep env action = some (next, registrationOut)) :
    Follows env additional_service_dirs files early (registrationLog ++ registrationOut) next := by
  obtain ⟨hub, out, taken, rfl, rfl⟩ := registrationHubStep_cases stepped
  have longer : early ++ hubLog (registrationLog ++ out.map .hub) = early ++ hubLog registrationLog ++ out := by
    rw [hubLog_append, hubLog_hub, List.append_assoc]
  have written : (hubLog (registrationLog ++ out.map .hub)).filterMap (delivery registration.conn) =
      (hubLog registrationLog).filterMap (delivery registration.conn) ++
        out.filterMap (delivery registration.conn) := by
    rw [hubLog_append, hubLog_hub, List.filterMap_append]
  have run := follows.run.next trivial taken
  refine ⟨by rw [longer]; exact run, ?_, ?_⟩
  · rw [longer]
    show Standing _ ((hubLog (registrationLog ++ out.map .hub)).filterMap (delivery registration.conn)) _
    rw [written]
    cases follows.standing with
    | waiting answer call asked unread =>
      refine .waiting answer call (asked.hubStep follows.run taken reading) ?_
      rw [unread, List.append_assoc, List.append_assoc]
    | returned call => exact .returned call
    | failed e call asked refused =>
      refine .failed e call (asked.hubStep follows.run taken reading) ?_
      rw [List.head?_append, refused]
      rfl
  · have ordered := follows.ordered
    unfold sentRequests at ordered ⊢
    rw [written, List.filterMap_append, ordered, polledRequests_append, polledRequests_hub]
    simp

theorem Follows.round (follows : Follows env additional_service_dirs files early registrationLog registration)
    (alone : registration.ReadsReplyAlone .round) (stepped : registration.round debug = some next) :
    Follows env additional_service_dirs files early registrationLog next := by
  unfold Registration.round at stepped
  cases follows.standing with
  | returned call => simp [call] at stepped
  | failed e call asked refused => simp [call] at stepped
  | waiting answer call asked unread =>
    cases answer with
    | some response =>
      simp only [call, Option.some.injEq] at stepped
      subst stepped
      refine ⟨follows.run, ?_, follows.ordered⟩
      cases response with
      | err e => exact .failed e rfl asked (by rw [unread]; rfl)
      | ok => exact .returned rfl
      | fd pair => exact .returned rfl
    | none =>
      obtain ⟨open_, quiet⟩ := alone call
      have all : (hubLog registrationLog).filterMap (delivery registration.conn) =
          registration.arrived ++ registration.fromHub := unread
      have replies := asked.replies
      rw [all] at replies
      have ordered := follows.ordered
      simp only [call, open_, Option.some.injEq] at stepped
      rcases replies.read quiet with empty | ⟨response, single⟩
      · rw [empty] at all ordered stepped
        subst stepped
        exact ⟨follows.run, .waiting none rfl asked all, ordered⟩
      · rw [single] at all ordered stepped
        have answered : pollRpc false [.response registration.message_id response] =
            ([(registration.message_id, response)], .pending, []) := rfl
        simp only [answered, List.lookup_cons_self] at stepped
        subst stepped
        exact ⟨follows.run, .waiting (some response) rfl asked all, ordered⟩

theorem Follows.preserved (follows : Follows env additional_service_dirs files early registrationLog registration)
    (alone : registration.ReadsReplyAlone registrationAction)
    (taken : Registration.step env debug registration registrationAction = some (next, registrationOut)) :
    Follows env additional_service_dirs files early (registrationLog ++ registrationOut) next := by
  cases registrationAction with
  | hub action =>
    simp only [Registration.step] at taken
    split at taken
    · cases taken
    · rename_i elsewhere
      exact follows.hubStep (.inl ⟨by simpa using elsewhere, rfl⟩) taken
  | receive =>
    simp only [Registration.step] at taken
    split at taken
    · rename_i message rest queue
      split at taken
      · cases taken
      · exact follows.hubStep (.inr ⟨message, queue, rfl⟩) taken
    · cases taken
  | close =>
    simp only [Registration.step] at taken
    split at taken
    · cases taken
    · cases taken
      rw [List.append_nil]
      refine ⟨follows.run, ?_, follows.ordered⟩
      cases follows.standing with
      | waiting answer call asked unread => exact .waiting answer call asked unread
      | returned call => exact .returned call
      | failed e call asked refused => exact .failed e call asked refused
  | arrive =>
    simp only [Registration.step] at taken
    split at taken
    · rename_i first rest queue
      cases taken
      have same : registration.arrived ++ [first] ++ rest = registration.arrived ++ registration.fromHub := by
        rw [queue, List.append_assoc, List.singleton_append]
      rw [List.append_nil]
      refine ⟨follows.run, ?_, ?_⟩
      · cases follows.standing with
        | waiting answer call asked unread => exact .waiting answer call asked (by rw [unread, same])
        | returned call => exact .returned call
        | failed e call asked refused => exact .failed e call asked refused
      · rw [same]
        exact follows.ordered
    · split at taken
      · cases taken
        rw [List.append_nil]
        refine ⟨follows.run, ?_, follows.ordered⟩
        cases follows.standing with
        | waiting answer call asked unread => exact .waiting answer call asked unread
        | returned call => exact .returned call
        | failed e call asked refused => exact .failed e call asked refused
      · cases taken
  | round =>
    simp only [Registration.step] at taken
    split at taken
    · rename_i later stepped
      cases taken
      rw [List.append_nil]
      exact follows.round alone stepped
    · cases taken
  | poll =>
    simp only [Registration.step] at taken
    split at taken
    · rename_i call
      cases taken
      have requests := pollRpc_requests registration.ended registration.arrived
      have ordered := follows.ordered
      refine ⟨?_, .returned call, ?_⟩
      · rw [hubLog_append, hubLog_polled, List.append_nil]
        exact follows.run
      · unfold sentRequests at ordered ⊢
        rw [hubLog_append, hubLog_polled, List.append_nil, polledRequests_append, polledRequests_polled]
        rw [List.filterMap_append, requests] at ordered
        rw [ordered, List.filterMap_append]
        simp
    · cases taken
  | send message =>
    simp only [Registration.step] at taken
    split at taken
    · rename_i call
      cases taken
      rw [List.append_nil]
      exact ⟨follows.run, .returned call, follows.ordered⟩
    · cases taken

theorem received_clock (run : KrossbarHub.Run env additional_service_dirs files log hub)
    {client : Option String} {request : RpcRequest} (received : .received client request ∈ log) :
    request.writer < hub.clock := by
  obtain ⟨before, middle, action, after, out, earlier, _, taken, emitted, later, split⟩ := run.emitted received
  obtain ⟨message, rfl, _⟩ := step_received taken emitted
  have accepted : ∃ credentials, .accepted request.writer credentials ∈ before := by
    cases step_cases taken with
    | resumed _ task _ progress selecting present resumes =>
      exact ⟨task.credentials, (run_vetted earlier).credentials _ task present⟩
    | crashed _ task _ selecting present panics =>
      exact ⟨task.credentials, (run_vetted earlier).credentials _ task present⟩
  obtain ⟨credentials, member⟩ := accepted
  have there : .accepted request.writer credentials ∈ log := by
    rw [split]
    exact List.mem_append_left _ (List.mem_append_left _ member)
  exact ((run_vetted run).single _ _ there).1

variable {credentials : UCred} {service_name : String} {origin : Registration} {first : List Event}

theorem Follows.start (before : KrossbarHub.Run env additional_service_dirs files early hub)
    (started : Registration.start env hub credentials service_name message_id = some (origin, first)) :
    Follows env additional_service_dirs files (early ++ first) [] origin := by
  unfold Registration.start at started
  split at started
  · cases started
  · rename_i after out taken
    cases started
    have run := before.next trivial taken
    have silent : first = [.accepted hub.clock credentials] := by
      cases step_cases taken with
      | accepted _ selecting => rfl
    have old : ∀ event ∈ early ++ first, event ≠ .accepted hub.clock credentials → event ∈ early := by
      intro event member different
      rw [silent] at member
      exact (List.mem_append.mp member).resolve_right fun new => different (List.mem_singleton.mp new)
    have unread : ∀ client request, .received client request ∈ early ++ first → request.writer ≠ hub.clock := by
      intro client request member same
      have bound := received_clock before (old _ member (by simp))
      rw [same] at bound
      exact Nat.lt_irrefl _ bound
    refine ⟨by simpa [hubLog] using run,
      .waiting none rfl ⟨⟨.inr ⟨_, rfl, service_name, rfl⟩, ?_, ?_⟩, ?_, ?_⟩ rfl, rfl⟩
    · intro client request member own
      rw [show hubLog [] = [] from rfl, List.append_nil] at member
      exact absurd own (unread client request member)
    · intro client _ other request member _ own _
      rw [show hubLog [] = [] from rfl, List.append_nil] at member
      exact absurd own (unread client other member)
    · intro id response member
      cases member
    · apply Replies.unanswered
      rintro ⟨name, member⟩
      rw [show hubLog [] = [] from rfl, List.append_nil] at member
      have bound := ((run_recorded before).registered name _ (old _ member (by simp))).1
      exact Nat.lt_irrefl _ bound

theorem arrives (env : HubEnvironment) (debug : String × Nat → String) (registration : Registration) :
    ∃ after, Transition.RunWith (Registration.step env debug) Registration.ReadsReplyAlone registration [] after ∧
      after.call = registration.call ∧ after.conn = registration.conn ∧
      after.arrived = registration.arrived ++ registration.fromHub ∧ after.fromHub = [] := by
  generalize queue : registration.fromHub = waiting
  induction waiting generalizing registration with
  | nil => exact ⟨registration, .start, rfl, rfl, by simp, queue⟩
  | cons next rest ih =>
    have taken : Registration.step env debug registration .arrive = some ({ registration with
        fromHub := rest
        arrived := registration.arrived ++ [next] }, []) := by simp [Registration.step, queue]
    obtain ⟨after, run, call, conn, arrived, empty⟩ := ih { registration with
      fromHub := rest
      arrived := registration.arrived ++ [next] } rfl
    have alone : registration.ReadsReplyAlone .arrive := trivial
    exact ⟨after, run.ahead alone taken, call, conn, by simpa using arrived, empty⟩

theorem polls (env : HubEnvironment) (debug : String × Nat → String) (registration : Registration)
    (returned : registration.call = .returned) :
    ∃ log after, Transition.RunWith (Registration.step env debug) Registration.ReadsReplyAlone registration log
        after ∧ after.call = .returned ∧ hubLog log = [] ∧
      polledRequests log = registration.arrived.filterMap Delivery.request := by
  generalize unread : registration.arrived.filterMap Delivery.request = requests
  induction requests generalizing registration with
  | nil => exact ⟨[], registration, .start, returned, rfl, rfl⟩
  | cons request rest ih =>
    have split := pollRpc_requests registration.ended registration.arrived
    rw [unread] at split
    cases polled : (pollRpc registration.ended registration.arrived).2.1.requested with
    | none =>
      rw [pollRpc_requested] at polled
      have empty : registration.arrived.filterMap Delivery.request = [] := List.filterMap_eq_nil_iff.mpr polled
      rw [empty] at unread
      cases unread
    | some first =>
      rw [polled] at split
      obtain ⟨rfl, left⟩ := List.cons.inj split
      have taken : Registration.step env debug registration .poll = some (
          { registration with arrived := (pollRpc registration.ended registration.arrived).2.2 },
          polledEvents (pollRpc registration.ended registration.arrived).2.1) := by
        simp [Registration.step, returned]
      obtain ⟨log, after, run, call, quiet, rest⟩ := ih
        { registration with arrived := (pollRpc registration.ended registration.arrived).2.2 } returned left.symm
      have alone : registration.ReadsReplyAlone .poll := trivial
      refine ⟨_, after, run.ahead alone taken, call, by simp [quiet], ?_⟩
      rw [polledRequests_append, polledRequests_polled, polled, rest]
      rfl

/-- A registration that was accepted and has returned or still can. -/
inductive Succeeds (registration : Registration) : Prop
  | unread (call : registration.call = .waiting none) (requests : List Delivery)
      (reply : registration.arrived ++ registration.fromHub = .response registration.message_id .ok :: requests)
      (behind : ∀ next ∈ requests, next.request ≠ none)
  | answered (call : registration.call = .waiting (some .ok))
  | returned (call : registration.call = .returned)

theorem Follows.succeeds (follows : Follows env additional_service_dirs files early registrationLog registration)
    (accepted : Accepted (hubLog registrationLog) registration.conn) : Succeeds registration := by
  have registered : Accepted (early ++ hubLog registrationLog) registration.conn := by
    obtain ⟨name, member⟩ := accepted
    exact ⟨name, List.mem_append_right _ member⟩
  cases follows.standing with
  | returned call => exact .returned call
  | failed e call asked refusal =>
    have replies := asked.replies
    generalize (hubLog registrationLog).filterMap (delivery registration.conn) = deliveries at replies refusal
    cases replies with
    | unanswered refused => exact absurd registered refused
    | refused e refused => exact absurd registered refused
    | accepted _ requests behind => cases refusal
  | waiting answer call asked unread =>
    have replies := asked.replies
    generalize (hubLog registrationLog).filterMap (delivery registration.conn) = deliveries at replies unread
    cases replies with
    | unanswered refused => exact absurd registered refused
    | refused e refused => exact absurd registered refused
    | accepted _ requests behind =>
      cases answer with
      | none =>
        refine .unread call requests unread.symm fun next member => ?_
        obtain ⟨initiator, pair, rfl⟩ := behind next member
        simp [Delivery.request]
      | some response =>
        cases unread
        exact .answered call

/-- The handshake can end with what has been sent, and every request of it is polled then. -/
def Registration.Finishes (env : HubEnvironment) (debug : String × Nat → String) (registration : Registration) :
    Prop :=
  ∃ log after, Transition.RunWith (Registration.step env debug) Registration.ReadsReplyAlone registration log
      after ∧ after.call = .returned ∧ hubLog log = [] ∧
    polledRequests log = (registration.arrived ++ registration.fromHub).filterMap Delivery.request

theorem returned_finishes (returned : registration.call = .returned) : registration.Finishes env debug := by
  obtain ⟨middle, first, call, _, arrived, _⟩ := arrives env debug registration
  obtain ⟨log, after, second, ended, quiet, polled⟩ := polls env debug middle (call.trans returned)
  exact ⟨_, after, first.append second, ended, quiet, by rw [← arrived]; exact polled⟩

theorem Registration.Finishes.stepped (finishes : next.Finishes env debug)
    (alone : registration.ReadsReplyAlone registrationAction)
    (taken : Registration.step env debug registration registrationAction = some (next, []))
    (same : (next.arrived ++ next.fromHub).filterMap Delivery.request =
      (registration.arrived ++ registration.fromHub).filterMap Delivery.request) :
    registration.Finishes env debug := by
  obtain ⟨log, after, run, returned, quiet, polled⟩ := finishes
  exact ⟨log, after, run.ahead alone taken, returned, quiet, polled.trans same⟩

theorem answered_finishes (answered : registration.call = .waiting (some .ok)) :
    registration.Finishes env debug := by
  have taken : Registration.step env debug registration .round =
      some ({ registration with call := .returned }, []) := by
    simp [Registration.step, Registration.round, answered, registrationResult]
  have alone : registration.ReadsReplyAlone .round := by
    intro waiting
    rw [answered] at waiting
    cases waiting
  have finishes : Registration.Finishes env debug { registration with call := .returned } := returned_finishes rfl
  exact finishes.stepped alone taken rfl

theorem replied_finishes (waiting : registration.call = .waiting none) (open_ : registration.ended = false)
    (reply : registration.arrived = [.response registration.message_id .ok]) :
    registration.Finishes env debug := by
  have polled : pollRpc false [.response registration.message_id .ok] =
      ([(registration.message_id, .ok)], .pending, []) := rfl
  have taken : Registration.step env debug registration .round =
      some ({ registration with arrived := [], call := .waiting (some .ok) }, []) := by
    simp [Registration.step, Registration.round, waiting, reply, open_, polled]
  have alone : registration.ReadsReplyAlone .round := by
    refine fun _ => ⟨open_, fun next member => ?_⟩
    rw [reply] at member
    cases List.mem_singleton.mp member
    rfl
  have finishes : Registration.Finishes env debug { registration with
      arrived := []
      call := .waiting (some .ok) } := answered_finishes rfl
  apply finishes.stepped alone taken
  rw [reply]
  rfl

theorem Succeeds.finishes (succeeds : Succeeds registration)
    (quiet : registration.call = .waiting none → registration.Quiet) : registration.Finishes env debug := by
  cases succeeds with
  | returned call => exact returned_finishes call
  | answered call => exact answered_finishes call
  | unread call requests reply behind =>
    obtain ⟨open_, quiet⟩ := quiet call
    cases arrived : registration.arrived with
    | nil =>
      have queue : registration.fromHub = .response registration.message_id .ok :: requests := by
        rwa [arrived] at reply
      have taken : Registration.step env debug registration .arrive = some ({ registration with
          fromHub := requests
          arrived := [.response registration.message_id .ok] }, []) := by
        simp [Registration.step, queue, arrived]
      have alone : registration.ReadsReplyAlone .arrive := trivial
      have finishes : Registration.Finishes env debug { registration with
          fromHub := requests
          arrived := [.response registration.message_id .ok] } := replied_finishes call open_ rfl
      apply finishes.stepped alone taken
      rw [arrived, queue]
      rfl
    | cons first others =>
      rw [arrived] at reply quiet
      obtain ⟨rfl, same⟩ := List.cons.inj reply
      cases others with
      | nil => exact replied_finishes call open_ arrived
      | cons second more =>
        have request := behind second (by rw [← same]; exact List.mem_cons_self)
        exact absurd (quiet second (by simp)) request

theorem Succeeds.unfailed (succeeds : Succeeds registration) (e : Error) : registration.call ≠ .failed e := by
  intro failed
  cases succeeds with
  | unread call | answered call | returned call =>
    rw [call] at failed
    cases failed

theorem step_call (taken : Registration.step env debug registration registrationAction = some (next, registrationOut))
    (other : registrationAction ≠ .round) : next.call = registration.call := by
  cases registrationAction with
  | round => exact absurd rfl other
  | hub action =>
    simp only [Registration.step] at taken
    split at taken
    · cases taken
    · obtain ⟨hub, out, _, _, rfl⟩ := registrationHubStep_cases taken
      rfl
  | receive =>
    simp only [Registration.step] at taken
    split at taken
    · split at taken
      · cases taken
      · obtain ⟨hub, out, _, _, rfl⟩ := registrationHubStep_cases taken
        rfl
    · cases taken
  | close =>
    simp only [Registration.step] at taken
    split at taken
    · cases taken
    · cases taken
      rfl
  | arrive =>
    simp only [Registration.step] at taken
    split at taken
    · cases taken
      rfl
    · split at taken
      · cases taken
        rfl
      · cases taken
  | poll | send message =>
    simp only [Registration.step] at taken
    split at taken
    · cases taken
      rfl
    · cases taken

theorem Succeeds.fails_iff (succeeds : Succeeds registration)
    (taken : Registration.step env debug registration registrationAction = some (next, registrationOut)) :
    (∃ e, next.call = .failed e) ↔ ¬ registration.ReadsReplyAlone registrationAction := by
  cases registrationAction with
  | round =>
    simp only [Registration.step] at taken
    split at taken
    · rename_i after round
      cases taken
      unfold Registration.round at round
      cases succeeds with
      | unread call requests reply behind =>
        have alone : registration.ReadsReplyAlone .round ↔
            (pollRpc registration.ended registration.arrived).2.1 = .pending := by
          rw [pollRpc_quiet]
          exact ⟨fun alone => alone call, fun quiet _ => quiet⟩
        simp only [call, Option.some.injEq] at round
        subst round
        rw [alone]
        cases polled : (pollRpc registration.ended registration.arrived).2.1 with
        | pending => simp
        | request initiator pair => simp [unexpectedMessage]
        | ended => simp [unexpectedMessage]
      | answered call =>
        simp only [call, registrationResult, Option.some.injEq] at round
        subst round
        simp [Registration.ReadsReplyAlone, call]
      | returned call => simp [call] at round
    · cases taken
  | hub action | receive | close | arrive | poll | send message =>
    have same := step_call taken (by simp)
    constructor
    · rintro ⟨e, failed⟩
      exact absurd (same.symm.trans failed) (succeeds.unfailed e)
    · intro crowded
      exact absurd trivial crowded

/-- A service whose registration the hub accepted gets it, and every connection request, if the handshake
    reads the reply before a request or the end of the stream can be read behind it. -/
theorem accepted_registration_returns {state : Registration} {log : List RegistrationEvent}
    (before : KrossbarHub.Run env additional_service_dirs files early hub)
    (started : Registration.start env hub credentials service_name message_id = some (origin, first))
    (run : Transition.RunWith (Registration.step env debug) Registration.ReadsReplyAlone origin log state)
    (accepted : Accepted (hubLog log) state.conn) :
    (∀ e, state.call ≠ .failed e) ∧
    sentRequests state.conn log =
      polledRequests log ++ (state.arrived ++ state.fromHub).filterMap Delivery.request ∧
    ((state.call = .waiting none → state.Quiet) →
      ∃ later after, Transition.RunWith (Registration.step env debug) Registration.ReadsReplyAlone state later
        after ∧ after.call = .returned ∧
      polledRequests (log ++ later) = sentRequests state.conn (log ++ later)) ∧
    ∀ action after out, Registration.step env debug state action = some (after, out) →
      ((∃ e, after.call = .failed e) ↔ ¬ state.ReadsReplyAlone action) := by
  have follows : Follows env additional_service_dirs files (early ++ first) log state := by
    refine run.invariant (I := Follows env additional_service_dirs files (early ++ first))
      (Follows.start before started) ?_
    intro log registration action next out _ follows alone taken
    exact follows.preserved alone taken
  have succeeds := follows.succeeds accepted
  refine ⟨succeeds.unfailed, follows.ordered, ?_, fun action after out taken => succeeds.fails_iff taken⟩
  intro quiet
  have finishes : state.Finishes env debug := succeeds.finishes quiet
  obtain ⟨later, after, more, returned, unheard, polled⟩ := finishes
  refine ⟨later, after, more, returned, ?_⟩
  have ordered := follows.ordered
  unfold sentRequests at ordered ⊢
  rw [polledRequests_append, hubLog_append, unheard, List.append_nil, polled, ordered]

instance (registration : Registration) : Decidable registration.Quiet :=
  inferInstanceAs (Decidable (_ ∧ _))

instance (registration : Registration) (action : RegistrationAction) :
    Decidable (registration.ReadsReplyAlone action) :=
  match action with
  | .round => inferInstanceAs (Decidable (_ → _))
  | .hub _ | .receive | .close | .arrive | .poll | .send _ => isTrue trivial

/-- com.b registers on connection 6 while com.a is registered on connection 0. -/
def joiningFiles : FileSystem := openFiles ["com.a", "com.b"]

def joins (ok : Registration → RegistrationAction → Bool) (actions : List RegistrationAction)
    (check : List RegistrationEvent → Registration → Bool) : Bool :=
  (Transition.execute (KrossbarHub.step openEnvironment) (Hub.new [] joiningFiles) (registering 0 "com.a")).any
    fun started => (Registration.start openEnvironment started.1 ⟨some 7⟩ "com.b" 0).any
      fun origin => (Transition.execute (Transition.guarded (Registration.step openEnvironment Prod.fst) ok)
        origin.1 actions).any fun final => check final.2 final.1

theorem joins_run (ok : Registration → RegistrationAction → Bool) (actions : List RegistrationAction)
    (check : List RegistrationEvent → Registration → Bool) (joined : joins ok actions check = true) :
    ∃ early hub origin first log state, KrossbarHub.Run openEnvironment [] joiningFiles early hub ∧
      Registration.start openEnvironment hub ⟨some 7⟩ "com.b" 0 = some (origin, first) ∧
      Transition.Run (Transition.guarded (Registration.step openEnvironment Prod.fst) ok) origin log state ∧
      check log state = true := by
  unfold joins at joined
  simp only [Option.any_eq_true] at joined
  obtain ⟨⟨hub, early⟩, executed, ⟨origin, first⟩, started, ⟨state, log⟩, ran, shown⟩ := joined
  exact ⟨early, hub, origin, first, log, state, Transition.execute_run executed, started,
    Transition.execute_run ran, shown⟩

def accepting : List RegistrationAction :=
  [.receive, .hub (.task 6 .locked), .hub (.task 6 (.sent true))]

def approached : List RegistrationAction :=
  (connecting 0 "com.b" false ++ [Action.task 0 (.sent true), Action.task 0 (.sent true)]).map .hub

theorem accepted_registration_returns_approached : ∃ early hub origin first log state later after,
    KrossbarHub.Run openEnvironment [] joiningFiles early hub ∧
    Registration.start openEnvironment hub ⟨some 7⟩ "com.b" 0 = some (origin, first) ∧
    Transition.RunWith (Registration.step openEnvironment Prod.fst) Registration.ReadsReplyAlone origin log state ∧
    Accepted (hubLog log) state.conn ∧ sentRequests state.conn log = [("com.a", 11)] ∧
    Transition.RunWith (Registration.step openEnvironment Prod.fst) Registration.ReadsReplyAlone state later after ∧
    after.call = .returned ∧ polledRequests (log ++ later) = sentRequests state.conn (log ++ later) := by
  obtain ⟨early, hub, origin, first, log, state, before, started, run, shown⟩ := joins_run
    (fun registration action => decide (registration.ReadsReplyAlone action)) (accepting ++ .arrive :: approached)
    (fun log state => (hubLog log).contains (.registered "com.b" state.conn) &&
      sentRequests state.conn log == [("com.a", 11)] && decide state.Quiet)
    (by decide +kernel)
  simp only [Bool.and_eq_true, List.contains_iff_mem, beq_iff_eq, decide_eq_true_eq] at shown
  obtain ⟨⟨registered, sent⟩, quiet⟩ := shown
  have alone := run.of_guarded fun _ _ _ _ => of_decide_eq_true
  have accepted : Accepted (hubLog log) state.conn := ⟨"com.b", registered⟩
  obtain ⟨_, _, returns, _⟩ := accepted_registration_returns before started alone accepted
  obtain ⟨later, after, more, returned, polled⟩ := returns fun _ => quiet
  exact ⟨early, hub, origin, first, log, state, later, after, before, started, alone, accepted, sent, more,
    returned, polled⟩

/-- The request of com.a arrives together with the reply. -/
theorem accepted_registration_fails : ∃ early hub origin first log state,
    KrossbarHub.Run openEnvironment [] joiningFiles early hub ∧
    Registration.start openEnvironment hub ⟨some 7⟩ "com.b" 0 = some (origin, first) ∧
    Transition.Run (Registration.step openEnvironment Prod.fst) origin log state ∧
    Accepted (hubLog log) state.conn ∧ .response 0 .ok ∈ (hubLog log).filterMap (delivery state.conn) ∧
    state.call = .failed (.internalError "Unexpected hub message during connection request: Some(com.a)") ∧
    sentRequests state.conn log = [("com.a", 11)] ∧ polledRequests log = [] ∧
    (state.arrived ++ state.fromHub).filterMap Delivery.request = [] := by
  obtain ⟨early, hub, origin, first, log, state, before, started, run, shown⟩ := joins_run
    (fun _ _ => true) (accepting ++ approached ++ [.arrive, .arrive, .round])
    (fun log state => (hubLog log).contains (.registered "com.b" state.conn) &&
      ((hubLog log).filterMap (delivery state.conn)).contains (.response 0 .ok) &&
      state.call == .failed (.internalError "Unexpected hub message during connection request: Some(com.a)") &&
      sentRequests state.conn log == [("com.a", 11)] && polledRequests log == [] &&
      (state.arrived ++ state.fromHub).filterMap Delivery.request == [])
    (by decide +kernel)
  simp only [Bool.and_eq_true, List.contains_iff_mem, beq_iff_eq] at shown
  obtain ⟨⟨⟨⟨⟨registered, replied⟩, failed⟩, sent⟩, unpolled⟩, consumed⟩ := shown
  exact ⟨early, hub, origin, first, log, state, before, started, run.of_guarded fun _ _ _ _ _ => trivial,
    ⟨"com.b", registered⟩, replied, failed, sent, unpolled, consumed⟩

/-- The hub is interrupted behind its reply, and the end of the stream can be read with it. -/
example : joins (fun _ _ => true) (accepting ++ [.hub .interrupt, .close, .arrive, .arrive, .round])
    (fun _ state => state.call == unexpectedMessage "None") = true := by decide +kernel

end KrossbarBus
