import KrossbarBus.Lib.Streams

namespace KrossbarLib

variable {Bson : Type}

/-- Whether a request of that kind gets a response: a call one, a message none. A signal does not respond to
    its subscribers, a state does. -/
def RequestBody.Answered : RequestBody Bson → Option (CallResult Bson) → Prop
  | .call _, response => response.isSome = true
  | .message _, response => response = none
  | .subscription, _ => True
  | .other, response => response.isSome = true

structure Exchange (Bson : Type) where
  request : IncomingRequest Bson
  response : Option (CallResult Bson)

/-- A request is handed over and maybe answered, on the stream and with the id that it came with. -/
def Exchange.begun (number : Nat) (exchange : Exchange Bson) : List (ServingEvent Bson) :=
  .handed number exchange.request ::
    (exchange.response.map (.responded number exchange.request.rpc exchange.request.message_id)).toList

def Exchange.events (number : Nat) (exchange : Exchange Bson) : List (ServingEvent Bson) :=
  exchange.begun number ++ [.completed number exchange.request]

def arrivals (number : Nat) (log : List (ServingEvent Bson)) : List (IncomingRequest Bson) :=
  log.filterMap fun
    | .arrived other request => if other = number then some request else none
    | _ => none

def ServingEvent.concerns (number : Nat) : ServingEvent Bson → Bool
  | .handed other _ | .responded other _ _ _ | .completed other _ => other == number
  | _ => false

/-- What a service does with the requests of one of its handles. -/
def talk (number : Nat) (log : List (ServingEvent Bson)) : List (ServingEvent Bson) :=
  log.filter (ServingEvent.concerns number)

/-- The requests that have arrived for a handle are those of its exchanges, in order, and those that wait.
    All exchanges but the last are complete. -/
structure Conversation (number : Nat) (log : List (ServingEvent Bson)) (inbox : List (Frame Bson))
    (exchanges : List (Exchange Bson)) (current : Option (Exchange Bson)) : Prop where
  arrived : arrivals number log =
    (exchanges ++ current.toList).map Exchange.request ++ inbox.filterMap Frame.asRequest
  talked : talk number log =
    exchanges.flatMap (Exchange.events number) ++ current.toList.flatMap (Exchange.begun number)
  answered : ∀ exchange ∈ exchanges, exchange.request.body.Answered exchange.response

/-- Where the handling of a request is, with the response that it has given so far. -/
def CallPhase.Fits (body : RequestBody Bson) : CallPhase Bson → Option (CallResult Bson) → Prop
  | .running _, response => response = none ∧ ∃ bson, body = .call bson ∨ body = .message bson
  | .readingValue, response => response = none ∧ ∀ bson, body ≠ .message bson
  | .responding _, response => response = none ∧ ∀ bson, body ≠ .message bson
  | .addingClient, _ => body = .subscription
  | .done, response => body.Answered response

variable {monitor inspection : Bool} {serving after : Serving Bson} {action : ServingAction Bson}
  {log out : List (ServingEvent Bson)} {number : Nat} {inbox rest : List (Frame Bson)}
  {exchanges : List (Exchange Bson)} {current : Option (Exchange Bson)} {request : IncomingRequest Bson}
  {phase next : CallPhase Bson} {response : Option (CallResult Bson)} {input : CallInput Bson}

theorem start_fits (endpoints : Endpoints (MethodParams Bson) Nat Nat) (request : IncomingRequest Bson) :
    (endpoints.start inspection request).Fits request.body none := by
  cases body : request.body with
  | message bson =>
    simp only [Endpoints.start, Endpoints.handleCall, body]
    cases endpoints.methods.lookup request.endpoint with
    | none => rfl
    | some method =>
      simp only
      split
      · rfl
      · exact ⟨rfl, bson, .inr rfl⟩
  | call params =>
    simp only [Endpoints.start, Endpoints.handleCall, body]
    by_cases inspected : (inspection && request.endpoint == inspectMethod) = true
    · rw [if_pos inspected]
      exact ⟨rfl, by simp⟩
    · rw [if_neg inspected]
      cases endpoints.methods.lookup request.endpoint with
      | none =>
        cases endpoints.states.lookup request.endpoint with
        | none => exact ⟨rfl, by simp⟩
        | some state => exact ⟨rfl, by simp⟩
      | some method =>
        simp only
        cases method params with
        | none => exact ⟨rfl, params, .inl rfl⟩
        | some text => exact ⟨rfl, by simp⟩
  | subscription =>
    simp only [Endpoints.start, Endpoints.handleCall, body]
    cases endpoints.signals.lookup request.endpoint with
    | some signal => rfl
    | none =>
      cases endpoints.states.lookup request.endpoint with
      | none => exact ⟨rfl, by simp⟩
      | some state => exact ⟨rfl, by simp⟩
  | other =>
    simp only [Endpoints.start, Endpoints.handleCall, body]
    exact ⟨rfl, by simp⟩

theorem answered_some {body : RequestBody Bson} (answers : ∀ bson, body ≠ .message bson) (result : CallResult Bson) :
    body.Answered (some result) := by
  cases body with
  | message bson => exact absurd rfl (answers bson)
  | subscription => trivial
  | _ => rfl

theorem resume_fits {call : HandledCall Bson} (fits : call.phase.Fits call.request.body response)
    (resumed : call.resume input = some next) :
    next.Fits call.request.body ((call.phase.response input).or response) ∧
      ((call.phase.response input).isSome = true → response = none) := by
  obtain ⟨⟨rpc, message_id, endpoint, body⟩, phase⟩ := call
  cases phase with
  | running awaiting =>
    obtain ⟨rfl, bson, rfl | rfl⟩ := fits <;> cases input <;> cases resumed
    · exact ⟨⟨rfl, by simp⟩, fun _ => rfl⟩
    · exact ⟨rfl, fun _ => rfl⟩
  | readingValue =>
    obtain ⟨rfl, silent⟩ := fits
    cases input <;> cases resumed
    exact ⟨⟨rfl, silent⟩, fun _ => rfl⟩
  | responding result =>
    obtain ⟨rfl, silent⟩ := fits
    cases input with
    | responded ok =>
      refine ⟨?_, fun _ => rfl⟩
      simp only [HandledCall.resume] at resumed
      split at resumed
      · rename_i value there
        cases there
        cases ok <;> cases resumed
        · trivial
        · rfl
      · cases resumed
        exact answered_some silent result
      · cases resumed
    | _ => cases resumed
  | addingClient =>
    cases input <;> cases resumed
    obtain rfl : body = .subscription := fits
    exact ⟨trivial, by simp [CallPhase.response]⟩
  | done => cases input <;> cases resumed

def Serving.Spares (serving : Serving Bson) : ServingAction Bson → Prop
  | .service action => serving.service.Spares action
  | _ => True

/-- A waiting frame has come on the stream that its handle still has, and so has the request in the arm. -/
structure Serving.Wired (serving : Serving Bson) : Prop where
  tracked : serving.service.Tracked
  busy : serving.handling = none ↔ serving.service.activity.held = none
  frames : ∀ number frame, frame ∈ serving.inbox number → ∃ rpc, serving.service.streamOf number = some rpc ∧
    ∀ request, frame = .request request → request.rpc = rpc
  current : ∀ call number poll_handle, serving.handling = some call →
    serving.service.activity.held = some (number, poll_handle) → call.request.rpc = poll_handle.rpc

theorem pollsRpc_free (polls : serving.service.pollsRpc number = true) : serving.service.activity.held = none := by
  simp only [Service.pollsRpc, Bool.and_eq_true, beq_iff_eq] at polls
  exact held_phase polls.1

theorem message_taken {service next : Service} {events : List ServiceEvent}
    (taken : Service.step monitor service (.clientMessage number) = some (next, events)) :
    service.activity.held = none ∧ ∃ poll_handle,
      service.client_poll_handles.get number = some poll_handle ∧ poll_handle.phase = .polling ∧
      next.activity.held = some (number, poll_handle) := by
  cases Service.step_cases taken with
  | message _ poll_handle selecting present polling =>
    have holds := held_withPhase selecting (.handlingCall number poll_handle)
    exact ⟨held_phase selecting, poll_handle, present, polling, holds⟩

theorem handled_taken {service next : Service} {events : List ServiceEvent}
    (taken : Service.step monitor service .handled = some (next, events)) : next.activity.held = none := by
  cases Service.step_cases taken with
  | handled _ _ _ => exact held_pollReturns _

theorem Serving.Wired.frames_setInbox (wired : serving.Wired) (fewer : rest ⊆ serving.inbox number)
    {service : Service} (streams : ∀ other rpc, serving.service.streamOf other = some rpc →
      service.streamOf other = some rpc) (other : Nat) (frame : Frame Bson)
    (member : frame ∈ (serving.setInbox number rest).inbox other) :
    ∃ rpc, service.streamOf other = some rpc ∧ ∀ request, frame = .request request → request.rpc = rpc := by
  have before : frame ∈ serving.inbox other := by
    simp only [Serving.setInbox] at member
    split at member
    · rename_i this
      rw [this]
      exact fewer member
    · exact member
  obtain ⟨rpc, stream, same⟩ := wired.frames other frame before
  exact ⟨rpc, streams other rpc stream, same⟩

theorem Serving.Wired.receive (wired : serving.Wired) {rpc : Nat} {frame : Frame Bson}
    (stream : serving.service.streamOf number = some rpc)
    (same : ∀ request, frame = .request request → request.rpc = rpc) :
    (serving.receive number frame).Wired where
  tracked := wired.tracked
  busy := wired.busy
  frames := by
    intro other arrived member
    simp only [Serving.receive, Serving.setInbox] at member
    split at member
    · rename_i this
      subst this
      rcases List.mem_append.mp member with old | new
      · exact wired.frames other arrived old
      · rw [List.mem_singleton] at new
        subst new
        exact ⟨rpc, stream, same⟩
    · exact wired.frames other arrived member
  current := wired.current

theorem Serving.Steps.wired (steps : serving.Steps monitor inspection action after out) (wired : serving.Wired)
    (spares : serving.Spares action) : after.Wired := by
  cases steps with
  | service action service out apart drained taken =>
    have held := step_held spares apart taken
    refine ⟨(Service.step_cases taken).tracked wired.tracked spares, ?_, ?_, ?_⟩
    · simp only [held]
      split
      · exact wired.busy
      · rename_i free
        simpa using free
    · intro number frame member
      obtain ⟨rpc, stream, same⟩ := wired.frames number frame member
      have stays : action ≠ .streamLost number := by
        rintro rfl
        simp only [Serving.drained, List.isEmpty_iff] at drained
        rw [drained] at member
        cases member
      exact ⟨rpc, step_stream wired.tracked spares taken stays stream, same⟩
    · intro call number poll_handle handling holds
      simp only [held] at handling holds
      split at handling
      · exact wired.current call number poll_handle handling holds
      · cases handling
  | register registration idle => exact ⟨wired.tracked, wired.busy, wired.frames, wired.current⟩
  | arrive number rpc message_id endpoint body stream =>
    apply wired.receive stream
    intro request same
    cases same
    rfl
  | arriveResponse number rpc id stream => exact wired.receive stream (by simp)
  | read number request rest service events first taken =>
    obtain ⟨free, poll_handle, present, polling, holds⟩ := message_taken taken
    have streams : ∀ other rpc, serving.service.streamOf other = some rpc → service.streamOf other = some rpc :=
      fun other rpc stream => step_stream wired.tracked (fun drops => by cases drops) taken (by simp) stream
    refine ⟨(Service.step_cases taken).tracked wired.tracked (fun drops => by cases drops), ?_, ?_, ?_⟩
    · simp [holds]
    · apply wired.frames_setInbox _ streams
      rw [first]
      exact List.subset_cons_self _ _
    · intro call other found handling holds'
      cases handling
      rw [holds] at holds'
      cases holds'
      obtain ⟨rpc, stream, same⟩ := wired.frames number (.request request) (by rw [first]; simp)
      rw [same request rfl]
      obtain ⟨found, there, _, rfl⟩ := streamOf_iff.mp stream
      simp only [Service.handleOf, present] at there
      cases there
      rfl
  | deliver number id rest first polls =>
    have free := pollsRpc_free polls
    have idle := wired.busy.mpr free
    refine ⟨wired.tracked, by simp [idle, Serving.setInbox, free], ?_, by simp [idle]⟩
    apply wired.frames_setInbox _ fun _ _ stream => stream
    rw [first]
    exact List.subset_cons_self _ _
  | call number request awaiting running =>
    refine ⟨wired.tracked, ?_, wired.frames, ?_⟩
    · rw [← wired.busy, running]
      simp
    · intro call other poll_handle handling holds
      cases handling
      exact wired.current ⟨request, .running awaiting⟩ other poll_handle running holds
  | resume input call number poll_handle phase current held resumed =>
    refine ⟨wired.tracked, ?_, wired.frames, ?_⟩
    · simp [held]
    · intro next other found handling holds
      cases handling
      exact wired.current call other found current holds
  | complete request number poll_handle service events current held taken =>
    have streams : ∀ other rpc, serving.service.streamOf other = some rpc → service.streamOf other = some rpc :=
      fun other rpc stream => step_stream wired.tracked (fun drops => by cases drops) taken (by simp) stream
    refine ⟨(Service.step_cases taken).tracked wired.tracked (fun drops => by cases drops), ?_, ?_, by simp⟩
    · simp [handled_taken taken]
    · intro other frame member
      obtain ⟨rpc, stream, same⟩ := wired.frames other frame member
      exact ⟨rpc, streams other rpc stream, same⟩

theorem arrivals_append (number : Nat) (log out : List (ServingEvent Bson)) :
    arrivals number (log ++ out) = arrivals number log ++ arrivals number out := List.filterMap_append

theorem talk_append (number : Nat) (log out : List (ServingEvent Bson)) :
    talk number (log ++ out) = talk number log ++ talk number out :=
  List.filter_append log out

theorem Conversation.quiet (conversation : Conversation number log inbox exchanges current)
    (no_arrival : arrivals number out = []) (silent : talk number out = [])
    (same : rest.filterMap Frame.asRequest = inbox.filterMap Frame.asRequest) :
    Conversation number (log ++ out) rest exchanges current where
  arrived := by rw [arrivals_append, no_arrival, List.append_nil, conversation.arrived, same]
  talked := by rw [talk_append, silent, List.append_nil, conversation.talked]
  answered := conversation.answered

theorem Conversation.arrive (conversation : Conversation number log inbox exchanges current)
    (request : IncomingRequest Bson) :
    Conversation number (log ++ [.arrived number request]) (inbox ++ [.request request]) exchanges current where
  arrived := by
    rw [arrivals_append, conversation.arrived, List.filterMap_append, List.append_assoc]
    simp [arrivals, Frame.asRequest]
  talked := by
    rw [talk_append, conversation.talked]
    simp [talk, ServingEvent.concerns]
  answered := conversation.answered

theorem Conversation.read (conversation : Conversation number log (.request request :: rest) exchanges none) :
    Conversation number (log ++ [.handed number request]) rest exchanges (some ⟨request, none⟩) where
  arrived := by
    rw [arrivals_append, conversation.arrived]
    simp [arrivals, Frame.asRequest]
  talked := by
    rw [talk_append, conversation.talked]
    simp [talk, ServingEvent.concerns, Exchange.begun]
  answered := conversation.answered

theorem Conversation.respond (conversation : Conversation number log inbox exchanges (some ⟨request, none⟩))
    (result : CallResult Bson) :
    Conversation number (log ++ [.responded number request.rpc request.message_id result]) inbox exchanges
      (some ⟨request, some result⟩) where
  arrived := by
    rw [arrivals_append, conversation.arrived]
    simp [arrivals]
  talked := by
    rw [talk_append, conversation.talked]
    simp [talk, ServingEvent.concerns, Exchange.begun]
  answered := conversation.answered

theorem Conversation.complete {exchange : Exchange Bson}
    (conversation : Conversation number log inbox exchanges (some exchange))
    (answered : exchange.request.body.Answered exchange.response) :
    Conversation number (log ++ [.completed number exchange.request]) inbox (exchanges ++ [exchange]) none where
  arrived := by
    rw [arrivals_append, conversation.arrived]
    simp [arrivals]
  talked := by
    rw [talk_append, conversation.talked]
    simp [talk, ServingEvent.concerns, Exchange.events]
  answered := by
    intro other member
    rcases List.mem_append.mp member with old | new
    · exact conversation.answered other old
    · rw [List.mem_singleton.mp new]
      exact answered

/-- The request of the handle that is in the arm, and the response to it so far. -/
def Serving.At (serving : Serving Bson) (number : Nat) (current : Option (Exchange Bson)) : Prop :=
  match current with
  | none => ∀ poll_handle, serving.service.activity.held ≠ some (number, poll_handle)
  | some exchange => ∃ poll_handle call, serving.service.activity.held = some (number, poll_handle) ∧
      serving.handling = some call ∧ call.request = exchange.request ∧
      call.phase.Fits exchange.request.body exchange.response

def Serving.Converses (log : List (ServingEvent Bson)) (serving : Serving Bson) (number : Nat) : Prop :=
  ∃ exchanges current, Conversation number log (serving.inbox number) exchanges current ∧ serving.At number current

theorem at_same {current : Option (Exchange Bson)} (there : serving.At number current)
    (held : after.service.activity.held = serving.service.activity.held)
    (handling : after.handling = serving.handling) : after.At number current := by
  simp only [Serving.At, held, handling] at there ⊢
  exact there

theorem at_free (free : serving.service.activity.held = none) (there : serving.At number current) :
    current = none := by
  cases current with
  | none => rfl
  | some exchange =>
    obtain ⟨_, _, held, _⟩ := there
    rw [free] at held
    cases held

theorem Serving.Converses.quiet (converses : serving.Converses log number) (no_arrival : arrivals number out = [])
    (silent : talk number out = [])
    (same : (after.inbox number).filterMap Frame.asRequest = (serving.inbox number).filterMap Frame.asRequest)
    (there : ∀ current, serving.At number current → after.At number current) :
    after.Converses (log ++ out) number := by
  obtain ⟨exchanges, current, conversation, was⟩ := converses
  exact ⟨exchanges, current, conversation.quiet no_arrival silent same, there current was⟩

theorem inbox_setInbox (serving : Serving Bson) (number other : Nat) (frames : List (Frame Bson)) :
    (serving.setInbox number frames).inbox other = if other = number then frames else serving.inbox other := rfl

theorem quiet_services (number : Nat) (out : List ServiceEvent) :
    arrivals number (out.map .service : List (ServingEvent Bson)) = [] ∧
      talk number (out.map .service : List (ServingEvent Bson)) = [] := by
  constructor
  · simp [arrivals]
  · simp [talk, ServingEvent.concerns]

theorem at_elsewhere {poll_handle : ClientHandle}
    (held : serving.service.activity.held = some (other, poll_handle)) (different : other ≠ number)
    (there : serving.At number current) : current = none := by
  cases current with
  | none => rfl
  | some exchange =>
    obtain ⟨_, _, same, _⟩ := there
    rw [held] at same
    cases same
    exact absurd rfl different

theorem at_held {poll_handle : ClientHandle} {call : HandledCall Bson}
    (held : serving.service.activity.held = some (number, poll_handle)) (handling : serving.handling = some call)
    (there : serving.At number current) :
    ∃ response, current = some ⟨call.request, response⟩ ∧ call.phase.Fits call.request.body response := by
  cases current with
  | none => exact absurd held (there poll_handle)
  | some exchange =>
    obtain ⟨request, response⟩ := exchange
    obtain ⟨_, found, _, handled, rfl, fits⟩ := there
    rw [handling] at handled
    cases handled
    exact ⟨response, rfl, fits⟩

/-- A step says nothing about the handles that are not in the arm. -/
theorem Serving.Converses.apart {poll_handle : ClientHandle} (converses : serving.Converses log number)
    (held : serving.service.activity.held = some (other, poll_handle)) (different : other ≠ number)
    (no_arrival : arrivals number out = []) (silent : talk number out = [])
    (inbox : after.inbox number = serving.inbox number)
    (holds : after.service.activity.held = none ∨ after.service.activity.held = some (other, poll_handle)) :
    after.Converses (log ++ out) number := by
  apply converses.quiet no_arrival silent (by rw [inbox])
  intro current was
  rw [at_elsewhere held different was]
  intro found same
  rcases holds with free | still
  · rw [free] at same
    cases same
  · rw [still] at same
    cases same
    exact different rfl

theorem Serving.Converses.read {service : Service} {events : List ServiceEvent}
    (converses : serving.Converses log number) (first : serving.inbox other = .request request :: rest)
    (taken : Service.step monitor serving.service (.clientMessage other) = some (service, events)) :
    Serving.Converses (log ++ [.handed other request]) { serving.setInbox other rest with
      service
      handling := some ⟨request, serving.endpoints.start inspection request⟩ } number := by
  obtain ⟨free, poll_handle, present, polling, holds⟩ := message_taken taken
  obtain ⟨exchanges, current, conversation, was⟩ := converses
  have none := at_free free was
  subst none
  by_cases this : other = number
  · subst this
    rw [first] at conversation
    refine ⟨exchanges, some ⟨request, none⟩, ?_, ?_⟩
    · simp only [inbox_setInbox, if_true]
      exact conversation.read
    · exact ⟨poll_handle, _, holds, rfl, rfl, start_fits serving.endpoints request⟩
  · refine ⟨exchanges, none, ?_, ?_⟩
    · apply conversation.quiet rfl
      · simp [talk, ServingEvent.concerns, this]
      · simp only [inbox_setInbox, Ne.symm this, if_false]
    · intro found same
      rw [holds] at same
      cases same
      exact this rfl

theorem Serving.Converses.resume {call : HandledCall Bson} {poll_handle : ClientHandle}
    (converses : serving.Converses log number) (wired : serving.Wired) (handling : serving.handling = some call)
    (held : serving.service.activity.held = some (other, poll_handle)) (resumed : call.resume input = some phase) :
    Serving.Converses
      (log ++ ((call.phase.response input).map (.responded other poll_handle.rpc call.request.message_id)).toList)
      { serving with handling := some ⟨call.request, phase⟩ } number := by
  by_cases this : other = number
  · subst this
    obtain ⟨exchanges, current, conversation, was⟩ := converses
    obtain ⟨response, rfl, fits⟩ := at_held held handling was
    obtain ⟨fits, first⟩ := resume_fits fits resumed
    have stream := wired.current call other poll_handle handling held
    cases responds : call.phase.response input with
    | none =>
      rw [responds] at fits
      refine ⟨exchanges, some ⟨call.request, response⟩, ?_, poll_handle, _, held, rfl, rfl, fits⟩
      simp only [Option.map_none, Option.toList_none, List.append_nil]
      exact conversation
    | some result =>
      rw [responds] at fits first
      obtain rfl := first rfl
      refine ⟨exchanges, some ⟨call.request, some result⟩, ?_, poll_handle, _, held, rfl, rfl, fits⟩
      simp only [Option.map_some, Option.toList_some, ← stream]
      exact conversation.respond result
  · refine converses.apart held this ?_ ?_ ?_ ?_
    · cases call.phase.response input <;> rfl
    · cases call.phase.response input <;> simp [talk, ServingEvent.concerns, this]
    · rfl
    · exact .inr held

theorem Serving.Converses.complete {poll_handle : ClientHandle} {service : Service} {events : List ServiceEvent}
    (converses : serving.Converses log number) (handling : serving.handling = some ⟨request, .done⟩)
    (held : serving.service.activity.held = some (other, poll_handle))
    (taken : Service.step monitor serving.service .handled = some (service, events)) :
    Serving.Converses (log ++ [.completed other request]) { serving with service, handling := none } number := by
  have free := handled_taken taken
  by_cases this : other = number
  · subst this
    obtain ⟨exchanges, current, conversation, was⟩ := converses
    obtain ⟨response, rfl, answered⟩ := at_held held handling was
    refine ⟨exchanges ++ [⟨request, response⟩], none, conversation.complete answered, ?_⟩
    intro found same
    rw [free] at same
    cases same
  · refine converses.apart held this ?_ ?_ ?_ ?_
    · rfl
    · simp [talk, ServingEvent.concerns, this]
    · rfl
    · exact .inl free

theorem Serving.Steps.converses (steps : serving.Steps monitor inspection action after out) (wired : serving.Wired)
    (spares : serving.Spares action) (converses : serving.Converses log number) :
    after.Converses (log ++ out) number := by
  cases steps with
  | service action service events apart drained taken =>
    have held := step_held spares apart taken
    refine converses.quiet (quiet_services number events).1 (quiet_services number events).2 rfl ?_
    intro current was
    refine at_same was held ?_
    simp only [held]
    split
    · rfl
    · rename_i free
      exact (wired.busy.mpr (by simpa using free)).symm
  | register registration idle =>
    exact converses.quiet rfl rfl rfl fun _ was => was
  | arrive other rpc message_id endpoint body stream =>
    by_cases this : other = number
    · subst this
      obtain ⟨exchanges, current, conversation, was⟩ := converses
      refine ⟨exchanges, current, ?_, was⟩
      simp only [Serving.receive, inbox_setInbox, if_true]
      exact conversation.arrive _
    · refine converses.quiet ?_ rfl ?_ fun _ was => was
      · simp [arrivals, this]
      · simp only [Serving.receive, inbox_setInbox, Ne.symm this, if_false]
  | arriveResponse other rpc id stream =>
    refine converses.quiet rfl rfl ?_ fun _ was => was
    simp only [Serving.receive, inbox_setInbox]
    split
    · rename_i this
      simp [this, Frame.asRequest]
    · rfl
  | read other request rest service events first taken => exact converses.read first taken
  | deliver other id rest first polls =>
    have idle := wired.busy.mpr (pollsRpc_free polls)
    refine converses.quiet rfl rfl ?_ ?_
    · simp only [inbox_setInbox]
      split
      · rename_i this
        rw [this, first]
        rfl
      · rfl
    · intro current was
      refine at_same was rfl ?_
      simp [idle]
  | call other request awaiting running =>
    refine converses.quiet rfl rfl rfl ?_
    rintro (_ | exchange) was
    · exact was
    · obtain ⟨poll_handle, call, held, handling, same, fits⟩ := was
      rw [running] at handling
      cases handling
      exact ⟨poll_handle, _, held, rfl, same, fits⟩
  | resume input call other poll_handle phase current held resumed =>
    exact converses.resume wired current held resumed
  | complete request other poll_handle service events current held taken =>
    exact converses.complete current held taken

theorem Serving.Wired.initial (service_name : String) : (Serving.new service_name : Serving Bson).Wired where
  tracked := .initial service_name
  busy := by simp [Serving.new, Service.new, Activity.held, Activity.pollPhase]
  frames := by simp [Serving.new]
  current := by simp [Serving.new]

theorem run_wired {service_name : String}
    (run : Transition.RunWith (Serving.step monitor inspection) Serving.Spares (.new service_name) log serving) :
    serving.Wired :=
  run.invariant (I := fun _ serving => serving.Wired) (.initial service_name)
    fun _ _ _ _ _ _ wired spares taken => (Serving.step_cases taken).wired wired spares

theorem run_converses {service_name : String}
    (run : Transition.RunWith (Serving.step monitor inspection) Serving.Spares (.new service_name) log serving)
    (number : Nat) : serving.Converses log number := by
  apply run.invariant (I := fun log serving => serving.Converses log number)
  · refine ⟨[], none, ⟨rfl, rfl, by simp⟩, ?_⟩
    intro poll_handle held
    simp [Serving.new, Service.new, Activity.held, Activity.pollPhase] at held
  · intro log serving action after out run converses spares taken
    exact (Serving.step_cases taken).converses (run_wired run) spares converses

theorem fits_message {bson : Bson} (fits : phase.Fits (.message bson) response) : response = none := by
  cases phase with
  | running _ => exact fits.1
  | readingValue => exact fits.1
  | responding _ => exact fits.1
  | addingClient => cases fits
  | done => exact fits

/-- The requests of every handle are served one after the other in the order of their arrival, each call with
    one response on the stream and with the id it came with, each message with none. -/
theorem requests_served_in_order {service_name : String}
    (run : Transition.RunWith (Serving.step monitor inspection) Serving.Spares (.new service_name) log serving)
    (number : Nat) : ∃ exchanges current, Conversation number log (serving.inbox number) exchanges current ∧
      (current.isSome = true ↔ ∃ poll_handle, serving.service.activity.held = some (number, poll_handle)) ∧
      ∀ exchange ∈ current, ∀ bson, exchange.request.body = .message bson → exchange.response = none := by
  obtain ⟨exchanges, current, conversation, there⟩ := run_converses run number
  refine ⟨exchanges, current, conversation, ?_, ?_⟩
  · cases current with
    | none =>
      simp only [Option.isSome_none, Bool.false_eq_true, false_iff, not_exists]
      exact there
    | some exchange =>
      obtain ⟨poll_handle, _, held, _⟩ := there
      simp [held]
  · rintro exchange member bson body
    obtain rfl : current = some exchange := member
    obtain ⟨_, _, _, _, _, fits⟩ := there
    rw [body] at fits
    exact fits_message fits

def Serving.sparesPoll (serving : Serving Bson) : ServingAction Bson → Bool
  | .service action => !serving.service.dropsPoll action || serving.service.activity.held == none
  | _ => true

theorem serving_spares (passed : serving.sparesPoll action = true) : serving.Spares action := by
  cases action with
  | service action => exact sparesPoll_spares passed
  | _ => trivial

theorem requests_served_in_order_twice : ∃ log serving exchanges current,
    Transition.Run (Serving.step true true) (Serving.new "com.a" : Serving Nat) log serving ∧
    Conversation 0 log (serving.inbox 0) exchanges current ∧
    talk 0 log = [.handed 0 ⟨4, 7, "echo", .call 5⟩, .responded 0 4 7 (.value 9),
      .completed 0 ⟨4, 7, "echo", .call 5⟩, .handed 0 ⟨4, 7, "echo", .message 6⟩] := by
  obtain ⟨log, serving, run, shown⟩ := Transition.exists_run_of_execute
    (Transition.guarded (Serving.step true true) Serving.sparesPoll) (Serving.new "com.a" : Serving Nat)
    [.service .poll, .service (.hubRequest (.fd "com.b" 4)), .register (.method "echo" fun _ => none), .service .poll,
      .arrive 0 7 "echo" (.call 5), .arrive 0 7 "echo" (.message 6), .read 0, .resume (.returned (.ok 9)),
      .resume (.responded true), .complete, .service .poll, .read 0]
    (fun log _ => talk 0 log == [.handed 0 ⟨4, 7, "echo", .call 5⟩, .responded 0 4 7 (.value 9),
      .completed 0 ⟨4, 7, "echo", .call 5⟩, .handed 0 ⟨4, 7, "echo", .message 6⟩])
    (by decide +kernel)
  have spares : Transition.RunWith (Serving.step true true) Serving.Spares (.new "com.a") log serving :=
    run.of_guarded fun _ _ _ _ passed => serving_spares passed
  obtain ⟨exchanges, current, conversation, _⟩ := requests_served_in_order spares 0
  exact ⟨log, serving, exchanges, current, spares.run, conversation, beq_iff_eq.mp shown⟩

end KrossbarLib
