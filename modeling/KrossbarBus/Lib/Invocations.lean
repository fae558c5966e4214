import KrossbarBus.Lib.Methods

namespace KrossbarLib

variable {σ ι κ Bson : Type}
variable {monitor inspection : Bool} {methods : String → MethodFunction σ ι κ Bson} {origin before : σ}
  {hosting after : Hosting σ κ Bson} {action : HostingAction ι Bson} {log out : List (HostingEvent Bson)}
  {history : List (Invocation Bson)} {invocation : Invocation Bson} {future : Pending κ (Except String Bson)}

/-- Where the handling of a call is whose function has been called, with the response that it has given. -/
def CallPhase.Hosts (body : RequestBody Bson) (future : Pending κ (Except String Bson)) :
    CallPhase Bson → Option (CallResult Bson) → Prop
  | .running _, answer => answer = none
  | .responding result, answer => answer = none ∧ (∃ params, body = .call params) ∧
    ∃ value, future = .ready value ∧ result = .ofMethod value
  | .done, answer => ∃ value, future = .ready value ∧ ∀ given, answer = some given → given = .ofMethod value
  | _, _ => False

/-- The invocation that is not over: its call is the one that is handled. -/
structure Hosting.Current (methods : String → MethodFunction σ ι κ Bson) (before : σ) (hosting : Hosting σ κ Bson)
    (invocation : Invocation Bson) (future : Pending κ (Except String Bson)) : Prop where
  executes : Executes methods before invocation future hosting.shared
  unfinished : invocation.ending = none
  call : ∃ request phase, hosting.serving.handling = some ⟨request, phase⟩ ∧ request.endpoint = invocation.endpoint ∧
    request.body.params = some invocation.params ∧ phase.Hosts request.body future invocation.answer

inductive Hosting.Reached (methods : String → MethodFunction σ ι κ Bson) (log : List (HostingEvent Bson))
    (hosting : Hosting σ κ Bson) (history : List (Invocation Bson)) (before : σ) : Prop
  | idle (vacant : hosting.future = none) (same : hosting.shared = before)
      (logged : log.filter HostingEvent.ofFunction = history.flatMap Invocation.events)
  | running (future : Pending κ (Except String Bson)) (invocation : Invocation Bson)
      (occupied : hosting.future = some future) (current : hosting.Current methods before invocation future)
      (logged : log.filter HostingEvent.ofFunction = history.flatMap Invocation.events ++ invocation.events)

structure Hosting.Sequential (methods : String → MethodFunction σ ι κ Bson) (origin : σ)
    (log : List (HostingEvent Bson)) (hosting : Hosting σ κ Bson) : Prop where
  handled : hosting.serving.handling.isSome = true → hosting.serving.service.activity.held.isSome = true
  sequence : ∃ history before, Sequence methods origin history before ∧
    (∀ invocation ∈ history, invocation.ending.isSome = true) ∧ hosting.Reached methods log history before

theorem marked_silent {events : List (ServingEvent Bson)} (silent : ∀ event ∈ events, event.ofMethod = none) :
    (events.flatMap hosting.marked).filter HostingEvent.ofFunction = [] := by
  rw [List.filter_eq_nil_iff]
  intro event member
  obtain ⟨source, there, marks⟩ := List.mem_flatMap.mp member
  simp only [Hosting.marked, silent source there, ite_self, Option.toList_none, List.mem_singleton] at marks
  rw [marks]
  simp [HostingEvent.ofFunction]

theorem marked_idle (vacant : hosting.future = none) (events : List (ServingEvent Bson)) :
    (events.flatMap hosting.marked).filter HostingEvent.ofFunction = [] := by
  rw [List.filter_eq_nil_iff]
  intro event member
  obtain ⟨source, there, marks⟩ := List.mem_flatMap.mp member
  simp only [Hosting.marked, vacant, Option.isSome_none, Bool.false_eq_true, ↓reduceIte, Option.toList_none,
    List.mem_singleton] at marks
  rw [marks]
  simp [HostingEvent.ofFunction]

theorem Executes.ofAnswer (executes : Executes methods before invocation future hosting.shared)
    {result : Except String Bson} (ready : future = .ready result) :
    Executes methods before { invocation with answer := some (.ofMethod result) } future hosting.shared where
  runs := executes.runs
  answered := by
    intro answer given
    cases given
    exact ⟨result, ready, rfl⟩
  finished := executes.finished

theorem Executes.ofEnd (executes : Executes methods before invocation future hosting.shared) {ending : Ending}
    (ends : ending = .finished → ∃ result, future = .ready result) :
    Executes methods before { invocation with ending := some ending } future hosting.shared where
  runs := executes.runs
  answered := executes.answered
  finished same := ends (Option.some.inj same)

theorem events_answered {answer : CallResult Bson} (unfinished : invocation.ending = none)
    (unanswered : invocation.answer = none) :
    ({ invocation with answer := some answer } : Invocation Bson).events = invocation.events ++ [.answered answer] := by
  simp [Invocation.events, unfinished, unanswered]

theorem events_ended {ending : Ending} (unfinished : invocation.ending = none) :
    ({ invocation with ending := some ending } : Invocation Bson).events = invocation.events ++ [.ended ending] := by
  simp [Invocation.events, unfinished]

/-- What a step of the service does to the call whose function has been called. -/
inductive CallFollows (action : ServingAction Bson) (request : IncomingRequest Bson)
    (future : Pending κ (Except String Bson)) (answer : Option (CallResult Bson)) (serving : Serving Bson)
    (out : List (ServingEvent Bson)) : Prop
  | kept (phase : CallPhase Bson) (now : serving.handling = some ⟨request, phase⟩)
      (hosts : phase.Hosts request.body future answer) (silent : ∀ event ∈ out, event.ofMethod = none)
  | answers (value : Except String Bson) (ready : future = .ready value) (unanswered : answer = none)
      (now : serving.handling = some ⟨request, .done⟩) (number rpc : Nat)
      (all : out = [.responded number rpc request.message_id (.ofMethod value)])
  | ends (now : serving.handling = none) (silent : ∀ event ∈ out, event.ofMethod = none)
      (finished : action.ending = .finished → ∃ value, future = .ready value)

theorem hear_hosts {request : IncomingRequest Bson} {phase : CallPhase Bson} {answer : Option (CallResult Bson)}
    (hosts : phase.Hosts request.body future answer) (number id : Nat) :
    ∃ next, HandledCall.hear ⟨request, phase⟩ number id = ⟨request, next⟩ ∧ next.Hosts request.body future answer := by
  cases phase with
  | running awaiting => exact ⟨.running _, rfl, hosts⟩
  | _ => exact ⟨_, rfl, hosts⟩

theorem Serving.Steps.follows {serving next : Serving Bson} {action : ServingAction Bson}
    {out : List (ServingEvent Bson)} {request : IncomingRequest Bson} {phase : CallPhase Bson}
    {answer : Option (CallResult Bson)} (steps : serving.Steps monitor inspection action next out)
    (apart : action.invokes = false) (current : serving.handling = some ⟨request, phase⟩)
    (hosts : phase.Hosts request.body future answer) : CallFollows action request future answer next out := by
  cases steps with
  | service action service events _ drained taken =>
    have silent : ∀ event ∈ events.map (@ServingEvent.service Bson), event.ofMethod = none := by
      intro event member
      obtain ⟨source, _, rfl⟩ := List.mem_map.mp member
      rfl
    by_cases held : service.activity.held.isSome = true
    · exact .kept phase (by simp [held, current]) hosts silent
    · exact .ends (by simp [held]) silent (by simp [ServingAction.ending])
  | register registration idle => cases apart
  | read number own rest service events first taken => cases apart
  | arrive number rpc message_id endpoint body stream =>
    exact .kept phase current hosts (by simp [ServingEvent.ofMethod])
  | arriveResponse number rpc id stream => exact .kept phase current hosts (by simp)
  | deliver number id rest first polls =>
    obtain ⟨later, hears, still⟩ := hear_hosts hosts number id
    exact .kept later (by simp [current, hears]) still (by simp [ServingEvent.ofMethod])
  | call number own awaiting running =>
    rw [current] at running
    cases running
    exact .kept (.running _) rfl hosts (by simp)
  | resume input call number poll_handle later now held resumed =>
    rw [current] at now
    cases now
    cases phase with
    | running awaiting =>
      cases input with
      | returned result => cases apart
      | _ => cases resumed
    | responding result =>
      obtain ⟨unanswered, ⟨params, body⟩, value, ready, rfl⟩ := hosts
      cases input with
      | responded ok =>
        have done : later = .done := by
          simp only [HandledCall.resume, body] at resumed
          exact (Option.some.inj resumed).symm
        subst done
        exact .answers value ready unanswered rfl number poll_handle.rpc rfl
      | returned result => cases apart
      | _ => cases resumed
    | done => cases input <;> cases resumed
    | _ => exact hosts.elim
  | complete own number poll_handle service events now held taken =>
    rw [current] at now
    cases now
    obtain ⟨value, ready, _⟩ := hosts
    exact .ends rfl (by simp [ServingEvent.ofMethod]) fun _ => ⟨value, ready⟩

theorem Hosting.Reached.aside (reached : hosting.Reached methods log history before)
    (same : after.future = hosting.future) (shared : after.shared = hosting.shared)
    (handling : hosting.future.isSome = true → after.serving.handling = hosting.serving.handling)
    (quiet : out.filter HostingEvent.ofFunction = []) : after.Reached methods (log ++ out) history before := by
  cases reached with
  | idle vacant there logged =>
    refine .idle (same.trans vacant) (shared.trans there) ?_
    rw [List.filter_append, quiet, List.append_nil, logged]
  | running future invocation occupied current logged =>
    refine .running future invocation (same.trans occupied) ⟨?_, current.unfinished, ?_⟩ ?_
    · rw [shared]
      exact current.executes
    · rw [handling (by rw [occupied]; rfl)]
      exact current.call
    · rw [List.filter_append, quiet, List.append_nil, logged]

theorem Serving.Steps.handled {serving next : Serving Bson} {action : ServingAction Bson}
    {out : List (ServingEvent Bson)} (steps : serving.Steps monitor inspection action next out)
    (handled : serving.handling.isSome = true → serving.service.activity.held.isSome = true)
    (there : next.handling.isSome = true) : next.service.activity.held.isSome = true := by
  cases steps with
  | service action service events apart drained taken =>
    by_contra free
    simp [free] at there
  | read number own rest service events first taken =>
    obtain ⟨_, poll_handle, _, _, holds⟩ := message_taken taken
    simp [holds]
  | deliver number id rest first polls => exact handled (by simpa using there)
  | call number own awaiting running => exact handled (by rw [running]; rfl)
  | resume input call number poll_handle later now held resumed => exact handled (by rw [now]; rfl)
  | complete own number poll_handle service events now held taken => simp at there
  | _ => exact handled there

theorem Hosting.Steps.sequential (steps : hosting.Steps monitor inspection methods action after out)
    (sequential : hosting.Sequential methods origin log) : after.Sequential methods origin (log ++ out) := by
  obtain ⟨handled, history, before, earlier, ended, reached⟩ := sequential
  cases steps with
  | serving action apart serving events steps =>
    refine ⟨steps.handled handled, ?_⟩
    cases reached with
    | idle vacant there logged =>
      refine ⟨history, before, earlier, ended, .idle (by simp [vacant]) there ?_⟩
      simp [List.filter_append, marked_idle vacant events, vacant, logged]
    | running future invocation occupied current logged =>
      obtain ⟨request, phase, handles, endpoint, params, hosts⟩ := current.call
      cases steps.follows apart handles hosts with
      | kept later now hosts silent =>
        refine ⟨history, before, earlier, ended, .running future invocation (by simp [now, occupied])
          ⟨current.executes, current.unfinished, request, later, now, endpoint, params, hosts⟩ ?_⟩
        simp [List.filter_append, marked_silent silent, now, logged]
      | answers value ready unanswered now number rpc all =>
        refine ⟨history, before, earlier, ended, .running future { invocation with answer := _ }
          (by simp [now, occupied]) ⟨current.executes.ofAnswer ready, current.unfinished, request, .done, now,
            endpoint, params, value, ready, ?_⟩ ?_⟩
        · intro given same
          exact (Option.some.inj same).symm
        · rw [events_answered current.unfinished unanswered, List.filter_append, logged, all]
          simp [Hosting.marked, occupied, ServingEvent.ofMethod, HostingEvent.ofFunction, now]
      | ends now silent finished =>
        refine ⟨_, _, earlier.next (current.executes.ofEnd finished), ?_, .idle (by simp [now]) rfl ?_⟩
        · intro other member
          rcases List.mem_append.mp member with old | new
          · exact ended other old
          · rw [List.mem_singleton.mp new]
            rfl
        · rw [List.flatMap_append, List.flatMap_singleton, events_ended current.unfinished, List.filter_append, logged]
          simp [List.filter_append, marked_silent silent, occupied, now, HostingEvent.ofFunction]
  | register registration =>
    exact ⟨handled, history, before, earlier, ended, reached.aside rfl rfl (fun _ => rfl) rfl⟩
  | read number request rest service free holds aside =>
    have idle : hosting.future = none := by
      cases reached with
      | idle vacant there logged => exact vacant
      | running future invocation occupied current logged =>
        obtain ⟨own, phase, handles, _⟩ := current.call
        have busy := handled (by rw [handles]; rfl)
        rw [free] at busy
        cases busy
    refine ⟨fun _ => holds, history, before, earlier, ended, reached.aside rfl rfl (fun occupied => ?_) rfl⟩
    rw [idle] at occupied
    cases occupied
  | invoked number poll_handle request rest service free holds awaiting params converted body accepts =>
    refine ⟨fun _ => holds, history, before, earlier, ended, ?_⟩
    cases reached with
    | running future invocation occupied current logged =>
      obtain ⟨own, phase, handles, _⟩ := current.call
      have busy := handled (by rw [handles]; rfl)
      rw [free] at busy
      cases busy
    | idle vacant there logged =>
      subst there
      refine .running _ ⟨poll_handle.service_name, request.endpoint, params, none, none⟩ rfl
        ⟨⟨⟨converted, accepts, .here _⟩, by simp, by simp⟩, rfl, request, _, rfl, rfl, body, rfl⟩ ?_
      rw [List.filter_append, logged]
      rfl
  | run yielded rest request awaiting suspended running =>
    refine ⟨handled, history, before, earlier, ended, ?_⟩
    cases reached with
    | idle vacant there logged =>
      rw [vacant] at suspended
      cases suspended
    | running future invocation occupied current logged =>
      rw [suspended] at occupied
      cases occupied
      obtain ⟨own, phase, handles, endpoint, params, hosts⟩ := current.call
      rw [running] at handles
      cases handles
      obtain ⟨converted, accepts, runs⟩ := current.executes.runs
      refine .running _ invocation rfl ⟨⟨⟨converted, accepts, ?_⟩, ?_, ?_⟩, current.unfinished, request, _, running,
        endpoint, params, hosts⟩ ?_
      · rw [endpoint]
        exact runs.more yielded
      · intro answer given
        rw [show invocation.answer = none from hosts] at given
        cases given
      · rw [current.unfinished]
        intro ended
        cases ended
      · rw [List.append_nil, logged]
  | returned result ready call phase now resumed =>
    refine ⟨fun _ => handled (by rw [now]; rfl), history, before, earlier, ended, ?_⟩
    cases reached with
    | idle vacant there logged =>
      rw [vacant] at ready
      cases ready
    | running future invocation occupied current logged =>
      rw [ready] at occupied
      cases occupied
      obtain ⟨own, before, handles, endpoint, params, hosts⟩ := current.call
      rw [now] at handles
      cases handles
      refine .running _ invocation ready ⟨current.executes, current.unfinished, own, phase, rfl, endpoint, params, ?_⟩
        (by rw [List.append_nil, logged])
      cases before with
      | running awaiting =>
        simp only [HandledCall.resume] at resumed
        split at resumed
        · cases resumed
          refine ⟨result, rfl, ?_⟩
          intro given same
          rw [show invocation.answer = none from hosts] at same
          cases same
        · rename_i message _ _
          cases resumed
          refine ⟨hosts, ?_, result, rfl, rfl⟩
          cases body : own.body with
          | call sent => exact ⟨sent, rfl⟩
          | _ => simp_all [RequestBody.params]
        · cases resumed
      | _ => cases resumed

/-- A running call has its function called. -/
structure Hosting.Invokes (methods : String → MethodFunction σ ι κ Bson) (hosting : Hosting σ κ Bson) : Prop where
  registered : ∀ name method, hosting.serving.endpoints.methods.lookup name = some method →
    method = (methods name).params
  running : ∀ request awaiting, hosting.serving.handling = some ⟨request, .running awaiting⟩ →
    hosting.future.isSome = true

theorem params_none {method : MethodFunction σ ι κ Bson} {params : Bson} (converts : method.params params = none) :
    ∃ converted, method.from_bson params = .ok converted := by
  unfold MethodFunction.params at converts
  split at converts
  · cases converts
  · rename_i converted accepts
    exact ⟨converted, accepts⟩

theorem start_running {endpoints : Endpoints (MethodParams Bson) Nat Nat} {request : IncomingRequest Bson}
    {awaiting : List (Nat × Nat)}
    (registered : ∀ name method, endpoints.methods.lookup name = some method → method = (methods name).params)
    (running : endpoints.start inspection request = .running awaiting) :
    ∃ params converted, request.body.params = some params ∧
      (methods request.endpoint).from_bson params = .ok converted := by
  have found : ∃ method params, endpoints.methods.lookup request.endpoint = some method ∧
      request.body.params = some params ∧ method params = none := by
    cases body : request.body with
    | message params =>
      simp only [Endpoints.start, Endpoints.handleCall, body] at running
      cases there : endpoints.methods.lookup request.endpoint with
      | none => simp [there] at running
      | some method =>
        refine ⟨method, params, rfl, rfl, ?_⟩
        simp only [there] at running
        split at running
        · cases running
        · rename_i converts
          exact Option.not_isSome_iff_eq_none.mp converts
    | call params =>
      simp only [Endpoints.start, Endpoints.handleCall, body] at running
      by_cases inspected : (inspection && request.endpoint == inspectMethod) = true
      · simp [inspected] at running
      · rw [if_neg inspected] at running
        cases there : endpoints.methods.lookup request.endpoint with
        | none =>
          cases state : endpoints.states.lookup request.endpoint <;> simp [there, state] at running
        | some method =>
          refine ⟨method, params, rfl, rfl, ?_⟩
          cases converts : method params with
          | none => rfl
          | some text => simp [there, converts] at running
    | subscription =>
      simp only [Endpoints.start, Endpoints.handleCall, body] at running
      cases signal : endpoints.signals.lookup request.endpoint with
      | some handle => simp [signal] at running
      | none => cases state : endpoints.states.lookup request.endpoint <;> simp [signal, state] at running
    | other => simp [Endpoints.start, Endpoints.handleCall, body] at running
  obtain ⟨method, params, there, body, converts⟩ := found
  rw [registered _ _ there] at converts
  obtain ⟨converted, accepts⟩ := params_none converts
  exact ⟨params, converted, body, accepts⟩

theorem invoke_some {shared : σ} {client_name : String} {request : IncomingRequest Bson} {params : Bson}
    {converted : (methods request.endpoint).Params} (body : request.body.params = some params)
    (accepts : (methods request.endpoint).from_bson params = .ok converted) :
    (invoke methods shared client_name request).isSome = true := by
  simp [invoke, body, accepts]

theorem registered_register {endpoints : Endpoints (MethodParams Bson) Nat Nat}
    (registered : ∀ name method, endpoints.methods.lookup name = some method → method = (methods name).params)
    (registration : Registration Unit Nat Nat) (name : String) (method : MethodParams Bson)
    (there : ((endpoints.register (registration.withMethod (methods registration.name).params)).toOption.getD
      endpoints).methods.lookup name = some method) : method = (methods name).params := by
  cases outcome : endpoints.register (registration.withMethod (methods registration.name).params) with
  | error e =>
    rw [outcome] at there
    exact registered name method there
  | ok after =>
    rw [outcome] at there
    have added : ∀ other, endpoints.methods.lookup other = none →
        (endpoints.methods ++ [(other, (methods other).params)]).lookup name = some method →
        method = (methods name).params := by
      intro other _ found
      rw [List.lookup_append, Option.or_eq_some_iff] at found
      rcases found with old | ⟨_, new⟩
      · exact registered name method old
      · simp only [List.lookup_cons, List.lookup_nil] at new
        split at new
        · rename_i same
          rw [beq_iff_eq.mp same]
          exact (Option.some.inj new).symm
        · cases new
    obtain ⟨_, _, registers⟩ := register_cases outcome
    cases registration with
    | asyncMethod other _ =>
      cases registers with
      | asyncMethod _ _ absent => exact added other absent there
    | method other _ =>
      cases registers with
      | method _ _ absent => exact added other absent there
    | signal other result =>
      cases registers with
      | signal _ _ absent => exact registered name method there
    | state other result =>
      cases registers with
      | state _ handle absent => exact registered name method there

theorem Serving.Steps.running {serving next : Serving Bson} {action : ServingAction Bson}
    {out : List (ServingEvent Bson)} (steps : serving.Steps monitor inspection action next out)
    (apart : action.invokes = false) : next.endpoints = serving.endpoints ∧
      ∀ request awaiting, next.handling = some ⟨request, .running awaiting⟩ →
        ∃ earlier, serving.handling = some ⟨request, .running earlier⟩ := by
  cases steps with
  | service action service events _ drained taken =>
    refine ⟨rfl, ?_⟩
    intro request awaiting now
    dsimp only at now
    split at now
    · exact ⟨awaiting, now⟩
    · cases now
  | register registration idle => cases apart
  | read number own rest service events first taken => cases apart
  | arrive number rpc message_id endpoint body stream => exact ⟨rfl, fun _ awaiting now => ⟨awaiting, now⟩⟩
  | arriveResponse number rpc id stream => exact ⟨rfl, fun _ awaiting now => ⟨awaiting, now⟩⟩
  | deliver number id rest first polls =>
    refine ⟨rfl, ?_⟩
    intro request awaiting now
    obtain ⟨⟨own, phase⟩, there, hears⟩ := Option.map_eq_some_iff.mp now
    cases phase with
    | running earlier =>
      cases hears
      exact ⟨earlier, there⟩
    | _ => cases hears
  | call number own awaiting running =>
    refine ⟨rfl, ?_⟩
    intro request later now
    cases now
    exact ⟨awaiting, running⟩
  | resume input call number poll_handle later now held resumed =>
    refine ⟨rfl, ?_⟩
    intro request awaiting there
    cases there
    obtain ⟨own, phase⟩ := call
    cases input with
    | returned result => cases apart
    | valueRead value => cases phase <;> cases resumed
    | clientAdded => cases phase <;> cases resumed
    | responded ok =>
      simp only [HandledCall.resume] at resumed
      split at resumed
      · split at resumed <;> cases resumed
      · cases resumed
      · cases resumed
  | complete own number poll_handle service events now held taken => exact ⟨rfl, fun _ _ now => by cases now⟩

theorem Hosting.Steps.invokes (steps : hosting.Steps monitor inspection methods action after out)
    (invokes : hosting.Invokes methods) : after.Invokes methods := by
  cases steps with
  | serving action apart serving events steps =>
    obtain ⟨endpoints, running⟩ := steps.running apart
    refine ⟨by rw [endpoints]; exact invokes.registered, ?_⟩
    intro request awaiting now
    obtain ⟨earlier, there⟩ := running request awaiting now
    dsimp only at now ⊢
    rw [now]
    exact invokes.running request earlier there
  | register registration =>
    exact ⟨registered_register invokes.registered registration, invokes.running⟩
  | read number request rest service free holds aside =>
    refine ⟨invokes.registered, ?_⟩
    intro own awaiting now
    injection Option.some.inj now with same phase
    obtain ⟨params, converted, body, accepts⟩ := start_running invokes.registered phase
    obtain ⟨client_name, none⟩ := aside awaiting phase
    have called : (invoke methods hosting.shared client_name request).isSome = true := invoke_some body accepts
    rw [none] at called
    cases called
  | invoked number poll_handle request rest service free holds awaiting params converted body accepts =>
    exact ⟨invokes.registered, fun _ _ _ => rfl⟩
  | run yielded rest request awaiting suspended running => exact ⟨invokes.registered, fun _ _ _ => rfl⟩
  | returned result ready call phase now resumed =>
    refine ⟨invokes.registered, fun _ _ _ => ?_⟩
    simp [ready]

theorem run_sequential {service_name : String}
    (run : Transition.Run (Hosting.step monitor inspection methods) (.new service_name origin) log hosting) :
    hosting.Sequential methods origin log := by
  apply run.invariant (I := fun log hosting => hosting.Sequential methods origin log)
  · exact ⟨by simp [Hosting.new, Serving.new], [], origin, .start, by simp, .idle rfl rfl rfl⟩
  · intro log hosting action after out _ sequential _ taken
    exact (Hosting.step_cases taken).sequential sequential

theorem run_invokes {service_name : String}
    (run : Transition.Run (Hosting.step monitor inspection methods) (.new service_name origin) log hosting) :
    hosting.Invokes methods := by
  apply run.invariant (I := fun _ hosting => hosting.Invokes methods)
  · exact ⟨by simp [Hosting.new, Serving.new, Endpoints.new], by simp [Hosting.new, Serving.new]⟩
  · intro log hosting action after out _ invokes _ taken
    exact (Hosting.step_cases taken).invokes invokes

/-- The functions of a service's methods never interleave, not even at their awaits: all their invocations
    work on the shared state as if they had run one after the other, each with the name of the handle its
    request has come on, and each response is the result of its own invocation. -/
theorem invocations_sequential {service_name : String}
    (run : Transition.Run (Hosting.step monitor inspection methods) (.new service_name origin) log hosting) :
    ∃ history current, Sequence methods origin (history ++ Option.toList current) hosting.shared ∧
      log.filter HostingEvent.ofFunction = (history ++ current.toList).flatMap Invocation.events ∧
      (∀ invocation ∈ history, invocation.ending.isSome = true) ∧
      (∀ invocation ∈ current, invocation.ending = none) ∧
      ((∃ request awaiting, hosting.serving.handling = some ⟨request, .running awaiting⟩) → current.isSome = true) := by
  obtain ⟨history, before, earlier, ended, reached⟩ := (run_sequential run).sequence
  cases reached with
  | idle vacant there logged =>
    refine ⟨history, none, by simpa [there] using earlier, by simpa using logged, ended, by simp, ?_⟩
    intro ⟨request, awaiting, running⟩
    have called := (run_invokes run).running request awaiting running
    rw [vacant] at called
    cases called
  | running future invocation occupied current logged =>
    refine ⟨history, some invocation, earlier.next current.executes, ?_, ended, ?_, fun _ => rfl⟩
    · rw [logged, Option.toList_some, List.flatMap_append, List.flatMap_singleton]
    · intro other same
      rw [← Option.some.inj same]
      exact current.unfinished

section Sync

variable {functions : String → SyncFunction σ Bson} {shared : σ}

/-- The function of the invocation applied to the shared state, with the result converted. -/
def Invocation.apply (functions : String → SyncFunction σ Bson) (invocation : Invocation Bson) (shared : σ) :
    Except String (CallResult Bson × σ) :=
  ((functions invocation.endpoint).from_bson invocation.params).map fun params =>
    (.ofMethod ((functions invocation.endpoint).to_bson
      ((functions invocation.endpoint).func invocation.client_name params shared).1),
      ((functions invocation.endpoint).func invocation.client_name params shared).2)

/-- The shared state after the invocation. -/
def Invocation.effect (functions : String → SyncFunction σ Bson) (shared : σ) (invocation : Invocation Bson) : σ :=
  match invocation.apply functions shared with
  | .ok (_, after) => after
  | .error _ => shared

theorem runs_ready {method : MethodFunction σ ι κ Bson} {result : Except String Bson}
    {state : Pending κ (Except String Bson) × σ} (runs : Runs method (.ready result, shared) state) :
    state = (.ready result, shared) := by
  induction runs with
  | here => rfl
  | more _ _ ih => cases ih

theorem sync_executes {after : σ} (executes : Executes (ι := ι)
    (fun name => MethodFunction.ofSync (κ := κ) (functions name)) before invocation future after) :
    invocation.effect functions before = after ∧
      ∀ answer, invocation.answer = some answer → invocation.apply functions before = .ok (answer, after) := by
  obtain ⟨params, accepts, runs⟩ := executes.runs
  obtain ⟨ready, ended⟩ := Prod.mk.inj (runs_ready runs)
  have converts : (functions invocation.endpoint).from_bson invocation.params = .ok params := accepts
  constructor
  · simp only [Invocation.effect, Invocation.apply, converts, Except.map]
    exact ended.symm
  · intro answer given
    obtain ⟨result, same, rfl⟩ := executes.answered answer given
    rw [ready] at same
    cases same
    simp only [Invocation.apply, converts, Except.map, ended]
    rfl

theorem sync_sequence (sequence : Sequence (ι := ι) (fun name => MethodFunction.ofSync (κ := κ) (functions name))
    origin history shared) : history.foldl (Invocation.effect functions) origin = shared ∧
      ∀ earlier invocation later answer, history = earlier ++ invocation :: later → invocation.answer = some answer →
        ∃ after, invocation.apply functions (earlier.foldl (Invocation.effect functions) origin) =
          .ok (answer, after) := by
  induction sequence with
  | start => exact ⟨rfl, by simp⟩
  | next sequence executes ih =>
    obtain ⟨folded, answers⟩ := ih
    obtain ⟨effect, applied⟩ := sync_executes executes
    refine ⟨by rw [List.foldl_append, folded]; exact effect, ?_⟩
    intro earlier invocation later answer split given
    rcases List.append_eq_append_iff.mp split with ⟨extra, rfl, right⟩ | ⟨extra, left, right⟩
    · cases extra with
      | nil =>
        obtain ⟨rfl, _⟩ := List.cons.inj right
        rw [List.append_nil, folded]
        exact ⟨_, applied answer given⟩
      | cons first rest => simp at right
    · cases extra with
      | nil =>
        obtain ⟨rfl, _⟩ := List.cons.inj right
        rw [List.append_nil] at left
        rw [← left, folded]
        exact ⟨_, applied answer given⟩
      | cons first rest =>
        obtain ⟨rfl, rfl⟩ := List.cons.inj right
        exact answers earlier invocation rest answer left given

/-- The functions of `register_method` are atomic: wherever the futures that poll the service are dropped, the
    shared state is that of applying the functions of all invocations one after the other, and every response
    is what its function has returned there. -/
theorem sync_methods_atomic {service_name : String}
    (run : Transition.Run
      (Hosting.step monitor inspection fun name => MethodFunction.ofSync (ι := ι) (κ := κ) (functions name))
      (.new service_name origin) log hosting) :
    ∃ history : List (Invocation Bson), log.filter HostingEvent.ofFunction = history.flatMap Invocation.events ∧
      hosting.shared = history.foldl (Invocation.effect functions) origin ∧
      ∀ earlier invocation later answer, history = earlier ++ invocation :: later → invocation.answer = some answer →
        ∃ after, invocation.apply functions (earlier.foldl (Invocation.effect functions) origin) =
          .ok (answer, after) := by
  obtain ⟨history, before, earlier, _, reached⟩ := (run_sequential run).sequence
  cases reached with
  | idle vacant there logged =>
    obtain ⟨folded, answers⟩ := sync_sequence earlier
    exact ⟨history, logged, by rw [there, folded], answers⟩
  | running future invocation occupied current logged =>
    obtain ⟨folded, answers⟩ := sync_sequence (earlier.next current.executes)
    refine ⟨history ++ [invocation], ?_, folded.symm, answers⟩
    rw [logged, List.flatMap_append, List.flatMap_singleton]

/-- A method that adds its parameter to a number and returns the sum. -/
def addNow : SyncFunction Nat Nat where
  Params := Nat
  Result := Nat
  from_bson := .ok
  to_bson := .ok
  func _ params shared := (shared + params, shared + params)

theorem sync_methods_atomic_added : ∃ log hosting,
    Transition.Run (Hosting.step true true fun _ => MethodFunction.ofSync (ι := Unit) (κ := Unit) addNow)
      (.new "com.a" 1) log hosting ∧ hosting.shared = 14 ∧
    ∃ history : List (Invocation Nat), log.filter HostingEvent.ofFunction = history.flatMap Invocation.events ∧
      hosting.shared = history.foldl (Invocation.effect fun _ => addNow) 1 := by
  obtain ⟨log, hosting, run, shown⟩ := Transition.exists_run_of_execute
    (Hosting.step true true fun _ => MethodFunction.ofSync (ι := Unit) (κ := Unit) addNow) (.new "com.a" 1)
    [.serving (.service .poll), .serving (.service (.hubRequest (.fd "com.b" 4))), .register (.method "add" ()),
      .serving (.service .poll), .serving (.arrive 0 7 "add" (.call 5)), .serving (.arrive 0 8 "add" (.call 8)),
      .read 0, .returned, .serving (.resume (.responded true)), .serving .complete,
      .serving (.service .poll), .read 0, .serving (.service .cancel)]
    (fun _ hosting => hosting.shared == 14) (by decide +kernel)
  have atomic := @sync_methods_atomic _ _ _ _ _ _ _ _ _ (fun _ => addNow) _ run
  obtain ⟨history, logged, folded, _⟩ := atomic
  exact ⟨log, hosting, run, beq_iff_eq.mp shown, history, logged, folded⟩

end Sync

/-- A method that adds its parameter to a number after one await. -/
def addLater : MethodFunction Nat Unit Nat Nat where
  Params := Nat
  Result := Nat
  from_bson := .ok
  to_bson := .ok
  func _ params shared := (.suspended params, shared)
  resume rest _ shared := (.ready (shared + rest), shared + rest)

theorem invocations_sequential_added : ∃ log hosting,
    Transition.Run (Hosting.step true true fun _ => addLater) (.new "com.a" 1) log hosting ∧ hosting.shared = 6 ∧
    log.filter HostingEvent.ofFunction =
      [.invoked "com.b" "add" 5, .answered (.value 6), .ended .finished, .invoked "com.b" "add" 8, .ended .dropped] ∧
    ∃ history current, Sequence (fun _ => addLater) 1 (history ++ Option.toList current) hosting.shared ∧
      log.filter HostingEvent.ofFunction = (history ++ current.toList).flatMap Invocation.events := by
  obtain ⟨log, hosting, run, shown⟩ := Transition.exists_run_of_execute (Hosting.step true true fun _ => addLater)
    (.new "com.a" 1)
    [.serving (.service .poll), .serving (.service (.hubRequest (.fd "com.b" 4))), .register (.asyncMethod "add" ()),
      .serving (.service .poll), .serving (.arrive 0 7 "add" (.call 5)), .serving (.arrive 0 8 "add" (.call 8)),
      .read 0, .run (), .returned, .serving (.resume (.responded true)), .serving .complete,
      .serving (.service .poll), .read 0, .serving (.service .cancel)]
    (fun log hosting => hosting.shared == 6 && log.filter HostingEvent.ofFunction ==
      [.invoked "com.b" "add" 5, .answered (.value 6), .ended .finished, .invoked "com.b" "add" 8, .ended .dropped])
    (by decide +kernel)
  simp only [Bool.and_eq_true, beq_iff_eq] at shown
  obtain ⟨history, current, sequence, logged, _⟩ := invocations_sequential run
  exact ⟨log, hosting, run, shown.1, shown.2, history, current, sequence, logged⟩

end KrossbarLib
