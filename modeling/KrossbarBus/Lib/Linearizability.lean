import KrossbarBus.Lib.HandedOnce
import Mathlib.Data.List.ModifyLast

namespace KrossbarLib

open Linearization
open Transition (Run RunWith)

variable {σ ι κ Bson : Type}
variable {monitor inspection : Bool} {methods : String → MethodFunction σ ι κ Bson} {origin shared : σ}
  {hosting hosted : Hosting σ κ Bson} {remote after : Remote σ κ Bson} {log out : List (RemoteEvent Bson)}
  {service_name : String} {serving next : Serving Bson} {action : ServingAction Bson}
  {events : List (ServingEvent Bson)} {request : IncomingRequest Bson} {history : List (Invocation Bson)}
  {names : Nat → String}

/-- The invocations as a log shows them. -/
def Invocation.record (history : List (Invocation Bson)) : HostingEvent Bson → List (Invocation Bson)
  | .invoked client_name endpoint params => history ++ [⟨client_name, endpoint, params, none, none⟩]
  | .answered result => history.modifyLast fun invocation => { invocation with answer := some result }
  | .ended ending => history.modifyLast fun invocation => { invocation with ending := some ending }
  | .serving _ => history

def invocations (log : List (HostingEvent Bson)) : List (Invocation Bson) := log.foldl Invocation.record []

theorem record_events (history : List (Invocation Bson)) (invocation : Invocation Bson) :
    invocation.events.foldl Invocation.record history = history ++ [invocation] := by
  obtain ⟨client_name, endpoint, params, answer, ending⟩ := invocation
  cases answer <;> cases ending <;> simp [Invocation.events, Invocation.record, List.modifyLast_concat]

theorem record_flatMap (earlier history : List (Invocation Bson)) :
    (history.flatMap Invocation.events).foldl Invocation.record earlier = earlier ++ history := by
  induction history generalizing earlier with
  | nil => simp
  | cons invocation rest ih =>
    rw [List.flatMap_cons, List.foldl_append, record_events, ih, List.append_assoc]
    rfl

theorem record_filter (log : List (HostingEvent Bson)) (earlier : List (Invocation Bson)) :
    (log.filter HostingEvent.ofFunction).foldl Invocation.record earlier = log.foldl Invocation.record earlier := by
  induction log generalizing earlier with
  | nil => rfl
  | cons event rest ih =>
    cases event with
    | serving event => exact ih earlier
    | _ => exact ih _

theorem invocations_of_events {log : List (HostingEvent Bson)}
    (logged : log.filter HostingEvent.ofFunction = history.flatMap Invocation.events) : invocations log = history := by
  rw [invocations, ← record_filter, logged, record_flatMap]
  rfl

theorem invocations_append (log out : List (HostingEvent Bson)) :
    invocations (log ++ out) = out.foldl Invocation.record (invocations log) := List.foldl_append

/-- A call of a method under the name of its caller. -/
abbrev MethodCall (Bson : Type) := String × String × Bson

def Invocation.methodCall (invocation : Invocation Bson) : MethodCall Bson :=
  (invocation.client_name, invocation.endpoint, invocation.params)

/-- The method is invoked on the shared state. What it has returned is known if it has been sent as a response. -/
def performs (methods : String → MethodFunction σ ι κ Bson) (before : σ) (call : MethodCall Bson)
    (ret : Option (CallResult Bson)) (after : σ) : Prop :=
  ∃ invocation future, invocation.methodCall = call ∧ invocation.answer = ret ∧
    Executes methods before invocation future after

/-- What the callers see of the methods: the requests that they send for a function, and the results of functions
    that they receive. `names` are theirs, by stream. -/
def RemoteEvent.seen (names : Nat → String) :
    RemoteEvent Bson → Option (CallEvent (Nat × Int) (MethodCall Bson) (CallResult Bson))
  | .sent request => request.body.params.map fun params =>
      .called request.key (names request.rpc, request.endpoint, params)
  | .returned rpc response =>
    if response.computed then some (.returned (rpc, response.message_id) response.result) else none
  | .hosting _ => none

def seenBy (names : Nat → String) (log : List (RemoteEvent Bson)) :
    List (CallEvent (Nat × Int) (MethodCall Bson) (CallResult Bson)) :=
  log.filterMap (RemoteEvent.seen names)

def ServingEvent.ofService : ServingEvent Bson → Option ServiceEvent
  | .service event => some event
  | _ => none

/-- The streams come to the service under the names of those at their other ends. -/
def Authentic (names : Nat → String) (log : List (ServingEvent Bson)) : Prop :=
  ∀ service_name pair, (.service (.adopted service_name pair) ∈ log ∨ .service (.accepted service_name pair) ∈ log) →
    names pair = service_name

/-- The operation that a response tells of, or that there is none. -/
def Tells (order : List (Operation (Nat × Int) (MethodCall Bson) (CallResult Bson))) (rpc : Nat)
    (response : RemoteResponse Bson) : Prop :=
  if response.computed = true then
    ∃ call, (⟨(rpc, response.message_id), call, some response.result⟩ : Operation ..) ∈ order
  else (rpc, response.message_id) ∉ order.map Operation.id

/-- The invocations so far with the requests that they are for, in order. -/
structure Remote.Effected (names : Nat → String) (log : List (RemoteEvent Bson)) (remote : Remote σ κ Bson)
    (order : List (Operation (Nat × Int) (MethodCall Bson) (CallResult Bson))) : Prop where
  orders : Orders (seenBy names log) order
  same : order.map (fun operation => (operation.op, operation.ret)) =
    (invocations (log.filterMap RemoteEvent.ofHosting)).map fun invocation =>
      (invocation.methodCall, invocation.answer)
  handed : ∀ id ∈ order.map Operation.id, id ∈ (handedRequests (servingLog log)).map IncomingRequest.key
  current : ∀ call, remote.hosting.serving.handling = some call →
    call.request.key ∈ (handedRequests (servingLog log)).map IncomingRequest.key
  running : ∀ call, remote.hosting.serving.handling = some call → remote.hosting.future.isSome = true →
    ∃ earlier operation, order = earlier ++ [operation] ∧ operation.id = call.request.key
  aside : ∀ call, remote.hosting.serving.handling = some call → remote.hosting.future = none →
    call.request.key ∉ order.map Operation.id
  responded : ∀ rpc response, response ∈ remote.responses rpc ∨ .returned rpc response ∈ log →
    (rpc, response.message_id) ∈ (handedRequests (servingLog log)).map IncomingRequest.key ∧ Tells order rpc response

theorem Serving.Steps.request_kept (steps : serving.Steps monitor inspection action next events)
    (apart : action.invokes = false) (call : HandledCall Bson) (now : next.handling = some call) :
    ∃ earlier, serving.handling = some earlier ∧ earlier.request = call.request := by
  cases steps with
  | service action service out _ drained taken =>
    dsimp only at now
    split at now
    · exact ⟨call, now, rfl⟩
    · cases now
  | read number request rest service out first taken => cases apart
  | deliver number id rest first polls =>
    obtain ⟨earlier, there, rfl⟩ := Option.map_eq_some_iff.mp now
    refine ⟨earlier, there, ?_⟩
    unfold HandledCall.hear
    split <;> rfl
  | call number request awaiting running =>
    cases now
    exact ⟨_, running, rfl⟩
  | resume input call number poll_handle phase current held resumed =>
    cases now
    exact ⟨call, current, rfl⟩
  | complete request number poll_handle service out current held taken => cases now
  | _ => exact ⟨call, now, rfl⟩

/-- A response goes to the stream and has the number of the request that is handled. -/
theorem Serving.Steps.responds (steps : serving.Steps monitor inspection action next events) (wired : serving.Wired)
    {number rpc : Nat} {message_id : Int} {result : CallResult Bson}
    (responded : .responded number rpc message_id result ∈ events) :
    ∃ call, serving.handling = some call ∧ call.request.key = (rpc, message_id) := by
  cases steps with
  | service action service out _ drained taken =>
    obtain ⟨event, _, same⟩ := List.mem_map.mp responded
    cases same
  | resume input call other poll_handle phase current held resumed =>
    refine ⟨call, current, ?_⟩
    cases response : call.phase.response input with
    | none =>
      rw [response] at responded
      cases responded
    | some result =>
      rw [response] at responded
      cases List.mem_singleton.mp responded
      rw [IncomingRequest.key, wired.current call number poll_handle current held]
  | _ => simp at responded

theorem Serving.Steps.serves (steps : serving.Steps monitor inspection action next events) :
    (next.service = serving.service ∧ events.filterMap ServingEvent.ofService = []) ∨
    ∃ moves, Service.step monitor serving.service moves =
      some (next.service, events.filterMap ServingEvent.ofService) := by
  cases steps with
  | service action service out _ drained taken =>
    refine .inr ⟨action, ?_⟩
    rw [List.filterMap_map, taken]
    exact congrArg (fun out => some (service, out)) List.filterMap_some.symm
  | read number request rest service out first taken =>
    have silent : out = [] := by
      cases Service.step_cases taken with
      | message _ _ _ _ _ => rfl
    exact .inr ⟨_, by rw [taken, silent]; rfl⟩
  | resume input call number poll_handle phase current held resumed =>
    refine .inl ⟨rfl, ?_⟩
    cases call.phase.response input <;> rfl
  | complete request number poll_handle service out current held taken =>
    have silent : out = [] := by
      cases Service.step_cases taken with
      | handled _ _ _ => rfl
    exact .inr ⟨_, by rw [taken, silent]; rfl⟩
  | _ => exact .inl ⟨rfl, rfl⟩

theorem mem_ofService {event : ServiceEvent} :
    event ∈ events.filterMap ServingEvent.ofService ↔ .service event ∈ events := by
  rw [List.mem_filterMap]
  constructor
  · rintro ⟨source, there, same⟩
    cases source <;> cases same
    exact there
  · exact fun there => ⟨_, there, rfl⟩

/-- Every handle has the name of the peer at the other end of its stream. -/
theorem run_names {log : List (ServingEvent Bson)}
    (run : RunWith (Serving.step monitor inspection) Serving.Spares (.new service_name) log serving)
    (authentic : Authentic names log) (poll_handle : ClientHandle) (holds : serving.service.Holds poll_handle) :
    names poll_handle.rpc = poll_handle.service_name := by
  refine run.invariant (I := fun log serving => Authentic names log → ∀ poll_handle,
    serving.service.Holds poll_handle → names poll_handle.rpc = poll_handle.service_name) ?_ ?_
    authentic poll_handle holds
  · rintro _ poll_handle (⟨number, there⟩ | ⟨number, there⟩) <;> cases there
  · intro log serving action after out _ named _ taken authentic poll_handle holds
    have earlier : Authentic names log := fun service_name pair there => authentic service_name pair
      (there.imp (List.mem_append_left _) (List.mem_append_left _))
    rcases (Serving.step_cases taken).serves with ⟨same, _⟩ | ⟨moves, moved⟩
    · rw [same] at holds
      exact named earlier poll_handle holds
    · cases (Service.step_cases moved).obtains holds with
      | kept before held name stream =>
        rw [← name, ← stream]
        exact named earlier before held
      | adopted member =>
        exact authentic _ _ (.inl (List.mem_append_right _ (mem_ofService.mp member)))
      | accepted member =>
        exact authentic _ _ (.inr (List.mem_append_right _ (mem_ofService.mp member)))

/-- The function is called under the name of the handle that the request has come on. -/
theorem invoked_name {number : Nat} {out : List (HostingEvent Bson)} {client_name endpoint : String} {params : Bson}
    (taken : hosting.step (ι := ι) monitor inspection methods (.read number) = some (hosted, out))
    (invoked : .invoked client_name endpoint params ∈ out) :
    ∃ poll_handle, hosted.serving.service.activity.held = some (number, poll_handle) ∧
      poll_handle.service_name = client_name := by
  simp only [Hosting.step] at taken
  split at taken
  · rename_i poll_handle serving emitted present moved
    have holds : serving.service.activity.held = some (number, poll_handle) := by
      cases Serving.step_cases moved with
      | read _ request rest service emitted first took =>
        obtain ⟨_, found, there, _, holds⟩ := message_taken took
        rw [present] at there
        cases there
        exact holds
    split at taken
    · split at taken
      · cases taken
        refine ⟨poll_handle, holds, ?_⟩
        rcases List.mem_append.mp invoked with old | new
        · obtain ⟨_, _, same⟩ := List.mem_map.mp old
          cases same
        · cases List.mem_singleton.mp new
          rfl
      · cases taken
        obtain ⟨_, _, same⟩ := List.mem_map.mp invoked
        cases same
    · cases taken
      obtain ⟨_, _, same⟩ := List.mem_map.mp invoked
      cases same
  · cases taken

section Effects

variable {order later : List (Operation (Nat × Int) (MethodCall Bson) (CallResult Bson))}
  {before : σ} {emitted : List (HostingEvent Bson)}

theorem seenBy_hosting (log : List (RemoteEvent Bson)) (emitted : List (HostingEvent Bson)) :
    seenBy names (log ++ emitted.map .hosting) = seenBy names log := by
  rw [seenBy, List.filterMap_append, List.filterMap_map]
  exact (congrArg _ (List.filterMap_eq_nil_iff.mpr fun _ _ => rfl)).trans (List.append_nil _)

theorem hosting_append (log : List (RemoteEvent Bson)) (emitted : List (HostingEvent Bson)) :
    (log ++ emitted.map RemoteEvent.hosting).filterMap RemoteEvent.ofHosting =
      log.filterMap RemoteEvent.ofHosting ++ emitted := by
  rw [List.filterMap_append, hosting_map]

theorem handed_append (log : List (RemoteEvent Bson)) (emitted : List (HostingEvent Bson)) :
    (handedRequests (servingLog (log ++ emitted.map RemoteEvent.hosting))).map IncomingRequest.key =
      (handedRequests (servingLog log)).map IncomingRequest.key ++
        (handedRequests (emitted.filterMap HostingEvent.ofServing)).map IncomingRequest.key := by
  rw [servingLog_append, servingLog_hosting, handedRequests_append, List.map_append]

/-- What a step of the functions has to keep. -/
theorem Remote.Effected.step (effected : remote.Effected names log order)
    (orders : Orders (seenBy names log) later)
    (same : later.map (fun operation => (operation.op, operation.ret)) =
      (emitted.foldl Invocation.record (invocations (log.filterMap RemoteEvent.ofHosting))).map fun invocation =>
        (invocation.methodCall, invocation.answer))
    (handed : ∀ id ∈ later.map Operation.id, id ∈ order.map Operation.id ∨
      id ∈ (handedRequests (emitted.filterMap HostingEvent.ofServing)).map IncomingRequest.key)
    (current : ∀ call, after.hosting.serving.handling = some call →
      (∃ earlier, remote.hosting.serving.handling = some earlier ∧ earlier.request = call.request) ∨
        call.request ∈ handedRequests (emitted.filterMap HostingEvent.ofServing))
    (running : ∀ call, after.hosting.serving.handling = some call → after.hosting.future.isSome = true →
      ∃ earlier operation, later = earlier ++ [operation] ∧ operation.id = call.request.key)
    (aside : ∀ call, after.hosting.serving.handling = some call → after.hosting.future = none →
      call.request.key ∉ later.map Operation.id)
    (tells : ∀ rpc response, (rpc, response.message_id) ∈
      (handedRequests (servingLog log)).map IncomingRequest.key → Tells order rpc response → Tells later rpc response)
    (responded : ∀ rpc response, response ∈ after.responses rpc → response ∈ remote.responses rpc ∨
      (∃ call, remote.hosting.serving.handling = some call ∧ call.request.key = (rpc, response.message_id)) ∧
        Tells later rpc response) :
    after.Effected names (log ++ emitted.map .hosting) later where
  orders := by rwa [seenBy_hosting]
  same := by rw [hosting_append, invocations_append, same]
  handed id there := by
    rw [handed_append]
    exact List.mem_append.mpr ((handed id there).imp_left (effected.handed id))
  current call now := by
    rw [handed_append]
    rcases current call now with ⟨earlier, before, kept⟩ | new
    · rw [← kept]
      exact List.mem_append_left _ (effected.current earlier before)
    · exact List.mem_append_right _ (List.mem_map_of_mem new)
  running := running
  aside := aside
  responded rpc response there := by
    have old : response ∈ remote.responses rpc ∨ .returned rpc response ∈ log →
        (rpc, response.message_id) ∈ (handedRequests (servingLog (log ++ emitted.map RemoteEvent.hosting))).map
          IncomingRequest.key ∧ Tells later rpc response := by
      intro known
      obtain ⟨handed, told⟩ := effected.responded rpc response known
      rw [handed_append]
      exact ⟨List.mem_append_left _ handed, tells rpc response handed told⟩
    rcases there with waiting | returned
    · rcases responded rpc response waiting with before | ⟨⟨call, now, key⟩, told⟩
      · exact old (.inl before)
      · refine ⟨?_, told⟩
        rw [handed_append, ← key]
        exact List.mem_append_left _ (effected.current call now)
    · rcases List.mem_append.mp returned with before | new
      · exact old (.inr before)
      · obtain ⟨_, _, unlike⟩ := List.mem_map.mp new
        cases unlike

/-- A response that goes out was there before, or is one to the request that is handled. -/
theorem delivered {hostingAction : HostingAction ι Bson} (wired : remote.hosting.serving.Wired)
    (taken : remote.hosting.step monitor inspection methods hostingAction = some (hosted, emitted)) {rpc : Nat}
    {response : RemoteResponse Bson}
    (member : response ∈ remote.responses rpc ++
      emitted.filterMap (HostingEvent.response rpc remote.hosting.future.isSome)) :
    response ∈ remote.responses rpc ∨ response.computed = remote.hosting.future.isSome ∧
      (∃ number, .serving (.responded number rpc response.message_id response.result) ∈ emitted) ∧
      ∃ call, remote.hosting.serving.handling = some call ∧ call.request.key = (rpc, response.message_id) := by
  rcases List.mem_append.mp member with old | new
  · exact .inl old
  · obtain ⟨event, there, means⟩ := List.mem_filterMap.mp new
    unfold HostingEvent.response at means
    split at means
    · rename_i number other message_id result
      split at means
      · rename_i same
        cases means
        rw [same] at there
        refine .inr ⟨rfl, ⟨number, there⟩, ?_⟩
        rcases hosting_moves taken with ⟨_, _, silent⟩ | ⟨moves, _, moved⟩
        · have absurdly : .responded number rpc message_id result ∈ emitted.filterMap HostingEvent.ofServing :=
            List.mem_filterMap.mpr ⟨_, there, rfl⟩
          rw [silent] at absurdly
          cases absurdly
        · exact (Serving.step_cases moved).responds wired (List.mem_filterMap.mpr ⟨_, there, rfl⟩)
      · cases means
    · cases means

theorem tells_kept (told : ∀ operation ∈ order, operation ∈ later ∨ operation.ret = none)
    (ids : later.map Operation.id = order.map Operation.id) {rpc : Nat} {response : RemoteResponse Bson}
    (tells : Tells order rpc response) : Tells later rpc response := by
  unfold Tells at tells ⊢
  split at tells
  · rename_i computed
    obtain ⟨call, there⟩ := tells
    rw [if_pos computed]
    rcases told _ there with kept | untold
    · exact ⟨call, kept⟩
    · cases untold
  · rename_i computed
    rw [if_neg computed, ids]
    exact tells

/-- A step of the service while no function runs. -/
theorem Remote.Effected.apart (effected : remote.Effected names log order) (vacant : remote.hosting.future = none)
    (still : after.hosting.future = none) (quiet : emitted.filter HostingEvent.ofFunction = [])
    (calls : ∀ call, after.hosting.serving.handling = some call →
      (∃ earlier, remote.hosting.serving.handling = some earlier ∧ earlier.request = call.request) ∨
        call.request ∈ handedRequests (emitted.filterMap HostingEvent.ofServing) ∧
          call.request.key ∉ (handedRequests (servingLog log)).map IncomingRequest.key)
    (responded : ∀ rpc response, response ∈ after.responses rpc → response ∈ remote.responses rpc ∨
      response.computed = remote.hosting.future.isSome ∧
        ∃ call, remote.hosting.serving.handling = some call ∧ call.request.key = (rpc, response.message_id)) :
    after.Effected names (log ++ emitted.map .hosting) order := by
  refine effected.step effected.orders ?_ (fun id there => .inl there)
    (fun call now => (calls call now).imp_right And.left) (fun call _ busy => ?_) (fun call now _ => ?_)
    (fun _ _ _ tells => tells) (fun rpc response there => ?_)
  · rw [effected.same, ← record_filter emitted, quiet]
    rfl
  · rw [still] at busy
    cases busy
  · rcases calls call now with ⟨earlier, before, kept⟩ | ⟨_, new⟩
    · rw [← kept]
      exact effected.aside earlier before vacant
    · exact fun there => new (effected.handed _ there)
  · rcases responded rpc response there with old | ⟨computed, call, now, key⟩
    · exact .inl old
    · refine .inr ⟨⟨call, now, key⟩, ?_⟩
      unfold Tells
      rw [computed, vacant, if_neg (by simp), ← key]
      exact effected.aside call now vacant

/-- A step that goes on with the function that runs. -/
theorem Remote.Effected.goes (effected : remote.Effected names log order)
    (occupied : remote.hosting.future.isSome = true)
    (quiet : (emitted.foldl Invocation.record (invocations (log.filterMap RemoteEvent.ofHosting))).map
      (fun invocation => (invocation.methodCall, invocation.answer)) =
        (invocations (log.filterMap RemoteEvent.ofHosting)).map fun invocation =>
          (invocation.methodCall, invocation.answer))
    (calls : ∀ call, after.hosting.serving.handling = some call → after.hosting.future.isSome = true ∧
      ∃ earlier, remote.hosting.serving.handling = some earlier ∧ earlier.request = call.request)
    (responded : ∀ rpc response, response ∈ after.responses rpc → response ∈ remote.responses rpc) :
    after.Effected names (log ++ emitted.map .hosting) order := by
  refine effected.step effected.orders (effected.same.trans quiet.symm) (fun id there => .inl there)
    (fun call now => .inl (calls call now).2) (fun call now _ => ?_) (fun call now idle => ?_)
    (fun _ _ _ tells => tells) (fun rpc response there => .inl (responded rpc response there))
  · obtain ⟨_, earlier, before, kept⟩ := calls call now
    rw [← kept]
    exact effected.running earlier before occupied
  · have busy := (calls call now).1
    rw [idle] at busy
    cases busy

/-- The function of the request that is handed over is called. -/
theorem Remote.Effected.takes (effected : remote.Effected names log order) {request : IncomingRequest Bson}
    {client_name : String} {params : Bson}
    (handed : handedRequests (emitted.filterMap HostingEvent.ofServing) = [request])
    (invoked : emitted.foldl Invocation.record (invocations (log.filterMap RemoteEvent.ofHosting)) =
      invocations (log.filterMap RemoteEvent.ofHosting) ++ [⟨client_name, request.endpoint, params, none, none⟩])
    (fresh : request.key ∉ (handedRequests (servingLog log)).map IncomingRequest.key)
    (sent : .sent request ∈ log) (body : request.body.params = some params) (name : names request.rpc = client_name)
    (calls : ∀ call, after.hosting.serving.handling = some call → call.request = request)
    (occupied : after.hosting.future.isSome = true)
    (responded : ∀ rpc response, response ∈ after.responses rpc → response ∈ remote.responses rpc) :
    after.Effected names (log ++ emitted.map .hosting)
      (order ++ [⟨request.key, (client_name, request.endpoint, params), none⟩]) := by
  have absent : request.key ∉ order.map Operation.id := fun there => fresh (effected.handed _ there)
  have called : .called request.key (client_name, request.endpoint, params) ∈ seenBy names log := by
    refine List.mem_filterMap.mpr ⟨_, sent, ?_⟩
    simp only [RemoteEvent.seen, body, name, Option.map_some]
  refine effected.step (effected.orders.take absent called) ?_ (fun id there => ?_) (fun call now => .inr ?_)
    (fun call now _ => ?_) (fun call _ idle => ?_) (fun rpc response known tells => ?_)
    (fun rpc response there => .inl (responded rpc response there))
  · rw [invoked, List.map_append, List.map_append, effected.same]
    rfl
  · rw [List.map_append] at there
    refine (List.mem_append.mp there).imp_right fun new => ?_
    rw [handed]
    exact new
  · rw [calls call now, handed]
    exact List.mem_singleton_self _
  · exact ⟨order, _, rfl, by rw [calls call now]⟩
  · rw [idle] at occupied
    cases occupied
  · unfold Tells at tells ⊢
    split at tells
    · rename_i computed
      obtain ⟨call, there⟩ := tells
      rw [if_pos computed]
      exact ⟨call, List.mem_append_left _ there⟩
    · rename_i computed
      rw [if_neg computed, List.map_append]
      intro there
      rcases List.mem_append.mp there with old | new
      · exact tells old
      · rw [List.mem_singleton.mp new] at known
        exact fresh known

/-- The response to the request whose function has run goes out. -/
theorem Remote.Effected.answers (effected : remote.Effected names log order)
    (occupied : remote.hosting.future.isSome = true) {call : HandledCall Bson}
    (now : remote.hosting.serving.handling = some call) {invocation : Invocation Bson}
    (parsed : invocations (log.filterMap RemoteEvent.ofHosting) = history ++ [invocation])
    (unanswered : invocation.answer = none) (result : CallResult Bson)
    (answered : emitted.foldl Invocation.record (history ++ [invocation]) =
      history ++ [{ invocation with answer := some result }])
    (calls : ∀ next, after.hosting.serving.handling = some next → after.hosting.future.isSome = true ∧
      next.request = call.request)
    (responded : ∀ rpc response, response ∈ after.responses rpc → response ∈ remote.responses rpc ∨
      response.computed = true ∧ response.result = result ∧ call.request.key = (rpc, response.message_id)) :
    ∃ later, after.Effected names (log ++ emitted.map .hosting) later := by
  obtain ⟨earlier, ⟨id, op, ret⟩, rfl, key⟩ := effected.running call now occupied
  have same := effected.same
  rw [parsed, List.map_append, List.map_append] at same
  obtain ⟨first, last⟩ := List.append_inj' same rfl
  obtain ⟨ops, rets⟩ := Prod.mk.inj (List.singleton_inj.mp last)
  simp only at ops rets key
  obtain rfl : ret = none := rets.trans unanswered
  refine ⟨_, effected.step (effected.orders.answer result) ?_ (fun other there => .inl (by simpa using there))
    (fun next there => .inl ⟨call, now, (calls next there).2.symm⟩)
    (fun next there _ => ⟨earlier, _, rfl, by rw [(calls next there).2]; exact key⟩) (fun next there idle => ?_)
    (fun rpc response _ tells => tells_kept ?_ (by simp) tells) (fun rpc response there => ?_)⟩
  · rw [parsed, answered, List.map_append, List.map_append, first]
    simp only [List.map_cons, List.map_nil, ops, Invocation.methodCall]
  · have busy := (calls next there).1
    rw [idle] at busy
    cases busy
  · intro operation member
    rcases List.mem_append.mp member with old | new
    · exact .inl (List.mem_append_left _ old)
    · rw [List.mem_singleton.mp new]
      exact .inr rfl
  · refine (responded rpc response there).imp_right fun ⟨computed, same, own⟩ => ⟨⟨call, now, own⟩, ?_⟩
    unfold Tells
    rw [if_pos computed, ← own, ← key, same]
    exact ⟨op, List.mem_append_right _ (List.mem_singleton_self _)⟩

theorem silent_delivered {hostingAction : HostingAction ι Bson} (wired : remote.hosting.serving.Wired)
    (taken : remote.hosting.step monitor inspection methods hostingAction = some (hosted, emitted))
    (silent : ∀ number rpc message_id result, .serving (.responded number rpc message_id result) ∉ emitted)
    (responses : ∀ rpc response, response ∈ after.responses rpc → response ∈ remote.responses rpc ++
      emitted.filterMap (HostingEvent.response rpc remote.hosting.future.isSome)) (rpc : Nat)
    (response : RemoteResponse Bson) (there : response ∈ after.responses rpc) : response ∈ remote.responses rpc := by
  rcases delivered wired taken (responses rpc response there) with old | ⟨_, ⟨number, responded⟩, _⟩
  · exact old
  · exact absurd responded (silent number rpc _ _)

theorem marked_responded {number rpc : Nat} {message_id : Int} {result : CallResult Bson}
    (member : .serving (.responded number rpc message_id result) ∈ events.flatMap hosting.marked) :
    .responded number rpc message_id result ∈ events := by
  have there : ServingEvent.responded number rpc message_id result ∈
      (events.flatMap hosting.marked).filterMap HostingEvent.ofServing :=
    List.mem_filterMap.mpr ⟨_, member, rfl⟩
  rwa [marked_serving] at there

/-- Every step of the functions keeps the order of the invocations. -/
theorem Remote.Effected.hosts {hostingAction : HostingAction ι Bson} (effected : remote.Effected names log order)
    (sequential : remote.hosting.Sequential methods origin (log.filterMap RemoteEvent.ofHosting))
    (wired : remote.hosting.serving.Wired)
    (taken : remote.hosting.step monitor inspection methods hostingAction = some (hosted, emitted))
    (now : after.hosting = hosted)
    (responses : ∀ rpc response, response ∈ after.responses rpc → response ∈ remote.responses rpc ++
      emitted.filterMap (HostingEvent.response rpc remote.hosting.future.isSome))
    (fresh : ∀ request ∈ handedRequests (emitted.filterMap HostingEvent.ofServing), .sent request ∈ log ∧
      request.key ∉ (handedRequests (servingLog log)).map IncomingRequest.key)
    (name : ∀ number poll_handle call, hosted.serving.service.activity.held = some (number, poll_handle) →
      hosted.serving.handling = some call → names call.request.rpc = poll_handle.service_name) :
    ∃ later, after.Effected names (log ++ emitted.map .hosting) later := by
  obtain ⟨handled, history, before, _, _, reached⟩ := sequential
  have responded : ∀ rpc response, response ∈ after.responses rpc → response ∈ remote.responses rpc ∨
      response.computed = remote.hosting.future.isSome ∧
        (∃ number, .serving (.responded number rpc response.message_id response.result) ∈ emitted) ∧
        ∃ call, remote.hosting.serving.handling = some call ∧ call.request.key = (rpc, response.message_id) :=
    fun rpc response there => delivered wired taken (responses rpc response there)
  have own : ∀ rpc response, response ∈ after.responses rpc → response ∈ remote.responses rpc ∨
      response.computed = remote.hosting.future.isSome ∧
        ∃ call, remote.hosting.serving.handling = some call ∧ call.request.key = (rpc, response.message_id) :=
    fun rpc response there => (responded rpc response there).imp_right fun ⟨computed, _, call⟩ => ⟨computed, call⟩
  have same : after.hosting.serving.handling = hosted.serving.handling ∧ after.hosting.future = hosted.future := by
    rw [now]
    exact ⟨rfl, rfl⟩
  obtain ⟨handling, future⟩ := same
  cases reached with
  | idle vacant there logged =>
    cases Hosting.step_cases taken with
    | serving action apart serving out steps =>
      refine ⟨order, effected.apart vacant ?_ ?_ (fun call now => .inl ?_) own⟩
      · rw [future]
        simp [vacant]
      · simp [marked_idle vacant out, vacant]
      · rw [handling] at now
        exact steps.request_kept apart call now
    | register registration =>
      refine ⟨order, effected.apart vacant (future.trans vacant) rfl (fun call now => .inl ⟨call, ?_, rfl⟩) own⟩
      rw [handling] at now
      exact now
    | read number request rest service free holds aside =>
      refine ⟨order, effected.apart vacant (future.trans vacant) rfl (fun call now => .inr ?_) own⟩
      rw [handling] at now
      cases now
      exact ⟨List.mem_singleton_self _, (fresh request (List.mem_singleton_self _)).2⟩
    | invoked number poll_handle request rest service free holds awaiting params converted body accepts =>
      obtain ⟨sent, new⟩ := fresh request (List.mem_singleton_self _)
      obtain ⟨found, held, named⟩ := invoked_name taken (List.mem_cons_of_mem _ (List.mem_singleton_self _))
      have silent : ∀ other rpc message_id result, .serving (.responded other rpc message_id result) ∉
          [HostingEvent.serving (.handed number request),
            .invoked poll_handle.service_name request.endpoint params] := by simp
      refine ⟨_, effected.takes rfl rfl new sent body ((name number found _ held rfl).trans named) (fun call now => ?_)
        (by rw [future]; rfl) (silent_delivered wired taken silent responses)⟩
      rw [handling] at now
      cases now
      rfl
    | run yielded rest request awaiting suspended running =>
      rw [vacant] at suspended
      cases suspended
    | returned result ready call phase current resumed =>
      rw [vacant] at ready
      cases ready
  | running future' invocation occupied current logged =>
    have busy : remote.hosting.future.isSome = true := by
      rw [occupied]
      rfl
    have parsed : invocations (log.filterMap RemoteEvent.ofHosting) = history ++ [invocation] := by
      apply invocations_of_events
      rw [logged, List.flatMap_append, List.flatMap_singleton]
    obtain ⟨request, phase, handles, endpoint, params, hosts⟩ := current.call
    have holds := handled (by rw [handles]; rfl)
    cases Hosting.step_cases taken with
    | serving action apart serving out steps =>
      cases steps.follows apart handles hosts with
      | kept later there still silent =>
        refine ⟨order, effected.goes busy ?_ (fun call now => ?_)
          (silent_delivered wired taken (fun number rpc id result member => ?_) responses)⟩
        · rw [← record_filter]
          simp [marked_silent silent, there]
        · rw [handling] at now
          have same := there.symm.trans now
          cases same
          exact ⟨by rw [future]; simp [there, busy], _, handles, rfl⟩
        · rcases List.mem_append.mp member with old | new
          · exact absurd (silent _ (marked_responded old)) (by simp [ServingEvent.ofMethod])
          · simp [there] at new
      | answers value ready unanswered there number rpc all =>
        subst all
        refine effected.answers busy handles parsed unanswered (.ofMethod value) ?_ (fun next now => ?_)
          (fun rpc response member => ?_)
        · simp [Hosting.marked, busy, ServingEvent.ofMethod, there, Invocation.record, List.modifyLast_concat]
        · rw [handling] at now
          have same := there.symm.trans now
          cases same
          exact ⟨by rw [future]; simp [there, busy], rfl⟩
        · refine (responded rpc response member).imp_right ?_
          rintro ⟨computed, ⟨other, told⟩, call, was, key⟩
          rw [handles] at was
          cases was
          refine ⟨by rw [computed, busy], ?_, key⟩
          simp [Hosting.marked, busy, ServingEvent.ofMethod, there] at told
          exact told.2.2.2
      | ends there silent finished =>
        refine ⟨order, effected.goes busy ?_ (fun call now => ?_)
          (silent_delivered wired taken (fun number rpc id result member => ?_) responses)⟩
        · rw [parsed, List.foldl_append, ← record_filter (out.flatMap _), marked_silent silent]
          simp [busy, there, Invocation.record, List.modifyLast_concat]
          rfl
        · rw [handling] at now
          have absent := there.symm.trans now
          cases absent
        · rcases List.mem_append.mp member with old | new
          · exact absurd (silent _ (marked_responded old)) (by simp [ServingEvent.ofMethod])
          · simp [busy, there] at new
    | register registration =>
      refine ⟨order, effected.goes busy rfl (fun call now => ⟨by rw [future]; exact busy, call, ?_, rfl⟩)
        (silent_delivered wired taken (by simp) responses)⟩
      rw [handling] at now
      exact now
    | read number request rest service free _ aside =>
      rw [free] at holds
      cases holds
    | invoked number poll_handle request rest service free _ awaiting params converted body accepts =>
      rw [free] at holds
      cases holds
    | run yielded rest request awaiting suspended running =>
      refine ⟨order, effected.goes busy rfl (fun call now => ⟨by rw [future]; rfl, call, ?_, rfl⟩)
        (silent_delivered wired taken (by simp) responses)⟩
      rw [handling] at now
      exact now
    | returned result ready call phase was resumed =>
      refine ⟨order, effected.goes busy rfl (fun next now => ⟨by rw [future]; exact busy, call, was, ?_⟩)
        (silent_delivered wired taken (by simp) responses)⟩
      rw [handling] at now
      cases now
      rfl

/-- The service does not move. -/
theorem Remote.Effected.outside (effected : remote.Effected names log order)
    (orders : Orders (seenBy names (log ++ out)) order) (hosting : after.hosting = remote.hosting)
    (quiet : out.filterMap RemoteEvent.ofHosting = [])
    (responded : ∀ rpc response, response ∈ after.responses rpc ∨ .returned rpc response ∈ out →
      response ∈ remote.responses rpc) : after.Effected names (log ++ out) order := by
  have served : servingLog (log ++ out) = servingLog log := by
    rw [servingLog_append]
    simp only [servingLog, quiet, List.filterMap_nil, List.append_nil]
  refine ⟨orders, ?_, ?_, ?_, ?_, ?_, ?_⟩
  · rw [List.filterMap_append, quiet, List.append_nil, effected.same]
  · rw [served]
    exact effected.handed
  · rw [served, hosting]
    exact effected.current
  · rw [hosting]
    exact effected.running
  · rw [hosting]
    exact effected.aside
  · intro rpc response there
    rw [served]
    refine effected.responded rpc response ?_
    rcases there with waiting | returned
    · exact .inl (responded rpc response (.inl waiting))
    · rcases List.mem_append.mp returned with old | new
      · exact .inr old
      · exact .inl (responded rpc response (.inr new))

theorem Remote.Effected.sends (effected : remote.Effected names log order) (placed : remote.Placed log)
    {request : IncomingRequest Bson} (number : request.message_id = remote.sent request.rpc)
    (hosting : after.hosting = remote.hosting) (responses : after.responses = remote.responses) :
    after.Effected names (log ++ [.sent request]) order := by
  refine effected.outside ?_ hosting rfl fun rpc response there => ?_
  · rw [seenBy, List.filterMap_append]
    cases body : request.body.params with
    | none =>
      rw [List.filterMap_cons_none (by simp [RemoteEvent.seen, body]), List.filterMap_nil, List.append_nil]
      exact effected.orders
    | some params =>
      rw [List.filterMap_cons_some (by simp only [RemoteEvent.seen, body, Option.map_some]; rfl), List.filterMap_nil]
      refine effected.orders.call (fun there => ?_) _
      obtain ⟨earlier, handed, same⟩ := List.mem_map.mp (effected.handed _ there)
      obtain ⟨_, below⟩ := placed.sent .handed earlier handed
      obtain ⟨stream, id⟩ := Prod.mk.inj same
      rw [stream, id, number] at below
      exact Int.lt_irrefl _ below
  · rw [responses] at there
    rcases there with waiting | returned
    · exact waiting
    · cases List.mem_singleton.mp returned

theorem Remote.Effected.receives (effected : remote.Effected names log order) {rpc : Nat}
    {response : RemoteResponse Bson} {rest : List (RemoteResponse Bson)}
    (first : remote.responses rpc = response :: rest) (hosting : after.hosting = remote.hosting)
    (responses : after.responses = Function.update remote.responses rpc rest) :
    after.Effected names (log ++ [.returned rpc response]) order := by
  have there : response ∈ remote.responses rpc := by
    rw [first]
    exact List.mem_cons_self
  refine effected.outside ?_ hosting rfl ?_
  · obtain ⟨_, tells⟩ := effected.responded rpc response (.inl there)
    unfold Tells at tells
    rw [seenBy, List.filterMap_append]
    split at tells
    · rename_i computed
      obtain ⟨call, known⟩ := tells
      rw [List.filterMap_cons_some (by simp only [RemoteEvent.seen, computed, if_true]; rfl), List.filterMap_nil]
      exact effected.orders.tell known
    · rename_i computed
      rw [List.filterMap_cons_none (by simp [RemoteEvent.seen, computed]), List.filterMap_nil, List.append_nil]
      exact effected.orders
  · rintro other found (waiting | returned)
    · rw [responses] at waiting
      by_cases this : other = rpc
      · subst this
        rw [Function.update_self] at waiting
        rw [first]
        exact List.mem_cons_of_mem _ waiting
      · rwa [Function.update_of_ne this] at waiting
    · cases List.mem_singleton.mp returned
      exact there

theorem fresh_handed (placed : after.Placed (log ++ emitted.map .hosting)) (request : IncomingRequest Bson)
    (there : request ∈ handedRequests (emitted.filterMap HostingEvent.ofServing)) : .sent request ∈ log ∧
      request.key ∉ (handedRequests (servingLog log)).map IncomingRequest.key := by
  have handed : request ∈ after.held (log ++ emitted.map .hosting) .handed := by
    simp only [Remote.held, servingLog_append, servingLog_hosting, handedRequests_append]
    exact List.mem_append_right _ there
  refine ⟨?_, fun before => ?_⟩
  · rcases List.mem_append.mp (placed.sent .handed request handed).1 with old | new
    · exact old
    · obtain ⟨_, _, unlike⟩ := List.mem_map.mp new
      cases unlike
  · have nodup := placed.apart.nodup .handed
    simp only [Remote.held, handed_append] at nodup
    exact (List.nodup_append.mp nodup).2.2 _ before _ (List.mem_map_of_mem there) rfl

theorem run_effected
    (run : RunWith (Remote.step monitor inspection methods) Remote.Spares (.new service_name origin) log remote)
    (authentic : Authentic names (servingLog log)) : ∃ order, remote.Effected names log order := by
  refine run.invariant (I := fun log remote => Authentic names (servingLog log) →
    ∃ order, remote.Effected names log order) (fun _ => ⟨[], ?_⟩) ?_ authentic
  · refine ⟨.start, rfl, ?_, ?_, ?_, ?_, ?_⟩ <;> simp [Remote.new, Hosting.new, Serving.new]
  · intro log remote action after out run ih spares taken authentic
    have later := run.next spares taken
    obtain ⟨order, effected⟩ := ih fun service_name pair there => authentic service_name pair <| by
      rw [servingLog_append]
      exact there.imp (List.mem_append_left _) (List.mem_append_left _)
    have sequential := run_sequential (hosting_run run).run
    have wired := run_wired (serving_run run)
    have wired' := run_wired (serving_run later)
    have placed := run_placed later.run
    have name : ∀ number poll_handle call,
        after.hosting.serving.service.activity.held = some (number, poll_handle) →
        after.hosting.serving.handling = some call → names call.request.rpc = poll_handle.service_name := by
      intro number poll_handle call held handling
      rw [wired'.current call number poll_handle handling held]
      exact run_names (serving_run later) authentic poll_handle (.inr ⟨number, held⟩)
    cases Remote.step_cases taken with
    | send rpc endpoint body => exact ⟨order, effected.sends (run_placed run.run) rfl rfl rfl⟩
    | arrive number rpc request rest hosting events stream first moved =>
      exact effected.hosts sequential wired moved rfl (fun _ _ there => List.mem_append_left _ there)
        (fresh_handed placed) name
    | hosting action hosting events apart moved =>
      refine effected.hosts sequential wired moved rfl (fun rpc response there => ?_) (fresh_handed placed) name
      dsimp only at there
      split at there
      · exact there
      · exact List.mem_append_left _ there
    | receive rpc response rest first => exact ⟨order, effected.receives first rfl rfl⟩
    | lost rpc =>
      refine ⟨order, effected.outside (by simpa using effected.orders) rfl rfl ?_⟩
      rintro other response (waiting | returned)
      · dsimp only at waiting
        by_cases this : other = rpc
        · subst this
          rw [Function.update_self] at waiting
          cases waiting
        · rwa [Function.update_of_ne this] at waiting
      · cases returned

theorem legal_of_sequence (sequence : Sequence methods origin history shared)
    (same : order.map (fun operation => (operation.op, operation.ret)) =
      history.map fun invocation => (invocation.methodCall, invocation.answer)) :
    Legal (performs methods) origin order shared := by
  induction sequence generalizing order with
  | start =>
    rw [List.map_nil, List.map_eq_nil_iff] at same
    rw [same]
    exact .start
  | @next history middle after invocation future earlier executes ih =>
    rw [List.map_append] at same
    obtain ⟨first, last, rfl, firsts, lasts⟩ := List.map_eq_append_iff.mp same
    obtain ⟨operation, rfl, single⟩ := List.map_eq_singleton_iff.mp lasts
    obtain ⟨op, ret⟩ := Prod.mk.inj single
    exact (ih firsts).next operation ⟨invocation, future, op.symm, ret.symm, executes⟩

end Effects

/-- Remote calls are linearizable: whatever the callers send at the same time and however it travels, it looks as
    if every invocation had happened at one moment between its call and its return, on the shared state that the
    invocation before has left. Whoever gets no result of a function has had none called. -/
theorem remote_calls_linearizable
    (run : RunWith (Remote.step monitor inspection methods) Remote.Spares (.new service_name origin) log remote)
    (authentic : Authentic names (servingLog log)) :
    ∃ order, Orders (seenBy names log) order ∧ Legal (performs methods) origin order remote.hosting.shared ∧
      ∀ rpc response, .returned rpc response ∈ log → response.computed = false →
        (rpc, response.message_id) ∉ order.map Operation.id := by
  obtain ⟨order, effected⟩ := run_effected run authentic
  refine ⟨order, effected.orders, ?_, fun rpc response returned aside => ?_⟩
  · obtain ⟨history, before, earlier, _, reached⟩ := (run_sequential (hosting_run run).run).sequence
    have same := effected.same
    cases reached with
    | idle vacant there logged =>
      rw [invocations_of_events logged] at same
      rw [there]
      exact legal_of_sequence earlier same
    | running future invocation occupied current logged =>
      rw [← List.flatMap_singleton Invocation.events invocation, ← List.flatMap_append] at logged
      rw [invocations_of_events logged] at same
      exact legal_of_sequence (earlier.next current.executes) same
  · obtain ⟨_, tells⟩ := effected.responded rpc response (.inr returned)
    unfold Tells at tells
    rw [if_neg (by simp [aside])] at tells
    exact tells

def Remote.sparesPoll (remote : Remote σ κ Bson) : RemoteAction ι Bson → Bool
  | .hosting (.serving action) => remote.hosting.serving.sparesPoll action
  | _ => true

theorem remote_spares {action : RemoteAction ι Bson} (passed : remote.sparesPoll action = true) :
    remote.Spares action := by
  cases action with
  | hosting action =>
    cases action with
    | serving action => exact serving_spares passed
    | _ => trivial
  | _ => trivial

def twoNames : Nat → String
  | 4 => "com.b"
  | _ => "com.c"

/-- `com.c` calls once `com.b` has its sum. -/
def adding : List (RemoteAction Unit Nat) :=
  [.hosting (.serving (.service .poll)), .hosting (.serving (.service (.hubRequest (.fd "com.b" 4)))),
    .hosting (.register (.asyncMethod "add" ())), .hosting (.serving (.service .poll)),
    .hosting (.serving (.service (.hubRequest (.fd "com.c" 5)))), .hosting (.serving (.service .poll)),
    .send 4 "add" (.call 5), .arrive 0, .hosting (.read 0), .hosting (.run ()), .hosting .returned,
    .hosting (.serving (.resume (.responded true))), .hosting (.serving .complete), .receive 4,
    .send 5 "add" (.call 8), .arrive 1, .hosting (.serving (.service .poll)), .hosting (.read 1)]

theorem remote_calls_linearizable_added : ∃ log remote order,
    Run (Remote.step true true fun _ => addLater) (.new "com.a" 1) log remote ∧ remote.hosting.shared = 6 ∧
    Orders (seenBy twoNames log) order ∧ Legal (performs fun _ => addLater) 1 order remote.hosting.shared ∧
    ∃ call, (⟨(4, 0), call, some (.value 6)⟩ : Operation ..) ∈ order := by
  obtain ⟨log, remote, run, shown⟩ := Transition.exists_run_of_execute
    (Transition.guarded (Remote.step true true fun _ => addLater) Remote.sparesPoll) (.new "com.a" 1) adding
    (fun log remote => remote.hosting.shared == 6 && (seenBy twoNames log ==
      [.called (4, 0) ("com.b", "add", 5), .returned (4, 0) (.value 6), .called (5, 0) ("com.c", "add", 8)] &&
      (servingLog log).all fun
        | .service (.adopted service_name pair) | .service (.accepted service_name pair) =>
          twoNames pair == service_name
        | _ => true)) (by decide +kernel)
  simp only [Bool.and_eq_true, beq_iff_eq, List.all_eq_true] at shown
  obtain ⟨shared, seen, known⟩ := shown
  have spares : RunWith (Remote.step true true fun _ => addLater) Remote.Spares (.new "com.a" 1) log remote :=
    run.of_guarded fun _ _ _ _ passed => remote_spares passed
  have authentic : Authentic twoNames (servingLog log) := by
    rintro service_name pair (adopted | accepted)
    · exact beq_iff_eq.mp (known _ adopted)
    · exact beq_iff_eq.mp (known _ accepted)
  obtain ⟨order, orders, legal, _⟩ := remote_calls_linearizable spares authentic
  refine ⟨log, remote, order, spares.run, shared, orders, legal, orders.returned (4, 0) (.value 6) ?_⟩
  rw [seen]
  decide

end KrossbarLib
