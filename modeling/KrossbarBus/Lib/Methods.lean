import KrossbarBus.Lib.Conversations

namespace KrossbarLib

/-- A future of a method's function: suspended at one of its awaits, or ready. -/
inductive Pending (κ Result : Type)
  | suspended (rest : κ)
  | ready (result : Result)

def Pending.map {κ Result Other : Type} (f : Result → Other) : Pending κ Result → Pending κ Other
  | .suspended rest => .suspended rest
  | .ready result => .ready (f result)

/-- What `register_method` and `register_async_method` are called with: the types of the parameters and of the
    result with their conversions, and the function. `σ` is what the functions of a service share and change,
    `κ` what is left of a suspended one, `ι` what an await yields. -/
structure MethodFunction (σ ι κ Bson : Type) where
  Params : Type
  Result : Type
  from_bson : Bson → Except String Params
  to_bson : Result → Except String Bson
  func : String → Params → σ → Pending κ Result × σ
  resume : κ → ι → σ → Pending κ Result × σ

/-- What `register_method` is called with: the function returns its result at once. -/
structure SyncFunction (σ Bson : Type) where
  Params : Type
  Result : Type
  from_bson : Bson → Except String Params
  to_bson : Result → Except String Bson
  func : String → Params → σ → Result × σ

namespace MethodFunction

variable {σ ι κ Bson : Type}

def ofSync (method : SyncFunction σ Bson) : MethodFunction σ ι κ Bson where
  Params := method.Params
  Result := method.Result
  from_bson := method.from_bson
  to_bson := method.to_bson
  func client_name params shared :=
    (.ready (method.func client_name params shared).1, (method.func client_name params shared).2)
  resume rest _ shared := (.suspended rest, shared)

def params (method : MethodFunction σ ι κ Bson) : MethodParams Bson := fun bson =>
  match method.from_bson bson with
  | .error text => some text
  | .ok _ => none

/-- `internal_method` once its parameters are converted: the function, then `to_bson` of what it returns. -/
def call (method : MethodFunction σ ι κ Bson) (client_name : String) (params : method.Params) (shared : σ) :
    Pending κ (Except String Bson) × σ :=
  ((method.func client_name params shared).1.map method.to_bson, (method.func client_name params shared).2)

def wake (method : MethodFunction σ ι κ Bson) (rest : κ) (yielded : ι) (shared : σ) :
    Pending κ (Except String Bson) × σ :=
  ((method.resume rest yielded shared).1.map method.to_bson, (method.resume rest yielded shared).2)

end MethodFunction

/-- A service with the functions of its methods. `future` is the function that the handled call runs. -/
structure Hosting (σ κ Bson : Type) where
  serving : Serving Bson
  shared : σ
  future : Option (Pending κ (Except String Bson))

inductive HostingAction (ι Bson : Type)
  | serving (action : ServingAction Bson)
  | register (registration : Registration Unit Nat Nat)
  | read (number : Nat)
  /-- An await of the function that runs ends. -/
  | run (yielded : ι)
  | returned

/-- How an invocation ends: with its `handle_call`, or with the drop of the future that polls it. -/
inductive Ending
  | finished
  | dropped
  deriving DecidableEq

inductive HostingEvent (Bson : Type)
  | serving (event : ServingEvent Bson)
  | invoked (client_name endpoint : String) (params : Bson)
  | answered (result : CallResult Bson)
  | ended (ending : Ending)
  deriving DecidableEq

variable {σ ι κ Bson : Type}

def Registration.withMethod (method : MethodParams Bson) :
    Registration Unit Nat Nat → Registration (MethodParams Bson) Nat Nat
  | .asyncMethod name _ => .asyncMethod name method
  | .method name _ => .method name method
  | .signal name result => .signal name result
  | .state name result => .state name result

/-- These steps go together with a step of the functions. -/
def ServingAction.invokes : ServingAction Bson → Bool
  | .register _ | .read _ | .resume (.returned _) => true
  | _ => false

def RequestBody.params : RequestBody Bson → Option Bson
  | .call params | .message params => some params
  | _ => none

def ServingAction.ending : ServingAction Bson → Ending
  | .complete => .finished
  | _ => .dropped

/-- What an event says of the function that has been running. -/
def ServingEvent.ofMethod : ServingEvent Bson → Option (HostingEvent Bson)
  | .responded _ _ _ result => some (.answered result)
  | _ => none

def Hosting.marked (hosting : Hosting σ κ Bson) (event : ServingEvent Bson) : List (HostingEvent Bson) :=
  .serving event :: (if hosting.future.isSome then event.ofMethod else none).toList

/-- The function is called for a request that runs one. -/
def invoke (methods : String → MethodFunction σ ι κ Bson) (shared : σ) (client_name : String)
    (request : IncomingRequest Bson) : Option (Bson × Pending κ (Except String Bson) × σ) :=
  match request.body.params with
  | none => none
  | some params =>
    match (methods request.endpoint).from_bson params with
    | .error _ => none
    | .ok converted => some (params, (methods request.endpoint).call client_name converted shared)

/-- `methods` are the functions by the names under which they are registered. -/
def Hosting.step (monitor inspection : Bool) (methods : String → MethodFunction σ ι κ Bson) :
    Transition.Step (Hosting σ κ Bson) (HostingAction ι Bson) (HostingEvent Bson)
  | hosting, .serving action =>
    if action.invokes then none
    else match hosting.serving.step monitor inspection action with
      | none => none
      | some (serving, out) => some
        ({ hosting with serving, future := if serving.handling.isSome then hosting.future else none },
          out.flatMap hosting.marked ++
            if hosting.future.isSome && serving.handling.isNone then [.ended action.ending] else [])
  | hosting, .register registration =>
    match hosting.serving.step monitor inspection
        (.register (registration.withMethod (methods registration.name).params)) with
    | none => none
    | some (serving, out) => some ({ hosting with serving }, out.map .serving)
  | hosting, .read number =>
    match hosting.serving.service.client_poll_handles.get number,
        hosting.serving.step monitor inspection (.read number) with
    | some poll_handle, some (serving, out) =>
      match serving.handling with
      | some ⟨request, .running _⟩ =>
        -- The first argument of the function is the name of the handle that the request has come on.
        match invoke methods hosting.shared poll_handle.service_name request with
        | some (params, future, shared) => some ({ hosting with serving, shared, future := some future },
            out.map .serving ++ [.invoked poll_handle.service_name request.endpoint params])
        | none => some ({ hosting with serving }, out.map .serving)
      | _ => some ({ hosting with serving }, out.map .serving)
    | _, _ => none
  | hosting, .run yielded =>
    match hosting.future, hosting.serving.handling with
    | some (.suspended rest), some ⟨request, .running _⟩ =>
      let (future, shared) := (methods request.endpoint).wake rest yielded hosting.shared
      some ({ hosting with shared, future := some future }, [])
    | _, _ => none
  | hosting, .returned =>
    match hosting.future with
    | some (.ready result) =>
      match hosting.serving.step monitor inspection (.resume (.returned result)) with
      | none => none
      | some (serving, out) => some ({ hosting with serving }, out.map .serving)
    | _ => none

def Hosting.new (service_name : String) (shared : σ) : Hosting σ κ Bson where
  serving := .new service_name
  shared := shared
  future := none

/-- A call of a method's function, the response that its result has gone into, and how it has ended. -/
structure Invocation (Bson : Type) where
  client_name : String
  endpoint : String
  params : Bson
  answer : Option (CallResult Bson)
  ending : Option Ending

def Invocation.events (invocation : Invocation Bson) : List (HostingEvent Bson) :=
  .invoked invocation.client_name invocation.endpoint invocation.params ::
    ((invocation.answer.map .answered).toList ++ (invocation.ending.map .ended).toList)

def HostingEvent.ofFunction : HostingEvent Bson → Bool
  | .serving _ => false
  | _ => true

/-- The function goes on as its awaits end. -/
inductive Runs (method : MethodFunction σ ι κ Bson) :
    Pending κ (Except String Bson) × σ → Pending κ (Except String Bson) × σ → Prop
  | here (state : Pending κ (Except String Bson) × σ) : Runs method state state
  | more {state : Pending κ (Except String Bson) × σ} {rest : κ} {shared : σ}
      (runs : Runs method state (.suspended rest, shared)) (yielded : ι) :
      Runs method state (method.wake rest yielded shared)

/-- One invocation takes the shared state from `before` to `after`. It runs alone, and where its result has gone
    into a response or its call has finished, to its end. -/
structure Executes (methods : String → MethodFunction σ ι κ Bson) (before : σ) (invocation : Invocation Bson)
    (future : Pending κ (Except String Bson)) (after : σ) : Prop where
  runs : ∃ params, (methods invocation.endpoint).from_bson invocation.params = .ok params ∧
    Runs (methods invocation.endpoint)
      ((methods invocation.endpoint).call invocation.client_name params before) (future, after)
  answered : ∀ answer, invocation.answer = some answer → ∃ result, future = .ready result ∧ answer = .ofMethod result
  finished : invocation.ending = some .finished → ∃ result, future = .ready result

/-- The invocations one after the other, each on the shared state that the one before has left. -/
inductive Sequence (methods : String → MethodFunction σ ι κ Bson) (origin : σ) : List (Invocation Bson) → σ → Prop
  | start : Sequence methods origin [] origin
  | next {history : List (Invocation Bson)} {middle after : σ} {invocation : Invocation Bson}
      {future : Pending κ (Except String Bson)} (earlier : Sequence methods origin history middle)
      (executes : Executes methods middle invocation future after) :
      Sequence methods origin (history ++ [invocation]) after

variable {monitor inspection : Bool} {methods : String → MethodFunction σ ι κ Bson} {origin before : σ}
  {hosting after : Hosting σ κ Bson} {action : HostingAction ι Bson} {log out : List (HostingEvent Bson)}
  {history : List (Invocation Bson)} {invocation : Invocation Bson} {future : Pending κ (Except String Bson)}

inductive Hosting.Steps (monitor inspection : Bool) (methods : String → MethodFunction σ ι κ Bson)
    (hosting : Hosting σ κ Bson) : HostingAction ι Bson → Hosting σ κ Bson → List (HostingEvent Bson) → Prop
  | serving (action : ServingAction Bson) (apart : action.invokes = false) (serving : Serving Bson)
      (out : List (ServingEvent Bson)) (steps : hosting.serving.Steps monitor inspection action serving out) :
      Steps monitor inspection methods hosting (.serving action)
        { hosting with serving, future := if serving.handling.isSome then hosting.future else none }
        (out.flatMap hosting.marked ++
          if hosting.future.isSome && serving.handling.isNone then [.ended action.ending] else [])
  | register (registration : Registration Unit Nat Nat) :
      Steps monitor inspection methods hosting (.register registration)
        { hosting with serving := { hosting.serving with
          endpoints := (hosting.serving.endpoints.register
            (registration.withMethod (methods registration.name).params)).toOption.getD hosting.serving.endpoints } } []
  | read (number : Nat) (request : IncomingRequest Bson) (rest : List (Frame Bson)) (service : Service)
      (free : hosting.serving.service.activity.held = none) (holds : service.activity.held.isSome = true)
      (aside : ∀ awaiting, hosting.serving.endpoints.start inspection request = .running awaiting →
        ∃ client_name, invoke methods hosting.shared client_name request = none) :
      Steps monitor inspection methods hosting (.read number)
        { hosting with serving := { hosting.serving.setInbox number rest with
          service
          handling := some ⟨request, hosting.serving.endpoints.start inspection request⟩ } }
        [.serving (.handed number request)]
  | invoked (number : Nat) (poll_handle : ClientHandle) (request : IncomingRequest Bson) (rest : List (Frame Bson))
      (service : Service) (free : hosting.serving.service.activity.held = none)
      (holds : service.activity.held.isSome = true) (awaiting : List (Nat × Nat)) (params : Bson)
      (converted : (methods request.endpoint).Params) (body : request.body.params = some params)
      (accepts : (methods request.endpoint).from_bson params = .ok converted) :
      Steps monitor inspection methods hosting (.read number)
        { hosting with
          serving := { hosting.serving.setInbox number rest with
            service
            handling := some ⟨request, .running awaiting⟩ }
          shared := ((methods request.endpoint).call poll_handle.service_name converted hosting.shared).2
          future := some ((methods request.endpoint).call poll_handle.service_name converted hosting.shared).1 }
        [.serving (.handed number request), .invoked poll_handle.service_name request.endpoint params]
  | run (yielded : ι) (rest : κ) (request : IncomingRequest Bson) (awaiting : List (Nat × Nat))
      (suspended : hosting.future = some (.suspended rest))
      (running : hosting.serving.handling = some ⟨request, .running awaiting⟩) :
      Steps monitor inspection methods hosting (.run yielded)
        { hosting with
          shared := ((methods request.endpoint).wake rest yielded hosting.shared).2
          future := some ((methods request.endpoint).wake rest yielded hosting.shared).1 } []
  | returned (result : Except String Bson) (ready : hosting.future = some (.ready result)) (call : HandledCall Bson)
      (phase : CallPhase Bson) (current : hosting.serving.handling = some call)
      (resumed : call.resume (.returned result) = some phase) :
      Steps monitor inspection methods hosting .returned
        { hosting with serving := { hosting.serving with handling := some ⟨call.request, phase⟩ } }
        ([] : List (HostingEvent Bson))

theorem invoke_cases {shared next : σ} {client_name : String} {request : IncomingRequest Bson} {params : Bson}
    (invoked : invoke methods shared client_name request = some (params, future, next)) :
    request.body.params = some params ∧ ∃ converted, (methods request.endpoint).from_bson params = .ok converted ∧
      (methods request.endpoint).call client_name converted shared = (future, next) := by
  unfold invoke at invoked
  split at invoked
  · cases invoked
  · rename_i bson body
    split at invoked
    · cases invoked
    · rename_i converted accepts
      obtain ⟨rfl, called⟩ := Prod.mk.inj (Option.some.inj invoked)
      exact ⟨body, converted, accepts, called⟩

theorem Hosting.step_cases (taken : Hosting.step monitor inspection methods hosting action = some (after, out)) :
    hosting.Steps monitor inspection methods action after out := by
  cases action with
  | serving action =>
    simp only [Hosting.step] at taken
    split at taken
    · cases taken
    · rename_i apart
      split at taken
      · cases taken
      · rename_i serving events moved
        cases taken
        exact .serving action (by simpa using apart) serving events (Serving.step_cases moved)
  | register registration =>
    simp only [Hosting.step] at taken
    split at taken
    · cases taken
    · rename_i serving events moved
      cases taken
      cases Serving.step_cases moved with
      | register _ idle => exact .register registration
  | read number =>
    simp only [Hosting.step] at taken
    split at taken
    · rename_i poll_handle serving events present moved
      cases Serving.step_cases moved with
      | read _ request rest service emitted first taken' =>
        obtain ⟨free, held, _, _, holds⟩ := message_taken taken'
        have there : service.activity.held.isSome = true := by rw [holds]; rfl
        split at taken
        · rename_i own awaiting running
          have parts := Option.some.inj running
          injection parts with same phase
          subst same
          split at taken
          · rename_i params future shared invoked
            cases taken
            obtain ⟨body, converted, accepts, called⟩ := invoke_cases invoked
            have future_eq := congrArg Prod.fst called
            have shared_eq := congrArg Prod.snd called
            dsimp only at future_eq shared_eq
            rw [phase, ← future_eq, ← shared_eq]
            exact .invoked number poll_handle request rest service free there awaiting params converted body accepts
          · rename_i none
            cases taken
            exact .read number request rest service free there fun _ _ => ⟨_, none⟩
        · rename_i other
          cases taken
          exact .read number request rest service free there fun awaiting running =>
            absurd (by rw [running]) (other request awaiting)
    · cases taken
  | run yielded =>
    simp only [Hosting.step] at taken
    split at taken
    · rename_i rest request awaiting suspended running
      cases taken
      exact .run yielded rest request awaiting suspended running
    · cases taken
  | returned =>
    simp only [Hosting.step] at taken
    split at taken
    · rename_i result ready
      split at taken
      · cases taken
      · rename_i serving events moved
        cases taken
        cases Serving.step_cases moved with
        | resume _ call number poll_handle phase current held resumed =>
          have silent : call.phase.response (.returned result) = none := by
            cases call.phase <;> rfl
          rw [silent]
          exact .returned result ready call phase current resumed
    · cases taken

end KrossbarLib
