import KrossbarBus.Lib.Endpoints
import KrossbarBus.Lib.Clients

namespace KrossbarLib

open KrossbarHub (Error)

variable {Bson : Type}

/-- A request as `Rpc::poll` yields it, with the stream it has come on. -/
structure IncomingRequest (Bson : Type) where
  rpc : Nat
  message_id : Int
  endpoint : String
  body : RequestBody Bson
  deriving DecidableEq

/-- What arrives on a connection: a request, or the response to a call made through it. -/
inductive Frame (Bson : Type)
  | request (request : IncomingRequest Bson)
  | response (id : Nat)
  deriving DecidableEq

def Frame.asRequest : Frame Bson → Option (IncomingRequest Bson)
  | .request incoming => some incoming
  | .response _ => none

inductive CallResult (Bson : Type)
  | value (bson : Bson)
  | inspect (data : InspectData)
  | error (e : Error)
  deriving DecidableEq

/-- The part of a registered method that does not depend on its function: `from_bson` of the parameters,
    with the text of its error. -/
abbrev MethodParams (Bson : Type) := Bson → Option String

/-- The await points of `Endpoints::handle_call`. `awaiting` are the calls of `Client::call` that the function
    of the method has made and whose responses it awaits, each with the handle of its client. -/
inductive CallPhase (Bson : Type)
  | running (awaiting : List (Nat × Nat))
  | readingValue
  | responding (result : CallResult Bson)
  | addingClient
  | done
  deriving DecidableEq

structure HandledCall (Bson : Type) where
  request : IncomingRequest Bson
  phase : CallPhase Bson
  deriving DecidableEq

/-- What the future of `handle_call` is resumed with. -/
inductive CallInput (Bson : Type)
  /-- The function returns; `to_bson` of its result, or the text of its error. -/
  | returned (result : Except String Bson)
  | valueRead (value : Bson)
  | responded (ok : Bool)
  | clientAdded

/-- A service with its endpoints, the frames that have arrived for each of its handles and the call that
    `poll` handles. -/
structure Serving (Bson : Type) where
  service : Service
  endpoints : Endpoints (MethodParams Bson) Nat Nat
  inbox : Nat → List (Frame Bson)
  handling : Option (HandledCall Bson)
  clock : Nat

def Serving.new (service_name : String) : Serving Bson where
  service := .new service_name
  endpoints := .new
  inbox := fun _ => []
  handling := none
  clock := 0

inductive ServingAction (Bson : Type)
  /-- A step of the service that has nothing to do with the requests of its clients. -/
  | service (action : ServiceAction)
  | register (registration : Registration (MethodParams Bson) Nat Nat)
  | arrive (number : Nat) (message_id : Int) (endpoint : String) (body : RequestBody Bson)
  | arriveResponse (number id : Nat)
  /-- `Rpc::poll` of a handle yields a request, which is handed to `handle_call`. -/
  | read (number : Nat)
  /-- `Rpc::poll` of a handle resolves a call. -/
  | deliver (number : Nat)
  /-- The function that runs makes a call through a client of the service. -/
  | call (number : Nat)
  | resume (input : CallInput Bson)
  | complete

inductive ServingEvent (Bson : Type)
  | service (event : ServiceEvent)
  | arrived (number : Nat) (request : IncomingRequest Bson)
  | handed (number : Nat) (request : IncomingRequest Bson)
  | responded (number rpc : Nat) (message_id : Int) (result : CallResult Bson)
  | completed (number : Nat) (request : IncomingRequest Bson)
  | delivered (number id : Nat)
  deriving DecidableEq

/-- `handle_call` up to its first await. -/
def Endpoints.start (inspection : Bool) (endpoints : Endpoints (MethodParams Bson) Nat Nat)
    (request : IncomingRequest Bson) : CallPhase Bson :=
  match endpoints.handleCall inspection request.endpoint request.body with
  | .message method body => if (method body).isSome then .done else .running []
  | .ignored => .done
  | .inspect data => .responding (.inspect data)
  | .call method params =>
    match method params with
    | some text => .responding (.error (.paramsTypeError text))
    | none => .running []
  | .value _ | .addStateClient _ => .readingValue
  | .addClient _ => .addingClient
  | .refused e => .responding (.error e)

def CallResult.ofMethod : Except String Bson → CallResult Bson
  | .ok bson => .value bson
  | .error text => .error (.resultTypeError text)

def HandledCall.resume (call : HandledCall Bson) : CallInput Bson → Option (CallPhase Bson)
  | .returned result =>
    match call.phase, call.request.body with
    | .running _, .message _ => some .done
    | .running _, _ => some (.responding (.ofMethod result))
    | _, _ => none
  | .valueRead value =>
    match call.phase with
    | .readingValue => some (.responding (.value value))
    | _ => none
  | .responded ok =>
    match call.phase, call.request.body with
    | .responding (.value _), .subscription => some (if ok then .addingClient else .done)
    | .responding _, _ => some .done
    | _, _ => none
  | .clientAdded =>
    match call.phase with
    | .addingClient => some .done
    | _ => none

def CallPhase.response : CallPhase Bson → CallInput Bson → Option (CallResult Bson)
  | .responding result, .responded _ => some result
  | _, _ => none

def Serving.setInbox (serving : Serving Bson) (number : Nat) (frames : List (Frame Bson)) : Serving Bson :=
  { serving with inbox := fun other => if other = number then frames else serving.inbox other }

def Serving.receive (serving : Serving Bson) (number : Nat) (frame : Frame Bson) : Serving Bson :=
  serving.setInbox number (serving.inbox number ++ [frame])

/-- The stream of a handle, unless it waits for another one. -/
def Service.streamOf (service : Service) (number : Nat) : Option Nat :=
  (service.handleOf number).bind fun poll_handle =>
    if poll_handle.phase = .polling then some poll_handle.rpc else none

/-- The future of a handle is in `Rpc::poll`, and `Service::poll` polls it. -/
def Service.pollsRpc (service : Service) (number : Nat) : Bool :=
  service.activity.pollPhase == some .selecting &&
    (service.client_poll_handles.get number).any fun poll_handle => poll_handle.phase == .polling

/-- These steps of the service belong to `read` and `complete`. -/
def ServiceAction.servesCall : ServiceAction → Bool
  | .clientMessage _ | .handled => true
  | _ => false

/-- `Rpc::poll` yields everything that has come on a stream before it reports the stream's end. -/
def Serving.drained (serving : Serving Bson) : ServiceAction → Bool
  | .streamLost number => (serving.inbox number).isEmpty
  | _ => true

/-- The function gets the response if it awaits it. -/
def HandledCall.hear (call : HandledCall Bson) (number id : Nat) : HandledCall Bson :=
  match call.phase with
  | .running awaiting => ⟨call.request, .running (awaiting.filter (· != (number, id)))⟩
  | _ => call

def Serving.step (monitor inspection : Bool) :
    Transition.Step (Serving Bson) (ServingAction Bson) (ServingEvent Bson)
  | serving, .service action =>
    if action.servesCall || !serving.drained action then none
    else match Service.step monitor serving.service action with
      | some (service, out) => some
        ({ serving with service, handling := if service.activity.held.isSome then serving.handling else none },
          out.map .service)
      | none => none
  | serving, .register registration =>
    if serving.service.activity ≠ .idle then none
    else some ({ serving with
      endpoints := (serving.endpoints.register registration).toOption.getD serving.endpoints }, [])
  | serving, .arrive number message_id endpoint body =>
    match serving.service.streamOf number with
    | some rpc =>
      some (serving.receive number (.request ⟨rpc, message_id, endpoint, body⟩),
        [.arrived number ⟨rpc, message_id, endpoint, body⟩])
    | none => none
  | serving, .arriveResponse number id =>
    match serving.service.streamOf number with
    | some _ => some (serving.receive number (.response id), [])
    | none => none
  | serving, .read number =>
    match serving.inbox number, Service.step monitor serving.service (.clientMessage number) with
    | .request request :: rest, some (service, _) =>
      some ({ serving.setInbox number rest with
        service
        handling := some ⟨request, serving.endpoints.start inspection request⟩ }, [.handed number request])
    | _, _ => none
  | serving, .deliver number =>
    match serving.inbox number with
    | .response id :: rest =>
      if serving.service.pollsRpc number then
        some ({ serving.setInbox number rest with
          handling := serving.handling.map fun call => call.hear number id }, [.delivered number id])
      else none
    | _ => none
  | serving, .call number =>
    match serving.handling with
    | some ⟨request, .running awaiting⟩ =>
      if (serving.service.handleOf number).isSome then
        some ({ serving with
          handling := some ⟨request, .running (awaiting ++ [(number, serving.clock)])⟩
          clock := serving.clock + 1 }, [])
      else none
    | _ => none
  | serving, .resume input =>
    match serving.handling, serving.service.activity.held with
    | some call, some (number, poll_handle) =>
      match call.resume input with
      | some phase =>
        some ({ serving with handling := some ⟨call.request, phase⟩ },
          ((call.phase.response input).map (.responded number poll_handle.rpc call.request.message_id)).toList)
      | none => none
    | _, _ => none
  | serving, .complete =>
    match serving.handling, serving.service.activity.held, Service.step monitor serving.service .handled with
    | some ⟨request, .done⟩, some (number, _), some (service, _) =>
      some ({ serving with service, handling := none }, [.completed number request])
    | _, _, _ => none

variable {monitor inspection : Bool} {serving after : Serving Bson} {action : ServingAction Bson}
  {out : List (ServingEvent Bson)}

inductive Serving.Steps (monitor inspection : Bool) (serving : Serving Bson) :
    ServingAction Bson → Serving Bson → List (ServingEvent Bson) → Prop
  | service (action : ServiceAction) (service : Service) (out : List ServiceEvent)
      (apart : action.servesCall = false) (drained : serving.drained action = true)
      (taken : Service.step monitor serving.service action = some (service, out)) :
      Steps monitor inspection serving (.service action)
        { serving with service, handling := if service.activity.held.isSome then serving.handling else none }
        (out.map .service)
  | register (registration : Registration (MethodParams Bson) Nat Nat) (idle : serving.service.activity = .idle) :
      Steps monitor inspection serving (.register registration)
        { serving with endpoints := (serving.endpoints.register registration).toOption.getD serving.endpoints } []
  | arrive (number rpc : Nat) (message_id : Int) (endpoint : String) (body : RequestBody Bson)
      (stream : serving.service.streamOf number = some rpc) :
      Steps monitor inspection serving (.arrive number message_id endpoint body)
        (serving.receive number (.request ⟨rpc, message_id, endpoint, body⟩))
        [.arrived number ⟨rpc, message_id, endpoint, body⟩]
  | arriveResponse (number rpc id : Nat) (stream : serving.service.streamOf number = some rpc) :
      Steps monitor inspection serving (.arriveResponse number id) (serving.receive number (.response id)) []
  | read (number : Nat) (request : IncomingRequest Bson) (rest : List (Frame Bson)) (service : Service)
      (out : List ServiceEvent) (first : serving.inbox number = .request request :: rest)
      (taken : Service.step monitor serving.service (.clientMessage number) = some (service, out)) :
      Steps monitor inspection serving (.read number)
        { serving.setInbox number rest with
          service
          handling := some ⟨request, serving.endpoints.start inspection request⟩ } [.handed number request]
  | deliver (number id : Nat) (rest : List (Frame Bson)) (first : serving.inbox number = .response id :: rest)
      (polls : serving.service.pollsRpc number = true) :
      Steps monitor inspection serving (.deliver number)
        { serving.setInbox number rest with
          handling := serving.handling.map fun call => call.hear number id } [.delivered number id]
  | call (number : Nat) (request : IncomingRequest Bson) (awaiting : List (Nat × Nat))
      (running : serving.handling = some ⟨request, .running awaiting⟩) :
      Steps monitor inspection serving (.call number)
        { serving with
          handling := some ⟨request, .running (awaiting ++ [(number, serving.clock)])⟩
          clock := serving.clock + 1 } []
  | resume (input : CallInput Bson) (call : HandledCall Bson) (number : Nat) (poll_handle : ClientHandle)
      (phase : CallPhase Bson) (current : serving.handling = some call)
      (held : serving.service.activity.held = some (number, poll_handle)) (resumed : call.resume input = some phase) :
      Steps monitor inspection serving (.resume input) { serving with handling := some ⟨call.request, phase⟩ }
        ((call.phase.response input).map (.responded number poll_handle.rpc call.request.message_id)).toList
  | complete (request : IncomingRequest Bson) (number : Nat) (poll_handle : ClientHandle) (service : Service)
      (out : List ServiceEvent) (current : serving.handling = some ⟨request, .done⟩)
      (held : serving.service.activity.held = some (number, poll_handle))
      (taken : Service.step monitor serving.service .handled = some (service, out)) :
      Steps monitor inspection serving .complete { serving with service, handling := none }
        [.completed number request]

theorem Serving.step_cases (taken : Serving.step monitor inspection serving action = some (after, out)) :
    serving.Steps monitor inspection action after out := by
  cases action with
  | service action =>
    simp only [Serving.step] at taken
    split at taken
    · cases taken
    · rename_i allowed
      simp only [Bool.or_eq_true, Bool.not_eq_true', not_or, Bool.not_eq_true, Bool.not_eq_false] at allowed
      split at taken
      · rename_i service events moved
        cases taken
        exact .service action service events allowed.1 allowed.2 moved
      · cases taken
  | register registration =>
    simp only [Serving.step] at taken
    split at taken
    · cases taken
    · rename_i idle
      cases taken
      exact .register registration (not_not.mp idle)
  | arrive number message_id endpoint body =>
    simp only [Serving.step] at taken
    split at taken
    · rename_i rpc stream
      cases taken
      exact .arrive number rpc message_id endpoint body stream
    · cases taken
  | arriveResponse number id =>
    simp only [Serving.step] at taken
    split at taken
    · rename_i rpc stream
      cases taken
      exact .arriveResponse number rpc id stream
    · cases taken
  | read number =>
    simp only [Serving.step] at taken
    split at taken
    · rename_i request rest service events first moved
      cases taken
      exact .read number request rest service events first moved
    · cases taken
  | deliver number =>
    simp only [Serving.step] at taken
    split at taken
    · rename_i id rest first
      split at taken
      · rename_i polls
        cases taken
        exact .deliver number id rest first polls
      · cases taken
    · cases taken
  | call number =>
    simp only [Serving.step] at taken
    split at taken
    · rename_i request awaiting running
      split at taken
      · cases taken
        exact .call number request awaiting running
      · cases taken
    · cases taken
  | resume input =>
    simp only [Serving.step] at taken
    split at taken
    · rename_i call number poll_handle current held
      split at taken
      · rename_i phase resumed
        cases taken
        exact .resume input call number poll_handle phase current held resumed
      · cases taken
    · cases taken
  | complete =>
    simp only [Serving.step] at taken
    split at taken
    · rename_i request number poll_handle service events current held moved
      cases taken
      exact .complete request number poll_handle service events current held moved
    · cases taken

end KrossbarLib
