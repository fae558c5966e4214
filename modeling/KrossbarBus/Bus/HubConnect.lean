import KrossbarBus.Bus.Machine
import KrossbarBus.Hub.Offers
import KrossbarBus.Hub.Responses

namespace KrossbarBus

open KrossbarHub KrossbarLib

/-- `Service::hub_connect` from the call on: it selects between the answer to the call and `Rpc::poll`. -/
inductive HubConnect
  | waiting (registration_response : Option Response)
  | returned
  | failed (e : Error)
  deriving DecidableEq

/-- A service that registers, and what is on the way on its connection. `fromHub` has been written by the
    hub and cannot be read yet. `closed` says that the hub's end is gone, with nothing to follow, `ended` that the
    end of the stream can be read behind what has arrived. -/
structure Registration where
  hub : Hub
  conn : Conn
  message_id : Int
  toHub : List Message
  fromHub : List Delivery
  arrived : List Delivery
  closed : Bool
  ended : Bool
  call : HubConnect

inductive RegistrationAction
  | hub (action : Action)
  | receive
  /-- The hub's end of the connection goes: its task has ended, or the hub has. -/
  | close
  | arrive
  | round
  | poll
  | send (message : Message)

inductive RegistrationEvent
  | hub (event : Event)
  | polled (initiator : String) (pair : Nat)
  deriving DecidableEq

/-- What `Rpc::poll` returns: nothing yet, `Some(request)`, or `None` at the end of the stream. -/
inductive Polled
  | pending
  | request (initiator : String) (pair : Nat)
  | ended
  deriving DecidableEq

/-- `Rpc::poll` over what can be read: it passes the answers on until it has a request or meets the end. -/
def pollRpc (ended : Bool) : List Delivery → List (Int × Response) × Polled × List Delivery
  | [] => ([], if ended then .ended else .pending, [])
  | .response message_id response :: rest =>
    let (responses, polled, unread) := pollRpc ended rest
    ((message_id, response) :: responses, polled, unread)
  | .connectionRequest initiator pair :: rest => ([], .request initiator pair, rest)

def polledEvents : Polled → List RegistrationEvent
  | .request initiator pair => [.polled initiator pair]
  | _ => []

def unexpectedMessage (request : String) : HubConnect :=
  .failed (.internalError ("Unexpected hub message during connection request: " ++ request))

def registrationResult : Response → HubConnect
  | .err e => .failed e
  | _ => .returned

/-- One poll of the select: the answer first, then `Rpc::poll`. -/
def Registration.round (debug : String × Nat → String) (registration : Registration) : Option Registration :=
  match registration.call with
  | .waiting (some response) => some { registration with call := registrationResult response }
  | .waiting none =>
    let (responses, polled, unread) := pollRpc registration.ended registration.arrived
    some { registration with
      arrived := unread
      call := match polled with
        | .request initiator pair => unexpectedMessage ("Some(" ++ debug (initiator, pair) ++ ")")
        | .ended => unexpectedMessage "None"
        | .pending => .waiting (responses.lookup registration.message_id) }
  | _ => none

/-- Nothing is written on a connection whose end is gone. -/
def Registration.hubStep (env : HubEnvironment) (registration : Registration) (action : Action) :
    Option (Registration × List RegistrationEvent) :=
  match KrossbarHub.step env registration.hub action with
  | none => none
  | some (hub, out) =>
    if registration.closed && !(out.filterMap (delivery registration.conn)).isEmpty then none
    else some ({ registration with
      hub := hub
      fromHub := registration.fromHub ++ out.filterMap (delivery registration.conn) }, out.map .hub)

/-- The hub reads a message of the connection. -/
def reads (conn : Conn) : Action → Bool
  | .task reader (.polled (some _)) => reader == conn
  | _ => false

def Registration.step (env : HubEnvironment) (debug : String × Nat → String) :
    Transition.Step Registration RegistrationAction RegistrationEvent
  | registration, .hub action =>
    if reads registration.conn action then none else registration.hubStep env action
  | registration, .receive =>
    match registration.toHub with
    | message :: rest =>
      if registration.closed then none
      else { registration with toHub := rest }.hubStep env (.task registration.conn (.polled (some message)))
    | [] => none
  | registration, .close => if registration.closed then none else some ({ registration with closed := true }, [])
  | registration, .arrive =>
    match registration.fromHub with
    | next :: rest => some ({ registration with
        fromHub := rest
        arrived := registration.arrived ++ [next] }, [])
    | [] => if registration.closed then some ({ registration with ended := true }, []) else none
  | registration, .round =>
    match registration.round debug with
    | some after => some (after, [])
    | none => none
  | registration, .poll =>
    match registration.call with
    | .returned =>
      let (_, polled, unread) := pollRpc registration.ended registration.arrived
      some ({ registration with arrived := unread }, polledEvents polled)
    | _ => none
  | registration, .send message =>
    match registration.call with
    | .returned => some ({ registration with toHub := registration.toHub ++ [message] }, [])
    | _ => none

/-- The service connects to a hub that runs, and calls. -/
def Registration.start (env : HubEnvironment) (hub : Hub) (credentials : UCred) (service_name : String)
    (message_id : Int) : Option (Registration × List Event) :=
  match KrossbarHub.step env hub (.accept (some credentials)) with
  | none => none
  | some (after, out) => some (
    { hub := after
      conn := hub.clock
      message_id := message_id
      toHub := [⟨message_id, hubRegisterMethod, .call (.ok (.register service_name))⟩]
      fromHub := []
      arrived := []
      closed := false
      ended := false
      call := .waiting none }, out)

end KrossbarBus
