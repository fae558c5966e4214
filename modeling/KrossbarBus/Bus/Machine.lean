import KrossbarBus.Hub.Machine
import KrossbarBus.Lib.Service

namespace KrossbarBus

open KrossbarHub KrossbarLib

inductive Delivery
  | response (message_id : Int) (response : Response)
  | connectionRequest (initiator : String) (pair : Nat)
  deriving DecidableEq

/-- A process with one service. The service is there when `Service::new` has got its answer. `joining`
    is the connection on which `Service::poll` registers again. -/
structure Process where
  service_name : String
  monitor : Bool
  service : Option Service
  hub_connection : Conn
  joining : Option Conn

/-- The hub and the processes. A connection is owned by the process that has opened it, which
    registers under its own name. -/
structure Bus where
  hub : Hub
  processes : Table Nat Process
  owners : Table Conn (Nat × String)
  toHub : Conn → List Message
  fromHub : Conn → List Delivery
  clock : Nat

def Bus.new (additional_service_dirs : List OsString) (files : FileSystem) : Bus where
  hub := .new additional_service_dirs files
  processes := .empty
  owners := .empty
  toHub _ := []
  fromHub _ := []
  clock := 0

inductive BusAction
  | start (service_name : String) (monitor : Bool) (credentials : UCred) (message_id : Int)
  | registered (pid : Nat)
  | exit (pid : Nat)
  | service (pid : Nat) (action : ServiceAction)
  | deliver (pid : Nat)
  | rejoin (pid : Nat) (credentials : UCred) (message_id : Int)
  | rejoined (pid : Nat)
  | rejoinFailed (pid : Nat) (e : Error)
  | receive (conn : Conn)
  | hub (action : Action)

inductive BusEvent
  | hub (event : Event)
  | service (pid : Nat) (event : ServiceEvent)
  deriving DecidableEq

def callMessage : ServiceEvent → Option Message
  | .requested message_id service_name wait =>
    some ⟨message_id, hubConnectMethod, .call (.ok (.connect service_name wait))⟩
  | _ => none

def delivery (conn : Conn) : Event → Option Delivery
  | .responded request response =>
    if request.writer = conn then some (.response request.message_id response) else none
  | .connectionRequest writer initiator _ pair _ =>
    if writer = conn then some (.connectionRequest initiator pair) else none
  | _ => none

/-- How a service takes what it reads. Only registrations are answered without a stream or an error. -/
def Delivery.action : Delivery → Option ServiceAction
  | .response message_id (.fd pair) => some (.resolved message_id (.stream pair))
  | .response message_id (.err e) => some (.resolved message_id (.error e))
  | .response _ .ok => none
  | .connectionRequest initiator pair => some (.hubRequest (.fd initiator pair))

def ownHubAction : Action → Bool
  | .accept _ => false
  | .task _ (.polled (some _)) => false
  | _ => true

def ownServiceAction : ServiceAction → Bool
  | .resolved .. => false
  | .hubRequest _ => false
  | .registered _ => false
  | _ => true

def Bus.send (bus : Bus) (conn : Conn) (messages : List Message) : Bus :=
  { bus with toHub := Function.update bus.toHub conn (bus.toHub conn ++ messages) }

def Bus.taken (bus : Bus) (conn : Conn) (rest : List Delivery) : Bus :=
  { bus with fromHub := Function.update bus.fromHub conn rest }

def Bus.setProcess (bus : Bus) (pid : Nat) (process : Process) : Bus :=
  { bus with processes := bus.processes.insert pid process }

def Bus.hubStep (env : HubEnvironment) (bus : Bus) (action : Action) : Option (Bus × List BusEvent) :=
  match KrossbarHub.step env bus.hub action with
  | none => none
  | some (hub, out) => some ({ bus with
      hub := hub
      fromHub := fun conn => bus.fromHub conn ++ out.filterMap (delivery conn) }, out.map .hub)

def Bus.serviceStep (bus : Bus) (pid : Nat) (process : Process) (service : Service)
    (action : ServiceAction) : Option (Bus × List BusEvent) :=
  match Service.step process.monitor service action with
  | none => none
  | some (after, out) =>
    some ((bus.setProcess pid { process with service := some after }).send process.hub_connection
      (out.filterMap callMessage), out.map (.service pid))

/-- `Service::hub_connect` up to the answer: a new connection with a registration on it. -/
def Bus.hubConnect (env : HubEnvironment) (bus : Bus) (pid : Nat) (service_name : String)
    (credentials : UCred) (message_id : Int) : Option (Bus × List BusEvent) :=
  match bus.hubStep env (.accept (some credentials)) with
  | none => none
  | some (after, out) =>
    some ({ after with owners := after.owners.insert bus.hub.clock (pid, service_name) }.send bus.hub.clock
      [⟨message_id, hubRegisterMethod, .call (.ok (.register service_name))⟩], out)

def Bus.step (env : HubEnvironment) : Transition.Step Bus BusAction BusEvent
  | bus, .start service_name monitor credentials message_id =>
    match bus.hubConnect env bus.clock service_name credentials message_id with
    | none => none
    | some (after, out) => some ({ after.setProcess bus.clock
        ⟨service_name, monitor, none, bus.hub.clock, none⟩ with clock := bus.clock + 1 }, out)
  | bus, .registered pid =>
    match bus.processes.get pid with
    | some process =>
      match process.service, bus.fromHub process.hub_connection with
      | none, .response _ .ok :: rest =>
        some ((bus.taken process.hub_connection rest).setProcess pid
          { process with service := some (.new process.service_name) }, [])
      | _, _ => none
    | none => none
  | bus, .exit pid => some ({ bus with processes := bus.processes.remove pid }, [])
  | bus, .service pid action =>
    match bus.processes.get pid with
    | some process =>
      match process.service with
      | some service =>
        if ownServiceAction action then bus.serviceStep pid process service action else none
      | none => none
    | none => none
  | bus, .deliver pid =>
    match bus.processes.get pid with
    | some process =>
      match process.service, bus.fromHub process.hub_connection with
      | some service, next :: rest =>
        match next.action with
        | some action => (bus.taken process.hub_connection rest).serviceStep pid process service action
        | none => some (bus.taken process.hub_connection rest, [])
      | _, _ => none
    | none => none
  | bus, .rejoin pid credentials message_id =>
    match bus.processes.get pid with
    | some process =>
      match process.service with
      | some service =>
        if service.activity.pollPhase ≠ some .registering then none
        else match bus.hubConnect env pid process.service_name credentials message_id with
          | none => none
          | some (after, out) => some (after.setProcess pid { process with joining := some bus.hub.clock }, out)
      | none => none
    | none => none
  | bus, .rejoined pid =>
    match bus.processes.get pid with
    | some process =>
      match process.service, process.joining with
      | some service, some conn =>
        match bus.fromHub conn with
        | .response _ .ok :: rest =>
          (bus.taken conn rest).serviceStep pid { process with hub_connection := conn, joining := none } service
            (.registered none)
        | _ => none
      | _, _ => none
    | none => none
  | bus, .rejoinFailed pid e =>
    match bus.processes.get pid with
    | some process =>
      match process.service with
      | some service => bus.serviceStep pid { process with joining := none } service (.registered (some e))
      | none => none
    | none => none
  | bus, .receive conn =>
    match bus.toHub conn with
    | message :: rest =>
      { bus with toHub := Function.update bus.toHub conn rest }.hubStep env (.task conn (.polled (some message)))
    | [] => none
  | bus, .hub action => if ownHubAction action then bus.hubStep env action else none

/-- A service takes a connection request although its map has an entry for the initiator. -/
def Bus.clashes (bus : Bus) : BusAction → Bool
  | .deliver pid =>
    match bus.processes.get pid with
    | some process =>
      match process.service, bus.fromHub process.hub_connection with
      | some service, .connectionRequest initiator _ :: _ =>
        !(process.monitor && initiator == monitorServiceName) && service.client_map.containsKey initiator
      | _, _ => false
    | none => false
  | _ => false

end KrossbarBus
