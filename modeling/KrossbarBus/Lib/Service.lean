import KrossbarBus.Hub.Messages
import KrossbarBus.Collections.Table
import KrossbarBus.Transition.Run

namespace KrossbarLib

open KrossbarHub (Error monitorServiceName)

/-- What a call of `call_fd` resolves to. A stream is one end of a socket pair of the hub. -/
inductive Reply
  | stream (pair : Nat)
  | error (e : Error)
  deriving DecidableEq

/-- The await points of `ClientHandle::hub_connect`. -/
inductive Handshake
  | sending
  | awaiting (message_id : Int)
  | replied (reply : Reply)
  | waitingHub
  deriving DecidableEq

inductive HandlePhase
  | polling
  | reconnecting (handshake : Handshake)
  deriving DecidableEq

structure ClientHandle where
  service_name : String
  rpc : Nat
  outgoing : Bool
  wait_connect : Bool
  phase : HandlePhase
  deriving DecidableEq

/-- The await points of `Service::poll`. An arm that handles a call owns the handle of its client. -/
inductive PollPhase
  | selecting
  | handlingCall (number : Nat) (poll_handle : ClientHandle)
  | settingMonitor
  | registering
  | reconnecting
  deriving DecidableEq

/-- What the owner of a service runs. `connect_impl` polls its handshake and the service. -/
inductive Activity
  | idle
  | polling (phase : PollPhase)
  | connecting (service_name : String) (wait : Bool) (handshake : Handshake) (phase : PollPhase)
  | panicked
  deriving DecidableEq

/-- The handles are numbered. An entry of the map is a clone of the handle's client, which shares its
    `outgoing` flag. `clock` numbers handles and calls. -/
structure Service where
  service_name : String
  client_map : Table String Nat
  client_poll_handles : Table Nat ClientHandle
  reconnect_signal : List (Option Error)
  activity : Activity
  clock : Nat

def Service.new (service_name : String) : Service where
  service_name := service_name
  client_map := .empty
  client_poll_handles := .empty
  reconnect_signal := []
  activity := .idle
  clock := 0

inductive Requester
  | connect
  | handle (number : Nat)
  deriving DecidableEq

inductive HubRequest
  | fd (client_name : String) (stream : Nat)
  | other
  deriving DecidableEq

inductive ServiceAction
  | connect (service_name : String) (wait : Bool)
  | poll
  /-- The caller drops the future of `connect` or `poll`. -/
  | cancel
  | sent (requester : Requester) (ok : Bool)
  /-- `Rpc::poll` of the hub connection resolves a call. -/
  | resolved (message_id : Int) (reply : Reply)
  /-- A call fails with the hub connection. -/
  | callLost (requester : Requester) (e : Error)
  | resumed (requester : Requester)
  | reconnectEvent (requester : Requester)
  | clientMessage (number : Nat)
  | handled
  | streamLost (number : Nat)
  | hubRequest (request : HubRequest)
  | monitorSet
  | hubLost
  | registered (failure : Option Error)
  | reconnected
  | interrupt

inductive ServiceEvent
  | requested (message_id : Int) (service_name : String) (wait : Bool)
  | adopted (service_name : String) (pair : Nat)
  | returned (client : Nat)
  | refused (e : Error)
  | accepted (service_name : String) (pair : Nat)
  | monitored (service_name : String) (pair : Nat)
  | discarded (service_name : String) (pair : Nat)
  | disconnected (service_name : String)
  deriving DecidableEq

def Activity.pollPhase : Activity → Option PollPhase
  | .polling phase => some phase
  | .connecting _ _ _ phase => some phase
  | _ => none

def Activity.withPhase (phase : PollPhase) : Activity → Activity
  | .polling _ => .polling phase
  | .connecting service_name wait handshake _ => .connecting service_name wait handshake phase
  | other => other

/-- `Service::poll` returns. Inside `connect_impl` this is the arm that panics. -/
def Activity.pollReturns : Activity → Activity
  | .polling _ => .idle
  | .connecting .. => .panicked
  | other => other

def Service.inPhase (service : Service) (phase : PollPhase) : Service :=
  { service with activity := service.activity.withPhase phase }

def Service.pollReturns (service : Service) : Service :=
  { service with activity := service.activity.pollReturns }

def Service.setHandle (service : Service) (number : Nat) (poll_handle : ClientHandle) : Service :=
  { service with client_poll_handles := service.client_poll_handles.insert number poll_handle }

def Service.disconnect (service : Service) (number : Nat) (service_name : String) :
    Service × List ServiceEvent :=
  ({ service with
    client_map := service.client_map.remove service_name
    client_poll_handles := service.client_poll_handles.remove number }.pollReturns,
    [.disconnected service_name])

def Activity.handshake : Activity → Option (String × Bool × Handshake)
  | .connecting service_name wait handshake _ => some (service_name, wait, handshake)
  | _ => none

def ClientHandle.handshake (poll_handle : ClientHandle) : Option (String × Bool × Handshake) :=
  match poll_handle.phase with
  | .polling => none
  | .reconnecting handshake => some (poll_handle.service_name, poll_handle.wait_connect, handshake)

def Service.handshake (service : Service) : Requester → Option (String × Bool × Handshake)
  | .connect => service.activity.handshake
  | .handle number => (service.client_poll_handles.get number).bind ClientHandle.handshake

/-- The futures of the handles are polled only by the select of `Service::poll`. -/
def Service.runs (service : Service) : Requester → Bool
  | .connect => true
  | .handle _ => service.activity.pollPhase == some .selecting

def Service.setHandshake (service : Service) (handshake : Handshake) : Requester → Service
  | .connect =>
    match service.activity with
    | .connecting service_name wait _ phase =>
      { service with activity := .connecting service_name wait handshake phase }
    | _ => service
  | .handle number =>
    match service.client_poll_handles.get number with
    | some poll_handle => service.setHandle number { poll_handle with phase := .reconnecting handshake }
    | none => service

def Service.awaiter (service : Service) (message_id : Int) : Option Requester :=
  (Requester.connect :: (List.range service.clock).map .handle).find? fun requester =>
    (service.handshake requester).any fun (_, _, handshake) => handshake == .awaiting message_id

def Service.addClient (service : Service) (service_name : String) (stream : Nat)
    (outgoing wait_connect : Bool) : Service :=
  { service with
    client_map := service.client_map.insert service_name service.clock
    client_poll_handles := service.client_poll_handles.insert service.clock
      ⟨service_name, stream, outgoing, wait_connect, .polling⟩
    clock := service.clock + 1 }

/-- `hub_connect` returns, to `connect_impl` or to `ClientHandle::poll`. When `connect_impl` returns it
    drops the future of `self.poll()`. -/
def Service.finish (service : Service) (requester : Requester) (service_name : String) (wait : Bool) :
    Reply → Option (Service × List ServiceEvent)
  | .stream pair =>
    match requester with
    | .connect => some ({ service.addClient service_name pair true wait with activity := .idle },
        [.adopted service_name pair, .returned service.clock])
    | .handle number =>
      match service.client_poll_handles.get number with
      | none => none
      | some poll_handle => some (service.setHandle number { poll_handle with rpc := pair, phase := .polling },
          [.adopted service_name pair])
  | .error e =>
    match requester with
    | .connect => some ({ service with activity := .idle }, [.refused e])
    | .handle number => some (service.disconnect number service_name)

def Service.handleNewConnection (monitor : Bool) (service : Service) :
    HubRequest → Service × List ServiceEvent
  | .other => (service.pollReturns, [])
  | .fd client_name stream =>
    if monitor && client_name == monitorServiceName then
      (service.inPhase .settingMonitor, [.monitored client_name stream])
    else if service.client_map.containsKey client_name then
      (service.pollReturns, [.discarded client_name stream])
    else ((service.addClient client_name stream false false).pollReturns, [.accepted client_name stream])

/-- One step of a service, from one await to the next. `monitor` is the feature of that name. -/
def Service.step (monitor : Bool) : Transition.Step Service ServiceAction ServiceEvent
  | service, .connect service_name wait =>
    if service.activity ≠ .idle then none
    else match service.client_map.get service_name with
      | some number =>
        match service.client_poll_handles.get number with
        | some poll_handle =>
          some (service.setHandle number { poll_handle with outgoing := true }, [.returned number])
        | none => some (service, [.returned number])
      | none => some ({ service with activity := .connecting service_name wait .sending .selecting }, [])
  | service, .poll =>
    if service.activity ≠ .idle then none
    else some ({ service with activity := .polling .selecting }, [])
  | service, .cancel =>
    match service.activity with
    | .polling _ | .connecting .. => some ({ service with activity := .idle }, [])
    | _ => none
  | service, .sent requester ok =>
    if !service.runs requester then none
    else match service.handshake requester with
      | some (service_name, wait, .sending) =>
        if ok then
          some ({ service.setHandshake (.awaiting service.clock) requester with clock := service.clock + 1 },
            [.requested service.clock service_name wait])
        else some (service.setHandshake .waitingHub requester, [])
      | _ => none
  | service, .resolved message_id reply =>
    if service.activity.pollPhase ≠ some .selecting then none
    else match service.awaiter message_id with
      | some requester => some (service.setHandshake (.replied reply) requester, [])
      | none => some (service, [])
  | service, .callLost requester e =>
    match service.handshake requester with
    | some (_, _, .awaiting _) => some (service.setHandshake (.replied (.error e)) requester, [])
    | _ => none
  | service, .resumed requester =>
    if !service.runs requester then none
    else match service.handshake requester with
      | some (service_name, wait, .replied reply) => service.finish requester service_name wait reply
      | _ => none
  | service, .reconnectEvent requester =>
    if !service.runs requester then none
    else match service.handshake requester, service.reconnect_signal with
      | some (_, _, .waitingHub), none :: rest =>
        some ({ service.setHandshake .sending requester with reconnect_signal := rest }, [])
      | some (service_name, wait, .waitingHub), some e :: rest =>
        { service with reconnect_signal := rest }.finish requester service_name wait (.error e)
      | _, _ => none
  | service, .clientMessage number =>
    if service.activity.pollPhase ≠ some .selecting then none
    else match service.client_poll_handles.get number with
      | some poll_handle =>
        if poll_handle.phase ≠ .polling then none
        else some ({ service with client_poll_handles := service.client_poll_handles.remove number }.inPhase
          (.handlingCall number poll_handle), [])
      | none => none
  | service, .handled =>
    match service.activity.pollPhase with
    | some (.handlingCall number poll_handle) =>
      some ((service.setHandle number { poll_handle with phase := .polling }).pollReturns, [])
    | _ => none
  | service, .streamLost number =>
    if service.activity.pollPhase ≠ some .selecting then none
    else match service.client_poll_handles.get number with
      | some poll_handle =>
        if poll_handle.phase ≠ .polling then none
        else if poll_handle.outgoing then
          some (service.setHandle number { poll_handle with phase := .reconnecting .sending }, [])
        else some (service.disconnect number poll_handle.service_name)
      | none => none
  | service, .hubRequest request =>
    if service.activity.pollPhase ≠ some .selecting then none
    else some (service.handleNewConnection monitor request)
  | service, .monitorSet =>
    if service.activity.pollPhase ≠ some .settingMonitor then none else some (service.pollReturns, [])
  | service, .hubLost =>
    if service.activity.pollPhase ≠ some .selecting then none else some (service.inPhase .registering, [])
  | service, .registered none =>
    if service.activity.pollPhase ≠ some .registering then none
    else some (service.inPhase .reconnecting, [])
  | service, .registered (some e) =>
    if service.activity.pollPhase ≠ some .registering then none
    else some ({ service with reconnect_signal := service.reconnect_signal ++ [some e] }.pollReturns, [])
  | service, .reconnected =>
    if service.activity.pollPhase ≠ some .reconnecting then none
    else some ({ service with reconnect_signal := service.reconnect_signal ++ [none] }.pollReturns, [])
  | service, .interrupt =>
    if service.activity.pollPhase ≠ some .selecting then none else some (service.pollReturns, [])

end KrossbarLib
