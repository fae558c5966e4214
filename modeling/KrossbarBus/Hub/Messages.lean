import KrossbarBus.Hub.Permissions

namespace KrossbarHub

def hubConnectMethod : String := "connect"
def hubRegisterMethod : String := "register"

inductive HubMessage
  | register (service_name : String)
  | connect (service_name : String) (wait : Bool)
  deriving DecidableEq, Repr

inductive Decoded
  | ok (message : HubMessage)
  | error (text : String)
  deriving DecidableEq, Repr

inductive Body
  | call (bson : Decoded)
  | notCall
  deriving DecidableEq, Repr

structure Message where
  message_id : Int
  endpoint : String
  body : Body
  deriving DecidableEq, Repr

/-- Connections are numbered in the order of their arrival. -/
abbrev Conn := Nat

/-- All clones of the writer of a connection write to that connection. -/
abbrev RpcWriter := Conn

/-- A received request. The number tells requests apart, as a peer may repeat its message ids. -/
structure RpcRequest where
  number : Nat
  writer : RpcWriter
  message_id : Int
  endpoint : String
  body : Body
  deriving DecidableEq, Repr

def Message.request (message : Message) (number : Nat) (writer : RpcWriter) : RpcRequest :=
  ⟨number, writer, message.message_id, message.endpoint, message.body⟩

inductive Response
  | ok
  | fd (pair : Nat)
  | err (e : Error)
  deriving DecidableEq, Repr

/-- What a run of the hub makes observable. A send is logged when it begins. -/
inductive Event
  | accepted (conn : Conn) (credentials : UCred)
  /-- The client is the name that the connection has been authorized under before. -/
  | received (client : Option String) (request : RpcRequest)
  | nameChecked (conn : Conn) (credentials : UCred) (service_name : String) (allowed : Bool)
  | registered (service_name : String) (writer : RpcWriter)
  | connectionChecked (request : RpcRequest) (client target : String) (allowed : Bool)
  | queued (target initiator : String) (request : RpcRequest)
  | connectionRequest (writer : RpcWriter) (initiator target : String) (pair : Nat) (request : RpcRequest)
  | responded (request : RpcRequest) (response : Response)
  | removed (service_name : String) (conn : Conn)
  deriving DecidableEq

end KrossbarHub
