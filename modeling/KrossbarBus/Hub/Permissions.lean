import KrossbarBus.Hub.FileSystem
import KrossbarBus.Hub.ServiceNames

namespace KrossbarHub

inductive Error
  | internalError (message : String)
  | notAllowed
  | alreadyRegistered
  | serviceNotFound
  | peerDisconnected
  | noEndpoint
  | paramsTypeError (message : String)
  | resultTypeError (message : String)
  deriving DecidableEq, Repr

inductive JsonValue
  | null
  | string (value : String)
  | number (text : String)
  | boolean (value : Bool)
  | object (entries : List (String × JsonValue))
  | array (members : List JsonValue)

namespace JsonValue

def hasKey : JsonValue → String → Bool
  | .object entries, key => entries.any (·.1 == key)
  | _, _ => false

def index : JsonValue → String → JsonValue
  | .object entries, key => ((entries.find? (·.1 == key)).map (·.2)).getD .null
  | _, _ => .null

def asStr : JsonValue → Option String
  | .string value => some value
  | _ => none

def isArray : JsonValue → Bool
  | .array _ => true
  | _ => false

def members : JsonValue → List JsonValue
  | .array members => members
  | _ => []

end JsonValue

/-- A compiled glob, known by the texts it matches. -/
abbrev Glob := String → Bool

/-- What the permission checks take from outside the hub: the `json` and `glob` crates, the hash
    orders, and the feature the hub is built with. -/
structure Environment where
  parseJson : String → Option JsonValue
  parseGlob : String → Option Glob
  order : HashOrder
  privilegedServices : Bool

structure UCred where
  pid : Option Int
  deriving DecidableEq, Repr

def allowedExecsKey : String := "exec"
def incomingConnsKey : String := "incoming_connections"
def monitorServiceName : String := "krossbar.monitor"
def connectServiceName : String := "krossbar.connect"
def defaultServiceFilesDir : String := "/etc/krossbar/services/"

structure Permissions where
  service_files_dirs : List OsString

def Permissions.new (additional_service_dirs : List OsString) : Permissions :=
  ⟨osString defaultServiceFilesDir :: additional_service_dirs⟩

def serviceFileName (service_name : String) : OsString := osString (service_name ++ ".service")

def findServiceFile (service_name : String) : List OsString → Access (Option File)
  | [] => pure none
  | dir :: rest => do
    match ← Access.openFile (joinPath dir (serviceFileName service_name)) with
    | some file => pure (some file)
    | none => findServiceFile service_name rest

def serviceFileExists (service_name : String) : List OsString → Access Bool
  | [] => pure false
  | dir :: rest => do
    if ← Access.pathExists (joinPath dir (serviceFileName service_name)) then pure true
    else serviceFileExists service_name rest

def connectionPatterns : List JsonValue → Except Error (List NamePattern)
  | [] => .ok []
  | connection_entry :: rest =>
    match connection_entry.asStr with
    | none => .error .notAllowed
    | some connection_string =>
      match NamePattern.fromString connection_string with
      | .error _ => .error .notAllowed
      | .ok pattern =>
        match connectionPatterns rest with
        | .error e => .error e
        | .ok patterns => .ok (pattern :: patterns)

def anyPatternMatches (order : HashOrder) (client_service : String) : List NamePattern → Option Bool
  | [] => some false
  | pattern :: rest =>
    match pattern.matches order client_service with
    | none => none
    | some (.ok true) => some true
    | some (.error _) => some false
    | some (.ok false) => anyPatternMatches order client_service rest

namespace Permissions

def parseServiceFileJson (env : Environment) (permissions : Permissions) (service_name : String) :
    Access (Except Error JsonValue) := do
  match ← findServiceFile service_name permissions.service_files_dirs with
  | none => pure (.error .serviceNotFound)
  | some file =>
    match file.contents with
    | none => pure (.error .notAllowed)
    | some service_file_string =>
      match env.parseJson service_file_string with
      | none => pure (.error .notAllowed)
      | some value => pure (.ok value)

def readAllowedExecs (env : Environment) (permissions : Permissions) (service_name : String) :
    Access (Except Error Glob) := do
  match ← permissions.parseServiceFileJson env service_name with
  | .error e => pure (.error e)
  | .ok json =>
    if !json.hasKey allowedExecsKey then pure (.error .notAllowed)
    else match (json.index allowedExecsKey).asStr with
      | none => pure (.error .notAllowed)
      | some allowed_execs =>
        match env.parseGlob allowed_execs with
        | none => pure (.error .notAllowed)
        | some glob => pure (.ok glob)

/-- `none` is the panic of `to_str().unwrap()`. -/
def checkServiceNameAllowed (env : Environment) (permissions : Permissions) (user_credentials : UCred)
    (service_name : String) : Access (Option Bool) := do
  match user_credentials.pid with
  | none => pure (some false)
  | some pid =>
    match ← Access.readLink (osString ("/proc/" ++ toString pid ++ "/exe")) with
    | none => pure (some false)
    | some buf =>
      match toStr buf with
      | none => pure none
      | some service_exec =>
        match ← permissions.readAllowedExecs env service_name with
        | .error _ => pure (some false)
        | .ok exec_pattern => pure (some (exec_pattern service_exec))

def checkServiceExists (permissions : Permissions) (target_service : String) : Access Bool :=
  serviceFileExists target_service permissions.service_files_dirs

def isPrivilegedService (env : Environment) (service_name : String) : Bool :=
  env.privilegedServices &&
    (service_name == monitorServiceName || service_name == connectServiceName)

def readAllowedConnections (env : Environment) (permissions : Permissions) (service_name : String) :
    Access (Except Error (List NamePattern)) := do
  match ← permissions.parseServiceFileJson env service_name with
  | .error e => pure (.error e)
  | .ok json =>
    if !json.hasKey incomingConnsKey then pure (.error .notAllowed)
    else if !(json.index incomingConnsKey).isArray then pure (.error .notAllowed)
    else pure (connectionPatterns (json.index incomingConnsKey).members)

/-- `none` is a panic of the name matcher. -/
def checkConnectionAllowed (env : Environment) (permissions : Permissions)
    (client_service target_service : String) : Access (Option Bool) := do
  if isPrivilegedService env client_service then pure (some true)
  else match ← permissions.readAllowedConnections env target_service with
    | .error _ => pure (some false)
    | .ok patterns => pure (anyPatternMatches env.order client_service patterns)

end Permissions

end KrossbarHub
