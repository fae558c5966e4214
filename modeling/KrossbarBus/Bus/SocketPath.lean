import KrossbarBus.Hub.Permissions
import KrossbarBus.Transition.Run
import KrossbarBus.Collections.Table

namespace KrossbarBus

open KrossbarHub (Error)

/-- How the operating system treats the socket path of the hub. All hubs run as one user. -/
structure SocketEnvironment where
  /-- The directory is there, and a hub may make and remove its entries. -/
  writable : Bool
  umask : Nat
  /-- Whether a service may connect to a file of this mode. -/
  permits : Nat → Nat → Bool

inductive Entry
  /-- A socket, and the hub that bound it if it is one of the run. -/
  | socket (hub : Option Nat) (mode : Nat)
  | file (mode : Nat)
  | directory (mode : Nat)
  deriving DecidableEq

def Entry.mode : Entry → Nat
  | .socket _ mode => mode
  | .file mode => mode
  | .directory mode => mode

def Entry.withMode (mode : Nat) : Entry → Entry
  | .socket hub _ => .socket hub mode
  | .file _ => .file mode
  | .directory _ => .directory mode

/-- The process of a hub from `main` on. -/
inductive HubPhase
  | launched
  | binding
  /-- The first `bind` has failed. -/
  | hanging
  | rebinding
  /-- Bound, with the mode that the umask left. -/
  | bound
  | serving
  /-- The loop is over, and the listener with it. -/
  | returning
  | exited
  | panicked
  | killed
  deriving DecidableEq

def HubPhase.listens : HubPhase → Bool
  | .bound | .serving => true
  | _ => false

def HubPhase.ended : HubPhase → Bool
  | .exited | .panicked | .killed => true
  | _ => false

/-- `Service::hub_connect` up to the connection. -/
inductive Connecting
  | connecting
  | sleeping
  | connected (hub : Nat)
  | failed (e : Error)
  deriving DecidableEq

structure SocketPath where
  entry : Option Entry
  hubs : Table Nat HubPhase
  clock : Nat
  services : Table Nat Connecting

def SocketPath.initial (entry : Option Entry) : SocketPath where
  entry := entry
  hubs := .empty
  clock := 0
  services := .empty

inductive SocketAction
  | launch
  /-- `main` looks for the additional service directories. -/
  | start (hub : Nat) (found : Bool)
  | bind (hub : Nat)
  | removeFile (hub : Nat)
  | setPermissions (hub : Nat)
  | interrupt (hub : Nat)
  | kill (hub : Nat)
  | hubConnect (service : Nat)
  /-- `UnixStream::connect`. A `fault` is an error that has to do neither with the file nor with its mode. -/
  | connect (service : Nat) (fault : Bool)
  | wake (service : Nat)

inductive SocketEvent
  | bound (hub : Nat)
  | removed (hub : Nat)
  | opened (hub : Nat)
  | panicked (hub : Nat)
  | connected (service hub : Nat)
  | refused (service : Nat) (fault : Bool)
  deriving DecidableEq

/-- `bind` makes the file, and fails where there is one. -/
def bindSocket (env : SocketEnvironment) (hub : Nat) : Option Entry → Option Entry
  | none => if env.writable then some (.socket (some hub) (0o777 ^^^ (0o777 &&& env.umask))) else none
  | some _ => none

def removeFile (env : SocketEnvironment) : Option Entry → Option Entry
  | some (.directory mode) => some (.directory mode)
  | entry => if env.writable then none else entry

def SocketPath.moved (path : SocketPath) (hub : Nat) (phase : HubPhase) : SocketPath :=
  { path with hubs := path.hubs.insert hub phase }

def SocketPath.listening (path : SocketPath) (hub : Nat) : Bool :=
  (path.hubs.get hub).any HubPhase.listens

inductive ConnectResult
  | ok (hub : Nat)
  | hubIsDown
  | critical
  deriving DecidableEq

/-- The kinds of error that `Service::hub_connect` tells apart: `NotFound` and `ConnectionRefused`, and any other. -/
def SocketPath.connect (env : SocketEnvironment) (path : SocketPath) (service : Nat) : ConnectResult :=
  match path.entry with
  | none => .hubIsDown
  | some entry =>
    if env.permits service entry.mode then
      match entry with
      | .socket (some hub) _ => if path.listening hub then .ok hub else .hubIsDown
      | _ => .hubIsDown
    else .critical

def SocketPath.step (env : SocketEnvironment) : Transition.Step SocketPath SocketAction SocketEvent
  | path, .launch => some ({ path.moved path.clock .launched with clock := path.clock + 1 }, [])
  | path, .start hub found =>
    match path.hubs.get hub with
    | some .launched => some (path.moved hub (if found then .binding else .exited), [])
    | _ => none
  | path, .bind hub =>
    match path.hubs.get hub with
    | some .binding =>
      match bindSocket env hub path.entry with
      | some entry => some ({ path.moved hub .bound with entry := some entry }, [.bound hub])
      | none => some (path.moved hub .hanging, [])
    | some .rebinding =>
      match bindSocket env hub path.entry with
      | some entry => some ({ path.moved hub .bound with entry := some entry }, [.bound hub])
      | none => some (path.moved hub .panicked, [.panicked hub])
    | _ => none
  | path, .removeFile hub =>
    match path.hubs.get hub with
    | some .hanging =>
      some ({ path.moved hub .rebinding with entry := removeFile env path.entry }, [.removed hub])
    | some .returning =>
      some ({ path.moved hub .exited with entry := removeFile env path.entry }, [.removed hub])
    | _ => none
  | path, .setPermissions hub =>
    match path.hubs.get hub with
    | some .bound =>
      match path.entry with
      | some entry =>
        some ({ path.moved hub .serving with entry := some (entry.withMode 0o666) }, [.opened hub])
      | none => some (path.moved hub .panicked, [.panicked hub])
    | _ => none
  | path, .interrupt hub =>
    match path.hubs.get hub with
    | some .serving => some (path.moved hub .returning, [])
    | _ => none
  | path, .kill hub =>
    match path.hubs.get hub with
    | some phase => if phase.ended then none else some (path.moved hub .killed, [])
    | none => none
  | path, .hubConnect service =>
    match path.services.get service with
    | some .connecting | some .sleeping => none
    | _ => some ({ path with services := path.services.insert service .connecting }, [])
  | path, .connect service fault =>
    match path.services.get service with
    | some .connecting =>
      match if fault then .critical else path.connect env service with
      | .ok hub => some ({ path with services := path.services.insert service (.connected hub) },
          [.connected service hub])
      | .hubIsDown => some ({ path with services := path.services.insert service .sleeping }, [])
      | .critical => some ({ path with services := path.services.insert service (.failed .notAllowed) },
          [.refused service fault])
    | _ => none
  | path, .wake service =>
    match path.services.get service with
    | some .sleeping => some ({ path with services := path.services.insert service .connecting }, [])
    | _ => none

variable {env : SocketEnvironment} {path after : SocketPath} {action : SocketAction} {out : List SocketEvent}

/-- What one step of a hub process does to its phase and to the file. -/
inductive HubMoves (env : SocketEnvironment) (hub : Nat) (entry : Option Entry) :
    HubPhase → HubPhase → Option Entry → List SocketEvent → Prop
  | start (found : Bool) : HubMoves env hub entry .launched (if found then .binding else .exited) entry []
  | bind (before : HubPhase) (made : Entry) (tries : before = .binding ∨ before = .rebinding)
      (free : bindSocket env hub entry = some made) : HubMoves env hub entry before .bound (some made) [.bound hub]
  | taken (none : bindSocket env hub entry = none) : HubMoves env hub entry .binding .hanging entry []
  | blocked (none : bindSocket env hub entry = none) :
      HubMoves env hub entry .rebinding .panicked entry [.panicked hub]
  | remove : HubMoves env hub entry .hanging .rebinding (removeFile env entry) [.removed hub]
  | clean : HubMoves env hub entry .returning .exited (removeFile env entry) [.removed hub]
  | open_ (there : Entry) (found : entry = some there) :
      HubMoves env hub entry .bound .serving (some (there.withMode 0o666)) [.opened hub]
  | gone (none : entry = none) : HubMoves env hub entry .bound .panicked entry [.panicked hub]
  | interrupt : HubMoves env hub entry .serving .returning entry []
  | kill (before : HubPhase) (alive : before.ended = false) : HubMoves env hub entry before .killed entry []

inductive ServiceMoves (env : SocketEnvironment) (path : SocketPath) : Table Nat Connecting → List SocketEvent → Prop
  | silent (services : Table Nat Connecting) : ServiceMoves env path services []
  | connected (service hub : Nat) (ok : path.connect env service = .ok hub) :
      ServiceMoves env path (path.services.insert service (.connected hub)) [.connected service hub]
  | refused (service : Nat) (fault : Bool) (critical : fault = false → path.connect env service = .critical) :
      ServiceMoves env path (path.services.insert service (.failed .notAllowed)) [.refused service fault]

inductive SocketPath.Steps (env : SocketEnvironment) (path : SocketPath) :
    SocketAction → SocketPath → List SocketEvent → Prop
  | launch : SocketPath.Steps env path .launch { path.moved path.clock .launched with clock := path.clock + 1 } []
  | hub (action : SocketAction) (hub : Nat) (before phase : HubPhase) (entry : Option Entry) (out : List SocketEvent)
      (there : path.hubs.get hub = some before) (moves : HubMoves env hub path.entry before phase entry out) :
      SocketPath.Steps env path action { path.moved hub phase with entry := entry } out
  | service (action : SocketAction) (services : Table Nat Connecting) (out : List SocketEvent)
      (moves : ServiceMoves env path services out) :
      SocketPath.Steps env path action { path with services := services } out

theorem SocketPath.step_cases (taken : SocketPath.step env path action = some (after, out)) :
    path.Steps env action after out := by
  cases action with
  | launch =>
    cases taken
    exact .launch
  | start hub found =>
    simp only [SocketPath.step] at taken
    split at taken
    · rename_i there
      cases taken
      exact .hub _ hub _ _ _ _ there (.start found)
    · cases taken
  | bind hub =>
    simp only [SocketPath.step] at taken
    split at taken
    · rename_i there
      split at taken
      · rename_i entry free
        cases taken
        exact .hub _ hub _ _ _ _ there (.bind _ entry (.inl rfl) free)
      · rename_i none
        cases taken
        exact .hub _ hub _ _ _ _ there (.taken none)
    · rename_i there
      split at taken
      · rename_i entry free
        cases taken
        exact .hub _ hub _ _ _ _ there (.bind _ entry (.inr rfl) free)
      · rename_i none
        cases taken
        exact .hub _ hub _ _ _ _ there (.blocked none)
    · cases taken
  | removeFile hub =>
    simp only [SocketPath.step] at taken
    split at taken
    · rename_i there
      cases taken
      exact .hub _ hub _ _ _ _ there .remove
    · rename_i there
      cases taken
      exact .hub _ hub _ _ _ _ there .clean
    · cases taken
  | setPermissions hub =>
    simp only [SocketPath.step] at taken
    split at taken
    · rename_i there
      split at taken
      · rename_i entry found
        cases taken
        exact .hub _ hub _ _ _ _ there (.open_ entry found)
      · rename_i none
        cases taken
        exact .hub _ hub _ _ _ _ there (.gone none)
    · cases taken
  | interrupt hub =>
    simp only [SocketPath.step] at taken
    split at taken
    · rename_i there
      cases taken
      exact .hub _ hub _ _ _ _ there .interrupt
    · cases taken
  | kill hub =>
    simp only [SocketPath.step] at taken
    split at taken
    · rename_i phase there
      split at taken
      · cases taken
      · rename_i alive
        cases taken
        exact .hub _ hub _ _ _ _ there (.kill phase (by simpa using alive))
    · cases taken
  | hubConnect service =>
    simp only [SocketPath.step] at taken
    split at taken
    · cases taken
    · cases taken
    · cases taken
      exact .service _ _ _ (.silent _)
  | connect service fault =>
    simp only [SocketPath.step] at taken
    split at taken
    · split at taken
      · rename_i hub result
        cases taken
        split at result
        · cases result
        · exact .service _ _ _ (.connected service hub result)
      · cases taken
        exact .service _ _ _ (.silent _)
      · rename_i result
        cases taken
        refine .service _ _ _ (.refused service fault fun clean => ?_)
        rw [clean] at result
        exact result
    · cases taken
  | wake service =>
    simp only [SocketPath.step] at taken
    split at taken
    · cases taken
      exact .service _ _ _ (.silent _)
    · cases taken

end KrossbarBus
