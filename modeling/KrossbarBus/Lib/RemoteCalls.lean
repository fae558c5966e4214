import KrossbarBus.Collections.Places
import KrossbarBus.Lib.Invocations
import KrossbarBus.Lib.StreamOrigins
import KrossbarBus.Linearization.Histories

namespace KrossbarLib

open Transition (Run RunWith)

/-- A response under way to its caller. `computed` marks those that a function has made. -/
structure RemoteResponse (Bson : Type) where
  message_id : Int
  result : CallResult Bson
  computed : Bool
  deriving DecidableEq

/-- A service with those who call it: on each stream the requests under way to it and the responses under way
    back. `sent` numbers the requests of a stream. -/
structure Remote (σ κ Bson : Type) where
  hosting : Hosting σ κ Bson
  sent : Nat → Nat
  requests : Nat → List (IncomingRequest Bson)
  responses : Nat → List (RemoteResponse Bson)

inductive RemoteAction (ι Bson : Type)
  | send (rpc : Nat) (endpoint : String) (body : RequestBody Bson)
  | arrive (number : Nat)
  | hosting (action : HostingAction ι Bson)
  | receive (rpc : Nat)
  /-- What is under way on a stream gets lost with it. -/
  | lost (rpc : Nat)

inductive RemoteEvent (Bson : Type)
  | sent (request : IncomingRequest Bson)
  | hosting (event : HostingEvent Bson)
  | returned (rpc : Nat) (response : RemoteResponse Bson)
  deriving DecidableEq

variable {σ ι κ Bson : Type}

def Remote.new (service_name : String) (shared : σ) : Remote σ κ Bson where
  hosting := .new service_name shared
  sent := fun _ => 0
  requests := fun _ => []
  responses := fun _ => []

def HostingAction.arrives : HostingAction ι Bson → Bool
  | .serving (.arrive ..) => true
  | _ => false

/-- The response of `handle_call` goes out, unless its send fails. -/
def HostingAction.delivers : HostingAction ι Bson → Bool
  | .serving (.resume (.responded ok)) => ok
  | _ => true

def HostingEvent.response (rpc : Nat) (computed : Bool) : HostingEvent Bson → Option (RemoteResponse Bson)
  | .serving (.responded _ other message_id result) =>
    if other = rpc then some ⟨message_id, result, computed⟩ else none
  | _ => none

def Remote.step (monitor inspection : Bool) (methods : String → MethodFunction σ ι κ Bson) :
    Transition.Step (Remote σ κ Bson) (RemoteAction ι Bson) (RemoteEvent Bson)
  | remote, .send rpc endpoint body =>
    some ({ remote with
      sent := Function.update remote.sent rpc (remote.sent rpc + 1)
      requests := Function.update remote.requests rpc
        (remote.requests rpc ++ [⟨rpc, remote.sent rpc, endpoint, body⟩]) },
      [.sent ⟨rpc, remote.sent rpc, endpoint, body⟩])
  | remote, .arrive number =>
    match remote.hosting.serving.service.streamOf number with
    | none => none
    | some rpc =>
      match remote.requests rpc with
      | [] => none
      | request :: rest =>
        match remote.hosting.step monitor inspection methods
            (.serving (.arrive number request.message_id request.endpoint request.body)) with
        | none => none
        | some (hosting, out) =>
          some ({ remote with hosting, requests := Function.update remote.requests rpc rest }, out.map .hosting)
  | remote, .hosting action =>
    if action.arrives then none
    else match remote.hosting.step monitor inspection methods action with
      | none => none
      | some (hosting, out) =>
        let responses := fun rpc =>
          remote.responses rpc ++ out.filterMap (HostingEvent.response rpc remote.hosting.future.isSome)
        some ({ remote with hosting, responses := if action.delivers then responses else remote.responses },
          out.map .hosting)
  | remote, .receive rpc =>
    match remote.responses rpc with
    | [] => none
    | response :: rest =>
      some ({ remote with responses := Function.update remote.responses rpc rest }, [.returned rpc response])
  | remote, .lost rpc =>
    some ({ remote with
      requests := Function.update remote.requests rpc []
      responses := Function.update remote.responses rpc [] }, [])

def Hosting.Spares (hosting : Hosting σ κ Bson) : HostingAction ι Bson → Prop
  | .serving action => hosting.serving.Spares action
  | _ => True

def Remote.Spares (remote : Remote σ κ Bson) : RemoteAction ι Bson → Prop
  | .hosting action => remote.hosting.Spares action
  | _ => True

def HostingEvent.ofServing : HostingEvent Bson → Option (ServingEvent Bson)
  | .serving event => some event
  | _ => none

def RemoteEvent.ofHosting : RemoteEvent Bson → Option (HostingEvent Bson)
  | .hosting event => some event
  | _ => none

/-- By stream and by number on it. -/
def IncomingRequest.key (request : IncomingRequest Bson) : Nat × Int := (request.rpc, request.message_id)

variable {monitor inspection : Bool} {methods : String → MethodFunction σ ι κ Bson} {origin : σ}
  {hosting hosted : Hosting σ κ Bson} {remote after : Remote σ κ Bson} {log out : List (RemoteEvent Bson)}
  {events : List (HostingEvent Bson)} {service_name : String}

theorem marked_serving (events : List (ServingEvent Bson)) :
    (events.flatMap hosting.marked).filterMap HostingEvent.ofServing = events := by
  induction events with
  | nil => rfl
  | cons event rest ih =>
    have alone : (hosting.marked event).filterMap HostingEvent.ofServing = [event] := by
      unfold Hosting.marked
      split
      · cases event <;> rfl
      · rfl
    rw [List.flatMap_cons, List.filterMap_append, ih, alone]
    rfl

theorem serving_map (events : List (ServingEvent Bson)) :
    (events.map HostingEvent.serving).filterMap HostingEvent.ofServing = events := by
  rw [List.filterMap_map]
  exact List.filterMap_some

/-- The step of the service that goes with a step of the functions. -/
def Hosting.onServing (methods : String → MethodFunction σ ι κ Bson) (hosting : Hosting σ κ Bson) :
    HostingAction ι Bson → Option (ServingAction Bson)
  | .serving action => some action
  | .register registration => some (.register (registration.withMethod (methods registration.name).params))
  | .read number => some (.read number)
  | .run _ => none
  | .returned =>
    match hosting.future with
    | some (.ready result) => some (.resume (.returned result))
    | _ => none

theorem hosting_moves {action : HostingAction ι Bson}
    (taken : hosting.step monitor inspection methods action = some (hosted, events)) :
    (hosting.onServing methods action = none ∧ hosted.serving = hosting.serving ∧
      events.filterMap HostingEvent.ofServing = []) ∨
    ∃ moves, hosting.onServing methods action = some moves ∧ hosting.serving.step monitor inspection moves =
      some (hosted.serving, events.filterMap HostingEvent.ofServing) := by
  cases action with
  | serving action =>
    simp only [Hosting.step] at taken
    split at taken
    · cases taken
    · split at taken
      · cases taken
      · rename_i serving emitted moved
        cases taken
        have ended : (if hosting.future.isSome && serving.handling.isNone then [HostingEvent.ended action.ending]
            else []).filterMap (@HostingEvent.ofServing Bson) = [] := by
          split <;> rfl
        refine .inr ⟨action, rfl, ?_⟩
        rw [List.filterMap_append, marked_serving, ended, List.append_nil]
        exact moved
  | register registration =>
    simp only [Hosting.step] at taken
    split at taken
    · cases taken
    · rename_i serving emitted moved
      cases taken
      refine .inr ⟨_, rfl, ?_⟩
      rw [serving_map]
      exact moved
  | read number =>
    simp only [Hosting.step] at taken
    split at taken
    · rename_i poll_handle serving emitted present moved
      refine .inr ⟨_, rfl, ?_⟩
      split at taken
      · split at taken
        · cases taken
          rw [List.filterMap_append, serving_map, List.filterMap_cons_none rfl, List.filterMap_nil, List.append_nil]
          exact moved
        · cases taken
          rw [serving_map]
          exact moved
      · cases taken
        rw [serving_map]
        exact moved
    · cases taken
  | run yielded =>
    simp only [Hosting.step] at taken
    split at taken
    · cases taken
      exact .inl ⟨rfl, rfl, rfl⟩
    · cases taken
  | returned =>
    simp only [Hosting.step] at taken
    split at taken
    · rename_i result ready
      split at taken
      · cases taken
      · rename_i serving emitted moved
        cases taken
        refine .inr ⟨.resume (.returned result), by rw [Hosting.onServing, ready], ?_⟩
        rw [serving_map]
        exact moved
    · cases taken

theorem onServing_spares {action : HostingAction ι Bson} {moves : ServingAction Bson} (spares : hosting.Spares action)
    (means : hosting.onServing methods action = some moves) : hosting.serving.Spares moves := by
  cases action with
  | serving action =>
    cases means
    exact spares
  | register registration =>
    cases means
    trivial
  | read number =>
    cases means
    trivial
  | run yielded => cases means
  | returned =>
    simp only [Hosting.onServing] at means
    split at means
    · cases means
      trivial
    · cases means

theorem hosting_serving {action : HostingAction ι Bson} (spares : hosting.Spares action)
    (taken : hosting.step monitor inspection methods action = some (hosted, events)) :
    RunWith (Serving.step monitor inspection) Serving.Spares hosting.serving
      (events.filterMap HostingEvent.ofServing) hosted.serving := by
  rcases hosting_moves taken with ⟨_, same, silent⟩ | ⟨moves, means, moved⟩
  · rw [same, silent]
    exact .start
  · simpa using RunWith.start.next (onServing_spares spares means) moved

theorem hosting_map (events : List (HostingEvent Bson)) :
    (events.map RemoteEvent.hosting).filterMap RemoteEvent.ofHosting = events := by
  rw [List.filterMap_map]
  exact List.filterMap_some

inductive Remote.Steps (monitor inspection : Bool) (methods : String → MethodFunction σ ι κ Bson)
    (remote : Remote σ κ Bson) : RemoteAction ι Bson → Remote σ κ Bson → List (RemoteEvent Bson) → Prop
  | send (rpc : Nat) (endpoint : String) (body : RequestBody Bson) :
      Steps monitor inspection methods remote (.send rpc endpoint body)
        { remote with
          sent := Function.update remote.sent rpc (remote.sent rpc + 1)
          requests := Function.update remote.requests rpc
            (remote.requests rpc ++ [⟨rpc, remote.sent rpc, endpoint, body⟩]) }
        [.sent ⟨rpc, remote.sent rpc, endpoint, body⟩]
  | arrive (number rpc : Nat) (request : IncomingRequest Bson) (rest : List (IncomingRequest Bson))
      (hosting : Hosting σ κ Bson) (events : List (HostingEvent Bson))
      (stream : remote.hosting.serving.service.streamOf number = some rpc)
      (first : remote.requests rpc = request :: rest)
      (taken : remote.hosting.step monitor inspection methods
        (.serving (.arrive number request.message_id request.endpoint request.body)) = some (hosting, events)) :
      Steps monitor inspection methods remote (.arrive number)
        { remote with hosting, requests := Function.update remote.requests rpc rest } (events.map .hosting)
  | hosting (action : HostingAction ι Bson) (hosting : Hosting σ κ Bson) (events : List (HostingEvent Bson))
      (apart : action.arrives = false)
      (taken : remote.hosting.step monitor inspection methods action = some (hosting, events)) :
      Steps monitor inspection methods remote (.hosting action)
        { remote with hosting, responses := if action.delivers then fun rpc => remote.responses rpc ++
            events.filterMap (HostingEvent.response rpc remote.hosting.future.isSome) else remote.responses }
        (events.map .hosting)
  | receive (rpc : Nat) (response : RemoteResponse Bson) (rest : List (RemoteResponse Bson))
      (first : remote.responses rpc = response :: rest) :
      Steps monitor inspection methods remote (.receive rpc)
        { remote with responses := Function.update remote.responses rpc rest } [.returned rpc response]
  | lost (rpc : Nat) :
      Steps monitor inspection methods remote (.lost rpc)
        { remote with
          requests := Function.update remote.requests rpc []
          responses := Function.update remote.responses rpc [] } []

theorem Remote.step_cases {action : RemoteAction ι Bson}
    (taken : remote.step monitor inspection methods action = some (after, out)) :
    remote.Steps monitor inspection methods action after out := by
  cases action with
  | send rpc endpoint body =>
    cases taken
    exact .send rpc endpoint body
  | arrive number =>
    simp only [Remote.step] at taken
    split at taken
    · cases taken
    · rename_i rpc stream
      split at taken
      · cases taken
      · rename_i request rest first
        split at taken
        · cases taken
        · rename_i hosting events moved
          cases taken
          exact .arrive number rpc request rest hosting events stream first moved
  | hosting action =>
    simp only [Remote.step] at taken
    split at taken
    · cases taken
    · rename_i apart
      split at taken
      · cases taken
      · rename_i hosting events moved
        cases taken
        exact .hosting action hosting events (by simpa using apart) moved
  | receive rpc =>
    simp only [Remote.step] at taken
    split at taken
    · cases taken
    · rename_i response rest first
      cases taken
      exact .receive rpc response rest first
  | lost rpc =>
    cases taken
    exact .lost rpc

theorem hosting_run
    (run : RunWith (Remote.step monitor inspection methods) Remote.Spares (.new service_name origin) log remote) :
    RunWith (Hosting.step monitor inspection methods) Hosting.Spares (.new service_name origin)
      (log.filterMap RemoteEvent.ofHosting) remote.hosting := by
  refine run.refine Remote.hosting RemoteEvent.ofHosting fun _ remote action after out _ spares taken => ?_
  have once : ∀ {action : HostingAction ι Bson} {hosting : Hosting σ κ Bson} {events : List (HostingEvent Bson)},
      remote.hosting.Spares action →
      remote.hosting.step monitor inspection methods action = some (hosting, events) →
      RunWith (Hosting.step monitor inspection methods) Hosting.Spares remote.hosting
        ((events.map RemoteEvent.hosting).filterMap RemoteEvent.ofHosting) hosting := by
    intro action hosting events spares taken
    rw [hosting_map]
    simpa using RunWith.start.next spares taken
  cases Remote.step_cases taken with
  | send rpc endpoint body => exact .start
  | arrive number rpc request rest hosting events stream first moved =>
    have spares : remote.hosting.Spares
        (.serving (.arrive number request.message_id request.endpoint request.body) : HostingAction ι Bson) := trivial
    exact once spares moved
  | hosting action hosting events apart moved => exact once spares moved
  | receive rpc response rest first => exact .start
  | lost rpc => exact .start

def servingLog (log : List (RemoteEvent Bson)) : List (ServingEvent Bson) :=
  (log.filterMap RemoteEvent.ofHosting).filterMap HostingEvent.ofServing

theorem serving_run
    (run : RunWith (Remote.step monitor inspection methods) Remote.Spares (.new service_name origin) log remote) :
    RunWith (Serving.step monitor inspection) Serving.Spares (.new service_name) (servingLog log)
      remote.hosting.serving :=
  (hosting_run run).refine Hosting.serving HostingEvent.ofServing fun _ _ _ _ _ _ spares taken =>
    hosting_serving spares taken

end KrossbarLib
