import KrossbarBus.Collections.Table
import KrossbarBus.Transition.Run

namespace KrossbarLib

abbrev RpcWriter := Nat

structure Subscriber where
  sub_id : Int
  writer : RpcWriter
  deriving DecidableEq

/-- The await points of the futures of a state: `Handle::add_client` and `State::set`. -/
inductive StatePhase (Bson : Type)
  | addValue (client : Subscriber)
  | addRespond (client : Subscriber) (response : Bson)
  | addPush (client : Subscriber) (response : Bson)
  | setFailed (text : String)
  | setValue (value_bson : Bson)
  | setClients
  | setRespond (client : Subscriber) (remaining kept : List Subscriber)
  | finished
  deriving DecidableEq

/-- A registered state. Its futures are numbered by the calls that made them. -/
structure State (T Bson : Type) where
  clients : List Subscriber
  value : T
  current_value : Bson
  clientsLock : Option Nat
  valueLock : Option Nat
  tasks : Table Nat (StatePhase Bson)
  clock : Nat

variable {T Bson : Type}

def State.new (toBson : T → Except String Bson) (value : T) : Except String (State T Bson) :=
  match toBson value with
  | .ok bson => .ok
    { clients := []
      value := value
      current_value := bson
      clientsLock := none
      valueLock := none
      tasks := .empty
      clock := 0 }
  | .error text => .error text

inductive StateInput
  | polled
  | locked
  | responded (ok : Bool)
  deriving DecidableEq

inductive StateAction (T : Type)
  | addClient (client : Subscriber)
  | set (value : T)
  | run (call : Nat) (input : StateInput)

inductive StateEvent (Bson : Type)
  | delivered (client : Subscriber) (value : Bson)
  deriving DecidableEq

def State.goto (state : State T Bson) (call : Nat) (phase : StatePhase Bson) : State T Bson :=
  { state with tasks := state.tasks.insert call phase }

def State.begin (state : State T Bson) (phase : StatePhase Bson) : State T Bson :=
  { state with tasks := state.tasks.insert state.clock phase, clock := state.clock + 1 }

/-- The stream of `State::set` goes on to the next drained client. When all are through, the list gets
    those who are left, and both guards are dropped. -/
def State.broadcast (state : State T Bson) (call : Nat) (kept : List Subscriber) :
    List Subscriber → State T Bson
  | [] => { state with
      clients := kept
      clientsLock := none
      valueLock := none
      tasks := state.tasks.insert call .finished }
  | client :: remaining => { state with
      clients := []
      clientsLock := some call
      tasks := state.tasks.insert call (.setRespond client remaining kept) }

/-- A future runs from one await to the next. -/
def State.resume (state : State T Bson) (call : Nat) :
    StatePhase Bson → StateInput → Option (State T Bson × List (StateEvent Bson))
  | .addValue client, .locked =>
    if state.valueLock ≠ none then none
    else some (state.goto call (.addRespond client state.current_value), [])
  | .addRespond client response, .responded true =>
    some (state.goto call (.addPush client response), [.delivered client response])
  | .addRespond _ _, .responded false => some (state.goto call .finished, [])
  | .addPush client _, .locked =>
    if state.clientsLock ≠ none then none
    else some ({ state.goto call .finished with clients := state.clients ++ [client] }, [])
  | .setFailed _, .polled => some (state.goto call .finished, [])
  | .setValue value_bson, .locked =>
    if state.valueLock ≠ none then none
    else some ({ state.goto call .setClients with current_value := value_bson, valueLock := some call }, [])
  | .setClients, .locked =>
    if state.clientsLock ≠ none then none
    else some (state.broadcast call [] state.clients, [])
  | .setRespond client remaining kept, .responded true =>
    some (state.broadcast call (kept ++ [client]) remaining, [.delivered client state.current_value])
  | .setRespond _ remaining kept, .responded false => some (state.broadcast call kept remaining, [])
  | _, _ => none

def State.step (toBson : T → Except String Bson) :
    Transition.Step (State T Bson) (StateAction T) (StateEvent Bson)
  | state, .addClient client => some (state.begin (.addValue client), [])
  | state, .set value =>
    match toBson value with
    | .ok value_bson => some ({ state with value }.begin (.setValue value_bson), [])
    | .error text => some ({ state with value }.begin (.setFailed text), [])
  | state, .run call input =>
    match state.tasks.get call with
    | none => none
    | some phase => state.resume call phase input

inductive State.Resumes (state : State T Bson) (call : Nat) :
    StatePhase Bson → StateInput → State T Bson → List (StateEvent Bson) → Prop
  | valueRead (client : Subscriber) (free : state.valueLock = none) :
      Resumes state call (.addValue client) .locked
        (state.goto call (.addRespond client state.current_value)) []
  | valueSent (client : Subscriber) (response : Bson) :
      Resumes state call (.addRespond client response) (.responded true)
        (state.goto call (.addPush client response)) [.delivered client response]
  | valueRefused (client : Subscriber) (response : Bson) :
      Resumes state call (.addRespond client response) (.responded false) (state.goto call .finished) []
  | pushed (client : Subscriber) (response : Bson) (free : state.clientsLock = none) :
      Resumes state call (.addPush client response) .locked
        { state.goto call .finished with clients := state.clients ++ [client] } []
  | setRefused (text : String) :
      Resumes state call (.setFailed text) .polled (state.goto call .finished) []
  | valueWritten (value_bson : Bson) (free : state.valueLock = none) :
      Resumes state call (.setValue value_bson) .locked
        { state.goto call .setClients with current_value := value_bson, valueLock := some call } []
  | drained (free : state.clientsLock = none) :
      Resumes state call .setClients .locked (state.broadcast call [] state.clients) []
  | updated (client : Subscriber) (remaining kept : List Subscriber) :
      Resumes state call (.setRespond client remaining kept) (.responded true)
        (state.broadcast call (kept ++ [client]) remaining) [.delivered client state.current_value]
  | dropped (client : Subscriber) (remaining kept : List Subscriber) :
      Resumes state call (.setRespond client remaining kept) (.responded false)
        (state.broadcast call kept remaining) []

theorem State.resume_cases {state after : State T Bson} {call : Nat} {phase : StatePhase Bson}
    {input : StateInput} {out : List (StateEvent Bson)}
    (resumed : state.resume call phase input = some (after, out)) :
    state.Resumes call phase input after out := by
  unfold State.resume at resumed
  split at resumed
  · split at resumed
    · cases resumed
    · rename_i held
      cases resumed
      exact .valueRead _ (not_not.mp held)
  · cases resumed
    exact .valueSent _ _
  · cases resumed
    exact .valueRefused _ _
  · split at resumed
    · cases resumed
    · rename_i held
      cases resumed
      exact .pushed _ _ (not_not.mp held)
  · cases resumed
    exact .setRefused _
  · split at resumed
    · cases resumed
    · rename_i held
      cases resumed
      exact .valueWritten _ (not_not.mp held)
  · split at resumed
    · cases resumed
    · rename_i held
      cases resumed
      exact .drained (not_not.mp held)
  · cases resumed
    exact .updated _ _ _
  · cases resumed
    exact .dropped _ _ _
  · cases resumed

theorem State.run_cases {toBson : T → Except String Bson} {state after : State T Bson} {call : Nat}
    {input : StateInput} {out : List (StateEvent Bson)}
    (taken : State.step toBson state (.run call input) = some (after, out)) :
    ∃ phase, state.tasks.get call = some phase ∧ state.Resumes call phase input after out := by
  simp only [State.step] at taken
  split at taken
  · cases taken
  · rename_i phase present
    exact ⟨phase, present, State.resume_cases taken⟩

theorem State.step_cases {toBson : T → Except String Bson} {state after : State T Bson}
    {action : StateAction T} {out : List (StateEvent Bson)}
    (taken : State.step toBson state action = some (after, out)) :
    (∃ value phase, after = { state with value }.begin phase ∧ out = [] ∧
      ((∃ client, phase = .addValue client) ∨ (∃ text, phase = .setFailed text) ∨
        ∃ value_bson, phase = .setValue value_bson)) ∨
    ∃ call input phase, action = .run call input ∧ state.tasks.get call = some phase ∧
      state.Resumes call phase input after out := by
  cases action with
  | addClient client =>
    simp only [State.step] at taken
    cases taken
    exact .inl ⟨state.value, .addValue client, rfl, rfl, .inl ⟨client, rfl⟩⟩
  | set value =>
    simp only [State.step] at taken
    split at taken
    · rename_i value_bson _
      cases taken
      exact .inl ⟨value, .setValue value_bson, rfl, rfl, .inr (.inr ⟨value_bson, rfl⟩)⟩
    · rename_i text _
      cases taken
      exact .inl ⟨value, .setFailed text, rfl, rfl, .inr (.inl ⟨text, rfl⟩)⟩
  | run call input =>
    obtain ⟨phase, present, resumes⟩ := State.run_cases taken
    exact .inr ⟨call, input, phase, rfl, present, resumes⟩

def State.Fresh (state : State T Bson) : Prop :=
  ∀ call phase, state.tasks.get call = some phase → call < state.clock

theorem State.Resumes.tasks {state after : State T Bson} {call : Nat} {phase : StatePhase Bson}
    {input : StateInput} {out : List (StateEvent Bson)} (resumes : state.Resumes call phase input after out) :
    after.clock = state.clock ∧ ∃ next, after.tasks = state.tasks.insert call next := by
  have broadcast : ∀ kept remaining, (state.broadcast call kept remaining).clock = state.clock ∧
      ∃ next, (state.broadcast call kept remaining).tasks = state.tasks.insert call next := by
    intro kept remaining
    cases remaining with
    | nil => exact ⟨rfl, _, rfl⟩
    | cons client rest => exact ⟨rfl, _, rfl⟩
  cases resumes with
  | drained free => exact broadcast [] state.clients
  | updated client remaining kept => exact broadcast (kept ++ [client]) remaining
  | dropped client remaining kept => exact broadcast kept remaining
  | _ => exact ⟨rfl, _, rfl⟩

theorem State.Fresh.preserved {toBson : T → Except String Bson} {state after : State T Bson}
    {action : StateAction T} {out : List (StateEvent Bson)} (fresh : state.Fresh)
    (taken : State.step toBson state action = some (after, out)) : after.Fresh := by
  rcases State.step_cases taken with ⟨value, first, rfl, _, _⟩ | ⟨other, input, last, _, present, resumes⟩
  · exact Table.fresh_next fresh
  · obtain ⟨clock, next, tasks⟩ := resumes.tasks
    unfold State.Fresh
    rw [clock, tasks]
    exact Table.fresh_insert fresh present

theorem run_fresh {toBson : T → Except String Bson} {allowed : State T Bson → StateAction T → Prop}
    {origin state : State T Bson} {value : T} {log : List (StateEvent Bson)}
    (made : State.new toBson value = .ok origin)
    (run : Transition.RunWith (State.step toBson) allowed origin log state) : state.Fresh := by
  apply run.invariant (I := fun _ state => state.Fresh)
  · unfold State.new at made
    split at made
    · cases made
      intro call phase there
      cases there
    · cases made
  · intro _ state action after out _ fresh _ taken
    exact fresh.preserved taken

def State.phases (state : State T Bson) : List (StatePhase Bson) :=
  (List.range state.clock).filterMap state.tasks.get

theorem State.Fresh.mem_phases {state : State T Bson} {call : Nat} {phase : StatePhase Bson}
    (fresh : state.Fresh) (present : state.tasks.get call = some phase) : phase ∈ state.phases :=
  List.mem_filterMap.mpr ⟨call, List.mem_range.mpr (fresh call phase present), present⟩

end KrossbarLib
