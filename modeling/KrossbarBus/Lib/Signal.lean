import KrossbarBus.Collections.Mutex
import KrossbarBus.Lib.State

namespace KrossbarLib

variable {T Bson : Type}

/-- An entry of the list of a signal. The call that has made it tells it from an equal one. -/
structure SignalClient where
  call : Nat
  sub_id : Int
  writer : RpcWriter
  deriving DecidableEq

/-- The await points of the futures of a signal: `Handle::add_client` and `Signal::emit`. -/
inductive SignalPhase (T Bson : Type)
  | adding (client : SignalClient)
  | emitting (data : T)
  | locking (bson : Bson)
  | responding (bson : Bson) (client : SignalClient) (remaining kept : List SignalClient)
  | finished

/-- A registered signal. All its clones and its handle share the list. Its futures are numbered by the calls
    that made them. -/
structure Signal (T Bson : Type) where
  clients : List SignalClient
  clientsLock : Option Nat
  tasks : Table Nat (SignalPhase T Bson)
  clock : Nat

def Signal.new : Signal T Bson := ⟨[], none, .empty, 0⟩

inductive SignalInput
  | polled
  | locked
  | responded (ok : Bool)

inductive SignalAction (T : Type)
  | addClient (sub_id : Int) (writer : RpcWriter)
  | emit (data : T)
  | run (call : Nat) (input : SignalInput)

inductive SignalEvent (Bson : Type)
  | joined (client : SignalClient)
  | delivered (client : SignalClient) (call : Nat) (bson : Bson)
  | refused (client : SignalClient) (call : Nat)
  | emitted (call : Nat) (bson : Bson)
  | failed (call : Nat) (text : String)
  deriving DecidableEq

def Signal.goto (signal : Signal T Bson) (call : Nat) (phase : SignalPhase T Bson) : Signal T Bson :=
  { signal with tasks := signal.tasks.insert call phase }

def Signal.begin (signal : Signal T Bson) (phase : SignalPhase T Bson) : Signal T Bson :=
  { signal with tasks := signal.tasks.insert signal.clock phase, clock := signal.clock + 1 }

/-- The stream of `Signal::emit` goes on to the next drained client. When all are through, the list gets
    those who are left, and the guard is dropped. -/
def Signal.broadcast (signal : Signal T Bson) (call : Nat) (bson : Bson) (kept : List SignalClient) :
    List SignalClient → Signal T Bson × List (SignalEvent Bson)
  | [] => ({ signal with
      clients := kept
      clientsLock := none
      tasks := signal.tasks.insert call .finished }, [.emitted call bson])
  | client :: remaining => ({ signal with
      clients := []
      clientsLock := some call
      tasks := signal.tasks.insert call (.responding bson client remaining kept) }, [])

def Signal.answered (signal : Signal T Bson) (call : Nat) (bson : Bson) (client : SignalClient)
    (remaining kept : List SignalClient) : Bool → Signal T Bson × List (SignalEvent Bson)
  | true =>
    let (after, out) := signal.broadcast call bson (kept ++ [client]) remaining
    (after, .delivered client call bson :: out)
  | false =>
    let (after, out) := signal.broadcast call bson kept remaining
    (after, .refused client call :: out)

/-- A future runs from one await to the next. -/
def Signal.resume (toBson : T → Except String Bson) (signal : Signal T Bson) (call : Nat) :
    SignalPhase T Bson → SignalInput → Option (Signal T Bson × List (SignalEvent Bson))
  | .adding client, .locked =>
    if signal.clientsLock ≠ none then none
    else some ({ signal.goto call .finished with clients := signal.clients ++ [client] }, [.joined client])
  | .emitting data, .polled =>
    match toBson data with
    | .ok bson => some (signal.goto call (.locking bson), [])
    | .error text => some (signal.goto call .finished, [.failed call text])
  | .locking bson, .locked =>
    if signal.clientsLock ≠ none then none
    else some (signal.broadcast call bson [] signal.clients)
  | .responding bson client remaining kept, .responded ok =>
    some (signal.answered call bson client remaining kept ok)
  | _, _ => none

def Signal.step (toBson : T → Except String Bson) :
    Transition.Step (Signal T Bson) (SignalAction T) (SignalEvent Bson)
  | signal, .addClient sub_id writer => some (signal.begin (.adding ⟨signal.clock, sub_id, writer⟩), [])
  | signal, .emit data => some (signal.begin (.emitting data), [])
  | signal, .run call input =>
    match signal.tasks.get call with
    | none => none
    | some phase => signal.resume toBson call phase input

variable {toBson : T → Except String Bson} {signal after : Signal T Bson} {call : Nat}
  {phase : SignalPhase T Bson} {input : SignalInput} {action : SignalAction T} {out : List (SignalEvent Bson)}

inductive Signal.Resumes (toBson : T → Except String Bson) (signal : Signal T Bson) (call : Nat) :
    SignalPhase T Bson → SignalInput → Signal T Bson × List (SignalEvent Bson) → Prop
  | pushed (client : SignalClient) (free : signal.clientsLock = none) :
      Resumes toBson signal call (.adding client) .locked
        ({ signal.goto call .finished with clients := signal.clients ++ [client] }, [.joined client])
  | serialized (data : T) (bson : Bson) (ok : toBson data = .ok bson) :
      Resumes toBson signal call (.emitting data) .polled (signal.goto call (.locking bson), [])
  | failed (data : T) (text : String) (error : toBson data = .error text) :
      Resumes toBson signal call (.emitting data) .polled (signal.goto call .finished, [.failed call text])
  | drained (bson : Bson) (free : signal.clientsLock = none) :
      Resumes toBson signal call (.locking bson) .locked (signal.broadcast call bson [] signal.clients)
  | answered (bson : Bson) (client : SignalClient) (remaining kept : List SignalClient) (ok : Bool) :
      Resumes toBson signal call (.responding bson client remaining kept) (.responded ok)
        (signal.answered call bson client remaining kept ok)

theorem Signal.resume_cases {result : Signal T Bson × List (SignalEvent Bson)}
    (resumed : signal.resume toBson call phase input = some result) :
    signal.Resumes toBson call phase input result := by
  unfold Signal.resume at resumed
  split at resumed
  · split at resumed
    · cases resumed
    · rename_i held
      cases resumed
      exact .pushed _ (not_not.mp held)
  · split at resumed
    · rename_i bson ok
      cases resumed
      exact .serialized _ bson ok
    · rename_i text error
      cases resumed
      exact .failed _ text error
  · split at resumed
    · cases resumed
    · rename_i held
      cases resumed
      exact .drained _ (not_not.mp held)
  · cases resumed
    exact .answered _ _ _ _ _
  · cases resumed

theorem Signal.step_cases (taken : Signal.step toBson signal action = some (after, out)) :
    ((∃ sub_id writer, after = signal.begin (.adding ⟨signal.clock, sub_id, writer⟩)) ∨
      ∃ data, after = signal.begin (.emitting data)) ∧ out = [] ∨
    ∃ call input phase, action = .run call input ∧ signal.tasks.get call = some phase ∧
      signal.Resumes toBson call phase input (after, out) := by
  cases action with
  | addClient sub_id writer =>
    cases taken
    exact .inl ⟨.inl ⟨sub_id, writer, rfl⟩, rfl⟩
  | emit data =>
    cases taken
    exact .inl ⟨.inr ⟨data, rfl⟩, rfl⟩
  | run call input =>
    simp only [Signal.step] at taken
    split at taken
    · cases taken
    · rename_i phase present
      exact .inr ⟨call, input, phase, rfl, present, Signal.resume_cases taken⟩

end KrossbarLib
