import KrossbarBus.Hub.Permissions

namespace KrossbarLib

open KrossbarHub (Error)

def inspectMethod : String := "inspect"

structure InspectData where
  methods : List String
  signals : List String
  states : List String
  deriving DecidableEq

/-- The bodies that a peer can send. `other` are those that no endpoint takes. -/
inductive RequestBody (Bson : Type)
  | message (body : Bson)
  | call (params : Bson)
  | subscription
  | other
  deriving DecidableEq

/-- A registered endpoint: the function of a method, or the handle of a signal or of a state. -/
inductive Endpoint (Method SignalHandle StateHandle : Type)
  | method (function : Method)
  | signal (handle : SignalHandle)
  | state (handle : StateHandle)
  deriving DecidableEq

structure Endpoints (Method SignalHandle StateHandle : Type) where
  methods : List (String × Method)
  signals : List (String × SignalHandle)
  states : List (String × StateHandle)

/-- What `handle_call` does with a request. -/
inductive Handling (Method SignalHandle StateHandle Bson : Type)
  | message (method : Method) (body : Bson)
  | ignored
  | inspect (data : InspectData)
  | call (method : Method) (params : Bson)
  | value (state : StateHandle)
  | addClient (signal : SignalHandle)
  | addStateClient (state : StateHandle)
  | refused (e : Error)

variable {Method SignalHandle StateHandle Bson : Type}

def Endpoints.handleCall (inspection : Bool) (endpoints : Endpoints Method SignalHandle StateHandle)
    (endpoint : String) : RequestBody Bson → Handling Method SignalHandle StateHandle Bson
  | .message body =>
    match endpoints.methods.lookup endpoint with
    | some method => .message method body
    | none => .ignored
  | .call params =>
    if inspection && endpoint == inspectMethod then
      .inspect ⟨endpoints.methods.map Prod.fst, endpoints.signals.map Prod.fst, endpoints.states.map Prod.fst⟩
    else match endpoints.methods.lookup endpoint with
      | some method => .call method params
      | none =>
        match endpoints.states.lookup endpoint with
        | some state => .value state
        | none => .refused .noEndpoint
  | .subscription =>
    match endpoints.signals.lookup endpoint with
    | some signal => .addClient signal
    | none =>
      match endpoints.states.lookup endpoint with
      | some state => .addStateClient state
      | none => .refused .noEndpoint
  | .other => .refused .notAllowed

def Handling.endpoint : Handling Method SignalHandle StateHandle Bson →
    Option (Endpoint Method SignalHandle StateHandle)
  | .message method _ | .call method _ => some (.method method)
  | .value state | .addStateClient state => some (.state state)
  | .addClient signal => some (.signal signal)
  | _ => none

def Endpoint.serves : Endpoint Method SignalHandle StateHandle → RequestBody Bson → Bool
  | .method _, .message _ | .method _, .call _ | .state _, .call _ | .state _, .subscription
  | .signal _, .subscription => true
  | _, _ => false

/-- A table takes a name once. -/
def registerName {Value : Type} (table : List (String × Value)) (name : String) (value : Value) :
    Except Error (List (String × Value)) :=
  if (table.lookup name).isSome then .error .alreadyRegistered else .ok (table ++ [(name, value)])

namespace Endpoints

variable (endpoints : Endpoints Method SignalHandle StateHandle)

def new : Endpoints Method SignalHandle StateHandle := ⟨[], [], []⟩

def registerAsyncMethod (name : String) (func : Method) : Except Error (Endpoints Method SignalHandle StateHandle) :=
  (registerName endpoints.methods name func).map fun methods => { endpoints with methods }

def registerMethod (name : String) (func : Method) : Except Error (Endpoints Method SignalHandle StateHandle) :=
  (registerName endpoints.methods name func).map fun methods => { endpoints with methods }

def registerSignal (name : String) (result : SignalHandle) :
    Except Error (Endpoints Method SignalHandle StateHandle) :=
  (registerName endpoints.signals name result).map fun signals => { endpoints with signals }

/-- `result` is what `State::new` makes of the value. -/
def registerState (name : String) (result : Except String StateHandle) :
    Except Error (Endpoints Method SignalHandle StateHandle) :=
  if (endpoints.states.lookup name).isSome then .error .alreadyRegistered
  else match result with
    | .error text => .error (.paramsTypeError text)
    | .ok handle => .ok { endpoints with states := endpoints.states ++ [(name, handle)] }

end Endpoints

/-- A call of a `register_` function. -/
inductive Registration (Method SignalHandle StateHandle : Type)
  | asyncMethod (name : String) (func : Method)
  | method (name : String) (func : Method)
  | signal (name : String) (result : SignalHandle)
  | state (name : String) (result : Except String StateHandle)

namespace Registration

def name : Registration Method SignalHandle StateHandle → String
  | .asyncMethod name _ | .method name _ | .signal name _ | .state name _ => name

def endpoint : Registration Method SignalHandle StateHandle → Option (Endpoint Method SignalHandle StateHandle)
  | .asyncMethod _ func | .method _ func => some (.method func)
  | .signal _ result => some (.signal result)
  | .state _ (.ok handle) => some (.state handle)
  | .state _ (.error _) => none

def isMethod : Registration Method SignalHandle StateHandle → Bool
  | .asyncMethod .. | .method .. => true
  | _ => false

def isSignal : Registration Method SignalHandle StateHandle → Bool
  | .signal .. => true
  | _ => false

end Registration

def Endpoints.register (endpoints : Endpoints Method SignalHandle StateHandle) :
    Registration Method SignalHandle StateHandle → Except Error (Endpoints Method SignalHandle StateHandle)
  | .asyncMethod name func => endpoints.registerAsyncMethod name func
  | .method name func => endpoints.registerMethod name func
  | .signal name result => endpoints.registerSignal name result
  | .state name result => endpoints.registerState name result

/-- A registration that fails leaves the endpoints as they are. -/
def Endpoints.registerAll (endpoints : Endpoints Method SignalHandle StateHandle)
    (registrations : List (Registration Method SignalHandle StateHandle)) :
    Endpoints Method SignalHandle StateHandle :=
  registrations.foldl (fun endpoints registration => (endpoints.register registration).toOption.getD endpoints)
    endpoints

/-- A name in two tables is served by one of them. A call looks for a method first, a subscription for a
    signal, and the inspection takes its calls from every table. -/
def Unshadowed (inspection : Bool) (registrations : List (Registration Method SignalHandle StateHandle))
    (name : String) : Endpoint Method SignalHandle StateHandle → Prop
  | .method _ => ¬ (inspection = true ∧ name = inspectMethod)
  | .signal _ => True
  | .state _ => ¬ (inspection = true ∧ name = inspectMethod) ∧
    ∀ registration ∈ registrations, registration.name = name →
      registration.isMethod = false ∧ registration.isSignal = false

def Endpoints.Has (endpoints : Endpoints Method SignalHandle StateHandle) (name : String) :
    Endpoint Method SignalHandle StateHandle → Prop
  | .method function => endpoints.methods.lookup name = some function
  | .signal handle => endpoints.signals.lookup name = some handle
  | .state handle => endpoints.states.lookup name = some handle

section

variable {inspection : Bool} {endpoints after : Endpoints Method SignalHandle StateHandle}
  {registration : Registration Method SignalHandle StateHandle}
  {registrations : List (Registration Method SignalHandle StateHandle)}
  {name other : String} {endpoint : Endpoint Method SignalHandle StateHandle} {Value : Type}
  {table extended : List (String × Value)} {value found : Value}

theorem registerName_ok (registered : registerName table name value = .ok extended) :
    table.lookup name = none ∧ extended = table ++ [(name, value)] := by
  simp only [registerName] at registered
  split at registered
  · cases registered
  · rename_i absent
    cases registered
    exact ⟨Option.not_isSome_iff_eq_none.mp absent, rfl⟩

theorem lookup_kept (present : table.lookup other = some found) :
    (table ++ [(name, value)]).lookup other = some found := by
  rw [List.lookup_append, present]
  rfl

theorem lookup_added (absent : table.lookup name = none) : (table ++ [(name, value)]).lookup name = some value := by
  simp [List.lookup_append, absent]

theorem lookup_append_none : (table ++ [(name, value)]).lookup other = none ↔
    table.lookup other = none ∧ name ≠ other := by
  simp only [List.lookup_append, Option.or_eq_none_iff]
  by_cases same : other = name
  · simp [same]
  · simp [same, Ne.symm same]

theorem registerName_error {e : Error} (refused : registerName table name value = .error e) :
    table.lookup name ≠ none := by
  simp only [registerName] at refused
  split at refused
  · rename_i present
    exact Option.isSome_iff_ne_none.mp present
  · cases refused

/-- What a successful registration has done. -/
inductive Endpoints.Registers (endpoints : Endpoints Method SignalHandle StateHandle) :
    Registration Method SignalHandle StateHandle → Endpoint Method SignalHandle StateHandle →
    Endpoints Method SignalHandle StateHandle → Prop
  | asyncMethod (name : String) (func : Method) (absent : endpoints.methods.lookup name = none) :
      Registers endpoints (.asyncMethod name func) (.method func)
        { endpoints with methods := endpoints.methods ++ [(name, func)] }
  | method (name : String) (func : Method) (absent : endpoints.methods.lookup name = none) :
      Registers endpoints (.method name func) (.method func)
        { endpoints with methods := endpoints.methods ++ [(name, func)] }
  | signal (name : String) (result : SignalHandle) (absent : endpoints.signals.lookup name = none) :
      Registers endpoints (.signal name result) (.signal result)
        { endpoints with signals := endpoints.signals ++ [(name, result)] }
  | state (name : String) (handle : StateHandle) (absent : endpoints.states.lookup name = none) :
      Registers endpoints (.state name (.ok handle)) (.state handle)
        { endpoints with states := endpoints.states ++ [(name, handle)] }

theorem registered_table {update : List (String × Value) → Endpoints Method SignalHandle StateHandle}
    (registered : (registerName table name value).map update = .ok after) :
    table.lookup name = none ∧ after = update (table ++ [(name, value)]) := by
  cases outcome : registerName table name value with
  | error e =>
    rw [outcome] at registered
    cases registered
  | ok extended =>
    obtain ⟨absent, rfl⟩ := registerName_ok outcome
    rw [outcome] at registered
    cases registered
    exact ⟨absent, rfl⟩

theorem register_cases (registered : endpoints.register registration = .ok after) :
    ∃ endpoint, registration.endpoint = some endpoint ∧ endpoints.Registers registration endpoint after := by
  cases registration with
  | asyncMethod name func =>
    obtain ⟨absent, rfl⟩ := registered_table registered
    exact ⟨_, rfl, .asyncMethod name func absent⟩
  | method name func =>
    obtain ⟨absent, rfl⟩ := registered_table registered
    exact ⟨_, rfl, .method name func absent⟩
  | signal name result =>
    obtain ⟨absent, rfl⟩ := registered_table registered
    exact ⟨_, rfl, .signal name result absent⟩
  | state name result =>
    simp only [Endpoints.register, Endpoints.registerState] at registered
    split at registered
    · cases registered
    · rename_i absent
      split at registered
      · cases registered
      · rename_i handle
        cases registered
        exact ⟨_, rfl, .state name handle (Option.not_isSome_iff_eq_none.mp absent)⟩

theorem Endpoints.Registers.has (registers : endpoints.Registers registration endpoint after) :
    after.Has registration.name endpoint := by
  cases registers with
  | asyncMethod _ _ absent => exact lookup_added absent
  | method _ _ absent => exact lookup_added absent
  | signal _ _ absent => exact lookup_added absent
  | state _ _ absent => exact lookup_added absent

theorem Endpoints.Registers.keeps {added : Endpoint Method SignalHandle StateHandle}
    (registers : endpoints.Registers registration added after) (has : endpoints.Has name endpoint) :
    after.Has name endpoint := by
  cases registers <;> cases endpoint <;> first | exact has | exact lookup_kept has

theorem registerAll_keeps (has : endpoints.Has name endpoint) :
    (endpoints.registerAll registrations).Has name endpoint := by
  induction registrations generalizing endpoints with
  | nil => exact has
  | cons registration rest ih =>
    apply ih
    show ((endpoints.register registration).toOption.getD endpoints).Has name endpoint
    cases outcome : endpoints.register registration with
    | error e => exact has
    | ok after =>
      obtain ⟨_, _, registers⟩ := register_cases outcome
      exact registers.keeps has

/-- A method or a signal is refused only for a name that its table has. -/
theorem refused_present {e : Error} (refused : endpoints.register registration = .error e) :
    (registration.isMethod = true → endpoints.methods.lookup registration.name ≠ none) ∧
    (registration.isSignal = true → endpoints.signals.lookup registration.name ≠ none) := by
  have present : ∀ {Value : Type} {table : List (String × Value)} {value : Value}
      {update : List (String × Value) → Endpoints Method SignalHandle StateHandle},
      (registerName table registration.name value).map update = .error e →
      table.lookup registration.name ≠ none := by
    intro Value table value update refused
    cases outcome : registerName table registration.name value with
    | error e => exact registerName_error outcome
    | ok extended =>
      rw [outcome] at refused
      cases refused
  cases registration with
  | asyncMethod name func => exact ⟨fun _ => present refused, by simp [Registration.isSignal]⟩
  | method name func => exact ⟨fun _ => present refused, by simp [Registration.isSignal]⟩
  | signal name result => exact ⟨by simp [Registration.isMethod], fun _ => present refused⟩
  | state name result => simp [Registration.isMethod, Registration.isSignal]

theorem Endpoints.Registers.methods_absent (registers : endpoints.Registers registration endpoint after) :
    after.methods.lookup name = none ↔
      endpoints.methods.lookup name = none ∧ (registration.name = name → registration.isMethod = false) := by
  cases registers <;> simp only [lookup_append_none, Registration.name, Registration.isMethod] <;> simp

theorem Endpoints.Registers.signals_absent (registers : endpoints.Registers registration endpoint after) :
    after.signals.lookup name = none ↔
      endpoints.signals.lookup name = none ∧ (registration.name = name → registration.isSignal = false) := by
  cases registers <;> simp only [lookup_append_none, Registration.name, Registration.isSignal] <;> simp

/-- A name is in a table once any registration has asked for it there. -/
theorem registerAll_absent :
    ((endpoints.registerAll registrations).methods.lookup name = none ↔ endpoints.methods.lookup name = none ∧
      ∀ registration ∈ registrations, registration.name = name → registration.isMethod = false) ∧
    ((endpoints.registerAll registrations).signals.lookup name = none ↔ endpoints.signals.lookup name = none ∧
      ∀ registration ∈ registrations, registration.name = name → registration.isSignal = false) := by
  induction registrations generalizing endpoints with
  | nil => simp [Endpoints.registerAll]
  | cons registration rest ih =>
    have first : endpoints.registerAll (registration :: rest) =
        ((endpoints.register registration).toOption.getD endpoints).registerAll rest := rfl
    rw [first, ih.1, ih.2, List.forall_mem_cons, List.forall_mem_cons, ← and_assoc, ← and_assoc]
    cases outcome : endpoints.register registration with
    | ok after =>
      obtain ⟨_, _, registers⟩ := register_cases outcome
      simp only [Except.toOption, Option.getD_some, registers.methods_absent, registers.signals_absent, and_self]
    | error e =>
      obtain ⟨methods, signals⟩ := refused_present outcome
      have no_method : endpoints.methods.lookup name = none → registration.name = name →
          registration.isMethod = false := by
        rintro absent rfl
        exact eq_false_of_ne_true fun asks => methods asks absent
      have no_signal : endpoints.signals.lookup name = none → registration.name = name →
          registration.isSignal = false := by
        rintro absent rfl
        exact eq_false_of_ne_true fun asks => signals asks absent
      rw [and_iff_left_of_imp no_method, and_iff_left_of_imp no_signal]
      exact ⟨Iff.rfl, Iff.rfl⟩

theorem routed_method {function : Method} (has : endpoints.Has name (.method function)) [Inhabited Bson] :
    (∀ body : RequestBody Bson,
      (Endpoint.method function : Endpoint Method SignalHandle StateHandle).serves body = true →
      (endpoints.handleCall inspection name body).endpoint = some (.method function)) ↔
    ¬ (inspection = true ∧ name = inspectMethod) := by
  have present : endpoints.methods.lookup name = some function := has
  constructor
  · rintro routed ⟨rfl, rfl⟩
    have impossible := routed (.call default) rfl
    simp [Endpoints.handleCall, Handling.endpoint] at impossible
  · intro ordinary body serves
    cases body with
    | message body => simp only [Endpoints.handleCall, present, Handling.endpoint]
    | call params =>
      simp only [Endpoints.handleCall, present]
      split
      · rename_i inspected
        simp only [Bool.and_eq_true, beq_iff_eq] at inspected
        exact absurd inspected ordinary
      · rfl
    | _ => cases serves

theorem routed_signal {handle : SignalHandle} (has : endpoints.Has name (.signal handle)) {body : RequestBody Bson}
    (serves : (Endpoint.signal handle : Endpoint Method SignalHandle StateHandle).serves body = true) :
    (endpoints.handleCall inspection name body).endpoint = some (.signal handle) := by
  have present : endpoints.signals.lookup name = some handle := has
  cases body with
  | subscription => simp only [Endpoints.handleCall, present, Handling.endpoint]
  | _ => cases serves

theorem routed_state {handle : StateHandle} (has : endpoints.Has name (.state handle)) [Inhabited Bson] :
    (∀ body : RequestBody Bson,
      (Endpoint.state handle : Endpoint Method SignalHandle StateHandle).serves body = true →
      (endpoints.handleCall inspection name body).endpoint = some (.state handle)) ↔
    ¬ (inspection = true ∧ name = inspectMethod) ∧ endpoints.methods.lookup name = none ∧
      endpoints.signals.lookup name = none := by
  have present : endpoints.states.lookup name = some handle := has
  constructor
  · intro routed
    have called := routed (.call default) rfl
    have subscribed := routed .subscription rfl
    simp only [Endpoints.handleCall, present] at called subscribed
    refine ⟨?_, ?_, ?_⟩
    · rintro ⟨rfl, rfl⟩
      simp [Handling.endpoint] at called
    · cases method : endpoints.methods.lookup name with
      | none => rfl
      | some function =>
        rw [method] at called
        split at called <;> cases called
    · cases signal : endpoints.signals.lookup name with
      | none => rfl
      | some other =>
        rw [signal] at subscribed
        cases subscribed
  · rintro ⟨ordinary, method, signal⟩ body serves
    cases body with
    | call params =>
      simp only [Endpoints.handleCall, method, present]
      split
      · rename_i inspected
        simp only [Bool.and_eq_true, beq_iff_eq] at inspected
        exact absurd inspected ordinary
      · rfl
    | subscription => simp only [Endpoints.handleCall, signal, present, Handling.endpoint]
    | _ => cases serves

/-- A registered endpoint gets every request of a kind it serves exactly if nothing shadows its name. -/
theorem registered_reachable [Inhabited Bson]
    {before later : List (Registration Method SignalHandle StateHandle)}
    (registered : (Endpoints.new.registerAll before).register registration = .ok after) :
    ∃ endpoint, registration.endpoint = some endpoint ∧
      ((∀ body : RequestBody Bson, endpoint.serves body = true →
        ((Endpoints.new.registerAll (before ++ registration :: later)).handleCall inspection registration.name
          body).endpoint = some endpoint) ↔
      Unshadowed inspection (before ++ registration :: later) registration.name endpoint) := by
  obtain ⟨endpoint, target, registers⟩ := register_cases registered
  refine ⟨endpoint, target, ?_⟩
  have final : Endpoints.new.registerAll (before ++ registration :: later) = after.registerAll later := by
    simp only [Endpoints.registerAll, List.foldl_append, List.foldl_cons] at registered ⊢
    rw [registered]
    rfl
  have has : (Endpoints.new.registerAll (before ++ registration :: later)).Has registration.name endpoint := by
    rw [final]
    exact registerAll_keeps registers.has
  cases endpoint with
  | method function => exact routed_method has
  | signal handle => exact ⟨fun _ => trivial, fun _ _ serves => routed_signal has serves⟩
  | state handle =>
    rw [routed_state has, registerAll_absent.1, registerAll_absent.2]
    simp only [Unshadowed, Endpoints.new, List.lookup_nil, true_and]
    refine and_congr_right fun _ => ⟨?_, ?_⟩
    · rintro ⟨methods, signals⟩ other member same
      exact ⟨methods other member same, signals other member same⟩
    · intro free
      exact ⟨fun other member same => (free other member same).1, fun other member same => (free other member same).2⟩

end

theorem registered_reachable_apart :
    ((Endpoints.new.registerAll [.method "mute" 0, .state "volume" (.ok 1), .signal "changed" 2]).handleCall true
      "volume" (.call 5)).endpoint = some (Endpoint.state 1 : Endpoint Nat Nat Nat) ∧
    ((Endpoints.new.registerAll [.method "mute" 0, .state "volume" (.ok 1), .signal "changed" 2]).handleCall true
      "volume" (.subscription : RequestBody Nat)).endpoint = some (Endpoint.state 1 : Endpoint Nat Nat Nat) := by
  have registered : (Endpoints.new.registerAll [.method "mute" 0]).register (.state "volume" (.ok 1)) =
      .ok (⟨[("mute", 0)], [], [("volume", 1)]⟩ : Endpoints Nat Nat Nat) := by
    simp [Endpoints.registerAll, Endpoints.register, Endpoints.registerMethod, Endpoints.registerState, registerName,
      Endpoints.new, Except.map, Except.toOption]
  have unshadowed : Unshadowed true [.method "mute" 0, .state "volume" (.ok 1), .signal "changed" 2] "volume"
      (Endpoint.state 1 : Endpoint Nat Nat Nat) := by
    simp [Unshadowed, inspectMethod, Registration.name, Registration.isMethod, Registration.isSignal]
  obtain ⟨endpoint, target, reachable⟩ :=
    @registered_reachable Nat Nat Nat Nat true _ _ _ _ [.signal "changed" 2] registered
  cases target
  have routed := reachable.mpr unshadowed
  exact ⟨routed (.call 5) rfl, routed .subscription rfl⟩

/-- A state takes the name of a method. Its registration succeeds, and its calls go to the method. -/
theorem state_behind_method :
    ((Endpoints.new.registerAll [.method "volume" 0]).register (.state "volume" (.ok 1)) =
      .ok (⟨[("volume", 0)], [], [("volume", 1)]⟩ : Endpoints Nat Nat Nat)) ∧
    ((Endpoints.new.registerAll [.method "volume" 0, .state "volume" (.ok 1)]).handleCall false "volume"
      (.call 5)).endpoint = some (Endpoint.method 0 : Endpoint Nat Nat Nat) := by
  simp [Endpoints.registerAll, Endpoints.register, Endpoints.registerMethod, Endpoints.registerState, registerName,
    Endpoints.new, Except.map, Except.toOption, Endpoints.handleCall, Handling.endpoint]

end KrossbarLib
