import KrossbarBus.Collections.Mutex
import KrossbarBus.Lib.State

namespace KrossbarLib

variable {T Bson : Type} {toBson : T → Except String Bson} {state after : State T Bson} {call : Nat}
  {phase : StatePhase Bson} {input : StateInput} {log out : List (StateEvent Bson)} {client other : Subscriber}
  {value : Bson}

def StatePhase.holdsValue : StatePhase Bson → Bool
  | .setClients => true
  | .setRespond .. => true
  | _ => false

def StatePhase.holdsClients : StatePhase Bson → Bool
  | .setRespond .. => true
  | _ => false

def lastDelivered (log : List (StateEvent Bson)) (client : Subscriber) : Option Bson :=
  log.foldl (fun last event => match event with
    | .delivered receiver value => if receiver = client then some value else last) none

def State.Quiescent (state : State T Bson) : Prop :=
  ∀ call phase, state.tasks.get call = some phase → phase = .finished

/-- Whoever is being added when a broadcast drains the clients has read the value that it sends. -/
def State.DrainsUpToDate (state : State T Bson) : StateAction T → Prop
  | .run call .locked => state.tasks.get call = some .setClients → ∀ other client response,
      state.tasks.get other = some (.addRespond client response) ∨
        state.tasks.get other = some (.addPush client response) → response = state.current_value
  | _ => True

/-- The clients being added have all read one value, the current one unless it is being replaced. -/
structure Seen (log : List (StateEvent Bson)) (state : State T Bson) (value : Bson) : Prop where
  responding : ∀ call client response, state.tasks.get call = some (.addRespond client response) →
    response = value
  pushing : ∀ call client response, state.tasks.get call = some (.addPush client response) →
    response = value ∧ lastDelivered log client = some value
  settled : state.valueLock = none →
    value = state.current_value ∧ ∀ client ∈ state.clients, lastDelivered log client = some value
  updating : state.clientsLock ≠ none → value = state.current_value

structure Converging (log : List (StateEvent Bson)) (state : State T Bson) : Prop where
  valueGuard : state.tasks.Guards StatePhase.holdsValue state.valueLock
  clientsGuard : state.tasks.Guards StatePhase.holdsClients state.clientsLock
  seen : ∃ value, Seen log state value
  kept : ∀ call client remaining kept other,
    state.tasks.get call = some (.setRespond client remaining kept) → other ∈ kept →
    lastDelivered log other = some state.current_value

theorem lastDelivered_snoc :
    lastDelivered (log ++ [.delivered other value]) client =
      if other = client then some value else lastDelivered log client := by
  simp [lastDelivered]

theorem lastDelivered_self : lastDelivered (log ++ [.delivered client value]) client = some value := by
  rw [lastDelivered_snoc, if_pos rfl]

theorem lastDelivered_again (delivered : lastDelivered log client = some value) :
    lastDelivered (log ++ [.delivered other value]) client = some value := by
  rw [lastDelivered_snoc]
  split
  · rfl
  · exact delivered

theorem goto_get (call other : Nat) :
    (state.goto call phase).tasks.get other = if other = call then some phase else state.tasks.get other :=
  Table.get_insert

theorem insert_of_ne {tasks : Table Nat (StatePhase Bson)} {next : StatePhase Bson} {other : Nat}
    (there : (tasks.insert call next).get other = some phase) (different : next ≠ phase) :
    other ≠ call ∧ tasks.get other = some phase := by
  rw [Table.get_insert] at there
  split at there
  · exact absurd (Option.some.inj there) different
  · rename_i elsewhere
    exact ⟨elsewhere, there⟩

theorem Converging.unlocked (converging : Converging log state) (free : state.valueLock = none) :
    state.clientsLock = none := by
  by_contra held
  obtain ⟨owner, phase, present, holds⟩ := converging.clientsGuard.ne_none_iff.mp held
  have idle := converging.valueGuard.idle free present
  cases phase with
  | setRespond => cases idle
  | _ => cases holds

theorem Converging.no_broadcast (converging : Converging log state) (free : state.clientsLock = none)
    {remaining kept : List Subscriber} : state.tasks.get call ≠ some (.setRespond client remaining kept) := by
  intro present
  have idle := converging.clientsGuard.idle free present
  cases idle

theorem Converging.broadcast (converging : Converging log state) (present : state.tasks.get call = some phase)
    (holds : phase.holdsValue = true) (owner : state.clientsLock = none ∨ phase.holdsClients = true)
    (responding : ∀ other client response, state.tasks.get other = some (.addRespond client response) →
      response = state.current_value)
    (pushing : ∀ other client response, state.tasks.get other = some (.addPush client response) →
      response = state.current_value ∧ lastDelivered out client = some state.current_value)
    {kept : List Subscriber} (served : ∀ client ∈ kept, lastDelivered out client = some state.current_value)
    (remaining : List Subscriber) : Converging out (state.broadcast call kept remaining) := by
  have locked := converging.valueGuard.held present holds
  have others : ∀ other client remaining kept, other ≠ call →
      state.tasks.get other ≠ some (.setRespond client remaining kept) := by
    intro other client remaining kept different there
    rcases owner with free | own
    · exact converging.no_broadcast free there
    · have first := converging.clientsGuard.held present own
      rw [converging.clientsGuard.held there rfl] at first
      exact different (Option.some.inj first)
  have adding : ∀ next, next.holdsValue = true ∨ next = .finished →
      (∀ other client response, (state.tasks.insert call next).get other = some (.addRespond client response) →
        response = state.current_value) ∧
      ∀ other client response, (state.tasks.insert call next).get other = some (.addPush client response) →
        response = state.current_value ∧ lastDelivered out client = some state.current_value := by
    intro next moving
    constructor
    · intro other client response there
      have different : next ≠ .addRespond client response := by
        intro same
        simp [same, StatePhase.holdsValue] at moving
      exact responding other client response (insert_of_ne there different).2
    · intro other client response there
      have different : next ≠ .addPush client response := by
        intro same
        simp [same, StatePhase.holdsValue] at moving
      exact pushing other client response (insert_of_ne there different).2
  cases remaining with
  | nil =>
    have now := adding .finished (.inr rfl)
    refine ⟨converging.valueGuard.vacate present (.inr holds) rfl,
      converging.clientsGuard.vacate present owner rfl, ⟨state.current_value, now.1, now.2, ?_, ?_⟩, ?_⟩
    · intro _
      exact ⟨rfl, served⟩
    · simp [State.broadcast]
    · intro other receiver later accepted client there _
      have before := insert_of_ne there (by simp)
      exact absurd before.2 (others other receiver later accepted before.1)
  | cons client remaining =>
    have now := adding (.setRespond client remaining kept) (.inl rfl)
    have values : (state.broadcast call kept (client :: remaining)).tasks.Guards StatePhase.holdsValue
        (some call) := converging.valueGuard.take present (.inr holds) rfl
    rw [← locked] at values
    refine ⟨values, converging.clientsGuard.take present owner rfl,
      ⟨state.current_value, now.1, now.2, ?_, fun _ => rfl⟩, ?_⟩
    · intro free
      have free : state.valueLock = none := free
      rw [locked] at free
      cases free
    · intro other receiver later accepted client there member
      by_cases same : other = call
      · rw [same] at there
        have this := there.symm.trans Table.get_insert_self
        cases this
        exact served client member
      · have before := (Table.get_insert_of_ne same).symm.trans there
        exact absurd before (others other receiver later accepted same)

theorem Converging.goto (converging : Converging log state) (present : state.tasks.get call = some phase)
    {next : StatePhase Bson} (was : phase.holdsValue = false) (now : next.holdsValue = false)
    (seen : ∃ value, Seen out (state.goto call next) value)
    (kept : ∀ client, lastDelivered log client = some state.current_value → state.clientsLock ≠ none →
      lastDelivered out client = some state.current_value) : Converging out (state.goto call next) := by
  have clients : ∀ phase : StatePhase Bson, phase.holdsValue = false → phase.holdsClients = false := by
    intro phase idle
    cases phase with
    | setRespond => cases idle
    | _ => rfl
  refine ⟨converging.valueGuard.pass present was now,
    converging.clientsGuard.pass present (clients phase was) (clients next now), seen, ?_⟩
  intro other client remaining accepted receiver there member
  have different : next ≠ .setRespond client remaining accepted := by
    intro same
    rw [same] at now
    cases now
  have before := (insert_of_ne there different).2
  apply kept receiver (converging.kept other client remaining accepted receiver before member)
  rw [converging.clientsGuard.held before rfl]
  simp

/-- Those who were being added and are not the task that moves still are. -/
theorem Seen.responding_elsewhere (seen : Seen log state value) {next : StatePhase Bson}
    (moved : ∀ client response, next ≠ .addRespond client response) (other : Nat) (client : Subscriber)
    (response : Bson) (there : (state.tasks.insert call next).get other = some (.addRespond client response)) :
    response = value := by
  have before := insert_of_ne there (moved client response)
  exact seen.responding other client response before.2

theorem Seen.pushing_elsewhere (seen : Seen log state value) {next : StatePhase Bson}
    (moved : ∀ client response, next ≠ .addPush client response) (other : Nat) (client : Subscriber)
    (response : Bson) (there : (state.tasks.insert call next).get other = some (.addPush client response)) :
    response = value ∧ lastDelivered log client = some value := by
  have before := insert_of_ne there (moved client response)
  exact seen.pushing other client response before.2

theorem Seen.finish (seen : Seen log state value) (call : Nat) :
    ∃ value, Seen log (state.goto call .finished) value :=
  ⟨value, seen.responding_elsewhere (by simp), seen.pushing_elsewhere (by simp), seen.settled, seen.updating⟩

theorem Converging.finish (converging : Converging log state) (present : state.tasks.get call = some phase)
    (was : phase.holdsValue = false) : Converging log (state.goto call .finished) := by
  obtain ⟨value, seen⟩ := converging.seen
  apply converging.goto present was rfl (seen.finish call)
  intro client delivered _
  exact delivered

theorem Converging.valueRead (converging : Converging log state)
    (present : state.tasks.get call = some (.addValue client)) (free : state.valueLock = none) :
    Converging log (state.goto call (.addRespond client state.current_value)) := by
  obtain ⟨value, seen⟩ := converging.seen
  have current := (seen.settled free).1
  refine converging.goto present rfl rfl
    ⟨value, ?_, seen.pushing_elsewhere (by simp), seen.settled, seen.updating⟩ fun _ before _ => before
  intro other receiver response there
  rw [goto_get] at there
  split at there
  · cases there
    exact current.symm
  · exact seen.responding other receiver response there

theorem Converging.valueSent (converging : Converging log state)
    (present : state.tasks.get call = some (.addRespond client value)) :
    Converging (log ++ [.delivered client value]) (state.goto call (.addPush client value)) := by
  obtain ⟨seenValue, seen⟩ := converging.seen
  have same := seen.responding call client value present
  subst same
  refine converging.goto present rfl rfl ⟨value, seen.responding_elsewhere (by simp), ?_, ?_, seen.updating⟩ ?_
  · intro other receiver response there
    rw [goto_get] at there
    split at there
    · cases there
      exact ⟨rfl, lastDelivered_self⟩
    · have before := seen.pushing other receiver response there
      exact ⟨before.1, lastDelivered_again before.2⟩
  · intro free
    have before := seen.settled free
    exact ⟨before.1, fun receiver member => lastDelivered_again (before.2 receiver member)⟩
  · intro receiver before held
    have current := seen.updating held
    rw [← current] at before ⊢
    exact lastDelivered_again before

theorem Converging.pushed (converging : Converging log state)
    (present : state.tasks.get call = some (.addPush client value)) :
    Converging log { state.goto call .finished with clients := state.clients ++ [client] } := by
  obtain ⟨seenValue, seen⟩ := converging.seen
  have pushed := seen.pushing call client value present
  have finished := converging.finish present rfl
  refine ⟨finished.valueGuard, finished.clientsGuard, ⟨seenValue, seen.responding_elsewhere (by simp),
    seen.pushing_elsewhere (by simp), ?_, seen.updating⟩, finished.kept⟩
  intro unlocked
  have before := seen.settled unlocked
  refine ⟨before.1, ?_⟩
  intro receiver member
  rcases List.mem_append.mp member with old | new
  · exact before.2 receiver old
  · rw [List.mem_singleton.mp new]
    exact pushed.2

theorem Converging.valueWritten (converging : Converging log state) {value_bson : Bson}
    (present : state.tasks.get call = some (.setValue value_bson)) (free : state.valueLock = none) :
    Converging log { state.goto call .setClients with current_value := value_bson, valueLock := some call } := by
  obtain ⟨value, seen⟩ := converging.seen
  have unlocked := converging.unlocked free
  refine ⟨converging.valueGuard.take present (.inl free) rfl, converging.clientsGuard.pass present rfl rfl,
    ⟨value, seen.responding_elsewhere (by simp), seen.pushing_elsewhere (by simp), ?_, ?_⟩, ?_⟩
  · intro impossible
    cases impossible
  · intro held
    exact absurd unlocked held
  · intro other receiver remaining kept client there
    have before := insert_of_ne there (by simp)
    exact absurd before.2 (converging.no_broadcast unlocked)

theorem Converging.drained (converging : Converging log state)
    (present : state.tasks.get call = some .setClients) (free : state.clientsLock = none)
    (upToDate : state.DrainsUpToDate (.run call .locked)) :
    Converging log (state.broadcast call [] state.clients) := by
  obtain ⟨value, seen⟩ := converging.seen
  apply converging.broadcast present rfl (.inl free)
  · intro other receiver response there
    exact upToDate present other receiver response (.inl there)
  · intro other receiver response there
    have current := upToDate present other receiver response (.inr there)
    have before := seen.pushing other receiver response there
    have delivered : lastDelivered log receiver = some state.current_value := by
      rw [before.2, ← before.1, current]
    exact ⟨current, delivered⟩
  · simp

theorem Converging.serving (converging : Converging log state) {remaining kept : List Subscriber}
    (present : state.tasks.get call = some (.setRespond client remaining kept)) :
    Seen log state state.current_value := by
  obtain ⟨value, seen⟩ := converging.seen
  have held := converging.clientsGuard.held present rfl
  have current := seen.updating (by simp [held])
  subst current
  exact seen

theorem Converging.updated (converging : Converging log state) {remaining kept : List Subscriber}
    (present : state.tasks.get call = some (.setRespond client remaining kept)) :
    Converging (log ++ [.delivered client state.current_value])
      (state.broadcast call (kept ++ [client]) remaining) := by
  have seen := converging.serving present
  apply converging.broadcast present rfl (.inr rfl) seen.responding
  · intro other receiver response there
    have before := seen.pushing other receiver response there
    exact ⟨before.1, lastDelivered_again before.2⟩
  · intro receiver member
    rcases List.mem_append.mp member with old | new
    · exact lastDelivered_again (converging.kept call client remaining kept receiver present old)
    · rw [List.mem_singleton.mp new]
      exact lastDelivered_self

theorem Converging.dropped (converging : Converging log state) {remaining kept : List Subscriber}
    (present : state.tasks.get call = some (.setRespond client remaining kept)) :
    Converging log (state.broadcast call kept remaining) := by
  have seen := converging.serving present
  apply converging.broadcast present rfl (.inr rfl) seen.responding seen.pushing
  intro receiver member
  exact converging.kept call client remaining kept receiver present member

theorem Converging.resume (converging : Converging log state) (present : state.tasks.get call = some phase)
    (upToDate : state.DrainsUpToDate (.run call input)) (resumes : state.Resumes call phase input after out) :
    Converging (log ++ out) after := by
  have silent : log ++ [] = log := List.append_nil log
  cases resumes with
  | valueRead client free =>
    rw [silent]
    exact converging.valueRead present free
  | valueSent client response => exact converging.valueSent present
  | valueRefused client response =>
    rw [silent]
    exact converging.finish present rfl
  | setRefused text =>
    rw [silent]
    exact converging.finish present rfl
  | pushed client response free =>
    rw [silent]
    exact converging.pushed present
  | valueWritten value_bson free =>
    rw [silent]
    exact converging.valueWritten present free
  | drained free =>
    rw [silent]
    exact converging.drained present free upToDate
  | updated client remaining kept => exact converging.updated present
  | dropped client remaining kept =>
    rw [silent]
    exact converging.dropped present

theorem Converging.begin (converging : Converging log state) (fresh : state.Fresh) (value : T)
    {next : StatePhase Bson}
    (starts : (∃ client, next = .addValue client) ∨ (∃ text, next = .setFailed text) ∨
      ∃ value_bson, next = .setValue value_bson) :
    Converging log ({ state with value }.begin next) := by
  have idle : next.holdsValue = false ∧ next.holdsClients = false := by
    rcases starts with ⟨_, rfl⟩ | ⟨_, rfl⟩ | ⟨_, rfl⟩ <;> exact ⟨rfl, rfl⟩
  have unused : state.tasks.get state.clock = none := Table.fresh_absent fresh
  have first : (∀ client response, next ≠ .addRespond client response) ∧
      (∀ client response, next ≠ .addPush client response) ∧
      ∀ client remaining kept, next ≠ .setRespond client remaining kept := by
    rcases starts with ⟨_, rfl⟩ | ⟨_, rfl⟩ | ⟨_, rfl⟩ <;> simp
  obtain ⟨notResponding, notPushing, notServing⟩ := first
  obtain ⟨seenValue, seen⟩ := converging.seen
  refine ⟨converging.valueGuard.spawn unused idle.1, converging.clientsGuard.spawn unused idle.2,
    ⟨seenValue, seen.responding_elsewhere notResponding, seen.pushing_elsewhere notPushing, seen.settled,
      seen.updating⟩, ?_⟩
  intro call client remaining kept other there
  have before := insert_of_ne there (notServing client remaining kept)
  exact converging.kept call client remaining kept other before.2

theorem Converging.preserved (converging : Converging log state) (fresh : state.Fresh) {action : StateAction T}
    (upToDate : state.DrainsUpToDate action)
    (taken : State.step toBson state action = some (after, out)) : Converging (log ++ out) after := by
  rcases State.step_cases taken with ⟨value, phase, rfl, rfl, starts⟩ | ⟨call, input, phase, rfl, present, resumes⟩
  · rw [List.append_nil]
    exact converging.begin fresh value starts
  · exact converging.resume present upToDate resumes

theorem Converging.initial {value : T} (made : State.new toBson value = .ok state) :
    Converging [] state := by
  unfold State.new at made
  split at made
  · rename_i bson _
    cases made
    refine ⟨?_, ?_, ⟨bson, by simp, by simp, by simp, by simp⟩, by simp⟩
    · intro owner
      simp
    · intro owner
      simp
  · cases made

theorem run_converging {origin : State T Bson} {value : T} (made : State.new toBson value = .ok origin)
    (run : Transition.RunWith (State.step toBson) State.DrainsUpToDate origin log state) :
    Converging log state := by
  apply run.invariant (Converging.initial made)
  intro log state action after out before converging upToDate taken
  exact converging.preserved (run_fresh made before) upToDate taken

/-- If no broadcast starts while a client that has read another value is still being added, then
    every client of the list has got the current value once all futures are through. -/
theorem subscribers_converge {origin : State T Bson} {value : T}
    (made : State.new toBson value = .ok origin)
    (run : Transition.RunWith (State.step toBson) State.DrainsUpToDate origin log state)
    (quiescent : state.Quiescent) (member : client ∈ state.clients) :
    lastDelivered log client = some state.current_value := by
  have converging := run_converging made run
  have unlocked : state.valueLock = none := by
    by_contra held
    obtain ⟨call, phase, present, holds⟩ := converging.valueGuard.ne_none_iff.mp held
    rw [quiescent call phase present] at holds
    cases holds
  obtain ⟨seenValue, seen⟩ := converging.seen
  have settled := seen.settled unlocked
  rw [← settled.1]
  exact settled.2 client member

def numberState : State Nat Nat :=
  { clients := []
    value := 0
    current_value := 0
    clientsLock := none
    valueLock := none
    tasks := .empty
    clock := 0 }

def State.drainsAlone (state : State Nat Nat) : StateAction Nat → Bool
  | .run call .locked => state.tasks.get call != some .setClients ||
      state.phases.all fun phase => phase == .finished || phase == .setClients
  | _ => true

theorem State.drainsUpToDate_of_drainsAlone {state : State Nat Nat} {action : StateAction Nat}
    (fresh : state.Fresh) (alone : state.drainsAlone action = true) : state.DrainsUpToDate action := by
  unfold State.DrainsUpToDate
  split
  · intro drains other client response adding
    simp only [State.drainsAlone, drains, bne_self_eq_false, Bool.false_or, List.all_eq_true] at alone
    rcases adding with there | there
    · have ended := alone _ (fresh.mem_phases there)
      simp at ended
    · have ended := alone _ (fresh.mem_phases there)
      simp at ended
  · trivial

theorem subscribers_converge_in_turn : ∃ log state,
    Transition.RunWith (State.step Except.ok) State.DrainsUpToDate numberState log state ∧
    state.Quiescent ∧ state.clients = [⟨1, 7⟩] ∧ lastDelivered log ⟨1, 7⟩ = some 5 := by
  obtain ⟨log, state, run, ended⟩ := Transition.exists_run_of_execute
    (Transition.guarded (State.step Except.ok) State.drainsAlone) numberState
    [.addClient ⟨1, 7⟩, .run 0 .locked, .run 0 (.responded true), .run 0 .locked, .set 5, .run 1 .locked,
      .run 1 .locked, .run 1 (.responded true)]
    (fun _ state => state.phases.all (· == .finished) && (state.clients == [⟨1, 7⟩] && state.current_value == 5))
    (by decide +kernel)
  have made : State.new Except.ok 0 = .ok numberState := rfl
  have allowed : Transition.RunWith (State.step Except.ok) State.DrainsUpToDate numberState log state := by
    apply run.of_guarded
    intro log state action before passed
    exact State.drainsUpToDate_of_drainsAlone (run_fresh made before) passed
  rw [Bool.and_eq_true, Bool.and_eq_true, beq_iff_eq, beq_iff_eq, List.all_eq_true] at ended
  have quiescent : state.Quiescent := by
    intro call phase present
    exact beq_iff_eq.mp (ended.1 phase ((run_fresh made allowed).mem_phases present))
  have member : (⟨1, 7⟩ : Subscriber) ∈ state.clients := by simp [ended.2.1]
  have delivered := subscribers_converge made allowed quiescent member
  rw [ended.2.2] at delivered
  exact ⟨log, state, allowed, quiescent, ended.2.1, delivered⟩

theorem subscriber_misses_update : ∃ log state,
    Transition.Run (State.step Except.ok) numberState log state ∧ state.Quiescent ∧
    (⟨1, 7⟩ : Subscriber) ∈ state.clients ∧ lastDelivered log ⟨1, 7⟩ = some 0 ∧ state.current_value = 5 := by
  obtain ⟨log, state, run, ended⟩ := Transition.exists_run_of_execute (State.step Except.ok) numberState
    [.addClient ⟨1, 7⟩, .run 0 .locked, .set 5, .run 1 .locked, .run 1 .locked, .run 0 (.responded true),
      .run 0 .locked]
    (fun log state => state.phases.all (· == .finished) && (state.clients == [⟨1, 7⟩] &&
      (lastDelivered log ⟨1, 7⟩ == some 0 && state.current_value == 5))) (by decide +kernel)
  have made : State.new Except.ok 0 = .ok numberState := rfl
  simp only [Bool.and_eq_true, beq_iff_eq, List.all_eq_true] at ended
  obtain ⟨finished, clients, delivered, value⟩ := ended
  refine ⟨log, state, run, ?_, by simp [clients], delivered, value⟩
  intro call phase present
  exact finished phase ((run_fresh made run).mem_phases present)

end KrossbarLib
