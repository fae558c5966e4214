import KrossbarBus.Collections.Drain
import KrossbarBus.Lib.Emissions
import KrossbarBus.Lib.StateConvergence

namespace KrossbarLib

variable {T Bson : Type} {toBson : T → Except String Bson} {signal next : Signal T Bson}
  {state after : State T Bson} {call : Nat} {signalOut signalLog : List (SignalEvent Bson)}
  {out log : List (StateEvent Bson)}

/-- The futures that `emit` and `set` return may be dropped at any of their awaits. -/
inductive FutureAction (α : Type)
  | act (action : α)
  | drop (call : Nat)

/-- The drop of an emission in its broadcast drops the guard, the drain and what has been collected. -/
def Signal.drop (signal : Signal T Bson) (call : Nat) : SignalPhase T Bson → Option (Signal T Bson)
  | .emitting _ => some { signal with tasks := signal.tasks.remove call }
  | .locking _ => some { signal with tasks := signal.tasks.remove call }
  | .responding .. => some { signal with clientsLock := none, tasks := signal.tasks.remove call }
  | _ => none

def Signal.stepOrDrop (toBson : T → Except String Bson) :
    Transition.Step (Signal T Bson) (FutureAction (SignalAction T)) (SignalEvent Bson)
  | signal, .act action => Signal.step toBson signal action
  | signal, .drop call =>
    match (signal.tasks.get call).bind (signal.drop call) with
    | none => none
    | some after => some (after, [])

def State.drop (state : State T Bson) (call : Nat) : StatePhase Bson → Option (State T Bson)
  | .setFailed _ => some { state with tasks := state.tasks.remove call }
  | .setValue _ => some { state with tasks := state.tasks.remove call }
  | .setClients => some { state with valueLock := none, tasks := state.tasks.remove call }
  | .setRespond .. => some { state with
      valueLock := none
      clientsLock := none
      tasks := state.tasks.remove call }
  | _ => none

def State.stepOrDrop (toBson : T → Except String Bson) :
    Transition.Step (State T Bson) (FutureAction (StateAction T)) (StateEvent Bson)
  | state, .act action => State.step toBson state action
  | state, .drop call =>
    match (state.tasks.get call).bind (state.drop call) with
    | none => none
    | some after => some (after, [])

def SignalPhase.taken : SignalPhase T Bson → List SignalClient
  | .responding _ client remaining kept => kept ++ client :: remaining
  | _ => []

def StatePhase.taken : StatePhase Bson → List Subscriber
  | .setRespond client remaining kept => kept ++ client :: remaining
  | _ => []

/-- The clients in the list, and those of the broadcast in progress that have not refused it. -/
def Signal.subscribers (signal : Signal T Bson) : List SignalClient :=
  signal.tasks.members SignalPhase.taken signal.clientsLock signal.clients

def State.subscribers (state : State T Bson) : List Subscriber :=
  state.tasks.members StatePhase.taken state.clientsLock state.clients

/-- The future to be dropped is in its broadcast. -/
def Signal.DropsBroadcast (signal : Signal T Bson) (action : FutureAction (SignalAction T)) : Prop :=
  ∃ call phase, action = .drop call ∧ signal.tasks.get call = some phase ∧ phase.holds = true

def State.DropsBroadcast (state : State T Bson) (action : FutureAction (StateAction T)) : Prop :=
  ∃ call phase, action = .drop call ∧ state.tasks.get call = some phase ∧ phase.holdsClients = true

/-- The writer of the client refuses the message of a broadcast. -/
def Signal.Refuses (signal : Signal T Bson) (action : FutureAction (SignalAction T)) (client : SignalClient) :
    Prop :=
  ∃ call bson remaining kept, action = .act (.run call (.responded false)) ∧
    signal.tasks.get call = some (.responding bson client remaining kept)

def State.Refuses (state : State T Bson) (action : FutureAction (StateAction T)) (client : Subscriber) :
    Prop :=
  ∃ call remaining kept, action = .act (.run call (.responded false)) ∧
    state.tasks.get call = some (.setRespond client remaining kept)

structure Signal.Lending (signal : Signal T Bson) : Prop where
  fresh : ∀ call phase, signal.tasks.get call = some phase → call < signal.clock
  drained : signal.tasks.Drained SignalPhase.holds signal.clientsLock signal.clients

theorem Signal.Lending.new : (Signal.new : Signal T Bson).Lending where
  fresh call phase there := by cases there
  drained := ⟨by simp [Table.Guards, Signal.new], fun held => absurd rfl held⟩

theorem Signal.Lending.begin (lending : signal.Lending) {phase : SignalPhase T Bson}
    (idle : phase.holds = false) :
    (signal.begin phase).Lending ∧ (signal.begin phase).subscribers = signal.subscribers := by
  have unused : signal.tasks.get signal.clock = none := Table.fresh_absent lending.fresh
  have unheld : signal.clientsLock ≠ some signal.clock := lending.drained.unheld unused
  exact ⟨⟨Table.fresh_next lending.fresh, lending.drained.spawn unused idle⟩, Table.members_insert unheld⟩

theorem Signal.Lending.goto (lending : signal.Lending) {phase : SignalPhase T Bson}
    (later : SignalPhase T Bson) (present : signal.tasks.get call = some phase) (was : phase.holds = false)
    (now : later.holds = false) :
    (signal.goto call later).Lending ∧ (signal.goto call later).subscribers = signal.subscribers :=
  ⟨⟨Table.fresh_insert lending.fresh present, lending.drained.pass present was now⟩,
    Table.members_insert (lending.drained.free present was)⟩

/-- A broadcast keeps the clients that have taken its message and those that are still to get it. -/
theorem Signal.Lending.broadcast (lending : signal.Lending) {phase : SignalPhase T Bson}
    (present : signal.tasks.get call = some phase) (free : signal.clientsLock = none ∨ phase.holds = true)
    (bson : Bson) (kept remaining : List SignalClient) :
    (signal.broadcast call bson kept remaining).1.Lending ∧
      (signal.broadcast call bson kept remaining).1.subscribers = kept ++ remaining := by
  cases remaining with
  | nil =>
    refine ⟨⟨Table.fresh_insert lending.fresh present,
      lending.drained.vacate present free rfl kept⟩, ?_⟩
    simp [Signal.broadcast, Signal.subscribers]
  | cons client remaining =>
    refine ⟨⟨Table.fresh_insert lending.fresh present,
      lending.drained.take present free rfl⟩, ?_⟩
    have serving : (signal.tasks.insert call (.responding bson client remaining kept)).get call =
        some (.responding bson client remaining kept) := Table.get_insert_self
    exact Table.members_held serving

theorem Signal.Lending.subscribers_held (lending : signal.Lending) {phase : SignalPhase T Bson}
    (present : signal.tasks.get call = some phase) (holding : phase.holds = true) :
    signal.subscribers = phase.taken := lending.drained.members_owner present holding

theorem Signal.subscribers_free (free : signal.clientsLock = none) :
    signal.subscribers = signal.clients := by
  rw [Signal.subscribers, free, Table.members_free]

theorem Signal.Lending.resume (lending : signal.Lending) {phase : SignalPhase T Bson} {input : SignalInput}
    (present : signal.tasks.get call = some phase)
    (resumes : signal.Resumes toBson call phase input (next, signalOut)) :
    next.Lending ∧ ∀ client ∈ signal.subscribers, client ∈ next.subscribers ∨
      signal.Refuses (.act (.run call input)) client := by
  generalize result : (next, signalOut) = outcome at resumes
  cases resumes with
  | pushed client free =>
    cases result
    have advanced := lending.goto .finished present rfl rfl
    have unlocked : (signal.goto call .finished).clientsLock = none := free
    refine ⟨⟨advanced.1.fresh, advanced.1.drained.guard, fun held => absurd free held⟩, ?_⟩
    intro other member
    rw [Signal.subscribers_free free] at member
    rw [Signal.subscribers_free (by exact free)]
    exact .inl (List.mem_append_left _ member)
  | serialized data bson ok =>
    cases result
    obtain ⟨lends, same⟩ := lending.goto (.locking bson) present rfl rfl
    exact ⟨lends, fun client member => .inl (by rw [same]; exact member)⟩
  | failed data text error =>
    cases result
    obtain ⟨lends, same⟩ := lending.goto .finished present rfl rfl
    exact ⟨lends, fun client member => .inl (by rw [same]; exact member)⟩
  | drained bson free =>
    obtain ⟨lends, same⟩ := lending.broadcast present (.inl free) bson [] signal.clients
    rw [← result] at lends same
    refine ⟨lends, fun client member => .inl ?_⟩
    rw [Signal.subscribers_free free] at member
    rw [same]
    exact member
  | answered bson client remaining kept ok =>
    have before := lending.subscribers_held present rfl
    cases ok with
    | true =>
      obtain ⟨lends, same⟩ := lending.broadcast present (.inr rfl) bson (kept ++ [client]) remaining
      have reached : next = (signal.broadcast call bson (kept ++ [client]) remaining).1 := congrArg Prod.fst result
      rw [← reached] at lends same
      refine ⟨lends, fun other member => .inl ?_⟩
      rw [before] at member
      rw [same]
      simpa [SignalPhase.taken] using member
    | false =>
      obtain ⟨lends, same⟩ := lending.broadcast present (.inr rfl) bson kept remaining
      have reached : next = (signal.broadcast call bson kept remaining).1 := congrArg Prod.fst result
      rw [← reached] at lends same
      refine ⟨lends, fun other member => ?_⟩
      rw [before] at member
      rcases List.mem_append.mp member with served | unserved
      · exact .inl (by rw [same]; exact List.mem_append_left _ served)
      · rcases List.mem_cons.mp unserved with rfl | later
        · exact .inr ⟨call, bson, remaining, kept, rfl, present⟩
        · exact .inl (by rw [same]; exact List.mem_append_right _ later)

theorem Signal.Lending.remove (lending : signal.Lending) {phase : SignalPhase T Bson}
    (present : signal.tasks.get call = some phase) (idle : phase.holds = false) :
    { signal with tasks := signal.tasks.remove call }.Lending ∧
      { signal with tasks := signal.tasks.remove call }.subscribers = signal.subscribers :=
  ⟨⟨Table.fresh_remove lending.fresh,
    lending.drained.remove present idle⟩, Table.members_remove (lending.drained.free present idle)⟩

/-- The drop of an emission in its broadcast leaves an empty list. -/
theorem Signal.Lending.abandon (lending : signal.Lending) {phase : SignalPhase T Bson}
    (present : signal.tasks.get call = some phase) (holding : phase.holds = true) :
    { signal with clientsLock := none, tasks := signal.tasks.remove call }.Lending ∧
      { signal with clientsLock := none, tasks := signal.tasks.remove call }.subscribers = [] := by
  refine ⟨⟨Table.fresh_remove lending.fresh,
    lending.drained.abandon present holding⟩, ?_⟩
  rw [Signal.subscribers_free rfl]
  exact lending.drained.emptied (by simp [lending.drained.guard.held present holding])

theorem Signal.Lending.step (lending : signal.Lending) {action : FutureAction (SignalAction T)}
    (taken : Signal.stepOrDrop toBson signal action = some (next, signalOut)) :
    next.Lending ∧ ((∀ client ∈ signal.subscribers, client ∈ next.subscribers ∨ signal.Refuses action client) ↔
      ¬ signal.DropsBroadcast action) := by
  cases action with
  | act action =>
    have alive : ¬ signal.DropsBroadcast (.act action) := by
      intro drops
      obtain ⟨_, _, same, _⟩ := drops
      cases same
    suffices kept : next.Lending ∧ ∀ client ∈ signal.subscribers, client ∈ next.subscribers ∨
        signal.Refuses (.act action) client from ⟨kept.1, iff_of_true kept.2 alive⟩
    rcases Signal.step_cases taken with ⟨starts, rfl⟩ | ⟨call, input, phase, rfl, present, resumes⟩
    · obtain ⟨phase, rfl, idle⟩ : ∃ phase, next = signal.begin phase ∧ phase.holds = false := by
        rcases starts with ⟨sub_id, writer, rfl⟩ | ⟨data, rfl⟩
        · exact ⟨_, rfl, rfl⟩
        · exact ⟨_, rfl, rfl⟩
      obtain ⟨lends, same⟩ := lending.begin idle
      exact ⟨lends, fun client member => .inl (by rw [same]; exact member)⟩
    · exact lending.resume present resumes
  | drop call =>
    have unheard : ∀ client, ¬ signal.Refuses (.drop call) client := by
      intro client refuses
      obtain ⟨_, _, _, _, same, _⟩ := refuses
      cases same
    simp only [Signal.stepOrDrop] at taken
    split at taken
    · cases taken
    · rename_i dropped
      cases taken
      obtain ⟨phase, present, dropped⟩ := Option.bind_eq_some_iff.mp dropped
      have dropsIff : signal.DropsBroadcast (.drop call) ↔ phase.holds = true := by
        constructor
        · rintro ⟨_, found, same, there, holding⟩
          cases same
          rw [present] at there
          cases there
          exact holding
        · intro holding
          exact ⟨call, phase, rfl, present, holding⟩
      have removed : phase.holds = false → next = { signal with tasks := signal.tasks.remove call } →
          next.Lending ∧ ((∀ client ∈ signal.subscribers, client ∈ next.subscribers ∨
            signal.Refuses (.drop call) client) ↔ ¬ phase.holds = true) := by
        rintro idle rfl
        obtain ⟨lends, same⟩ := lending.remove present idle
        exact ⟨lends, iff_of_true (fun client member => .inl (by rw [same]; exact member)) (by simp [idle])⟩
      rw [dropsIff]
      cases phase with
      | emitting data => exact removed rfl (Option.some.inj dropped).symm
      | locking bson => exact removed rfl (Option.some.inj dropped).symm
      | responding bson client remaining kept =>
        cases dropped
        obtain ⟨lends, none⟩ := lending.abandon present rfl
        refine ⟨lends, iff_of_false ?_ (by simp [SignalPhase.holds])⟩
        intro all
        have listening : client ∈ signal.subscribers := by
          rw [lending.subscribers_held present rfl]
          simp [SignalPhase.taken]
        rcases all client listening with stays | refuses
        · rw [none] at stays
          cases stays
        · exact unheard client refuses
      | _ => cases dropped

theorem Signal.run_lending (run : Transition.Run (Signal.stepOrDrop toBson) Signal.new signalLog signal) :
    signal.Lending := by
  apply run.invariant (I := fun _ signal => signal.Lending) Signal.Lending.new
  intro _ _ _ _ _ _ lending _ taken
  exact (lending.step taken).1

structure State.Lending (state : State T Bson) : Prop where
  fresh : state.Fresh
  drained : state.tasks.Drained StatePhase.holdsClients state.clientsLock state.clients

theorem State.Lending.new {value : T} {origin : State T Bson} (made : State.new toBson value = .ok origin) :
    origin.Lending := by
  unfold State.new at made
  split at made
  · cases made
    exact ⟨fun call phase there => (by cases there), by simp [Table.Guards], fun held => absurd rfl held⟩
  · cases made

theorem State.subscribers_free (free : state.clientsLock = none) : state.subscribers = state.clients := by
  rw [State.subscribers, free, Table.members_free]

theorem State.Lending.goto (lending : state.Lending) {phase later : StatePhase Bson}
    (present : state.tasks.get call = some phase) (was : phase.holdsClients = false)
    (now : later.holdsClients = false) :
    (state.goto call later).Lending ∧ (state.goto call later).subscribers = state.subscribers :=
  ⟨⟨Table.fresh_insert lending.fresh present, lending.drained.pass present was now⟩,
    Table.members_insert (lending.drained.free present was)⟩

theorem State.Lending.begin (lending : state.Lending) (value : T) {phase : StatePhase Bson}
    (idle : phase.holdsClients = false) :
    ({ state with value }.begin phase).Lending ∧
      ({ state with value }.begin phase).subscribers = state.subscribers := by
  have unused : state.tasks.get state.clock = none := Table.fresh_absent lending.fresh
  have unheld : state.clientsLock ≠ some state.clock := lending.drained.unheld unused
  exact ⟨⟨Table.fresh_next lending.fresh, lending.drained.spawn unused idle⟩, Table.members_insert unheld⟩

theorem State.Lending.broadcast (lending : state.Lending) {phase : StatePhase Bson}
    (present : state.tasks.get call = some phase)
    (free : state.clientsLock = none ∨ phase.holdsClients = true) (kept remaining : List Subscriber) :
    (state.broadcast call kept remaining).Lending ∧
      (state.broadcast call kept remaining).subscribers = kept ++ remaining := by
  cases remaining with
  | nil =>
    refine ⟨⟨Table.fresh_insert lending.fresh present,
      lending.drained.vacate present free rfl kept⟩, ?_⟩
    simp [State.broadcast, State.subscribers]
  | cons client remaining =>
    refine ⟨⟨Table.fresh_insert lending.fresh present,
      lending.drained.take present free rfl⟩, ?_⟩
    have serving : (state.tasks.insert call (.setRespond client remaining kept)).get call =
        some (.setRespond client remaining kept) := Table.get_insert_self
    exact Table.members_held serving

theorem State.Lending.subscribers_held (lending : state.Lending) {phase : StatePhase Bson}
    (present : state.tasks.get call = some phase) (holding : phase.holdsClients = true) :
    state.subscribers = phase.taken := lending.drained.members_owner present holding

theorem State.Lending.resume (lending : state.Lending) {phase : StatePhase Bson} {input : StateInput}
    (present : state.tasks.get call = some phase) (resumes : state.Resumes call phase input after out) :
    after.Lending ∧ ∀ client ∈ state.subscribers, client ∈ after.subscribers ∨
      state.Refuses (.act (.run call input)) client := by
  have pass : ∀ later : StatePhase Bson, phase.holdsClients = false → later.holdsClients = false →
      (state.goto call later).Lending ∧ ∀ client ∈ state.subscribers,
        client ∈ (state.goto call later).subscribers ∨ state.Refuses (.act (.run call input)) client := by
    intro later was now
    obtain ⟨lends, same⟩ := lending.goto present was now
    exact ⟨lends, fun client member => .inl (by rw [same]; exact member)⟩
  cases resumes with
  | valueRead client free => exact pass _ rfl rfl
  | valueSent client response => exact pass _ rfl rfl
  | valueRefused client response => exact pass _ rfl rfl
  | setRefused text => exact pass _ rfl rfl
  | valueWritten value_bson free => exact ⟨⟨(pass _ rfl rfl).1.fresh, (pass _ rfl rfl).1.drained⟩, (pass _ rfl rfl).2⟩
  | pushed client response free =>
    have advanced := (pass .finished rfl rfl).1
    refine ⟨⟨advanced.fresh, advanced.drained.guard, fun held => absurd free held⟩, ?_⟩
    intro other member
    rw [State.subscribers_free free] at member
    rw [State.subscribers_free (by exact free)]
    exact .inl (List.mem_append_left _ member)
  | drained free =>
    obtain ⟨lends, same⟩ := lending.broadcast present (.inl free) [] state.clients
    refine ⟨lends, fun client member => .inl ?_⟩
    rw [State.subscribers_free free] at member
    rw [same]
    exact member
  | updated client remaining kept =>
    obtain ⟨lends, same⟩ := lending.broadcast present (.inr rfl) (kept ++ [client]) remaining
    refine ⟨lends, fun other member => .inl ?_⟩
    rw [lending.subscribers_held present rfl] at member
    rw [same]
    simpa [StatePhase.taken] using member
  | dropped client remaining kept =>
    obtain ⟨lends, same⟩ := lending.broadcast present (.inr rfl) kept remaining
    refine ⟨lends, fun other member => ?_⟩
    rw [lending.subscribers_held present rfl] at member
    rcases List.mem_append.mp member with served | unserved
    · exact .inl (by rw [same]; exact List.mem_append_left _ served)
    · rcases List.mem_cons.mp unserved with rfl | later
      · exact .inr ⟨call, remaining, kept, rfl, present⟩
      · exact .inl (by rw [same]; exact List.mem_append_right _ later)

theorem State.Lending.remove (lending : state.Lending) {phase : StatePhase Bson}
    (present : state.tasks.get call = some phase) (idle : phase.holdsClients = false) (lock : Option Nat) :
    { state with valueLock := lock, tasks := state.tasks.remove call }.Lending ∧
      { state with valueLock := lock, tasks := state.tasks.remove call }.subscribers = state.subscribers :=
  ⟨⟨Table.fresh_remove lending.fresh,
    lending.drained.remove present idle⟩, Table.members_remove (lending.drained.free present idle)⟩

theorem State.Lending.abandon (lending : state.Lending) {phase : StatePhase Bson}
    (present : state.tasks.get call = some phase) (holding : phase.holdsClients = true) :
    { state with valueLock := none, clientsLock := none, tasks := state.tasks.remove call }.Lending ∧
      { state with valueLock := none, clientsLock := none, tasks := state.tasks.remove call }.subscribers = [] := by
  refine ⟨⟨Table.fresh_remove lending.fresh,
    lending.drained.abandon present holding⟩, ?_⟩
  rw [State.subscribers_free rfl]
  exact lending.drained.emptied (by simp [lending.drained.guard.held present holding])

theorem State.act_drops_nothing (state : State T Bson) (action : StateAction T) :
    ¬ state.DropsBroadcast (.act action) := by
  intro drops
  obtain ⟨_, _, same, _⟩ := drops
  cases same

theorem State.Lending.step (lending : state.Lending) {action : FutureAction (StateAction T)}
    (taken : State.stepOrDrop toBson state action = some (after, out)) :
    after.Lending ∧ ((∀ client ∈ state.subscribers, client ∈ after.subscribers ∨ state.Refuses action client) ↔
      ¬ state.DropsBroadcast action) := by
  cases action with
  | act action =>
    have alive := state.act_drops_nothing action
    suffices kept : after.Lending ∧ ∀ client ∈ state.subscribers, client ∈ after.subscribers ∨
        state.Refuses (.act action) client from ⟨kept.1, iff_of_true kept.2 alive⟩
    rcases State.step_cases taken with ⟨value, phase, rfl, rfl, starts⟩ | ⟨call, input, phase, rfl, present, resumes⟩
    · have idle : phase.holdsClients = false := by
        rcases starts with ⟨client, rfl⟩ | ⟨text, rfl⟩ | ⟨value_bson, rfl⟩ <;> rfl
      obtain ⟨lends, same⟩ := lending.begin value idle
      exact ⟨lends, fun client member => .inl (by rw [same]; exact member)⟩
    · exact lending.resume present resumes
  | drop call =>
    have unheard : ∀ client, ¬ state.Refuses (.drop call) client := by
      intro client refuses
      obtain ⟨_, _, _, same, _⟩ := refuses
      cases same
    simp only [State.stepOrDrop] at taken
    split at taken
    · cases taken
    · rename_i dropped
      cases taken
      obtain ⟨phase, present, dropped⟩ := Option.bind_eq_some_iff.mp dropped
      have dropsIff : state.DropsBroadcast (.drop call) ↔ phase.holdsClients = true := by
        constructor
        · rintro ⟨_, found, same, there, holding⟩
          cases same
          rw [present] at there
          cases there
          exact holding
        · intro holding
          exact ⟨call, phase, rfl, present, holding⟩
      have removed : ∀ lock, phase.holdsClients = false →
          after = { state with valueLock := lock, tasks := state.tasks.remove call } →
          after.Lending ∧ ((∀ client ∈ state.subscribers, client ∈ after.subscribers ∨
            state.Refuses (.drop call) client) ↔ ¬ phase.holdsClients = true) := by
        rintro lock idle rfl
        obtain ⟨lends, same⟩ := lending.remove present idle lock
        exact ⟨lends, iff_of_true (fun client member => .inl (by rw [same]; exact member)) (by simp [idle])⟩
      rw [dropsIff]
      cases phase with
      | setFailed text => exact removed state.valueLock rfl (Option.some.inj dropped).symm
      | setValue value_bson => exact removed state.valueLock rfl (Option.some.inj dropped).symm
      | setClients => exact removed none rfl (Option.some.inj dropped).symm
      | setRespond client remaining kept =>
        cases dropped
        obtain ⟨lends, none⟩ := lending.abandon present rfl
        refine ⟨lends, iff_of_false ?_ (by simp [StatePhase.holdsClients])⟩
        intro all
        have listening : client ∈ state.subscribers := by
          rw [lending.subscribers_held present rfl]
          simp [StatePhase.taken]
        rcases all client listening with stays | refuses
        · rw [none] at stays
          cases stays
        · exact unheard client refuses
      | _ => cases dropped

/-- Subscribers are lost to a refusal of their own, or to the drop of a future in its broadcast: any such
    drop loses some, and nothing else does. -/
theorem abandoned_broadcasts_keep (toBson : T → Except String Bson) :
    (∀ log signal action next out, Transition.Run (Signal.stepOrDrop toBson) Signal.new log signal →
      Signal.stepOrDrop toBson signal action = some (next, out) →
      ((∀ client ∈ signal.subscribers, client ∈ next.subscribers ∨ signal.Refuses action client) ↔
        ¬ signal.DropsBroadcast action)) ∧
    ∀ value origin log state action after out, State.new toBson value = .ok origin →
      Transition.Run (State.stepOrDrop toBson) origin log state →
      State.stepOrDrop toBson state action = some (after, out) →
      ((∀ client ∈ state.subscribers, client ∈ after.subscribers ∨ state.Refuses action client) ↔
        ¬ state.DropsBroadcast action) := by
  constructor
  · intro log signal action next out run taken
    exact ((Signal.run_lending run).step taken).2
  · intro value origin log state action after out made run taken
    have lending : state.Lending := run.invariant (I := fun _ state => state.Lending) (State.Lending.new made)
      fun _ _ _ _ _ _ lending _ taken => (lending.step taken).1
    exact (lending.step taken).2

/-- Two clients have joined a signal, and an emission has begun. -/
def emittingActions : List (FutureAction (SignalAction Nat)) :=
  [.act (.addClient 1 10), .act (.run 0 .locked), .act (.addClient 2 20), .act (.run 1 .locked),
    .act (.emit 5), .act (.run 2 .polled)]

def plainSignal : Transition.Step (Signal Nat Nat) (FutureAction (SignalAction Nat)) (SignalEvent Nat) :=
  Signal.stepOrDrop fun data => .ok data

def SignalEvent.refuses {Bson : Type} : SignalEvent Bson → Bool
  | .refused .. => true
  | _ => false

theorem abandoned_broadcasts_keep_waiting : ∃ log signal next out,
    Transition.Run plainSignal Signal.new log signal ∧ plainSignal signal (.drop 2) = some (next, out) ∧
    signal.subscribers = [⟨0, 1, 10⟩, ⟨1, 2, 20⟩] ∧ ∀ client ∈ signal.subscribers, client ∈ next.subscribers := by
  obtain ⟨log, signal, run, shown⟩ := Transition.exists_run_of_execute plainSignal Signal.new emittingActions
    (fun _ signal => (plainSignal signal (.drop 2)).isSome &&
      signal.subscribers == [⟨0, 1, 10⟩, ⟨1, 2, 20⟩] && signal.clientsLock == none) (by decide +kernel)
  rw [Bool.and_eq_true, Bool.and_eq_true, Option.isSome_iff_exists, beq_iff_eq, beq_iff_eq] at shown
  obtain ⟨⟨⟨⟨next, out⟩, taken⟩, joined⟩, free⟩ := shown
  refine ⟨log, signal, next, out, run, taken, joined, ?_⟩
  intro client member
  have waiting : ¬ signal.DropsBroadcast (.drop 2) := by
    rintro ⟨call, phase, same, present, holding⟩
    have held := (Signal.run_lending run).drained.guard.held present holding
    rw [held] at free
    cases free
  rcases ((abandoned_broadcasts_keep fun data => .ok data).1 log signal _ next out run taken).mpr waiting
    client member with kept | ⟨_, _, _, _, refuses, _⟩
  · exact kept
  · cases refuses

theorem abandoned_emission_unsubscribes : ∃ log signal next out,
    Transition.Run plainSignal Signal.new log signal ∧ plainSignal signal (.drop 2) = some (next, out) ∧
    signal.subscribers = [⟨0, 1, 10⟩, ⟨1, 2, 20⟩] ∧ (∀ event ∈ log, event.refuses = false) ∧ next.clients = [] := by
  obtain ⟨log, signal, run, shown⟩ := Transition.exists_run_of_execute plainSignal Signal.new
    (emittingActions ++ [.act (.run 2 .locked)])
    (fun log signal => (plainSignal signal (.drop 2)).any (fun r => r.1.clients == []) &&
      signal.subscribers == [⟨0, 1, 10⟩, ⟨1, 2, 20⟩] && log.all (fun event => !event.refuses)) (by decide +kernel)
  rw [Bool.and_eq_true, Bool.and_eq_true, Option.any_eq_true, beq_iff_eq, List.all_eq_true] at shown
  obtain ⟨⟨⟨⟨next, out⟩, taken, emptied⟩, joined⟩, unrefused⟩ := shown
  exact ⟨log, signal, next, out, run, taken, joined, fun event member => by simpa using unrefused event member,
    beq_iff_eq.mp emptied⟩

end KrossbarLib
