import KrossbarBus.Lib.AbandonedBroadcasts

namespace KrossbarLib

open Transition

variable {T Bson : Type} {toBson : T → Except String Bson} {state after : State T Bson} {call : Nat}
  {action : StateAction T} {client : Subscriber} {out : List (StateEvent Bson)}

/-- What the users of a state have done, and what the writers have said to its broadcasts. -/
inductive StateRecord (T Bson : Type)
  | set (value : T)
  | sent (client : Subscriber) (value : Bson)
  | refused (client : Subscriber)
  deriving DecidableEq

def State.records (state : State T Bson) : StateAction T → List (StateRecord T Bson)
  | .set value => [.set value]
  | .run call (.responded ok) =>
    match state.tasks.get call with
    | some (.setRespond client _ _) => [if ok then .sent client state.current_value else .refused client]
    | _ => []
  | _ => []

def State.recorded (toBson : T → Except String Bson) :
    Transition.Step (State T Bson) (StateAction T) (StateRecord T Bson) := fun state action =>
  (State.step toBson state action).map fun result => (result.1, state.records action)

def lastSent (log : List (StateRecord T Bson)) (client : Subscriber) : Option Bson :=
  log.foldl (fun last record => match record with
    | .sent receiver value => if receiver = client then some value else last
    | _ => last) none

def StateAction.Serializes (toBson : T → Except String Bson) : StateAction T → Prop
  | .set value => ∃ bson, toBson value = .ok bson
  | _ => True

/-- A future that takes the lock of the value writes what the last call of `set` has set, or leaves that to
    be written by another one. -/
def State.CommitsInOrder (toBson : T → Except String Bson) (state : State T Bson) : StateAction T → Prop
  | .run call .locked => ∀ value_bson, state.tasks.get call = some (.setValue value_bson) →
      toBson state.value = .ok value_bson ∨
      ∃ later bson, later ≠ call ∧ state.tasks.get later = some (.setValue bson) ∧ toBson state.value = .ok bson
  | _ => True

/-- The values that are set serialize, and their futures take the lock in order. -/
def State.Orderly (toBson : T → Except String Bson) (state : State T Bson) (action : StateAction T) : Prop :=
  action.Serializes toBson ∧ state.CommitsInOrder toBson action

def StatePhase.sets : StatePhase Bson → Bool
  | .setFailed _ => true
  | .setValue _ => true
  | .setClients => true
  | .setRespond .. => true
  | _ => false

def State.SetsCompleted (state : State T Bson) : Prop :=
  ∀ call phase, state.tasks.get call = some phase → phase.sets = false

/-- The published value is the local one, or a future has still to publish it. -/
def State.Agrees (toBson : T → Except String Bson) (state : State T Bson) : Prop :=
  toBson state.value = .ok state.current_value ∨
    ∃ call bson, state.tasks.get call = some (.setValue bson) ∧ toBson state.value = .ok bson

/-- A set at this await is going to send its value to the client. -/
def StatePhase.Owes (client : Subscriber) : StatePhase Bson → Prop
  | .setValue _ => True
  | .setClients => True
  | .setRespond next remaining _ => client ∈ next :: remaining
  | _ => False

def State.Owes (state : State T Bson) (client : Subscriber) : Prop :=
  ∃ call phase, state.tasks.get call = some phase ∧ phase.Owes client

theorem recorded_cases {records : List (StateRecord T Bson)}
    (taken : State.recorded toBson state action = some (after, records)) :
    records = state.records action ∧ ∃ out, State.step toBson state action = some (after, out) := by
  obtain ⟨⟨next, out⟩, stepped, same⟩ := Option.map_eq_some_iff.mp taken
  cases same
  exact ⟨rfl, out, stepped⟩

theorem broadcast_value (kept remaining : List Subscriber) :
    (state.broadcast call kept remaining).value = state.value ∧
      (state.broadcast call kept remaining).current_value = state.current_value := by
  cases remaining <;> exact ⟨rfl, rfl⟩

/-- Only the write of a set changes the published value, and no step of a future the local one. -/
theorem State.Resumes.values {phase : StatePhase Bson} {input : StateInput}
    (resumes : state.Resumes call phase input after out) :
    after.value = state.value ∧ (after.current_value = state.current_value ∨
      input = .locked ∧ phase = .setValue after.current_value) := by
  cases resumes with
  | drained free => exact ⟨(broadcast_value _ _).1, .inl (broadcast_value _ _).2⟩
  | updated client remaining kept => exact ⟨(broadcast_value _ _).1, .inl (broadcast_value _ _).2⟩
  | dropped client remaining kept => exact ⟨(broadcast_value _ _).1, .inl (broadcast_value _ _).2⟩
  | valueWritten value_bson free => exact ⟨rfl, .inr ⟨rfl, rfl⟩⟩
  | _ => exact ⟨rfl, .inl rfl⟩

theorem State.Resumes.elsewhere {phase : StatePhase Bson} {input : StateInput}
    (resumes : state.Resumes call phase input after out) {other : Nat} (different : other ≠ call) :
    after.tasks.get other = state.tasks.get other := by
  obtain ⟨_, next, tasks⟩ := resumes.tasks
  rw [tasks, Table.get_insert_of_ne different]

theorem State.Agrees.preserved (agrees : state.Agrees toBson) (fresh : state.Fresh)
    (serializes : action.Serializes toBson) (ordered : state.CommitsInOrder toBson action)
    (taken : State.step toBson state action = some (after, out)) : after.Agrees toBson := by
  cases action with
  | addClient client =>
    cases taken
    rcases agrees with published | ⟨call, bson, pending, same⟩
    · exact .inl published
    · have older : call ≠ state.clock := Nat.ne_of_lt (fresh call _ pending)
      exact .inr ⟨call, bson, (Table.get_insert_of_ne older).trans pending, same⟩
  | set value =>
    obtain ⟨bson, same⟩ := serializes
    simp only [State.step, same] at taken
    cases taken
    exact .inr ⟨state.clock, bson, Table.get_insert_self, same⟩
  | run call input =>
    obtain ⟨phase, present, resumes⟩ := State.run_cases taken
    obtain ⟨kept, written⟩ := resumes.values
    have stays : ∀ later bson, later ≠ call → state.tasks.get later = some (.setValue bson) →
        toBson state.value = .ok bson → after.Agrees toBson := by
      intro later bson different pending same
      exact .inr ⟨later, bson, by rw [resumes.elsewhere different]; exact pending, by rw [kept]; exact same⟩
    rcases written with unchanged | ⟨rfl, rfl⟩
    · rcases agrees with published | ⟨later, bson, pending, same⟩
      · exact .inl (by rw [kept, unchanged]; exact published)
      · by_cases here : later = call
        · subst here
          rw [present] at pending
          cases pending
          cases resumes with
          | valueWritten _ free => exact .inl same
        · exact stays later bson here pending same
    · rcases ordered after.current_value present with same | ⟨later, bson, different, pending, same⟩
      · exact .inl (by rw [kept]; exact same)
      · exact stays later bson different pending same

theorem lastSent_snoc {log : List (StateRecord T Bson)} {receiver : Subscriber} {value : Bson} :
    lastSent (log ++ [.sent receiver value]) client =
      if receiver = client then some value else lastSent log client := by
  simp [lastSent]

theorem lastSent_refused {log : List (StateRecord T Bson)} {receiver : Subscriber} :
    lastSent (log ++ [.refused receiver]) client = lastSent log client := by
  simp [lastSent]

/-- Since the first set, the client has been sent the published value or is going to be. -/
def State.Informs (log : List (StateRecord T Bson)) (state : State T Bson) (client : Subscriber) : Prop :=
  (∃ value, .set value ∈ log) → state.Owes client ∨ lastSent log client = some state.current_value

theorem State.Owes.begin {value : T} {phase : StatePhase Bson} (owes : state.Owes client) (fresh : state.Fresh) :
    ({ state with value }.begin phase).Owes client := by
  obtain ⟨call, found, present, owed⟩ := owes
  have older : call ≠ state.clock := Nat.ne_of_lt (fresh call found present)
  exact ⟨call, found, (Table.get_insert_of_ne older).trans present, owed⟩

theorem State.Owes.broadcast {kept remaining : List Subscriber} (unsent : client ∈ remaining) :
    (state.broadcast call kept remaining).Owes client := by
  cases remaining with
  | nil => cases unsent
  | cons next rest => exact ⟨call, _, Table.get_insert_self, unsent⟩

theorem State.Resumes.informs {phase : StatePhase Bson} {input : StateInput}
    {log : List (StateRecord T Bson)} (resumes : state.Resumes call phase input after out)
    (present : state.tasks.get call = some phase) (listed : client ∈ state.subscribers)
    (unrefused : .refused client ∉ state.records (.run call input))
    (informed : state.Owes client ∨ lastSent log client = some state.current_value) :
    after.Owes client ∨
      lastSent (log ++ state.records (.run call input)) client = some after.current_value := by
  -- what another future owes, it owes still
  have others : state.Owes client → after.Owes client ∨ phase.Owes client := by
    rintro ⟨other, found, there, owed⟩
    by_cases same : other = call
    · subst same
      rw [present] at there
      cases there
      exact .inr owed
    · exact .inl ⟨other, found, by rw [resumes.elsewhere same]; exact there, owed⟩
  have quiet : ¬ phase.Owes client → after.current_value = state.current_value →
      state.records (.run call input) = [] → after.Owes client ∨
        lastSent (log ++ state.records (.run call input)) client = some after.current_value := by
    intro free unchanged silent
    rw [silent, List.append_nil, unchanged]
    rcases informed with owes | sent
    · exact .inl ((others owes).resolve_right free)
    · exact .inr sent
  cases resumes with
  | valueRead client free => exact quiet id rfl rfl
  | valueSent client response => exact quiet id rfl (by simp [State.records, present])
  | valueRefused client response => exact quiet id rfl (by simp [State.records, present])
  | pushed client response free => exact quiet id rfl rfl
  | setRefused text => exact quiet id rfl rfl
  | valueWritten value_bson free => exact .inl ⟨call, .setClients, Table.get_insert_self, trivial⟩
  | drained free =>
    rw [State.subscribers_free free] at listed
    exact .inl (State.Owes.broadcast listed)
  | updated receiver remaining kept =>
    have recorded : state.records (.run call (.responded true)) = [.sent receiver state.current_value] := by
      simp [State.records, present]
    rw [recorded, lastSent_snoc, (broadcast_value _ _).2]
    by_cases same : receiver = client
    · exact .inr (if_pos same)
    · rw [if_neg same]
      rcases informed with owes | sent
      · rcases others owes with owes | owed
        · exact .inl owes
        · exact .inl (State.Owes.broadcast ((List.mem_cons.mp owed).resolve_left (Ne.symm same)))
      · exact .inr sent
  | dropped receiver remaining kept =>
    have recorded : state.records (.run call (.responded false)) = [.refused receiver] := by
      simp [State.records, present]
    rw [recorded, lastSent_refused, (broadcast_value _ _).2]
    rw [recorded, List.mem_singleton] at unrefused
    rcases informed with owes | sent
    · rcases others owes with owes | owed
      · exact .inl owes
      · refine .inl (State.Owes.broadcast ((List.mem_cons.mp owed).resolve_left ?_))
        rintro rfl
        exact unrefused rfl
    · exact .inr sent

theorem State.Lending.recorded {records : List (StateRecord T Bson)} (lending : state.Lending)
    (taken : State.recorded toBson state action = some (after, records)) :
    after.Lending ∧ ∀ client ∈ state.subscribers, client ∈ after.subscribers ∨ .refused client ∈ records := by
  obtain ⟨rfl, out, stepped⟩ := recorded_cases taken
  have acted : State.stepOrDrop toBson state (.act action) = some (after, out) := stepped
  obtain ⟨lends, loses⟩ := lending.step acted
  refine ⟨lends, fun client member => ?_⟩
  rcases loses.mpr (state.act_drops_nothing action) client member with kept | ⟨call, remaining, kept, same, present⟩
  · exact .inl kept
  · cases same
    exact .inr (by simp [State.records, present])

theorem State.Informs.preserved {log records : List (StateRecord T Bson)} (informs : state.Informs log client)
    (lending : state.Lending) (listed : client ∈ state.subscribers) (unrefused : .refused client ∉ records)
    (serializes : action.Serializes toBson) (taken : State.recorded toBson state action = some (after, records)) :
    after.Informs (log ++ records) client := by
  obtain ⟨rfl, out, stepped⟩ := recorded_cases taken
  intro called
  cases action with
  | addClient joining =>
    cases stepped
    have old : ∃ value, .set value ∈ log := by simpa [State.records] using called
    rcases informs old with owes | sent
    · exact .inl (owes.begin lending.fresh)
    · have silent : state.records (.addClient joining) = [] := rfl
      exact .inr (by rw [silent, List.append_nil]; exact sent)
  | set value =>
    obtain ⟨bson, same⟩ := serializes
    simp only [State.step, same] at stepped
    cases stepped
    exact .inl ⟨state.clock, .setValue bson, Table.get_insert_self, trivial⟩
  | run call input =>
    simp only [State.step] at stepped
    split at stepped
    · cases stepped
    · rename_i phase present
      have old : ∃ value, .set value ∈ log := by
        obtain ⟨value, member⟩ := called
        rcases List.mem_append.mp member with old | new
        · exact ⟨value, old⟩
        · unfold State.records at new
          split at new
          · rename_i same
            cases same
          · split at new
            · split at new <;> simp at new
            · cases new
          · cases new
      exact (State.resume_cases stepped).informs present listed unrefused (informs old)

theorem run_lending {allowed : State T Bson → StateAction T → Prop} {origin : State T Bson}
    {log : List (StateRecord T Bson)} (lending : origin.Lending)
    (run : RunWith (State.recorded toBson) allowed origin log state) : state.Lending :=
  run.invariant (I := fun _ state => state.Lending) lending fun _ _ _ _ _ _ lending _ taken =>
    (lending.recorded taken).1

theorem run_agrees {origin : State T Bson} {log : List (StateRecord T Bson)} (lending : origin.Lending)
    (agrees : origin.Agrees toBson)
    (run : RunWith (State.recorded toBson) (State.Orderly toBson) origin log state) : state.Agrees toBson := by
  apply run.invariant (I := fun _ state => state.Agrees toBson) agrees
  intro log state action after records before agrees ok taken
  obtain ⟨_, out, stepped⟩ := recorded_cases taken
  exact agrees.preserved (run_lending lending before).fresh ok.1 ok.2 stepped

/-- The values of a `State` agree once the futures of its sets have completed, as long as they have taken
    the lock in the order of the calls: locally, on the bus, and with whoever has been listening all along. -/
theorem state_values_agree {value : T} {origin middle : State T Bson} {early later : List (StateRecord T Bson)}
    (made : State.new toBson value = .ok origin)
    (before : RunWith (State.recorded toBson) (State.Orderly toBson) origin early middle)
    (run : RunWith (State.recorded toBson) (State.Orderly toBson) middle later state)
    (completed : state.SetsCompleted) :
    toBson state.value = .ok state.current_value ∧
    ∀ client ∈ middle.subscribers, .refused client ∉ later → (∃ value, .set value ∈ later) →
      client ∈ state.clients ∧ lastSent later client = some state.current_value := by
  have created := State.Lending.new made
  have agreed : origin.Agrees toBson := by
    unfold State.new at made
    split at made
    · rename_i bson same
      cases made
      exact .inl same
    · cases made
  have lending : middle.Lending := run_lending created before
  have orderly : middle.Agrees toBson := run_agrees created agreed before
  have settled := run_agrees lending orderly run
  constructor
  · rcases settled with published | ⟨call, bson, pending, _⟩
    · exact published
    · cases completed call _ pending
  · intro client listed unrefused called
    have free : state.clientsLock = none := by
      by_contra held
      obtain ⟨owner, phase, present, holds⟩ := (run_lending lending run).drained.guard.ne_none_iff.mp held
      have ended := completed owner phase present
      cases phase with
      | setRespond => cases ended
      | _ => cases holds
    have informed : .refused client ∉ later → client ∈ state.subscribers ∧ state.Informs later client := by
      apply run.invariant (I := fun log state => .refused client ∉ log →
        client ∈ state.subscribers ∧ state.Informs log client)
      · intro _
        refine ⟨listed, ?_⟩
        rintro ⟨value, member⟩
        cases member
      · intro log state action after records taken_so_far informed ok taken unrefused
        rw [List.mem_append, not_or] at unrefused
        obtain ⟨member, informs⟩ := informed unrefused.1
        have lends := run_lending lending taken_so_far
        exact ⟨((lends.recorded taken).2 client member).resolve_right unrefused.2,
          informs.preserved lends member unrefused.2 ok.1 taken⟩
    obtain ⟨member, informs⟩ := informed unrefused
    rw [State.subscribers_free free] at member
    refine ⟨member, (informs called).resolve_left ?_⟩
    rintro ⟨call, phase, present, owed⟩
    have ended := completed call phase present
    cases phase with
    | setValue => cases ended
    | setClients => cases ended
    | setRespond => cases ended
    | _ => exact owed

/-- Until the next call of `set`, no step makes the values agree again. -/
theorem State.Agrees.before {input : StateInput} (agrees : after.Agrees toBson)
    (taken : State.step toBson state (.run call input) = some (after, out)) :
    state.Agrees toBson ∧ state.CommitsInOrder toBson (.run call input) := by
  obtain ⟨phase, present, resumes⟩ := State.run_cases taken
  obtain ⟨kept, written⟩ := resumes.values
  have earlier : ∀ later bson, after.tasks.get later = some (.setValue bson) →
      later ≠ call ∧ state.tasks.get later = some (.setValue bson) := by
    intro later bson pending
    by_cases here : later = call
    · subst here
      have unwritten : ∀ kept remaining, (state.broadcast later kept remaining).tasks.get later ≠
          some (.setValue bson) := by
        intro kept remaining
        cases remaining <;> simp [State.broadcast]
      cases resumes with
      | drained free => exact absurd pending (unwritten _ _)
      | updated client remaining kept => exact absurd pending (unwritten _ _)
      | dropped client remaining kept => exact absurd pending (unwritten _ _)
      | _ => simp [State.goto] at pending
    · exact ⟨here, by rw [← resumes.elsewhere here]; exact pending⟩
  unfold State.Agrees at agrees
  rw [kept] at agrees
  rcases agrees with published | ⟨later, bson, pending, same⟩
  · rcases written with unchanged | ⟨rfl, rfl⟩
    · rw [unchanged] at published
      refine ⟨.inl published, ?_⟩
      unfold State.CommitsInOrder
      split
      · rename_i other same
        cases same
        intro value_bson there
        rw [present] at there
        cases there
        cases resumes with
        | valueWritten _ free => exact .inl (published.trans (congrArg Except.ok unchanged.symm))
      · trivial
    · refine ⟨.inr ⟨call, after.current_value, present, published⟩, ?_⟩
      intro value_bson there
      rw [present] at there
      cases there
      exact .inl published
  · obtain ⟨different, there⟩ := earlier later bson pending
    refine ⟨.inr ⟨later, bson, there, same⟩, ?_⟩
    unfold State.CommitsInOrder
    split
    · rename_i other same'
      cases same'
      intro value_bson _
      exact .inr ⟨later, bson, different, there, same⟩
    · trivial

/-- Once a future has written an older value last, the bus serves it until the next call of `set`. -/
theorem disagreement_lasts {origin : State T Bson} {log : List (StateRecord T Bson)}
    (disagrees : ¬ origin.Agrees toBson)
    (run : RunWith (State.recorded toBson) (fun _ action => ∀ value, action ≠ .set value) origin log state) :
    toBson state.value ≠ .ok state.current_value := by
  have lasting : ¬ state.Agrees toBson := by
    apply run.invariant (I := fun _ state => ¬ state.Agrees toBson) disagrees
    intro log state action after records _ disagrees calm taken agrees
    obtain ⟨_, out, stepped⟩ := recorded_cases taken
    cases action with
    | addClient client =>
      cases stepped
      rcases agrees with published | ⟨call, bson, pending, same⟩
      · exact disagrees (.inl published)
      · simp only [State.begin, Table.get_insert] at pending
        split at pending
        · cases pending
        · exact disagrees (.inr ⟨call, bson, pending, same⟩)
    | set value => exact calm value rfl
    | run call input => exact disagrees (agrees.before stepped).1
  exact fun same => lasting (.inl same)

def recordedNumbers : Transition.Step (State Nat Nat) (StateAction Nat) (StateRecord Nat Nat) :=
  State.recorded Except.ok

def State.commitsInOrder (state : State Nat Nat) : StateAction Nat → Bool
  | .run call .locked =>
    match state.tasks.get call with
    | some (.setValue bson) => bson == state.value || (List.range state.clock).any fun later =>
        later != call && state.tasks.get later == some (.setValue state.value)
    | _ => true
  | _ => true

theorem State.orderly_of_commitsInOrder {state : State Nat Nat} {action : StateAction Nat}
    (inOrder : state.commitsInOrder action = true) : state.Orderly Except.ok action := by
  refine ⟨by cases action <;> simp [StateAction.Serializes], ?_⟩
  unfold State.CommitsInOrder
  split
  · intro value_bson present
    simp only [State.commitsInOrder, present, Bool.or_eq_true, beq_iff_eq, List.any_eq_true, Bool.and_eq_true,
      bne_iff_ne, ne_eq] at inOrder
    rcases inOrder with same | ⟨later, _, different, pending⟩
    · exact .inl (by rw [same])
    · exact .inr ⟨later, state.value, different, pending, rfl⟩
  · trivial

theorem run_orderly {origin state : State Nat Nat} {log : List (StateRecord Nat Nat)}
    (run : Run (guarded recordedNumbers State.commitsInOrder) origin log state) :
    RunWith (State.recorded Except.ok) (State.Orderly Except.ok) origin log state :=
  run.of_guarded fun _ _ _ _ => State.orderly_of_commitsInOrder

/-- A client that is in the list gets the values of two sets. -/
theorem state_values_agree_in_turn : ∃ early middle later state,
    RunWith (State.recorded Except.ok) (State.Orderly Except.ok) numberState early middle ∧
    RunWith (State.recorded Except.ok) (State.Orderly Except.ok) middle later state ∧
    middle.subscribers = [⟨1, 7⟩] ∧ later.contains (.set 6) = true ∧
    (Except.ok state.value : Except String Nat) = .ok state.current_value ∧
    ⟨1, 7⟩ ∈ state.clients ∧ lastSent later ⟨1, 7⟩ = some state.current_value := by
  obtain ⟨early, middle, first, shown⟩ := exists_run_of_execute (guarded recordedNumbers State.commitsInOrder)
    numberState [.addClient ⟨1, 7⟩, .run 0 .locked, .run 0 (.responded true), .run 0 .locked]
    (fun _ middle => middle.subscribers == [⟨1, 7⟩] &&
      (execute (guarded recordedNumbers State.commitsInOrder) middle
        [.set 5, .set 6, .run 1 .locked, .run 1 .locked, .run 1 (.responded true), .run 2 .locked, .run 2 .locked,
          .run 2 (.responded true)]).any fun r => r.2.contains (.set 6) && !r.2.contains (.refused ⟨1, 7⟩) &&
            r.1.phases.all fun phase => !phase.sets) (by decide +kernel)
  rw [Bool.and_eq_true, beq_iff_eq, Option.any_eq_true] at shown
  obtain ⟨listening, ⟨state, later⟩, executed, ended⟩ := shown
  simp only [Bool.and_eq_true, List.all_eq_true, Bool.not_eq_true'] at ended
  obtain ⟨⟨called, unrefused⟩, completed⟩ := ended
  have made : State.new Except.ok 0 = .ok numberState := rfl
  have before := run_orderly first
  have run := run_orderly (execute_run executed)
  have lending := run_lending (run_lending (State.Lending.new made) before) run
  have done : state.SetsCompleted := fun call phase present =>
    completed phase (lending.fresh.mem_phases present)
  have absent : .refused ⟨1, 7⟩ ∉ later := by simpa using unrefused
  have agreed := state_values_agree made before run done
  have informed := agreed.2 ⟨1, 7⟩ (by simp [listening]) absent ⟨6, List.contains_iff_mem.mp called⟩
  exact ⟨early, middle, later, state, before, run, listening, called, agreed.1, informed⟩

theorem older_set_published_last : ∃ log state,
    Run (State.recorded Except.ok) numberState log state ∧ state.Quiescent ∧
    state.value = 2 ∧ state.current_value = 1 := by
  obtain ⟨log, state, run, shown⟩ := exists_run_of_execute recordedNumbers numberState
    [.set 1, .set 2, .run 1 .locked, .run 1 .locked, .run 0 .locked, .run 0 .locked]
    (fun _ state => state.phases.all (· == .finished) && (state.value == 2 && state.current_value == 1))
    (by decide +kernel)
  simp only [Bool.and_eq_true, beq_iff_eq, List.all_eq_true] at shown
  obtain ⟨finished, value, published⟩ := shown
  have made : State.new Except.ok 0 = .ok numberState := rfl
  have lending := run_lending (State.Lending.new made) run
  exact ⟨log, state, run, fun call phase present => finished phase (lending.fresh.mem_phases present), value,
    published⟩

def State.get (state : State T Bson) : T := state.value

def State.deref (state : State T Bson) : T := state.get

/-- `Handle::value`, which calls are answered with, and what `Handle::add_client` sends first. -/
def State.handleValue (state : State T Bson) : Bson := state.current_value

/-- All that the users and the peers of a state can read of it. -/
structure State.Unchanged (state after : State T Bson) : Prop where
  get : after.get = state.get
  deref : after.deref = state.deref
  handleValue : after.handleValue = state.handleValue
  clients : after.clients = state.clients

/-- A set whose value does not serialize changes what `get` gives, before its future says so. -/
theorem failed_set_unchanged_iff (toBson : T → Except String Bson) (state : State T Bson) (value : T) (text : String)
    (fails : toBson value = .error text) :
    ∃ called, State.step toBson state (.set value) = some (called, []) ∧
      called.tasks.get state.clock = some (.setFailed text) ∧
      ∀ middle after out, middle.tasks.get state.clock = some (.setFailed text) →
        State.step toBson middle (.run state.clock .polled) = some (after, out) →
        (state.Unchanged called ∧ middle.Unchanged after ↔ value = state.get) := by
  refine ⟨{ state with value }.begin (.setFailed text), by simp only [State.step, fails], Table.get_insert_self, ?_⟩
  intro middle after out pending completes
  have returned : after = middle.goto state.clock .finished := by
    simp only [State.step, pending, State.resume, Option.some.injEq, Prod.mk.injEq] at completes
    exact completes.1.symm
  subst returned
  constructor
  · rintro ⟨unchanged, _⟩
    exact unchanged.get
  · intro same
    exact ⟨⟨same, same, rfl, rfl⟩, rfl, rfl, rfl, rfl⟩

def smallToBson (value : Nat) : Except String Nat :=
  if value < 3 then .ok value else .error "number too large"

theorem failed_set_changes_value : ∃ called after,
    State.step smallToBson numberState (.set 3) = some (called, []) ∧
    State.step smallToBson called (.run 0 .polled) = some (after, []) ∧
    numberState.get = 0 ∧ after.get = 3 ∧ after.handleValue = 0 :=
  ⟨_, _, rfl, rfl, rfl, rfl, rfl⟩

theorem failed_set_unchanged_again : ∃ called, State.step smallToBson { numberState with value := 3 } (.set 3) =
      some (called, []) ∧ ∃ after out, State.step smallToBson called (.run 0 .polled) = some (after, out) ∧
      called.Unchanged after ∧ after.get = 3 := by
  obtain ⟨called, stepped, pending, exactly⟩ := failed_set_unchanged_iff smallToBson { numberState with value := 3 } 3
    "number too large" rfl
  have completes : State.step smallToBson called (.run 0 .polled) = some (called.goto 0 .finished, []) := by
    have there : called.tasks.get 0 = some (.setFailed "number too large") := pending
    simp [State.step, there, State.resume]
  have unchanged := (exactly called _ _ pending completes).mpr rfl
  refine ⟨called, stepped, _, _, completes, unchanged.2, ?_⟩
  rw [unchanged.2.get, unchanged.1.get]
  rfl

end KrossbarLib
