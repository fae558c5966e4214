import KrossbarBus.Lib.Clients

namespace KrossbarLib

variable {monitor : Bool} {service next : Service} {action : ServiceAction} {out log : List ServiceEvent}
  {number : Nat} {service_name : String} {book : Bookkeeping}

/-- A `Client` names the writer, the event and the flag that it shares with its handle. -/
structure Client where
  service_name : String
  writer : Nat
  hub_reconnect_event : Nat
  outgoing : Nat
  deriving DecidableEq

/-- The parts of a `ClientHandle` that stay when it gets another stream. -/
structure HandleParts where
  service_name : String
  writer : Nat
  self_reconnect_event : Nat
  outgoing : Nat
  deriving DecidableEq

def HandleParts.clientHandle (parts : HandleParts) : Client :=
  ⟨parts.service_name, parts.writer, parts.self_reconnect_event, parts.outgoing⟩

/-- A service with the objects behind its collections: the clients of its map, the parts of each of
    its handles and the values of the `outgoing` flags. -/
structure ServiceHeap where
  service : Service
  clients : Table String Client
  parts : Table Nat HandleParts
  flags : Table Nat Bool
  next : Nat

def ServiceHeap.new (service_name : String) : ServiceHeap where
  service := .new service_name
  clients := .empty
  parts := .empty
  flags := .empty
  next := 0

def ServiceHeap.keep (heap : ServiceHeap) : Bookkeeping → ServiceHeap
  | .nothing => heap
  | .mark service_name =>
    match heap.clients.get service_name with
    | some client => { heap with flags := heap.flags.insert client.outgoing true }
    | none => heap
  | .make service_name number outgoing =>
    let parts : HandleParts := ⟨service_name, heap.next, heap.next + 1, heap.next + 2⟩
    { heap with
      clients := heap.clients.insert service_name parts.clientHandle
      parts := heap.parts.insert number parts
      flags := heap.flags.insert parts.outgoing outgoing
      next := heap.next + 3 }
  | .forget service_name => { heap with clients := heap.clients.remove service_name }

def ServiceHeap.step (monitor : Bool) : Transition.Step ServiceHeap ServiceAction ServiceEvent
  | heap, action =>
    match Service.step monitor heap.service action with
    | none => none
    | some (service, out) => some ({ heap.keep (heap.service.bookkeeping action out) with service }, out)

variable {heap after : ServiceHeap}

structure ServiceHeap.Shares (heap : ServiceHeap) : Prop where
  clients : ∀ service_name, heap.clients.get service_name =
    ((heap.service.client_map.get service_name).bind heap.parts.get).map HandleParts.clientHandle
  made : ∀ number identity, heap.service.identityOf number = some identity → ∃ parts,
    heap.parts.get number = some parts ∧ parts.service_name = identity.service_name ∧
      heap.flags.get parts.outgoing = some identity.outgoing
  apart : ∀ first second one other, heap.parts.get first = some one → heap.parts.get second = some other →
    one.outgoing = other.outgoing → first = second
  older : ∀ number parts, heap.parts.get number = some parts → parts.outgoing < heap.next

theorem ServiceHeap.Shares.initial (service_name : String) : (ServiceHeap.new service_name).Shares where
  clients := by simp [ServiceHeap.new, Service.new]
  made := by
    simp [ServiceHeap.new, Service.new, Service.identityOf, Service.handleOf, Activity.held, Activity.pollPhase]
  apart := by simp [ServiceHeap.new]
  older := by simp [ServiceHeap.new]

theorem Service.Tracked.live (tracked : service.Tracked) (entry : service.client_map.get service_name = some number) :
    number < service.clock ∧ ∃ identity, service.identityOf number = some identity ∧
      identity.service_name = service_name := by
  obtain ⟨poll_handle, named, there⟩ := tracked.entries service_name number entry
  rcases there with present | holds
  · refine ⟨tracked.older number poll_handle present, poll_handle.identity, ?_, named⟩
    simp only [Service.identityOf, Service.handleOf, present, Option.map_some]
  · obtain ⟨_, absent, older⟩ := tracked.handling number poll_handle holds
    refine ⟨older, poll_handle.identity, ?_, named⟩
    simp only [Service.identityOf, Service.handleOf, absent, holds, if_true, Option.map_some]

theorem ServiceHeap.Shares.mark (shares : heap.Shares) (tracked : heap.service.Tracked)
    (entry : heap.service.client_map.get service_name = some number)
    (map : service.client_map = heap.service.client_map)
    (handles : ∀ other, service.identityOf other = if other = number then
      (heap.service.identityOf number).map fun identity => { identity with outgoing := true }
      else heap.service.identityOf other) :
    ServiceHeap.Shares { heap.keep (.mark service_name) with service } := by
  obtain ⟨_, identity, is, named⟩ := tracked.live entry
  obtain ⟨parts, built, same, _⟩ := shares.made number identity is
  have client : heap.clients.get service_name = some parts.clientHandle := by
    rw [shares.clients, entry, Option.bind_some, built]
    rfl
  have kept : heap.keep (.mark service_name) = { heap with flags := heap.flags.insert parts.outgoing true } := by
    simp only [ServiceHeap.keep, client]
    rfl
  rw [kept]
  refine ⟨?_, ?_, shares.apart, shares.older⟩
  · intro name
    rw [map]
    exact shares.clients name
  · intro other next there
    rw [handles] at there
    split at there
    · rename_i this
      rw [this]
      rw [is] at there
      cases there
      exact ⟨parts, built, same, Table.get_insert_self⟩
    · rename_i different
      obtain ⟨found, made, named, flag⟩ := shares.made other next there
      have elsewhere : found.outgoing ≠ parts.outgoing :=
        fun equal => different (shares.apart _ _ _ _ made built equal)
      exact ⟨found, made, named, (Table.get_insert_of_ne elsewhere).trans flag⟩

theorem ServiceHeap.Shares.make (shares : heap.Shares) (tracked : heap.service.Tracked) {outgoing wait_connect : Bool}
    (map : service.client_map = heap.service.client_map.insert service_name heap.service.clock)
    (handles : ∀ other, service.identityOf other = if other = heap.service.clock then
      some ⟨service_name, outgoing, wait_connect⟩ else heap.service.identityOf other) :
    ServiceHeap.Shares { heap.keep (.make service_name heap.service.clock outgoing) with service } := by
  have newer : ∀ {other found}, heap.parts.get other = some found → found.outgoing ≠ heap.next + 2 := by
    intro other found made
    have older := shares.older other found made
    omega
  refine ⟨?_, ?_, ?_, ?_⟩
  · intro name
    simp only [ServiceHeap.keep, map]
    by_cases same : name = service_name
    · subst same
      simp
    · rw [Table.get_insert_of_ne same, Table.get_insert_of_ne same, shares.clients]
      cases entry : heap.service.client_map.get name with
      | none => rfl
      | some other =>
        have different := Nat.ne_of_lt (tracked.live entry).1
        rw [Option.bind_some, Option.bind_some, Table.get_insert_of_ne different]
  · intro other next there
    rw [handles] at there
    simp only [ServiceHeap.keep]
    split at there
    · rename_i this
      cases there
      rw [this]
      exact ⟨_, Table.get_insert_self, rfl, Table.get_insert_self⟩
    · rename_i different
      obtain ⟨found, made, named, flag⟩ := shares.made other next there
      refine ⟨found, (Table.get_insert_of_ne different).trans made, named, ?_⟩
      exact (Table.get_insert_of_ne (newer made)).trans flag
  · intro first second one other made there same
    simp only [ServiceHeap.keep, Table.get_insert] at made there
    split at made
    · rename_i this
      cases made
      split at there
      · rename_i that
        rw [this, that]
      · exact absurd same.symm (newer there)
    · split at there
      · cases there
        exact absurd same (newer made)
      · exact shares.apart first second one other made there same
  · intro other found made
    simp only [ServiceHeap.keep, Table.get_insert] at made ⊢
    split at made
    · cases made
      exact Nat.lt_succ_self _
    · have older := shares.older other found made
      omega

theorem ServiceHeap.Shares.forget (shares : heap.Shares)
    (map : service.client_map = heap.service.client_map.remove service_name)
    (handles : ∀ other, service.identityOf other =
      if other = number then none else heap.service.identityOf other) :
    ServiceHeap.Shares { heap.keep (.forget service_name) with service } := by
  refine ⟨?_, ?_, shares.apart, shares.older⟩
  · intro name
    simp only [ServiceHeap.keep, map, Table.get_remove]
    split
    · rfl
    · exact shares.clients name
  · intro other identity there
    rw [handles] at there
    split at there
    · cases there
    · exact shares.made other identity there

theorem ServiceHeap.Shares.change (shares : heap.Shares) (tracked : heap.service.Tracked)
    (changes : heap.service.Changes service book) : ServiceHeap.Shares { heap.keep book with service } := by
  cases changes with
  | nothing map handles =>
    refine ⟨?_, ?_, shares.apart, shares.older⟩
    · intro name
      rw [map]
      exact shares.clients name
    · intro other identity there
      rw [handles] at there
      exact shares.made other identity there
  | mark name other entry map handles => exact shares.mark tracked entry map handles
  | make name outgoing wait_connect map handles => exact shares.make tracked map handles
  | forget name other entry map handles => exact shares.forget map handles

/-- A future of `Service::poll` is only dropped while it selects. -/
def ServiceHeap.KeepsPolls (heap : ServiceHeap) (action : ServiceAction) : Prop :=
  heap.service.dropsPoll action = true → heap.service.activity.pollPhase = some .selecting

theorem ServiceHeap.KeepsPolls.spares (keeps : heap.KeepsPolls action) : heap.service.Spares action :=
  fun drops => held_phase (keeps drops)

theorem heap_step_cases (stepped : ServiceHeap.step monitor heap action = some (after, out)) :
    ∃ service, Service.step monitor heap.service action = some (service, out) ∧
      after = { heap.keep (heap.service.bookkeeping action out) with service } := by
  simp only [ServiceHeap.step] at stepped
  split at stepped
  · cases stepped
  · rename_i service all taken
    cases stepped
    exact ⟨service, taken, rfl⟩

theorem heap_preserved (tracked : heap.service.Tracked) (shares : heap.Shares) (keeps : heap.KeepsPolls action)
    (stepped : ServiceHeap.step monitor heap action = some (after, out)) :
    after.service.Tracked ∧ after.Shares := by
  obtain ⟨service, taken, rfl⟩ := heap_step_cases stepped
  exact ⟨(Service.step_cases taken).tracked tracked keeps.spares,
    shares.change tracked (step_changes tracked keeps.spares taken)⟩

theorem run_shares
    (run : Transition.RunWith (ServiceHeap.step monitor) ServiceHeap.KeepsPolls (.new service_name) log heap) :
    heap.service.Tracked ∧ heap.Shares :=
  run.invariant (I := fun _ heap => heap.service.Tracked ∧ heap.Shares)
    ⟨Service.Tracked.initial service_name, .initial service_name⟩
    fun _ _ _ _ _ _ sound keeps stepped => heap_preserved sound.1 sound.2 keeps stepped

/-- A step inside `connect_impl` after which it still runs, and its return of an error, leave the
    clients alone. -/
theorem connecting_quiet (steps : service.Steps monitor action next out)
    (connecting : service.activity.connects = true)
    (quiet : next.activity.connects = true ∨ ∃ e, .refused e ∈ out) : service.bookkeeping action out = .nothing := by
  have returned : ∀ {activity : Activity}, activity.pollReturns.connects = false := by
    intro activity
    cases activity <;> rfl
  cases steps with
  | known _ _ _ _ idle _ _ => rw [idle] at connecting; cases connecting
  | stale _ _ _ idle _ => rw [idle] at connecting; cases connecting
  | resumed requester name wait reply _ _ runs there finished =>
    cases Service.finish_cases finished with
    | opened pair => simp [Activity.connects] at quiet
    | refused e => rfl
    | reopened number pair poll_handle present => rfl
    | abandoned number e => simp [Service.disconnect, Service.pollReturns, returned] at quiet
  | hubGone requester name wait e rest _ _ runs there signal finished =>
    cases Service.finish_cases finished with
    | refused e => rfl
    | abandoned number e => simp [Service.disconnect, Service.pollReturns, returned] at quiet
  | drops number poll_handle selecting present polling incoming =>
    simp [Service.disconnect, Service.pollReturns, returned] at quiet
  | hubRequest request selecting =>
    cases request with
    | other => rfl
    | fd client_name stream =>
      simp only [Service.handleNewConnection] at quiet ⊢
      split
      · rfl
      · rename_i ordinary
        split
        · rfl
        · rename_i untaken
          simp [ordinary, untaken, Service.pollReturns, returned] at quiet
  | _ => rfl

/-- The names in the map are those of the scheduled handles, one handle each, and its client has the
    writer, the reconnect event and the flag of that handle. -/
structure ServiceHeap.Matches (heap : ServiceHeap) : Prop where
  names : ∀ service_name, heap.clients.get service_name ≠ none ↔ ∃ number poll_handle,
    heap.service.client_poll_handles.get number = some poll_handle ∧ poll_handle.service_name = service_name
  single : ∀ first second one other, heap.service.client_poll_handles.get first = some one →
    heap.service.client_poll_handles.get second = some other → one.service_name = other.service_name → first = second
  shared : ∀ service_name client, heap.clients.get service_name = some client → ∃ number poll_handle parts,
    heap.service.client_poll_handles.get number = some poll_handle ∧ poll_handle.service_name = service_name ∧
      heap.parts.get number = some parts ∧ client.writer = parts.writer ∧
      client.hub_reconnect_event = parts.self_reconnect_event ∧ client.outgoing = parts.outgoing ∧
      heap.flags.get parts.outgoing = some poll_handle.outgoing

structure ServiceHeap.Unchanged (after before : ServiceHeap) : Prop where
  clients : after.clients = before.clients
  parts : after.parts = before.parts
  flags : after.flags = before.flags
  handles : ∀ number, (after.service.client_poll_handles.get number).map ClientHandle.identity =
    (before.service.client_poll_handles.get number).map ClientHandle.identity

theorem ServiceHeap.Shares.matched (shares : heap.Shares) (tracked : heap.service.Tracked)
    (idle : heap.service.activity = .idle) : heap.Matches := by
  have free : heap.service.activity.held = none := by
    rw [idle]
    rfl
  have client_of : ∀ {service_name client}, heap.clients.get service_name = some client → ∃ number poll_handle parts,
      heap.service.client_poll_handles.get number = some poll_handle ∧ poll_handle.service_name = service_name ∧
        heap.parts.get number = some parts ∧ client.writer = parts.writer ∧
        client.hub_reconnect_event = parts.self_reconnect_event ∧ client.outgoing = parts.outgoing ∧
        heap.flags.get parts.outgoing = some poll_handle.outgoing := by
    intro service_name client there
    rw [shares.clients] at there
    cases entry : heap.service.client_map.get service_name with
    | none => simp [entry] at there
    | some number =>
      obtain ⟨poll_handle, named, present⟩ := (tracked.unheld free).entries service_name number entry
      have present := present.resolve_right (by simp)
      have is : heap.service.identityOf number = some poll_handle.identity := by
        rw [identityOf_free free, present]
        rfl
      obtain ⟨parts, made, _, flag⟩ := shares.made number poll_handle.identity is
      simp only [entry, Option.bind_some, made, Option.map_some, Option.some.injEq] at there
      subst there
      exact ⟨number, poll_handle, parts, present, named, made, rfl, rfl, rfl, flag⟩
  refine ⟨?_, ?_, fun service_name client there => client_of there⟩
  · intro service_name
    constructor
    · intro known
      obtain ⟨client, there⟩ := Option.ne_none_iff_exists'.mp known
      obtain ⟨number, poll_handle, parts, present, named, _⟩ := client_of there
      exact ⟨number, poll_handle, present, named⟩
    · rintro ⟨number, poll_handle, present, rfl⟩
      have is : heap.service.identityOf number = some poll_handle.identity := by
        rw [identityOf_free free, present]
        rfl
      obtain ⟨parts, made, _⟩ := shares.made number poll_handle.identity is
      simp [shares.clients, tracked.scheduled number poll_handle present, made]
  · intro first second one other there also same
    have entry := tracked.scheduled first one there
    rw [same, tracked.scheduled second other also] at entry
    exact (Option.some.inj entry).symm

theorem refused_returns (steps : service.Steps monitor action next out) {e : KrossbarHub.Error}
    (refused : .refused e ∈ out) : service.activity.connects = true ∧ next.activity = .idle := by
  have connects : ∀ {name wait handshake}, service.handshake .connect = some (name, wait, handshake) →
      service.activity.connects = true := by
    intro name wait handshake there
    obtain ⟨phase, connecting⟩ := handshake_connecting there
    rw [connecting]
    rfl
  cases steps with
  | resumed requester name wait reply _ _ runs there finished =>
    cases Service.finish_cases finished with
    | opened pair => exact ⟨connects there, rfl⟩
    | refused e => exact ⟨connects there, rfl⟩
    | reopened number pair poll_handle present => simp at refused
    | abandoned number e => simp at refused
  | hubGone requester name wait e rest _ _ runs there signal finished =>
    cases Service.finish_cases finished with
    | refused e => exact ⟨connects there, rfl⟩
    | abandoned number e => simp at refused
  | hubRequest request selecting =>
    cases request with
    | other => cases refused
    | fd client_name stream =>
      rcases handleNewConnection_events monitor service client_name stream with all | all | all <;>
        simp [all] at refused
  | _ => simp at refused

/-- What a call of `connect` keeps as long as it has not returned. -/
structure ServiceHeap.Keeps (heap before : ServiceHeap) : Prop where
  clients : heap.clients = before.clients
  parts : heap.parts = before.parts
  flags : heap.flags = before.flags
  handles : ∀ number, heap.service.identityOf number = before.service.identityOf number

theorem ServiceHeap.Keeps.step {before : ServiceHeap} (kept : heap.Keeps before) (tracked : heap.service.Tracked)
    (keeps : heap.KeepsPolls action) (stepped : ServiceHeap.step monitor heap action = some (after, out))
    (connecting : heap.service.activity.connects = true)
    (quiet : after.service.activity.connects = true ∨ ∃ e, .refused e ∈ out) : after.Keeps before := by
  obtain ⟨service, taken, rfl⟩ := heap_step_cases stepped
  have nothing := connecting_quiet (Service.step_cases taken) connecting quiet
  have changes := step_changes tracked keeps.spares taken
  rw [nothing] at changes
  cases changes with
  | nothing map handles =>
    rw [nothing]
    exact ⟨kept.clients, kept.parts, kept.flags, fun number => (handles number).trans (kept.handles number)⟩

theorem connect_keeps (tracked : heap.service.Tracked) {peer : String} {wait : Bool}
    (begins : ServiceHeap.step monitor heap (.connect peer wait) = some (after, out))
    (connecting : after.service.activity.connects = true) : after.Keeps heap := by
  obtain ⟨service, taken, rfl⟩ := heap_step_cases begins
  have changes := step_changes tracked (fun drops => by cases drops) taken
  cases Service.step_cases taken with
  | known _ _ number poll_handle idle entry present =>
    simp [Service.setHandle, idle, Activity.connects] at connecting
  | stale _ _ number idle entry => simp [idle, Activity.connects] at connecting
  | opened _ _ idle absent =>
    cases changes with
    | nothing map handles => exact ⟨rfl, rfl, rfl, handles⟩

/-- Between calls the tracked clients are those that are polled, and a connect that fails changes
    neither collection. -/
theorem tracked_clients
    (run : Transition.RunWith (ServiceHeap.step monitor) ServiceHeap.KeepsPolls (.new service_name) log heap)
    (idle : heap.service.activity = .idle) :
    heap.Matches ∧
    ∀ peer wait begun started events connecting action after out e,
      ServiceHeap.step monitor heap (.connect peer wait) = some (begun, started) →
      Transition.RunWith (ServiceHeap.step monitor)
        (fun heap action => heap.service.activity.connects = true ∧ heap.KeepsPolls action) begun events connecting →
      connecting.KeepsPolls action → ServiceHeap.step monitor connecting action = some (after, out) →
      .refused e ∈ out → after.Unchanged heap := by
  obtain ⟨tracked, shares⟩ := run_shares run
  refine ⟨shares.matched tracked idle, ?_⟩
  intro peer wait begun started events connecting action after out e begins within keeps fails refused
  have first := heap_preserved tracked shares (fun drops => by cases drops) begins
  have going : (connecting.service.Tracked ∧ connecting.Shares) ∧
      (connecting.service.activity.connects = true → connecting.Keeps heap) := by
    apply within.invariant (I := fun _ current => (current.service.Tracked ∧ current.Shares) ∧
      (current.service.activity.connects = true → current.Keeps heap))
    · exact ⟨first, connect_keeps tracked begins⟩
    · rintro _ current action next out _ ⟨⟨tracked, shares⟩, kept⟩ ⟨connects, keeps⟩ stepped
      refine ⟨heap_preserved tracked shares keeps stepped, ?_⟩
      intro still
      exact (kept connects).step tracked keeps stepped connects (.inl still)
  obtain ⟨service, taken, same⟩ := heap_step_cases fails
  obtain ⟨connects, returned⟩ := refused_returns (Service.step_cases taken) refused
  have kept := (going.2 connects).step going.1.1 keeps fails connects (.inr ⟨e, refused⟩)
  refine ⟨kept.clients, kept.parts, kept.flags, ?_⟩
  intro number
  have before_free : heap.service.activity.held = none := by
    rw [idle]
    rfl
  have after_free : after.service.activity.held = none := by
    rw [same]
    simp only [returned]
    rfl
  rw [← identityOf_free before_free, ← identityOf_free after_free]
  exact kept.handles number

theorem tracked_clients_both : ∃ log heap, Transition.Run (ServiceHeap.step true) (.new "com.a") log heap ∧
    heap.clients.get "com.b" ≠ none ∧ heap.clients.get "com.c" ≠ none ∧ heap.Matches := by
  obtain ⟨log, heap, run, shown⟩ := Transition.exists_run_of_execute
    (Transition.guarded (ServiceHeap.step true) fun heap action =>
      !heap.service.dropsPoll action || heap.service.activity.pollPhase == some .selecting)
    (.new "com.a")
    [.connect "com.c" false, .sent .connect true, .resolved 0 (.stream 4), .resumed .connect, .poll,
      .hubRequest (.fd "com.b" 5)]
    (fun _ heap => heap.service.activity == .idle && (heap.clients.containsKey "com.b" &&
      heap.clients.containsKey "com.c")) (by decide +kernel)
  simp only [Bool.and_eq_true, beq_iff_eq, Table.containsKey, Option.isSome_iff_ne_none] at shown
  have keeps : Transition.RunWith (ServiceHeap.step true) ServiceHeap.KeepsPolls (.new "com.a") log heap := by
    apply run.of_guarded
    intro _ heap action _ passed drops
    simpa [drops] using passed
  exact ⟨log, heap, keeps.run, shown.2.1, shown.2.2, (tracked_clients keeps shown.1).1⟩

end KrossbarLib
