import KrossbarBus.Lib.Handshakes

namespace KrossbarLib

/-- The handle that `Service::poll` has taken out of `client_poll_handles` to handle a request. -/
def PollPhase.held : PollPhase → Option (Nat × ClientHandle)
  | .handlingCall number poll_handle => some (number, poll_handle)
  | _ => none

def Activity.held (activity : Activity) : Option (Nat × ClientHandle) := activity.pollPhase.bind PollPhase.held

/-- The peer that `connect_impl` is about to enter into the map. -/
def Activity.target : Activity → Option String
  | .connecting service_name .. => some service_name
  | _ => none

/-- The entries of the map are the handles that are scheduled or in use, each under its own name. -/
structure Tracks (client_map : Table String Nat) (handles : Table Nat ClientHandle) (clock : Nat)
    (held : Option (Nat × ClientHandle)) (target : Option String) : Prop where
  older : ∀ number poll_handle, handles.get number = some poll_handle → number < clock
  entries : ∀ service_name number, client_map.get service_name = some number → ∃ poll_handle,
    poll_handle.service_name = service_name ∧
      (handles.get number = some poll_handle ∨ held = some (number, poll_handle))
  scheduled : ∀ number poll_handle, handles.get number = some poll_handle →
    client_map.get poll_handle.service_name = some number
  handling : ∀ number poll_handle, held = some (number, poll_handle) →
    client_map.get poll_handle.service_name = some number ∧ handles.get number = none ∧ number < clock
  opening : ∀ service_name, target = some service_name → client_map.get service_name = none

def Service.Tracked (service : Service) : Prop :=
  Tracks service.client_map service.client_poll_handles service.clock service.activity.held
    service.activity.target

variable {monitor : Bool} {service after : Service} {action : ServiceAction} {out : List ServiceEvent}
  {client_map : Table String Nat} {handles : Table Nat ClientHandle} {clock number : Nat}
  {held : Option (Nat × ClientHandle)} {target : Option String} {poll_handle : ClientHandle}

theorem Tracks.unaimed (tracks : Tracks client_map handles clock held target) :
    Tracks client_map handles clock held none :=
  ⟨tracks.older, tracks.entries, tracks.scheduled, tracks.handling, by simp⟩

theorem Tracks.later (tracks : Tracks client_map handles clock held target) :
    Tracks client_map handles (clock + 1) held target where
  older := fun number poll_handle present => Nat.lt_succ_of_lt (tracks.older number poll_handle present)
  entries := tracks.entries
  scheduled := tracks.scheduled
  handling := by
    intro number poll_handle uses
    obtain ⟨entry, absent, older⟩ := tracks.handling number poll_handle uses
    exact ⟨entry, absent, Nat.lt_succ_of_lt older⟩
  opening := tracks.opening

theorem Tracks.aim (tracks : Tracks client_map handles clock none none) {service_name : String}
    (absent : client_map.get service_name = none) : Tracks client_map handles clock none (some service_name) where
  older := tracks.older
  entries := tracks.entries
  scheduled := tracks.scheduled
  handling := by simp
  opening := by
    intro name same
    cases same
    exact absent

theorem Tracks.replace (tracks : Tracks client_map handles clock held target)
    (present : handles.get number = some poll_handle) {next : ClientHandle}
    (same : next.service_name = poll_handle.service_name) :
    Tracks client_map (handles.insert number next) clock held target where
  older := Table.forall_insert (tracks.older number poll_handle present) tracks.older
  entries := by
    intro service_name other entry
    obtain ⟨found, named, there⟩ := tracks.entries service_name other entry
    by_cases this : other = number
    · subst this
      rcases there with there | uses
      · rw [present] at there
        cases there
        exact ⟨next, by rw [same, named], .inl Table.get_insert_self⟩
      · exact ⟨found, named, .inr uses⟩
    · refine ⟨found, named, ?_⟩
      rw [Table.get_insert_of_ne this]
      exact there
  scheduled := by
    apply Table.forall_insert _ tracks.scheduled
    rw [same]
    exact tracks.scheduled number poll_handle present
  handling := by
    intro other found uses
    obtain ⟨entry, absent, older⟩ := tracks.handling other found uses
    have different : other ≠ number := by
      rintro rfl
      rw [present] at absent
      cases absent
    exact ⟨entry, (Table.get_insert_of_ne different).trans absent, older⟩
  opening := tracks.opening

/-- A branch of `Service::poll` takes a handle whose client has sent a request. -/
theorem Tracks.take (tracks : Tracks client_map handles clock none target)
    (present : handles.get number = some poll_handle) :
    Tracks client_map (handles.remove number) clock (some (number, poll_handle)) target where
  older := fun other found there => tracks.older other found (Table.get_of_remove there)
  entries := by
    intro service_name other entry
    obtain ⟨found, named, there⟩ := tracks.entries service_name other entry
    have there := there.resolve_right (by simp)
    by_cases this : other = number
    · subst this
      rw [present] at there
      cases there
      exact ⟨poll_handle, named, .inr rfl⟩
    · exact ⟨found, named, .inl ((Table.get_remove_of_ne this).trans there)⟩
  scheduled := fun other found there => tracks.scheduled other found (Table.get_of_remove there)
  handling := by
    intro other found uses
    cases uses
    exact ⟨tracks.scheduled number poll_handle present, Table.get_remove_self,
      tracks.older number poll_handle present⟩
  opening := tracks.opening

theorem Tracks.giveBack (tracks : Tracks client_map handles clock (some (number, poll_handle)) target)
    {next : ClientHandle} (same : next.service_name = poll_handle.service_name) :
    Tracks client_map (handles.insert number next) clock none target where
  older := Table.forall_insert (tracks.handling number poll_handle rfl).2.2 tracks.older
  entries := by
    intro service_name other entry
    obtain ⟨found, named, there⟩ := tracks.entries service_name other entry
    by_cases this : other = number
    · subst this
      have absent := (tracks.handling other poll_handle rfl).2.1
      have uses := there.resolve_left (by simp [absent])
      cases uses
      exact ⟨next, by rw [same, named], .inl Table.get_insert_self⟩
    · have different : some (number, poll_handle) ≠ some (other, found) := by
        rintro ⟨⟩
        exact this rfl
      exact ⟨found, named, .inl ((Table.get_insert_of_ne this).trans (there.resolve_right different))⟩
  scheduled := by
    apply Table.forall_insert _ tracks.scheduled
    rw [same]
    exact (tracks.handling number poll_handle rfl).1
  handling := by simp
  opening := tracks.opening

theorem Tracks.add (tracks : Tracks client_map handles clock none target) (poll_handle : ClientHandle)
    (absent : client_map.get poll_handle.service_name = none) :
    Tracks (client_map.insert poll_handle.service_name clock) (handles.insert clock poll_handle) (clock + 1)
      none none where
  older := Table.forall_insert (Nat.lt_succ_self clock) tracks.later.older
  entries := by
    intro service_name other entry
    rw [Table.get_insert] at entry
    split at entry
    · rename_i this
      cases entry
      exact ⟨poll_handle, this.symm, .inl Table.get_insert_self⟩
    · obtain ⟨found, named, there⟩ := tracks.entries service_name other entry
      have there := there.resolve_right (by simp)
      have different := Nat.ne_of_lt (tracks.older other found there)
      exact ⟨found, named, .inl ((Table.get_insert_of_ne different).trans there)⟩
  scheduled := by
    apply Table.forall_insert
    · exact Table.get_insert_self
    · intro other found there
      have entry := tracks.scheduled other found there
      have different : found.service_name ≠ poll_handle.service_name := by
        intro same
        rw [same, absent] at entry
        cases entry
      exact (Table.get_insert_of_ne different).trans entry
  handling := by simp
  opening := by simp

theorem Tracks.drop (tracks : Tracks client_map handles clock none target)
    (present : handles.get number = some poll_handle) :
    Tracks (client_map.remove poll_handle.service_name) (handles.remove number) clock none none where
  older := fun other found there => tracks.older other found (Table.get_of_remove there)
  entries := by
    intro service_name other entry
    obtain ⟨found, named, there⟩ := tracks.entries service_name other (Table.get_of_remove entry)
    have there := there.resolve_right (by simp)
    have different : other ≠ number := by
      rintro rfl
      rw [present] at there
      cases there
      rw [named, Table.get_remove_self] at entry
      cases entry
    exact ⟨found, named, .inl ((Table.get_remove_of_ne different).trans there)⟩
  scheduled := by
    intro other found there
    have before := Table.get_of_remove there
    have different : found.service_name ≠ poll_handle.service_name := by
      intro same
      have entry := tracks.scheduled other found before
      rw [same, tracks.scheduled number poll_handle present] at entry
      cases entry
      rw [Table.get_remove_self] at there
      cases there
    exact (Table.get_remove_of_ne different).trans (tracks.scheduled other found before)
  handling := by simp
  opening := by simp

@[simp] theorem held_pollReturns (activity : Activity) : activity.pollReturns.held = none := by
  cases activity <;> rfl

@[simp] theorem target_pollReturns (activity : Activity) : activity.pollReturns.target = none := by
  cases activity <;> rfl

@[simp] theorem target_withPhase (activity : Activity) (phase : PollPhase) :
    (activity.withPhase phase).target = activity.target := by
  cases activity <;> rfl

theorem held_phase {activity : Activity} {phase : PollPhase} (polls : activity.pollPhase = some phase) :
    activity.held = phase.held := by
  rw [Activity.held, polls]
  rfl

theorem held_withPhase {activity : Activity} {before : PollPhase} (polls : activity.pollPhase = some before)
    (phase : PollPhase) : (activity.withPhase phase).held = phase.held := by
  cases activity <;> first | rfl | cases polls

theorem Service.Tracked.unheld (tracked : service.Tracked) (free : service.activity.held = none) :
    Tracks service.client_map service.client_poll_handles service.clock none service.activity.target := by
  rw [← free]
  exact tracked

theorem tracked_pollReturns
    (tracks : Tracks service.client_map service.client_poll_handles service.clock none target) :
    service.pollReturns.Tracked := by
  simp only [Service.Tracked, Service.pollReturns, held_pollReturns, target_pollReturns]
  exact tracks.unaimed

theorem tracked_idle (tracks : Tracks service.client_map service.client_poll_handles service.clock none target)
    (idle : service.activity = .idle) : service.Tracked := by
  rw [Service.Tracked, idle]
  exact tracks.unaimed

theorem tracked_inPhase (tracked : service.Tracked) {before phase : PollPhase}
    (polls : service.activity.pollPhase = some before) (unheld : before.held = none) (free : phase.held = none) :
    (service.inPhase phase).Tracked := by
  simp only [Service.Tracked, Service.inPhase, held_withPhase polls, free, target_withPhase]
  exact tracked.unheld ((held_phase polls).trans unheld)

theorem tracked_setHandle (tracked : service.Tracked)
    (present : service.client_poll_handles.get number = some poll_handle) {next : ClientHandle}
    (same : next.service_name = poll_handle.service_name) : (service.setHandle number next).Tracked :=
  tracked.replace present same

theorem tracked_setHandshake (tracked : service.Tracked) (next : Handshake) (requester : Requester) :
    (service.setHandshake next requester).Tracked := by
  cases requester with
  | connect =>
    simp only [Service.setHandshake]
    split
    · rename_i service_name wait handshake phase connecting
      rw [Service.Tracked, connecting] at tracked
      exact tracked
    · exact tracked
  | handle number =>
    simp only [Service.setHandshake]
    split
    · rename_i poll_handle present
      exact tracked_setHandle tracked present rfl
    · exact tracked

theorem tracked_disconnect (tracked : service.Tracked) (free : service.activity.held = none)
    (present : service.client_poll_handles.get number = some poll_handle) :
    (service.disconnect number poll_handle.service_name).1.Tracked :=
  tracked_pollReturns ((tracked.unheld free).drop present)

/-- The step drops the future of a `Service::poll`: its caller does, or `connect_impl` as it returns. -/
def Service.dropsPoll (service : Service) : ServiceAction → Bool
  | .cancel => true
  | .resumed .connect => true
  | .reconnectEvent .connect =>
    match service.reconnect_signal with
    | some _ :: _ => true
    | _ => false
  | _ => false

/-- No future of `Service::poll` is dropped while it handles a request of a client. -/
def Service.Spares (service : Service) (action : ServiceAction) : Prop :=
  service.dropsPoll action = true → service.activity.held = none

def Service.sparesPoll (service : Service) (action : ServiceAction) : Bool :=
  !service.dropsPoll action || service.activity.held == none

theorem sparesPoll_spares (passed : service.sparesPoll action = true) : service.Spares action := by
  intro drops
  simpa [Service.sparesPoll, drops] using passed

theorem reconnecting_handle {service_name : String} {wait : Bool} {handshake : Handshake}
    (runs : service.runs (.handle number) = true)
    (there : service.handshake (.handle number) = some (service_name, wait, handshake)) :
    service.activity.pollPhase = some .selecting ∧ ∃ poll_handle,
      service.client_poll_handles.get number = some poll_handle ∧ poll_handle.service_name = service_name := by
  simp only [Service.handshake, Option.bind_eq_some_iff] at there
  obtain ⟨poll_handle, present, going⟩ := there
  refine ⟨by simpa [Service.runs] using runs, poll_handle, present, ?_⟩
  simp only [ClientHandle.handshake] at going
  split at going
  · cases going
  · cases going
    rfl

theorem tracked_finish {requester : Requester} {service_name : String} {wait : Bool} {reply : Reply}
    {handshake : Handshake} (tracked : service.Tracked) (runs : service.runs requester = true)
    (spares : requester = .connect → service.activity.held = none)
    (there : service.handshake requester = some (service_name, wait, handshake))
    (finished : service.finish requester service_name wait reply = some (after, out)) : after.Tracked := by
  cases Service.finish_cases finished with
  | opened pair =>
    have free := tracked.unheld (spares rfl)
    obtain ⟨phase, connecting⟩ := handshake_connecting there
    rw [connecting] at free
    have added : Tracks (service.addClient service_name pair true wait).client_map
        (service.addClient service_name pair true wait).client_poll_handles (service.clock + 1) none none :=
      free.add ⟨service_name, pair, true, wait, .polling⟩ (free.opening service_name rfl)
    exact tracked_idle added rfl
  | refused e => exact tracked_idle (tracked.unheld (spares rfl)) rfl
  | reopened number pair poll_handle present => exact tracked_setHandle tracked present rfl
  | abandoned number e =>
    obtain ⟨selecting, poll_handle, present, rfl⟩ := reconnecting_handle runs there
    exact tracked_disconnect tracked (held_phase selecting) present

theorem tracked_handleNewConnection (tracked : service.Tracked)
    (selecting : service.activity.pollPhase = some .selecting) (request : HubRequest) :
    (service.handleNewConnection monitor request).1.Tracked := by
  have free := tracked.unheld (held_phase selecting)
  cases request with
  | other => exact tracked_pollReturns free
  | fd client_name stream =>
    simp only [Service.handleNewConnection]
    split
    · exact tracked_inPhase tracked selecting rfl rfl
    · split
      · exact tracked_pollReturns free
      · rename_i untaken
        have absent : service.client_map.get client_name = none := by
          simpa [Table.containsKey] using untaken
        have added : Tracks (service.addClient client_name stream false false).client_map
            (service.addClient client_name stream false false).client_poll_handles (service.clock + 1) none none :=
          free.add ⟨client_name, stream, false, false, .polling⟩ absent
        exact tracked_pollReturns added

theorem Service.Steps.tracked (steps : service.Steps monitor action after out) (tracked : service.Tracked)
    (spares : service.Spares action) : after.Tracked := by
  cases steps with
  | known service_name wait number poll_handle idle entry present => exact tracked_setHandle tracked present rfl
  | stale _ _ _ _ _ => exact tracked
  | opened service_name wait idle absent =>
    rw [Service.Tracked, idle] at tracked
    exact tracked.aim absent
  | polled idle =>
    rw [Service.Tracked, idle] at tracked
    exact tracked
  | cancelled phase busy => exact tracked_idle (tracked.unheld (spares rfl)) rfl
  | sent requester service_name wait runs there =>
    have moved := (tracked_setHandshake tracked (.awaiting service.clock) requester).later
    rw [setHandshake_clock] at moved
    exact moved
  | unsent requester service_name wait runs there => exact tracked_setHandshake tracked _ requester
  | resolved requester service_name wait message_id reply selecting there =>
    exact tracked_setHandshake tracked _ requester
  | unclaimed _ _ _ => exact tracked
  | callLost requester e service_name wait message_id there => exact tracked_setHandshake tracked _ requester
  | resumed requester service_name wait reply _ _ runs there finished =>
    apply tracked_finish tracked runs _ there finished
    rintro rfl
    exact spares rfl
  | hubBack requester service_name wait rest runs there signal => exact tracked_setHandshake tracked _ requester
  | hubGone requester service_name wait e rest _ _ runs there signal finished =>
    have signalled : Service.Tracked { service with reconnect_signal := rest } := tracked
    apply tracked_finish signalled runs _ there finished
    rintro rfl
    exact spares (by simp [Service.dropsPoll, signal])
  | message number poll_handle selecting present polling =>
    have taken := (tracked.unheld (held_phase selecting)).take present
    simpa [Service.Tracked, Service.inPhase, held_withPhase selecting, PollPhase.held] using taken
  | handled number poll_handle handling =>
    have holds : service.activity.held = some (number, poll_handle) := by
      rw [Activity.held, handling]
      rfl
    rw [Service.Tracked, holds] at tracked
    have returned : Tracks service.client_map
        (service.setHandle number { poll_handle with phase := .polling }).client_poll_handles service.clock none
        service.activity.target := tracked.giveBack rfl
    exact tracked_pollReturns returned
  | reconnects number poll_handle selecting present polling outgoing => exact tracked_setHandle tracked present rfl
  | drops number poll_handle selecting present polling incoming =>
    exact tracked_disconnect tracked (held_phase selecting) present
  | hubRequest request selecting => exact tracked_handleNewConnection tracked selecting request
  | monitorSet setting => exact tracked_pollReturns (tracked.unheld (held_phase setting))
  | hubLost selecting => exact tracked_inPhase tracked selecting rfl rfl
  | registered registering => exact tracked_inPhase tracked registering rfl rfl
  | rejected e registering =>
    have free := tracked.unheld (held_phase registering)
    exact tracked_pollReturns free
  | reconnected reconnecting =>
    have free := tracked.unheld (held_phase reconnecting)
    exact tracked_pollReturns free
  | interrupted selecting => exact tracked_pollReturns (tracked.unheld (held_phase selecting))

theorem Service.Tracked.initial (service_name : String) : (Service.new service_name).Tracked where
  older := by simp [Service.new]
  entries := by simp [Service.new]
  scheduled := by simp [Service.new]
  handling := by simp [Service.new, Activity.held, Activity.pollPhase]
  opening := by simp [Service.new, Activity.target]

theorem run_tracked {service_name : String} {log : List ServiceEvent}
    (run : Transition.RunWith (Service.step monitor) Service.Spares (Service.new service_name) log service) :
    service.Tracked :=
  run.invariant (I := fun _ service => service.Tracked) (Service.Tracked.initial service_name)
    fun _ _ _ _ _ _ tracked spares taken => (Service.step_cases taken).tracked tracked spares

end KrossbarLib
