import KrossbarBus.Lib.Reconnects

namespace KrossbarLib

open KrossbarHub (Error)
open Transition (Run)

variable {monitor : Bool} {service middle after : Service} {action : ServiceAction} {out : List ServiceEvent}
  {number other : Nat} {poll_handle next : ClientHandle} {requester : Requester} {service_name : String} {wait : Bool}
  {reply : Reply} {handshake : Handshake}

/-- The attempt has been refused, and is reported with the next poll. -/
def ClientHandle.Refused (poll_handle : ClientHandle) : Prop :=
  ∃ e, poll_handle.phase = .reconnecting (.replied (.error e))

def ClientHandle.AsksWaiting (poll_handle : ClientHandle) : Prop :=
  poll_handle.wait_connect = true ∨ poll_handle.Refused

theorem ClientHandle.AsksWaiting.waits (asks : poll_handle.AsksWaiting)
    (pending : ∀ e, poll_handle.phase ≠ .reconnecting (.replied (.error e))) : poll_handle.wait_connect = true := by
  rcases asks with waits | ⟨e, refused⟩
  · exact waits
  · exact absurd refused (pending e)

/-- Whatever the handle of that number asks the hub for, it asks with `wait`. -/
structure Service.Asks (service : Service) (number : Nat) : Prop where
  scheduled : ∀ poll_handle, service.client_poll_handles.get number = some poll_handle → poll_handle.AsksWaiting
  held : ∀ poll_handle, service.activity.held = some (number, poll_handle) → poll_handle.wait_connect = true

theorem Service.Asks.fewer (asks : service.Asks number)
    (handles : ∀ poll_handle, after.client_poll_handles.get number = some poll_handle →
      service.client_poll_handles.get number = some poll_handle)
    (held : after.activity.held = none ∨ after.activity.held = service.activity.held) : after.Asks number where
  scheduled := fun poll_handle present => asks.scheduled poll_handle (handles poll_handle present)
  held := by
    intro poll_handle uses
    rcases held with free | same
    · rw [free] at uses
      cases uses
    · rw [same] at uses
      exact asks.held poll_handle uses

theorem Service.Asks.removed (asks : service.Asks number)
    (handles : after.client_poll_handles = service.client_poll_handles.remove other)
    (free : after.activity.held = none) : after.Asks number := by
  apply asks.fewer _ (.inl free)
  intro poll_handle present
  rw [handles] at present
  exact Table.get_of_remove present

theorem Service.Asks.added (asks : service.Asks number) (older : number < service.clock)
    (handles : after.client_poll_handles = service.client_poll_handles.insert service.clock poll_handle)
    (free : after.activity.held = none) : after.Asks number := by
  apply asks.fewer _ (.inl free)
  intro found present
  rwa [handles, Table.get_insert_of_ne (Nat.ne_of_lt older)] at present

theorem Service.Asks.replaced (asks : service.Asks number)
    (present : service.client_poll_handles.get other = some poll_handle)
    (handles : after.client_poll_handles = service.client_poll_handles.insert other next)
    (held : after.activity.held = service.activity.held)
    (inherits : poll_handle.AsksWaiting → next.AsksWaiting) : after.Asks number where
  scheduled := by
    intro found there
    rw [handles, Table.get_insert] at there
    split at there
    · rename_i this
      cases there
      rw [this] at asks
      exact inherits (asks.scheduled poll_handle present)
    · exact asks.scheduled found there
  held := fun poll_handle uses => asks.held poll_handle (held.symm.trans uses)

theorem handshake_scheduled (there : service.handshake (.handle number) = some (service_name, wait, handshake)) :
    ∃ poll_handle, service.client_poll_handles.get number = some poll_handle ∧
      poll_handle.phase = .reconnecting handshake ∧ poll_handle.wait_connect = wait := by
  simp only [Service.handshake, Option.bind_eq_some_iff] at there
  obtain ⟨poll_handle, present, going⟩ := there
  simp only [ClientHandle.handshake] at going
  split at going
  · cases going
  · rename_i phase
    cases going
    exact ⟨poll_handle, present, phase, rfl⟩

theorem Service.Asks.setHandshake (asks : service.Asks number)
    (there : service.handshake requester = some (service_name, wait, handshake))
    (pending : ∀ e, handshake ≠ .replied (.error e)) (next : Handshake)
    (handles : after.client_poll_handles = (service.setHandshake next requester).client_poll_handles)
    (activity : after.activity = (service.setHandshake next requester).activity) : after.Asks number := by
  have held : after.activity.held = service.activity.held := by
    rw [activity]
    exact held_setHandshake next requester
  cases requester with
  | connect =>
    rw [handles_setHandshake_connect] at handles
    exact asks.fewer (by simp [handles]) (.inr held)
  | handle other =>
    obtain ⟨poll_handle, present, phase, _⟩ := handshake_scheduled there
    simp only [Service.setHandshake, present] at handles
    exact asks.replaced present handles held fun asked => .inl (asked.waits (by simpa [phase] using pending))

theorem Service.Asks.finish (asks : service.Asks number) (older : number < service.clock)
    (there : service.handshake requester = some (service_name, wait, .replied reply))
    (finished : service.finish requester service_name wait reply = some (after, out)) : after.Asks number := by
  cases Service.finish_cases finished with
  | opened pair => exact asks.added older rfl rfl
  | refused e => exact asks.fewer (fun _ present => present) (.inl rfl)
  | reopened other pair poll_handle present =>
    obtain ⟨found, same, phase, _⟩ := handshake_scheduled there
    rw [present] at same
    cases same
    exact asks.replaced present rfl rfl fun asked => .inl (asked.waits (by simp [phase]))
  | abandoned other e => exact asks.removed rfl (held_pollReturns _)

theorem Service.Steps.asks (steps : service.Steps monitor action after out) (asks : service.Asks number)
    (older : number < service.clock) : after.Asks number := by
  have still : ∀ {final : Service}, final.client_poll_handles = service.client_poll_handles →
      final.activity.held = none ∨ final.activity.held = service.activity.held → final.Asks number := by
    intro final handles held
    exact asks.fewer (fun _ present => handles ▸ present) held
  cases steps with
  | known _ _ other poll_handle _ _ present =>
    exact asks.replaced present rfl rfl fun asked => asked
  | stale _ _ _ _ _ => exact asks
  | opened _ _ _ _ => exact still rfl (.inl rfl)
  | polled _ => exact still rfl (.inl rfl)
  | cancelled _ _ => exact still rfl (.inl rfl)
  | sent _ _ _ _ there => exact asks.setHandshake there (by simp) _ rfl rfl
  | unsent _ _ _ _ there => exact asks.setHandshake there (by simp) _ rfl rfl
  | resolved _ _ _ _ _ _ there => exact asks.setHandshake there (by simp) _ rfl rfl
  | unclaimed _ _ _ => exact asks
  | callLost _ _ _ _ _ there => exact asks.setHandshake there (by simp) _ rfl rfl
  | resumed _ _ _ _ _ _ _ there finished => exact asks.finish older there finished
  | hubBack _ _ _ _ _ there _ => exact asks.setHandshake there (by simp) .sending rfl rfl
  | hubGone _ _ _ _ _ _ _ _ _ _ finished =>
    cases Service.finish_cases finished with
    | refused e => exact still rfl (.inl rfl)
    | abandoned other e => exact asks.removed rfl (held_pollReturns _)
  | message other poll_handle selecting present polling =>
    constructor
    · exact fun found there => asks.scheduled found (Table.get_of_remove there)
    · intro found uses
      have taken : some (other, poll_handle) = some (number, found) := by
        rw [← uses]
        exact (held_withPhase selecting (.handlingCall other poll_handle)).symm
      cases taken
      exact (asks.scheduled poll_handle present).waits (by simp [polling])
  | handled other poll_handle handling =>
    have holds : service.activity.held = some (other, poll_handle) := held_phase handling
    constructor
    · intro found there
      simp only [Service.pollReturns, Service.setHandle, Table.get_insert] at there
      split at there
      · rename_i this
        cases there
        rw [this] at asks
        exact .inl (asks.held poll_handle holds)
      · exact asks.scheduled found there
    · intro found uses
      rw [Service.pollReturns, held_pollReturns] at uses
      cases uses
  | reconnects other poll_handle _ present polling _ =>
    exact asks.replaced present rfl rfl fun asked => .inl (asked.waits (by simp [polling]))
  | drops _ _ _ _ _ _ => exact asks.removed rfl (held_pollReturns _)
  | hubRequest request selecting =>
    cases request with
    | other => exact still rfl (.inl (held_pollReturns _))
    | fd client_name stream =>
      simp only [Service.handleNewConnection]
      split
      · exact still rfl (.inl (held_withPhase selecting _))
      · split
        · exact still rfl (.inl (held_pollReturns _))
        · exact asks.added older rfl (held_pollReturns _)
  | monitorSet _ => exact still rfl (.inl (held_pollReturns _))
  | hubLost selecting => exact still rfl (.inl (held_withPhase selecting _))
  | registered registering => exact still rfl (.inl (held_withPhase registering _))
  | rejected _ _ => exact still rfl (.inl (held_pollReturns _))
  | reconnected _ => exact still rfl (.inl (held_pollReturns _))
  | interrupted _ => exact still rfl (.inl (held_pollReturns _))

/-- The clock has numbered every entry of the map. -/
def Service.Entered (service : Service) : Prop :=
  ∀ service_name number, service.client_map.get service_name = some number → number < service.clock

theorem Service.Entered.fewer (entered : service.Entered) (clock : service.clock ≤ after.clock)
    (map : ∀ service_name number, after.client_map.get service_name = some number →
      service.client_map.get service_name = some number) : after.Entered :=
  fun service_name number entry =>
    Nat.lt_of_lt_of_le (entered service_name number (map service_name number entry)) clock

theorem Service.Entered.added (entered : service.Entered)
    (map : after.client_map = service.client_map.insert service_name service.clock)
    (clock : after.clock = service.clock + 1) : after.Entered := by
  intro name number entry
  rw [map, Table.get_insert] at entry
  rw [clock]
  split at entry
  · cases entry
    exact Nat.lt_succ_self _
  · exact Nat.lt_succ_of_lt (entered name number entry)

theorem Service.Steps.entered (steps : service.Steps monitor action after out) (entered : service.Entered) :
    after.Entered := by
  have clock := steps.emits.1
  have still : after.client_map = service.client_map → after.Entered :=
    fun map => entered.fewer clock fun _ _ entry => map ▸ entry
  have less : ∀ {name : String}, after.client_map = service.client_map.remove name → after.Entered := by
    intro name map
    refine entered.fewer clock fun _ _ entry => ?_
    rw [map] at entry
    exact Table.get_of_remove entry
  cases steps with
  | sent requester _ _ _ _ => exact still (map_setHandshake _ requester)
  | unsent requester _ _ _ _ => exact still (map_setHandshake _ requester)
  | resolved requester _ _ _ _ _ _ => exact still (map_setHandshake _ requester)
  | callLost requester _ _ _ _ _ => exact still (map_setHandshake _ requester)
  | hubBack requester _ _ _ _ _ _ => exact still (map_setHandshake _ requester)
  | resumed _ _ _ _ _ _ _ _ finished =>
    cases Service.finish_cases finished with
    | opened pair => exact entered.added rfl rfl
    | refused e => exact still rfl
    | reopened number pair poll_handle present => exact still rfl
    | abandoned number e => exact less rfl
  | hubGone _ _ _ _ _ _ _ _ _ _ finished =>
    cases Service.finish_cases finished with
    | refused e => exact still rfl
    | abandoned number e => exact less rfl
  | drops _ _ _ _ _ _ => exact less rfl
  | hubRequest request _ =>
    cases request with
    | other => exact still rfl
    | fd client_name stream =>
      simp only [Service.handleNewConnection]
      split
      · exact entered.fewer (Nat.le_refl _) fun _ _ entry => entry
      · split
        · exact entered.fewer (Nat.le_refl _) fun _ _ entry => entry
        · exact entered.added rfl rfl
  | _ => exact still rfl

/-- `connect_await` returns with this step. -/
def Service.Awaits (service : Service) (service_name : String) : ServiceAction → Prop
  | .connect name wait => name = service_name ∧ wait = true
  | .resumed .connect => ∃ handshake, service.handshake .connect = some (service_name, true, handshake)
  | _ => False

/-- The entry that a `connect` finds was made by a `connect_await`. -/
def Service.FindsWaiting (service : Service) : ServiceAction → Prop
  | .connect service_name _ => ∀ number poll_handle, service.client_map.get service_name = some number →
      service.client_poll_handles.get number = some poll_handle → poll_handle.AsksWaiting
  | _ => True

/-- In every later state a reconnect attempt of the handle that has not been refused is made with `wait`. -/
def Service.AttemptsWait (monitor : Bool) (service : Service) (number : Nat) : Prop :=
  ∀ log later service_name wait handshake, Run (Service.step monitor) service log later →
    later.handshake (.handle number) = some (service_name, wait, handshake) →
    (∀ e, handshake ≠ .replied (.error e)) → wait = true

def Service.RequestsWait (monitor : Bool) (service : Service) (number : Nat) : Prop :=
  ∀ log later ok after out message_id service_name wait, Run (Service.step monitor) service log later →
    Service.step monitor later (.sent (.handle number) ok) = some (after, out) →
    .requested message_id service_name wait ∈ out → wait = true

theorem Service.AttemptsWait.requests (attempts : service.AttemptsWait monitor number) :
    service.RequestsWait monitor number := by
  intro log later ok after out message_id service_name wait run taken requested
  cases Service.sent_cases taken with
  | sent _ name flag _ there =>
    cases List.mem_singleton.mp requested
    exact attempts log later service_name wait .sending run there (by simp)
  | unsent => cases requested

theorem Service.Asks.attempts (asks : service.Asks number) (older : number < service.clock) :
    service.AttemptsWait monitor number := by
  intro log later service_name wait handshake run there pending
  have kept : number < later.clock ∧ later.Asks number := by
    refine run.invariant (I := fun _ later => number < later.clock ∧ later.Asks number) ⟨older, asks⟩ ?_
    intro _ service action after out _ ⟨older, asks⟩ _ taken
    have steps := Service.step_cases taken
    exact ⟨Nat.lt_of_lt_of_le older steps.emits.1, steps.asks asks older⟩
  obtain ⟨poll_handle, present, phase, rfl⟩ := handshake_scheduled there
  exact (kept.2.scheduled poll_handle present).waits (by simpa [phase] using pending)

/-- A lost peer begins an attempt, in the mode of the handle. -/
theorem Service.AttemptsWait.asks (attempts : service.AttemptsWait monitor number) (idle : service.activity = .idle)
    (present : service.client_poll_handles.get number = some poll_handle) (outgoing : poll_handle.outgoing = true) :
    poll_handle.AsksWaiting := by
  cases phase : poll_handle.phase with
  | reconnecting handshake =>
    have there : service.handshake (.handle number) =
        some (poll_handle.service_name, poll_handle.wait_connect, handshake) := by
      simp only [Service.handshake, present, Option.bind_some, ClientHandle.handshake, phase]
    by_cases refused : ∃ e, handshake = .replied (.error e)
    · obtain ⟨e, rfl⟩ := refused
      exact .inr ⟨e, phase⟩
    · exact .inl (attempts [] service _ _ _ .start there (by simpa using refused))
  | polling =>
    have polled : Service.step monitor service .poll =
        some ({ service with activity := .polling .selecting }, []) := by
      simp [Service.step, idle]
    have lost : Service.step monitor { service with activity := .polling .selecting } (.streamLost number) =
        some (Service.setHandle { service with activity := .polling .selecting } number
          { poll_handle with phase := .reconnecting .sending }, []) := by
      simp [Service.step, Activity.pollPhase, present, phase, outgoing]
    have run : Run (Service.step monitor) service _ _ :=
      (Transition.RunWith.start.next trivial polled).next trivial lost
    refine .inl (attempts _ _ poll_handle.service_name _ .sending run ?_ (by simp))
    simp [Service.handshake, Service.setHandle, ClientHandle.handshake]

/-- The handle that a `connect_await` has made. -/
theorem opened_asks (pair : Nat) :
    ({ service.addClient service_name pair true true with activity := .idle } : Service).Asks service.clock where
  scheduled := by
    intro poll_handle present
    simp only [Service.addClient, Table.get_insert_self, Option.some.injEq] at present
    subst present
    exact .inl rfl
  held := by
    intro poll_handle uses
    cases uses

theorem known_asks (idle : service.activity = .idle)
    (asks : ∀ poll_handle, service.client_poll_handles.get number = some poll_handle → poll_handle.AsksWaiting) :
    service.Asks number where
  scheduled := asks
  held := by
    intro poll_handle uses
    rw [idle] at uses
    cases uses

/-- `connect` finds an entry, whose handle it marks unless the handle is lost. -/
theorem connect_returned (taken : Service.step monitor service (.connect service_name wait) = some (middle, out))
    (returned : .returned number ∈ out) :
    service.activity = .idle ∧ service.client_map.get service_name = some number ∧
      (service.client_poll_handles.get number = none ∧ middle = service ∨
        ∃ poll_handle, service.client_poll_handles.get number = some poll_handle ∧
          middle = service.setHandle number { poll_handle with outgoing := true }) := by
  simp only [Service.step] at taken
  split at taken
  · cases taken
  · rename_i idle
    split at taken
    · rename_i entry found
      split at taken
      · rename_i poll_handle present
        cases taken
        cases List.mem_singleton.mp returned
        exact ⟨not_not.mp idle, found, .inr ⟨poll_handle, present, rfl⟩⟩
      · rename_i absent
        cases taken
        cases List.mem_singleton.mp returned
        exact ⟨not_not.mp idle, found, .inl ⟨absent, rfl⟩⟩
    · cases taken
      cases returned

theorem connect_attempts_wait_iff (entered : service.Entered)
    (taken : Service.step monitor service (.connect service_name wait) = some (middle, out))
    (returned : .returned number ∈ out) :
    middle.AttemptsWait monitor number ↔ service.FindsWaiting (.connect service_name wait) := by
  obtain ⟨idle, found, outcome⟩ := connect_returned taken returned
  have older := entered service_name number found
  have finds_iff : service.FindsWaiting (.connect service_name wait) ↔
      ∀ poll_handle, service.client_poll_handles.get number = some poll_handle → poll_handle.AsksWaiting := by
    constructor
    · exact fun finds poll_handle present => finds number poll_handle found present
    · intro asks other poll_handle entry present
      rw [found] at entry
      cases entry
      exact asks poll_handle present
  rw [finds_iff]
  rcases outcome with ⟨absent, rfl⟩ | ⟨poll_handle, present, rfl⟩
  · constructor
    · intro _ poll_handle present
      rw [absent] at present
      cases present
    · exact fun asks => (known_asks idle asks).attempts older
  · constructor
    · intro attempts other there
      rw [present] at there
      cases there
      have asks : ({ poll_handle with outgoing := true } : ClientHandle).AsksWaiting :=
        attempts.asks idle Table.get_insert_self rfl
      exact asks
    · intro asks
      have marked : (service.setHandle number { poll_handle with outgoing := true }).Asks number :=
        (known_asks idle asks).replaced present rfl rfl fun asked => asked
      exact marked.attempts older

/-- A client of `connect_await` reconnects with `wait`, exactly if its entry was made with it. -/
theorem awaited_attempts_wait_iff {own : String} {log : List ServiceEvent}
    (run : Run (Service.step monitor) (Service.new own) log service)
    (taken : Service.step monitor service action = some (middle, out)) (awaited : service.Awaits service_name action)
    (returned : .returned number ∈ out) :
    (middle.AttemptsWait monitor number ↔ service.FindsWaiting action) ∧
    (service.FindsWaiting action → middle.RequestsWait monitor number) := by
  have entered : service.Entered :=
    run.invariant (I := fun _ service => service.Entered) (by simp [Service.Entered, Service.new])
      fun _ _ _ _ _ _ entered _ taken => (Service.step_cases taken).entered entered
  have same : middle.AttemptsWait monitor number ↔ service.FindsWaiting action := by
    cases action with
    | connect name wait => exact connect_attempts_wait_iff entered taken returned
    | resumed requester =>
      cases requester with
      | handle other => cases awaited
      | connect =>
        obtain ⟨handshake, connecting⟩ := awaited
        cases Service.resumed_cases taken with
        | resumed _ name wait reply _ _ _ there finished =>
          rw [connecting] at there
          cases there
          cases Service.finish_cases finished with
          | opened pair =>
            simp only [List.mem_cons, reduceCtorEq, ServiceEvent.returned.injEq, List.not_mem_nil, or_false,
              false_or] at returned
            subst returned
            exact iff_of_true ((opened_asks pair).attempts (Nat.lt_succ_self _)) trivial
          | refused e => simp at returned
    | _ => cases awaited
  exact ⟨same, fun finds => (same.mpr finds).requests⟩

theorem awaited_attempts_wait_again : ∃ log service middle out,
    Run (Service.step true) (Service.new "com.a") log service ∧
    service.client_map.get "com.b" = some 1 ∧ service.client_poll_handles.get 1 ≠ none ∧
    Service.step true service (.connect "com.b" true) = some (middle, out) ∧ .returned 1 ∈ out ∧
    middle.AttemptsWait true 1 ∧ middle.RequestsWait true 1 := by
  obtain ⟨log, service, run, shown⟩ := Transition.exists_run_of_execute (Service.step true) (Service.new "com.a")
    [.connect "com.b" true, .sent .connect true, .resolved 0 (.stream 4), .resumed .connect]
    (fun _ service => service.client_map.get "com.b" == some 1 &&
      (service.client_poll_handles.get 1).any (fun poll_handle => poll_handle.wait_connect) &&
      (Service.step true service (.connect "com.b" true)).any fun result => result.2.contains (.returned 1))
    (by decide +kernel)
  simp only [Bool.and_eq_true, beq_iff_eq, Option.any_eq_true, List.contains_iff_mem] at shown
  obtain ⟨⟨entry, poll_handle, present, waits⟩, ⟨middle, out⟩, taken, returned⟩ := shown
  have finds : service.FindsWaiting (.connect "com.b" true) := by
    intro number found there scheduled
    rw [entry] at there
    cases there
    rw [present] at scheduled
    cases scheduled
    exact .inl waits
  have awaited : service.Awaits "com.b" (.connect "com.b" true) := ⟨rfl, rfl⟩
  obtain ⟨same, requests⟩ := awaited_attempts_wait_iff run taken awaited returned
  exact ⟨log, service, middle, out, run, entry, by simp [present], taken, returned, same.mpr finds, requests finds⟩

/-- com.b had connected first, so that com.a gives it up as soon as it restarts. -/
theorem awaited_peer_dropped : ∃ log service middle out lostLog lost asked request late final,
    Run (Service.step true) (Service.new "com.a") log service ∧
    Service.step true service (.connect "com.b" true) = some (middle, out) ∧ .returned 0 ∈ out ∧
    Run (Service.step true) middle lostLog lost ∧
    Service.step true lost (.sent (.handle 0) true) = some (asked, request) ∧
    .requested 1 "com.b" false ∈ request ∧
    Run (Service.step true) asked late final ∧ .disconnected "com.b" ∈ late := by
  obtain ⟨log, service, run, shown⟩ := Transition.exists_run_of_execute (Service.step true) (Service.new "com.a")
    [.poll, .hubRequest (.fd "com.b" 4)]
    (fun _ service => (Service.step true service (.connect "com.b" true)).any fun result =>
      result.2.contains (.returned 0) &&
      (Transition.execute (Service.step true) result.1 [.poll, .streamLost 0]).any fun lost =>
        (Service.step true lost.1 (.sent (.handle 0) true)).any fun asked =>
          asked.2.contains (.requested 1 "com.b" false) &&
          (Transition.execute (Service.step true) asked.1 [.resolved 1 (.error .serviceNotFound),
            .resumed (.handle 0)]).any fun final => final.2.contains (.disconnected "com.b"))
    (by decide +kernel)
  simp only [Bool.and_eq_true, Option.any_eq_true, List.contains_iff_mem] at shown
  obtain ⟨⟨middle, out⟩, taken, returned, ⟨lost, lostLog⟩, loses, ⟨asked, request⟩, sent, requested,
    ⟨final, late⟩, ends, disconnected⟩ := shown
  exact ⟨log, service, middle, out, lostLog, lost, asked, request, late, final, run, taken, returned,
    Transition.execute_run loses, sent, requested, Transition.execute_run ends, disconnected⟩

end KrossbarLib
