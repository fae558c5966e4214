import KrossbarBus.Lib.Tracking

namespace KrossbarLib

variable {monitor : Bool} {service after : Service} {action : ServiceAction} {out : List ServiceEvent}
  {number : Nat} {poll_handle : ClientHandle}

/-- Every name of the map has a handle that is scheduled to be polled. -/
def Service.AllScheduled (service : Service) : Prop :=
  ∀ service_name, service.client_map.get service_name ≠ none → ∃ number poll_handle,
    service.client_poll_handles.get number = some poll_handle ∧ poll_handle.service_name = service_name

theorem Service.Tracked.allScheduled (tracked : service.Tracked) (free : service.activity.held = none) :
    service.AllScheduled := by
  intro service_name known
  obtain ⟨number, entry⟩ := Option.ne_none_iff_exists'.mp known
  obtain ⟨poll_handle, named, present⟩ := (tracked.unheld free).entries service_name number entry
  exact ⟨number, poll_handle, present.resolve_right (by simp), named⟩

/-- What a step that drops the future of a poll leaves of the collections. -/
theorem dropped_collections (drops : service.dropsPoll action = true)
    (taken : Service.step monitor service action = some (after, out)) :
    after.activity = .idle ∧
      ((after.client_map = service.client_map ∧ after.client_poll_handles = service.client_poll_handles) ∨
        ∃ service_name pair wait, service.activity.target = some service_name ∧
          after.client_map = (service.addClient service_name pair true wait).client_map ∧
          after.client_poll_handles = (service.addClient service_name pair true wait).client_poll_handles) := by
  cases Service.step_cases taken with
  | cancelled phase busy => exact ⟨rfl, .inl ⟨rfl, rfl⟩⟩
  | resumed requester service_name wait reply _ _ runs there finished =>
    cases Service.finish_cases finished with
    | opened pair =>
      obtain ⟨phase, connecting⟩ := handshake_connecting there
      have aims : service.activity.target = some service_name := by
        rw [connecting]
        rfl
      exact ⟨rfl, .inr ⟨service_name, pair, wait, aims, rfl, rfl⟩⟩
    | refused e => exact ⟨rfl, .inl ⟨rfl, rfl⟩⟩
    | reopened number pair poll_handle present => cases drops
    | abandoned number e => cases drops
  | hubBack requester service_name wait rest runs there signal =>
    cases requester with
    | handle number => cases drops
    | connect => simp [Service.dropsPoll, signal] at drops
  | hubGone requester service_name wait e rest _ _ runs there signal finished =>
    cases Service.finish_cases finished with
    | refused e => exact ⟨rfl, .inl ⟨rfl, rfl⟩⟩
    | abandoned number e => cases drops
  | _ => cases drops

theorem abandoned (tracked : service.Tracked) (holds : service.activity.held = some (number, poll_handle))
    (drops : service.dropsPoll action = true) (taken : Service.step monitor service action = some (after, out)) :
    ¬ after.AllScheduled := by
  obtain ⟨entry, absent, older⟩ := tracked.handling number poll_handle holds
  have alone : ∀ other found, service.client_poll_handles.get other = some found →
      found.service_name ≠ poll_handle.service_name := by
    intro other found present same
    have scheduled := tracked.scheduled other found present
    rw [same, entry] at scheduled
    cases scheduled
    rw [absent] at present
    cases present
  intro all
  rcases (dropped_collections drops taken).2 with
    ⟨same_map, same_handles⟩ | ⟨target, pair, wait, aims, new_map, new_handles⟩
  · obtain ⟨other, found, present, named⟩ := all poll_handle.service_name (by simp [same_map, entry])
    rw [same_handles] at present
    exact alone other found present named
  · have different : poll_handle.service_name ≠ target := by
      rintro rfl
      rw [tracked.opening _ aims] at entry
      cases entry
    have known : after.client_map.get poll_handle.service_name ≠ none := by
      simp [new_map, Service.addClient, Table.get_insert_of_ne different, entry]
    obtain ⟨other, found, present, named⟩ := all poll_handle.service_name known
    simp only [new_handles, Service.addClient, Table.get_insert] at present
    split at present
    · cases present
      exact different named.symm
    · exact alone other found present named

/-- A poll may be dropped without loss exactly if it does not handle a request of a client. -/
theorem poll_cancel_safe {service_name : String} {log : List ServiceEvent}
    (run : Transition.RunWith (Service.step monitor) Service.Spares (Service.new service_name) log service) :
    (service.activity.held = none → service.AllScheduled) ∧
    ∀ action after out, service.dropsPoll action = true →
      Service.step monitor service action = some (after, out) →
      (after.AllScheduled ↔ service.activity.held = none) := by
  have tracked := run_tracked run
  refine ⟨tracked.allScheduled, ?_⟩
  intro action after out drops taken
  constructor
  · intro all
    cases holds : service.activity.held with
    | none => rfl
    | some pair => exact absurd all (abandoned tracked holds drops taken)
  · intro free
    apply ((Service.step_cases taken).tracked tracked fun _ => free).allScheduled
    rw [(dropped_collections drops taken).1]
    rfl

theorem poll_cancel_safe_selecting : ∃ log service after,
    Transition.Run (Service.step true) (Service.new "com.a") log service ∧
    service.activity = .polling .selecting ∧ service.client_map.get "com.b" ≠ none ∧
    Service.step true service .cancel = some (after, []) ∧ after.AllScheduled := by
  obtain ⟨log, service, run, shown⟩ := Transition.exists_run_of_execute
    (Transition.guarded (Service.step true) Service.sparesPoll) (Service.new "com.a")
    [.poll, .hubRequest (.fd "com.b" 4), .poll]
    (fun _ service => service.activity == .polling .selecting && service.client_map.containsKey "com.b")
    (by decide +kernel)
  simp only [Bool.and_eq_true, beq_iff_eq, Table.containsKey, Option.isSome_iff_ne_none] at shown
  have spares : Transition.RunWith (Service.step true) Service.Spares (Service.new "com.a") log service :=
    run.of_guarded fun _ _ _ _ passed => sparesPoll_spares passed
  have taken : Service.step true service .cancel = some ({ service with activity := .idle }, []) := by
    simp only [Service.step, shown.1]
  have safe := ((poll_cancel_safe spares).2 .cancel _ _ rfl taken).mpr (by rw [shown.1]; rfl)
  exact ⟨log, service, _, spares.run, shown.1, shown.2, taken, safe⟩

/-- The future of a poll is dropped while it runs a method for `com.b`. -/
theorem dropped_poll_abandons_client : ∃ log service after,
    Transition.Run (Service.step true) (Service.new "com.a") log service ∧
    Service.step true service .cancel = some (after, []) ∧ ¬ after.AllScheduled := by
  obtain ⟨log, service, run, shown⟩ := Transition.exists_run_of_execute
    (Transition.guarded (Service.step true) Service.sparesPoll) (Service.new "com.a")
    [.poll, .hubRequest (.fd "com.b" 4), .poll, .clientMessage 0]
    (fun _ service => service.activity == .polling (.handlingCall 0 ⟨"com.b", 4, false, false, .polling⟩))
    (by decide +kernel)
  have handling := beq_iff_eq.mp shown
  have spares : Transition.RunWith (Service.step true) Service.Spares (Service.new "com.a") log service :=
    run.of_guarded fun _ _ _ _ passed => sparesPoll_spares passed
  have holds : service.activity.held = some (0, ⟨"com.b", 4, false, false, .polling⟩) := by
    rw [handling]
    rfl
  have taken : Service.step true service .cancel = some ({ service with activity := .idle }, []) := by
    simp only [Service.step, handling]
  exact ⟨log, service, _, spares.run, taken, abandoned (run_tracked spares) holds rfl taken⟩

end KrossbarLib
