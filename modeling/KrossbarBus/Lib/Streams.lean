import KrossbarBus.Lib.Serving

namespace KrossbarLib

variable {monitor : Bool} {service after : Service} {action : ServiceAction} {out : List ServiceEvent}
  {number other rpc : Nat} {poll_handle : ClientHandle} {requester : Requester} {service_name : String} {wait : Bool}
  {reply : Reply} {handshake : Handshake}

theorem streamOf_iff : service.streamOf number = some rpc ↔
    ∃ poll_handle, service.handleOf number = some poll_handle ∧ poll_handle.phase = .polling ∧
      poll_handle.rpc = rpc := by
  simp only [Service.streamOf, Option.bind_eq_some_iff]
  constructor
  · rintro ⟨poll_handle, found, open_⟩
    split at open_
    · rename_i polling
      cases open_
      exact ⟨poll_handle, found, polling, rfl⟩
    · cases open_
  · rintro ⟨poll_handle, found, polling, rfl⟩
    exact ⟨poll_handle, found, by rw [if_pos polling]⟩

/-- A step that takes no handle out keeps the stream of a handle if it keeps the handle's own. -/
theorem streamOf_kept (held : after.activity.held = service.activity.held)
    (scheduled : ∀ poll_handle, service.client_poll_handles.get number = some poll_handle →
      poll_handle.phase = .polling → ∃ next, after.client_poll_handles.get number = some next ∧
        next.phase = .polling ∧ next.rpc = poll_handle.rpc)
    (absent : service.activity.held ≠ none → service.client_poll_handles.get number = none →
      after.client_poll_handles.get number = none)
    (stream : service.streamOf number = some rpc) : after.streamOf number = some rpc := by
  obtain ⟨poll_handle, found, polling, rfl⟩ := streamOf_iff.mp stream
  apply streamOf_iff.mpr
  simp only [Service.handleOf] at found
  split at found
  · rename_i there present
    cases found
    obtain ⟨next, now, polls, same⟩ := scheduled poll_handle present polling
    exact ⟨next, by simp only [Service.handleOf, now], polls, same⟩
  · rename_i missing
    refine ⟨poll_handle, ?_, polling, rfl⟩
    have busy : service.activity.held ≠ none := by
      intro free
      rw [free] at found
      cases found
    simp only [Service.handleOf, absent busy missing, held]
    exact found

theorem streamOf_same (handles : after.client_poll_handles = service.client_poll_handles)
    (held : after.activity.held = service.activity.held) : after.streamOf number = service.streamOf number := by
  simp only [Service.streamOf, Service.handleOf, handles, held]

theorem streamOf_setHandle (present : service.client_poll_handles.get other = some poll_handle) {next : ClientHandle}
    (same : poll_handle.phase = .polling → next.phase = .polling ∧ next.rpc = poll_handle.rpc)
    (handles : after.client_poll_handles = service.client_poll_handles.insert other next)
    (held : after.activity.held = service.activity.held)
    (stream : service.streamOf number = some rpc) : after.streamOf number = some rpc := by
  apply streamOf_kept held _ _ stream
  · intro found there polling
    rw [handles, Table.get_insert]
    split
    · rename_i this
      rw [this, present] at there
      cases there
      exact ⟨next, rfl, same polling⟩
    · exact ⟨found, there, polling, rfl⟩
  · intro _ absent
    have different : number ≠ other := by
      rintro rfl
      rw [present] at absent
      cases absent
    rw [handles, Table.get_insert_of_ne different, absent]

theorem reconnecting_phase (there : service.handshake (.handle number) = some (service_name, wait, handshake))
    (present : service.client_poll_handles.get number = some poll_handle) : poll_handle.phase ≠ .polling := by
  intro polling
  simp only [Service.handshake, present, Option.bind_some, ClientHandle.handshake, polling] at there
  cases there

theorem streamOf_setHandshake (there : service.handshake requester = some (service_name, wait, handshake))
    (next : Handshake)
    (handles : after.client_poll_handles = (service.setHandshake next requester).client_poll_handles)
    (activity : after.activity = (service.setHandshake next requester).activity)
    (stream : service.streamOf number = some rpc) : after.streamOf number = some rpc := by
  have held : after.activity.held = service.activity.held := by
    rw [activity]
    exact held_setHandshake next requester
  cases requester with
  | connect =>
    rw [streamOf_same (handles.trans (handles_setHandshake_connect next)) held]
    exact stream
  | handle other =>
    simp only [Service.setHandshake] at handles
    split at handles
    · rename_i poll_handle present
      have going := reconnecting_phase there present
      exact streamOf_setHandle present (fun polling => absurd polling going) handles held stream
    · rw [streamOf_same handles held]
      exact stream

/-- The handle that goes has no stream. -/
theorem streamOf_remove (free : service.activity.held = none) (after_free : after.activity.held = none)
    (gone : service.streamOf other = none)
    (handles : after.client_poll_handles = service.client_poll_handles.remove other)
    (stream : service.streamOf number = some rpc) : after.streamOf number = some rpc := by
  have different : number ≠ other := by
    rintro rfl
    rw [gone] at stream
    cases stream
  apply streamOf_kept (after_free.trans free.symm) _ (fun busy => absurd free busy) stream
  intro found there polling
  rw [handles, Table.get_remove_of_ne different]
  exact ⟨found, there, polling, rfl⟩

theorem streamOf_add (tracked : service.Tracked) (free : service.activity.held = none)
    (after_free : after.activity.held = none)
    (handles : after.client_poll_handles = service.client_poll_handles.insert service.clock poll_handle)
    (stream : service.streamOf number = some rpc) : after.streamOf number = some rpc := by
  apply streamOf_kept (after_free.trans free.symm) _ (fun busy => absurd free busy) stream
  intro found there polling
  have different := Nat.ne_of_lt (tracked.older number found there)
  rw [handles, Table.get_insert_of_ne different]
  exact ⟨found, there, polling, rfl⟩

theorem streamOf_reconnecting (there : service.handshake (.handle other) = some (service_name, wait, handshake)) :
    service.streamOf other = none := by
  simp only [Service.handshake, Option.bind_eq_some_iff] at there
  obtain ⟨poll_handle, present, going⟩ := there
  simp only [Service.streamOf, Service.handleOf, present, Option.bind_some]
  rw [if_neg]
  intro polling
  simp only [ClientHandle.handshake, polling] at going
  cases going

theorem streamOf_finish (tracked : service.Tracked) (runs : service.runs requester = true)
    (spares : requester = .connect → service.activity.held = none)
    (there : service.handshake requester = some (service_name, wait, handshake))
    (finished : service.finish requester service_name wait reply = some (after, out))
    (stream : service.streamOf number = some rpc) : after.streamOf number = some rpc := by
  cases Service.finish_cases finished with
  | opened pair => exact streamOf_add tracked (spares rfl) rfl rfl stream
  | refused e =>
    rw [← stream]
    exact streamOf_same rfl (spares rfl).symm
  | reopened other pair poll_handle present =>
    have going := reconnecting_phase there present
    exact streamOf_setHandle present (fun polling => absurd polling going) rfl rfl stream
  | abandoned other e =>
    obtain ⟨selecting, _, _, _⟩ := reconnecting_handle runs there
    exact streamOf_remove (held_phase selecting) (held_pollReturns _) (streamOf_reconnecting there) rfl stream

/-- The handle moves from the set into the arm. -/
theorem streamOf_message (selecting : service.activity.pollPhase = some .selecting)
    (present : service.client_poll_handles.get other = some poll_handle)
    (stream : service.streamOf number = some rpc) :
    ({ service with client_poll_handles := service.client_poll_handles.remove other }.inPhase
      (.handlingCall other poll_handle)).streamOf number = some rpc := by
  obtain ⟨found, there, polls, rfl⟩ := streamOf_iff.mp stream
  apply streamOf_iff.mpr
  simp only [Service.handleOf, held_phase selecting, PollPhase.held] at there
  refine ⟨found, ?_, polls, rfl⟩
  simp only [Service.handleOf, Service.inPhase, held_withPhase selecting, PollPhase.held]
  by_cases this : number = other
  · subst this
    rw [present] at there
    cases there
    simp
  · rw [Table.get_remove_of_ne this]
    split at there
    · cases there
      rfl
    · cases there

/-- The handle moves back, and is polled again. -/
theorem streamOf_handled (tracked : service.Tracked)
    (handling : service.activity.pollPhase = some (.handlingCall other poll_handle))
    (stream : service.streamOf number = some rpc) :
    (service.setHandle other { poll_handle with phase := .polling }).pollReturns.streamOf number = some rpc := by
  have holds : service.activity.held = some (other, poll_handle) := held_phase handling
  obtain ⟨found, there, polls, rfl⟩ := streamOf_iff.mp stream
  apply streamOf_iff.mpr
  simp only [Service.handleOf, holds] at there
  by_cases this : number = other
  · subst this
    have absent := (tracked.handling number poll_handle holds).2.1
    rw [absent] at there
    simp only [if_true, Option.some.injEq] at there
    subst there
    refine ⟨{ poll_handle with phase := .polling }, ?_, rfl, rfl⟩
    simp [Service.handleOf, Service.pollReturns, Service.setHandle]
  · refine ⟨found, ?_, polls, rfl⟩
    split at there
    · rename_i present
      cases there
      simp only [Service.handleOf, Service.pollReturns, Service.setHandle, Table.get_insert_of_ne this, present]
    · rw [if_neg (Ne.symm this)] at there
      cases there

theorem step_stream (tracked : service.Tracked) (spares : service.Spares action)
    (taken : Service.step monitor service action = some (after, out)) (stays : action ≠ .streamLost number)
    (stream : service.streamOf number = some rpc) : after.streamOf number = some rpc := by
  have still : ∀ {final : Service}, final.client_poll_handles = service.client_poll_handles →
      final.activity.held = service.activity.held → final.streamOf number = some rpc := by
    intro final handles held
    rw [streamOf_same handles held]
    exact stream
  cases Service.step_cases taken with
  | known name flag other poll_handle idle entry present =>
    have marked : poll_handle.phase = .polling → ({ poll_handle with outgoing := true } : ClientHandle).phase =
        .polling ∧ ({ poll_handle with outgoing := true } : ClientHandle).rpc = poll_handle.rpc :=
      fun polling => ⟨polling, rfl⟩
    exact streamOf_setHandle present marked rfl rfl stream
  | stale _ _ _ _ _ => exact stream
  | opened _ _ idle _ => exact still rfl (by rw [idle]; rfl)
  | polled idle => exact still rfl (by rw [idle]; rfl)
  | cancelled _ _ => exact still rfl (spares rfl).symm
  | sent requester _ _ _ there => exact streamOf_setHandshake there _ rfl rfl stream
  | unsent requester _ _ _ there => exact streamOf_setHandshake there _ rfl rfl stream
  | resolved requester _ _ _ _ _ there => exact streamOf_setHandshake there _ rfl rfl stream
  | unclaimed _ _ _ => exact stream
  | callLost requester _ _ _ _ there => exact streamOf_setHandshake there _ rfl rfl stream
  | resumed requester _ _ _ _ _ runs there finished =>
    apply streamOf_finish tracked runs _ there finished stream
    rintro rfl
    exact spares rfl
  | hubBack requester _ _ _ _ there _ => exact streamOf_setHandshake there .sending rfl rfl stream
  | hubGone requester _ _ e rest _ _ runs there signal finished =>
    cases Service.finish_cases finished with
    | refused e => exact still rfl (spares (by simp [Service.dropsPoll, signal])).symm
    | abandoned other e =>
      obtain ⟨selecting, _, _, _⟩ := reconnecting_handle runs there
      exact streamOf_remove (held_phase selecting) (held_pollReturns _) (streamOf_reconnecting there) rfl stream
  | message other poll_handle selecting present polling =>
    exact streamOf_message selecting present stream
  | handled other poll_handle handling =>
    exact streamOf_handled tracked handling stream
  | reconnects other poll_handle selecting present polling outgoing =>
    have different : number ≠ other := by
      rintro rfl
      exact stays rfl
    have free := held_phase selecting
    have same : (service.setHandle other { poll_handle with phase := .reconnecting .sending }).activity.held =
        service.activity.held := rfl
    apply streamOf_kept same _ (fun busy => absurd free busy) stream
    intro found there polls
    exact ⟨found, (Table.get_insert_of_ne different).trans there, polls, rfl⟩
  | drops other poll_handle selecting present polling incoming =>
    have different : number ≠ other := by
      rintro rfl
      exact stays rfl
    have free := held_phase selecting
    have after_free : (service.disconnect other poll_handle.service_name).1.activity.held = none := held_pollReturns _
    apply streamOf_kept (after_free.trans free.symm) _ (fun busy => absurd free busy) stream
    intro found there polls
    exact ⟨found, (Table.get_remove_of_ne different).trans there, polls, rfl⟩
  | hubRequest request selecting =>
    have free := held_phase selecting
    cases request with
    | other => exact still rfl ((held_pollReturns _).trans free.symm)
    | fd client_name pair =>
      simp only [Service.handleNewConnection]
      split
      · exact still rfl ((held_withPhase selecting _).trans free.symm)
      · split
        · exact still rfl ((held_pollReturns _).trans free.symm)
        · exact streamOf_add tracked free (held_pollReturns _) rfl stream
  | monitorSet setting => exact still rfl ((held_pollReturns _).trans (held_phase setting).symm)
  | hubLost selecting => exact still rfl ((held_withPhase selecting _).trans (held_phase selecting).symm)
  | registered registering => exact still rfl ((held_withPhase registering _).trans (held_phase registering).symm)
  | rejected _ registering => exact still rfl ((held_pollReturns _).trans (held_phase registering).symm)
  | reconnected reconnecting => exact still rfl ((held_pollReturns _).trans (held_phase reconnecting).symm)
  | interrupted selecting => exact still rfl ((held_pollReturns _).trans (held_phase selecting).symm)

theorem held_finish (runs : service.runs requester = true)
    (spares : requester = .connect → service.activity.held = none)
    (finished : service.finish requester service_name wait reply = some (after, out)) :
    after.activity.held = service.activity.held := by
  cases Service.finish_cases finished with
  | opened pair => exact (spares rfl).symm
  | refused e => exact (spares rfl).symm
  | reopened other pair poll_handle present => rfl
  | abandoned other e =>
    have selecting : service.activity.pollPhase = some .selecting := by simpa [Service.runs] using runs
    exact (held_pollReturns _).trans (held_phase selecting).symm

/-- Only a request of a client puts a handle into an arm, and only its end takes it out. -/
theorem step_held (spares : service.Spares action) (apart : action.servesCall = false)
    (taken : Service.step monitor service action = some (after, out)) :
    after.activity.held = service.activity.held := by
  cases Service.step_cases taken with
  | known _ _ _ _ _ _ _ => rfl
  | stale _ _ _ _ _ => rfl
  | opened _ _ idle _ =>
    rw [idle]
    rfl
  | polled idle =>
    rw [idle]
    rfl
  | cancelled _ _ => exact (spares rfl).symm
  | sent requester _ _ _ _ => exact held_setHandshake _ requester
  | unsent requester _ _ _ _ => exact held_setHandshake _ requester
  | resolved requester _ _ _ _ _ _ => exact held_setHandshake _ requester
  | unclaimed _ _ _ => rfl
  | callLost requester _ _ _ _ _ => exact held_setHandshake _ requester
  | resumed requester _ _ _ _ _ runs _ finished =>
    apply held_finish runs _ finished
    rintro rfl
    exact spares rfl
  | hubBack requester _ _ _ _ _ _ => exact held_setHandshake .sending requester
  | hubGone requester _ _ e rest _ _ runs _ signal finished =>
    have lost : requester = .connect → service.activity.held = none := by
      rintro rfl
      exact spares (by simp [Service.dropsPoll, signal])
    have kept : after.activity.held = ({ service with reconnect_signal := rest } : Service).activity.held :=
      held_finish runs lost finished
    exact kept
  | message _ _ _ _ _ => cases apart
  | handled _ _ _ => cases apart
  | reconnects _ _ _ _ _ _ => rfl
  | drops _ _ selecting _ _ _ => exact (held_pollReturns _).trans (held_phase selecting).symm
  | hubRequest request selecting =>
    have free := held_phase selecting
    cases request with
    | other => exact (held_pollReturns _).trans free.symm
    | fd client_name pair =>
      simp only [Service.handleNewConnection]
      split
      · exact (held_withPhase selecting _).trans free.symm
      · split
        · exact (held_pollReturns _).trans free.symm
        · exact (held_pollReturns _).trans free.symm
  | monitorSet setting => exact (held_pollReturns _).trans (held_phase setting).symm
  | hubLost selecting => exact (held_withPhase selecting _).trans (held_phase selecting).symm
  | registered registering => exact (held_withPhase registering _).trans (held_phase registering).symm
  | rejected _ registering => exact (held_pollReturns _).trans (held_phase registering).symm
  | reconnected reconnecting => exact (held_pollReturns _).trans (held_phase reconnecting).symm
  | interrupted selecting => exact (held_pollReturns _).trans (held_phase selecting).symm

end KrossbarLib
