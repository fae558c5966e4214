import KrossbarBus.Lib.Event
import KrossbarBus.Lib.Clients

namespace KrossbarLib

open KrossbarHub (Error)

variable {monitor : Bool} {service after : Service} {action : ServiceAction} {out : List ServiceEvent}
  {number : Nat} {poll_handle : ClientHandle} {requester current : Requester} {service_name : String} {wait : Bool}
  {reply : Reply} {handshake : Handshake} {expected : Requester → Prop}

/-- The clock has numbered every handle, scheduled or in use. -/
structure Service.Numbered (service : Service) : Prop where
  unused : ∀ number, service.clock ≤ number → service.client_poll_handles.get number = none
  handling : ∀ number poll_handle, service.activity.held = some (number, poll_handle) →
    service.client_poll_handles.get number = none ∧ number < service.clock

theorem Service.Numbered.older (numbered : service.Numbered)
    (present : service.client_poll_handles.get number = some poll_handle) : number < service.clock := by
  by_contra above
  rw [numbered.unused number (Nat.le_of_not_lt above)] at present
  cases present

theorem Service.Numbered.fewer (numbered : service.Numbered) (clock : service.clock ≤ after.clock)
    (handles : ∀ number, service.client_poll_handles.get number = none → after.client_poll_handles.get number = none)
    (held : after.activity.held = none ∨ after.activity.held = service.activity.held) : after.Numbered where
  unused := fun number above => handles number (numbered.unused number (Nat.le_trans clock above))
  handling := by
    intro number poll_handle uses
    rcases held with free | same
    · rw [free] at uses
      cases uses
    · rw [same] at uses
      obtain ⟨absent, older⟩ := numbered.handling number poll_handle uses
      exact ⟨handles number absent, Nat.lt_of_lt_of_le older clock⟩

theorem Service.Numbered.add (numbered : service.Numbered)
    (handles : after.client_poll_handles = service.client_poll_handles.insert service.clock poll_handle)
    (clock : after.clock = service.clock + 1) (free : after.activity.held = none) : after.Numbered where
  unused := by
    intro number above
    rw [clock] at above
    have different : number ≠ service.clock := Nat.ne_of_gt above
    rw [handles, Table.get_insert_of_ne different]
    exact numbered.unused number (Nat.le_of_succ_le above)
  handling := by simp [free]

theorem absent_setHandle (present : service.client_poll_handles.get number = some poll_handle) (next : ClientHandle)
    (other : Nat) (absent : service.client_poll_handles.get other = none) :
    (service.setHandle number next).client_poll_handles.get other = none := by
  have different : other ≠ number := by
    rintro rfl
    rw [present] at absent
    cases absent
  exact (Table.get_insert_of_ne different).trans absent

theorem absent_setHandshake (next : Handshake) (requester : Requester) (other : Nat)
    (absent : service.client_poll_handles.get other = none) :
    (service.setHandshake next requester).client_poll_handles.get other = none := by
  cases requester with
  | connect =>
    rw [setHandshake_connect]
    exact absent
  | handle number =>
    simp only [Service.setHandshake]
    split
    · rename_i poll_handle present
      exact absent_setHandle present _ other absent
    · exact absent

theorem absent_remove {table : Table Nat ClientHandle} (other : Nat) (absent : table.get other = none) :
    (table.remove number).get other = none := by
  rw [Table.get_remove, absent, ite_self]

theorem numbered_setHandshake (numbered : service.Numbered) (next : Handshake) (requester : Requester)
    (clock : (service.setHandshake next requester).clock ≤ after.clock)
    (handles : after.client_poll_handles = (service.setHandshake next requester).client_poll_handles)
    (activity : after.activity = (service.setHandshake next requester).activity) : after.Numbered := by
  apply numbered.fewer
  · rwa [setHandshake_clock] at clock
  · rw [handles]
    exact absent_setHandshake next requester
  · rw [activity]
    exact .inr (held_setHandshake next requester)

theorem Service.Steps.numbered (steps : service.Steps monitor action after out) (numbered : service.Numbered) :
    after.Numbered := by
  have still : ∀ {final : Service}, final.clock = service.clock →
      final.client_poll_handles = service.client_poll_handles →
      final.activity.held = none ∨ final.activity.held = service.activity.held → final.Numbered := by
    intro final clock handles held
    exact numbered.fewer (Nat.le_of_eq clock.symm) (fun _ absent => handles ▸ absent) held
  cases steps with
  | known service_name wait number poll_handle idle entry present =>
    exact numbered.fewer (Nat.le_refl _) (absent_setHandle present _) (.inr rfl)
  | stale _ _ _ _ _ => exact numbered
  | opened _ _ _ _ => exact still rfl rfl (.inl rfl)
  | polled _ => exact still rfl rfl (.inl rfl)
  | cancelled _ _ => exact still rfl rfl (.inl rfl)
  | sent requester _ _ _ _ => exact numbered_setHandshake numbered _ requester (Nat.le_succ_of_le (by simp)) rfl rfl
  | unsent requester _ _ _ _ => exact numbered_setHandshake numbered _ requester (Nat.le_refl _) rfl rfl
  | resolved requester _ _ _ _ _ _ => exact numbered_setHandshake numbered _ requester (Nat.le_refl _) rfl rfl
  | unclaimed _ _ _ => exact numbered
  | callLost requester _ _ _ _ _ => exact numbered_setHandshake numbered _ requester (Nat.le_refl _) rfl rfl
  | resumed requester _ _ reply _ _ _ _ finished =>
    cases Service.finish_cases finished with
    | opened pair => exact numbered.add rfl rfl rfl
    | refused e => exact still rfl rfl (.inl rfl)
    | reopened number pair poll_handle present =>
      exact numbered.fewer (Nat.le_refl _) (absent_setHandle present _) (.inr rfl)
    | abandoned number e => exact numbered.fewer (Nat.le_refl _) absent_remove (.inl (held_pollReturns _))
  | hubBack requester _ _ _ _ _ _ =>
    exact numbered_setHandshake numbered .sending requester (Nat.le_refl _) rfl rfl
  | hubGone requester _ _ _ _ _ _ _ _ _ finished =>
    cases Service.finish_cases finished with
    | refused e => exact still rfl rfl (.inl rfl)
    | abandoned number e => exact numbered.fewer (Nat.le_refl _) absent_remove (.inl (held_pollReturns _))
  | message number poll_handle selecting present polling =>
    constructor
    · exact fun other above => absent_remove other (numbered.unused other above)
    · intro other found uses
      have taken : some (number, poll_handle) = some (other, found) := by
        rw [← uses]
        exact (held_withPhase selecting (.handlingCall number poll_handle)).symm
      cases taken
      exact ⟨Table.get_remove_self, numbered.older present⟩
  | handled number poll_handle handling =>
    have older := (numbered.handling number poll_handle (held_phase handling)).2
    constructor
    · intro other above
      have different : other ≠ number := Nat.ne_of_gt (Nat.lt_of_lt_of_le older above)
      exact (Table.get_insert_of_ne different).trans (numbered.unused other above)
    · intro other found uses
      rw [Service.pollReturns, held_pollReturns] at uses
      cases uses
  | reconnects number poll_handle _ present _ _ =>
    exact numbered.fewer (Nat.le_refl _) (absent_setHandle present _) (.inr rfl)
  | drops _ _ _ _ _ _ => exact numbered.fewer (Nat.le_refl _) absent_remove (.inl (held_pollReturns _))
  | hubRequest request selecting =>
    cases request with
    | other => exact still rfl rfl (.inl (held_pollReturns _))
    | fd client_name stream =>
      simp only [Service.handleNewConnection]
      split
      · exact still rfl rfl (.inl (held_withPhase selecting _))
      · split
        · exact still rfl rfl (.inl (held_pollReturns _))
        · exact numbered.add rfl rfl (held_pollReturns _)
  | monitorSet _ => exact still rfl rfl (.inl (held_pollReturns _))
  | hubLost selecting => exact still rfl rfl (.inl (held_withPhase selecting _))
  | registered registering => exact still rfl rfl (.inl (held_withPhase registering _))
  | rejected _ _ => exact still rfl rfl (.inl (held_pollReturns _))
  | reconnected _ => exact still rfl rfl (.inl (held_pollReturns _))
  | interrupted _ => exact still rfl rfl (.inl (held_pollReturns _))

theorem Service.Numbered.initial (service_name : String) : (Service.new service_name).Numbered where
  unused := by simp [Service.new]
  handling := by simp [Service.new, Activity.held, Activity.pollPhase]

/-- The requester is in `hub_reconnect_event.wait()`. -/
def Service.Waits (service : Service) (requester : Requester) : Prop :=
  ∃ service_name wait, service.handshake requester = some (service_name, wait, .waitingHub)

/-- What a step of the service does to its `reconnect_signal`. -/
def ServiceAction.onSignal : ServiceAction → Option (EventAction Requester (Option Error))
  | .sent requester false => some (.wait requester)
  | .reconnectEvent requester => some (.receive requester)
  | .registered (some e) => some (.emit (some e))
  | .reconnected => some (.emit none)
  | _ => none

/-- Who waits after a step, but for a `connect` that ends in it. -/
def Service.StillWaits (service : Service) (action : ServiceAction) (requester : Requester) : Prop :=
  match action.onSignal with
  | some (.wait other) => requester = other ∨ service.Waits requester
  | some (.receive other) => requester ≠ other ∧ service.Waits requester
  | _ => service.Waits requester

structure Service.Carries (after : Service) (expected : Requester → Prop) : Prop where
  handles : ∀ number, after.Waits (.handle number) ↔ expected (.handle number)
  connect : after.Waits .connect → expected .connect

theorem waits_iff_of_handshake (same : after.handshake requester = service.handshake requester) :
    after.Waits requester ↔ service.Waits requester := by
  simp only [Service.Waits, same]

theorem not_waits (there : service.handshake requester = some (service_name, wait, handshake))
    (different : handshake ≠ .waitingHub) : ¬ service.Waits requester := by
  rintro ⟨name, flag, waits⟩
  rw [there] at waits
  cases waits
  exact different rfl

theorem not_waits_of_none (silent : service.handshake requester = none) : ¬ service.Waits requester := by
  rintro ⟨name, flag, waits⟩
  rw [silent] at waits
  cases waits

/-- The step changes the handshake of one handle only, which waits neither before nor after it. -/
theorem carries_quiet (number : Nat)
    (others : ∀ other, other ≠ number → after.handshake (.handle other) = service.handshake (.handle other))
    (connect : after.handshake .connect = none ∨ after.handshake .connect = service.handshake .connect)
    (before : ¬ service.Waits (.handle number)) (now : ¬ after.Waits (.handle number)) :
    after.Carries service.Waits where
  handles := by
    intro other
    by_cases this : other = number
    · subst this
      exact ⟨fun waits => absurd waits now, fun waits => absurd waits before⟩
    · exact waits_iff_of_handshake (others other this)
  connect := by
    rcases connect with silent | same
    · exact fun waits => absurd waits (not_waits_of_none silent)
    · exact (waits_iff_of_handshake same).mp

theorem carries_same (handles : after.client_poll_handles = service.client_poll_handles)
    (connect : after.handshake .connect = none ∨ after.handshake .connect = service.handshake .connect) :
    after.Carries service.Waits where
  handles := by
    intro number
    apply waits_iff_of_handshake
    simp only [Service.handshake, handles]
  connect := by
    rcases connect with silent | same
    · exact fun waits => absurd waits (not_waits_of_none silent)
    · exact (waits_iff_of_handshake same).mp

theorem carries_setHandshake (there : service.handshake current = some (service_name, wait, handshake))
    (waiting : handshake ≠ .waitingHub) {next : Handshake} (resumes : next ≠ .waitingHub)
    (same : ∀ requester, after.handshake requester = (service.setHandshake next current).handshake requester) :
    after.Carries service.Waits := by
  have iff : ∀ requester, after.Waits requester ↔ service.Waits requester := by
    intro requester
    have now := same requester
    rw [handshake_setHandshake there] at now
    split at now
    · rename_i this
      rw [this] at now ⊢
      exact ⟨fun waits => absurd waits (not_waits now resumes), fun waits => absurd waits (not_waits there waiting)⟩
    · exact waits_iff_of_handshake now
  exact ⟨fun number => iff (.handle number), (iff .connect).mp⟩

theorem quiet_handle (present : service.client_poll_handles.get number = some poll_handle)
    (polling : poll_handle.phase = .polling) : ¬ service.Waits (.handle number) := by
  apply not_waits_of_none
  simp [Service.handshake, present, ClientHandle.handshake, polling]

theorem quiet_absent (absent : service.client_poll_handles.get number = none) : ¬ service.Waits (.handle number) := by
  apply not_waits_of_none
  simp [Service.handshake, absent]

theorem handshake_elsewhere (same : ∀ other, other ≠ number →
      after.client_poll_handles.get other = service.client_poll_handles.get other)
    (other : Nat) (different : other ≠ number) :
    after.handshake (.handle other) = service.handshake (.handle other) := by
  simp only [Service.handshake, same other different]

theorem carries_add (numbered : service.Numbered) (polling : poll_handle.phase = .polling)
    (handles : after.client_poll_handles = service.client_poll_handles.insert service.clock poll_handle)
    (connect : after.handshake .connect = none) : after.Carries service.Waits := by
  apply carries_quiet service.clock _ (.inl connect) (quiet_absent (numbered.unused service.clock (Nat.le_refl _)))
  · apply quiet_handle _ polling
    rw [handles]
    exact Table.get_insert_self
  · apply handshake_elsewhere
    intro other different
    rw [handles]
    exact Table.get_insert_of_ne different

theorem carries_insert (before : ¬ service.Waits (.handle number)) (now : poll_handle.handshake = none)
    (handles : after.client_poll_handles = service.client_poll_handles.insert number poll_handle)
    (connect : after.handshake .connect = none ∨ after.handshake .connect = service.handshake .connect) :
    after.Carries service.Waits := by
  apply carries_quiet number _ connect before
  · apply not_waits_of_none
    simp [Service.handshake, handles, now]
  · apply handshake_elsewhere
    intro other different
    rw [handles]
    exact Table.get_insert_of_ne different

theorem carries_remove (before : ¬ service.Waits (.handle number))
    (handles : after.client_poll_handles = service.client_poll_handles.remove number)
    (connect : after.handshake .connect = none ∨ after.handshake .connect = service.handshake .connect) :
    after.Carries service.Waits := by
  apply carries_quiet number _ connect before
  · apply quiet_absent
    rw [handles]
    exact Table.get_remove_self
  · apply handshake_elsewhere
    intro other different
    rw [handles]
    exact Table.get_remove_of_ne different

theorem waits_setHandshake (there : service.handshake current = some (service_name, wait, handshake))
    (next : Handshake) (requester : Requester) :
    (service.setHandshake next current).Waits requester ↔
      if requester = current then next = .waitingHub else service.Waits requester := by
  simp only [Service.Waits, handshake_setHandshake there]
  split
  · simp
  · rfl

theorem carries_finish (numbered : service.Numbered) (before : ¬ service.Waits current)
    (finished : service.finish current service_name wait reply = some (after, out)) :
    after.Carries service.Waits := by
  cases Service.finish_cases finished with
  | opened pair => exact carries_add numbered rfl rfl rfl
  | refused e => exact carries_same rfl (.inl rfl)
  | reopened number pair poll_handle present => exact carries_insert before rfl rfl (.inr rfl)
  | abandoned number e => exact carries_remove before rfl (.inl (handshake_pollReturns _))

theorem carries_lost {rest : List (Option Error)} {e : Error}
    (finished : { service with reconnect_signal := rest }.finish current service_name wait (.error e) =
      some (after, out)) :
    after.Carries fun requester => requester ≠ current ∧ service.Waits requester := by
  cases Service.finish_cases finished with
  | refused e =>
    constructor
    · intro number
      simp only [ne_eq, reduceCtorEq, not_false_eq_true, true_and]
      exact waits_iff_of_handshake rfl
    · exact fun waits => absurd waits (not_waits_of_none rfl)
  | abandoned number e =>
    constructor
    · intro other
      simp only [ne_eq, Requester.handle.injEq]
      by_cases this : other = number
      · subst this
        simp [Service.Waits, Service.handshake, Service.disconnect, Service.pollReturns]
      · simp only [this, not_false_eq_true, true_and]
        apply waits_iff_of_handshake
        exact handshake_elsewhere (fun _ different => Table.get_remove_of_ne different) other this
    · exact fun waits => absurd waits (not_waits_of_none (handshake_pollReturns _))

theorem Service.Steps.carries (steps : service.Steps monitor action after out) (numbered : service.Numbered) :
    after.Carries (service.StillWaits action) := by
  have returned : ∀ {final : Service}, final.client_poll_handles = service.client_poll_handles →
      final.activity = service.activity.pollReturns → final.Carries service.Waits := by
    intro final handles activity
    apply carries_same handles
    left
    simp only [Service.handshake, activity, handshake_pollReturns]
  have moved : ∀ phase, (service.inPhase phase).Carries service.Waits := by
    intro phase
    have same : (service.inPhase phase).handshake .connect = service.handshake .connect :=
      handshake_withPhase service.activity phase
    exact carries_same rfl (.inr same)
  cases steps with
  | known service_name wait number poll_handle idle entry present =>
    have same : ∀ requester, (service.setHandle number { poll_handle with outgoing := true }).handshake requester =
        service.handshake requester := by
      intro requester
      rw [handshake_setHandle]
      split
      · rename_i this
        simp only [this, Service.handshake, present, Option.bind_some, ClientHandle.handshake]
      · rfl
    exact ⟨fun number => waits_iff_of_handshake (same _), (waits_iff_of_handshake (same _)).mp⟩
  | stale _ _ _ _ _ => exact carries_same rfl (.inr rfl)
  | opened _ _ _ _ =>
    refine ⟨fun number => waits_iff_of_handshake rfl, ?_⟩
    exact fun waits => absurd waits (not_waits rfl (by simp))
  | polled _ => exact carries_same rfl (.inl rfl)
  | cancelled _ _ => exact carries_same rfl (.inl rfl)
  | sent requester _ _ _ there =>
    have resumes : Handshake.awaiting service.clock ≠ .waitingHub := by simp
    apply carries_setHandshake there (by simp) resumes
    intro requester
    cases requester <;> rfl
  | unsent requester _ _ _ there =>
    constructor
    · intro number
      rw [waits_setHandshake there]
      simp only [Service.StillWaits, ServiceAction.onSignal]
      split <;> simp [*]
    · intro waits
      rw [waits_setHandshake there] at waits
      simp only [Service.StillWaits, ServiceAction.onSignal]
      split at waits <;> simp [*]
  | resolved requester _ _ _ _ _ there => exact carries_setHandshake there (by simp) (by simp) fun _ => rfl
  | unclaimed _ _ _ => exact carries_same rfl (.inr rfl)
  | callLost requester _ _ _ _ there => exact carries_setHandshake there (by simp) (by simp) fun _ => rfl
  | resumed requester _ _ _ _ _ _ there finished =>
    exact carries_finish numbered (not_waits there (by simp)) finished
  | hubBack requester _ _ rest _ there _ =>
    have iff : ∀ other, Service.Waits { service.setHandshake .sending requester with reconnect_signal := rest } other ↔
        other ≠ requester ∧ service.Waits other := by
      intro other
      have same : Service.Waits { service.setHandshake .sending requester with reconnect_signal := rest } other ↔
          (service.setHandshake .sending requester).Waits other := by
        apply waits_iff_of_handshake
        cases other <;> rfl
      rw [same, waits_setHandshake there]
      split <;> simp [*]
    exact ⟨fun number => iff (.handle number), (iff .connect).mp⟩
  | hubGone requester _ _ _ _ _ _ _ _ _ finished => exact carries_lost finished
  | message number poll_handle selecting present polling =>
    apply carries_remove (quiet_handle present polling) rfl
    exact .inr (handshake_withPhase _ _)
  | handled number poll_handle handling =>
    have absent := (numbered.handling number poll_handle (held_phase handling)).1
    exact carries_insert (quiet_absent absent) rfl rfl (.inl (handshake_pollReturns _))
  | reconnects number poll_handle _ present polling _ =>
    have before := quiet_handle present polling
    have sending : (service.setHandle number { poll_handle with phase := .reconnecting .sending }).handshake
        (.handle number) = some (poll_handle.service_name, poll_handle.wait_connect, .sending) := by
      rw [handshake_setHandle, if_pos rfl]
      rfl
    have others : ∀ other, other ≠ number →
        (service.setHandle number { poll_handle with phase := .reconnecting .sending }).handshake (.handle other) =
          service.handshake (.handle other) :=
      handshake_elsewhere fun _ different => Table.get_insert_of_ne different
    exact carries_quiet number others (.inr rfl) before (not_waits sending (by simp))
  | drops number poll_handle _ present polling _ =>
    exact carries_remove (quiet_handle present polling) rfl (.inl (handshake_pollReturns _))
  | hubRequest request _ =>
    cases request with
    | other => exact returned rfl rfl
    | fd client_name stream =>
      simp only [Service.handleNewConnection]
      split
      · exact moved .settingMonitor
      · split
        · exact returned rfl rfl
        · exact carries_add numbered rfl rfl (handshake_pollReturns _)
  | monitorSet _ => exact returned rfl rfl
  | hubLost _ => exact moved .registering
  | registered _ => exact moved .reconnecting
  | rejected _ _ => exact returned rfl rfl
  | reconnected _ => exact returned rfl rfl
  | interrupted _ => exact returned rfl rfl

/-- The `reconnect_signal` of a service as an event of its own. -/
structure Represents (service : Service) (event : Event Requester (Option Error)) : Prop where
  channel : event.channel = service.reconnect_signal
  waiting : ∀ requester, requester ∈ event.waiting ↔ service.Waits requester
  nodup : event.waiting.Nodup

/-- An emission finds at most one waiting requester and no `connect` in progress, and none starts to wait
    while another one is about to receive. -/
def Service.Unshared (service : Service) : ServiceAction → Prop
  | .reconnected | .registered (some _) => service.reconnect_signal = [] →
    ∀ requester, service.Waits requester →
      service.activity.connects = false ∧ ∀ other, service.Waits other → other = requester
  | .sent _ false => service.reconnect_signal = [] ∨ ∀ requester, ¬ service.Waits requester
  | _ => True

variable {event : Event Requester (Option Error)}

theorem Represents.unshared (represents : Represents service event) (unshared : service.Unshared action)
    {move : EventAction Requester (Option Error)} (moves : action.onSignal = some move) : event.Unshared move := by
  have emission : (service.reconnect_signal = [] → ∀ requester, service.Waits requester →
      service.activity.connects = false ∧ ∀ other, service.Waits other → other = requester) →
      event.channel = [] → event.waiting.length ≤ 1 := by
    intro alone empty
    rw [represents.channel] at empty
    match waiting : event.waiting with
    | [] => simp
    | [_] => simp
    | first :: second :: rest =>
      have nodup := represents.nodup
      have waits := represents.waiting
      rw [waiting] at nodup waits
      have same := (alone empty first ((waits first).mp (by simp))).2 second ((waits second).mp (by simp))
      simp [same] at nodup
  cases action with
  | sent requester ok =>
    cases ok <;> cases moves
    rcases unshared with empty | nobody
    · exact .inl (represents.channel.trans empty)
    · refine .inr (List.eq_nil_iff_forall_not_mem.mpr ?_)
      exact fun other member => nobody other ((represents.waiting other).mp member)
  | reconnectEvent requester =>
    cases moves
    trivial
  | registered failure =>
    cases failure <;> cases moves
    exact emission unshared
  | reconnected =>
    cases moves
    exact emission unshared
  | _ => cases moves

/-- The step as a step of the event, before a `connect` that ends drops its wait. -/
structure Follows (service : Service) (action : ServiceAction) (after : Service)
    (event next : Event Requester (Option Error)) : Prop where
  channel : next.channel = after.reconnect_signal
  waiting : ∀ requester, requester ∈ next.waiting ↔ service.StillWaits action requester
  taken : match action.onSignal with
    | some move => ∃ out, Event.step event move = some (next, out)
    | none => next = event

theorem finish_signal (finished : service.finish current service_name wait reply = some (after, out)) :
    after.reconnect_signal = service.reconnect_signal := by
  cases Service.finish_cases finished with
  | _ => rfl

theorem setHandshake_signal (next : Handshake) (requester : Requester) :
    (service.setHandshake next requester).reconnect_signal = service.reconnect_signal := by
  rw [setHandshake_frame]

theorem Service.Steps.signal_kept (steps : service.Steps monitor action after out) (quiet : action.onSignal = none) :
    after.reconnect_signal = service.reconnect_signal := by
  cases steps with
  | sent requester _ _ _ _ => exact setHandshake_signal _ requester
  | unsent _ _ _ _ _ => cases quiet
  | resolved requester _ _ _ _ _ _ => exact setHandshake_signal _ requester
  | callLost requester _ _ _ _ _ => exact setHandshake_signal _ requester
  | resumed _ _ _ _ _ _ _ _ finished => exact finish_signal finished
  | hubBack _ _ _ _ _ _ _ => cases quiet
  | hubGone _ _ _ _ _ _ _ _ _ _ _ => cases quiet
  | hubRequest request _ =>
    cases request with
    | other => rfl
    | fd client_name stream =>
      simp only [Service.handleNewConnection]
      split
      · rfl
      · split <;> rfl
  | rejected _ _ => cases quiet
  | reconnected _ => cases quiet
  | _ => rfl

theorem Represents.received (represents : Represents service event) {value : Option Error} {rest : List (Option Error)}
    (signal : service.reconnect_signal = value :: rest) (waits : service.Waits requester)
    (kept : after.reconnect_signal = rest) :
    Follows service (.reconnectEvent requester) after event ⟨rest, event.waiting.erase requester⟩ where
  channel := kept.symm
  waiting := by
    intro other
    rw [represents.nodup.mem_erase_iff, represents.waiting]
    rfl
  taken := by
    have member := (represents.waiting requester).mpr waits
    simp only [ServiceAction.onSignal, Event.step, represents.channel, signal, member, if_true]
    exact ⟨_, rfl⟩

theorem Represents.emitted (represents : Represents service event) {value : Option Error}
    (emits : action.onSignal = some (.emit value))
    (signal : after.reconnect_signal = service.reconnect_signal ++ [value]) :
    Follows service action after event { event with channel := event.channel ++ [value] } where
  channel := by rw [signal, represents.channel]
  waiting := by
    intro requester
    simp only [Service.StillWaits, emits, represents.waiting]
  taken := by
    simp only [emits]
    exact ⟨[], rfl⟩

theorem Represents.follows (represents : Represents service event)
    (steps : service.Steps monitor action after out) : ∃ next, Follows service action after event next := by
  have kept := steps.signal_kept
  cases steps with
  | unsent requester _ _ _ there =>
    have absent : requester ∉ event.waiting := by
      rw [represents.waiting]
      exact not_waits there (by simp)
    refine ⟨{ event with waiting := event.waiting ++ [requester] }, ?_, ?_, ?_⟩
    · rw [setHandshake_signal, represents.channel]
    · intro other
      simp only [Service.StillWaits, ServiceAction.onSignal, List.mem_append, List.mem_singleton, represents.waiting]
      exact or_comm
    · simp only [ServiceAction.onSignal, Event.step, if_neg absent]
      exact ⟨[], rfl⟩
  | hubBack requester service_name wait rest _ there signal =>
    exact ⟨_, represents.received signal ⟨service_name, wait, there⟩ rfl⟩
  | hubGone requester service_name wait e rest _ _ _ there signal finished =>
    exact ⟨_, represents.received signal ⟨service_name, wait, there⟩ (finish_signal finished)⟩
  | rejected e _ => exact ⟨_, represents.emitted rfl rfl⟩
  | reconnected _ => exact ⟨_, represents.emitted rfl rfl⟩
  | _ => exact ⟨event, represents.channel.trans (kept rfl).symm, represents.waiting, rfl⟩

/-- The steps of the event that a step of the service may stand for. -/
def ServiceAction.Matches (action : ServiceAction) (move : EventAction Requester (Option Error)) : Prop :=
  action.onSignal = some move ∨ move = .drop .connect

theorem ServiceAction.Matches.received (matching : action.Matches (.receive requester)) :
    action = .reconnectEvent requester := by
  rcases matching with moves | impossible
  · cases action with
    | sent _ ok => cases ok <;> cases moves
    | registered failure => cases failure <;> cases moves
    | reconnectEvent _ =>
      cases moves
      rfl
    | _ => cases moves
  · cases impossible

theorem ServiceAction.Matches.dropped (matching : action.Matches (.drop requester)) : requester = .connect := by
  rcases matching with moves | same
  · cases action with
    | sent _ ok => cases ok <;> cases moves
    | registered failure => cases failure <;> cases moves
    | _ => cases moves
  · cases same
    rfl

theorem Follows.represents {next : Event Requester (Option Error)}
    (follows : Follows service action after event next) (nodup : next.waiting.Nodup)
    (carries : after.Carries (service.StillWaits action)) :
    ∃ log final, Transition.RunWith Event.step (fun event move => event.Unshared move ∧ move = .drop .connect)
      next log final ∧ Represents after final := by
  have handles : ∀ number, .handle number ∈ next.waiting ↔ after.Waits (.handle number) := by
    intro number
    rw [follows.waiting, carries.handles]
  by_cases ends : .connect ∈ next.waiting ∧ ¬ after.Waits .connect
  · have dropped : Event.step next (.drop .connect) =
        some ({ next with waiting := next.waiting.erase .connect }, []) := by
      simp only [Event.step, ends.1, if_true]
    have unshared : next.Unshared (.drop .connect) := trivial
    refine ⟨_, _, .next .start ⟨unshared, rfl⟩ dropped, follows.channel, ?_, nodup.erase .connect⟩
    intro requester
    rw [nodup.mem_erase_iff]
    cases requester with
    | connect => simp [ends.2]
    | handle number => simp [handles]
  · refine ⟨[], next, .start, follows.channel, ?_, nodup⟩
    intro requester
    cases requester with
    | connect =>
      constructor
      · intro member
        by_contra silent
        exact ends ⟨member, silent⟩
      · intro waits
        exact (follows.waiting .connect).mpr (carries.connect waits)
    | handle number => exact handles number

theorem Represents.matched (represents : Represents service event) (numbered : service.Numbered)
    (unshared : service.Unshared action) (taken : Service.step monitor service action = some (after, out)) :
    ∃ log next, Transition.RunWith Event.step (fun event move => event.Unshared move ∧ action.Matches move)
      event log next ∧ Represents after next := by
  have steps := Service.step_cases taken
  obtain ⟨middle, follows⟩ := represents.follows steps
  have first : ∃ log, Transition.RunWith Event.step (fun event move => event.Unshared move ∧ action.Matches move)
      event log middle := by
    have taken := follows.taken
    cases moves : action.onSignal with
    | none =>
      rw [moves] at taken
      subst taken
      exact ⟨[], .start⟩
    | some move =>
      rw [moves] at taken
      obtain ⟨out, taken⟩ := taken
      exact ⟨_, .next .start ⟨represents.unshared unshared moves, .inl moves⟩ taken⟩
  obtain ⟨log, first⟩ := first
  have nodup : middle.waiting.Nodup :=
    first.invariant (I := fun _ event => event.waiting.Nodup) represents.nodup
      fun _ _ _ _ _ _ nodup _ taken => nodup_step nodup taken
  obtain ⟨later, final, rest, represents⟩ := follows.represents nodup (steps.carries numbered)
  exact ⟨log ++ later, final, first.append (rest.weaken fun _ _ allowed => ⟨allowed.1, .inr allowed.2⟩), represents⟩

/-- Every run of a service is a run of its event. -/
theorem run_represents {service_name : String} {log : List ServiceEvent}
    (run : Transition.RunWith (Service.step monitor) Service.Unshared (.new service_name) log service) :
    service.Numbered ∧ ∃ completions event, Transition.RunWith Event.step Event.Unshared .new completions event ∧
      Represents service event := by
  have initial : (Service.new service_name).Numbered ∧ Represents (.new service_name) .new := by
    refine ⟨.initial service_name, rfl, ?_, List.nodup_nil⟩
    intro requester
    have silent : (Service.new service_name).handshake requester = none := by cases requester <;> rfl
    simp [Event.new, not_waits_of_none silent]
  obtain ⟨completions, event, follows, numbered, represents⟩ := run.simulate
    (R := fun service event => service.Numbered ∧ Represents service event) initial
    fun service action after out event related unshared taken => by
      obtain ⟨log, next, run, represents⟩ := related.2.matched related.1 unshared taken
      exact ⟨log, next, run.weaken fun _ _ allowed => allowed.1,
        (Service.step_cases taken).numbered related.1, represents⟩
  exact ⟨numbered, completions, event, follows, represents⟩

theorem run_assigned {value : Option Error} {log : List ServiceEvent} (numbered : service.Numbered)
    (represents : Represents service event) (assigned : event.Assigned (.handle number) value)
    (run : Transition.RunWith (Service.step monitor)
      (fun service action => service.Unshared action ∧ action ≠ .reconnectEvent (.handle number)) service log after) :
    after.Waits (.handle number) ∧ after.reconnect_signal.head? = some value := by
  have simulated : ∃ completions final, Transition.RunWith Event.step
      (fun event move => event.Unshared move ∧ move ≠ .receive (.handle number) ∧ move ≠ .drop (.handle number))
      event completions final ∧ after.Numbered ∧ Represents after final := by
    apply run.simulate (R := fun service event => service.Numbered ∧ Represents service event)
    · exact ⟨numbered, represents⟩
    · intro service action after out event related allowed taken
      obtain ⟨log, next, run, represents⟩ := related.2.matched related.1 allowed.1 taken
      refine ⟨log, next, run.weaken ?_, (Service.step_cases taken).numbered related.1, represents⟩
      rintro event move ⟨unshared, matching⟩
      refine ⟨unshared, ?_, ?_⟩
      · rintro rfl
        exact allowed.2 matching.received
      · rintro rfl
        cases matching.dropped
  obtain ⟨completions, final, follows, _, represents⟩ := simulated
  have assigned := assigned.run follows
  rw [← represents.waiting, assigned.alone, ← represents.channel]
  exact ⟨by simp, assigned.first⟩

theorem hub_back (waits : service.Waits requester) (signal : service.reconnect_signal.head? = some none)
    (runs : service.runs requester = true) :
    ∃ final service_name wait, Service.step monitor service (.reconnectEvent requester) = some (final, []) ∧
      final.handshake requester = some (service_name, wait, .sending) := by
  obtain ⟨service_name, wait, there⟩ := waits
  obtain ⟨rest, signal⟩ := List.head?_eq_some_iff.mp signal
  refine ⟨_, service_name, wait, by simp only [Service.step, runs, there, signal]; rfl, ?_⟩
  have sending : (service.setHandshake .sending requester).handshake requester =
      some (service_name, wait, .sending) := by
    rw [handshake_setHandshake there, if_pos rfl]
  cases requester <;> exact sending

theorem waiting_handle (alone : service.activity.connects = false) (waits : service.Waits requester) :
    ∃ number, requester = .handle number := by
  cases requester with
  | handle number => exact ⟨number, rfl⟩
  | connect =>
    obtain ⟨name, flag, there⟩ := waits
    obtain ⟨phase, connecting⟩ := handshake_connecting there
    rw [connecting] at alone
    cases alone

theorem pollReturns_idle {activity : Activity} {phase : PollPhase} (alone : activity.connects = false)
    (polls : activity.pollPhase = some phase) : activity.pollReturns = .idle := by
  cases activity with
  | polling _ => rfl
  | connecting _ _ _ _ => cases alone
  | _ => cases polls

theorem Represents.reconnected (represents : Represents service event) (alone : service.activity.connects = false)
    (carries : after.Carries service.Waits) (signal : after.reconnect_signal = service.reconnect_signal ++ [none]) :
    Represents after { event with channel := event.channel ++ [none] } where
  channel := by rw [signal, represents.channel]
  waiting := by
    intro requester
    rw [represents.waiting]
    cases requester with
    | handle number => exact (carries.handles number).symm
    | connect =>
      have nobody : ¬ service.Waits .connect := by
        intro waits
        obtain ⟨number, impossible⟩ := waiting_handle alone waits
        cases impossible
      exact ⟨fun waits => absurd waits nobody, carries.connect⟩
  nodup := represents.nodup

/-- The first part is about any event, the second about the one of a service. Under the condition a blocked
    call gets the value of the next emission, whatever happens before it is polled again. -/
theorem reconnect_event_reaches {ι T : Type} [DecidableEq ι] (monitor : Bool) (service_name : String) :
    (∀ {log : List (Completion ι T)} {event after : Event ι T} {value : T} {out : List (Completion ι T)},
      Transition.RunWith Event.step Event.Unshared .new log event →
      event.channel = [] → Event.step event (.emit value) = some (after, out) →
      (event.Unshared (.emit value) ↔ ∀ waiter ∈ event.waiting, after.Delivers waiter value)) ∧
    ∀ {log out : List ServiceEvent} {service after : Service} {requester : Requester},
      Transition.RunWith (Service.step monitor) Service.Unshared (.new service_name) log service →
      service.reconnect_signal = [] → service.Unshared .reconnected →
      Service.step monitor service .reconnected = some (after, out) → service.Waits requester →
      after.activity = .idle ∧ ∀ later_log later, Transition.RunWith (Service.step monitor)
        (fun service action => service.Unshared action ∧ action ≠ .reconnectEvent requester) after later_log later →
        later.Waits requester ∧ (later.runs requester = true → ∃ final service_name wait,
          Service.step monitor later (.reconnectEvent requester) = some (final, []) ∧
          final.handshake requester = some (service_name, wait, .sending)) := by
  constructor
  · intro log event after value out run blocked taken
    exact emit_delivers blocked (run_nodup run) taken
  · intro log out service after requester run blocked unshared taken waits
    obtain ⟨numbered, _, event, _, represents⟩ := run_represents run
    have alone := (unshared blocked requester waits).1
    obtain ⟨number, rfl⟩ := waiting_handle alone waits
    have empty := represents.channel.trans blocked
    have emitted : Event.step event (.emit none) = some ({ event with channel := event.channel ++ [none] }, []) := rfl
    have assigned := emit_assigned empty (represents.unshared unshared rfl empty)
      ((represents.waiting _).mpr waits) emitted
    have steps := Service.step_cases taken
    have carries := steps.carries numbered
    have numbered_after := steps.numbered numbered
    cases steps with
    | reconnected reconnecting =>
      refine ⟨pollReturns_idle alone reconnecting, ?_⟩
      intro later_log later rest
      have represents_after := represents.reconnected alone carries rfl
      obtain ⟨waits, signal⟩ := run_assigned numbered_after represents_after assigned rest
      exact ⟨waits, hub_back waits signal⟩

/-- A bound on the handles decides who waits. -/
def Service.onlyWaits (service : Service) (number : Nat) : Bool :=
  !service.activity.connects && (List.range service.clock).all fun other =>
    other == number || service.handshake (.handle other) == none

theorem onlyWaits_unshared (numbered : service.Numbered) (only : service.onlyWaits number = true) :
    service.Unshared .reconnected := by
  simp only [Service.onlyWaits, Bool.and_eq_true, Bool.not_eq_true', List.all_eq_true, List.mem_range,
    Bool.or_eq_true, beq_iff_eq] at only
  obtain ⟨alone, only⟩ := only
  have same : ∀ requester, service.Waits requester → requester = .handle number := by
    intro requester waits
    obtain ⟨other, rfl⟩ := waiting_handle alone waits
    obtain ⟨name, flag, there⟩ := waits
    have there' := there
    simp only [Service.handshake, Option.bind_eq_some_iff] at there'
    obtain ⟨poll_handle, present, _⟩ := there'
    rcases only other (numbered.older present) with rfl | silent
    · rfl
    · rw [silent] at there
      cases there
  intro _ requester waits
  refine ⟨alone, fun other waits' => ?_⟩
  rw [same requester waits, same other waits']

def Service.waitsAlone (service : Service) : ServiceAction → Bool
  | .reconnected | .registered (some _) => false
  | .sent _ false => service.reconnect_signal == []
  | _ => true

theorem waitsAlone_unshared (passed : service.waitsAlone action = true) : service.Unshared action := by
  cases action with
  | sent requester ok =>
    cases ok with
    | true => trivial
    | false => exact .inl (beq_iff_eq.mp passed)
  | registered failure =>
    cases failure with
    | none => trivial
    | some e => cases passed
  | reconnected => cases passed
  | _ => trivial

theorem reconnect_event_reaches_alone : (Event.mk [5] [1] : Event Nat Nat).Delivers 1 5 ∧
    ∃ log service after, Transition.Run (Service.step true) (.new "com.a") log service ∧
      service.Waits (.handle 1) ∧ Service.step true service .reconnected = some (after, []) ∧
      after.activity = .idle ∧ ∃ later final service_name wait,
        Service.step true after .poll = some (later, []) ∧
        Service.step true later (.reconnectEvent (.handle 1)) = some (final, []) ∧
        final.handshake (.handle 1) = some (service_name, wait, .sending) := by
  constructor
  · have joined : Event.step (.new : Event Nat Nat) (.wait 1) = some (⟨[], [1]⟩, []) := by decide
    have unshared : (.new : Event Nat Nat).Unshared (.wait 1) := Or.inl rfl
    have run : Transition.RunWith Event.step Event.Unshared (.new : Event Nat Nat) [] ⟨[], [1]⟩ :=
      .next .start unshared joined
    have emitted : Event.step (Event.mk [] [1] : Event Nat Nat) (.emit 5) = some (⟨[5], [1]⟩, []) := rfl
    exact ((reconnect_event_reaches true "com.a").1 run rfl emitted).mp (fun _ => Nat.le_refl 1) 1 (by simp)
  · obtain ⟨log, service, run, shown⟩ := Transition.exists_run_of_execute
      (Transition.guarded (Service.step true) Service.waitsAlone) (Service.new "com.a")
      [.connect "com.b" false, .sent .connect true, .resolved 0 (.stream 7), .resumed .connect, .poll,
        .streamLost 1, .sent (.handle 1) false, .hubLost, .registered none]
      (fun _ service => service.activity == .polling .reconnecting && service.reconnect_signal == [] &&
        service.handshake (.handle 1) == some ("com.b", false, .waitingHub) && service.onlyWaits 1)
      (by decide +kernel)
    simp only [Bool.and_eq_true, beq_iff_eq] at shown
    obtain ⟨⟨⟨reconnecting, blocked⟩, there⟩, only⟩ := shown
    have unshared : Transition.RunWith (Service.step true) Service.Unshared (.new "com.a") log service :=
      run.of_guarded fun _ _ _ _ passed => waitsAlone_unshared passed
    have waits : service.Waits (.handle 1) := ⟨"com.b", false, there⟩
    have taken : Service.step true service .reconnected = some
        ({ service with reconnect_signal := service.reconnect_signal ++ [none] }.pollReturns, []) := by
      simp [Service.step, reconnecting, Activity.pollPhase]
    obtain ⟨idle, reaches⟩ := (reconnect_event_reaches (ι := Nat) (T := Nat) true "com.a").2 unshared blocked
      (onlyWaits_unshared (run_represents unshared).1 only) taken waits
    have polled : Service.step true { service with reconnect_signal := service.reconnect_signal ++ [none] }.pollReturns
        .poll = some ({ { service with reconnect_signal := service.reconnect_signal ++ [none] } with
          activity := .polling .selecting }, []) := by
      simp only [Service.step, idle, ne_eq, not_true_eq_false, if_false]
      rfl
    have free : Service.Unshared
        { service with reconnect_signal := service.reconnect_signal ++ [none] }.pollReturns .poll := trivial
    obtain ⟨_, resumes⟩ := reaches _ _ (.next .start ⟨free, by simp⟩ polled)
    obtain ⟨final, service_name, wait, resumed, sending⟩ := resumes rfl
    exact ⟨log, service, _, unshared.run, waits, taken, idle, _, final, service_name, wait, polled, resumed, sending⟩

/-- Two clients wait for the hub when the service has registered again. The first one takes the event. -/
theorem second_waiter_starves : ∃ log service after out,
    Transition.Run (Service.step true) (.new "com.a") log service ∧ service.reconnect_signal = [] ∧
    service.Waits (.handle 1) ∧ service.Waits (.handle 3) ∧
    Transition.execute (Service.step true) service [.reconnected, .poll, .reconnectEvent (.handle 1)] =
      some (after, out) ∧
    after.Waits (.handle 3) ∧ after.runs (.handle 3) = true ∧
    (Service.step true after (.reconnectEvent (.handle 3))).isNone = true := by
  obtain ⟨log, service, run, shown⟩ := Transition.exists_run_of_execute (Service.step true) (Service.new "com.a")
    [.connect "com.b" false, .sent .connect true, .resolved 0 (.stream 7), .resumed .connect,
      .connect "com.c" false, .sent .connect true, .resolved 2 (.stream 8), .resumed .connect, .poll,
      .streamLost 1, .sent (.handle 1) false, .streamLost 3, .sent (.handle 3) false, .hubLost, .registered none]
    (fun _ service => service.reconnect_signal == [] &&
      service.handshake (.handle 1) == some ("com.b", false, .waitingHub) &&
      service.handshake (.handle 3) == some ("com.c", false, .waitingHub) &&
      (Transition.execute (Service.step true) service [.reconnected, .poll, .reconnectEvent (.handle 1)]).any
        fun result => result.1.handshake (.handle 3) == some ("com.c", false, .waitingHub) &&
          result.1.runs (.handle 3) && (Service.step true result.1 (.reconnectEvent (.handle 3))).isNone)
    (by decide +kernel)
  simp only [Bool.and_eq_true, beq_iff_eq, Option.any_eq_true] at shown
  obtain ⟨⟨⟨blocked, first⟩, second⟩, ⟨after, out⟩, executed, ⟨waits, runs⟩, stuck⟩ := shown
  exact ⟨log, service, after, out, run, blocked, ⟨_, _, first⟩, ⟨_, _, second⟩, executed, ⟨_, _, waits⟩, runs, stuck⟩

end KrossbarLib
