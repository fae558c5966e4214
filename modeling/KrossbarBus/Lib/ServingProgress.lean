import KrossbarBus.Lib.Progress

namespace KrossbarLib

open Transition (Inevitably)

variable {Bson : Type}

/-- The steps of a service that handles what has arrived and whose own calls the hub takes. -/
def ServingAction.internal : ServingAction Bson → Bool
  | .service action => action.internal
  | .read _ | .deliver _ | .resume _ | .complete => true
  | _ => false

def CallPhase.work : CallPhase Bson → Nat
  | .running _ | .readingValue => 3
  | .responding _ => 2
  | .addingClient => 1
  | .done => 0

def Serving.unread (serving : Serving Bson) (bound : Nat) : Nat :=
  ∑ number ∈ Finset.range bound, (serving.inbox number).length

def Serving.work (serving : Serving Bson) : Nat :=
  serving.service.work + 6 * serving.unread serving.service.clock +
    serving.handling.elim 0 (fun call => call.phase.work)

structure Serving.AtRest (serving : Serving Bson) : Prop where
  service : serving.service.AtRest
  empty : ∀ number, serving.inbox number = []

/-- The call goes on. Whether its function returns and its response is taken is up to others, but no function that
    awaits the response of a call of its own returns: the response would come through `poll`. -/
def HandledCall.Goes (completes : HandledCall Bson → Prop) (call : HandledCall Bson) : Prop :=
  completes call ∧ ∀ awaiting, call.phase = .running awaiting → awaiting = []

/-- `poll` waits for the call it handles. -/
def Serving.Suspended (completes : HandledCall Bson → Prop) (serving : Serving Bson) : Prop :=
  ∃ call, serving.handling = some call ∧ call.phase ≠ .done ∧ ¬ call.Goes completes

/-- A step of the service, which resumes a call only where the call goes on. -/
structure Serving.Own (completes : HandledCall Bson → Prop) (serving : Serving Bson) (action : ServingAction Bson) :
    Prop where
  internal : action.internal = true
  spares : serving.Spares action
  goes : ∀ input call, action = .resume input → serving.handling = some call → call.Goes completes

variable {monitor inspection : Bool} {serving after : Serving Bson} {action : ServingAction Bson}
  {completes : HandledCall Bson → Prop} {log out : List (ServingEvent Bson)} {number bound : Nat} {frame : Frame Bson}
  {rest : List (Frame Bson)} {call : HandledCall Bson} {input : CallInput Bson} {phase : CallPhase Bson}

theorem unread_setInbox (below : number < bound) (first : serving.inbox number = frame :: rest) :
    (serving.setInbox number rest).unread bound + 1 = serving.unread bound := by
  have others : ∀ other, other ≠ number →
      ((serving.setInbox number rest).inbox other).length = (serving.inbox other).length := by
    intro other different
    rw [inbox_setInbox, if_neg different]
  have changed := Table.sum_range_update below others
  rw [inbox_setInbox, if_pos rfl, first, List.length_cons] at changed
  simp only [Serving.unread]
  omega

theorem Serving.Wired.handle (wired : serving.Wired) (member : frame ∈ serving.inbox number) :
    ∃ poll_handle, serving.service.handleOf number = some poll_handle ∧ poll_handle.phase = .polling ∧
      number < serving.service.clock := by
  obtain ⟨rpc, stream, _⟩ := wired.frames number frame member
  obtain ⟨poll_handle, found, polling, _⟩ := streamOf_iff.mp stream
  refine ⟨poll_handle, found, polling, ?_⟩
  simp only [Service.handleOf] at found
  split at found
  · rename_i present
    cases found
    exact wired.tracked.older number poll_handle present
  · split at found
    · rename_i other holder held
      split at found
      · rename_i this
        subst this
        exact (wired.tracked.handling other holder held).2.2
      · cases found
    · cases found

theorem start_work (endpoints : Endpoints (MethodParams Bson) Nat Nat) (request : IncomingRequest Bson) :
    (endpoints.start inspection request).work ≤ 3 := by
  cases endpoints.start inspection request <;> simp [CallPhase.work]

theorem resume_work (resumed : call.resume input = some phase) : phase.work < call.phase.work := by
  obtain ⟨⟨rpc, message_id, endpoint, body⟩, before⟩ := call
  cases before with
  | running awaiting =>
    cases input <;> cases body <;> cases resumed <;> simp [CallPhase.work]
  | readingValue =>
    cases input <;> cases resumed
    simp [CallPhase.work]
  | responding result =>
    cases input with
    | responded ok =>
      simp only [HandledCall.resume] at resumed
      split at resumed
      · cases ok <;> cases resumed <;> simp [CallPhase.work]
      · cases resumed
        simp [CallPhase.work]
      · cases resumed
    | _ => cases resumed
  | addingClient =>
    cases input <;> cases resumed
    simp [CallPhase.work]
  | done => cases input <;> cases resumed

theorem message_work {service next : Service} {events : List ServiceEvent} (tracked : service.Tracked)
    (taken : Service.step monitor service (.clientMessage number) = some (next, events)) :
    next.work ≤ service.work + 2 ∧ next.clock = service.clock ∧ number < service.clock := by
  have moves := Service.step_cases taken
  obtain ⟨spent, gained, trade, weighs⟩ := moves.trades steps tracked.older rfl
  cases moves with
  | message _ poll_handle selecting present polling =>
    cases trade
    simp only [steps] at weighs
    exact ⟨weighs, rfl, tracked.older number poll_handle present⟩

/-- The unread frames lie below the clock, before a step and after it. -/
theorem Serving.Wired.fresh (wired : serving.Wired) (number : Nat) (above : serving.service.clock ≤ number) :
    serving.inbox number = [] := by
  by_contra unread
  obtain ⟨frame, member⟩ := List.exists_mem_of_ne_nil _ unread
  obtain ⟨_, _, _, below⟩ := wired.handle member
  omega

theorem Serving.Steps.works (steps : serving.Steps monitor inspection action after out) (wired : serving.Wired)
    (internal : action.internal = true) : after.work < serving.work := by
  cases steps with
  | service action service events apart drained taken =>
    have moves := Service.step_cases taken
    have descends := moves.works wired.tracked.older internal
    have same : serving.unread service.clock = serving.unread serving.service.clock :=
      Table.sum_range_later moves.emits.1 fun number above => by rw [wired.fresh number above, List.length_nil]
    have fewer : (if service.activity.held.isSome then serving.handling else none).elim 0
        (fun call => call.phase.work) ≤ serving.handling.elim 0 (fun call => call.phase.work) := by
      split
      · exact le_rfl
      · exact Nat.zero_le _
    simp only [Serving.work]
    simp only [Serving.unread] at same ⊢
    omega
  | read number request rest service events first taken =>
    obtain ⟨grown, clock, below⟩ := message_work wired.tracked taken
    have fewer := unread_setInbox below first
    have started := @start_work _ inspection serving.endpoints request
    have idle : serving.handling = none := wired.busy.mpr (message_taken taken).1
    simp only [Serving.unread] at fewer
    simp only [Serving.work, Serving.unread, clock, idle, Option.elim_some, Option.elim_none]
    simp only [Serving.setInbox] at fewer ⊢
    omega
  | deliver number id rest first polls =>
    have there : .response id ∈ serving.inbox number := by simp [first]
    obtain ⟨_, _, _, below⟩ := wired.handle there
    have fewer := unread_setInbox below first
    have idle : serving.handling = none := wired.busy.mpr (pollsRpc_free polls)
    simp only [Serving.unread] at fewer
    simp only [Serving.work, Serving.unread, idle, Option.map_none, Option.elim_none]
    simp only [Serving.setInbox] at fewer ⊢
    omega
  | resume input call number poll_handle phase current held resumed =>
    have less := resume_work resumed
    simp only [Serving.work, Serving.unread, current, Option.elim_some]
    omega
  | complete request number poll_handle service events current held taken =>
    have moves := Service.step_cases taken
    have descends := moves.works wired.tracked.older rfl
    have same : serving.unread service.clock = serving.unread serving.service.clock :=
      Table.sum_range_later moves.emits.1 fun number above => by rw [wired.fresh number above, List.length_nil]
    simp only [Serving.unread] at same
    simp only [Serving.work, Serving.unread, current, Option.elim_some, Option.elim_none, same]
    omega
  | _ => cases internal

theorem Serving.Own.apart (internal : action.internal = true) (spares : serving.Spares action)
    (apart : ∀ input, action ≠ .resume input) : serving.Own completes action where
  internal := internal
  spares := spares
  goes input _ resumes _ := absurd resumes (apart input)

theorem frame_enabled (completes : HandledCall Bson → Prop) (wired : serving.Wired)
    (selecting : serving.service.activity.pollPhase = some .selecting) (first : serving.inbox number = frame :: rest) :
    ∃ action after out, serving.Own completes action ∧
      Serving.step monitor inspection serving action = some (after, out) := by
  have there : frame ∈ serving.inbox number := by simp [first]
  obtain ⟨poll_handle, found, polling, _⟩ := wired.handle there
  have present : serving.service.client_poll_handles.get number = some poll_handle := by
    simp only [Service.handleOf, held_phase selecting, PollPhase.held] at found
    split at found
    · rename_i present
      rw [present, found]
    · cases found
  cases frame with
  | request request =>
    have own : serving.Own completes (.read number) := .apart rfl trivial (by simp)
    exact ⟨.read number, _, _, own,
      by simp [Serving.step, first, Service.step, selecting, present, polling]; exact ⟨rfl, rfl⟩⟩
  | response id =>
    have own : serving.Own completes (.deliver number) := .apart rfl trivial (by simp)
    exact ⟨.deliver number, _, _, own,
      by simp [Serving.step, first, Service.pollsRpc, selecting, present, polling]; exact ⟨rfl, rfl⟩⟩

section Steps

variable [Inhabited Bson]

/-- A call that is handled goes on, or `poll` waits for it. -/
theorem call_enabled {poll_handle : ClientHandle} (completes : HandledCall Bson → Prop) (wired : serving.Wired)
    (held : serving.service.activity.held = some (number, poll_handle)) : serving.Suspended completes ∨
    ∃ action after out, serving.Own completes action ∧
      Serving.step monitor inspection serving action = some (after, out) := by
  obtain ⟨⟨request, phase⟩, handling⟩ : ∃ call, serving.handling = some call := by
    refine Option.ne_none_iff_exists'.mp fun idle => ?_
    rw [wired.busy.mp idle] at held
    cases held
  by_cases suspended : serving.Suspended completes
  · exact .inl suspended
  right
  have goes : phase ≠ .done → HandledCall.Goes completes ⟨request, phase⟩ := by
    intro going
    by_contra stuck
    exact suspended ⟨_, handling, going, stuck⟩
  have resumes : ∀ input phase', phase ≠ .done → HandledCall.resume ⟨request, phase⟩ input = some phase' →
      ∃ action after out, serving.Own completes action ∧
        Serving.step monitor inspection serving action = some (after, out) := by
    intro input phase' going resumed
    refine ⟨.resume input, _, _, ⟨rfl, trivial, fun _ call _ current => ?_⟩,
      by simp only [Serving.step, handling, held, resumed]; rfl⟩
    rw [handling] at current
    cases current
    exact goes going
  obtain ⟨rpc, message_id, endpoint, body⟩ := request
  cases phase with
  | running awaiting => cases body <;> exact resumes (.returned (.ok default)) _ (by simp) rfl
  | readingValue => exact resumes (.valueRead default) _ (by simp) rfl
  | responding result => cases result <;> cases body <;> exact resumes (.responded true) _ (by simp) rfl
  | addingClient => exact resumes .clientAdded _ (by simp) rfl
  | done =>
    have handles : serving.service.activity.pollPhase = some (.handlingCall number poll_handle) := by
      simp only [Activity.held, Option.bind_eq_some_iff] at held
      obtain ⟨phase, polls, holds⟩ := held
      cases phase <;> cases holds
      exact polls
    have own : serving.Own completes .complete := .apart rfl trivial (by simp)
    exact ⟨.complete, _, _, own, by simp only [Serving.step, handling, held, Service.step, handles]; rfl⟩

/-- Short of its rest a service that is polled has something to do, unless `poll` waits for the call it handles. -/
theorem Serving.internal_enabled (completes : HandledCall Bson → Prop) (wired : serving.Wired) :
    (serving.AtRest ∨ serving.service.Halted ∨ serving.Suspended completes) ∨
      ∃ action after out, serving.Own completes action ∧
        Serving.step monitor inspection serving action = some (after, out) := by
  cases held : serving.service.activity.held with
  | some holder =>
    rcases call_enabled completes wired held with suspended | moves
    · exact .inl (.inr (.inr suspended))
    · exact .inr moves
  | none =>
    rcases @Service.internal_enabled monitor serving.service with
      (rest | halted) | ⟨action, after, out, internal, taken⟩
    · by_cases empty : ∀ number, serving.inbox number = []
      · exact .inl (.inl ⟨rest, empty⟩)
      · obtain ⟨number, unread⟩ := not_forall.mp empty
        obtain ⟨frame, later, first⟩ := List.exists_cons_of_ne_nil unread
        exact .inr (frame_enabled completes wired rest.selecting first)
    · exact .inl (.inr (.inl halted))
    · have apart : action.servesCall = false ∧ serving.drained action = true := by
        cases action with
        | handled =>
          cases Service.step_cases taken with
          | handled number poll_handle handling =>
            rw [held_phase handling] at held
            cases held
        | clientMessage _ | streamLost _ => cases internal
        | _ => exact ⟨rfl, rfl⟩
      have own : serving.Own completes (.service action) := .apart internal (fun _ => held) (by simp)
      exact .inr ⟨.service action, _, _, own, by simp only [Serving.step, apart.1, apart.2, taken]; rfl⟩

/-- Left to itself a service that is polled comes to rest, whatever the order of its own steps, unless it has to
    wait for the hub to take its registration or `poll` for the call it handles. At rest every request that has ever
    come on a connection has been handled to its end. -/
theorem service_settles {service_name : String} (completes : HandledCall Bson → Prop)
    (run : Transition.RunWith (Serving.step monitor inspection) Serving.Spares (.new service_name) log serving) :
    Inevitably (Serving.step monitor inspection) (Serving.Own completes)
      (fun serving => serving.AtRest ∨ serving.service.Halted ∨ serving.Suspended completes) serving ∧
    (serving.AtRest → serving.handling = none ∧
      ∀ number, ∃ exchanges, Conversation number log [] exchanges none) := by
  refine ⟨?_, fun rest => ?_⟩
  · refine .of_decreasing (I := Serving.Wired) Serving.work ?_
      (fun _ wired => Serving.internal_enabled completes wired) (run_wired run)
    rintro serving action after out wired own taken
    have steps := Serving.step_cases taken
    exact ⟨steps.wired wired own.spares, steps.works wired own.internal⟩
  · have free : serving.service.activity.held = none := held_phase rest.service.selecting
    refine ⟨(run_wired run).busy.mpr free, fun number => ?_⟩
    obtain ⟨exchanges, current, conversation, there⟩ := run_converses run number
    obtain rfl := at_free free there
    rw [rest.empty number] at conversation
    exact ⟨exchanges, conversation⟩

end Steps

/-- `com.b` has sent a call and a message before the service polls. -/
def echoing : List (ServingAction Nat) :=
  [.service .poll, .service (.hubRequest (.fd "com.b" 4)), .register (.method "echo" fun _ => none),
    .arrive 0 7 "echo" (.call 5), .arrive 0 8 "echo" (.message 6)]

def serve : List (ServingAction Nat) :=
  [.service .poll, .read 0, .resume (.returned (.ok 9)), .resume (.responded true), .complete, .service .poll,
    .read 0, .resume (.returned (.ok 0)), .complete, .service .poll]

theorem service_settles_echoing :
    (∃ log serving, Transition.Run (Serving.step true true) (Serving.new "com.a" : Serving Nat) log serving ∧
      (serving.inbox 0).length = 2 ∧ Inevitably (Serving.step true true)
        (Serving.Own fun _ => True)
        (fun serving => serving.AtRest ∨ serving.service.Halted ∨ serving.Suspended fun _ => True) serving) ∧
    ∃ log serving, Transition.Run (Serving.step true true) (Serving.new "com.a" : Serving Nat) log serving ∧
      serving.AtRest ∧ (arrivals 0 log).length = 2 ∧ ∃ exchanges, Conversation 0 log [] exchanges none := by
  constructor
  · obtain ⟨log, serving, run, shown⟩ := Transition.exists_run_of_execute
      (Transition.guarded (Serving.step true true) Serving.sparesPoll) (Serving.new "com.a" : Serving Nat) echoing
      (fun _ serving => (serving.inbox 0).length == 2) (by decide +kernel)
    have spares : Transition.RunWith (Serving.step true true) Serving.Spares (.new "com.a") log serving :=
      run.of_guarded fun _ _ _ _ passed => serving_spares passed
    exact ⟨log, serving, spares.run, beq_iff_eq.mp shown, (service_settles (fun _ => True) spares).1⟩
  · obtain ⟨log, serving, run, shown⟩ := Transition.exists_run_of_execute
      (Transition.guarded (Serving.step true true) Serving.sparesPoll) (Serving.new "com.a" : Serving Nat)
      (echoing ++ serve)
      (fun log serving => (arrivals 0 log).length == 2 && (serving.service.activity == .polling .selecting &&
        (serving.service.clock == 1 && ((serving.inbox 0).isEmpty &&
          (serving.service.client_poll_handles.get 0).all fun poll_handle => poll_handle.phase == .polling))))
      (by decide +kernel)
    have spares : Transition.RunWith (Serving.step true true) Serving.Spares (.new "com.a") log serving :=
      run.of_guarded fun _ _ _ _ passed => serving_spares passed
    simp only [Bool.and_eq_true, beq_iff_eq, List.isEmpty_iff] at shown
    obtain ⟨arrived, activity, clock, empty, polling⟩ := shown
    have wired := run_wired spares
    have rest : serving.AtRest := by
      refine ⟨⟨by rw [activity]; rfl, ?_⟩, fun number => ?_⟩
      · intro requester service_name wait handshake there
        cases requester with
        | connect => simp [Service.handshake, activity, Activity.handshake] at there
        | handle number =>
          simp only [Service.handshake, Option.bind_eq_some_iff] at there
          obtain ⟨poll_handle, present, going⟩ := there
          have below := wired.tracked.older number poll_handle present
          obtain rfl : number = 0 := by omega
          rw [present, Option.all_some, beq_iff_eq] at polling
          simp [ClientHandle.handshake, polling] at going
      · by_cases this : number = 0
        · rw [this, empty]
        · exact wired.fresh number (by omega)
    exact ⟨log, serving, spares.run, rest, arrived, ((service_settles (fun _ => True) spares).2 rest).2 0⟩

end KrossbarLib
