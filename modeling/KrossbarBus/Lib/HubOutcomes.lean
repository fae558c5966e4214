import KrossbarBus.Lib.Reconnects

namespace KrossbarLib

open KrossbarHub (Error)
open Transition (Run RunWith)

/-- A service and the history of its `reconnect_signal`: how many attempts to register again have ended, the
    numbers of those whose outcomes are queued, and how many had ended when the wait of a requester began. -/
structure Watched where
  service : Service
  ended : Nat
  queued : List Nat
  began : Requester → Nat

def Watched.new (service_name : String) : Watched where
  service := .new service_name
  ended := 0
  queued := []
  began _ := 0

def Watched.observe (watched : Watched) (service : Service) :
    Option (EventAction Requester (Option Error)) → Watched
  | some (.emit _) => { watched with
      service := service
      ended := watched.ended + 1
      queued := watched.queued ++ [watched.ended] }
  | some (.wait requester) => { watched with
      service := service
      began := Function.update watched.began requester watched.ended }
  | some (.receive _) => { watched with
      service := service
      queued := watched.queued.tail }
  | _ => { watched with service := service }

def Watched.step (monitor : Bool) : Transition.Step Watched ServiceAction ServiceEvent
  | watched, action =>
    match Service.step monitor watched.service action with
    | none => none
    | some (service, out) => some (watched.observe service action.onSignal, out)

/-- A wait begins with nothing queued, and no attempt succeeds while a failure is queued for somebody. -/
def Watched.InTime (watched : Watched) : ServiceAction → Prop
  | .sent _ false => watched.service.reconnect_signal = []
  | .reconnected => ∀ requester, watched.service.Waits requester → ∀ e, some e ∉ watched.service.reconnect_signal
  | _ => True

variable {monitor : Bool} {service after : Service} {watched next : Watched} {action : ServiceAction}
  {log out : List ServiceEvent} {requester : Requester}

@[simp] theorem observe_service (move : Option (EventAction Requester (Option Error))) :
    (watched.observe service move).service = service := by
  unfold Watched.observe
  split <;> rfl

theorem Watched.step_cases (taken : Watched.step monitor watched action = some (next, out)) :
    ∃ after, Service.step monitor watched.service action = some (after, out) ∧
      next = watched.observe after action.onSignal := by
  simp only [Watched.step] at taken
  split at taken
  · cases taken
  · rename_i after events stepped
    cases taken
    exact ⟨after, stepped, rfl⟩

theorem Watched.step_observe (stepped : Service.step monitor watched.service action = some (after, out)) :
    Watched.step monitor watched action = some (watched.observe after action.onSignal, out) := by
  simp only [Watched.step, stepped]

/-- Every run of a service can be watched. -/
theorem run_watched {own : String} (run : Run (Service.step monitor) (.new own) log service) :
    ∃ watched, watched.service = service ∧ Run (Watched.step monitor) (.new own) log watched := by
  induction run with
  | start => exact ⟨.new own, rfl, .start⟩
  | next _ _ taken ih =>
    obtain ⟨watched, rfl, earlier⟩ := ih
    exact ⟨_, observe_service _, earlier.next trivial (Watched.step_observe taken)⟩

theorem watched_run {own : String} {allowed : Watched → ServiceAction → Prop}
    (run : RunWith (Watched.step monitor) allowed (.new own) log watched) :
    Run (Service.step monitor) (.new own) log watched.service := by
  induction run with
  | start => exact .start
  | next _ _ taken ih =>
    obtain ⟨after, stepped, rfl⟩ := Watched.step_cases taken
    rw [observe_service]
    exact ih.next trivial stepped

/-- What a step does to the queue. -/
theorem Service.Steps.signal (steps : service.Steps monitor action after out) :
    match action.onSignal with
    | some (.emit value) => after.reconnect_signal = service.reconnect_signal ++ [value]
    | some (.receive _) => ∃ value, service.reconnect_signal = value :: after.reconnect_signal
    | _ => after.reconnect_signal = service.reconnect_signal := by
  have kept := steps.signal_kept
  cases steps with
  | unsent requester _ _ _ _ => exact setHandshake_signal _ requester
  | hubBack requester _ _ rest _ _ signal => exact ⟨none, signal⟩
  | hubGone requester _ _ e rest _ _ _ _ signal finished =>
    refine ⟨some e, ?_⟩
    rw [finish_signal finished]
    exact signal
  | rejected e _ => rfl
  | reconnected _ => rfl
  | _ => exact kept rfl

theorem Service.Steps.stillWaits (steps : service.Steps monitor action after out) (numbered : service.Numbered)
    (waits : after.Waits requester) : service.StillWaits action requester := by
  have carries := steps.carries numbered
  cases requester with
  | connect => exact carries.connect waits
  | handle number => exact (carries.handles number).mp waits

/-- The outcomes are queued under their numbers. -/
structure Watched.Counted (watched : Watched) : Prop where
  numbered : watched.service.Numbered
  parallel : watched.queued.length = watched.service.reconnect_signal.length
  past : ∀ number ∈ watched.queued, number < watched.ended
  began : ∀ requester, watched.began requester ≤ watched.ended

theorem Watched.Counted.outcome (counted : watched.Counted) (queued : watched.service.reconnect_signal ≠ []) :
    ∃ number rest, watched.queued = number :: rest := by
  apply List.exists_cons_of_ne_nil
  rw [← List.length_pos_iff, counted.parallel]
  exact List.length_pos_iff.mpr queued

theorem Watched.Counted.preserved (counted : watched.Counted)
    (taken : Watched.step monitor watched action = some (next, out)) : next.Counted := by
  obtain ⟨after, stepped, rfl⟩ := Watched.step_cases taken
  have steps := Service.step_cases stepped
  have signal := steps.signal
  have numbered := steps.numbered counted.numbered
  have parallel := counted.parallel
  cases moves : action.onSignal with
  | none =>
    rw [moves] at signal
    exact ⟨numbered, parallel.trans (congrArg List.length signal.symm), counted.past, counted.began⟩
  | some move =>
    rw [moves] at signal
    cases move with
    | emit value =>
      refine ⟨numbered, ?_, ?_, fun requester => Nat.le_succ_of_le (counted.began requester)⟩
      · show (watched.queued ++ [watched.ended]).length = after.reconnect_signal.length
        rw [signal, List.length_append, List.length_append, parallel]
        rfl
      · intro number member
        rcases List.mem_append.mp member with old | new
        · exact Nat.lt_succ_of_lt (counted.past number old)
        · rw [List.mem_singleton.mp new]
          exact Nat.lt_succ_self _
    | wait waiter =>
      refine ⟨numbered, parallel.trans (congrArg List.length signal.symm), counted.past, ?_⟩
      intro requester
      show Function.update watched.began waiter watched.ended requester ≤ watched.ended
      rw [Function.update_apply]
      split
      · exact Nat.le_refl _
      · exact counted.began requester
    | receive waiter =>
      obtain ⟨value, split⟩ := signal
      refine ⟨numbered, ?_, fun number member => counted.past number (List.mem_of_mem_tail member), counted.began⟩
      show watched.queued.tail.length = after.reconnect_signal.length
      rw [List.length_tail, parallel, split]
      rfl
    | drop waiter =>
      exact ⟨numbered, parallel.trans (congrArg List.length signal.symm), counted.past, counted.began⟩

/-- Whoever waits has only outcomes before it that ended after its wait began, and no success behind a failure. -/
structure Watched.Fresh (watched : Watched) : Prop where
  later : ∀ requester, watched.service.Waits requester → ∀ number ∈ watched.queued, watched.began requester ≤ number
  current : ∀ requester, watched.service.Waits requester → ∀ before e rest,
    watched.service.reconnect_signal = before ++ some e :: rest → none ∉ rest

theorem timely_wait (timely : watched.InTime action) (moves : action.onSignal = some (.wait requester)) :
    watched.service.reconnect_signal = [] := by
  cases action with
  | sent _ ok =>
    cases ok with
    | true => cases moves
    | false => exact timely
  | registered failure => cases failure <;> cases moves
  | _ => cases moves

theorem timely_emission (timely : watched.InTime action) (moves : action.onSignal = some (.emit none))
    (waits : watched.service.Waits requester) (e : Error) : some e ∉ watched.service.reconnect_signal := by
  cases action with
  | reconnected => exact timely requester waits e
  | sent _ ok => cases ok <;> cases moves
  | registered failure => cases failure <;> cases moves
  | _ => cases moves

theorem unsuperseded_append {queue : List (Option Error)} {value : Option Error}
    (current : ∀ before e rest, queue = before ++ some e :: rest → none ∉ rest)
    (clear : value = none → ∀ e, some e ∉ queue) (before : List (Option Error)) (e : Error)
    (rest : List (Option Error)) (split : queue ++ [value] = before ++ some e :: rest) : none ∉ rest := by
  rcases List.eq_nil_or_concat rest with rfl | ⟨others, last, rfl⟩
  · simp
  · rw [List.concat_eq_append, ← List.cons_append, ← List.append_assoc] at split
    rw [List.concat_eq_append]
    obtain ⟨rfl, same⟩ := List.append_inj' split rfl
    cases same
    intro member
    rcases List.mem_append.mp member with old | new
    · exact current before e others rfl old
    · exact clear (List.mem_singleton.mp new).symm e (by simp)

theorem Watched.Fresh.preserved (fresh : watched.Fresh) (counted : watched.Counted)
    (timely : watched.InTime action) (taken : Watched.step monitor watched action = some (next, out)) :
    next.Fresh := by
  obtain ⟨after, stepped, rfl⟩ := Watched.step_cases taken
  have steps := Service.step_cases stepped
  have signal := steps.signal
  have still : ∀ requester, after.Waits requester → watched.service.StillWaits action requester :=
    fun requester waits => steps.stillWaits counted.numbered waits
  unfold Service.StillWaits at still
  cases moves : action.onSignal with
  | none =>
    simp only [moves] at signal still
    refine ⟨fun requester waits => fresh.later requester (still requester waits), fun requester waits => ?_⟩
    show ∀ before e rest, after.reconnect_signal = before ++ some e :: rest → none ∉ rest
    rw [signal]
    exact fresh.current requester (still requester waits)
  | some move =>
    cases move with
    | emit value =>
      simp only [moves] at signal still
      refine ⟨fun requester waits => ?_, fun requester waits => ?_⟩
      · intro number member
        rcases List.mem_append.mp member with old | new
        · exact fresh.later requester (still requester waits) number old
        · rw [List.mem_singleton.mp new]
          exact counted.began requester
      · show ∀ before e rest, after.reconnect_signal = before ++ some e :: rest → none ∉ rest
        rw [signal]
        apply unsuperseded_append (fresh.current requester (still requester waits))
        rintro rfl
        exact timely_emission timely moves (still requester waits)
    | wait waiter =>
      simp only [moves] at signal
      have empty := timely_wait timely moves
      have unqueued : watched.queued = [] := by
        rw [← List.length_eq_zero_iff, counted.parallel, empty]
        rfl
      refine ⟨fun requester _ => ?_, fun requester _ => ?_⟩
      · show ∀ number ∈ watched.queued, _
        simp [unqueued]
      · show ∀ before e rest, after.reconnect_signal = before ++ some e :: rest → none ∉ rest
        rw [signal, empty]
        simp
    | receive waiter =>
      simp only [moves] at signal still
      obtain ⟨value, head⟩ := signal
      refine ⟨fun requester waits number member => ?_, fun requester waits before e rest split => ?_⟩
      · exact fresh.later requester (still requester waits).2 number (List.mem_of_mem_tail member)
      · have longer : watched.service.reconnect_signal = (value :: before) ++ some e :: rest := by
          rw [head, List.cons_append]
          exact congrArg (value :: ·) split
        exact fresh.current requester (still requester waits).2 _ e rest longer
    | drop waiter =>
      simp only [moves] at signal still
      refine ⟨fun requester waits => fresh.later requester (still requester waits), fun requester waits => ?_⟩
      show ∀ before e rest, after.reconnect_signal = before ++ some e :: rest → none ∉ rest
      rw [signal]
      exact fresh.current requester (still requester waits)

theorem runs_setHandshake (handshake : Handshake) (requester : Requester) :
    (service.setHandshake handshake requester).runs requester = service.runs requester := by
  cases requester with
  | connect => rfl
  | handle number =>
    rw [setHandshake_handle]
    rfl

theorem reconnectEvent_enabled (runs : service.runs requester = true) (waits : service.Waits requester)
    (queued : service.reconnect_signal ≠ []) :
    ∃ final late, Service.step monitor service (.reconnectEvent requester) = some (final, late) := by
  obtain ⟨service_name, wait, there⟩ := waits
  obtain ⟨value, rest, signal⟩ := List.exists_cons_of_ne_nil queued
  cases value with
  | none => exact ⟨_, _, by simp only [Service.step, runs, there, signal]; rfl⟩
  | some e => cases requester <;> exact ⟨_, _, by simp only [Service.step, runs, there, signal]; rfl⟩

/-- Whoever breaks the first part of `InTime` can be given an outcome that is older than its wait. -/
theorem early_outcome (counted : watched.Counted)
    (taken : Watched.step monitor watched (.sent requester false) = some (next, out))
    (queued : watched.service.reconnect_signal ≠ []) :
    ∃ number final late, next.queued.head? = some number ∧ number < next.began requester ∧
      Watched.step monitor next (.reconnectEvent requester) = some (final, late) := by
  obtain ⟨after, stepped, rfl⟩ := Watched.step_cases taken
  cases Service.sent_cases stepped with
  | unsent _ service_name wait runs there =>
    have waits : (watched.service.setHandshake .waitingHub requester).Waits requester := by
      refine ⟨service_name, wait, ?_⟩
      rw [handshake_setHandshake there, if_pos rfl]
    have still : (watched.service.setHandshake .waitingHub requester).reconnect_signal ≠ [] := by
      rwa [setHandshake_signal]
    obtain ⟨final, late, enabled⟩ : ∃ final late, Service.step monitor
        (watched.service.setHandshake .waitingHub requester) (.reconnectEvent requester) = some (final, late) :=
      reconnectEvent_enabled ((runs_setHandshake _ requester).trans runs) waits still
    obtain ⟨number, rest, numbers⟩ := counted.outcome queued
    refine ⟨number, _, late, ?_, ?_, Watched.step_observe enabled⟩
    · show watched.queued.head? = some number
      rw [numbers]
      rfl
    · show number < Function.update watched.began requester watched.ended requester
      rw [Function.update_self]
      exact counted.past number (by rw [numbers]; exact List.mem_cons_self)

theorem reconnectEvent_waits
    (stepped : Service.step monitor service (.reconnectEvent requester) = some (after, out)) :
    service.Waits requester ∧ service.reconnect_signal ≠ [] := by
  cases Service.reconnectEvent_cases stepped with
  | hubBack _ service_name wait rest _ there signal => exact ⟨⟨service_name, wait, there⟩, by simp [signal]⟩
  | hubGone _ service_name wait e rest _ _ _ there signal _ =>
    exact ⟨⟨service_name, wait, there⟩, by simp [signal]⟩

theorem initial_watched (own : String) : (Watched.new own).Counted ∧ (Watched.new own).Fresh := by
  have nobody : ∀ requester, ¬ (Watched.new own).service.Waits requester := by
    intro requester
    apply not_waits_of_none
    cases requester <;> rfl
  refine ⟨⟨.initial own, rfl, by simp [Watched.new], fun _ => Nat.le_refl 0⟩, ?_, ?_⟩
  · exact fun requester waits => absurd waits (nobody requester)
  · exact fun requester waits => absurd waits (nobody requester)

/-- Under `InTime` a wait completes only with an outcome that ended after it began, and gives a client up only for
    a failure that has not been superseded. -/
theorem waits_complete_fresh {own : String}
    (run : RunWith (Watched.step monitor) Watched.InTime (.new own) log watched) :
    (∀ requester next out, Watched.step monitor watched (.reconnectEvent requester) = some (next, out) →
      ∃ number, watched.queued.head? = some number ∧ watched.began requester ≤ number) ∧
    (∀ number service_name next out, Watched.step monitor watched (.reconnectEvent (.handle number)) =
      some (next, out) → .disconnected service_name ∈ out →
      ∃ e rest, watched.service.reconnect_signal = some e :: rest ∧ none ∉ rest) ∧
    ∀ requester next out, Watched.step monitor watched (.sent requester false) = some (next, out) →
      watched.service.reconnect_signal ≠ [] →
      ∃ number final late, next.queued.head? = some number ∧ number < next.began requester ∧
        Watched.step monitor next (.reconnectEvent requester) = some (final, late) := by
  have kept : watched.Counted ∧ watched.Fresh := by
    refine run.invariant (I := fun _ watched => watched.Counted ∧ watched.Fresh) (initial_watched own) ?_
    intro _ watched action next out _ ⟨counted, fresh⟩ timely taken
    exact ⟨counted.preserved taken, fresh.preserved counted timely taken⟩
  obtain ⟨counted, fresh⟩ := kept
  refine ⟨?_, ?_, fun requester next out taken queued => early_outcome counted taken queued⟩
  · intro requester next out taken
    obtain ⟨after, stepped, rfl⟩ := Watched.step_cases taken
    obtain ⟨waits, queued⟩ := reconnectEvent_waits stepped
    obtain ⟨number, rest, numbers⟩ := counted.outcome queued
    exact ⟨number, by simp [numbers], fresh.later requester waits number (by simp [numbers])⟩
  · intro number service_name next out taken gone
    obtain ⟨after, stepped, rfl⟩ := Watched.step_cases taken
    obtain ⟨waits, _⟩ := reconnectEvent_waits stepped
    cases Service.reconnectEvent_cases stepped with
    | hubBack _ _ _ _ _ _ _ => cases gone
    | hubGone _ _ _ e rest _ _ _ _ signal _ =>
      exact ⟨e, rest, signal, fresh.current _ waits [] e rest signal⟩

def Watched.inTime (watched : Watched) : ServiceAction → Bool
  | .sent _ false => watched.service.reconnect_signal == []
  | .reconnected => watched.service.reconnect_signal.all Option.isNone
  | _ => true

theorem inTime_sound (passed : watched.inTime action = true) : watched.InTime action := by
  cases action with
  | sent requester ok =>
    cases ok with
    | true => trivial
    | false => exact beq_iff_eq.mp passed
  | reconnected =>
    intro requester waits e member
    have succeeded := List.all_eq_true.mp passed _ member
    cases succeeded
  | _ => trivial

theorem waits_complete_fresh_failed : ∃ log watched next out,
    RunWith (Watched.step true) Watched.InTime (.new "com.a") log watched ∧
    Watched.step true watched (.reconnectEvent (.handle 1)) = some (next, out) ∧ .disconnected "com.b" ∈ out ∧
    (∃ number, watched.queued.head? = some number ∧ watched.began (.handle 1) ≤ number) ∧
    ∃ e rest, watched.service.reconnect_signal = some e :: rest ∧ none ∉ rest := by
  obtain ⟨log, watched, run, shown⟩ := Transition.exists_run_of_execute
    (Transition.guarded (Watched.step true) Watched.inTime) (.new "com.a")
    [.connect "com.b" false, .sent .connect true, .resolved 0 (.stream 7), .resumed .connect, .poll,
      .streamLost 1, .sent (.handle 1) false, .hubLost, .registered (some .alreadyRegistered), .poll]
    (fun _ watched => (Watched.step true watched (.reconnectEvent (.handle 1))).any fun result =>
      result.2.contains (.disconnected "com.b"))
    (by decide +kernel)
  simp only [Option.any_eq_true, List.contains_iff_mem] at shown
  obtain ⟨⟨next, out⟩, taken, gone⟩ := shown
  have timely := run.of_guarded fun _ _ _ _ passed => inTime_sound passed
  obtain ⟨fresh, current, _⟩ := waits_complete_fresh timely
  exact ⟨log, watched, next, out, timely, taken, gone, fresh _ next out taken, current 1 "com.b" next out taken gone⟩

/-- com.a could not register again at first, then it did. The failure meets the client that is lost afterwards. -/
theorem superseded_failure_disconnects : ∃ log watched next out rest,
    Run (Watched.step true) (.new "com.a") log watched ∧
    Watched.step true watched (.reconnectEvent (.handle 1)) = some (next, out) ∧ .disconnected "com.b" ∈ out ∧
    watched.service.reconnect_signal = some .alreadyRegistered :: rest ∧ none ∈ rest ∧
    watched.queued.head? = some 0 ∧ watched.began (.handle 1) = 2 := by
  obtain ⟨log, watched, run, shown⟩ := Transition.exists_run_of_execute (Watched.step true) (.new "com.a")
    [.connect "com.b" false, .sent .connect true, .resolved 0 (.stream 7), .resumed .connect, .poll,
      .hubLost, .registered (some .alreadyRegistered), .poll, .hubLost, .registered none, .reconnected, .poll,
      .streamLost 1, .sent (.handle 1) false]
    (fun _ watched => watched.service.reconnect_signal == [some .alreadyRegistered, none] &&
      watched.queued.head? == some 0 && watched.began (.handle 1) == 2 &&
      (Watched.step true watched (.reconnectEvent (.handle 1))).any fun result =>
        result.2.contains (.disconnected "com.b"))
    (by decide +kernel)
  simp only [Bool.and_eq_true, beq_iff_eq, Option.any_eq_true, List.contains_iff_mem] at shown
  obtain ⟨⟨⟨signal, oldest⟩, began⟩, ⟨next, out⟩, taken, gone⟩ := shown
  exact ⟨log, watched, next, out, [none], run, taken, gone, signal, by simp, oldest, began⟩

end KrossbarLib
