import KrossbarBus.Hub.RegistryHistory

namespace KrossbarHub

variable {env : HubEnvironment} {hub after : Hub} {conn : Conn} {action : Action} {out log : List Event}
  {additional_service_dirs : List OsString} {files : FileSystem}

def Hub.Deadlocked (hub : Hub) : Prop :=
  (∃ conn service_name, hub.main = .disconnected conn service_name) ∧ hub.lock ≠ none

def Hub.SendsLocked (hub : Hub) : Prop :=
  ∃ conn task, hub.tasks.get conn = some task ∧ task.phase.holdsLock = true

/-- Registered clients are reaped only while no task is suspended in a send under the lock. -/
def Hub.ReapsUnlocked (hub : Hub) : Action → Prop
  | .next conn => ∀ credentials service_name,
      hub.tasks.get conn = some ⟨credentials, .finished (some service_name)⟩ → ¬ hub.SendsLocked
  | _ => True

theorem Hub.Consistent.locked_iff (consistent : hub.Consistent) : hub.lock ≠ none ↔ hub.SendsLocked :=
  consistent.lock.ne_none_iff

theorem disconnected_from (taken : step env hub action = some (after, out)) {service_name : String}
    (waits : after.main = .disconnected conn service_name) :
    (hub.main = .disconnected conn service_name ∧ after.lock = hub.lock) ∨
      (action = .next conn ∧ after.lock = hub.lock ∧ ∃ credentials,
        hub.tasks.get conn = some ⟨credentials, .finished (some service_name)⟩) := by
  cases step_cases taken with
  | accepted credentials selecting => exact .inl ⟨waits, rfl⟩
  | acceptFailed selecting => exact .inl ⟨waits, rfl⟩
  | resumed other task input progress selecting present resumes =>
    rw [advance_main, selecting] at waits
    cases waits
  | disconnected other credentials name selecting present =>
    cases waits
    exact .inr ⟨rfl, rfl, credentials, present⟩
  | anonymousDisconnected other credentials selecting present => exact .inl ⟨waits, rfl⟩
  | filesEdited files => exact .inl ⟨waits, rfl⟩
  | _ => cases waits

/-- If no registered client is reaped during a send under the lock, the main loop gets the context
    whenever it asks for it. -/
theorem context_never_awaited
    (run : Transition.RunWith (step env) Hub.ReapsUnlocked (Hub.new additional_service_dirs files) log hub) :
    ¬ hub.Deadlocked := by
  have free : ∀ conn service_name, hub.main = .disconnected conn service_name → hub.lock = none := by
    apply run.invariant
      (I := fun _ hub => ∀ conn service_name, hub.main = .disconnected conn service_name → hub.lock = none)
    · intro conn service_name waits
      cases waits
    · intro log state action after out before free clear taken conn service_name waits
      rcases disconnected_from taken waits with ⟨waited, same⟩ | ⟨reaps, same, credentials, finished⟩
      · rw [same]
        exact free conn service_name waited
      · subst reaps
        rw [same]
        by_contra held
        have sends := (run_consistent before).locked_iff.mp held
        exact clear credentials service_name finished sends
  intro deadlocked
  obtain ⟨⟨conn, service_name, waits⟩, held⟩ := deadlocked
  exact held (free conn service_name waits)

/-- Reaping a registered client during a send under the lock is what goes wrong. -/
theorem reaping_deadlocks_iff (run : Run env additional_service_dirs files log hub)
    {credentials : UCred} {service_name : String}
    (finished : hub.tasks.get conn = some ⟨credentials, .finished (some service_name)⟩)
    (taken : step env hub (.next conn) = some (after, out)) : after.Deadlocked ↔ hub.SendsLocked := by
  rw [← (run_consistent run).locked_iff]
  cases step_cases taken with
  | disconnected _ _ name selecting present => simp [Hub.Deadlocked]
  | anonymousDisconnected _ _ selecting present =>
    rw [finished] at present
    cases present

theorem Hub.Deadlocked.permanent (deadlocked : hub.Deadlocked)
    (taken : step env hub action = some (after, out)) :
    after.Deadlocked ∧ after.tasks = hub.tasks ∧ after.context = hub.context ∧ out = [] := by
  obtain ⟨⟨conn, service_name, waits⟩, held⟩ := deadlocked
  have unpolled : hub.main ≠ .selecting := by simp [waits]
  cases step_cases taken with
  | removed other name reaping free => exact absurd free held
  | filesEdited files => exact ⟨⟨⟨conn, service_name, waits⟩, held⟩, rfl, rfl, rfl⟩
  | accepted _ selecting => exact absurd selecting unpolled
  | acceptFailed selecting => exact absurd selecting unpolled
  | resumed _ _ _ _ selecting => exact absurd selecting unpolled
  | crashed _ _ _ selecting => exact absurd selecting unpolled
  | disconnected _ _ _ selecting => exact absurd selecting unpolled
  | anonymousDisconnected _ _ selecting => exact absurd selecting unpolled
  | interrupted selecting => exact absurd selecting unpolled

theorem context_never_awaited_reaped : ∃ log hub,
    Transition.RunWith (step openEnvironment) Hub.ReapsUnlocked (Hub.new [] (openFiles ["com.a", "com.b"]))
      log hub ∧ hub.main = .disconnected 6 "com.b" ∧ ¬ hub.Deadlocked := by
  obtain ⟨log, hub, run, waits⟩ := Transition.exists_run_of_execute
    (Transition.guarded (step openEnvironment) fun hub _ => hub.lock == none)
    (Hub.new [] (openFiles ["com.a", "com.b"]))
    (registering 0 "com.a" ++ registering 6 "com.b" ++ [.task 6 (.polled none), .next 6])
    (fun _ hub => hub.main == .disconnected 6 "com.b") (by decide +kernel)
  have allowed : Transition.RunWith (step openEnvironment) Hub.ReapsUnlocked
      (Hub.new [] (openFiles ["com.a", "com.b"])) log hub := by
    apply run.of_guarded
    intro _ hub action before free
    cases action with
    | next conn =>
      intro _ _ _ sends
      exact (run_consistent before).locked_iff.mpr sends (beq_iff_eq.mp free)
    | _ => trivial
  exact ⟨log, hub, allowed, beq_iff_eq.mp waits, context_never_awaited allowed⟩

/-- The client of `com.b` goes away while `com.a` is being connected to it. -/
theorem reaped_during_handover : ∃ log hub,
    Run openEnvironment [] (openFiles ["com.a", "com.b"]) log hub ∧ hub.Deadlocked := by
  obtain ⟨log, hub, run, stuck⟩ := Transition.exists_run_of_execute (step openEnvironment)
    (Hub.new [] (openFiles ["com.a", "com.b"]))
    (registering 0 "com.a" ++ registering 6 "com.b" ++ connecting 0 "com.b" false ++
      [.task 6 (.polled none), .next 6])
    (fun _ hub => hub.main == .disconnected 6 "com.b" && hub.lock == some 0) (by decide +kernel)
  rw [Bool.and_eq_true, beq_iff_eq, beq_iff_eq] at stuck
  exact ⟨log, hub, run, ⟨6, "com.b", stuck.1⟩, by simp [stuck.2]⟩

end KrossbarHub
