import KrossbarBus.Hub.PendingConnections

namespace KrossbarHub

variable {env : HubEnvironment} {hub after : Hub} {conn : Conn} {input : Input} {progress : Progress}
  {action : Action} {out log : List Event} {additional_service_dirs : List OsString} {files : FileSystem}

/-- Every waiter, queued or taken over, is registered under the name that is stored with its
    request, by the connection that made the request. -/
structure Hub.WaitersRegistered (hub : Hub) : Prop where
  waiting : ∀ target initiator request, (initiator, request) ∈ hub.context.waiters target →
    hub.context.client_registry.get initiator = some request.writer
  batched : ∀ conn task initiator request, hub.tasks.get conn = some task →
    (initiator, request) ∈ task.phase.batch →
    hub.context.client_registry.get initiator = some request.writer

/-- A client is removed only when none of its requests is pending. -/
def Hub.RemovesIdle (hub : Hub) : Action → Prop
  | .removeClient => ∀ conn service_name, hub.main = .disconnected conn service_name →
      ∀ target initiator request, (initiator, request) ∈ hub.context.waiters target → request.writer ≠ conn
  | _ => True

theorem Hub.WaitersRegistered.initial (additional_service_dirs : List OsString) (files : FileSystem) :
    (Hub.new additional_service_dirs files).WaitersRegistered where
  waiting := by simp [Hub.new, HubContext.waiters]
  batched := by simp [Hub.new]

theorem initiator_registered (consistent : hub.Consistent) (selecting : hub.main = .selecting) {task : Task}
    (present : hub.tasks.get conn = some task) {initiator target : String} {request : RpcRequest}
    {wait : Bool} (connects : task.phase = .connectLock initiator target request wait) :
    hub.context.client_registry.get initiator = some request.writer := by
  have own : request.writer = conn := consistent.own conn task request present (by rw [connects]; rfl)
  rw [own, consistent.registry, owns_task selecting present, connects]
  rfl

theorem Hub.WaitersRegistered.resume (registered : hub.WaitersRegistered) (consistent : hub.Consistent)
    (selecting : hub.main = .selecting) {task : Task} (present : hub.tasks.get conn = some task)
    (resumes : Resumes env hub conn task.credentials task.phase input progress) :
    (hub.advance conn task progress).WaitersRegistered := by
  constructor
  · intro target initiator request member
    apply resumes.entry_kept
    rcases resumes.queues.waiting member with old | ⟨⟨wait, connects⟩, _⟩
    · exact registered.waiting target initiator request old
    · exact initiator_registered consistent selecting present connects
  · intro other next initiator request there member
    apply resumes.entry_kept
    rw [advance_get] at there
    split at there
    · cases there
      rcases resumes.queues.batched member with old | ⟨service_name, _, old⟩
      · exact registered.batched conn task initiator request present old
      · exact registered.waiting service_name initiator request old
    · exact registered.batched other next initiator request there member

theorem holdsLock_of_batch {phase : Phase} {waiter : String × RpcRequest} (member : waiter ∈ phase.batch) :
    phase.holdsLock = true := by
  unfold Phase.batch at member
  split at member
  · rfl
  · rfl
  · cases member

theorem Hub.WaitersRegistered.remove (registered : hub.WaitersRegistered) (consistent : hub.Consistent)
    {service_name : String} (reaping : hub.main = .disconnected conn service_name)
    (free : hub.lock = none)
    (idle : ∀ target initiator request, (initiator, request) ∈ hub.context.waiters target →
      request.writer ≠ conn) :
    Hub.WaitersRegistered { hub with
      context := { hub.context with
        client_registry := hub.context.client_registry.remove service_name }
      main := .selecting } := by
  have owner := (consistent.registry service_name conn).mpr (.inr reaping)
  constructor
  · intro target initiator request member
    have entry := registered.waiting target initiator request member
    have different : initiator ≠ service_name := by
      intro same
      rw [same, owner] at entry
      exact idle target initiator request member (Option.some.inj entry).symm
    rw [Table.get_remove, if_neg different]
    exact entry
  · intro other task initiator request there member
    have idle : task.phase.holdsLock = false := consistent.lock.idle free there
    rw [holdsLock_of_batch member] at idle
    cases idle

theorem Hub.WaitersRegistered.preserved (registered : hub.WaitersRegistered) (consistent : hub.Consistent)
    (idle : hub.RemovesIdle action) (taken : step env hub action = some (after, out)) :
    after.WaitersRegistered := by
  cases step_cases taken with
  | accepted credentials selecting =>
    refine ⟨registered.waiting, ?_⟩
    intro other task initiator request there member
    rw [Table.get_insert] at there
    split at there
    · cases there
      cases member
    · exact registered.batched other task initiator request there member
  | resumed conn task input progress selecting present resumes =>
    exact registered.resume consistent selecting present resumes
  | disconnected conn credentials service_name selecting present =>
    exact ⟨registered.waiting, fun other task initiator request there =>
      registered.batched other task initiator request (Table.get_of_remove there)⟩
  | anonymousDisconnected conn credentials selecting present =>
    exact ⟨registered.waiting, fun other task initiator request there =>
      registered.batched other task initiator request (Table.get_of_remove there)⟩
  | removed conn service_name reaping free =>
    exact registered.remove consistent reaping free (idle conn service_name reaping)
  | _ => exact ⟨registered.waiting, registered.batched⟩

/-- As long as only clients without pending requests are removed, every pending request belongs to a
    registered connection, and sockets are made for registered initiators only. -/
theorem pending_registered
    (run : Transition.RunWith (step env) Hub.RemovesIdle (Hub.new additional_service_dirs files) log hub) :
    (∀ target initiator request, (initiator, request) ∈ hub.context.waiters target →
      hub.context.client_registry.get initiator = some request.writer) ∧
    ∀ action after out writer initiator target pair request, step env hub action = some (after, out) →
      .connectionRequest writer initiator target pair request ∈ out →
      hub.context.client_registry.get initiator = some request.writer := by
  have consistent := run_consistent run
  have registered : hub.WaitersRegistered := by
    apply run.invariant (I := fun _ hub => hub.WaitersRegistered)
      (Hub.WaitersRegistered.initial additional_service_dirs files)
    intro log state action after out before registered idle taken
    exact registered.preserved (run_consistent before) idle taken
  refine ⟨registered.waiting, ?_⟩
  intro action after out writer initiator target pair request taken member
  cases step_cases taken with
  | resumed conn task input progress selecting present resumes =>
    cases resumes.emits _ member with
    | direct _ _ _ wait _ _ connects =>
      exact initiator_registered consistent selecting present connects
    | batched _ _ _ _ source =>
      rcases source.2 with batched | ⟨_, waiting⟩
      · exact registered.batched _ task initiator request present batched
      · exact registered.waiting target initiator request waiting
  | _ => simp at member

/-- Removing a client leaves its pending requests behind. -/
theorem removal_stale_iff (run : Run env additional_service_dirs files log hub) {service_name : String}
    (reaping : hub.main = .disconnected conn service_name)
    (taken : step env hub .removeClient = some (after, out)) (target initiator : String)
    (request : RpcRequest) (member : (initiator, request) ∈ hub.context.waiters target)
    (entry : hub.context.client_registry.get initiator = some request.writer) :
    (initiator, request) ∈ after.context.waiters target ∧
      (after.context.client_registry.get initiator = none ↔ request.writer = conn) := by
  have consistent := run_consistent run
  have owner := (consistent.registry service_name conn).mpr (.inr reaping)
  cases step_cases taken with
  | removed other name reaping' free =>
    rw [reaping] at reaping'
    cases reaping'
    refine ⟨member, ?_⟩
    rw [Table.get_remove]
    split
    · rename_i same
      rw [same, owner] at entry
      simp [(Option.some.inj entry).symm]
    · rename_i different
      rw [entry]
      simp only [reduceCtorEq, false_iff]
      intro same
      rw [same, consistent.registry, Hub.Owns, (consistent.reaping conn service_name reaping).2] at entry
      simp only [reduceCtorEq, false_and, exists_false, false_or] at entry
      rw [reaping] at entry
      exact different (MainLoop.disconnected.inj entry).2.symm

theorem pending_registered_waiting : ∃ log hub,
    Transition.RunWith (step openEnvironment) Hub.RemovesIdle
      (Hub.new [] (openFiles ["com.a", "com.b"])) log hub ∧
    ∃ request, ("com.a", request) ∈ hub.context.waiters "com.b" ∧
      hub.context.client_registry.get "com.a" = some request.writer := by
  obtain ⟨log, hub, run, waits⟩ := Transition.exists_run_of_execute
    (Transition.guarded (step openEnvironment) fun hub _ => hub.main == .selecting)
    (Hub.new [] (openFiles ["com.a", "com.b"])) (registering 0 "com.a" ++ connecting 0 "com.b" true)
    (fun _ hub => (hub.context.waiters "com.b").map Prod.fst == ["com.a"]) (by decide +kernel)
  have allowed : Transition.RunWith (step openEnvironment) Hub.RemovesIdle
      (Hub.new [] (openFiles ["com.a", "com.b"])) log hub := by
    apply run.of_guarded
    intro _ hub action _ selecting
    cases action with
    | removeClient =>
      intro conn service_name reaping
      rw [beq_iff_eq.mp selecting] at reaping
      cases reaping
    | _ => trivial
  have waiting : "com.a" ∈ (hub.context.waiters "com.b").map Prod.fst := by simp [beq_iff_eq.mp waits]
  obtain ⟨⟨initiator, request⟩, member, rfl⟩ := List.mem_map.mp waiting
  exact ⟨log, hub, allowed, request, member, (pending_registered allowed).1 "com.b" _ request member⟩

theorem waiter_outlives_client : ∃ log hub,
    Run openEnvironment [] (openFiles ["com.a", "com.b"]) log hub ∧
    hub.context.client_registry.get "com.a" = none ∧
    ∃ request, ("com.a", request) ∈ hub.context.waiters "com.b" := by
  obtain ⟨log, hub, run, stale⟩ := Transition.exists_run_of_execute (step openEnvironment)
    (Hub.new [] (openFiles ["com.a", "com.b"]))
    (registering 0 "com.a" ++ connecting 0 "com.b" true ++
      [.task 0 (.polled none), .next 0, .removeClient])
    (fun _ hub => hub.context.client_registry.get "com.a" == none &&
      (hub.context.waiters "com.b").map Prod.fst == ["com.a"]) (by decide +kernel)
  rw [Bool.and_eq_true, beq_iff_eq, beq_iff_eq] at stale
  have waiting : "com.a" ∈ (hub.context.waiters "com.b").map Prod.fst := by simp [stale.2]
  obtain ⟨⟨initiator, request⟩, member, rfl⟩ := List.mem_map.mp waiting
  exact ⟨log, hub, run, stale.1, request, member⟩

end KrossbarHub
