import KrossbarBus.Hub.Responses

namespace KrossbarHub

open Transition

variable {env : HubEnvironment} {hub after : Hub} {conn : Conn} {input : Input} {progress : Progress}
  {task : Task} {action : Action} {out log : List Event} {additional_service_dirs : List OsString}
  {files : FileSystem} {request : RpcRequest} {response : Response} {initiator target : String}

/-- If the step checks the request, the connection is allowed and the service file of the target
    exists. -/
def Hub.Welcomes (env : HubEnvironment) (request : RpcRequest) (hub : Hub) (action : Action) : Prop :=
  ∀ conn task service_name target wait, action = .task conn .locked → hub.tasks.get conn = some task →
    task.phase = .connectLock service_name target request wait →
    (hub.context.permissions.checkConnectionAllowed env.toEnvironment service_name target hub.files).1 = some true ∧
      (hub.context.permissions.checkServiceExists target hub.files).1 = true

/-- The connection request that is made for the request does not reach the target. -/
def Hub.OfferFails (hub : Hub) (request : RpcRequest) (action : Action) : Prop :=
  ∃ conn task service_name handover pair next, action = .task conn (.sent false) ∧
    hub.tasks.get conn = some task ∧ task.phase = .sendTarget service_name handover pair next ∧
    handover.request = request

theorem waiting_responds (paired : ∀ time, env.socketPair time = .ok ())
    (run : Run env additional_service_dirs files log hub) (welcome : hub.Welcomes env request action)
    (taken : step env hub action = some (after, out))
    (received : .received (some initiator) request ∈ log ++ out) (endpoint : request.endpoint = hubConnectMethod)
    (body : request.body = .call (.ok (.connect target true))) (member : .responded request response ∈ out) :
    (∃ pair, response = .fd pair) ∨ response = .err .peerDisconnected ∧ hub.OfferFails request action := by
  obtain ⟨conn, task, input, progress, rfl, present, rfl, resumes, responds⟩ := step_responds taken member
  have accounted := run_accounted run
  have later := (run_accounted (run.next trivial taken)).ledger
  have named : Handles hub conn task.phase input request → task.phase.registeredAs = some initiator := fun handles =>
    later.single _ _ request (handled_received accounted present resumes handles) received
  cases responds with
  | wrongEndpoint message polled own wrong e =>
    rw [named (.inr ⟨message, polled, own⟩), refusals, if_pos endpoint] at wrong
    cases wrong
  | invalidRegister handles unnamed invalid e =>
    rw [named handles] at unnamed
    cases unnamed
  | invalidConnect handles called invalid e => exact absurd body (invalid target true)
  | registration service_name was response plain =>
    have decoded := (run_traced run).registering conn task service_name request present was
    rw [body] at decoded
    cases decoded
  | notAllowed service_name name wait was locked denied =>
    have allowed := (welcome conn task service_name name wait (by rw [locked]) present was).1
    rw [denied] at allowed
    cases allowed
  | notFound service_name name wait was locked hopeless =>
    have decoded := accounted.bodies conn task service_name name request wait present was
    rw [body] at decoded
    cases decoded
    have exist := (welcome conn task service_name target true (by rw [locked]) present was).2
    rw [exist] at hopeless
    simp at hopeless
  | unpaired asks text failed =>
    rw [paired] at failed
    cases failed
  | handed service_name handover pair next ok was own sent =>
    cases ok with
    | true => exact .inl ⟨pair, rfl⟩
    | false => exact .inr ⟨rfl, conn, task, service_name, handover, pair, next, by rw [sent], present, was, own⟩

/-- A failed offer is answered at once. -/
theorem offer_failed (fails : hub.OfferFails request action) (taken : step env hub action = some (after, out)) :
    .responded request (.err .peerDisconnected) ∈ out := by
  obtain ⟨conn, task, service_name, handover, pair, next, rfl, present, was, own⟩ := fails
  cases step_cases taken with
  | resumed _ same _ progress selecting there resumes =>
    rw [present] at there
    cases there
    rw [was] at resumes
    cases resumes with
    | targetSent => simp [own]
  | crashed _ same _ selecting there panics =>
    rw [present] at there
    cases there
    simp [resume, was] at panics

/-- A registered client that may connect and asks to wait gets a descriptor or stays in the queue,
    unless the connection request made for it fails to be sent. -/
theorem waiting_connects_served (paired : ∀ time, env.socketPair time = .ok ())
    (run : RunWith (step env) (fun hub action => hub.Welcomes env request action ∧ ¬ hub.OfferFails request action)
      (Hub.new additional_service_dirs files) log hub)
    (received : .received (some initiator) request ∈ log) (endpoint : request.endpoint = hubConnectMethod)
    (body : request.body = .call (.ok (.connect target true))) :
    (∀ response, .responded request response ∈ log → ∃ pair, response = .fd pair) ∧
    ((∀ client, ¬ hub.busy client request) → AnsweredOrWaiting log hub request target) ∧
    ∀ action after out, hub.Welcomes env request action → step env hub action = some (after, out) →
      ((.responded request (.err .peerDisconnected) ∈ out ∨ .responded request (.err .serviceNotFound) ∈ out) ↔
        hub.OfferFails request action) := by
  refine ⟨?_, ?_, ?_⟩
  · intro response member
    obtain ⟨before, middle, action, after, out, earlier, ⟨welcome, succeeds⟩, taken, emitted, later, split⟩ :=
      run.emitted member
    have answered : answers (before ++ out) request ≠ 0 := by
      have counted := answers_answered emitted
      rw [answers_append]
      omega
    obtain ⟨client, arrived⟩ := (run_accounted (earlier.run.next trivial taken)).ledger.known request answered
    have same : client = some initiator := by
      apply (run_accounted run.run).ledger.single client (some initiator) request _ received
      rw [split]
      exact List.mem_append_left _ arrived
    subst same
    rcases waiting_responds paired earlier.run welcome taken arrived endpoint body emitted with handed | ⟨_, fails⟩
    · exact handed
    · exact absurd fails succeeds
  · intro handled
    exact (answered_or_waiting_iff (run_accounted run.run) received endpoint body handled).mpr (by simp)
  · intro action after out welcome taken
    constructor
    · intro failed
      have arrived : .received (some initiator) request ∈ log ++ out := List.mem_append_left _ received
      rcases failed with lost | missing
      · rcases waiting_responds paired run.run welcome taken arrived endpoint body lost with
          ⟨pair, same⟩ | ⟨_, fails⟩
        · cases same
        · exact fails
      · rcases waiting_responds paired run.run welcome taken arrived endpoint body missing with
          ⟨pair, same⟩ | ⟨same, _⟩
        · cases same
        · cases same
    · intro fails
      exact .inl (offer_failed fails taken)

def servesOpenly (hub : Hub) : Action → Bool
  | .task _ (.sent ok) => ok
  | .task conn .locked =>
    match (hub.tasks.get conn).map Task.phase with
    | some (.connectLock service_name target _ _) =>
      (hub.context.permissions.checkConnectionAllowed openEnvironment.toEnvironment service_name target
        hub.files).1 == some true && (hub.context.permissions.checkServiceExists target hub.files).1
    | _ => true
  | _ => true

theorem servesOpenly_sound (passed : servesOpenly hub action = true) :
    hub.Welcomes openEnvironment request action ∧ ¬ hub.OfferFails request action := by
  constructor
  · rintro conn task service_name target wait rfl present was
    simp only [servesOpenly, present, Option.map_some, was, Bool.and_eq_true, beq_iff_eq] at passed
    exact passed
  · rintro ⟨conn, task, service_name, handover, pair, next, rfl, _⟩
    cases passed

theorem waiting_connects_served_handed : ∃ log hub request pair,
    Run openEnvironment [] (openFiles ["com.a", "com.b"]) log hub ∧ .received (some "com.a") request ∈ log ∧
    request.body = .call (.ok (.connect "com.b" true)) ∧ .responded request (.fd pair) ∈ log ∧
    ∀ response, .responded request response ∈ log → ∃ pair, response = .fd pair := by
  obtain ⟨log, hub, run, passed⟩ := exists_run_of_execute (guarded (step openEnvironment) servesOpenly)
    (Hub.new [] (openFiles ["com.a", "com.b"]))
    (registering 0 "com.a" ++ connecting 0 "com.b" true ++ registering 8 "com.b" ++ [.task 8 (.sent true)])
    (fun log _ =>
      log.contains (.received (some "com.a") ⟨6, 0, 1, hubConnectMethod, .call (.ok (.connect "com.b" true))⟩) &&
      log.contains (.responded ⟨6, 0, 1, hubConnectMethod, .call (.ok (.connect "com.b" true))⟩ (.fd 13)))
    (by decide +kernel)
  simp only [Bool.and_eq_true, List.contains_iff_mem] at passed
  have result := waiting_connects_served (fun _ => rfl) (run.of_guarded fun _ _ _ _ ok => servesOpenly_sound ok)
    passed.1 rfl rfl
  have served : RunWith (step openEnvironment) (fun _ _ => True) _ log hub := run.of_guarded fun _ _ _ _ _ => trivial
  exact ⟨log, hub, _, 13, served, passed.1, rfl, passed.2, result.1⟩

/-- The target has registered and is gone, but its task has not been reaped. -/
theorem waiting_connect_disconnected : ∃ log hub request,
    Run openEnvironment [] (openFiles ["com.a", "com.b"]) log hub ∧ .received (some "com.a") request ∈ log ∧
    request.endpoint = hubConnectMethod ∧ request.body = .call (.ok (.connect "com.b" true)) ∧
    .connectionChecked request "com.a" "com.b" true ∈ log ∧
    (hub.context.permissions.checkServiceExists "com.b" hub.files).1 = true ∧
    .responded request (.err .peerDisconnected) ∈ log := by
  obtain ⟨log, hub, run, passed⟩ := exists_run_of_execute (step openEnvironment)
    (Hub.new [] (openFiles ["com.a", "com.b"]))
    (registering 0 "com.a" ++ registering 6 "com.b" ++ [.task 6 (.polled none)] ++ connecting 0 "com.b" true ++
      [.task 0 (.sent false)])
    (fun log hub =>
      log.contains (.received (some "com.a") ⟨13, 0, 1, hubConnectMethod, .call (.ok (.connect "com.b" true))⟩) &&
      (log.contains (.connectionChecked ⟨13, 0, 1, hubConnectMethod, .call (.ok (.connect "com.b" true))⟩
          "com.a" "com.b" true) &&
        ((hub.context.permissions.checkServiceExists "com.b" hub.files).1 &&
          log.contains (.responded ⟨13, 0, 1, hubConnectMethod, .call (.ok (.connect "com.b" true))⟩
            (.err .peerDisconnected))))) (by decide +kernel)
  simp only [Bool.and_eq_true, List.contains_iff_mem] at passed
  obtain ⟨received, checked, exist, answered⟩ := passed
  exact ⟨log, hub, _, run, received, rfl, rfl, checked, exist, answered⟩

end KrossbarHub
