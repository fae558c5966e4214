import KrossbarBus.Hub.Panics
import KrossbarBus.Hub.RegistryHistory

namespace KrossbarHub

open Transition

variable {env : HubEnvironment} {hub : Hub} {conn : Conn} {task : Task} {input : Input} {progress : Progress}
  {out log : List Event} {additional_service_dirs : List OsString} {files : FileSystem} {request : RpcRequest}

/-- The hub with what its other unwraps look at: whether the socket has its permissions, the futures
    of `self.tasks` (`none` is the `pending()` that `Hub::new` pushes), and the requests whose body
    has been taken. -/
structure HubProcess where
  hub : Hub
  listening : Bool
  tasks : List (Option Conn)
  taken : List RpcRequest

def HubProcess.new (additional_service_dirs : List OsString) (files : FileSystem) : HubProcess where
  hub := .new additional_service_dirs files
  listening := false
  tasks := [none]
  taken := []

inductive ProcessAction
  /-- `fs::set_permissions` on the socket that has just been bound. -/
  | setPermissions (ok : Bool)
  /-- `self.tasks.next()` yields `None`, as it does once no future is left. -/
  | exhausted
  | hub (action : Action)

def takeBody (taken : List RpcRequest) (request : RpcRequest) : Option (List RpcRequest) :=
  if request ∈ taken then none else some (request :: taken)

/-- The request whose body the task takes when it runs on. -/
def bodyOf (hub : Hub) (conn : Conn) (task : Task) : Input → Option RpcRequest
  | .polled (some message) =>
    match task.phase with
    | .authPoll => if message.endpoint ≠ hubRegisterMethod then none else some (message.request hub.clock conn)
    | .clientPoll _ => if message.endpoint ≠ hubConnectMethod then none else some (message.request hub.clock conn)
    | _ => none
  | .sent _ =>
    match task.phase with
    | .authEndpointReply request => some request
    | .clientEndpointReply _ request => some request
    | _ => none
  | _ => none

def HubProcess.crash (process : HubProcess) : HubProcess :=
  { process with hub := { process.hub with main := .crashed } }

variable {process after : HubProcess} {action : Action}

/-- A step of the hub is the process's step unless an `unwrap` on its way fails. -/
def HubProcess.stepHub (process : HubProcess) (hub : Hub) (out : List Event) :
    Action → Option (HubProcess × List Event)
  | .accept (some _) => some ({ process with hub, tasks := some process.hub.clock :: process.tasks }, out)
  | .task conn input =>
    if some conn ∉ process.tasks then none
    else match (process.hub.tasks.get conn).bind fun task => bodyOf process.hub conn task input with
      | none => some ({ process with hub }, out)
      | some request =>
        match takeBody process.taken request with
        | none => some (process.crash, [])
        | some taken => some ({ process with hub, taken }, out)
  | .next conn =>
    if some conn ∉ process.tasks then none
    else some ({ process with hub, tasks := process.tasks.erase (some conn) }, out)
  | _ => some ({ process with hub }, out)

def HubProcess.step (env : HubEnvironment) : Transition.Step HubProcess ProcessAction Event
  | process, .setPermissions ok =>
    if process.listening ∨ process.hub.main ≠ .selecting then none
    else if ok then some ({ process with listening := true }, [])
    else some (process.crash, [])
  | process, .exhausted =>
    if process.listening ∧ process.hub.main = .selecting ∧ process.tasks = [] then some (process.crash, [])
    else none
  | process, .hub (.editFiles files) => some ({ process with hub := { process.hub with files } }, [])
  | process, .hub action =>
    if ¬ process.listening then none
    else match KrossbarHub.step env process.hub action with
      | none => none
      | some (hub, out) => process.stepHub hub out action

/-- The step neither fails to open the socket to the clients nor reads a link that is no text. -/
def HubProcess.Harmless (process : HubProcess) : ProcessAction → Prop
  | .setPermissions ok => ok = true
  | .exhausted => True
  | .hub (.task conn input) => ¬ process.hub.ChecksUnreadable conn input
  | .hub _ => True

/-- What keeps the unwraps from failing: `pending()` never ends, and a body that is still to be read
    has not been taken. -/
structure HubProcess.Sound (process : HubProcess) : Prop where
  pending : none ∈ process.tasks
  nodup : process.tasks.Nodup
  polled : ∀ conn, some conn ∈ process.tasks ↔ process.hub.tasks.get conn ≠ none
  older : ∀ request ∈ process.taken, request.number < process.hub.clock
  unread : ∀ conn task request, process.hub.tasks.get conn = some task →
    bodyOf process.hub conn task (.sent true) = some request →
    request.number < process.hub.clock ∧ request ∉ process.taken

theorem HubProcess.Sound.initial (additional_service_dirs : List OsString) (files : FileSystem) :
    (HubProcess.new additional_service_dirs files).Sound where
  pending := List.mem_singleton.mpr rfl
  nodup := by simp [HubProcess.new]
  polled := by simp [HubProcess.new, Hub.new]
  older := by simp [HubProcess.new]
  unread := by simp [HubProcess.new, Hub.new]

theorem bodyOf_sent {ok : Bool} (unread : bodyOf hub conn task (.sent ok) = some request) :
    task.phase.processing = some request ∧
      (task.phase = .authEndpointReply request ∨ ∃ name, task.phase = .clientEndpointReply name request) := by
  simp only [bodyOf] at unread
  split at unread
  · rename_i own was
    cases unread
    rw [was]
    exact ⟨rfl, .inl rfl⟩
  · rename_i name own was
    cases unread
    rw [was]
    exact ⟨rfl, .inr ⟨name, rfl⟩⟩
  · cases unread

theorem bodyOf_own (consistent : hub.Consistent) (present : hub.tasks.get conn = some task)
    (body : bodyOf hub conn task input = some request) :
    request.writer = conn ∧
      (request.number = hub.clock ∨ bodyOf hub conn task (.sent true) = some request) := by
  cases input with
  | polled message =>
    cases message with
    | none => cases body
    | some message =>
      simp only [bodyOf] at body
      split at body
      · split at body
        · cases body
        · cases body
          exact ⟨rfl, .inl rfl⟩
      · split at body
        · cases body
        · cases body
          exact ⟨rfl, .inl rfl⟩
      · cases body
  | sent ok => exact ⟨consistent.own conn task request present (bodyOf_sent body).1, .inr body⟩
  | _ => cases body

/-- A task that has just refused the endpoint of a request has received it in that step and has not
    looked at its body. -/
theorem Resumes.postpones (resumes : Resumes env hub conn task.credentials task.phase input progress)
    (unread : bodyOf hub conn { task with phase := progress.phase } (.sent true) = some request) :
    request.number = hub.clock ∧ bodyOf hub conn task input = none := by
  have shape := (bodyOf_sent unread).2
  generalize was : task.phase = phase at resumes
  cases resumes with
  | authRefused message wrong e =>
    have own : message.request hub.clock conn = request := by simpa [bodyOf] using unread
    exact ⟨by rw [← own]; rfl, by simp [bodyOf, was, wrong]⟩
  | clientRefused name message wrong e =>
    have own : message.request hub.clock conn = request := by simpa [bodyOf] using unread
    exact ⟨by rw [← own]; rfl, by simp [bodyOf, was, wrong]⟩
  | authReceived message right next events body =>
    rcases authorizeBody_cases body with ⟨name, _, rfl, _⟩ | ⟨_, rfl, _⟩ <;> simp at shape
  | authContinued own ok next events body =>
    rcases authorizeBody_cases body with ⟨name, _, rfl, _⟩ | ⟨_, rfl, _⟩ <;> simp at shape
  | clientReceived name message right next events body =>
    rcases clientBody_cases body with ⟨target, wait, _, rfl, _⟩ | ⟨_, ⟨rfl, _⟩ | ⟨rfl, _⟩⟩ <;> simp at shape
  | clientContinued name own ok next events body =>
    rcases clientBody_cases body with ⟨target, wait, _, rfl, _⟩ | ⟨_, ⟨rfl, _⟩ | ⟨rfl, _⟩⟩ <;> simp at shape
  | connectRegistered name target own wait free allowed writer present next events pair =>
    rcases sendConnectionDescriptors_cases pair with ⟨rfl, _⟩ | ⟨rfl, _⟩ <;> simp at shape
  | pendingTaken name free waiters waiting next events batch =>
    rcases resolveWaiters_cases batch with ⟨_, rfl, _⟩ | ⟨initiator, own, rest, _, pair⟩
    · simp at shape
    · rcases sendConnectionDescriptors_cases pair with ⟨rfl, _⟩ | ⟨rfl, _⟩ <;> simp at shape
  | batchContinued name waiters ok next events batch =>
    rcases resolveWaiters_cases batch with ⟨_, rfl, _⟩ | ⟨initiator, own, rest, _, pair⟩
    · simp at shape
    · rcases sendConnectionDescriptors_cases pair with ⟨rfl, _⟩ | ⟨rfl, _⟩ <;> simp at shape
  | _ => simp at shape

theorem takeBody_untaken {taken : List RpcRequest} (untaken : request ∉ taken) :
    takeBody taken request = some (request :: taken) := if_neg untaken

theorem HubProcess.Sound.body_untaken (sound : process.Sound) (consistent : process.hub.Consistent)
    (present : process.hub.tasks.get conn = some task) (body : bodyOf process.hub conn task input = some request) :
    request.number ≤ process.hub.clock ∧ request ∉ process.taken := by
  rcases (bodyOf_own consistent present body).2 with fresh | unread
  · refine ⟨Nat.le_of_eq fresh, ?_⟩
    intro old
    have older := sound.older request old
    omega
  · obtain ⟨older, untaken⟩ := sound.unread conn task request present unread
    exact ⟨Nat.le_of_lt older, untaken⟩

theorem HubProcess.Sound.resume (sound : process.Sound) (consistent : process.hub.Consistent)
    (present : process.hub.tasks.get conn = some task)
    (resumes : Resumes env process.hub conn task.credentials task.phase input progress)
    {taken : List RpcRequest}
    (read : ∀ request, request ∈ taken ↔
      request ∈ process.taken ∨ bodyOf process.hub conn task input = some request) :
    HubProcess.Sound { process with hub := process.hub.advance conn task progress, taken } where
  pending := sound.pending
  nodup := sound.nodup
  polled := by
    intro other
    rw [sound.polled]
    by_cases same : other = conn
    · simp [same, present]
    · simp [same]
  older := by
    intro request member
    rcases (read request).mp member with old | body
    · exact Nat.lt_succ_of_lt (sound.older request old)
    · exact Nat.lt_succ_of_le (sound.body_untaken consistent present body).1
  unread := by
    intro other next request there unread
    rw [advance_get] at there
    split at there
    · rename_i same
      cases there
      obtain ⟨fresh, unlooked⟩ := resumes.postpones unread
      refine ⟨fresh ▸ Nat.lt_succ_self _, ?_⟩
      intro member
      rcases (read request).mp member with old | body
      · have older := sound.older request old
        omega
      · rw [unlooked] at body
        cases body
    · rename_i different
      obtain ⟨older, untaken⟩ := sound.unread other next request there unread
      refine ⟨Nat.lt_succ_of_lt older, ?_⟩
      intro member
      rcases (read request).mp member with old | body
      · exact untaken old
      · have own := consistent.own other next request there (bodyOf_sent unread).1
        rw [(bodyOf_own consistent present body).1] at own
        exact different own.symm

theorem HubProcess.Sound.accept (sound : process.Sound) (consistent : process.hub.Consistent)
    (credentials : UCred) :
    HubProcess.Sound { process with
      hub := { process.hub with
        tasks := process.hub.tasks.insert process.hub.clock ⟨credentials, .authPoll⟩
        clock := process.hub.clock + 1 }
      tasks := some process.hub.clock :: process.tasks } where
  pending := List.mem_cons_of_mem _ sound.pending
  nodup := by
    apply List.nodup_cons.mpr ⟨_, sound.nodup⟩
    rw [sound.polled]
    intro there
    obtain ⟨task, present⟩ := Option.ne_none_iff_exists'.mp there
    exact Nat.lt_irrefl _ (consistent.fresh _ task present)
  polled := by
    intro conn
    by_cases same : conn = process.hub.clock
    · simp [same]
    · simp [same, sound.polled, Table.get_insert_of_ne same]
  older := fun request member => Nat.lt_succ_of_lt (sound.older request member)
  unread := by
    intro conn task request there unread
    rw [Table.get_insert] at there
    split at there
    · cases there
      cases unread
    · obtain ⟨older, untaken⟩ := sound.unread conn task request there unread
      exact ⟨Nat.lt_succ_of_lt older, untaken⟩

theorem HubProcess.Sound.reap (sound : process.Sound) (conn : Conn) (main : MainLoop) :
    HubProcess.Sound { process with
      hub := { process.hub with tasks := process.hub.tasks.remove conn, main }
      tasks := process.tasks.erase (some conn) } where
  pending := (List.mem_erase_of_ne (by simp)).mpr sound.pending
  nodup := sound.nodup.erase (some conn)
  polled := by
    intro other
    rw [sound.nodup.mem_erase_iff, sound.polled]
    by_cases same : other = conn
    · simp [same]
    · simp [same, Table.get_remove_of_ne same]
  older := sound.older
  unread := fun other task request there => sound.unread other task request (Table.get_of_remove there)

/-- The hub changes neither its tasks nor its clock. -/
theorem HubProcess.Sound.still (sound : process.Sound) (tasks : hub.tasks = process.hub.tasks)
    (clock : hub.clock = process.hub.clock) : HubProcess.Sound { process with hub } where
  pending := sound.pending
  nodup := sound.nodup
  polled := by
    rw [tasks]
    exact sound.polled
  older := by
    rw [clock]
    exact sound.older
  unread := by
    rw [tasks, clock]
    exact sound.unread

/-- A step of the hub that reads no bad link is a step of the process, and no unwrap fails in it. -/
theorem HubProcess.Sound.follows (sound : process.Sound) (consistent : process.hub.Consistent)
    (harmless : process.Harmless (.hub action)) (moved : KrossbarHub.step env process.hub action = some (hub, out)) :
    ∃ next, process.stepHub hub out action = some (next, out) ∧ next.Sound ∧ next.hub = hub ∧
      next.listening = process.listening ∧ (process.hub.main ≠ .crashed → hub.main ≠ .crashed) := by
  cases step_cases moved with
  | accepted credentials selecting =>
    exact ⟨_, rfl, sound.accept consistent credentials, rfl, rfl, id⟩
  | resumed conn task input progress selecting present resumes =>
    have member : some conn ∈ process.tasks := (sound.polled conn).mpr (by simp [present])
    cases body : bodyOf process.hub conn task input with
    | none =>
      have moves : HubProcess.Sound { process with hub := process.hub.advance conn task progress } :=
        sound.resume consistent present resumes (by simp [body])
      exact ⟨_, by simp [HubProcess.stepHub, member, present, body], moves, rfl, rfl, id⟩
    | some request =>
      have untaken := (sound.body_untaken consistent present body).2
      have moves : HubProcess.Sound { process with
          hub := process.hub.advance conn task progress, taken := request :: process.taken } :=
        sound.resume consistent present resumes (by simp [body, eq_comm, or_comm])
      refine ⟨_, ?_, moves, rfl, rfl, id⟩
      simp [HubProcess.stepHub, member, present, body, takeBody_untaken untaken]
  | crashed conn task input selecting present panics =>
    exact absurd ((resume_panics present).mp panics).2 harmless
  | disconnected conn credentials service_name selecting present =>
    have member : some conn ∈ process.tasks := (sound.polled conn).mpr (by simp [present])
    refine ⟨_, if_neg (not_not.mpr member), sound.reap conn _, rfl, rfl, by simp⟩
  | anonymousDisconnected conn credentials selecting present =>
    have member : some conn ∈ process.tasks := (sound.polled conn).mpr (by simp [present])
    refine ⟨_, if_neg (not_not.mpr member), sound.reap conn process.hub.main, rfl, rfl, id⟩
  | acceptFailed selecting => exact ⟨_, rfl, sound.still rfl rfl, rfl, rfl, id⟩
  | removed conn service_name reaping free => exact ⟨_, rfl, sound.still rfl rfl, rfl, rfl, by simp⟩
  | interrupted selecting => exact ⟨_, rfl, sound.still rfl rfl, rfl, rfl, by simp⟩
  | filesEdited files => exact ⟨_, rfl, sound.still rfl rfl, rfl, rfl, id⟩

theorem hub_step_cases (stepped : process.step env (.hub action) = some (after, out)) :
    ∃ hub all, KrossbarHub.step env process.hub action = some (hub, all) ∧
      process.stepHub hub all action = some (after, out) := by
  cases action with
  | editFiles files => exact ⟨_, _, rfl, stepped⟩
  | _ =>
    simp only [HubProcess.step] at stepped
    split at stepped
    · cases stepped
    · split at stepped
      · cases stepped
      · rename_i hub all moved
        exact ⟨hub, all, moved, stepped⟩

structure HubProcess.Healthy (env : HubEnvironment) (additional_service_dirs : List OsString) (files : FileSystem)
    (log : List Event) (process : HubProcess) : Prop where
  run : Run env additional_service_dirs files log process.hub
  sound : process.Sound
  alive : process.hub.main ≠ .crashed

theorem HubProcess.Healthy.preserved (healthy : process.Healthy env additional_service_dirs files log)
    {action : ProcessAction} (harmless : process.Harmless action)
    (stepped : process.step env action = some (after, out)) :
    after.Healthy env additional_service_dirs files (log ++ out) := by
  have consistent := run_consistent healthy.run
  cases action with
  | setPermissions ok =>
    simp only [HubProcess.step] at stepped
    split at stepped
    · cases stepped
    · split at stepped
      · cases stepped
        rw [List.append_nil]
        have sound := healthy.sound
        exact ⟨healthy.run, ⟨sound.pending, sound.nodup, sound.polled, sound.older, sound.unread⟩, healthy.alive⟩
      · rename_i failed
        exact absurd harmless failed
  | exhausted =>
    simp only [HubProcess.step] at stepped
    split at stepped
    · rename_i empty
      have pending := healthy.sound.pending
      rw [empty.2.2] at pending
      cases pending
    · cases stepped
  | hub action =>
    obtain ⟨hub, all, moved, followed⟩ := hub_step_cases stepped
    obtain ⟨next, follows, sound, same, _, alive⟩ := healthy.sound.follows consistent harmless moved
    rw [follows] at followed
    cases followed
    subst same
    exact ⟨healthy.run.next trivial moved, sound, alive healthy.alive⟩

theorem run_healthy
    (run : RunWith (HubProcess.step env) HubProcess.Harmless (.new additional_service_dirs files) log process) :
    process.Healthy env additional_service_dirs files log :=
  run.invariant (I := fun log process => process.Healthy env additional_service_dirs files log)
    ⟨.start, .initial additional_service_dirs files, by simp [HubProcess.new, Hub.new]⟩
    fun _ _ _ _ _ _ healthy harmless stepped => healthy.preserved harmless stepped

theorem harmful_crashes {action : ProcessAction} (harmful : ¬ process.Harmless action)
    (stepped : process.step env action = some (after, out)) : after.hub.main = .crashed := by
  cases action with
  | setPermissions ok =>
    simp only [HubProcess.Harmless, Bool.not_eq_true] at harmful
    subst harmful
    simp only [HubProcess.step] at stepped
    split at stepped
    · cases stepped
    · cases stepped
      rfl
  | exhausted => exact absurd trivial harmful
  | hub action =>
    obtain ⟨hub, all, moved, followed⟩ := hub_step_cases stepped
    cases action with
    | task conn input =>
      have checks : process.hub.ChecksUnreadable conn input := not_not.mp harmful
      obtain ⟨rfl, task, service_name, request, present, was, absent, unreadable⟩ := checks
      cases step_cases moved with
      | resumed _ same _ progress selecting there resumes =>
        rw [present] at there
        cases there
        rw [was] at resumes
        cases resumes with
        | alreadyRegistered _ _ free found => simp [Table.containsKey, absent] at found
        | registrationDenied _ _ free _ denied =>
          rw [checkServiceNameAllowed_panics.mpr unreadable] at denied
          cases denied
        | registrationAllowed _ _ free _ allowed =>
          rw [checkServiceNameAllowed_panics.mpr unreadable] at allowed
          cases allowed
      | crashed _ same _ selecting there panics =>
        simp only [HubProcess.stepHub, present, Option.bind_some, bodyOf] at followed
        split at followed
        · cases followed
        · cases followed
          rfl
    | _ => exact absurd trivial harmful

/-- No client gets at an unwrap of the hub but through the link to its executable. -/
theorem unwraps_never_fail
    (run : RunWith (HubProcess.step env) HubProcess.Harmless (.new additional_service_dirs files) log process) :
    process.hub.main ≠ .crashed ∧ Run env additional_service_dirs files log process.hub ∧
    ∀ action after out, process.step env action = some (after, out) →
      (after.hub.main = .crashed ↔ ¬ process.Harmless action) := by
  have healthy := run_healthy run
  refine ⟨healthy.alive, healthy.run, ?_⟩
  intro action after out stepped
  constructor
  · intro crashed harmless
    exact (healthy.preserved harmless stepped).alive crashed
  · intro harmful
    exact harmful_crashes harmful stepped

def readsText (process : HubProcess) : ProcessAction → Bool
  | .setPermissions ok => ok
  | .hub (.task conn _) =>
    match (process.hub.tasks.get conn).bind fun task => task.credentials.pid with
    | none => true
    | some pid =>
      match process.hub.files.links (exeLink pid) with
      | none => true
      | some link => (toStr link).isSome
  | _ => true

theorem readsText_sound {action : ProcessAction} (passed : readsText process action = true) :
    process.Harmless action := by
  cases action with
  | setPermissions ok => exact passed
  | exhausted => trivial
  | hub action =>
    cases action with
    | task conn input =>
      rintro ⟨_, task, service_name, request, present, _, _, pid, link, identified, linked, unreadable⟩
      simp [readsText, present, identified, linked, unreadable] at passed
    | _ => trivial

def starting (actions : List Action) : List ProcessAction := .setPermissions true :: actions.map .hub

theorem unwraps_never_fail_registered : ∃ (log : List Event) (process : HubProcess),
    Run openEnvironment [] (openFiles ["com.a"]) log process.hub ∧ process.hub.main ≠ .crashed ∧
    process.hub.context.client_registry.get "com.a" = some 0 := by
  obtain ⟨log, process, run, entry⟩ := exists_run_of_execute
    (guarded (HubProcess.step openEnvironment) readsText) (.new [] (openFiles ["com.a"]))
    (starting (registering 0 "com.a"))
    (fun _ process => process.hub.context.client_registry.get "com.a" == some 0) (by decide +kernel)
  have fine := unwraps_never_fail (run.of_guarded fun _ _ _ _ ok => readsText_sound ok)
  exact ⟨log, process, fine.2.1, fine.1, beq_iff_eq.mp entry⟩

def byteFiles : FileSystem := { openFiles ["com.a"] with links := fun _ => some [47, 255] }

/-- The executable of a client has a byte in its path that is no text. -/
theorem path_crashes_hub : ∃ log process,
    Transition.Run (HubProcess.step openEnvironment) (.new [] byteFiles) log process ∧
    process.listening = true ∧ process.hub.main = .crashed := by
  obtain ⟨log, process, run, crashed⟩ := exists_run_of_execute (HubProcess.step openEnvironment)
    (.new [] byteFiles) (starting ((registering 0 "com.a").take 3))
    (fun _ process => process.listening && process.hub.main == .crashed) (by decide +kernel)
  rw [Bool.and_eq_true, beq_iff_eq] at crashed
  exact ⟨log, process, run, crashed⟩

end KrossbarHub
