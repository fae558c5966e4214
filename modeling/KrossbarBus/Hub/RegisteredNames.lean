import KrossbarBus.Hub.RegistrationChecks
import KrossbarBus.Hub.RegistryHistory
import KrossbarBus.Monitor.ShortNames

namespace KrossbarHub

open KrossbarMonitor

variable {env : HubEnvironment} {hub after : Hub} {action : Action} {out log : List Event}
  {service_name : String} {conn : Conn} {additional_service_dirs dirs : List OsString} {files : FileSystem}

/-- What the matcher and the monitor rely on when they are given a service name. -/
structure WellFormedName (service_name : String) : Prop where
  rules : ¬ InvalidName service_name
  matched : ∀ order (pattern : NamePattern), ∃ answer, pattern.matches order service_name = some (.ok answer)
  shown : ∀ red target_service, ∃ text, shortName red service_name target_service = some text

def Hub.NamesWellFormed (hub : Hub) : Prop :=
  ∀ service_name conn, hub.context.client_registry.get service_name = some conn →
    WellFormedName service_name

/-- The step lets the name in: its task asks for it, nobody has it, and the service files allow it. -/
def Registers (env : HubEnvironment) (hub : Hub) (action : Action) (service_name : String) : Prop :=
  ∃ conn task request, action = .task conn .locked ∧ hub.main = .selecting ∧ hub.lock = none ∧
    hub.tasks.get conn = some task ∧ task.phase = .registerLock service_name request ∧
    hub.context.client_registry.get service_name = none ∧
    (hub.context.permissions.checkServiceNameAllowed env.toEnvironment task.credentials service_name
      hub.files).1 = some true

/-- No `Register` for an invalid name is decided while the first service file of that name that opens takes the
    executable of the peer. -/
def NoServiceFileAllows (env : HubEnvironment) (dirs : List OsString) (hub : Hub) (action : Action) : Prop :=
  ∀ conn task service_name request, action = .task conn .locked → hub.tasks.get conn = some task →
    task.phase = .registerLock service_name request → InvalidName service_name →
    ¬ RegistrationAllowed env.toEnvironment dirs hub.files task.credentials service_name

theorem wellFormed_iff_valid (service_name : String) :
    WellFormedName service_name ↔ ¬ InvalidName service_name := by
  constructor
  · exact WellFormedName.rules
  · intro valid
    refine ⟨valid, ?_, ?_⟩
    · intro order pattern
      obtain ⟨answer, matched, _⟩ := matches_of_valid order pattern service_name valid
      exact ⟨answer, matched⟩
    · intro red target_service
      exact Option.ne_none_iff_exists'.mp (shortName_of_valid red target_service valid)

theorem Resumes.registers {input : Input} {progress : Progress} {credentials : UCred}
    {request : RpcRequest}
    (resumes : Resumes env hub conn credentials (.registerLock service_name request) input progress)
    (now : progress.phase = .registerReply service_name) :
    input = .locked ∧ hub.lock = none ∧
      (hub.context.permissions.checkServiceNameAllowed env.toEnvironment credentials service_name
        hub.files).1 = some true := by
  cases resumes with
  | alreadyRegistered _ _ free taken => cases now
  | registrationDenied _ _ free absent denied => cases now
  | registrationAllowed _ _ free absent allowed => exact ⟨rfl, free, allowed⟩

/-- A registration is the only step that adds a name. -/
theorem registers_of_entry (taken : step env hub action = some (after, out))
    (entry : after.context.client_registry.get service_name = some conn) :
    hub.context.client_registry.get service_name = some conn ∨ Registers env hub action service_name := by
  cases step_cases taken with
  | resumed other task input progress selecting present resumes =>
    rw [advance_context] at entry
    rcases resumes.registration with ⟨_, registry, _⟩ | ⟨name, request, was, now, absent, registry, _⟩
    · rw [registry] at entry
      exact .inl entry
    · rw [registry, Table.get_insert] at entry
      split at entry
      · rename_i same
        subst same
        rw [was] at resumes
        obtain ⟨rfl, free, allowed⟩ := resumes.registers now
        exact .inr ⟨other, task, request, rfl, selecting, free, present, was, absent, allowed⟩
      · exact .inl entry
  | removed other name reaping free => exact .inl (Table.get_of_remove entry)
  | _ => exact .inl entry

theorem entry_of_registers (taken : step env hub action = some (after, out))
    (registers : Registers env hub action service_name) :
    ∃ conn, after.context.client_registry.get service_name = some conn := by
  obtain ⟨conn, task, request, rfl, selecting, free, present, registering, absent, allowed⟩ := registers
  have unknown : hub.context.client_registry.containsKey service_name = false := by
    simp [Table.containsKey, absent]
  have handled : resume env hub conn task .locked =
      some (handleAuthRequest env hub conn task.credentials service_name request) := by
    simp [resume, free, registering]
  simp only [step, selecting, present, handled, handleAuthRequest, unknown, allowed] at taken
  cases taken
  exact ⟨request.writer, by simp⟩

theorem locked_free {task : Task} (taken : step env hub (.task conn .locked) = some (after, out))
    (present : hub.tasks.get conn = some task) : hub.main = .selecting ∧ hub.lock = none := by
  simp only [step, present] at taken
  split at taken
  · cases taken
  · rename_i selecting
    refine ⟨not_not.mp selecting, ?_⟩
    by_contra held
    simp [resume, held] at taken

theorem Hub.NamesWellFormed.step_iff (named : hub.NamesWellFormed)
    (configured : hub.context.permissions.service_files_dirs = dirs)
    (taken : step env hub action = some (after, out)) :
    after.NamesWellFormed ↔ NoServiceFileAllows env dirs hub action := by
  constructor
  · rintro well conn task service_name request rfl present registering invalid allowed
    rw [← configured, ← checkServiceNameAllowed_iff] at allowed
    have absent : hub.context.client_registry.get service_name = none := by
      cases entry : hub.context.client_registry.get service_name with
      | none => rfl
      | some owner => exact absurd invalid (named service_name owner entry).rules
    obtain ⟨selecting, free⟩ := locked_free taken present
    have registers : Registers env hub (.task conn .locked) service_name :=
      ⟨conn, task, request, rfl, selecting, free, present, registering, absent, allowed⟩
    obtain ⟨owner, entry⟩ := entry_of_registers taken registers
    exact (well service_name owner entry).rules invalid
  · intro unlisted service_name conn entry
    rcases registers_of_entry taken entry with old | registers
    · exact named service_name conn old
    · refine (wellFormed_iff_valid service_name).mpr fun invalid => ?_
      obtain ⟨peer, task, request, rfl, _, _, present, registering, _, allowed⟩ := registers
      rw [checkServiceNameAllowed_iff, configured] at allowed
      exact unlisted peer task service_name request rfl present registering invalid allowed

/-- As long as no service file lets an invalid name in, every registered name can be matched and shown; the first
    `Register` for which one does is that after which this fails. -/
theorem registered_names_well_formed
    (run : Transition.RunWith (step env)
      (NoServiceFileAllows env (Permissions.new additional_service_dirs).service_files_dirs)
      (Hub.new additional_service_dirs files) log hub) :
    hub.NamesWellFormed ∧ ∀ action after out, step env hub action = some (after, out) →
      (after.NamesWellFormed ↔
        NoServiceFileAllows env (Permissions.new additional_service_dirs).service_files_dirs hub action) := by
  have configured : ∀ {log hub}, Transition.RunWith (step env)
      (NoServiceFileAllows env (Permissions.new additional_service_dirs).service_files_dirs)
      (Hub.new additional_service_dirs files) log hub →
      hub.context.permissions.service_files_dirs = (Permissions.new additional_service_dirs).service_files_dirs :=
    fun run => congrArg Permissions.service_files_dirs (run_permissions run)
  have initial : (Hub.new additional_service_dirs files).NamesWellFormed := by
    intro service_name conn entry
    cases entry
  have named : hub.NamesWellFormed :=
    run.invariant (I := fun _ hub => hub.NamesWellFormed) initial
      fun _ _ _ _ _ before named unlisted taken => (named.step_iff (configured before) taken).mpr unlisted
  exact ⟨named, fun _ _ _ taken => named.step_iff (configured run) taken⟩

def asksValidName (hub : Hub) : Action → Bool
  | .task conn _ =>
    match hub.tasks.get conn with
    | some ⟨_, .registerLock service_name _⟩ => !decide (InvalidName service_name)
    | _ => true
  | _ => true

theorem unlisted_of_asksValidName (asks : asksValidName hub action = true) :
    NoServiceFileAllows env dirs hub action := by
  rintro conn ⟨credentials, _⟩ service_name request rfl present rfl invalid
  simp [asksValidName, present, invalid] at asks

theorem registered_names_ordinary : ∃ log hub,
    Transition.RunWith (step openEnvironment)
      (NoServiceFileAllows openEnvironment (Permissions.new []).service_files_dirs)
      (Hub.new [] (openFiles ["com.a"])) log hub ∧
    hub.context.client_registry.get "com.a" = some 0 ∧ WellFormedName "com.a" := by
  obtain ⟨log, hub, run, entry⟩ := Transition.exists_run_of_execute
    (Transition.guarded (step openEnvironment) asksValidName) (Hub.new [] (openFiles ["com.a"]))
    (registering 0 "com.a") (fun _ hub => hub.context.client_registry.get "com.a" == some 0)
    (by decide +kernel)
  have unlisted : Transition.RunWith (step openEnvironment)
      (NoServiceFileAllows openEnvironment (Permissions.new []).service_files_dirs)
      (Hub.new [] (openFiles ["com.a"])) log hub :=
    run.of_guarded fun _ _ _ _ asks => unlisted_of_asksValidName asks
  have entry := beq_iff_eq.mp entry
  exact ⟨log, hub, unlisted, entry, (registered_names_well_formed unlisted).1 "com.a" 0 entry⟩

/-- A service file called `com..a.service` is enough: the hub registers a name that no pattern can be
    matched against and that the monitor panics on. -/
theorem empty_section_registered : ∃ log hub,
    Run openEnvironment [] (openFiles ["com..a"]) log hub ∧
    hub.context.client_registry.get "com..a" = some 0 ∧ InvalidName "com..a" ∧
    (∀ order (pattern : NamePattern), ∃ e, pattern.matches order "com..a" = some (.error e)) ∧
    ∀ red target_service, shortName red "com..a" target_service = none := by
  obtain ⟨log, hub, run, entry⟩ := Transition.exists_run_of_execute (step openEnvironment)
    (Hub.new [] (openFiles ["com..a"])) (registering 0 "com..a")
    (fun _ hub => hub.context.client_registry.get "com..a" == some 0) (by decide +kernel)
  have invalid : InvalidName "com..a" := by decide +kernel
  refine ⟨log, hub, run, beq_iff_eq.mp entry, invalid, ?_, ?_⟩
  · intro order pattern
    exact matches_of_invalid order pattern "com..a" invalid
  · intro red target_service
    exact (shortName_panics red "com..a" target_service).mpr (by decide +kernel)

end KrossbarHub
