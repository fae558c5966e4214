import KrossbarBus.Hub.ConnectionChecks
import KrossbarBus.Hub.Withdrawals

namespace KrossbarHub

variable {environment : Environment} {env : HubEnvironment} {permissions : Permissions} {files other : FileSystem}
  {dirs additional_service_dirs : List OsString} {credentials : UCred} {service_name : String} {hub after : Hub}
  {action : Action} {log out : List Event} {conn : Conn} {task : Task} {request : RpcRequest}

/-- The first directory in which the service file opens holds a JSON document whose `exec` is this glob. -/
def AllowedExecs (env : Environment) (dirs : List OsString) (files : FileSystem) (service_name : String)
    (glob : Glob) : Prop :=
  ∃ file text json allowed_execs, dirs.findSome? (files.serviceFile service_name) = some file ∧
    file.contents = some text ∧ env.parseJson text = some json ∧
    json.index allowedExecsKey = .string allowed_execs ∧ env.parseGlob allowed_execs = some glob

/-- The executable of the peer is known as a text, and the glob of the service takes it. -/
def RegistrationAllowed (env : Environment) (dirs : List OsString) (files : FileSystem) (credentials : UCred)
    (service_name : String) : Prop :=
  ∃ pid link service_exec glob, credentials.pid = some pid ∧ files.links (exeLink pid) = some link ∧
    toStr link = some service_exec ∧ AllowedExecs env dirs files service_name glob ∧ glob service_exec = true

theorem hasKey_of_string {json : JsonValue} {key value : String} (found : json.index key = .string value) :
    json.hasKey key = true := by
  cases json with
  | object members =>
    simp only [JsonValue.index] at found
    cases search : members.find? (·.1 == key) with
    | none => simp [search] at found
    | some entry =>
      have matched := List.find?_some search
      exact List.any_eq_true.mpr ⟨entry, List.mem_of_find?_eq_some search, matched⟩
  | _ => cases found

theorem asStr_iff {json : JsonValue} {value : String} : json.asStr = some value ↔ json = .string value := by
  cases json <;> simp [JsonValue.asStr]

theorem readAllowedExecs_iff {glob : Glob} :
    (permissions.readAllowedExecs environment service_name files).1 = .ok glob ↔
      AllowedExecs environment permissions.service_files_dirs files service_name glob := by
  have parsed : ∀ json, (permissions.parseServiceFileJson environment service_name files).1 = .ok json ↔ _ :=
    fun json => parseServiceFileJson_iff
  constructor
  · intro read
    simp only [Permissions.readAllowedExecs, Access.bind_apply] at read
    cases document : (permissions.parseServiceFileJson environment service_name files).1 with
    | error e =>
      rw [document] at read
      cases read
    | ok json =>
      obtain ⟨file, text, found, contents, parses⟩ := (parsed json).mp document
      simp only [document] at read
      cases keyed : json.hasKey allowedExecsKey with
      | false => simp [keyed] at read
      | true =>
        cases entry : (json.index allowedExecsKey).asStr with
        | none => simp [keyed, entry] at read
        | some allowed_execs =>
          cases globs : environment.parseGlob allowed_execs with
          | none => simp [keyed, entry, globs] at read
          | some compiled =>
            have same : compiled = glob := by simpa [keyed, entry, globs] using read
            subst same
            exact ⟨file, text, json, allowed_execs, found, contents, parses, asStr_iff.mp entry, globs⟩
  · rintro ⟨file, text, json, allowed_execs, found, contents, parses, entry, globs⟩
    have document := (parsed json).mpr ⟨file, text, found, contents, parses⟩
    simp only [Permissions.readAllowedExecs, Access.bind_apply, document]
    simp [hasKey_of_string entry, entry, JsonValue.asStr, globs]

theorem checkServiceNameAllowed_iff :
    (permissions.checkServiceNameAllowed environment credentials service_name files).1 = some true ↔
      RegistrationAllowed environment permissions.service_files_dirs files credentials service_name := by
  unfold Permissions.checkServiceNameAllowed RegistrationAllowed
  cases identified : credentials.pid with
  | none => simp
  | some pid =>
    have read : (Access.readLink (osString ("/proc/" ++ toString pid ++ "/exe")) files).1 =
        files.links (exeLink pid) := rfl
    simp only [Access.bind_apply, read]
    cases linked : files.links (exeLink pid) with
    | none => simp [linked]
    | some link =>
      cases text : toStr link with
      | none => simp [linked, text]
      | some service_exec =>
        cases execs : (permissions.readAllowedExecs environment service_name files).1 with
        | error e =>
          have nothing : ∀ glob, ¬ AllowedExecs environment permissions.service_files_dirs files service_name glob := by
            intro glob allowed
            rw [readAllowedExecs_iff.mpr allowed] at execs
            cases execs
          simp [text, execs, nothing]
        | ok glob =>
          have only : ∀ found, AllowedExecs environment permissions.service_files_dirs files service_name found ↔
              glob = found := by
            intro found
            rw [← readAllowedExecs_iff, execs]
            exact ⟨Except.ok.inj, fun same => by rw [same]⟩
          simp [linked, text, execs, only]

/-- Of the file system the check sees the link of the peer and the first service file that opens. What stands in
    the directories behind it is shadowed. -/
theorem RegistrationAllowed.frame (links : ∀ pid, credentials.pid = some pid →
      other.links (exeLink pid) = files.links (exeLink pid))
    (found : dirs.findSome? (other.serviceFile service_name) = dirs.findSome? (files.serviceFile service_name))
    (allowed : RegistrationAllowed environment dirs files credentials service_name) :
    RegistrationAllowed environment dirs other credentials service_name := by
  obtain ⟨pid, link, service_exec, glob, identified, linked, text, execs, takes⟩ := allowed
  refine ⟨pid, link, service_exec, glob, identified, ?_, text, ?_, takes⟩
  · rw [links pid identified, linked]
  · unfold AllowedExecs
    rw [found]
    exact execs

theorem RegistrationAllowed.readable (allowed : RegistrationAllowed environment dirs files credentials service_name) :
    ¬ UnreadableExe files credentials := by
  intro ⟨pid, link, identified, linked, unreadable⟩
  obtain ⟨_, _, _, _, same, found, text, _⟩ := allowed
  rw [identified] at same
  cases same
  rw [linked] at found
  cases found
  rw [unreadable] at text
  cases text

theorem run_permissions {start : Hub} {allowed : Hub → Action → Prop}
    (run : Transition.RunWith (step env) allowed start log hub) :
    hub.context.permissions = start.context.permissions := by
  induction run with
  | start => rfl
  | next _ _ taken ih =>
    cases step_cases taken with
    | resumed conn task input progress selecting present resumes =>
      rw [advance_context, resumes.permissions]
      exact ih
    | _ => exact ih

/-- The ways in which `handle_auth_request` ends. -/
inductive Decided (env : HubEnvironment) (dirs : List OsString) (hub : Hub) (conn : Conn) (credentials : UCred)
    (service_name : String) (request : RpcRequest) (after : Hub) : List Event → Prop
  | taken (owner : Conn) (entry : hub.context.client_registry.get service_name = some owner)
      (same : after.context = hub.context) :
      Decided env dirs hub conn credentials service_name request after [.responded request (.err .alreadyRegistered)]
  | admitted (free : hub.context.client_registry.get service_name = none)
      (allowed : RegistrationAllowed env.toEnvironment dirs hub.files credentials service_name)
      (registry : after.context.client_registry = hub.context.client_registry.insert service_name conn) :
      Decided env dirs hub conn credentials service_name request after
        [.nameChecked conn credentials service_name true, .registered service_name conn, .responded request .ok]
  | refused (free : hub.context.client_registry.get service_name = none)
      (denied : ¬ RegistrationAllowed env.toEnvironment dirs hub.files credentials service_name)
      (readable : ¬ UnreadableExe hub.files credentials) (same : after.context = hub.context) :
      Decided env dirs hub conn credentials service_name request after
        [.nameChecked conn credentials service_name false, .responded request (.err .notAllowed)]
  | crashed (free : hub.context.client_registry.get service_name = none)
      (unreadable : UnreadableExe hub.files credentials) (main : after.main = .crashed) :
      Decided env dirs hub conn credentials service_name request after []

theorem handleAuthRequest_decided (env : HubEnvironment) (hub : Hub) (own : request.writer = conn)
    (permissions : hub.context.permissions.service_files_dirs = dirs) :
    handleAuthRequest env hub conn credentials service_name request = none ∧
        hub.context.client_registry.get service_name = none ∧ UnreadableExe hub.files credentials ∨
      ∃ progress, handleAuthRequest env hub conn credentials service_name request = some progress ∧
        ∀ after : Hub, after.context = progress.context →
          Decided env dirs hub conn credentials service_name request after progress.events := by
  unfold handleAuthRequest
  cases entry : hub.context.client_registry.get service_name with
  | some owner =>
    have known : hub.context.client_registry.containsKey service_name = true := by simp [Table.containsKey, entry]
    rw [if_pos known]
    exact .inr ⟨_, rfl, fun after same => .taken owner entry same⟩
  | none =>
    have unknown : ¬ hub.context.client_registry.containsKey service_name = true := by simp [Table.containsKey, entry]
    rw [if_neg unknown]
    cases answer : (hub.context.permissions.checkServiceNameAllowed env.toEnvironment credentials service_name
        hub.files).1 with
    | none => exact .inl ⟨rfl, rfl, checkServiceNameAllowed_panics.mp answer⟩
    | some allowed =>
      cases allowed with
      | true =>
        have admitted := checkServiceNameAllowed_iff.mp answer
        rw [permissions] at admitted
        refine .inr ⟨_, rfl, fun after same => ?_⟩
        rw [own]
        exact .admitted entry admitted (by rw [same, own])
      | false =>
        refine .inr ⟨_, rfl, fun after same => .refused entry ?_ ?_ same⟩
        · intro admitted
          rw [← permissions] at admitted
          rw [checkServiceNameAllowed_iff.mpr admitted] at answer
          cases answer
        · intro unreadable
          rw [checkServiceNameAllowed_panics.mpr unreadable] at answer
          cases answer

def Phase.registering : Phase → Option String
  | .registerLock service_name _ => some service_name
  | _ => none

theorem registering_some {phase : Phase} (asks : phase.registering = some service_name) :
    ∃ request, phase = .registerLock service_name request := by
  cases phase with
  | registerLock name request =>
    cases asks
    exact ⟨request, rfl⟩
  | _ => cases asks

/-- A registration is decided, under the lock and by the files of that moment, by the executable of the peer and
    the first service file that opens; nothing else on the disk has a say in it. -/
theorem registrations_decided (run : Run env additional_service_dirs files log hub)
    (selecting : hub.main = .selecting) (free : hub.lock = none) (present : hub.tasks.get conn = some task)
    (registering : task.phase = .registerLock service_name request) :
    (∃ after out, step env hub (.task conn .locked) = some (after, out) ∧
      Decided env (osString defaultServiceFilesDir :: additional_service_dirs) hub conn task.credentials service_name
        request after out) ∧
    ∀ other : FileSystem,
      (∀ pid, task.credentials.pid = some pid → other.links (exeLink pid) = hub.files.links (exeLink pid)) →
      (osString defaultServiceFilesDir :: additional_service_dirs).findSome? (other.serviceFile service_name) =
        (osString defaultServiceFilesDir :: additional_service_dirs).findSome? (hub.files.serviceFile service_name) →
      (RegistrationAllowed env.toEnvironment (osString defaultServiceFilesDir :: additional_service_dirs) other
          task.credentials service_name ↔
        RegistrationAllowed env.toEnvironment (osString defaultServiceFilesDir :: additional_service_dirs) hub.files
          task.credentials service_name) := by
  constructor
  · have own : request.writer = conn := (run_consistent run).own conn task request present (by rw [registering]; rfl)
    have permissions := congrArg Permissions.service_files_dirs (run_permissions run)
    have resumed : resume env hub conn task .locked =
        some (handleAuthRequest env hub conn task.credentials service_name request) := by
      simp [resume, free, registering]
    rcases handleAuthRequest_decided env hub own permissions with
      ⟨panics, absent, unreadable⟩ | ⟨progress, ends, decided⟩
    · refine ⟨{ hub with main := .crashed }, [], ?_, .crashed absent unreadable rfl⟩
      simp [step, selecting, present, resumed, panics]
    · refine ⟨hub.advance conn task progress, progress.events, ?_, decided _ (advance_context ..)⟩
      simp [step, selecting, present, resumed, ends]
  · intro other links found
    constructor
    · exact RegistrationAllowed.frame (fun pid identified => (links pid identified).symm) found.symm
    · exact RegistrationAllowed.frame links found

theorem registrations_decided_admitted : ∃ log hub request,
    Run openEnvironment [] (openFiles ["com.a"]) log hub ∧
      ∃ after out, step openEnvironment hub (.task 0 .locked) = some (after, out) ∧
        Decided openEnvironment [osString defaultServiceFilesDir] hub 0 ⟨some 7⟩ "com.a" request after out := by
  obtain ⟨log, hub, run, there⟩ := Transition.exists_run_of_execute (step openEnvironment)
    (Hub.new [] (openFiles ["com.a"])) ((registering 0 "com.a").take 2)
    (fun _ hub => hub.main = .selecting ∧ hub.lock = none ∧ (hub.tasks.get 0).any fun task =>
      task.credentials = ⟨some 7⟩ ∧ task.phase.registering = some "com.a") (by decide +kernel)
  obtain ⟨selecting, free, asks⟩ := of_decide_eq_true there
  rw [Option.any_eq_true] at asks
  obtain ⟨⟨credentials, phase⟩, present, same⟩ := asks
  obtain ⟨same, asked⟩ := of_decide_eq_true same
  dsimp only at same asked
  subst same
  obtain ⟨request, rfl⟩ := registering_some asked
  exact ⟨log, hub, request, run, (registrations_decided run selecting free present rfl).1⟩

end KrossbarHub
