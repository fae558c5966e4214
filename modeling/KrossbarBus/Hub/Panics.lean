import KrossbarBus.Hub.NameMatching
import KrossbarBus.Hub.Ownership

namespace KrossbarHub

variable {env : HubEnvironment} {hub : Hub} {conn : Conn} {task : Task} {input : Input} {files : FileSystem}

def exeLink (pid : Int) : OsString := osString ("/proc/" ++ toString pid ++ "/exe")

/-- The executable of the peer is reached through a link that is no text. -/
def UnreadableExe (files : FileSystem) (credentials : UCred) : Prop :=
  ∃ pid link, credentials.pid = some pid ∧ files.links (exeLink pid) = some link ∧ toStr link = none

theorem checkServiceNameAllowed_panics {environment : Environment} {permissions : Permissions}
    {credentials : UCred} {service_name : String} :
    (permissions.checkServiceNameAllowed environment credentials service_name files).1 = none ↔
      UnreadableExe files credentials := by
  unfold Permissions.checkServiceNameAllowed UnreadableExe
  cases identified : credentials.pid with
  | none => simp
  | some pid =>
    have read : (Access.readLink (osString ("/proc/" ++ toString pid ++ "/exe")) files).1 =
        files.links (exeLink pid) := rfl
    simp only [Access.bind_apply, read]
    cases linked : files.links (exeLink pid) with
    | none => simp [linked]
    | some link =>
      cases text : toStr link with
      | none => simp [linked, text]
      | some service_exec =>
        cases execs : (permissions.readAllowedExecs environment service_name files).1 with
        | error e => simp [linked, text, execs]
        | ok glob => simp [linked, text, execs]

/-- The first pattern decides, unless it does not match a valid name. -/
theorem anyPatternMatches_cons (order : HashOrder) (client_service : String) (pattern : NamePattern)
    (rest : List NamePattern) :
    InvalidName client_service ∧ anyPatternMatches order client_service (pattern :: rest) = some false ∨
    ¬ InvalidName client_service ∧ pattern.Splits client_service ∧
      anyPatternMatches order client_service (pattern :: rest) = some true ∨
    ¬ InvalidName client_service ∧ ¬ pattern.Splits client_service ∧
      anyPatternMatches order client_service (pattern :: rest) = anyPatternMatches order client_service rest := by
  by_cases invalid : InvalidName client_service
  · obtain ⟨e, failed⟩ := matches_of_invalid order pattern client_service invalid
    exact .inl ⟨invalid, by simp [anyPatternMatches, failed]⟩
  · obtain ⟨answer, matched, splits⟩ := matches_of_valid order pattern client_service invalid
    cases answer with
    | true => exact .inr (.inl ⟨invalid, splits.mp rfl, by simp [anyPatternMatches, matched]⟩)
    | false =>
      have unsplit : ¬ pattern.Splits client_service := fun split => by cases splits.mpr split
      exact .inr (.inr ⟨invalid, unsplit, by simp [anyPatternMatches, matched]⟩)

theorem anyPatternMatches_total (order : HashOrder) (client_service : String) (patterns : List NamePattern) :
    anyPatternMatches order client_service patterns ≠ none := by
  induction patterns with
  | nil => simp [anyPatternMatches]
  | cons pattern rest ih =>
    rcases anyPatternMatches_cons order client_service pattern rest with
      ⟨_, decided⟩ | ⟨_, _, decided⟩ | ⟨_, _, goesOn⟩
    · simp [decided]
    · simp [decided]
    · rw [goesOn]
      exact ih

theorem checkConnectionAllowed_total {environment : Environment} {permissions : Permissions}
    {client_service target_service : String} :
    (permissions.checkConnectionAllowed environment client_service target_service files).1 ≠ none := by
  unfold Permissions.checkConnectionAllowed
  split
  · simp
  · cases read : (permissions.readAllowedConnections environment target_service files).1 with
    | error e => simp [read]
    | ok patterns => simpa [read] using anyPatternMatches_total environment.order client_service patterns

/-- The task checks the executable of its peer for a name that is free, and the link is no text. -/
def Hub.ChecksUnreadable (hub : Hub) (conn : Conn) (input : Input) : Prop :=
  input = .locked ∧ ∃ task service_name request, hub.tasks.get conn = some task ∧
    task.phase = .registerLock service_name request ∧
    hub.context.client_registry.get service_name = none ∧ UnreadableExe hub.files task.credentials

theorem handleAuthRequest_panics {credentials : UCred} {service_name : String} {request : RpcRequest} :
    handleAuthRequest env hub conn credentials service_name request = none ↔
      hub.context.client_registry.get service_name = none ∧ UnreadableExe hub.files credentials := by
  have readable : (hub.context.permissions.checkServiceNameAllowed env.toEnvironment credentials service_name
      hub.files).1 = none ↔ UnreadableExe hub.files credentials := checkServiceNameAllowed_panics
  unfold handleAuthRequest
  rw [← readable]
  split
  · rename_i taken
    simp only [Table.containsKey, Option.isSome_iff_ne_none] at taken
    simp [taken]
  · rename_i untaken
    have absent : hub.context.client_registry.get service_name = none := by
      simpa [Table.containsKey] using untaken
    split
    · rename_i panics
      simp [absent, panics]
    · rename_i denied
      simp [denied]
    · rename_i allowed
      simp [allowed]

theorem handleConnectionRequest_total {service_name target : String} {request : RpcRequest} {wait : Bool} :
    handleConnectionRequest env hub service_name target request wait ≠ none := by
  unfold handleConnectionRequest
  split
  · rename_i panics
    exact absurd panics checkConnectionAllowed_total
  · simp
  · split
    · simp
    · split
      · simp
      · split <;> simp

theorem resume_panics (present : hub.tasks.get conn = some task) :
    resume env hub conn task input = some none ↔ hub.lock = none ∧ hub.ChecksUnreadable conn input := by
  have found : ∀ {service_name request}, task.phase = .registerLock service_name request →
      (hub.ChecksUnreadable conn .locked ↔ hub.context.client_registry.get service_name = none ∧
        UnreadableExe hub.files task.credentials) := by
    intro service_name request was
    constructor
    · rintro ⟨_, same, name, other, there, registers, absent, unreadable⟩
      rw [present] at there
      cases there
      rw [was] at registers
      cases registers
      exact ⟨absent, unreadable⟩
    · rintro ⟨absent, unreadable⟩
      exact ⟨rfl, task, service_name, request, present, was, absent, unreadable⟩
  have elsewhere : (∀ service_name request, task.phase ≠ .registerLock service_name request) →
      ¬ hub.ChecksUnreadable conn .locked := by
    rintro different ⟨_, same, name, other, there, registers, _⟩
    rw [present] at there
    cases there
    exact different name other registers
  cases input with
  | polled message =>
    have unlocked : ¬ hub.ChecksUnreadable conn (.polled message) := by simp [Hub.ChecksUnreadable]
    cases message with
    | none =>
      simp only [resume, unlocked, and_false, iff_false]
      split <;> simp
    | some message =>
      simp only [resume, unlocked, and_false, iff_false]
      split
      · split <;> simp
      · split <;> simp
      · simp
  | sent ok =>
    have unlocked : ¬ hub.ChecksUnreadable conn (.sent ok) := by simp [Hub.ChecksUnreadable]
    simp only [resume, unlocked, and_false, iff_false]
    split <;> simp
  | elapsed =>
    have unlocked : ¬ hub.ChecksUnreadable conn .elapsed := by simp [Hub.ChecksUnreadable]
    simp only [resume, unlocked, and_false, iff_false]
    split <;> simp
  | locked =>
    simp only [resume]
    split
    · rename_i held
      simp [held]
    · rename_i unheld
      rw [not_not.mp unheld]
      split
      · rename_i service_name request was
        rw [found was, Option.some_inj, handleAuthRequest_panics]
        simp
      · rename_i service_name was
        simp [elsewhere (by simp [was])]
      · rename_i service_name target request wait was
        rw [Option.some_inj]
        simp [elsewhere (by simp [was]), handleConnectionRequest_total]
      · rename_i other _ _
        simp [elsewhere other]

end KrossbarHub
