import KrossbarBus.Hub.Panics
import KrossbarBus.Hub.ServiceFiles

namespace KrossbarHub

variable {env : Environment} {permissions : Permissions} {files : FileSystem} {dirs : List OsString}
  {client_service service_name target_service : String}

def FileSystem.serviceFile (files : FileSystem) (service_name : String) (dir : OsString) : Option File :=
  (files.resolve (joinPath dir (serviceFileName service_name))).bind Node.openFile

def JsonValue.Denotes (entry : JsonValue) (pattern : NamePattern) : Prop :=
  ∃ string, entry = .string string ∧ NamePattern.fromString string = .ok pattern

/-- The first directory in which the service file opens holds a JSON document with these incoming
    connections. -/
def IncomingConnections (env : Environment) (dirs : List OsString) (files : FileSystem)
    (service_name : String) (entries : List JsonValue) : Prop :=
  ∃ before dir rest file text json, dirs = before ++ dir :: rest ∧
    (∀ earlier ∈ before, files.serviceFile service_name earlier = none) ∧
    files.serviceFile service_name dir = some file ∧ file.contents = some text ∧
    env.parseJson text = some json ∧ json.index incomingConnsKey = .array entries

/-- The client is a tool of the privileged feature, or the service file of the target consists of
    patterns only and one of them takes the name of the client. -/
def ConnectionAllowed (env : Environment) (dirs : List OsString) (files : FileSystem)
    (client_service target_service : String) : Prop :=
  (env.privilegedServices = true ∧
    (client_service = monitorServiceName ∨ client_service = connectServiceName)) ∨
  ∃ entries, IncomingConnections env dirs files target_service entries ∧
    (∀ entry ∈ entries, ∃ pattern, entry.Denotes pattern) ∧ ¬ InvalidName client_service ∧
    ∃ entry ∈ entries, ∃ pattern, entry.Denotes pattern ∧ pattern.Splits client_service

theorem findServiceFile_eq (service_name : String) (dirs : List OsString) (files : FileSystem) :
    (findServiceFile service_name dirs files).1 = dirs.findSome? (files.serviceFile service_name) := by
  induction dirs with
  | nil => rfl
  | cons dir rest ih =>
    rw [findServiceFile_cons, List.findSome?_cons]
    unfold FileSystem.serviceFile at ih ⊢
    cases (files.resolve (joinPath dir (serviceFileName service_name))).bind Node.openFile with
    | none => exact ih
    | some file => rfl

theorem hasKey_of_index {json : JsonValue} {key : String} {entries : List JsonValue}
    (found : json.index key = .array entries) : json.hasKey key = true := by
  cases json with
  | object members =>
    simp only [JsonValue.index] at found
    cases search : members.find? (·.1 == key) with
    | none => simp [search] at found
    | some entry =>
      have matched := List.find?_some search
      exact List.any_eq_true.mpr ⟨entry, List.mem_of_find?_eq_some search, matched⟩
  | _ => cases found

theorem JsonValue.isArray_iff {json : JsonValue} :
    json.isArray = true ↔ json = .array json.members := by
  cases json <;> simp [JsonValue.isArray, JsonValue.members]

theorem parseServiceFileJson_iff {json : JsonValue} :
    (permissions.parseServiceFileJson env service_name files).1 = .ok json ↔
      ∃ file text, permissions.service_files_dirs.findSome? (files.serviceFile service_name) = some file ∧
        file.contents = some text ∧ env.parseJson text = some json := by
  simp only [Permissions.parseServiceFileJson, Access.bind_apply, findServiceFile_eq]
  cases permissions.service_files_dirs.findSome? (files.serviceFile service_name) with
  | none => simp
  | some file =>
    cases read : file.contents with
    | none => simp [read]
    | some text =>
      cases parsed : env.parseJson text with
      | none => simp [read, parsed]
      | some value => simp [read, parsed]

theorem incomingConnections_iff {entries : List JsonValue} :
    IncomingConnections env permissions.service_files_dirs files service_name entries ↔
      ∃ json, (permissions.parseServiceFileJson env service_name files).1 = .ok json ∧
        json.index incomingConnsKey = .array entries := by
  simp only [parseServiceFileJson_iff, List.findSome?_eq_some_iff]
  constructor
  · rintro ⟨before, dir, rest, file, text, json, split, unopened, opened, read, parsed, listed⟩
    exact ⟨json, ⟨file, text, ⟨before, dir, rest, split, opened, unopened⟩, read, parsed⟩, listed⟩
  · rintro ⟨json, ⟨file, text, ⟨before, dir, rest, split, opened, unopened⟩, read, parsed⟩, listed⟩
    exact ⟨before, dir, rest, file, text, json, split, unopened, opened, read, parsed, listed⟩

theorem connectionPatterns_cons {entry : JsonValue} {rest : List JsonValue} {patterns : List NamePattern} :
    connectionPatterns (entry :: rest) = .ok patterns ↔ ∃ pattern others, entry.Denotes pattern ∧
      connectionPatterns rest = .ok others ∧ patterns = pattern :: others := by
  unfold JsonValue.Denotes
  simp only [connectionPatterns]
  cases entry with
  | string value =>
    simp only [JsonValue.asStr]
    cases parsed : NamePattern.fromString value with
    | error e => simp [parsed]
    | ok pattern =>
      cases continued : connectionPatterns rest with
      | error e => simp
      | ok others => simp [parsed, eq_comm]
  | _ => simp [JsonValue.asStr]

/-- One bad entry fails the whole list, wherever it stands. -/
theorem connectionPatterns_ok {entries : List JsonValue} {patterns : List NamePattern} :
    connectionPatterns entries = .ok patterns ↔ List.Forall₂ JsonValue.Denotes entries patterns := by
  induction entries generalizing patterns with
  | nil =>
    constructor
    · intro done
      cases done
      exact .nil
    · intro matched
      cases matched
      rfl
  | cons entry rest ih =>
    rw [connectionPatterns_cons]
    constructor
    · rintro ⟨pattern, others, denotes, continued, rfl⟩
      exact .cons denotes (ih.mp continued)
    · intro matched
      cases matched with
      | cons denotes others => exact ⟨_, _, denotes, ih.mpr others, rfl⟩

theorem readAllowedConnections_iff {patterns : List NamePattern} :
    (permissions.readAllowedConnections env service_name files).1 = .ok patterns ↔
      ∃ entries, IncomingConnections env permissions.service_files_dirs files service_name entries ∧
        List.Forall₂ JsonValue.Denotes entries patterns := by
  simp only [incomingConnections_iff, Permissions.readAllowedConnections, Access.bind_apply]
  cases (permissions.parseServiceFileJson env service_name files).1 with
  | error e => simp
  | ok json =>
    simp only [Except.ok.injEq, exists_eq_left']
    split
    · rename_i keyless
      constructor
      · intro failed
        cases failed
      · rintro ⟨entries, listed, _⟩
        simp [hasKey_of_index listed] at keyless
    · split
      · rename_i other
        constructor
        · intro failed
          cases failed
        · rintro ⟨entries, listed, _⟩
          simp [listed, JsonValue.isArray] at other
      · rename_i array
        have listed : json.index incomingConnsKey = .array (json.index incomingConnsKey).members :=
          JsonValue.isArray_iff.mp (by simpa using array)
        rw [Access.pure_apply, connectionPatterns_ok]
        constructor
        · intro denoted
          exact ⟨_, listed, denoted⟩
        · rintro ⟨entries, same, denoted⟩
          rw [same]
          exact denoted

theorem anyPatternMatches_iff {order : HashOrder} {patterns : List NamePattern} :
    anyPatternMatches order client_service patterns = some true ↔
      ¬ InvalidName client_service ∧ ∃ pattern ∈ patterns, pattern.Splits client_service := by
  induction patterns with
  | nil => simp [anyPatternMatches]
  | cons pattern rest ih =>
    rcases anyPatternMatches_cons order client_service pattern rest with
      ⟨invalid, decided⟩ | ⟨valid, splits, decided⟩ | ⟨valid, unsplit, goesOn⟩
    · simp [decided, invalid]
    · simp [decided, valid, splits]
    · rw [goesOn, ih]
      simp [unsplit]

theorem isPrivilegedService_iff : Permissions.isPrivilegedService env client_service = true ↔
    env.privilegedServices = true ∧
      (client_service = monitorServiceName ∨ client_service = connectServiceName) := by
  simp [Permissions.isPrivilegedService]

theorem forall₂_denotes {entries : List JsonValue} {patterns : List NamePattern}
    (denoted : List.Forall₂ JsonValue.Denotes entries patterns) :
    (∀ entry ∈ entries, ∃ pattern ∈ patterns, entry.Denotes pattern) ∧
      ∀ pattern ∈ patterns, ∃ entry ∈ entries, entry.Denotes pattern := by
  induction denoted with
  | nil => simp
  | cons denotes _ ih =>
    constructor
    · rintro entry (_ | ⟨_, member⟩)
      · exact ⟨_, List.mem_cons_self, denotes⟩
      · obtain ⟨pattern, there, others⟩ := ih.1 entry member
        exact ⟨pattern, List.mem_cons_of_mem _ there, others⟩
    · rintro pattern (_ | ⟨_, member⟩)
      · exact ⟨_, List.mem_cons_self, denotes⟩
      · obtain ⟨entry, there, others⟩ := ih.2 pattern member
        exact ⟨entry, List.mem_cons_of_mem _ there, others⟩

theorem exists_denoted {entries : List JsonValue}
    (each : ∀ entry ∈ entries, ∃ pattern, entry.Denotes pattern) :
    ∃ patterns, List.Forall₂ JsonValue.Denotes entries patterns := by
  induction entries with
  | nil => exact ⟨[], .nil⟩
  | cons entry rest ih =>
    obtain ⟨pattern, denotes⟩ := each entry List.mem_cons_self
    obtain ⟨patterns, others⟩ := ih fun other member => each other (List.mem_cons_of_mem entry member)
    exact ⟨pattern :: patterns, .cons denotes others⟩

theorem JsonValue.Denotes.unique {entry : JsonValue} {pattern other : NamePattern}
    (denotes : entry.Denotes pattern) (again : entry.Denotes other) : pattern = other := by
  obtain ⟨string, rfl, parsed⟩ := denotes
  obtain ⟨_, same, reparsed⟩ := again
  cases same
  rw [parsed] at reparsed
  exact Except.ok.inj reparsed

theorem checkConnectionAllowed_iff :
    (permissions.checkConnectionAllowed env client_service target_service files).1 = some true ↔
      ConnectionAllowed env permissions.service_files_dirs files client_service target_service := by
  unfold ConnectionAllowed
  rw [← isPrivilegedService_iff]
  by_cases privileged : Permissions.isPrivilegedService env client_service = true
  · simp [Permissions.checkConnectionAllowed, privileged]
  · have patterned : (permissions.checkConnectionAllowed env client_service target_service files).1 =
        some true ↔ ∃ patterns, (permissions.readAllowedConnections env target_service files).1 = .ok patterns ∧
          anyPatternMatches env.order client_service patterns = some true := by
      simp only [Permissions.checkConnectionAllowed, privileged, Bool.false_eq_true, ↓reduceIte,
        Access.bind_apply]
      cases read : (permissions.readAllowedConnections env target_service files).1 with
      | error e => simp
      | ok patterns => simp
    rw [patterned, or_iff_right privileged]
    simp only [readAllowedConnections_iff, anyPatternMatches_iff]
    constructor
    · rintro ⟨patterns, ⟨entries, listed, denoted⟩, valid, pattern, member, splits⟩
      obtain ⟨each, every⟩ := forall₂_denotes denoted
      obtain ⟨entry, there, denotes⟩ := every pattern member
      refine ⟨entries, listed, ?_, valid, entry, there, pattern, denotes, splits⟩
      intro other member
      obtain ⟨found, _, denotes⟩ := each other member
      exact ⟨found, denotes⟩
    · rintro ⟨entries, listed, each, valid, entry, there, pattern, denotes, splits⟩
      obtain ⟨patterns, denoted⟩ := exists_denoted each
      obtain ⟨found, member, again⟩ := (forall₂_denotes denoted).1 entry there
      rw [again.unique denotes] at member
      exact ⟨patterns, ⟨entries, listed, denoted⟩, valid, pattern, member, splits⟩

theorem IncomingConnections.unique {entries others : List JsonValue}
    (listed : IncomingConnections env dirs files service_name entries)
    (again : IncomingConnections env dirs files service_name others) : entries = others := by
  have read : IncomingConnections env (Permissions.mk dirs).service_files_dirs files service_name entries := listed
  have reread : IncomingConnections env (Permissions.mk dirs).service_files_dirs files service_name others := again
  obtain ⟨json, parsed, array⟩ := incomingConnections_iff.mp read
  obtain ⟨other, reparsed, same⟩ := incomingConnections_iff.mp reread
  rw [parsed] at reparsed
  cases reparsed
  rw [array] at same
  exact JsonValue.array.inj same

theorem connectionAllowed_entries {entries others : List JsonValue} {other : FileSystem}
    (listed : IncomingConnections env dirs files target_service entries)
    (again : IncomingConnections env dirs other target_service others)
    (same : ∀ entry, entry ∈ entries ↔ entry ∈ others)
    (allowed : ConnectionAllowed env dirs files client_service target_service) :
    ConnectionAllowed env dirs other client_service target_service := by
  rcases allowed with privileged | ⟨found, there, each, valid, entry, member, matched⟩
  · exact .inl privileged
  · cases listed.unique there
    refine .inr ⟨others, again, ?_, valid, entry, (same entry).mp member, matched⟩
    exact fun entry member => each entry ((same entry).mpr member)

/-- `check_connection_allowed` decides `ConnectionAllowed`: it fails closed, and the answer depends
    on the entries as a set only. -/
theorem connection_check_decides (env : Environment) (additional_service_dirs : List OsString)
    (files : FileSystem) (client_service target_service : String) :
    let permissions := Permissions.new additional_service_dirs
    let dirs := osString defaultServiceFilesDir :: additional_service_dirs
    ((permissions.checkConnectionAllowed env client_service target_service files).1 = some true ↔
      ConnectionAllowed env dirs files client_service target_service) ∧
    ((permissions.checkConnectionAllowed env client_service target_service files).1 = some false ↔
      ¬ ConnectionAllowed env dirs files client_service target_service) ∧
    ∀ other entries others, IncomingConnections env dirs files target_service entries →
      IncomingConnections env dirs other target_service others →
      (∀ entry, entry ∈ entries ↔ entry ∈ others) →
      (permissions.checkConnectionAllowed env client_service target_service other).1 =
        (permissions.checkConnectionAllowed env client_service target_service files).1 := by
  have accepts : ∀ files, ((Permissions.new additional_service_dirs).checkConnectionAllowed env client_service
      target_service files).1 = some true ↔ ConnectionAllowed env
      (osString defaultServiceFilesDir :: additional_service_dirs) files client_service target_service :=
    fun _ => checkConnectionAllowed_iff
  have denies : ∀ files, ((Permissions.new additional_service_dirs).checkConnectionAllowed env client_service
      target_service files).1 = some false ↔ ¬ ConnectionAllowed env
      (osString defaultServiceFilesDir :: additional_service_dirs) files client_service target_service := by
    intro files
    rw [← accepts]
    cases answer : ((Permissions.new additional_service_dirs).checkConnectionAllowed env client_service
      target_service files).1 with
    | none => exact absurd answer checkConnectionAllowed_total
    | some allowed => cases allowed <;> simp
  refine ⟨accepts files, denies files, ?_⟩
  intro other entries others listed again same
  have unchanged : ConnectionAllowed env (osString defaultServiceFilesDir :: additional_service_dirs) other
      client_service target_service ↔ ConnectionAllowed env
      (osString defaultServiceFilesDir :: additional_service_dirs) files client_service target_service :=
    ⟨connectionAllowed_entries again listed fun entry => (same entry).symm,
      connectionAllowed_entries listed again same⟩
  by_cases allowed : ConnectionAllowed env (osString defaultServiceFilesDir :: additional_service_dirs) files
    client_service target_service
  · rw [(accepts files).mpr allowed, (accepts other).mpr (unchanged.mpr allowed)]
  · rw [(denies files).mpr allowed, (denies other).mpr fun allows => allowed (unchanged.mp allows)]

end KrossbarHub
