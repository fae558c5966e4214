import KrossbarBus.Hub.PathComponents
import KrossbarBus.Hub.Permissions

namespace KrossbarHub

def LocatedIn (dir : OsString) (service_name : String) (path : OsString) : Prop :=
  components path = components dir ++ [.normal (serviceFileName service_name)]

def Backed (permissions : Permissions) (files : FileSystem) (service_name : String) : Prop :=
  ∃ dir ∈ permissions.service_files_dirs, ∃ inode node, files.resolve dir = some (.directory inode) ∧
    files.entry inode (serviceFileName service_name) = some node ∧ node.openFile.isSome

/-- All files the permission checks touch for a name are its service files in the configured
    directories, and what the checks allow because of a file is allowed by one of these. -/
structure Contained (env : Environment) (permissions : Permissions) (files : FileSystem)
    (service_name : String) : Prop where
  opened : ∀ path ∈ (permissions.parseServiceFileJson env service_name files).2,
    ∃ dir ∈ permissions.service_files_dirs, LocatedIn dir service_name path
  tested : ∀ path ∈ (permissions.checkServiceExists service_name files).2,
    ∃ dir ∈ permissions.service_files_dirs, LocatedIn dir service_name path
  registration : ∀ user_credentials,
    (permissions.checkServiceNameAllowed env user_credentials service_name files).1 = some true →
      Backed permissions files service_name
  connection : ∀ client_service, ¬ Permissions.isPrivilegedService env client_service →
    (permissions.checkConnectionAllowed env client_service service_name files).1 = some true →
      Backed permissions files service_name

theorem serviceFileName_length (service_name : String) : 3 ≤ (serviceFileName service_name).length := by
  have suffix : (osString ".service").length = 8 := by decide
  simp only [serviceFileName, osString, String.toList_append, List.flatMap_append, List.length_append]
  simp only [osString] at suffix
  omega

theorem separator_mem_serviceFileName (service_name : String) :
    separator ∈ serviceFileName service_name ↔ '/' ∈ service_name.toList := by
  rw [serviceFileName, separator_mem_osString, String.toList_append, List.mem_append]
  simp

theorem located_join (dir : OsString) (service_name : String) (simple : '/' ∉ service_name.toList) :
    LocatedIn dir service_name (joinPath dir (serviceFileName service_name)) := by
  apply components_join
  · rw [separator_mem_serviceFileName]
    exact simple
  · exact serviceFileName_length service_name

theorem not_located (dir path : OsString) (service_name : String) (slash : '/' ∈ service_name.toList) :
    ¬ LocatedIn dir service_name path := by
  intro located
  have member : Component.normal (serviceFileName service_name) ∈ components path := by
    rw [located]
    simp
  exact separator_not_mem_normal _ _ member ((separator_mem_serviceFileName service_name).mpr slash)

theorem resolve_located (files : FileSystem) (dir path : OsString) (service_name : String) (node : Node)
    (located : LocatedIn dir service_name path) (resolved : files.resolve path = some node) :
    ∃ inode, files.resolve dir = some (.directory inode) ∧
      files.entry inode (serviceFileName service_name) = some node := by
  rw [FileSystem.resolve, located, FileSystem.walk_append, Option.bind_eq_some_iff] at resolved
  obtain ⟨parent, found, last⟩ := resolved
  cases parent with
  | directory inode =>
    refine ⟨inode, found, ?_⟩
    simp only [FileSystem.walk] at last
    split at last
    · cases last
    · rename_i entry present
      rw [present]
      exact last
  | file contents => simp [FileSystem.walk] at last
  | denied => simp [FileSystem.walk] at last

theorem findServiceFile_cons (service_name : String) (dir : OsString) (rest : List OsString)
    (files : FileSystem) :
    findServiceFile service_name (dir :: rest) files =
      match (files.resolve (joinPath dir (serviceFileName service_name))).bind Node.openFile with
      | some file => (some file, [joinPath dir (serviceFileName service_name)])
      | none => ((findServiceFile service_name rest files).1,
          joinPath dir (serviceFileName service_name) :: (findServiceFile service_name rest files).2) := by
  simp only [findServiceFile, Access.bind_apply, Access.openFile]
  cases (files.resolve (joinPath dir (serviceFileName service_name))).bind Node.openFile <;> rfl

theorem serviceFileExists_cons (service_name : String) (dir : OsString) (rest : List OsString)
    (files : FileSystem) :
    serviceFileExists service_name (dir :: rest) files =
      if (files.resolve (joinPath dir (serviceFileName service_name))).isSome then
        (true, [joinPath dir (serviceFileName service_name)])
      else ((serviceFileExists service_name rest files).1,
        joinPath dir (serviceFileName service_name) :: (serviceFileExists service_name rest files).2) := by
  simp only [serviceFileExists, Access.bind_apply, Access.pathExists]
  by_cases found : (files.resolve (joinPath dir (serviceFileName service_name))).isSome <;> simp [found]

/-- A search that tries the directories one after the other touches their service files only. -/
theorem searched_paths {search : List OsString → List OsString} {service_name : String} (none : search [] = [])
    (next : ∀ dir rest, ∀ path ∈ search (dir :: rest),
      path = joinPath dir (serviceFileName service_name) ∨ path ∈ search rest)
    (dirs : List OsString) (path : OsString) (member : path ∈ search dirs) :
    ∃ dir ∈ dirs, path = joinPath dir (serviceFileName service_name) := by
  induction dirs with
  | nil =>
    rw [none] at member
    cases member
  | cons dir rest ih =>
    rcases next dir rest path member with first | later
    · exact ⟨dir, by simp, first⟩
    · obtain ⟨other, otherMem, same⟩ := ih later
      exact ⟨other, List.mem_cons_of_mem _ otherMem, same⟩

theorem findServiceFile_paths (service_name : String) (dirs : List OsString) (files : FileSystem)
    (path : OsString) (member : path ∈ (findServiceFile service_name dirs files).2) :
    ∃ dir ∈ dirs, path = joinPath dir (serviceFileName service_name) := by
  apply @searched_paths (fun dirs => (findServiceFile service_name dirs files).2) service_name rfl _ dirs path member
  intro dir rest path member
  rw [findServiceFile_cons] at member
  split at member
  · exact .inl (List.mem_singleton.mp member)
  · exact List.mem_cons.mp member

theorem findServiceFile_found (service_name : String) (dirs : List OsString) (files : FileSystem)
    (file : File) (found : (findServiceFile service_name dirs files).1 = some file) :
    ∃ dir ∈ dirs, ∃ node, files.resolve (joinPath dir (serviceFileName service_name)) = some node ∧
      node.openFile = some file := by
  induction dirs with
  | nil => simp [findServiceFile] at found
  | cons dir rest ih =>
    rw [findServiceFile_cons] at found
    split at found
    · rename_i opened present
      obtain ⟨node, resolved, opens⟩ := Option.bind_eq_some_iff.mp present
      exact ⟨dir, by simp, node, resolved, opens.trans found⟩
    · obtain ⟨other, otherMem, node, resolved, opens⟩ := ih found
      exact ⟨other, List.mem_cons_of_mem _ otherMem, node, resolved, opens⟩

theorem serviceFileExists_paths (service_name : String) (dirs : List OsString) (files : FileSystem)
    (path : OsString) (member : path ∈ (serviceFileExists service_name dirs files).2) :
    ∃ dir ∈ dirs, path = joinPath dir (serviceFileName service_name) := by
  apply @searched_paths (fun dirs => (serviceFileExists service_name dirs files).2) service_name rfl _ dirs path member
  intro dir rest path member
  rw [serviceFileExists_cons] at member
  split at member
  · exact .inl (List.mem_singleton.mp member)
  · exact List.mem_cons.mp member

theorem serviceFileExists_first (service_name : String) (dir : OsString) (rest : List OsString)
    (files : FileSystem) :
    joinPath dir (serviceFileName service_name) ∈
      (serviceFileExists service_name (dir :: rest) files).2 := by
  simp [serviceFileExists, Access.pathExists]

namespace Permissions

variable {env : Environment} {permissions : Permissions} {files : FileSystem} {service_name : String}

theorem parseServiceFileJson_paths :
    (permissions.parseServiceFileJson env service_name files).2 =
      (findServiceFile service_name permissions.service_files_dirs files).2 := by
  simp only [parseServiceFileJson, Access.bind_apply]
  cases (findServiceFile service_name permissions.service_files_dirs files).1 with
  | none => simp
  | some file =>
    obtain ⟨contents⟩ := file
    cases contents with
    | none => simp
    | some text =>
      dsimp only
      cases env.parseJson text <;> simp

theorem parseServiceFileJson_ok {json : JsonValue}
    (parsed : (permissions.parseServiceFileJson env service_name files).1 = .ok json) :
    ∃ file, (findServiceFile service_name permissions.service_files_dirs files).1 = some file := by
  simp only [parseServiceFileJson, Access.bind_apply] at parsed
  cases found : (findServiceFile service_name permissions.service_files_dirs files).1 with
  | none =>
    rw [found] at parsed
    cases parsed
  | some file => exact ⟨file, rfl⟩

theorem readAllowedExecs_ok {glob : Glob}
    (allowed : (permissions.readAllowedExecs env service_name files).1 = .ok glob) :
    ∃ json, (permissions.parseServiceFileJson env service_name files).1 = .ok json := by
  simp only [readAllowedExecs, Access.bind_apply] at allowed
  cases parsed : (permissions.parseServiceFileJson env service_name files).1 with
  | error e =>
    rw [parsed] at allowed
    cases allowed
  | ok json => exact ⟨json, rfl⟩

theorem readAllowedConnections_ok {patterns : List NamePattern}
    (allowed : (permissions.readAllowedConnections env service_name files).1 = .ok patterns) :
    ∃ json, (permissions.parseServiceFileJson env service_name files).1 = .ok json := by
  simp only [readAllowedConnections, Access.bind_apply] at allowed
  cases parsed : (permissions.parseServiceFileJson env service_name files).1 with
  | error e =>
    rw [parsed] at allowed
    cases allowed
  | ok json => exact ⟨json, rfl⟩

theorem checkServiceNameAllowed_true {user_credentials : UCred}
    (allowed : (permissions.checkServiceNameAllowed env user_credentials service_name files).1 = some true) :
    ∃ glob, (permissions.readAllowedExecs env service_name files).1 = .ok glob := by
  unfold checkServiceNameAllowed at allowed
  cases execs : (permissions.readAllowedExecs env service_name files).1 with
  | ok glob => exact ⟨glob, rfl⟩
  | error e =>
    exfalso
    cases process : user_credentials.pid with
    | none =>
      rw [process] at allowed
      cases allowed
    | some pid =>
      rw [process] at allowed
      simp only [Access.bind_apply] at allowed
      cases link : (Access.readLink (osString ("/proc/" ++ toString pid ++ "/exe")) files).1 with
      | none =>
        rw [link] at allowed
        cases allowed
      | some buf =>
        rw [link] at allowed
        cases text : toStr buf with
        | none =>
          simp only [text] at allowed
          cases allowed
        | some service_exec =>
          simp only [text, Access.bind_apply, execs] at allowed
          cases allowed

theorem checkConnectionAllowed_true {client_service : String}
    (ordinary : ¬ isPrivilegedService env client_service)
    (allowed : (permissions.checkConnectionAllowed env client_service service_name files).1 = some true) :
    ∃ patterns, (permissions.readAllowedConnections env service_name files).1 = .ok patterns := by
  simp only [checkConnectionAllowed, ordinary, Bool.false_eq_true, ↓reduceIte, Access.bind_apply] at allowed
  cases connections : (permissions.readAllowedConnections env service_name files).1 with
  | ok patterns => exact ⟨patterns, rfl⟩
  | error e =>
    rw [connections] at allowed
    cases allowed

theorem backed_of_parsed {json : JsonValue} (simple : '/' ∉ service_name.toList)
    (parsed : (permissions.parseServiceFileJson env service_name files).1 = .ok json) :
    Backed permissions files service_name := by
  obtain ⟨file, found⟩ := parseServiceFileJson_ok parsed
  obtain ⟨dir, dirMem, node, resolved, opens⟩ := findServiceFile_found _ _ _ _ found
  obtain ⟨inode, parent, entry⟩ :=
    resolve_located files dir _ service_name node (located_join dir service_name simple) resolved
  exact ⟨dir, dirMem, inode, node, parent, entry, by rw [opens]; rfl⟩

end Permissions

/-- The checks stay inside the configured directories exactly for the names without a slash. -/
theorem contained_iff_no_slash (env : Environment) (additional_service_dirs : List OsString)
    (files : FileSystem) (service_name : String) :
    Contained env (Permissions.new additional_service_dirs) files service_name ↔
      '/' ∉ service_name.toList := by
  constructor
  · intro contained slash
    have first := serviceFileExists_first service_name (osString defaultServiceFilesDir)
      additional_service_dirs files
    obtain ⟨dir, _, located⟩ := contained.tested _ first
    exact not_located dir _ service_name slash located
  · intro simple
    refine ⟨?_, ?_, ?_, ?_⟩
    · intro path member
      rw [Permissions.parseServiceFileJson_paths] at member
      obtain ⟨dir, dirMem, same⟩ := findServiceFile_paths _ _ _ _ member
      exact ⟨dir, dirMem, same ▸ located_join dir service_name simple⟩
    · intro path member
      obtain ⟨dir, dirMem, same⟩ := serviceFileExists_paths _ _ _ _ member
      exact ⟨dir, dirMem, same ▸ located_join dir service_name simple⟩
    · intro user_credentials allowed
      obtain ⟨glob, execs⟩ := Permissions.checkServiceNameAllowed_true allowed
      obtain ⟨json, parsed⟩ := Permissions.readAllowedExecs_ok execs
      exact Permissions.backed_of_parsed simple parsed
    · intro client_service ordinary allowed
      obtain ⟨patterns, connections⟩ := Permissions.checkConnectionAllowed_true ordinary allowed
      obtain ⟨json, parsed⟩ := Permissions.readAllowedConnections_ok connections
      exact Permissions.backed_of_parsed simple parsed

def plantedFiles : FileSystem where
  root := 0
  workingDir := 0
  parent _ := 0
  entry inode name :=
    if inode = 0 ∧ name = osString "tmp" then some (.directory 1)
    else if inode = 1 ∧ name = osString "evil.service" then
      some (.file (some "\x7b\"exec\":\"/tmp/evil\",\"incoming_connections\":[\"**\"]\x7d"))
    else none
  links path := if path = osString "/proc/7/exe" then some (osString "/tmp/evil") else none

def plantedEnvironment : Environment where
  parseJson text :=
    if text = "\x7b\"exec\":\"/tmp/evil\",\"incoming_connections\":[\"**\"]\x7d" then
      some (.object [("exec", .string "/tmp/evil"), ("incoming_connections", .array [.string "**"])])
    else none
  parseGlob pattern := some fun text => text == pattern
  order := ⟨fun _ set => set, fun _ set => .refl set⟩
  privilegedServices := true

/-- The planted file admits its owner, although no configured directory even exists. -/
theorem planted_file_registers :
    ((Permissions.new []).checkServiceNameAllowed plantedEnvironment ⟨some 7⟩ "/tmp/evil"
      plantedFiles).1 = some true ∧
    ((Permissions.new []).checkConnectionAllowed plantedEnvironment "com.client" "/tmp/evil"
      plantedFiles).1 = some true ∧
    ¬ Contained plantedEnvironment (Permissions.new []) plantedFiles "/tmp/evil" := by
  have admitted : ((Permissions.new []).checkServiceNameAllowed plantedEnvironment ⟨some 7⟩ "/tmp/evil"
      plantedFiles).1 = some true := by decide
  refine ⟨admitted, by decide, ?_⟩
  intro contained
  obtain ⟨dir, dirMem, inode, node, resolved, _⟩ := contained.registration ⟨some 7⟩ admitted
  have missing : plantedFiles.resolve (osString defaultServiceFilesDir) = none := by decide
  rw [List.mem_singleton.mp dirMem, missing] at resolved
  cases resolved

end KrossbarHub
