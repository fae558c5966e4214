import KrossbarBus.Hub.PatternAlgebra
import KrossbarBus.Hub.RegistrationChecks

namespace KrossbarHub

open Transition

variable {env : HubEnvironment} {hub after : Hub} {action : Action} {out log : List Event} {files other : FileSystem}
  {additional_service_dirs dirs : List OsString} {client_service target_service : String}

/-- Every service file whose entries are patterns is still one, and each of its patterns is there, widened or
    not. -/
def WidensFiles (env : Environment) (dirs : List OsString) (files other : FileSystem) : Prop :=
  ∀ target_service entries, IncomingConnections env dirs files target_service entries →
    (∀ entry ∈ entries, ∃ pattern, entry.Denotes pattern) →
    ∃ others, IncomingConnections env dirs other target_service others ∧
      (∀ entry ∈ others, ∃ pattern, entry.Denotes pattern) ∧
      ∀ entry ∈ entries, ∀ pattern, entry.Denotes pattern → ∃ found ∈ others, ∃ widened, found.Denotes widened ∧
        Widens pattern.section_patterns widened.section_patterns

/-- The service files are edited by widening them only. -/
def WidensOnly (env : Environment) (additional_service_dirs : List OsString) (hub : Hub) : Action → Prop
  | .editFiles files =>
    WidensFiles env (osString defaultServiceFilesDir :: additional_service_dirs) hub.files files
  | _ => True

theorem ConnectionAllowed.widened {env : Environment} (widens : WidensFiles env dirs files other)
    (allowed : ConnectionAllowed env dirs files client_service target_service) :
    ConnectionAllowed env dirs other client_service target_service := by
  rcases allowed with privileged | ⟨entries, listed, denotes, valid, entry, member, pattern, denoted, splits⟩
  · exact .inl privileged
  · obtain ⟨others, relisted, each, wider⟩ := widens target_service entries listed denotes
    obtain ⟨found, there, widened, shown, widening⟩ := wider entry member pattern denoted
    exact .inr ⟨others, relisted, each, valid, found, there, widened, shown, widening.splits splits⟩

theorem allows_iff (permissions : hub.context.permissions = Permissions.new additional_service_dirs) :
    hub.Allows env client_service target_service ↔
      ConnectionAllowed env.toEnvironment (osString defaultServiceFilesDir :: additional_service_dirs) hub.files
        client_service target_service := by
  unfold Hub.Allows
  rw [permissions]
  exact checkConnectionAllowed_iff

theorem step_files (taken : step env hub action = some (after, out)) :
    after.files = hub.files ∨ action = .editFiles after.files := by
  cases step_cases taken with
  | filesEdited files => exact .inr rfl
  | _ => exact .inl rfl

theorem allows_step (permissions : hub.context.permissions = Permissions.new additional_service_dirs)
    (same : after.context.permissions = hub.context.permissions)
    (widens : WidensOnly env.toEnvironment additional_service_dirs hub action)
    (taken : step env hub action = some (after, out)) (allows : hub.Allows env client_service target_service) :
    after.Allows env client_service target_service := by
  rw [allows_iff permissions] at allows
  rw [allows_iff (same.trans permissions)]
  rcases step_files taken with kept | edited
  · rw [kept]
    exact allows
  · subst edited
    exact allows.widened widens

theorem widening_withdraws_nothing (permissions : hub.context.permissions = Permissions.new additional_service_dirs)
    (widens : WidensOnly env.toEnvironment additional_service_dirs hub action) : hub.WithdrawsNothing env action := by
  cases action with
  | editFiles files =>
    intro target initiator request _ allows
    rw [allows_iff permissions] at allows
    have edited : { hub with files }.context.permissions = Permissions.new additional_service_dirs := permissions
    rw [allows_iff edited]
    exact allows.widened widens
  | _ => trivial

theorem widening_permits
    (run : RunWith (step env) (WidensOnly env.toEnvironment additional_service_dirs)
      (Hub.new additional_service_dirs files) log hub) : hub.Permitted env :=
  run.invariant (I := fun _ hub => hub.Permitted env) (Hub.Permitted.new additional_service_dirs files)
    fun _ _ _ _ _ before permitted widens taken =>
      permitted.preserved (widening_withdraws_nothing (run_permissions before) widens) taken

/-- Widening the service files of a running hub takes nothing from anybody: a client that may connect may always
    connect from then on, and every pair is handed over with the permission of that moment. -/
theorem widening_keeps_permissions
    (run : RunWith (step env) (WidensOnly env.toEnvironment additional_service_dirs)
      (Hub.new additional_service_dirs files) log hub) :
    (∀ client_service target_service, hub.Allows env client_service target_service → ∀ later after,
      RunWith (step env) (WidensOnly env.toEnvironment additional_service_dirs) hub later after →
      after.Allows env client_service target_service) ∧
    ∀ action after out writer initiator target pair request, step env hub action = some (after, out) →
      .connectionRequest writer initiator target pair request ∈ out → hub.Allows env initiator target := by
  have permissions := run_permissions run
  constructor
  · intro client_service target_service allows later after behind
    induction behind with
    | start => exact allows
    | next before widens taken ih =>
      have kept := (run_permissions before).trans permissions
      have next := run_permissions (.next .start widens taken)
      exact allows_step kept next widens taken ih
  · intro action after out writer initiator target pair request taken handed
    have permitted := widening_permits run
    cases step_cases taken with
    | resumed conn task input progress selecting present resumes =>
      rcases resumes.handover_cases handed with allowed | waiting | ⟨named, unsent⟩
      · exact allowed
      · exact permitted target initiator request (.pending waiting)
      · exact permitted target initiator request (.resolving conn task present named unsent)
    | _ => simp at handed

/-- Nothing is removed and nothing that is there is changed. -/
structure FileSystem.Extends (other files : FileSystem) : Prop where
  root : other.root = files.root
  workingDir : other.workingDir = files.workingDir
  parent : other.parent = files.parent
  entry : ∀ inode name node, files.entry inode name = some node → other.entry inode name = some node

theorem FileSystem.Extends.walk (more : other.Extends files) {start node : Node} {path : List Component}
    (found : files.walk start path = some node) : other.walk start path = some node := by
  induction path generalizing start with
  | nil =>
    cases start <;> exact found
  | cons component rest ih =>
    cases start with
    | directory inode =>
      cases component with
      | rootDir =>
        simp only [FileSystem.walk, more.root] at found ⊢
        exact ih found
      | curDir =>
        simp only [FileSystem.walk] at found ⊢
        exact ih found
      | parentDir =>
        simp only [FileSystem.walk, more.parent] at found ⊢
        exact ih found
      | normal name =>
        simp only [FileSystem.walk] at found ⊢
        cases there : files.entry inode name with
        | none => simp [there] at found
        | some next =>
          rw [there] at found
          rw [more.entry inode name next there]
          exact ih found
    | file _ => simp [FileSystem.walk] at found
    | denied => simp [FileSystem.walk] at found

/-- A new service file in the only directory is no more than a widening. -/
theorem FileSystem.Extends.widens {env : Environment} {dir : OsString} (more : other.Extends files) :
    WidensFiles env [dir] files other := by
  intro target_service entries listed denotes
  refine ⟨entries, ?_, denotes, fun entry member pattern denoted =>
    ⟨entry, member, pattern, denoted, .same _⟩⟩
  obtain ⟨before, first, rest, file, text, json, split, unopened, opened, contents, parsed, array⟩ := listed
  refine ⟨before, first, rest, file, text, json, split, ?_, ?_, contents, parsed, array⟩
  · intro earlier member
    cases before with
    | nil => cases member
    | cons head tail => simp at split
  · unfold FileSystem.serviceFile FileSystem.resolve at opened ⊢
    rw [Option.bind_eq_some_iff] at opened ⊢
    obtain ⟨node, resolved, readable⟩ := opened
    rw [more.workingDir]
    exact ⟨node, more.walk resolved, readable⟩

theorem openFiles_extends : (openFiles ["com.a", "com.b"]).Extends (openFiles ["com.a"]) := by
  refine ⟨rfl, rfl, rfl, ?_⟩
  intro inode name node there
  simp only [openFiles, List.map_cons, List.map_nil, List.mem_cons, List.not_mem_nil, or_false] at there ⊢
  split at there
  · rename_i case
    rw [if_pos case, there]
  · rename_i first
    rw [if_neg first]
    split at there
    · rename_i case
      rw [if_pos case, there]
    · rename_i second
      rw [if_neg second]
      split at there
      · rename_i case
        rw [if_pos case, there]
      · rename_i third
        rw [if_neg third]
        split at there
        · rename_i case
          rw [if_pos ⟨case.1, .inl case.2⟩, there]
        · cases there

theorem widening_keeps_permissions_added : ∃ log hub later after,
    RunWith (step openEnvironment) (WidensOnly openEnvironment.toEnvironment []) (Hub.new [] (openFiles ["com.a"]))
      log hub ∧
    RunWith (step openEnvironment) (WidensOnly openEnvironment.toEnvironment []) hub later after ∧
    after.files.serviceFile "com.b" (osString defaultServiceFilesDir) ≠ none ∧
    after.Allows openEnvironment "com.b" "com.a" := by
  have initial : RunWith (step openEnvironment) (WidensOnly openEnvironment.toEnvironment [])
      (Hub.new [] (openFiles ["com.a"])) [] (Hub.new [] (openFiles ["com.a"])) := .start
  have allows : (Hub.new [] (openFiles ["com.a"])).Allows openEnvironment "com.b" "com.a" := by
    unfold Hub.Allows
    decide +kernel
  have allowed : WidensOnly openEnvironment.toEnvironment [] (Hub.new [] (openFiles ["com.a"]))
      (.editFiles (openFiles ["com.a", "com.b"])) := openFiles_extends.widens
  have edited : RunWith (step openEnvironment) (WidensOnly openEnvironment.toEnvironment [])
      (Hub.new [] (openFiles ["com.a"])) ([] ++ [])
      { Hub.new [] (openFiles ["com.a"]) with files := openFiles ["com.a", "com.b"] } := .next .start allowed rfl
  refine ⟨_, _, _, _, initial, edited, by decide +kernel, ?_⟩
  exact (widening_keeps_permissions initial).1 "com.b" "com.a" allows _ _ edited

end KrossbarHub
