import KrossbarBus.Hub.Ownership

namespace KrossbarHub

variable {env : HubEnvironment} {hub after : Hub} {conn : Conn} {input : Input} {progress : Progress}
  {out log : List Event} {action : Action} {additional_service_dirs : List OsString} {files : FileSystem}

/-- The log tells who owns a name: whoever registered it and has not been removed. -/
structure Recorded (log : List Event) (hub : Hub) : Prop where
  registered : ∀ service_name conn, .registered service_name conn ∈ log →
    conn < hub.clock ∧ (hub.Owns service_name conn ∨ .removed service_name conn ∈ log)
  owned : ∀ service_name conn, hub.Owns service_name conn →
    .registered service_name conn ∈ log ∧ .removed service_name conn ∉ log
  removed : ∀ service_name conn, .removed service_name conn ∈ log →
    .registered service_name conn ∈ log ∧ hub.tasks.get conn = none ∧
      ∀ other, hub.main ≠ .disconnected conn other
  unique : ∀ service_name other conn, .registered service_name conn ∈ log →
    .registered other conn ∈ log → service_name = other

theorem Recorded.initial (additional_service_dirs : List OsString) (files : FileSystem) :
    Recorded [] (Hub.new additional_service_dirs files) where
  registered := by simp
  owned := by simp [Hub.Owns, Hub.new]
  removed := by simp
  unique := by simp

theorem Hub.Consistent.owner_lt (consistent : hub.Consistent) {service_name : String}
    (owns : hub.Owns service_name conn) : conn < hub.clock := by
  rcases owns with ⟨task, present, _⟩ | reaping
  · exact consistent.fresh conn task present
  · exact (consistent.reaping conn service_name reaping).1

theorem Recorded.quiet (recorded : Recorded log hub) (clock : hub.clock ≤ after.clock)
    (owners : ∀ service_name conn, after.Owns service_name conn ↔ hub.Owns service_name conn)
    (gone : ∀ conn, conn < hub.clock → hub.tasks.get conn = none →
      (∀ other, hub.main ≠ .disconnected conn other) →
      after.tasks.get conn = none ∧ ∀ other, after.main ≠ .disconnected conn other)
    (unregistered : ∀ service_name conn, .registered service_name conn ∉ out)
    (unremoved : ∀ service_name conn, .removed service_name conn ∉ out) : Recorded (log ++ out) after := by
  have old_registered : ∀ service_name conn, .registered service_name conn ∈ log ++ out →
      .registered service_name conn ∈ log := by
    intro service_name conn member
    simpa [unregistered] using member
  have old_removed : ∀ service_name conn, .removed service_name conn ∈ log ++ out →
      .removed service_name conn ∈ log := by
    intro service_name conn member
    simpa [unremoved] using member
  refine ⟨?_, ?_, ?_, ?_⟩
  · intro service_name conn member
    obtain ⟨bound, owns⟩ := recorded.registered service_name conn (old_registered _ _ member)
    refine ⟨by omega, ?_⟩
    rw [owners service_name conn]
    exact owns.imp_right (List.mem_append_left out)
  · intro service_name conn owns
    have before := recorded.owned service_name conn ((owners service_name conn).mp owns)
    exact ⟨List.mem_append_left out before.1, fun member => before.2 (old_removed _ _ member)⟩
  · intro service_name conn member
    obtain ⟨registered, absent, reaped⟩ := recorded.removed service_name conn (old_removed _ _ member)
    have bound := (recorded.registered service_name conn registered).1
    exact ⟨List.mem_append_left out registered, gone conn bound absent reaped⟩
  · intro service_name other conn first second
    exact recorded.unique service_name other conn (old_registered _ _ first) (old_registered _ _ second)

theorem Recorded.unregistered_task (recorded : Recorded log hub) (selecting : hub.main = .selecting)
    {task : Task} (present : hub.tasks.get conn = some task) (unnamed : task.phase.registeredAs = none)
    (service_name : String) : .registered service_name conn ∉ log := by
  intro member
  rcases (recorded.registered service_name conn member).2 with owns | gone
  · rw [owns_task selecting present, unnamed] at owns
    cases owns
  · rw [(recorded.removed service_name conn gone).2.1] at present
    cases present

theorem Recorded.register (recorded : Recorded log hub) (consistent : hub.Consistent)
    (selecting : hub.main = .selecting) {task : Task} (present : hub.tasks.get conn = some task)
    (unnamed : task.phase.registeredAs = none) {service_name : String} {request : RpcRequest}
    (named : progress.phase.registeredAs = some service_name)
    (events : progress.events = [.nameChecked conn task.credentials service_name true,
      .registered service_name conn, .responded request .ok]) :
    Recorded (log ++ progress.events) (hub.advance conn task progress) := by
  have never := recorded.unregistered_task selecting present unnamed
  have owners := fun other => owns_advance hub conn other task progress selecting
  rw [events]
  refine ⟨?_, ?_, ?_, ?_⟩
  · intro name other member
    simp only [List.mem_append, List.mem_cons, List.not_mem_nil, or_false, reduceCtorEq, false_or,
      Event.registered.injEq] at member
    rcases member with old | ⟨rfl, rfl⟩
    · have different : other ≠ conn := by
        intro same
        exact never name (same ▸ old)
      obtain ⟨bound, owns⟩ := recorded.registered name other old
      refine ⟨by simp only [advance_clock]; omega, ?_⟩
      rw [owners, if_neg different]
      exact owns.imp_right (List.mem_append_left _)
    · refine ⟨?_, .inl ?_⟩
      · exact Nat.lt_succ_of_lt (consistent.fresh _ task present)
      · rw [owners, if_pos rfl]
        exact named
  · intro name other owns
    rw [owners] at owns
    split at owns
    · rename_i same
      subst same
      rw [named] at owns
      cases owns
      refine ⟨by simp, ?_⟩
      simp only [List.mem_append, List.mem_cons, List.not_mem_nil, or_false, reduceCtorEq]
      intro gone
      exact never service_name (recorded.removed service_name other gone).1
    · have before := recorded.owned name other owns
      simp [before.1, before.2]
  · intro name other member
    have old : .removed name other ∈ log := by simpa using member
    obtain ⟨registered, absent, reaped⟩ := recorded.removed name other old
    have different : other ≠ conn := by
      intro same
      exact never name (same ▸ registered)
    exact ⟨List.mem_append_left _ registered, by simp [different, absent], reaped⟩
  · intro name second other first_member second_member
    simp only [List.mem_append, List.mem_cons, List.not_mem_nil, or_false, reduceCtorEq, false_or,
      Event.registered.injEq] at first_member second_member
    rcases first_member with first | ⟨rfl, rfl⟩
    · rcases second_member with second | ⟨rfl, rfl⟩
      · exact recorded.unique name _ other first second
      · exact absurd first (never name)
    · rcases second_member with second | ⟨rfl, _⟩
      · exact absurd second (never _)
      · rfl

theorem Recorded.resume (recorded : Recorded log hub) (consistent : hub.Consistent)
    (selecting : hub.main = .selecting) {task : Task} (present : hub.tasks.get conn = some task)
    (resumes : Resumes env hub conn task.credentials task.phase input progress) :
    Recorded (log ++ progress.events) (hub.advance conn task progress) := by
  rcases resumes.registration with ⟨named, _, unregistered⟩ | ⟨name, request, was, now, _, _, events⟩
  · refine recorded.quiet (Nat.le_succ _) ?_ ?_ unregistered resumes.not_removed
    · intro service_name other
      rw [owns_advance _ _ _ _ _ selecting]
      split
      · rename_i same
        rw [same, named]
        exact (owns_task selecting present service_name).symm
      · rfl
    · intro other _ absent reaped
      have different : other ≠ conn := by
        intro same
        rw [same, present] at absent
        cases absent
      exact ⟨by simp [different, absent], reaped⟩
  · have writer : request.writer = conn := consistent.own conn task request present (by rw [was]; rfl)
    rw [writer] at events
    exact recorded.register consistent selecting present (by rw [was]; rfl) (by rw [now]; rfl) events

theorem Recorded.remove (recorded : Recorded log hub) (consistent : hub.Consistent) {service_name : String}
    (reaping : hub.main = .disconnected conn service_name) :
    Recorded (log ++ [.removed service_name conn]) { hub with
      context := { hub.context with
        client_registry := hub.context.client_registry.remove service_name }
      main := .selecting } := by
  have owner := recorded.owned service_name conn (.inr reaping)
  refine ⟨?_, ?_, ?_, ?_⟩
  · intro name other member
    have old : .registered name other ∈ log := by simpa using member
    obtain ⟨bound, owns | gone⟩ := recorded.registered name other old
    · refine ⟨bound, ?_⟩
      rcases owns with holds | other_reaping
      · exact .inl (.inl holds)
      · rw [reaping] at other_reaping
        obtain ⟨rfl, rfl⟩ := MainLoop.disconnected.inj other_reaping
        exact .inr (by simp)
    · exact ⟨bound, .inr (List.mem_append_left _ gone)⟩
  · intro name other owns
    simp only [Hub.Owns, reduceCtorEq, or_false] at owns
    have before := recorded.owned name other (.inl owns)
    refine ⟨List.mem_append_left _ before.1, ?_⟩
    simp only [List.mem_append, List.mem_singleton, Event.removed.injEq, not_or]
    refine ⟨before.2, ?_⟩
    intro same
    obtain ⟨task, there, _⟩ := owns
    rw [same.2, (consistent.reaping conn service_name reaping).2] at there
    cases there
  · intro name other member
    simp only [List.mem_append, List.mem_singleton, Event.removed.injEq] at member
    rcases member with old | ⟨rfl, rfl⟩
    · obtain ⟨registered, absent, _⟩ := recorded.removed name other old
      exact ⟨List.mem_append_left _ registered, absent, by simp⟩
    · exact ⟨List.mem_append_left _ owner.1, (consistent.reaping other name reaping).2, by simp⟩
  · intro name other third first second
    exact recorded.unique name other third (by simpa using first) (by simpa using second)

theorem Recorded.reap (recorded : Recorded log hub) (selecting : hub.main = .selecting) {task : Task}
    (present : hub.tasks.get conn = some task) (main : MainLoop)
    (arm : main = match task.phase.registeredAs with
      | some service_name => .disconnected conn service_name
      | none => .selecting) :
    Recorded (log ++ []) { hub with tasks := hub.tasks.remove conn, main } := by
  refine recorded.quiet (Nat.le_refl _) ?_ ?_ (by simp) (by simp)
  · intro service_name other
    simp only [Hub.Owns, Table.get_remove, selecting]
    by_cases same : other = conn
    · subst same
      cases name : task.phase.registeredAs with
      | none => simp [arm, present, name]
      | some name => simp [arm, present, name]
    · cases name : task.phase.registeredAs with
      | none => simp [arm, same, name]
      | some name => simp [arm, same, name, Ne.symm same]
  · intro other _ absent reaped
    have different : other ≠ conn := by
      intro same
      rw [same, present] at absent
      cases absent
    refine ⟨by simp [Table.get_remove, different, absent], ?_⟩
    intro service_name
    cases name : task.phase.registeredAs with
    | none => simp [arm, name]
    | some name => simp [arm, name, Ne.symm different]

theorem Recorded.preserved (recorded : Recorded log hub) (consistent : hub.Consistent)
    (taken : step env hub action = some (after, out)) : Recorded (log ++ out) after := by
  cases step_cases taken with
  | accepted credentials selecting =>
    refine recorded.quiet (Nat.le_succ _) ?_ ?_ (by simp) (by simp)
    · intro service_name other
      simp only [Hub.Owns, Table.get_insert, selecting]
      by_cases same : other = hub.clock
      · have absent : hub.tasks.get hub.clock = none := Table.fresh_absent consistent.fresh
        simp [same, absent, Phase.registeredAs]
      · simp [same]
    · intro other bound absent reaped
      exact ⟨by simp [Table.get_insert, Nat.ne_of_lt bound, absent], reaped⟩
  | acceptFailed selecting =>
    exact recorded.quiet (Nat.le_refl _) (fun _ _ => Iff.rfl)
      (fun _ _ absent reaped => ⟨absent, reaped⟩) (by simp) (by simp)
  | resumed conn task input progress selecting present resumes =>
    exact recorded.resume consistent selecting present resumes
  | crashed conn task input selecting present panics =>
    exact recorded.quiet (Nat.le_refl _) (by simp [Hub.Owns, selecting])
      (fun _ _ absent _ => ⟨absent, by simp⟩) (by simp) (by simp)
  | disconnected conn credentials service_name selecting present =>
    exact recorded.reap selecting present _ rfl
  | anonymousDisconnected conn credentials selecting present =>
    exact recorded.reap selecting present hub.main selecting
  | removed conn service_name reaping free => exact recorded.remove consistent reaping
  | interrupted selecting =>
    exact recorded.quiet (Nat.le_refl _) (by simp [Hub.Owns, selecting])
      (fun _ _ absent _ => ⟨absent, by simp⟩) (by simp) (by simp)
  | filesEdited files =>
    exact recorded.quiet (Nat.le_refl _) (fun _ _ => Iff.rfl)
      (fun _ _ absent reaped => ⟨absent, reaped⟩) (by simp) (by simp)

theorem run_recorded {allowed : Hub → Action → Prop}
    (run : Transition.RunWith (step env) allowed (Hub.new additional_service_dirs files) log hub) :
    Recorded log hub :=
  run.invariant (Recorded.initial additional_service_dirs files)
    fun _ _ _ _ _ before recorded _ taken => recorded.preserved (run_consistent before) taken

theorem entry_removed (consistent : hub.Consistent)
    (taken : step env hub action = some (after, out)) {service_name : String}
    (entry : hub.context.client_registry.get service_name = some conn)
    (lost : after.context.client_registry.get service_name ≠ some conn) :
    action = .removeClient ∧ hub.main = .disconnected conn service_name := by
  cases step_cases taken with
  | resumed other task input progress selecting present resumes =>
    exact absurd (resumes.entry_kept entry) lost
  | removed other name reaping free =>
    rw [Table.get_remove] at lost
    split at lost
    · rename_i same
      subst same
      have owner := (consistent.registry service_name other).mpr (.inr reaping)
      rw [entry] at owner
      cases owner
      exact ⟨rfl, reaping⟩
    · exact absurd entry lost
  | _ => exact absurd entry lost

theorem duplicate_rejected {task : Task} (present : hub.tasks.get conn = some task) {service_name : String}
    {request : RpcRequest} (registering : task.phase = .registerLock service_name request)
    (taken : step env hub (.task conn input) = some (after, out)) {owner : Conn}
    (entry : hub.context.client_registry.get service_name = some owner) :
    out = [.responded request (.err .alreadyRegistered)] ∧ after.context = hub.context ∧
      ∀ name, ¬ after.Owns name conn := by
  cases step_cases taken with
  | resumed _ task' _ progress selecting present' resumes =>
    rw [present] at present'
    cases present'
    rw [registering] at resumes
    cases resumes with
    | alreadyRegistered _ _ free taken =>
      refine ⟨rfl, rfl, ?_⟩
      intro name
      rw [owns_advance _ _ _ _ _ selecting]
      simp [Phase.registeredAs]
    | registrationDenied _ _ free absent denied =>
      rw [absent] at entry
      cases entry
    | registrationAllowed _ _ free absent allowed =>
      rw [absent] at entry
      cases entry
  | crashed _ task' _ selecting present' panics =>
    rw [present] at present'
    cases present'
    have known : hub.context.client_registry.containsKey service_name = true := by
      simp [Table.containsKey, entry]
    cases input with
    | locked => simp [resume, registering, handleAuthRequest, known] at panics
    | polled message => cases message <;> simp [resume, registering] at panics
    | _ => simp [resume, registering] at panics

theorem anonymous_end (unnamed : ∀ service_name, ¬ hub.Owns service_name conn)
    (taken : step env hub (.next conn) = some (after, out)) :
    after.context = hub.context ∧ after.main = .selecting := by
  cases step_cases taken with
  | disconnected _ credentials service_name selecting present =>
    exact absurd (.inl ⟨_, present, rfl⟩) (unnamed service_name)
  | anonymousDisconnected _ credentials selecting present => exact ⟨rfl, selecting⟩

/-- The registry holds exactly the connections that registered and have not been reaped, each under
    its one name; an entry goes only with its own connection, and neither a rejected duplicate nor
    the end of its task touches it. -/
theorem registry_owned (run : Run env additional_service_dirs files log hub) :
    (∀ service_name conn,
      hub.context.client_registry.get service_name = some conn ↔ hub.Owns service_name conn) ∧
    (∀ service_name conn, hub.Owns service_name conn ↔
      .registered service_name conn ∈ log ∧ .removed service_name conn ∉ log) ∧
    (∀ service_name first second,
      hub.Owns service_name first → hub.Owns service_name second → first = second) ∧
    (∀ first second conn, hub.Owns first conn → hub.Owns second conn → first = second) ∧
    (∀ action after out service_name conn, step env hub action = some (after, out) →
      hub.context.client_registry.get service_name = some conn →
      after.context.client_registry.get service_name ≠ some conn →
      action = .removeClient ∧ hub.main = .disconnected conn service_name) ∧
    (∀ conn task service_name request owner input after out, hub.tasks.get conn = some task →
      task.phase = .registerLock service_name request →
      hub.context.client_registry.get service_name = some owner →
      step env hub (.task conn input) = some (after, out) →
      out = [.responded request (.err .alreadyRegistered)] ∧ after.context = hub.context ∧
        ∀ name, ¬ after.Owns name conn) ∧
    ∀ conn after out, (∀ service_name, ¬ hub.Owns service_name conn) →
      step env hub (.next conn) = some (after, out) →
      after.context = hub.context ∧ after.main = .selecting := by
  have consistent := run_consistent run
  have recorded := run_recorded run
  refine ⟨consistent.registry, ?_, ?_, ?_, ?_, ?_, ?_⟩
  · intro service_name conn
    refine ⟨recorded.owned service_name conn, ?_⟩
    intro history
    exact (recorded.registered service_name conn history.1).2.resolve_right history.2
  · intro service_name first second owns_first owns_second
    have entry := (consistent.registry service_name first).mpr owns_first
    rw [(consistent.registry service_name second).mpr owns_second] at entry
    exact (Option.some.inj entry).symm
  · intro first second conn owns_first owns_second
    exact recorded.unique first second conn (recorded.owned first conn owns_first).1
      (recorded.owned second conn owns_second).1
  · intro action after out service_name conn taken entry lost
    exact entry_removed consistent taken entry lost
  · intro conn task service_name request owner input after out present registering entry taken
    exact duplicate_rejected present registering taken entry
  · intro conn after out unnamed taken
    exact anonymous_end unnamed taken

/-- A bus on which the services of the list may run from one executable and connect freely. -/
def openFiles (services : List String) : FileSystem where
  root := 0
  workingDir := 0
  parent inode := inode - 1
  entry inode name :=
    if inode = 0 ∧ name = osString "etc" then some (.directory 1)
    else if inode = 1 ∧ name = osString "krossbar" then some (.directory 2)
    else if inode = 2 ∧ name = osString "services" then some (.directory 3)
    else if inode = 3 ∧ name ∈ services.map serviceFileName then
      some (.file (some "\x7b\"exec\":\"/bin/service\",\"incoming_connections\":[\"**\"]\x7d"))
    else none
  links _ := some (osString "/bin/service")

def openEnvironment : HubEnvironment where
  parseJson text :=
    if text = "\x7b\"exec\":\"/bin/service\",\"incoming_connections\":[\"**\"]\x7d" then
      some (.object [("exec", .string "/bin/service"), ("incoming_connections", .array [.string "**"])])
    else none
  parseGlob pattern := some fun text => text == pattern
  order := ⟨fun _ set => set, fun _ set => .refl set⟩
  privilegedServices := true
  socketPair _ := .ok ()
  debug _ := ""

def registering (conn : Conn) (service_name : String) : List Action :=
  [.accept (some ⟨some 7⟩),
    .task conn (.polled (some ⟨0, hubRegisterMethod, .call (.ok (.register service_name))⟩)),
    .task conn .locked, .task conn (.sent true), .task conn .elapsed, .task conn .locked]

def connecting (conn : Conn) (target : String) (wait : Bool) : List Action :=
  [.task conn (.polled (some ⟨1, hubConnectMethod, .call (.ok (.connect target wait))⟩)),
    .task conn .locked]

theorem registry_owned_duplicate : ∃ log hub,
    Run openEnvironment [] (openFiles ["com.a"]) log hub ∧
    hub.context.client_registry.get "com.a" = some 0 ∧ .removed "com.a" 0 ∉ log ∧
    ∀ name, hub.Owns name 0 → name = "com.a" := by
  obtain ⟨log, hub, run, entry⟩ := Transition.exists_run_of_execute (step openEnvironment)
    (Hub.new [] (openFiles ["com.a"])) (registering 0 "com.a" ++ (registering 6 "com.a").take 3)
    (fun _ hub => hub.context.client_registry.get "com.a" == some 0) (by decide +kernel)
  have owned := registry_owned run
  have entry := beq_iff_eq.mp entry
  have owner := (owned.1 "com.a" 0).mp entry
  exact ⟨log, hub, run, entry, ((owned.2.1 "com.a" 0).mp owner).2,
    fun name owns => owned.2.2.2.1 name "com.a" 0 owns owner⟩

end KrossbarHub
