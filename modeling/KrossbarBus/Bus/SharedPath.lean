import KrossbarBus.Bus.Succession

namespace KrossbarBus

open Transition (latest latest_concat latest_narrow Justified JustifiedAfter)

variable {env : SocketEnvironment} {path after : SocketPath} {action : SocketAction} {log out : List SocketEvent}
  {entry origin changed : Option Entry} {hub other : Nat} {before phase : HubPhase} {event : SocketEvent}

/-- The events that make or remove the file. -/
def replaces : SocketEvent → Bool
  | .bound _ | .removed _ => true
  | _ => false

def changes : SocketEvent → Bool
  | .bound _ | .removed _ | .opened _ => true
  | _ => false

/-- The events by which a hub makes or removes the file. -/
def replacedBy (hub : Nat) : SocketEvent → Bool
  | .bound other | .removed other => other == hub
  | _ => false

/-- What is found at the path before the first hub: nothing, or what can be left of an earlier one. -/
def Leftover (entry : Option Entry) : Prop := ∀ found, entry = some found → match found with
  | .socket hub _ => hub = none
  | .file _ => True
  | .directory _ => False

/-- The file after the last event that made or removed it. -/
def FileAfter (origin entry : Option Entry) : Option SocketEvent → Prop
  | none => entry = origin
  | some (.bound hub) => ∃ mode, entry = some (.socket (some hub) mode)
  | some _ => entry = none

/-- What a hub has done last to the file. -/
def HubPhase.Own (hub : Nat) (log : List SocketEvent) : HubPhase → Prop
  | .rebinding => latest (replacedBy hub) log = some (.removed hub)
  | .bound => latest (replacedBy hub) log = some (.bound hub)
  | _ => True

structure SocketPath.Recorded (origin : Option Entry) (log : List SocketEvent) (path : SocketPath) : Prop where
  file : FileAfter origin path.entry (latest replaces log)
  mode : ∀ hub entry, latest changes log = some (.opened hub) → path.entry = some entry → entry.mode = 0o666
  own : ∀ hub phase, path.hubs.get hub = some phase → phase.Own hub log

/-- Why a service or a hub got where it is. -/
def SocketExplained (env : SocketEnvironment) (origin : Option Entry) (log : List SocketEvent) : SocketEvent → Prop
  | .connected _ hub => latest replaces log = some (.bound hub)
  | .refused _ true => True
  | .refused service false => (∃ hub, latest changes log = some (.bound hub)) ∨
      latest changes log = none ∧ ∃ entry, origin = some entry ∧ env.permits service entry.mode = false
  | .panicked hub => ∃ other, other ≠ hub ∧
      (latest replaces log = some (.bound other) ∧ latest (replacedBy hub) log = some (.removed hub) ∨
        latest replaces log = some (.removed other) ∧ latest (replacedBy hub) log = some (.bound hub))
  | _ => True

theorem Leftover.removable (leftover : Leftover origin) : Removable origin := by
  intro mode same
  exact leftover _ same

theorem FileAfter.removable (leftover : Leftover origin) {last : Option SocketEvent}
    (file : FileAfter origin entry last) : Removable entry := by
  intro mode same
  cases last with
  | none =>
    rw [show entry = origin from file] at same
    exact leftover _ same
  | some event =>
    cases event with
    | bound hub =>
      obtain ⟨_, bound⟩ := file
      rw [bound] at same
      cases same
    | _ =>
      rw [show entry = Option.none from file] at same
      cases same

/-- The owner of the file bound it last. -/
theorem FileAfter.owner (leftover : Leftover origin) {last : Option SocketEvent} {mode : Nat}
    (file : FileAfter origin entry last) (owned : entry = some (.socket (some hub) mode)) :
    last = some (.bound hub) := by
  cases last with
  | none =>
    rw [show entry = origin from file] at owned
    exact absurd (leftover _ owned) (by simp)
  | some event =>
    cases event with
    | bound other =>
      obtain ⟨_, bound⟩ := file
      rw [bound] at owned
      cases owned
      rfl
    | _ =>
      rw [show entry = Option.none from file] at owned
      cases owned

theorem connect_owner {service : Nat} (ok : path.connect env service = .ok hub) :
    path.listening hub = true ∧ ∃ mode, path.entry = some (.socket (some hub) mode) := by
  unfold SocketPath.connect at ok
  split at ok
  · cases ok
  · split at ok
    · split at ok
      · split at ok
        · rename_i mode found _ listens
          cases ok
          exact ⟨listens, mode, found⟩
        · cases ok
      · cases ok
    · cases ok

theorem connect_critical {service : Nat} (critical : path.connect env service = .critical) :
    ∃ entry, path.entry = some entry ∧ env.permits service entry.mode = false := by
  unfold SocketPath.connect at critical
  split at critical
  · cases critical
  · rename_i entry found
    split at critical
    · split at critical
      · split at critical <;> cases critical
      · cases critical
    · rename_i refused
      exact ⟨entry, found, by simpa using refused⟩

theorem replacedBy_replaces (hub : Nat) (event : SocketEvent) (mine : replacedBy hub event = true) :
    replaces event = true := by
  cases event with
  | bound _ => rfl
  | removed _ => rfl
  | _ => cases mine

theorem replaces_changes (event : SocketEvent) (replaced : replaces event = true) : changes event = true := by
  cases event with
  | bound _ => rfl
  | removed _ => rfl
  | _ => cases replaced

/-- A hub that has replaced the file finds it replaced, by itself or since then by another. -/
theorem replaced_since (mine : latest (replacedBy hub) log = some event) :
    (∃ other, latest replaces log = some (.bound other) ∧ (event = .removed hub → other ≠ hub)) ∨
      ∃ other, latest replaces log = some (.removed other) ∧ (event = .bound hub → other ≠ hub) := by
  cases last : latest replaces log with
  | none =>
    rw [Transition.latest_absent last (replacedBy_replaces hub)] at mine
    cases mine
  | some newest =>
    cases newest with
    | bound other =>
      refine .inl ⟨other, rfl, ?_⟩
      rintro rfl rfl
      rw [latest_narrow last (by simp [replacedBy]) (replacedBy_replaces other)] at mine
      cases mine
    | removed other =>
      refine .inr ⟨other, rfl, ?_⟩
      rintro rfl rfl
      rw [latest_narrow last (by simp [replacedBy]) (replacedBy_replaces other)] at mine
      cases mine
    | _ => cases Transition.latest_kind last

/-- A step of one hub, of which the others see the file only. -/
theorem SocketPath.Recorded.move (recorded : path.Recorded origin log)
    (file : FileAfter origin changed (latest replaces (log ++ out)))
    (mode : ∀ hub entry, latest changes (log ++ out) = some (.opened hub) → changed = some entry → entry.mode = 0o666)
    (apart : ∀ other, other ≠ hub → latest (replacedBy other) (log ++ out) = latest (replacedBy other) log)
    (mine : phase.Own hub (log ++ out)) :
    SocketPath.Recorded origin (log ++ out) { path.moved hub phase with entry := changed } := by
  refine ⟨file, mode, ?_⟩
  intro other found there
  by_cases same : other = hub
  · subst same
    have now : (path.hubs.insert other phase).get other = some found := there
    rw [Table.get_insert_self] at now
    cases now
    exact mine
  · have earlier : (path.hubs.insert hub phase).get other = some found := there
    rw [Table.get_insert_of_ne same] at earlier
    have own := recorded.own other found earlier
    cases found with
    | rebinding =>
      simp only [HubPhase.Own, apart other same]
      exact own
    | bound =>
      simp only [HubPhase.Own, apart other same]
      exact own
    | _ => trivial

/-- A step of one hub that leaves the file alone. -/
theorem SocketPath.Recorded.idle (recorded : path.Recorded origin log) (mine : phase.Own hub log) :
    SocketPath.Recorded origin (log ++ []) { path.moved hub phase with entry := path.entry } := by
  apply recorded.move
  · rw [List.append_nil]
    exact recorded.file
  · rw [List.append_nil]
    exact recorded.mode
  · intro other _
    rw [List.append_nil]
  · rw [List.append_nil]
    exact mine

theorem SocketPath.Recorded.panic (recorded : path.Recorded origin log) :
    SocketPath.Recorded origin (log ++ [.panicked hub]) { path.moved hub .panicked with entry := path.entry } := by
  apply recorded.move
  · rw [latest_concat]
    exact recorded.file
  · rw [latest_concat]
    exact recorded.mode
  · intro other _
    rw [latest_concat]
    rfl
  · trivial

theorem replacedBy_other {mover : Nat} (event : SocketEvent) (mine : event = .bound mover ∨ event = .removed mover)
    (different : other ≠ mover) : latest (replacedBy other) (log ++ [event]) = latest (replacedBy other) log := by
  rw [latest_concat, if_neg]
  rcases mine with rfl | rfl
  · simpa [replacedBy] using different.symm
  · simpa [replacedBy] using different.symm

theorem SocketPath.Recorded.removed (recorded : path.Recorded origin log) (writable : env.writable = true)
    (leftover : Leftover origin) (mine : phase = .rebinding ∨ phase = .exited) :
    SocketPath.Recorded origin (log ++ [.removed hub])
      { path.moved hub phase with entry := removeFile env path.entry } := by
  rw [removeFile_removable writable (recorded.file.removable leftover)]
  apply recorded.move
  · rw [latest_concat]
    rfl
  · intro _ entry _ there
    cases there
  · intro other different
    exact replacedBy_other _ (.inr rfl) different
  · rcases mine with rfl | rfl
    · simp [HubPhase.Own, latest_concat, replacedBy]
    · trivial

theorem HubMoves.recorded (moves : HubMoves env hub path.entry before phase changed out)
    (recorded : path.Recorded origin log) (writable : env.writable = true) (leftover : Leftover origin)
    (there : path.hubs.get hub = some before) :
    SocketPath.Recorded origin (log ++ out) { path.moved hub phase with entry := changed } ∧
      JustifiedAfter (SocketExplained env origin) log out := by
  have own := recorded.own hub before there
  have file := recorded.file
  cases moves with
  | start found =>
    refine ⟨recorded.idle ?_, trivial⟩
    cases found <;> trivial
  | bind _ made tries free =>
    obtain ⟨_, mode, rfl⟩ := bindSocket_some free
    refine ⟨?_, trivial, trivial⟩
    apply recorded.move
    · rw [latest_concat]
      exact ⟨mode, rfl⟩
    · intro _ entry opened
      rw [latest_concat] at opened
      cases opened
    · intro other different
      exact replacedBy_other _ (.inl rfl) different
    · simp [HubPhase.Own, latest_concat, replacedBy]
  | taken none => exact ⟨recorded.idle trivial, trivial⟩
  | blocked none =>
    refine ⟨recorded.panic, ?_, trivial⟩
    rcases replaced_since own with ⟨other, last, different⟩ | ⟨other, last, _⟩
    · exact ⟨other, different rfl, .inl ⟨last, own⟩⟩
    · rw [last] at file
      rw [show path.entry = Option.none from file] at none
      exact absurd none (bindSocket_none writable)
  | remove => exact ⟨recorded.removed writable leftover (.inl rfl), trivial, trivial⟩
  | clean => exact ⟨recorded.removed writable leftover (.inr rfl), trivial, trivial⟩
  | open_ made found =>
    refine ⟨?_, trivial, trivial⟩
    apply recorded.move
    · rw [latest_concat]
      rcases replaced_since own with ⟨other, last, _⟩ | ⟨other, last, _⟩
      · rw [last] at file
        obtain ⟨mode, bound⟩ := file
        rw [bound] at found
        cases found
        rw [last]
        exact ⟨0o666, rfl⟩
      · rw [last] at file
        rw [show path.entry = none from file] at found
        cases found
    · intro _ entry _ same
      cases same
      cases made <;> rfl
    · intro other _
      rw [latest_concat]
      rfl
    · trivial
  | gone none =>
    rw [none]
    refine ⟨?_, ?_, trivial⟩
    · have panicked : SocketPath.Recorded origin (log ++ [.panicked hub])
          { path.moved hub .panicked with entry := path.entry } := recorded.panic
      rw [none] at panicked
      exact panicked
    · rcases replaced_since own with ⟨other, last, _⟩ | ⟨other, last, different⟩
      · rw [last] at file
        obtain ⟨_, bound⟩ := file
        rw [none] at bound
        cases bound
      · exact ⟨other, different rfl, .inr ⟨last, own⟩⟩
  | interrupt => exact ⟨recorded.idle trivial, trivial⟩
  | kill _ alive => exact ⟨recorded.idle trivial, trivial⟩

theorem ServiceMoves.explained {services : Table Nat Connecting} (moves : ServiceMoves env path services out)
    (recorded : path.Recorded origin log) (opens : ∀ service, env.permits service 0o666 = true)
    (leftover : Leftover origin) :
    SocketPath.Recorded origin (log ++ out) { path with services := services } ∧
      JustifiedAfter (SocketExplained env origin) log out := by
  have silent : ∀ event, replaces event = false → changes event = false →
      (∀ hub, replacedBy hub event = false) →
      SocketPath.Recorded origin (log ++ [event]) { path with services := services } := by
    intro event replaced changed mine
    refine ⟨?_, ?_, ?_⟩
    · rw [latest_concat, replaced]
      exact recorded.file
    · rw [latest_concat, changed]
      exact recorded.mode
    · intro hub phase there
      have own := recorded.own hub phase there
      cases phase with
      | rebinding =>
        simp only [HubPhase.Own, latest_concat, mine]
        exact own
      | bound =>
        simp only [HubPhase.Own, latest_concat, mine]
        exact own
      | _ => trivial
  cases moves with
  | silent =>
    rw [List.append_nil]
    exact ⟨⟨recorded.file, recorded.mode, recorded.own⟩, trivial⟩
  | connected service hub ok =>
    refine ⟨silent _ rfl rfl fun _ => rfl, ?_, trivial⟩
    obtain ⟨_, mode, owned⟩ := connect_owner ok
    exact recorded.file.owner leftover owned
  | refused service fault critical =>
    refine ⟨silent _ rfl rfl fun _ => rfl, ?_, trivial⟩
    cases fault with
    | true => trivial
    | false =>
      obtain ⟨entry, found, refused⟩ := connect_critical (critical rfl)
      have file := recorded.file
      cases last : latest changes log with
      | none =>
        rw [Transition.latest_absent last replaces_changes] at file
        rw [show path.entry = origin from file] at found
        exact .inr ⟨last, entry, found, refused⟩
      | some newest =>
        cases newest with
        | bound hub => exact .inl ⟨hub, last⟩
        | removed hub =>
          rw [latest_narrow last rfl replaces_changes] at file
          rw [show path.entry = none from file] at found
          cases found
        | opened hub =>
          rw [recorded.mode hub entry last found, opens service] at refused
          cases refused
        | _ => cases Transition.latest_kind last

theorem run_explained (writable : env.writable = true) (opens : ∀ service, env.permits service 0o666 = true)
    (leftover : Leftover origin)
    (run : Transition.Run (SocketPath.step env) (SocketPath.initial origin) log path) :
    path.Recorded origin log ∧ Justified (SocketExplained env origin) log := by
  induction run with
  | start =>
    refine ⟨⟨rfl, ?_, ?_⟩, Transition.justified_nil⟩
    · intro _ _ opened
      cases opened
    · intro _ _ there
      cases there
  | @next log path _ _ _ _ _ taken ih =>
    obtain ⟨recorded, explained⟩ := ih
    cases SocketPath.step_cases taken with
    | launch =>
      rw [List.append_nil]
      refine ⟨⟨recorded.file, recorded.mode, ?_⟩, explained⟩
      exact Table.forall_insert (p := fun hub (phase : HubPhase) => phase.Own hub log) trivial recorded.own
    | hub _ hub before phase entry _ there moves =>
      obtain ⟨later, justified⟩ := moves.recorded recorded writable leftover there
      exact ⟨later, explained.append justified⟩
    | service _ services _ moves =>
      obtain ⟨later, justified⟩ := moves.explained recorded opens leftover
      exact ⟨later, explained.append justified⟩

/-- Hubs that share a socket path in any way. A service only ever reaches the hub that bound last, with no file
    removed since, it is refused only before the mode of the file is set, and a hub fails only because another
    one has bound or removed the file since its own turn. -/
theorem shared_path_explained (writable : env.writable = true) (opens : ∀ service, env.permits service 0o666 = true)
    (leftover : Leftover origin)
    (run : Transition.Run (SocketPath.step env) (SocketPath.initial origin) log path) :
    Justified (SocketExplained env origin) log :=
  (run_explained writable opens leftover run).2

/-- Two hubs find a file that an earlier one has left. -/
def racing : List SocketAction :=
  [.launch, .launch, .start 0 true, .start 1 true, .bind 0, .bind 1, .removeFile 0, .removeFile 1, .bind 0, .bind 1,
    .hubConnect 5, .hubConnect 6, .connect 5 false, .setPermissions 0, .connect 6 false]

theorem shared_path_explained_race : ∃ log path,
    Transition.Run (SocketPath.step plainPath) (SocketPath.initial (some (.socket none 0o666))) log path ∧
      [.panicked 1, .refused 5 false, .opened 0, .connected 6 0] <:+ log ∧
      Justified (SocketExplained plainPath (some (.socket none 0o666))) log := by
  obtain ⟨log, path, run, shown⟩ := Transition.exists_run_of_execute (SocketPath.step plainPath)
    (SocketPath.initial (some (.socket none 0o666))) racing
    (fun log _ => [.panicked 1, .refused 5 false, .opened 0, .connected 6 0] <:+ log) (by decide)
  refine ⟨log, path, run, of_decide_eq_true shown, shared_path_explained rfl (fun _ => rfl) ?_ run⟩
  intro found same
  cases same
  rfl

end KrossbarBus
