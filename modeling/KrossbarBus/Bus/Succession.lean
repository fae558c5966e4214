import KrossbarBus.Bus.SocketPath
import KrossbarBus.Transition.History
import KrossbarBus.Transition.Inevitability

namespace KrossbarBus

variable {env : SocketEnvironment} {path after : SocketPath} {action : SocketAction} {log out : List SocketEvent}
  {entry origin changed : Option Entry} {hub : Nat} {before phase : HubPhase}

/-- What a hub can rely on in its phase when no other is alive. -/
def HubPhase.Fits (hub : Nat) (entry : Option Entry) : HubPhase → Prop
  | .rebinding => entry = none
  | .bound => ∃ mode, entry = some (.socket (some hub) mode)
  | .serving => entry = some (.socket (some hub) 0o666)
  | .panicked => False
  | _ => True

def Removable (entry : Option Entry) : Prop := ∀ mode, entry ≠ some (.directory mode)

theorem HubPhase.Fits.of_ended (ended : phase.ended = true) (fits : phase.Fits hub entry) : phase.Fits hub changed := by
  cases phase with
  | exited => trivial
  | panicked => exact fits
  | killed => trivial
  | _ => cases ended

theorem removeFile_removable (writable : env.writable = true) (removable : Removable entry) :
    removeFile env entry = none := by
  cases entry with
  | none => simp [removeFile, writable]
  | some there =>
    cases there with
    | socket hub mode => simp [removeFile, writable]
    | file mode => simp [removeFile, writable]
    | directory mode => exact absurd rfl (removable mode)

theorem bindSocket_some {made : Entry} (bound : bindSocket env hub entry = some made) :
    entry = none ∧ ∃ mode, made = .socket (some hub) mode := by
  cases entry with
  | none =>
    simp only [bindSocket] at bound
    split at bound
    · cases bound
      exact ⟨rfl, _, rfl⟩
    · cases bound
  | some there => cases bound

theorem bindSocket_none (writable : env.writable = true) : bindSocket env hub none ≠ none := by
  simp [bindSocket, writable]

/-- A hub that is alone keeps what it relies on. -/
theorem HubMoves.fits (writable : env.writable = true) (moves : HubMoves env hub entry before phase changed out)
    (removable : Removable entry) (fits : before.Fits hub entry) : phase.Fits hub changed ∧ Removable changed := by
  cases moves with
  | start found =>
    refine ⟨?_, removable⟩
    cases found <;> trivial
  | bind _ made tries free =>
    obtain ⟨_, mode, rfl⟩ := bindSocket_some free
    exact ⟨⟨mode, rfl⟩, fun _ same => by cases same⟩
  | taken none => exact ⟨trivial, removable⟩
  | blocked none =>
    rw [show entry = Option.none from fits] at none
    exact absurd none (bindSocket_none writable)
  | remove =>
    rw [removeFile_removable writable removable]
    exact ⟨rfl, fun _ same => by cases same⟩
  | clean =>
    rw [removeFile_removable writable removable]
    exact ⟨trivial, fun _ same => by cases same⟩
  | open_ there found =>
    obtain ⟨mode, same⟩ := fits
    rw [found] at same
    cases same
    exact ⟨rfl, fun _ same => by cases same⟩
  | gone none =>
    obtain ⟨mode, same⟩ := fits
    rw [none] at same
    cases same
  | interrupt => exact ⟨trivial, removable⟩
  | kill _ alive => exact ⟨trivial, removable⟩

theorem HubMoves.alive (moves : HubMoves env hub entry before phase changed out) : before.ended = false := by
  cases moves with
  | bind _ _ tries =>
    rcases tries with rfl | rfl
    · rfl
    · rfl
  | kill _ alive => exact alive
  | _ => rfl

structure SocketPath.Orderly (path : SocketPath) : Prop where
  fresh : ∀ hub phase, path.hubs.get hub = some phase → hub < path.clock
  alone : ∀ hub phase other found, path.hubs.get hub = some phase → path.hubs.get other = some found →
    phase.ended = false → found.ended = false → hub = other
  fits : ∀ hub phase, path.hubs.get hub = some phase → phase.Fits hub path.entry
  removable : Removable path.entry

/-- A hub is started only when those before it have ended. -/
def OneAtATime (path : SocketPath) (action : SocketAction) : Prop :=
  action = .launch → ∀ hub phase, path.hubs.get hub = some phase → phase.ended = true

theorem SocketPath.Orderly.step (orderly : path.Orderly) (writable : env.writable = true)
    (allowed : OneAtATime path action) (taken : SocketPath.step env path action = some (after, out)) :
    after.Orderly := by
  cases SocketPath.step_cases taken with
  | launch =>
    have ended := allowed rfl
    refine ⟨Table.fresh_next orderly.fresh, ?_, ?_, orderly.removable⟩
    · intro hub phase other found there present alive lives
      have new : ∀ number phase, (path.hubs.insert path.clock .launched).get number = some phase →
          phase.ended = false → number = path.clock := by
        intro number phase there alive
        by_contra different
        rw [Table.get_insert_of_ne different] at there
        rw [ended number phase there] at alive
        cases alive
      rw [new hub phase there alive, new other found present lives]
    · exact Table.forall_insert (p := fun hub (phase : HubPhase) => phase.Fits hub path.entry) trivial orderly.fits
  | hub _ hub before phase entry _ there moves =>
    obtain ⟨fits, removable⟩ := moves.fits writable orderly.removable (orderly.fits hub before there)
    have old : ∀ number found, (path.hubs.insert hub phase).get number = some found → found.ended = false →
        number = hub := by
      intro number found present lives
      by_contra different
      rw [Table.get_insert_of_ne different] at present
      exact different (orderly.alone number found hub before present there lives moves.alive)
    refine ⟨Table.fresh_insert orderly.fresh there, ?_, ?_, removable⟩
    · intro one phase other found present again alive lives
      rw [old one phase present alive, old other found again lives]
    · intro number found present
      by_cases same : number = hub
      · subst same
        have now : (path.hubs.insert number phase).get number = some found := present
        rw [Table.get_insert_self] at now
        cases now
        exact fits
      · cases lives : found.ended with
        | false => exact absurd (old number found present lives) same
        | true =>
          have earlier : (path.hubs.insert hub phase).get number = some found := present
          rw [Table.get_insert_of_ne same] at earlier
          exact (orderly.fits number found earlier).of_ended lives
  | service _ services _ moves => exact ⟨orderly.fresh, orderly.alone, orderly.fits, orderly.removable⟩

theorem orderly_initial (removable : Removable origin) : (SocketPath.initial origin).Orderly :=
  ⟨fun _ _ there => (by cases there), fun _ _ _ _ there => (by cases there), fun _ _ there => (by cases there),
    removable⟩

theorem run_orderly (writable : env.writable = true) (removable : Removable origin)
    (run : Transition.RunWith (SocketPath.step env) OneAtATime (SocketPath.initial origin) log path) :
    path.Orderly := by
  induction run with
  | start => exact orderly_initial removable
  | next _ ok taken ih => exact ih.step writable ok taken

/-- The steps by which a hub comes to serve. -/
def proceeds (hub : Nat) : SocketAction → Prop
  | .start starter found => starter = hub ∧ found = true
  | .bind binder => binder = hub
  | .removeFile remover => remover = hub
  | .setPermissions opener => opener = hub
  | _ => False

/-- The steps that are left until a hub serves. -/
def HubPhase.left : HubPhase → Option Nat
  | .launched => some 5
  | .binding => some 4
  | .hanging => some 3
  | .rebinding => some 2
  | .bound => some 1
  | .serving => some 0
  | _ => none

theorem proceeds_step (writable : env.writable = true) {left : Nat} (there : path.hubs.get hub = some before)
    (starting : before.left = some left) (orderly : path.Orderly) (mine : proceeds hub action)
    (taken : SocketPath.step env path action = some (after, out)) :
    ∃ phase less, after.hubs.get hub = some phase ∧ phase.left = some less ∧ less < left := by
  have fits := orderly.fits hub before there
  cases action with
  | start starter found =>
    obtain ⟨rfl, rfl⟩ := mine
    simp only [SocketPath.step, there] at taken
    split at taken
    · rename_i now
      cases now
      cases starting
      cases taken
      exact ⟨.binding, 4, Table.get_insert_self, rfl, by decide⟩
    · cases taken
  | bind binder =>
    obtain rfl := mine
    simp only [SocketPath.step, there] at taken
    split at taken
    · rename_i now
      cases now
      cases starting
      split at taken
      · cases taken
        exact ⟨.bound, 1, Table.get_insert_self, rfl, by decide⟩
      · cases taken
        exact ⟨.hanging, 3, Table.get_insert_self, rfl, by decide⟩
    · rename_i now
      cases now
      cases starting
      split at taken
      · cases taken
        exact ⟨.bound, 1, Table.get_insert_self, rfl, by decide⟩
      · rename_i none
        rw [show path.entry = Option.none from fits] at none
        exact absurd none (bindSocket_none writable)
    · cases taken
  | removeFile remover =>
    obtain rfl := mine
    simp only [SocketPath.step, there] at taken
    split at taken
    · rename_i now
      cases now
      cases starting
      cases taken
      exact ⟨.rebinding, 2, Table.get_insert_self, rfl, by decide⟩
    · rename_i now
      cases now
      cases starting
    · cases taken
  | setPermissions opener =>
    obtain rfl := mine
    simp only [SocketPath.step, there] at taken
    split at taken
    · rename_i now
      cases now
      cases starting
      obtain ⟨mode, same⟩ := fits
      rw [same] at taken
      cases taken
      exact ⟨.serving, 0, Table.get_insert_self, rfl, by decide⟩
    · cases taken
  | _ => exact absurd mine id

theorem proceeds_enabled {left : Nat} (there : path.hubs.get hub = some before) (starting : before.left = some left)
    (waiting : before ≠ .serving) :
    ∃ action after out, proceeds hub action ∧ SocketPath.step env path action = some (after, out) := by
  cases before with
  | launched => exact ⟨.start hub true, _, _, ⟨rfl, rfl⟩, by simp only [SocketPath.step, there]; rfl⟩
  | binding =>
    cases free : bindSocket env hub path.entry with
    | none => exact ⟨.bind hub, _, _, rfl, by simp only [SocketPath.step, there, free]; rfl⟩
    | some made => exact ⟨.bind hub, _, _, rfl, by simp only [SocketPath.step, there, free]; rfl⟩
  | hanging => exact ⟨.removeFile hub, _, _, rfl, by simp only [SocketPath.step, there]; rfl⟩
  | rebinding =>
    cases free : bindSocket env hub path.entry with
    | none => exact ⟨.bind hub, _, _, rfl, by simp only [SocketPath.step, there, free]; rfl⟩
    | some made => exact ⟨.bind hub, _, _, rfl, by simp only [SocketPath.step, there, free]; rfl⟩
  | bound =>
    cases found : path.entry with
    | none => exact ⟨.setPermissions hub, _, _, rfl, by simp only [SocketPath.step, there, found]; rfl⟩
    | some entry => exact ⟨.setPermissions hub, _, _, rfl, by simp only [SocketPath.step, there, found]; rfl⟩
  | serving => exact absurd rfl waiting
  | _ => cases starting

theorem proceeds_orderly (mine : proceeds hub action) : OneAtATime path action := by
  intro launch
  subst launch
  exact absurd mine id

theorem comes_to_serve (writable : env.writable = true) (orderly : path.Orderly) {left : Nat}
    (there : path.hubs.get hub = some before) (starting : before.left = some left) :
    Transition.Inevitably (SocketPath.step env) (fun _ => proceeds hub)
      (fun path => path.hubs.get hub = some .serving) path := by
  apply Transition.Inevitably.of_wellFounded (r := (· < ·)) Nat.lt_wfRel.wf
    (I := fun path => path.Orderly ∧ ∃ phase left, path.hubs.get hub = some phase ∧ phase.left = some left)
    (fun path => ((path.hubs.get hub).bind HubPhase.left).getD 0)
  · intro path action after out ⟨orderly, phase, left, there, starting⟩ mine taken
    obtain ⟨later, less, now, remains, smaller⟩ := proceeds_step writable there starting orderly mine taken
    refine ⟨⟨orderly.step writable (proceeds_orderly mine) taken, later, less, now, remains⟩, ?_⟩
    simpa [there, starting, now, remains] using smaller
  · intro path ⟨orderly, phase, left, there, starting⟩
    by_cases serves : phase = .serving
    · subst serves
      exact .inl there
    · exact .inr (proceeds_enabled there starting serves)
  · exact ⟨orderly, before, left, there, starting⟩

/-- Hubs that follow one another on a socket path, however each of them ends: none fails for what the one before
    has left there, each comes to serve, and while one serves every service reaches it. -/
theorem hubs_succeed (writable : env.writable = true) (opens : ∀ service, env.permits service 0o666 = true)
    (removable : Removable origin)
    (run : Transition.RunWith (SocketPath.step env) OneAtATime (SocketPath.initial origin) log path) :
    (∀ hub, path.hubs.get hub ≠ some .panicked) ∧
    (∀ hub phase left, path.hubs.get hub = some phase → phase.left = some left →
      Transition.Inevitably (SocketPath.step env) (fun _ => proceeds hub)
        (fun path => path.hubs.get hub = some .serving) path) ∧
    ∀ hub service, path.hubs.get hub = some .serving → path.connect env service = .ok hub := by
  have orderly := run_orderly writable removable run
  refine ⟨?_, ?_, ?_⟩
  · intro hub there
    exact orderly.fits hub .panicked there
  · intro hub phase left there starting
    exact comes_to_serve writable orderly there starting
  · intro hub service there
    have file : path.entry = some (.socket (some hub) 0o666) := orderly.fits hub .serving there
    have open_ : path.listening hub = true := by simp [SocketPath.listening, there, HubPhase.listens]
    simp [SocketPath.connect, file, Entry.mode, opens service, open_]

/-- A directory in which everybody may connect to what has the write bit for all. -/
def plainPath : SocketEnvironment where
  writable := true
  umask := 0o022
  permits _ mode := mode &&& 0o002 != 0

/-- The second hub finds the file of the first, which was killed. -/
def succeeding : List SocketAction :=
  [.launch, .start 0 true, .bind 0, .setPermissions 0, .kill 0, .launch, .start 1 true, .bind 1, .removeFile 1,
    .bind 1, .setPermissions 1]

def oneAtATime (path : SocketPath) : SocketAction → Bool
  | .launch => (List.range path.clock).all fun hub => (path.hubs.get hub).all HubPhase.ended
  | _ => true

theorem oneAtATime_sound (orderly : path.Orderly) (ok : oneAtATime path action = true) : OneAtATime path action := by
  intro launch hub phase there
  subst launch
  simp only [oneAtATime, List.all_eq_true, List.mem_range] at ok
  have ended := ok hub (orderly.fresh hub phase there)
  rw [there] at ended
  exact ended

theorem hubs_succeed_killed : ∃ log path,
    Transition.RunWith (SocketPath.step plainPath) OneAtATime (SocketPath.initial none) log path ∧
      path.hubs.get 1 = some .serving ∧ path.connect plainPath 5 = .ok 1 := by
  obtain ⟨log, path, guarded, serves⟩ := Transition.exists_run_of_execute
    (Transition.guarded (SocketPath.step plainPath) oneAtATime) (SocketPath.initial none) succeeding
    (fun _ path => path.hubs.get 1 = some .serving) (by decide)
  have removable : Removable none := fun _ same => by cases same
  have run : Transition.RunWith (SocketPath.step plainPath) OneAtATime (SocketPath.initial none) log path :=
    .of_guarded (fun _ _ _ run ok => oneAtATime_sound (run_orderly rfl removable run) ok) guarded
  have serving := of_decide_eq_true serves
  have ⟨_, _, reached⟩ := hubs_succeed rfl (fun _ => rfl) removable run
  exact ⟨log, path, run, serving, reached 1 5 serving⟩

end KrossbarBus
