import KrossbarBus.Broadcast.History
import KrossbarBus.Lib.Signal

namespace KrossbarLib

open Broadcast

variable {T Bson : Type} {toBson : T → Except String Bson} {signal after : Signal T Bson} {call : Nat}
  {phase : SignalPhase T Bson} {input : SignalInput} {action : SignalAction T} {log out : List (SignalEvent Bson)}
  {client : SignalClient} {bson : Bson} {remaining kept : List SignalClient}

/-- A join, or an emission with its number and what the writers of the clients have said to it. -/
abbrev SignalOp (Bson : Type) := Op SignalClient (Nat × Bson)

def answer (call : Nat) (bson : Bson) : SignalClient × Bool → SignalEvent Bson
  | (client, true) => .delivered client call bson
  | (client, false) => .refused client call

/-- The part of a log that an operation is. -/
def signalEvents : SignalOp Bson → List (SignalEvent Bson)
  | .join client => [.joined client]
  | .cast (call, bson) answers => answers.map (answer call bson) ++ [.emitted call bson]

def SignalEvent.succeeds : SignalEvent Bson → Bool
  | .failed .. => false
  | _ => true

/-- What a client has been sent, with the number of the emission. -/
def deliveries (client : SignalClient) (log : List (SignalEvent Bson)) : List (Nat × Bson) :=
  log.filterMap fun
    | .delivered receiver call bson => if receiver = client then some (call, bson) else none
    | _ => none

def SignalPhase.holds : SignalPhase T Bson → Bool
  | .responding .. => true
  | _ => false

/-- The log up to the emission in progress is that of a sequence of joins and whole emissions. -/
structure Signal.Broadcasts (log : List (SignalEvent Bson)) (signal : Signal T Bson)
    (history : List (SignalOp Bson)) : Prop where
  fresh : ∀ call phase, signal.tasks.get call = some phase → call < signal.clock
  guard : signal.tasks.Guards SignalPhase.holds signal.clientsLock
  valid : Valid [] history
  once : (joined history).Nodup
  apart : ((casts history).map Prod.fst).Nodup
  adding : ∀ call client, signal.tasks.get call = some (.adding client) → client.call = call
  joinEnded : ∀ client ∈ joined history, signal.tasks.get client.call = some .finished
  castEnded : ∀ cast ∈ casts history, signal.tasks.get cast.1 = some .finished
  failEnded : ∀ call text, .failed call text ∈ log → signal.tasks.get call = some .finished ∧
    call ∉ (casts history).map Prod.fst
  idle : signal.clientsLock = none → signal.clients = roster [] history ∧
    log.filter SignalEvent.succeeds = history.flatMap signalEvents
  serving : ∀ call bson client remaining kept,
    signal.tasks.get call = some (.responding bson client remaining kept) → ∃ answers,
      roster [] history = answers.map Prod.fst ++ client :: remaining ∧ kept = accepted answers ∧
      log.filter SignalEvent.succeeds = history.flatMap signalEvents ++ answers.map (answer call bson)

variable {history : List (SignalOp Bson)}

theorem Signal.Broadcasts.unused (broadcasts : signal.Broadcasts log history) :
    signal.tasks.get signal.clock = none := Table.fresh_absent broadcasts.fresh

theorem Signal.Broadcasts.begin (broadcasts : signal.Broadcasts log history) {next : SignalPhase T Bson}
    (starts : (∃ sub_id writer, next = .adding ⟨signal.clock, sub_id, writer⟩) ∨ ∃ data, next = .emitting data) :
    (signal.begin next).Broadcasts log history := by
  have idle : next.holds = false := by
    rcases starts with ⟨_, _, rfl⟩ | ⟨_, rfl⟩ <;> rfl
  have kept : ∀ {call phase}, signal.tasks.get call = some phase →
      (signal.begin next).tasks.get call = some phase := by
    intro call phase present
    have different : call ≠ signal.clock := Nat.ne_of_lt (broadcasts.fresh call phase present)
    exact (Table.get_insert_of_ne different).trans present
  refine ⟨?_, broadcasts.guard.spawn broadcasts.unused idle, broadcasts.valid, broadcasts.once, broadcasts.apart,
    ?_, ?_, ?_, ?_, broadcasts.idle, ?_⟩
  · exact Table.fresh_next broadcasts.fresh
  · intro call client there
    simp only [Signal.begin, Table.get_insert] at there
    split at there
    · rename_i this
      rcases starts with ⟨sub_id, writer, rfl⟩ | ⟨data, rfl⟩ <;> cases there
      exact this.symm
    · exact broadcasts.adding call client there
  · exact fun client member => kept (broadcasts.joinEnded client member)
  · exact fun cast member => kept (broadcasts.castEnded cast member)
  · intro call text member
    obtain ⟨finished, silent⟩ := broadcasts.failEnded call text member
    exact ⟨kept finished, silent⟩
  · intro call bson client remaining kept there
    simp only [Signal.begin, Table.get_insert] at there
    split at there
    · rcases starts with ⟨_, _, rfl⟩ | ⟨_, rfl⟩ <;> cases there
    · exact broadcasts.serving call bson client remaining kept there

/-- What every step of a future keeps: the futures that have ended, and those of the other calls. -/
structure Advances (signal after : Signal T Bson) (call : Nat) (next : SignalPhase T Bson) : Prop where
  tasks : after.tasks = signal.tasks.insert call next
  clock : after.clock = signal.clock

theorem Advances.get (advances : Advances signal after call phase) (other : Nat) :
    after.tasks.get other = if other = call then some phase else signal.tasks.get other := by
  rw [advances.tasks, Table.get_insert]

theorem ended_elsewhere (present : signal.tasks.get call = some phase) (going : phase ≠ .finished) {other : Nat}
    (finished : signal.tasks.get other = some .finished) : other ≠ call := by
  intro same
  rw [same, present] at finished
  exact going (Option.some.inj finished)

theorem Advances.ended {next : SignalPhase T Bson} (advances : Advances signal after call next)
    (present : signal.tasks.get call = some phase) (going : phase ≠ .finished) {other : Nat}
    (finished : signal.tasks.get other = some .finished) : after.tasks.get other = some .finished := by
  rw [advances.get, if_neg (ended_elsewhere present going finished)]
  exact finished

theorem Signal.Broadcasts.fresh_after (broadcasts : signal.Broadcasts log history) {next : SignalPhase T Bson}
    (advances : Advances signal after call next) (present : signal.tasks.get call = some phase) (other : Nat)
    (found : SignalPhase T Bson) : after.tasks.get other = some found → other < after.clock := by
  rw [advances.tasks, advances.clock]
  exact Table.fresh_insert broadcasts.fresh present other found

theorem Signal.Broadcasts.adding_after (broadcasts : signal.Broadcasts log history) {next : SignalPhase T Bson}
    (advances : Advances signal after call next) (quiet : ∀ client, next ≠ .adding client) (other : Nat)
    (found : SignalClient) (there : after.tasks.get other = some (.adding found)) : found.call = other := by
  rw [advances.get] at there
  split at there
  · exact absurd (Option.some.inj there) (quiet found)
  · exact broadcasts.adding other found there

/-- Nobody but the future that runs is in an emission. -/
theorem Signal.Broadcasts.alone (broadcasts : signal.Broadcasts log history)
    (present : signal.tasks.get call = some phase) (free : signal.clientsLock = none ∨ phase.holds = true)
    {other : Nat} (different : other ≠ call) :
    signal.tasks.get other ≠ some (.responding bson client remaining kept) := by
  intro there
  have held := broadcasts.guard.held there rfl
  rcases free with free | holds
  · rw [free] at held
    cases held
  · rw [broadcasts.guard.held present holds] at held
    cases held
    exact different rfl

theorem Signal.Broadcasts.unserved_after (broadcasts : signal.Broadcasts log history) {next : SignalPhase T Bson}
    (advances : Advances signal after call next) (present : signal.tasks.get call = some phase)
    (free : signal.clientsLock = none ∨ phase.holds = true) (now : next.holds = false) (other : Nat) :
    after.tasks.get other ≠ some (.responding bson client remaining kept) := by
  rw [advances.get]
  split
  · intro there
    rw [Option.some.inj there] at now
    cases now
  · rename_i different
    exact broadcasts.alone present free different

theorem Signal.Broadcasts.uncast (broadcasts : signal.Broadcasts log history)
    (present : signal.tasks.get call = some phase) (going : phase ≠ .finished) :
    call ∉ (casts history).map Prod.fst := by
  intro member
  obtain ⟨cast, cast_member, rfl⟩ := List.mem_map.mp member
  rw [broadcasts.castEnded cast cast_member] at present
  exact going (Option.some.inj present).symm

/-- A future that neither joins anybody nor sends anything goes on. -/
theorem Signal.Broadcasts.pass (broadcasts : signal.Broadcasts log history) {next : SignalPhase T Bson}
    (present : signal.tasks.get call = some phase) (going : phase ≠ .finished) (was : phase.holds = false)
    (now : next.holds = false) (quiet : ∀ client, next ≠ .adding client)
    (same : out.filter SignalEvent.succeeds = [])
    (fails : ∀ other text, .failed other text ∈ out → other = call ∧ next = .finished) :
    (signal.goto call next).Broadcasts (log ++ out) history := by
  have advances : Advances signal (signal.goto call next) call next := ⟨rfl, rfl⟩
  have shown : (log ++ out).filter SignalEvent.succeeds = log.filter SignalEvent.succeeds := by
    rw [List.filter_append, same, List.append_nil]
  refine ⟨broadcasts.fresh_after advances present, broadcasts.guard.pass present was now, broadcasts.valid,
    broadcasts.once, broadcasts.apart, ?_, ?_, ?_, ?_, ?_, ?_⟩
  · exact broadcasts.adding_after advances quiet
  · exact fun client member => advances.ended present going (broadcasts.joinEnded client member)
  · exact fun cast member => advances.ended present going (broadcasts.castEnded cast member)
  · intro other text member
    rcases List.mem_append.mp member with old | new
    · obtain ⟨finished, silent⟩ := broadcasts.failEnded other text old
      exact ⟨advances.ended present going finished, silent⟩
    · obtain ⟨rfl, rfl⟩ := fails other text new
      exact ⟨by rw [advances.get, if_pos rfl], broadcasts.uncast present going⟩
  · rw [shown]
    exact broadcasts.idle
  · intro other bson client remaining kept there
    rw [advances.get] at there
    rw [shown]
    split at there
    · cases there
      cases now
    · exact broadcasts.serving other bson client remaining kept there

theorem Signal.Broadcasts.push (broadcasts : signal.Broadcasts log history)
    (present : signal.tasks.get call = some (.adding client)) (free : signal.clientsLock = none) :
    Signal.Broadcasts (log ++ [.joined client])
      { signal.goto call .finished with clients := signal.clients ++ [client] } (history ++ [.join client]) := by
  have advances : Advances signal { signal.goto call .finished with clients := signal.clients ++ [client] } call
      .finished := ⟨rfl, rfl⟩
  have going : (.adding client : SignalPhase T Bson) ≠ .finished := by simp
  have self := broadcasts.adding call client present
  have new : client ∉ joined history := by
    intro member
    have ended := broadcasts.joinEnded client member
    rw [self, present] at ended
    cases ended
  obtain ⟨clients, shown⟩ := broadcasts.idle free
  refine ⟨broadcasts.fresh_after advances present, broadcasts.guard.pass present rfl rfl, ?_, ?_, ?_, ?_, ?_, ?_, ?_,
    ?_, ?_⟩
  · exact valid_append.mpr ⟨broadcasts.valid, trivial⟩
  · rw [joined_append]
    simpa [joined] using List.Nodup.concat new broadcasts.once
  · simpa [casts] using broadcasts.apart
  · exact broadcasts.adding_after advances (by simp)
  · intro other member
    rw [joined_append] at member
    rcases List.mem_append.mp member with old | added
    · exact advances.ended present going (broadcasts.joinEnded other old)
    · obtain rfl : other = client := by simpa [joined] using added
      rw [advances.get, if_pos self]
  · intro cast member
    have member : cast ∈ casts history := by simpa [casts] using member
    exact advances.ended present going (broadcasts.castEnded cast member)
  · intro other text member
    have member : .failed other text ∈ log := by simpa using member
    obtain ⟨finished, silent⟩ := broadcasts.failEnded other text member
    exact ⟨advances.ended present going finished, by simpa [casts] using silent⟩
  · intro _
    rw [List.filter_append, shown, roster_append, ← clients]
    exact ⟨rfl, by simp [signalEvents, SignalEvent.succeeds]⟩
  · intro other bson found remaining kept there
    exact absurd there (broadcasts.unserved_after advances present (.inl free) rfl other)

/-- An emission is through. -/
theorem Signal.Broadcasts.conclude (broadcasts : signal.Broadcasts log history)
    (present : signal.tasks.get call = some phase) (going : phase ≠ .finished)
    (free : signal.clientsLock = none ∨ phase.holds = true) {answers : List (SignalClient × Bool)}
    (asked : roster [] history = answers.map Prod.fst)
    (shown : (log ++ out).filter SignalEvent.succeeds =
      history.flatMap signalEvents ++ answers.map (answer call bson))
    (fails : ∀ other text, .failed other text ∉ out) :
    (signal.broadcast call bson (accepted answers) []).1.Broadcasts (log ++ out ++ [.emitted call bson])
      (history ++ [.cast (call, bson) answers]) := by
  have advances : Advances signal (signal.broadcast call bson (accepted answers) []).1 call .finished := ⟨rfl, rfl⟩
  refine ⟨broadcasts.fresh_after advances present, broadcasts.guard.vacate present free rfl, ?_, ?_, ?_, ?_, ?_, ?_,
    ?_, ?_, ?_⟩
  · exact valid_append.mpr ⟨broadcasts.valid, asked.symm, trivial⟩
  · simpa [joined] using broadcasts.once
  · have new := broadcasts.uncast present going
    rw [casts_append, List.map_append]
    simpa [casts] using List.Nodup.concat new broadcasts.apart
  · exact broadcasts.adding_after advances (by simp)
  · intro client member
    have member : client ∈ joined history := by simpa [joined] using member
    exact advances.ended present going (broadcasts.joinEnded client member)
  · intro cast member
    rw [casts_append] at member
    rcases List.mem_append.mp member with old | new
    · exact advances.ended present going (broadcasts.castEnded cast old)
    · obtain rfl : cast = (call, bson) := by simpa [casts] using new
      rw [advances.get, if_pos rfl]
  · intro other text member
    have old : .failed other text ∈ log := by
      have member : .failed other text ∈ log ++ out := by simpa using member
      exact (List.mem_append.mp member).resolve_right (fails other text)
    obtain ⟨finished, silent⟩ := broadcasts.failEnded other text old
    have different := ended_elsewhere present going finished
    refine ⟨advances.ended present going finished, ?_⟩
    rw [casts_append, List.map_append, List.mem_append]
    simpa [casts, different] using silent
  · intro _
    rw [List.filter_append, shown, roster_append]
    refine ⟨rfl, ?_⟩
    simp [signalEvents, SignalEvent.succeeds]
  · intro other bson client remaining kept there
    exact absurd there (broadcasts.unserved_after advances present free rfl other)

/-- An emission asks the next client. -/
theorem Signal.Broadcasts.ask (broadcasts : signal.Broadcasts log history)
    (present : signal.tasks.get call = some phase) (going : phase ≠ .finished)
    (free : signal.clientsLock = none ∨ phase.holds = true) {answers : List (SignalClient × Bool)}
    (asked : roster [] history = answers.map Prod.fst ++ client :: remaining)
    (shown : (log ++ out).filter SignalEvent.succeeds =
      history.flatMap signalEvents ++ answers.map (answer call bson))
    (fails : ∀ other text, .failed other text ∉ out) :
    (signal.broadcast call bson (accepted answers) (client :: remaining)).1.Broadcasts (log ++ out) history := by
  have advances : Advances signal (signal.broadcast call bson (accepted answers) (client :: remaining)).1 call
      (.responding bson client remaining (accepted answers)) := ⟨rfl, rfl⟩
  refine ⟨broadcasts.fresh_after advances present, broadcasts.guard.take present free rfl, broadcasts.valid,
    broadcasts.once, broadcasts.apart, ?_, ?_, ?_, ?_, ?_, ?_⟩
  · exact broadcasts.adding_after advances (by simp)
  · exact fun found member => advances.ended present going (broadcasts.joinEnded found member)
  · exact fun cast member => advances.ended present going (broadcasts.castEnded cast member)
  · intro other text member
    have old := (List.mem_append.mp member).resolve_right (fails other text)
    obtain ⟨finished, silent⟩ := broadcasts.failEnded other text old
    exact ⟨advances.ended present going finished, silent⟩
  · intro impossible
    cases impossible
  · intro other found receiver rest kept there
    rw [advances.get] at there
    split at there
    · rename_i this
      cases there
      exact ⟨answers, asked, rfl, by rw [shown, this]⟩
    · rename_i different
      exact absurd there (broadcasts.alone present free different)

theorem Signal.Broadcasts.broadcast (broadcasts : signal.Broadcasts log history)
    (present : signal.tasks.get call = some phase) (going : phase ≠ .finished)
    (free : signal.clientsLock = none ∨ phase.holds = true) {answers : List (SignalClient × Bool)}
    (asked : roster [] history = answers.map Prod.fst ++ remaining)
    (shown : (log ++ out).filter SignalEvent.succeeds =
      history.flatMap signalEvents ++ answers.map (answer call bson))
    (fails : ∀ other text, .failed other text ∉ out) :
    ∃ next, (signal.broadcast call bson (accepted answers) remaining).1.Broadcasts
      (log ++ (out ++ (signal.broadcast call bson (accepted answers) remaining).2)) next := by
  cases remaining with
  | nil =>
    rw [List.append_nil] at asked
    have concluded := broadcasts.conclude present going free asked shown fails
    rw [List.append_assoc] at concluded
    exact ⟨_, concluded⟩
  | cons client remaining =>
    have asks := broadcasts.ask present going free asked shown fails
    refine ⟨history, ?_⟩
    rw [Signal.broadcast, List.append_nil]
    exact asks

theorem Signal.Broadcasts.answered (broadcasts : signal.Broadcasts log history)
    (present : signal.tasks.get call = some (.responding bson client remaining kept)) (ok : Bool) :
    ∃ next, (signal.answered call bson client remaining kept ok).1.Broadcasts
      (log ++ (signal.answered call bson client remaining kept ok).2) next := by
  obtain ⟨answers, asked, rfl, shown⟩ := broadcasts.serving call bson client remaining kept present
  have asked : roster [] history = (answers ++ [(client, ok)]).map Prod.fst ++ remaining := by
    rw [asked]
    simp
  have succeeds : SignalEvent.succeeds (answer call bson (client, ok)) = true := by cases ok <;> rfl
  have shown : (log ++ [answer call bson (client, ok)]).filter SignalEvent.succeeds =
      history.flatMap signalEvents ++ (answers ++ [(client, ok)]).map (answer call bson) := by
    rw [List.filter_append, shown, List.map_append, ← List.append_assoc]
    simp [succeeds]
  have fails : ∀ other text, .failed other text ∉ [answer call bson (client, ok)] := by
    intro other text
    cases ok <;> simp [answer]
  have result := broadcasts.broadcast present (by simp) (.inr rfl) asked shown fails
  cases ok with
  | true => simpa [Signal.answered, accepted, answer] using result
  | false => simpa [Signal.answered, accepted, answer] using result

theorem Signal.Broadcasts.resume (broadcasts : signal.Broadcasts log history)
    (present : signal.tasks.get call = some phase) {result : Signal T Bson × List (SignalEvent Bson)}
    (resumes : signal.Resumes toBson call phase input result) :
    ∃ next, result.1.Broadcasts (log ++ result.2) next := by
  cases resumes with
  | pushed client free => exact ⟨_, broadcasts.push present free⟩
  | serialized data bson ok =>
    exact ⟨history, broadcasts.pass present (by simp) rfl rfl (by simp) rfl (by simp)⟩
  | failed data text error =>
    refine ⟨history, broadcasts.pass present (by simp) rfl rfl (by simp) rfl ?_⟩
    intro other found member
    cases List.mem_singleton.mp member
    exact ⟨rfl, rfl⟩
  | drained bson free =>
    obtain ⟨clients, shown⟩ := broadcasts.idle free
    have asked : roster [] history = (List.map Prod.fst ([] : List (SignalClient × Bool))) ++ signal.clients :=
      clients.symm
    have shown : (log ++ []).filter SignalEvent.succeeds = history.flatMap signalEvents ++
        List.map (answer call bson) [] := by
      rw [List.append_nil, shown]
      simp
    exact broadcasts.broadcast present (by simp) (.inl free) asked shown (by simp)
  | answered bson client remaining kept ok => exact broadcasts.answered present ok

theorem run_broadcasts (run : Transition.Run (Signal.step toBson) .new log signal) :
    ∃ history, signal.Broadcasts log history := by
  apply run.invariant (I := fun log signal => ∃ history, signal.Broadcasts log history)
  · refine ⟨[], ?_⟩
    constructor <;> simp [Signal.new, joined, casts, Valid, roster, Table.Guards]
  · rintro log signal action after out _ ⟨history, broadcasts⟩ _ taken
    rcases Signal.step_cases taken with ⟨starts, rfl⟩ | ⟨call, input, phase, rfl, present, resumes⟩
    · refine ⟨history, ?_⟩
      rw [List.append_nil]
      rcases starts with ⟨sub_id, writer, rfl⟩ | ⟨data, rfl⟩
      · exact broadcasts.begin (.inl ⟨sub_id, writer, rfl⟩)
      · exact broadcasts.begin (.inr ⟨data, rfl⟩)
    · exact broadcasts.resume present resumes

@[simp] theorem deliveries_append (client : SignalClient) (log out : List (SignalEvent Bson)) :
    deliveries client (log ++ out) = deliveries client log ++ deliveries client out := List.filterMap_append

theorem deliveries_succeeds (client : SignalClient) (log : List (SignalEvent Bson)) :
    deliveries client (log.filter SignalEvent.succeeds) = deliveries client log := by
  induction log with
  | nil => rfl
  | cons event log ih =>
    have split : ∀ rest : List (SignalEvent Bson), event :: rest = [event] ++ rest := fun _ => rfl
    cases event with
    | failed call text =>
      rw [split, deliveries_append, ← ih]
      rfl
    | _ =>
      rw [List.filter_cons_of_pos rfl, split, deliveries_append, ih, ← deliveries_append]
      rfl

theorem deliveries_answers {answers : List (SignalClient × Bool)} (nodup : (answers.map Prod.fst).Nodup)
    (client : SignalClient) (call : Nat) (bson : Bson) :
    deliveries client (answers.map (answer call bson)) = if (client, true) ∈ answers then [(call, bson)] else [] := by
  induction answers with
  | nil => rfl
  | cons first answers ih =>
    obtain ⟨other, ok⟩ := first
    obtain ⟨alone, nodup⟩ := List.nodup_cons.mp nodup
    have apart : deliveries client (answer call bson (other, ok) :: answers.map (answer call bson)) =
        deliveries client [answer call bson (other, ok)] ++ deliveries client (answers.map (answer call bson)) :=
      deliveries_append client [answer call bson (other, ok)] _
    rw [List.map_cons, apart, ih nodup]
    by_cases same : other = client
    · subst same
      have absent : (other, true) ∉ answers := fun member => alone (List.mem_map.mpr ⟨_, member, rfl⟩)
      cases ok <;> simp [deliveries, answer, absent]
    · cases ok <;> simp [deliveries, answer, same, Ne.symm same]

theorem deliveries_history {members : List SignalClient} (valid : Valid members history)
    (once : (members ++ joined history).Nodup) (client : SignalClient) :
    deliveries client (history.flatMap signalEvents) = received client history := by
  induction history generalizing members with
  | nil => rfl
  | cons op history ih =>
    rw [List.flatMap_cons, deliveries_append]
    cases op with
    | join other =>
      have once : (members ++ [other] ++ joined history).Nodup := by simpa [joined] using once
      rw [ih valid once]
      rfl
    | cast data answers =>
      obtain ⟨call, bson⟩ := data
      have asked := answers_nodup valid once (List.mem_cons_self ..)
      obtain ⟨same, valid⟩ := valid
      have once : (accepted answers ++ joined history).Nodup := by
        rw [← same] at once
        exact ((accepted_sublist answers).append (List.Sublist.refl _)).nodup once
      rw [ih valid once, signalEvents, deliveries_append, deliveries_answers asked]
      simp [deliveries, received]

/-- One order of all joins and all successful emissions, with what the writer of every client of the list has
    said to every emission. -/
structure Signal.Ordered (log : List (SignalEvent Bson)) (signal : Signal T Bson)
    (history : List (SignalOp Bson)) : Prop where
  asked : Valid [] history
  joinedOnce : (joined history).Nodup
  emittedOnce : ((casts history).map Prod.fst).Nodup
  settled : signal.clientsLock = none →
    log.filter SignalEvent.succeeds = history.flatMap signalEvents ∧ signal.clients = roster [] history ∧
    ∀ client, deliveries client log = heard client history
  serving : ∀ call bson client remaining kept,
    signal.tasks.get call = some (.responding bson client remaining kept) → ∃ answers,
      roster [] history = answers.map Prod.fst ++ client :: remaining ∧ kept = accepted answers ∧
      log.filter SignalEvent.succeeds = history.flatMap signalEvents ++ answers.map (answer call bson) ∧
      ∀ receiver, deliveries receiver log =
        heard receiver history ++ if (receiver, true) ∈ answers then [(call, bson)] else []
  failed : ∀ call text, .failed call text ∈ log →
    call ∉ (casts history).map Prod.fst ∧ ∀ client bson, .delivered client call bson ∉ log

theorem Signal.Broadcasts.delivers (broadcasts : signal.Broadcasts log history) (client : SignalClient)
    {part : List (SignalEvent Bson)}
    (shown : log.filter SignalEvent.succeeds = history.flatMap signalEvents ++ part) :
    deliveries client log = heard client history ++ deliveries client part := by
  have once : ([] ++ joined history).Nodup := broadcasts.once
  rw [← deliveries_succeeds, shown, deliveries_append, deliveries_history broadcasts.valid once,
    received_eq_heard broadcasts.valid broadcasts.once (by simp)]

theorem delivered_cast (member : .delivered client call bson ∈ history.flatMap signalEvents) :
    call ∈ (casts history).map Prod.fst := by
  obtain ⟨op, there, event⟩ := List.mem_flatMap.mp member
  cases op with
  | join other => simp [signalEvents] at event
  | cast data answers =>
    obtain ⟨other, value⟩ := data
    have same : other = call := by
      simp only [signalEvents, List.mem_append, List.mem_map, List.mem_singleton, reduceCtorEq, or_false] at event
      obtain ⟨⟨receiver, ok⟩, _, event⟩ := event
      cases ok <;> cases event
      rfl
    rw [← same]
    exact List.mem_map.mpr ⟨(other, value), List.mem_filterMap.mpr ⟨_, there, rfl⟩, rfl⟩

theorem Signal.Broadcasts.unreached (broadcasts : signal.Broadcasts log history) {text : String}
    (failed : .failed call text ∈ log) : .delivered client call bson ∉ log := by
  intro delivered
  obtain ⟨finished, uncast⟩ := broadcasts.failEnded call text failed
  have member : .delivered client call bson ∈ log.filter SignalEvent.succeeds :=
    List.mem_filter.mpr ⟨delivered, rfl⟩
  cases lock : signal.clientsLock with
  | none =>
    rw [(broadcasts.idle lock).2] at member
    exact uncast (delivered_cast member)
  | some owner =>
    obtain ⟨phase, present, holds⟩ := (broadcasts.guard owner).mp lock
    cases phase with
    | responding value asked remaining kept =>
      obtain ⟨answers, _, _, shown⟩ := broadcasts.serving owner value asked remaining kept present
      rw [shown, List.mem_append] at member
      rcases member with old | new
      · exact uncast (delivered_cast old)
      · obtain ⟨⟨receiver, ok⟩, _, event⟩ := List.mem_map.mp new
        cases ok <;> cases event
        rw [finished] at present
        cases present
    | _ => cases holds

theorem Signal.Broadcasts.ordered (broadcasts : signal.Broadcasts log history) : signal.Ordered log history where
  asked := broadcasts.valid
  joinedOnce := broadcasts.once
  emittedOnce := broadcasts.apart
  settled := by
    intro free
    obtain ⟨clients, shown⟩ := broadcasts.idle free
    refine ⟨shown, clients, ?_⟩
    intro client
    have whole : log.filter SignalEvent.succeeds = history.flatMap signalEvents ++ [] := by rw [shown, List.append_nil]
    simpa [deliveries] using broadcasts.delivers client whole
  serving := by
    intro call bson client remaining kept present
    obtain ⟨answers, asked, same, shown⟩ := broadcasts.serving call bson client remaining kept present
    refine ⟨answers, asked, same, shown, ?_⟩
    intro receiver
    have once : (roster [] history).Nodup := roster_nodup broadcasts.valid broadcasts.once
    rw [asked] at once
    rw [broadcasts.delivers receiver shown, deliveries_answers (List.Nodup.of_append_left once)]
  failed := fun call text failed =>
    ⟨(broadcasts.failEnded call text failed).2, fun _ _ => broadcasts.unreached failed⟩

/-- All successful emissions are in one order, and every subscriber gets those after its own insertion up to the
    first one that its writer refuses. An emission that does not serialize changes nothing. -/
theorem emissions_in_one_order (run : Transition.Run (Signal.step toBson) .new log signal) :
    (∃ history, signal.Ordered log history) ∧
    ∀ call data text, signal.tasks.get call = some (.emitting data) → toBson data = .error text →
      Signal.step toBson signal (.run call .polled) = some (signal.goto call .finished, [.failed call text]) ∧
      (signal.goto call .finished).clients = signal.clients := by
  constructor
  · obtain ⟨history, broadcasts⟩ := run_broadcasts run
    exact ⟨history, broadcasts.ordered⟩
  · intro call data text present error
    refine ⟨?_, rfl⟩
    simp only [Signal.step, present, Signal.resume, error]

def positiveBson : Nat → Except String Nat
  | 0 => .error "zero"
  | n + 1 => .ok (n + 1)

theorem emissions_in_one_order_twice : ∃ log signal history,
    Transition.Run (Signal.step positiveBson) (.new : Signal Nat Nat) log signal ∧ signal.Ordered log history ∧
    signal.clients = [⟨0, 1, 7⟩] ∧ deliveries ⟨0, 1, 7⟩ log = [(2, 5), (4, 6)] ∧
    deliveries ⟨1, 2, 8⟩ log = [(2, 5)] := by
  obtain ⟨log, signal, run, shown⟩ := Transition.exists_run_of_execute (Signal.step positiveBson)
    (.new : Signal Nat Nat)
    [.addClient 1 7, .addClient 2 8, .emit 5, .run 0 .locked, .run 1 .locked, .run 2 .polled, .run 2 .locked,
      .emit 0, .run 3 .polled, .emit 6, .run 2 (.responded true), .run 4 .polled, .run 2 (.responded true),
      .run 4 .locked, .run 4 (.responded true), .run 4 (.responded false)]
    (fun log signal => signal.clients == [⟨0, 1, 7⟩] && deliveries ⟨0, 1, 7⟩ log == [(2, 5), (4, 6)] &&
      deliveries ⟨1, 2, 8⟩ log == [(2, 5)])
    (by decide +kernel)
  simp only [Bool.and_eq_true, beq_iff_eq] at shown
  obtain ⟨⟨history, ordered⟩, _⟩ := emissions_in_one_order run
  exact ⟨log, signal, history, run, ordered, shown.1.1, shown.1.2, shown.2⟩

end KrossbarLib
