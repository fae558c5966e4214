import KrossbarBus.Connect.Commands

namespace KrossbarConnect

open KrossbarLib (inspectMethod)

variable {Json : Type} {env : Environment Json} {target_service : String} {session : Session Json}
  {log : List (Event Json)} {line : String} {output : List Output}

def entered (log : List (Event Json)) : List String :=
  log.filterMap fun
    | .entered line => some line
    | _ => none

def requested (log : List (Event Json)) : List (Request Json) :=
  log.filterMap fun
    | .requested request => some request
    | _ => none

def received (number : Nat) (log : List (Event Json)) : List (Except String Json) :=
  log.filterMap fun
    | .received other value_result => if other = number then some value_result else none
    | _ => none

def inserted (number : Nat) (log : List (Event Json)) : List String :=
  log.filterMap fun
    | .inserted other string _ => if other = number then some string else none
    | _ => none

/-- The requests that lines ask for and that can be sent, in the order of the lines. -/
inductive Requests (env : Environment Json) : List String → List (Request Json) → Prop
  | nil : Requests env [] []
  | asks {lines : List String} {requests : List (Request Json)} (line : String) (request : Request Json)
      (earlier : Requests env lines requests) (asks : Asks env line request)
      (serializable : request.serializable env = true) : Requests env (lines ++ [line]) (requests ++ [request])
  | silent {lines : List String} {requests : List (Request Json)} (line : String)
      (earlier : Requests env lines requests) (silent : ∀ request, ¬ Asks env line request) :
      Requests env (lines ++ [line]) requests
  | unsent {lines : List String} {requests : List (Request Json)} (line : String) (request : Request Json)
      (earlier : Requests env lines requests) (asks : Asks env line request)
      (unserializable : request.serializable env = false) : Requests env (lines ++ [line]) requests

/-- Where the tool stands among the lines that were entered. -/
inductive Prompt.At (env : Environment Json) : Prompt Json → List String → List String → Prop
  | reading (entries : List String) : Prompt.At env .reading entries entries
  | awaiting (entries : List String) (line : String) (request : Request Json) (asks : Asks env line request) :
      Prompt.At env (.awaiting line request) entries (entries ++ [line])
  | unsent (entries : List String) (line : String) (request : Request Json) (asks : Asks env line request)
      (unserializable : request.serializable env = false) :
      Prompt.At env (.unsent line request) entries (entries ++ [line])
  | quit (entries : List String) : Prompt.At env .exited entries (entries ++ ["q"])
  | failed (entries : List String) : Prompt.At env .exited entries entries

theorem entered_printed (output : List Output) : entered (output.map (@Event.printed Json)) = [] := by
  simp [entered, List.filterMap_map]

theorem requested_printed (output : List Output) : requested (output.map (@Event.printed Json)) = [] := by
  simp [requested, List.filterMap_map]

theorem entered_append (log later : List (Event Json)) : entered (log ++ later) = entered log ++ entered later :=
  List.filterMap_append ..

theorem requested_append (log later : List (Event Json)) :
    requested (log ++ later) = requested log ++ requested later :=
  List.filterMap_append ..

theorem returns_silent {output : List Output} {exit : Bool}
    (returns : handleInputLine env line = .returns output exit) (request : Request Json) : ¬ Asks env line request := by
  intro asks
  rw [asks_awaits asks] at returns
  cases returns

theorem quit_exits (env : Environment Json) : handleInputLine env "q" = .returns [] true := by
  simp [handleInputLine]

structure Session.Transcribed (env : Environment Json) (session : Session Json) (log : List (Event Json)) : Prop where
  requests : Requests env (entered log) (requested log)
  prompt : session.prompt.At env session.history_entries (entered log)
  stays : "q" ∉ session.history_entries

/-- A step that neither takes a line nor closes one. -/
theorem Session.Transcribed.keep {after : Session Json} {out : List (Event Json)} (known : session.Transcribed env log)
    (prompt : after.prompt = session.prompt) (entries : after.history_entries = session.history_entries)
    (lines : entered out = []) (asked : requested out = []) : after.Transcribed env (log ++ out) := by
  constructor
  · rw [entered_append, requested_append, lines, asked, List.append_nil, List.append_nil]
    exact known.requests
  · rw [prompt, entries, entered_append, lines, List.append_nil]
    exact known.prompt
  · rw [entries]
    exact known.stays

theorem entered_line (log : List (Event Json)) (line : String) (output : List Output) :
    entered (log ++ .entered line :: output.map .printed) = entered log ++ [line] := by
  have first : entered (.entered line :: output.map .printed) = [line] ++ entered (output.map (@Event.printed Json)) :=
    rfl
  rw [entered_append, first, entered_printed, List.append_nil]

theorem requested_line (log : List (Event Json)) (line : String) (output : List Output) :
    requested (log ++ .entered line :: output.map .printed) = requested log := by
  have first : requested (.entered line :: output.map .printed) = requested (output.map (@Event.printed Json)) :=
    rfl
  rw [requested_append, first, requested_printed, List.append_nil]

theorem Session.Transcribed.at_reading (known : session.Transcribed env log) (reading : session.prompt = .reading) :
    entered log = session.history_entries := by
  have now := known.prompt
  rw [reading] at now
  generalize entered log = lines at now
  cases now
  rfl

/-- The request of the last line is over, whether it was sent or not. -/
theorem Session.Transcribed.closed {request : Request Json} (known : session.Transcribed env log)
    (pending : session.prompt = .awaiting line request ∨ session.prompt = .unsent line request)
    {after : Session Json} (prompt : after.prompt = .reading)
    (entries : after.history_entries = session.history_entries ++ [line]) (output : List Output) :
    after.Transcribed env (log ++ output.map .printed) := by
  obtain ⟨lines, asks⟩ : entered log = session.history_entries ++ [line] ∧ Asks env line request := by
    have now := known.prompt
    generalize entered log = lines at now
    rcases pending with awaiting | unsent
    · rw [awaiting] at now
      cases now with
      | awaiting _ _ _ asks => exact ⟨rfl, asks⟩
    · rw [unsent] at now
      cases now with
      | unsent _ _ _ asks _ => exact ⟨rfl, asks⟩
  constructor
  · rw [entered_append, requested_append, entered_printed, requested_printed, List.append_nil, List.append_nil]
    exact known.requests
  · rw [prompt, entries, entered_append, entered_printed, List.append_nil, lines]
    exact .reading _
  · rw [entries, List.mem_append, List.mem_singleton]
    intro found
    rcases found with old | same
    · exact known.stays old
    · subst same
      exact returns_silent (quit_exits env) request asks

/-- Over a whole session the target is asked for exactly what the lines ask for and a message can carry, in their
    order, and the loop ends at `q` or at an error of the editor only. -/
theorem lines_obeyed (run : Transition.Run (Session.step env target_service) Session.new log session) :
    session.Transcribed env log := by
  induction run with
  | start => exact ⟨.nil, .reading [], List.not_mem_nil⟩
  | @next log session _ _ _ _ _ taken ih =>
    cases Session.step_cases taken with
    | handled line output reading returns =>
      constructor
      · rw [entered_line, requested_line]
        exact .silent line ih.requests (returns_silent returns)
      · rw [entered_line, ih.at_reading reading, reading]
        exact .reading _
      · rw [List.mem_append, List.mem_singleton]
        intro found
        rcases found with old | same
        · exact ih.stays old
        · subst same
          rw [quit_exits] at returns
          cases returns
    | quit line output reading returns =>
      constructor
      · rw [entered_line, requested_line]
        exact .silent line ih.requests (returns_silent returns)
      · rw [entered_line, ih.at_reading reading, (line_exits returns).1]
        exact .quit _
      · exact ih.stays
    | asked line request reading awaits serializable =>
      have asks := awaits_asks awaits
      constructor
      · rw [entered_append, requested_append]
        exact .asks line request ih.requests asks serializable
      · rw [entered_append, ih.at_reading reading]
        exact .awaiting _ line request asks
      · exact ih.stays
    | withheld line request reading awaits unserializable =>
      have asks := awaits_asks awaits
      constructor
      · have nothing : requested [@Event.entered Json line] = [] := rfl
        rw [entered_append, requested_append, nothing, List.append_nil]
        exact .unsent line request ih.requests asks unserializable
      · rw [entered_append, ih.at_reading reading]
        exact .unsent _ line request asks unserializable
      · exact ih.stays
    | panicked line reading panics => exact absurd panics (line_never_panics env line)
    | failed err reading =>
      constructor
      · rw [entered_append, requested_append]
        simpa [entered, requested] using ih.requests
      · have lines : entered (log ++ [.printed err.output]) = session.history_entries := by
          rw [entered_append, ih.at_reading reading]
          exact List.append_nil _
        rw [lines]
        exact .failed _
      · exact ih.stays
    | subscribed line signal_name awaiting => exact ih.closed (.inl awaiting) rfl rfl []
    | answered line request reply output awaiting handled => exact ih.closed (.inl awaiting) rfl rfl output
    | refused line request err output unsent handled => exact ih.closed (.inr unsent) rfl rfl output
    | received number signal_name value_result waiting => exact ih.keep rfl rfl rfl rfl
    | ended number signal_name waiting => exact ih.keep rfl rfl rfl rfl
    | elapsed number signal_name value_result sleeping => exact ih.keep rfl rfl rfl rfl
    | hint line => exact ih.keep rfl rfl rfl rfl

/-- JSON values as their texts, all but one of which have a BSON form, printed without colours. -/
def plainEnvironment : Environment String where
  from_str := .ok
  display := id
  serializable := fun json => decide (json ≠ "18446744073709551615")
  colored := fun _ text => text

/-- A subscription that ends with an error, `inspect` while its first item waits to be printed, and a call that
    cannot be sent, until the client hears that the hub has refused to reconnect it. -/
def subscribing : List (Action String) :=
  [.readline "subscribe ticks", .reply (.stream (.ok ())), .item 0 (some (.ok "1")), .readline "inspect", .elapsed 0,
    .reply (.inspected (.error "gone")), .item 0 (some (.error "lost")), .elapsed 0,
    .readline "call add 18446744073709551615", .reply (.value (.error "NotAllowed")), .readline "q"]

theorem lines_obeyed_quit : ∃ log session,
    Transition.Run (Session.step plainEnvironment "target") Session.new log session ∧
      requested log = [.subscribe "ticks", .get inspectMethod] ∧ session.Transcribed plainEnvironment log := by
  obtain ⟨log, session, run, asked⟩ := Transition.exists_run_of_execute (Session.step plainEnvironment "target")
    Session.new subscribing (fun log _ => requested log = [.subscribe "ticks", .get inspectMethod]) (by decide)
  exact ⟨log, session, run, of_decide_eq_true asked, lines_obeyed run⟩

def PollingPhase.pending : PollingPhase Json → List (Except String Json)
  | .sleeping value_result => [value_result]
  | _ => []

/-- What one task has printed of the items it took from its stream, where the items are `items` and the texts
    `texts`. Only its last item can be an error. -/
structure Polling.Shown (env : Environment Json) (polling : Polling Json) (items : List (Except String Json))
    (texts : List String) : Prop where
  shown : ∃ earlier, items = earlier ++ polling.phase.pending ∧
    texts = earlier.map (subscriptionText env polling.signal_name)
  clean : ∀ item ∈ items.dropLast, item.isOk = true
  open_ : polling.phase = .next → ∀ item ∈ items, item.isOk = true

theorem Polling.Shown.receive {signal_name : String} {value_result : Except String Json}
    {items : List (Except String Json)} {texts : List String}
    (known : Polling.Shown env ⟨signal_name, .next⟩ items texts) :
    Polling.Shown env ⟨signal_name, .sleeping value_result⟩ (items ++ [value_result]) texts := by
  obtain ⟨earlier, same, texts_eq⟩ := known.shown
  have items_eq : items = earlier := by simpa [PollingPhase.pending] using same
  constructor
  · exact ⟨items, rfl, by rw [texts_eq, items_eq]⟩
  · rw [List.dropLast_concat]
    exact known.open_ rfl
  · intro next
    cases next

theorem Polling.Shown.finish {signal_name : String} {items : List (Except String Json)} {texts : List String}
    (known : Polling.Shown env ⟨signal_name, .next⟩ items texts) :
    Polling.Shown env ⟨signal_name, .finished⟩ items texts := by
  constructor
  · exact known.shown
  · exact known.clean
  · intro next
    cases next

theorem Polling.Shown.elapse {signal_name : String} {value_result : Except String Json}
    {items : List (Except String Json)} {texts : List String}
    (known : Polling.Shown env ⟨signal_name, .sleeping value_result⟩ items texts) :
    Polling.Shown env ⟨signal_name, if value_result.isOk then .next else .finished⟩ items
      (texts ++ [subscriptionText env signal_name value_result]) := by
  obtain ⟨earlier, same, texts_eq⟩ := known.shown
  have items_eq : items = earlier ++ [value_result] := same
  constructor
  · refine ⟨items, ?_, ?_⟩
    · split <;> simp [PollingPhase.pending]
    · rw [texts_eq, items_eq, List.map_append]
      rfl
  · exact known.clean
  · intro next item member
    have good : value_result.isOk = true := by
      by_contra bad
      rw [if_neg bad] at next
      cases next
    rw [items_eq, List.mem_append, List.mem_singleton] at member
    rcases member with old | rfl
    · have clean := known.clean
      rw [items_eq, List.dropLast_concat] at clean
      exact clean item old
    · exact good

/-- The signals of the requests to subscribe. -/
def subscriptions (requests : List (Request Json)) : List String :=
  requests.filterMap fun
    | .subscribe signal_name => some signal_name
    | _ => none

def Prompt.awaited : Prompt Json → List (Request Json)
  | .awaiting _ request => [request]
  | _ => []

structure Session.Displayed (env : Environment Json) (session : Session Json) (log : List (Event Json)) : Prop where
  absent : ∀ number, session.clock ≤ number → received number log = [] ∧ inserted number log = []
  spawned : ∀ number polling, session.tasks.get number = some polling → number < session.clock ∧
    polling.Shown env (received number log) (inserted number log)

theorem received_append (number : Nat) (log later : List (Event Json)) :
    received number (log ++ later) = received number log ++ received number later :=
  List.filterMap_append ..

theorem inserted_append (number : Nat) (log later : List (Event Json)) :
    inserted number (log ++ later) = inserted number log ++ inserted number later :=
  List.filterMap_append ..

/-- A step that leaves the tasks alone. -/
theorem Session.Displayed.keep {after : Session Json} {out : List (Event Json)} (known : session.Displayed env log)
    (tasks : after.tasks = session.tasks) (clock : after.clock = session.clock)
    (silent : ∀ number, received number out = [] ∧ inserted number out = []) : after.Displayed env (log ++ out) := by
  constructor
  · intro number fresh
    rw [clock] at fresh
    rw [received_append, inserted_append, (silent number).1, (silent number).2, List.append_nil, List.append_nil]
    exact known.absent number fresh
  · intro number polling there
    rw [tasks] at there
    rw [clock, received_append, inserted_append, (silent number).1, (silent number).2, List.append_nil,
      List.append_nil]
    exact known.spawned number polling there

/-- A step of one task. -/
theorem Session.Displayed.move {number : Nat} {before polling : Polling Json} {out : List (Event Json)}
    (known : session.Displayed env log) (there : session.tasks.get number = some before)
    (apart : ∀ other, other ≠ number → received other out = [] ∧ inserted other out = [])
    (shown : before.Shown env (received number log) (inserted number log) →
      polling.Shown env (received number log ++ received number out) (inserted number log ++ inserted number out)) :
    Session.Displayed env { session with tasks := session.tasks.insert number polling } (log ++ out) := by
  obtain ⟨bound, known_number⟩ := known.spawned number before there
  constructor
  · intro other fresh
    have different : other ≠ number := by
      rintro rfl
      exact absurd bound (Nat.not_lt.mpr fresh)
    rw [received_append, inserted_append, (apart other different).1, (apart other different).2, List.append_nil,
      List.append_nil]
    exact known.absent other fresh
  · intro other found there
    rw [received_append, inserted_append]
    by_cases same : other = number
    · subst same
      rw [Table.get_insert_self] at there
      cases there
      exact ⟨bound, shown known_number⟩
    · rw [Table.get_insert_of_ne same] at there
      rw [(apart other same).1, (apart other same).2, List.append_nil, List.append_nil]
      exact known.spawned other found there

theorem shown_printed (number : Nat) (output : List Output) :
    received number (output.map (@Event.printed Json)) = [] ∧
      inserted number (output.map (@Event.printed Json)) = [] := by
  simp [received, inserted, List.filterMap_map]

theorem run_displayed (run : Transition.Run (Session.step env target_service) Session.new log session) :
    session.Displayed env log := by
  induction run with
  | start => exact ⟨fun _ _ => ⟨rfl, rfl⟩, fun _ _ there => by cases there⟩
  | @next log session _ _ _ _ _ taken ih =>
    cases Session.step_cases taken with
    | handled line output reading returns => exact ih.keep rfl rfl fun number => shown_printed number output
    | quit line output reading returns => exact ih.keep rfl rfl fun number => shown_printed number output
    | asked line request reading awaits serializable => exact ih.keep rfl rfl fun _ => ⟨rfl, rfl⟩
    | withheld line request reading awaits unserializable => exact ih.keep rfl rfl fun _ => ⟨rfl, rfl⟩
    | panicked line reading panics => exact ih.keep rfl rfl fun _ => ⟨rfl, rfl⟩
    | failed err reading => exact ih.keep rfl rfl fun _ => ⟨rfl, rfl⟩
    | subscribed line signal_name awaiting =>
      constructor
      · intro number fresh
        rw [List.append_nil]
        exact ih.absent number (Nat.le_of_succ_le fresh)
      · intro number polling there
        rw [List.append_nil]
        by_cases same : number = session.clock
        · subst same
          rw [Table.get_insert_self] at there
          cases there
          obtain ⟨none_received, none_inserted⟩ := ih.absent session.clock (Nat.le_refl _)
          rw [none_received, none_inserted]
          exact ⟨Nat.lt_succ_self _, ⟨[], rfl, rfl⟩, fun _ member => absurd member List.not_mem_nil,
            fun _ _ member => absurd member List.not_mem_nil⟩
        · rw [Table.get_insert_of_ne same] at there
          obtain ⟨bound, shown⟩ := ih.spawned number polling there
          exact ⟨Nat.lt_succ_of_lt bound, shown⟩
    | answered line request reply output awaiting handled =>
      exact ih.keep rfl rfl fun number => shown_printed number output
    | refused line request err output unsent handled =>
      exact ih.keep rfl rfl fun number => shown_printed number output
    | received number signal_name value_result waiting =>
      refine ih.move waiting (fun other different => ?_) fun shown => ?_
      · simp [received, inserted, different.symm]
      · simpa [received, inserted] using shown.receive
    | ended number signal_name waiting =>
      refine ih.move waiting (fun _ _ => ⟨rfl, rfl⟩) fun shown => ?_
      simpa [received, inserted] using shown.finish
    | elapsed number signal_name value_result sleeping =>
      refine ih.move sleeping (fun other different => ?_) fun shown => ?_
      · simp [received, inserted, different.symm]
      · simpa [received, inserted] using shown.elapse
    | hint line => exact ih.keep rfl rfl fun _ => ⟨rfl, rfl⟩

/-- The tasks in the order of their numbers, by the signals they were started for. -/
structure Session.Named (session : Session Json) (log : List (Event Json)) (names : List String) : Prop where
  count : names.length = session.clock
  named : ∀ number polling, session.tasks.get number = some polling → names[number]? = some polling.signal_name
  asked : ∃ earlier, requested log = earlier ++ session.prompt.awaited ∧ names.Sublist (subscriptions earlier)

theorem Session.Named.later {after : Session Json} {names : List String} {out : List (Event Json)}
    (known : session.Named log names) (tasks : after.tasks = session.tasks) (clock : after.clock = session.clock)
    (asked : requested out = after.prompt.awaited) : after.Named (log ++ out) names := by
  obtain ⟨earlier, same, sublist⟩ := known.asked
  refine ⟨by rw [known.count, clock], ?_, requested log, by rw [requested_append, asked], ?_⟩
  · rw [tasks]
    exact known.named
  · rw [same, subscriptions, List.filterMap_append]
    exact sublist.trans (List.sublist_append_left ..)

theorem Session.Named.keep {after : Session Json} {names : List String} {out : List (Event Json)}
    (known : session.Named log names) (clock : after.clock = session.clock) (prompt : after.prompt = session.prompt)
    (named : ∀ number polling, after.tasks.get number = some polling → names[number]? = some polling.signal_name)
    (asked : requested out = []) : after.Named (log ++ out) names := by
  refine ⟨by rw [known.count, clock], named, ?_⟩
  rw [requested_append, asked, List.append_nil, prompt]
  exact known.asked

theorem Session.Named.move {number : Nat} {before polling : Polling Json} {names : List String}
    (known : session.Named log names) (there : session.tasks.get number = some before)
    (same : polling.signal_name = before.signal_name) (other : Nat) (found : Polling Json)
    (present : (session.tasks.insert number polling).get other = some found) :
    names[other]? = some found.signal_name := by
  by_cases moved : other = number
  · subst moved
    rw [Table.get_insert_self] at present
    cases present
    rw [same]
    exact known.named other before there
  · rw [Table.get_insert_of_ne moved] at present
    exact known.named other found present

theorem run_named (run : Transition.Run (Session.step env target_service) Session.new log session) :
    ∃ names, session.Named log names := by
  induction run with
  | start => exact ⟨[], rfl, fun _ _ there => (by cases there), [], rfl, .slnil⟩
  | @next log session _ _ _ _ _ taken ih =>
    obtain ⟨names, known⟩ := ih
    cases Session.step_cases taken with
    | handled line output reading returns =>
      refine ⟨names, known.later rfl rfl ?_⟩
      dsimp only
      rw [reading]
      exact requested_printed output
    | quit line output reading returns => exact ⟨names, known.later rfl rfl (requested_printed output)⟩
    | asked line request reading awaits serializable => exact ⟨names, known.later rfl rfl rfl⟩
    | withheld line request reading awaits unserializable => exact ⟨names, known.later rfl rfl rfl⟩
    | panicked line reading panics => exact ⟨names, known.later rfl rfl rfl⟩
    | failed err reading => exact ⟨names, known.later rfl rfl rfl⟩
    | subscribed line signal_name awaiting =>
      obtain ⟨earlier, same, sublist⟩ := known.asked
      rw [awaiting] at same
      refine ⟨names ++ [signal_name], by simp [known.count], ?_, requested log, ?_, ?_⟩
      · intro number polling there
        by_cases new : number = session.clock
        · subst new
          rw [Table.get_insert_self] at there
          cases there
          rw [← known.count, List.getElem?_concat_length]
        · rw [Table.get_insert_of_ne new] at there
          have old := known.named number polling there
          rw [List.getElem?_append_left (List.getElem?_eq_some_iff.mp old).1]
          exact old
      · rw [List.append_nil]
        exact (List.append_nil _).symm
      · rw [same, subscriptions, List.filterMap_append]
        exact sublist.append (.refl _)
    | answered line request reply output awaiting handled =>
      exact ⟨names, known.later rfl rfl (requested_printed output)⟩
    | refused line request err output unsent handled =>
      exact ⟨names, known.later rfl rfl (requested_printed output)⟩
    | received number signal_name value_result waiting =>
      exact ⟨names, known.keep rfl rfl (known.move waiting rfl) rfl⟩
    | ended number signal_name waiting => exact ⟨names, known.keep rfl rfl (known.move waiting rfl) rfl⟩
    | elapsed number signal_name value_result sleeping =>
      exact ⟨names, known.keep rfl rfl (known.move sleeping rfl) rfl⟩
    | hint line => exact ⟨names, known.keep rfl rfl known.named rfl⟩

/-- However the tasks and the prompt take turns, each subscription shows the items of its stream under its own
    signal, every one once and in order, and stops at the first error. -/
theorem subscriptions_shown (run : Transition.Run (Session.step env target_service) Session.new log session) :
    ∃ names : List String, names.Sublist (subscriptions (requested log)) ∧
      ∀ number polling, session.tasks.get number = some polling → names[number]? = some polling.signal_name ∧
        polling.Shown env (received number log) (inserted number log) := by
  obtain ⟨names, known⟩ := run_named run
  obtain ⟨earlier, same, sublist⟩ := known.asked
  refine ⟨names, ?_, fun number polling there => ⟨known.named number polling there, ?_⟩⟩
  · rw [same, subscriptions, List.filterMap_append]
    exact sublist.trans (List.sublist_append_left ..)
  · exact ((run_displayed run).spawned number polling there).2

theorem subscriptions_shown_error : ∃ log session,
    Transition.Run (Session.step plainEnvironment "target") Session.new log session ∧
      (inserted 0 log).length = 2 ∧ (session.tasks.get 0).isSome = true ∧
      ∃ names : List String, names.Sublist (subscriptions (requested log)) ∧
        ∀ number polling, session.tasks.get number = some polling → names[number]? = some polling.signal_name ∧
          polling.Shown plainEnvironment (received number log) (inserted number log) := by
  obtain ⟨log, session, run, shown⟩ := Transition.exists_run_of_execute (Session.step plainEnvironment "target")
    Session.new subscribing (fun log session => (inserted 0 log).length = 2 ∧ (session.tasks.get 0).isSome = true)
    (by decide)
  obtain ⟨texts, there⟩ := of_decide_eq_true shown
  exact ⟨log, session, run, texts, there, subscriptions_shown run⟩

end KrossbarConnect
