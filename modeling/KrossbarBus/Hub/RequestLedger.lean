import KrossbarBus.Hub.RequestHandling
import KrossbarBus.Transition.Backlog

namespace KrossbarHub

open Transition

variable {log out : List Event} {line line' : String → List RpcRequest}
  {busy busy' : Option String → RpcRequest → Prop} {hand : Option RpcRequest} {client : Option String}
  {request : RpcRequest} {seen : Nat}

def waitingOp (target : String) : Event → QueueOp RpcRequest
  | .queued name _ request => if name = target then .join request else .skip
  | .responded request _ => .leave request
  | _ => .skip

def outstanding (log : List Event) (target : String) : List RpcRequest := backlog (waitingOp target) log

/-- Where the log leaves every request: `busy` are those that some task processes, each with the name
    of its client, and `hand` is the one of the step that is being looked at. -/
structure Ledger (log : List Event) (line : String → List RpcRequest)
    (busy : Option String → RpcRequest → Prop) (hand : Option RpcRequest) : Prop where
  single : ∀ first second request, .received first request ∈ log → .received second request ∈ log →
    first = second
  known : ∀ request, answers log request ≠ 0 → ∃ client, .received client request ∈ log
  processing : ∀ client request, busy client request → .received client request ∈ log ∧
    answers log request = refusals client request ∧ ∀ target, request ∉ line target
  apart : ∀ client request, hand = some request → ¬ busy client request
  waiting : ∀ target request, request ∈ line target →
    (∃ wait, request.body = .call (.ok (.connect target wait))) ∧
      ∃ client, .received client request ∈ log ∧ answers log request = refusals client request
  nodup : ∀ target, (line target).Nodup
  settled : ∀ client request, .received client request ∈ log → request.body ≠ .notCall →
    hand = some request ∨ busy client request ∨
      (answers log request = refusals client request + 1 ∧ ∀ target, request ∉ line target) ∨
      ∃ target, request ∈ line target
  queue : ∀ target, outstanding log target = line target
  order : ∀ target, Justified (Fifo (waitingOp target)) log

structure InHand (log : List Event) (line : String → List RpcRequest) (client : Option String)
    (request : RpcRequest) (seen : Nat) : Prop where
  received : .received client request ∈ log
  answered : answers log request = seen
  absent : ∀ target, request ∉ line target

theorem Ledger.empty : Ledger [] (fun _ => []) (fun _ _ => False) none where
  single := by simp
  known := by simp [answers]
  processing := by simp
  apart := by simp
  waiting := by simp
  nodup := by simp
  settled := by simp
  queue := by simp [outstanding]
  order _ := justified_nil

theorem unmoved_of_neutral {event : Event} (neutral : Neutral event) (target : String)
    (waiting : List RpcRequest) : Unmoved (waitingOp target) waiting event := by
  cases event with
  | received _ _ => exact neutral.elim
  | queued _ _ _ => exact neutral.elim
  | responded _ _ => exact neutral.elim
  | _ => exact .inl rfl

theorem received_of_neutral (neutral : ∀ event ∈ out, Neutral event) :
    .received client request ∈ log ++ out ↔ .received client request ∈ log := by
  rw [List.mem_append]
  refine ⟨?_, .inl⟩
  intro member
  exact member.resolve_right fun new => neutral _ new

theorem Ledger.unmoved (ledger : Ledger log line busy hand)
    (unmoved : ∀ target, ∀ event ∈ out, Unmoved (waitingOp target) (outstanding log target) event) :
    (∀ target, outstanding (log ++ out) target = line target) ∧
      ∀ target, Justified (Fifo (waitingOp target)) (log ++ out) := by
  constructor
  · intro target
    rw [← ledger.queue target]
    exact backlog_unmoved (unmoved target)
  · intro target
    exact (ledger.order target).append (fifo_unmoved (unmoved target))

theorem answers_responded_ne {other : RpcRequest} (different : other ≠ request) (response : Response) :
    answers (log ++ [.responded request response]) other = answers log other := by
  simp [Ne.symm different]

theorem received_responded {other : RpcRequest} (response : Response) :
    .received client other ∈ log ++ [.responded request response] ↔ .received client other ∈ log := by
  simp

theorem Ledger.neutral (ledger : Ledger log line busy hand) (neutral : ∀ event ∈ out, Neutral event) :
    Ledger (log ++ out) line busy hand := by
  have unmoved : ∀ target, ∀ event ∈ out, Unmoved (waitingOp target) (outstanding log target) event :=
    fun target event member => unmoved_of_neutral (neutral event member) target _
  have count : ∀ request, answers (log ++ out) request = answers log request := by
    intro request
    rw [answers_append, answers_neutral neutral, Nat.add_zero]
  refine ⟨?_, ?_, ?_, ledger.apart, ?_, ledger.nodup, ?_, ?_, ?_⟩
  · intro first second request
    rw [received_of_neutral neutral, received_of_neutral neutral]
    exact ledger.single first second request
  · intro request counted
    simp only [received_of_neutral neutral]
    exact ledger.known request (by rwa [count] at counted)
  · intro client request processes
    rw [received_of_neutral neutral, count]
    exact ledger.processing client request processes
  · intro target request member
    simp only [received_of_neutral neutral, count]
    exact ledger.waiting target request member
  · intro client request
    rw [received_of_neutral neutral, count]
    exact ledger.settled client request
  · exact (ledger.unmoved unmoved).1
  · exact (ledger.unmoved unmoved).2

theorem Ledger.receive (ledger : Ledger log line busy none) (client : Option String)
    (fresh : ∀ client, .received client request ∉ log) :
    Ledger (log ++ [.received client request]) line busy (some request) ∧
      InHand (log ++ [.received client request]) line client request 0 := by
  have unmoved : ∀ target, ∀ event ∈ [Event.received client request],
      Unmoved (waitingOp target) (outstanding log target) event := by
    intro target event member
    cases List.mem_singleton.mp member
    exact .inl rfl
  have count : ∀ other, answers (log ++ [.received client request]) other = answers log other := by
    intro other
    rw [answers_append, answers_received, Nat.add_zero]
  have unanswered : answers log request = 0 := by
    by_contra counted
    obtain ⟨other, old⟩ := ledger.known request counted
    exact fresh other old
  refine ⟨⟨?_, ?_, ?_, ?_, ?_, ledger.nodup, ?_, ?_, ?_⟩, ?_, ?_, ?_⟩
  · intro first second other member again
    rcases List.mem_append.mp member with old | new
    · rcases List.mem_append.mp again with older | newer
      · exact ledger.single first second other old older
      · cases List.mem_singleton.mp newer
        exact absurd old (fresh first)
    · cases List.mem_singleton.mp new
      rcases List.mem_append.mp again with older | newer
      · exact absurd older (fresh second)
      · cases List.mem_singleton.mp newer
        rfl
  · intro other counted
    obtain ⟨client, old⟩ := ledger.known other (by rwa [count] at counted)
    exact ⟨client, List.mem_append_left _ old⟩
  · intro client other processes
    obtain ⟨old, counted, absent⟩ := ledger.processing client other processes
    exact ⟨List.mem_append_left _ old, by rwa [count], absent⟩
  · intro client other same processes
    rw [← Option.some.inj same] at processes
    exact fresh client (ledger.processing client request processes).1
  · intro target other member
    obtain ⟨body, client, old, counted⟩ := ledger.waiting target other member
    exact ⟨body, client, List.mem_append_left _ old, by rwa [count]⟩
  · intro client other member called
    rw [count]
    rcases List.mem_append.mp member with old | new
    · exact .inr ((ledger.settled client other old called).resolve_left (by simp))
    · cases List.mem_singleton.mp new
      exact .inl rfl
  · exact (ledger.unmoved unmoved).1
  · exact (ledger.unmoved unmoved).2
  · simp
  · rw [count, unanswered]
  · intro target member
    obtain ⟨_, other, old, _⟩ := ledger.waiting target request member
    exact fresh other old

theorem Ledger.answer (ledger : Ledger log line busy (some request))
    (inHand : InHand log line client request seen) (response : Response) :
    Ledger (log ++ [.responded request response]) line busy (some request) ∧
      InHand (log ++ [.responded request response]) line client request (seen + 1) := by
  have unmoved : ∀ target, ∀ event ∈ [Event.responded request response],
      Unmoved (waitingOp target) (outstanding log target) event := by
    intro target event member
    cases List.mem_singleton.mp member
    exact .inr ⟨request, rfl, by rw [ledger.queue]; exact inHand.absent target⟩
  refine ⟨⟨?_, ?_, ?_, ledger.apart, ?_, ledger.nodup, ?_, ?_, ?_⟩, ?_, ?_, inHand.absent⟩
  · intro first second other
    rw [received_responded, received_responded]
    exact ledger.single first second other
  · intro other counted
    simp only [received_responded]
    by_cases same : other = request
    · rw [same]
      exact ⟨client, inHand.received⟩
    · exact ledger.known other (by rwa [answers_responded_ne same] at counted)
  · intro client other processes
    have different : other ≠ request := fun same => ledger.apart client request rfl (same ▸ processes)
    rw [received_responded, answers_responded_ne different]
    exact ledger.processing client other processes
  · intro target other member
    have different : other ≠ request := fun same => inHand.absent target (same ▸ member)
    simp only [received_responded, answers_responded_ne different]
    exact ledger.waiting target other member
  · intro client other member called
    by_cases same : other = request
    · exact .inl (by rw [same])
    · rw [answers_responded_ne same]
      exact ledger.settled client other ((received_responded response).mp member) called
  · exact (ledger.unmoved unmoved).1
  · exact (ledger.unmoved unmoved).2
  · exact (received_responded response).mpr inHand.received
  · simp [inHand.answered]

theorem Ledger.keep (ledger : Ledger log line busy (some request))
    (inHand : InHand log line client request seen) (due : seen = refusals client request)
    (more : ∀ owner other, busy' owner other ↔ busy owner other ∨ owner = client ∧ other = request) :
    Ledger log line busy' none := by
  refine ⟨ledger.single, ledger.known, ?_, by simp, ledger.waiting, ledger.nodup, ?_, ledger.queue,
    ledger.order⟩
  · intro owner other processes
    rcases (more owner other).mp processes with old | ⟨rfl, rfl⟩
    · exact ledger.processing owner other old
    · exact ⟨inHand.received, by rw [inHand.answered, due], inHand.absent⟩
  · intro owner other member called
    rcases ledger.settled owner other member called with held | old | rest
    · have same := Option.some.inj held
      subst same
      exact .inr (.inl ((more owner request).mpr
        (.inr ⟨ledger.single owner client request member inHand.received, rfl⟩)))
    · exact .inr (.inl ((more owner other).mpr (.inl old)))
    · exact .inr (.inr rest)

theorem Ledger.settle (ledger : Ledger log line busy (some request))
    (inHand : InHand log line client request seen) (due : seen = refusals client request + 1) :
    Ledger log line busy none := by
  refine ⟨ledger.single, ledger.known, ledger.processing, by simp, ledger.waiting, ledger.nodup, ?_,
    ledger.queue, ledger.order⟩
  intro owner other member called
  rcases ledger.settled owner other member called with held | rest
  · have same := Option.some.inj held
    subst same
    refine .inr (.inr (.inl ⟨?_, inHand.absent⟩))
    rw [ledger.single owner client request member inHand.received, inHand.answered, due]
  · exact .inr rest

theorem Ledger.drop (ledger : Ledger log line busy (some request)) (silent : request.body = .notCall) :
    Ledger log line busy none := by
  refine ⟨ledger.single, ledger.known, ledger.processing, by simp, ledger.waiting, ledger.nodup, ?_,
    ledger.queue, ledger.order⟩
  intro owner other member called
  rcases ledger.settled owner other member called with held | rest
  · rw [← Option.some.inj held] at called
    exact absurd silent called
  · exact .inr rest

theorem joined_members {target : String} (grown : line' target = line target ++ [request])
    (same : ∀ other, other ≠ target → line' other = line other) (name : String) (other : RpcRequest) :
    other ∈ line' name ↔ other ∈ line name ∨ name = target ∧ other = request := by
  by_cases this : name = target
  · simp [this, grown]
  · simp [this, same name this]

theorem Ledger.join (ledger : Ledger log line busy (some request))
    (inHand : InHand log line client request seen) (due : seen = refusals client request)
    {target initiator : String} (body : ∃ wait, request.body = .call (.ok (.connect target wait)))
    (grown : line' target = line target ++ [request])
    (same : ∀ other, other ≠ target → line' other = line other) :
    Ledger (log ++ [.queued target initiator request]) line' busy none := by
  have count : ∀ other, answers (log ++ [.queued target initiator request]) other = answers log other := by
    intro other
    rw [answers_append]
    rfl
  have received : ∀ {client other}, .received client other ∈ log ++ [.queued target initiator request] ↔
      .received client other ∈ log := by simp
  have members := joined_members grown same
  refine ⟨?_, ?_, ?_, by simp, ?_, ?_, ?_, ?_, ?_⟩
  · intro first second other
    rw [received, received]
    exact ledger.single first second other
  · intro other counted
    simp only [received]
    exact ledger.known other (by rwa [count] at counted)
  · intro owner other processes
    have different : other ≠ request := fun same => ledger.apart owner request rfl (same ▸ processes)
    obtain ⟨old, counted, absent⟩ := ledger.processing owner other processes
    rw [received, count]
    refine ⟨old, counted, ?_⟩
    intro name member
    rcases (members name other).mp member with there | ⟨_, same⟩
    · exact absent name there
    · exact different same
  · intro name other member
    simp only [received, count]
    rcases (members name other).mp member with there | ⟨rfl, rfl⟩
    · exact ledger.waiting name other there
    · exact ⟨body, client, inHand.received, by rw [inHand.answered, due]⟩
  · intro name
    by_cases this : name = target
    · rw [this, grown, List.nodup_append]
      refine ⟨ledger.nodup target, by simp, ?_⟩
      intro first member second new
      rw [List.mem_singleton.mp new]
      intro equal
      exact inHand.absent target (equal ▸ member)
    · rw [same name this]
      exact ledger.nodup name
  · intro owner other member called
    rw [count]
    rcases ledger.settled owner other (received.mp member) called with held | busy | done | there
    · have equal := Option.some.inj held
      subst equal
      have joined : request ∈ line' target := (members target request).mpr (.inr ⟨rfl, rfl⟩)
      exact .inr (.inr (.inr ⟨target, joined⟩))
    · exact .inr (.inl busy)
    · by_cases equal : other = request
      · have joined : other ∈ line' target := (members target other).mpr (.inr ⟨rfl, equal⟩)
        exact .inr (.inr (.inr ⟨target, joined⟩))
      · have absent : ∀ name, other ∉ line' name := by
          intro name there
          rcases (members name other).mp there with old | ⟨_, new⟩
          · exact done.2 name old
          · exact equal new
        exact .inr (.inr (.inl ⟨done.1, absent⟩))
    · obtain ⟨name, old⟩ := there
      exact .inr (.inr (.inr ⟨name, (members name other).mpr (.inl old)⟩))
  · intro name
    by_cases this : name = target
    · subst this
      rw [grown, ← ledger.queue name]
      exact backlog_join (if_pos rfl)
    · rw [same name this, ← ledger.queue name]
      apply backlog_unmoved
      intro event member
      cases List.mem_singleton.mp member
      exact .inl (if_neg (Ne.symm this))
  · intro name
    refine (ledger.order name).append ⟨?_, trivial⟩
    by_cases this : target = name
    · exact fifo_join (if_pos this)
    · intro other leaves
      simp [waitingOp, this] at leaves

theorem Ledger.one_target (ledger : Ledger log line busy hand) {first second : String}
    (member : request ∈ line first) (again : request ∈ line second) : first = second := by
  obtain ⟨⟨_, body⟩, _⟩ := ledger.waiting first request member
  obtain ⟨⟨_, same⟩, _⟩ := ledger.waiting second request again
  rw [body] at same
  cases same
  rfl

theorem Ledger.served_members (ledger : Ledger log line busy hand) {target : String}
    (head : line target = request :: line' target)
    (same : ∀ other, other ≠ target → line' other = line other) (name : String) (other : RpcRequest) :
    other ∈ line' name ↔ other ∈ line name ∧ other ≠ request := by
  have waits : request ∈ line target := by rw [head]; exact List.mem_cons_self
  by_cases this : name = target
  · have nodup := ledger.nodup target
    rw [head] at nodup
    have tail := (List.nodup_cons.mp nodup).1
    rw [this, head, List.mem_cons]
    constructor
    · intro member
      exact ⟨.inr member, fun equal => tail (equal ▸ member)⟩
    · intro there
      exact there.1.resolve_left there.2
  · rw [same name this]
    constructor
    · intro member
      exact ⟨member, fun equal => this (ledger.one_target (equal ▸ member) waits)⟩
    · intro there
      exact there.1

theorem Ledger.serve (ledger : Ledger log line busy none) {target : String}
    (head : line target = request :: line' target)
    (same : ∀ other, other ≠ target → line' other = line other) (response : Response) :
    Ledger (log ++ [.responded request response]) line' busy none := by
  have waits : request ∈ line target := by rw [head]; exact List.mem_cons_self
  obtain ⟨_, client, came, counted⟩ := ledger.waiting target request waits
  have elsewhere : ∀ other, other ≠ target → request ∉ line other := by
    intro other different member
    exact different (ledger.one_target member waits)
  have members := ledger.served_members head same
  refine ⟨?_, ?_, ?_, by simp, ?_, ?_, ?_, ?_, ?_⟩
  · intro first second other
    rw [received_responded, received_responded]
    exact ledger.single first second other
  · intro other counted
    simp only [received_responded]
    by_cases equal : other = request
    · rw [equal]
      exact ⟨client, came⟩
    · exact ledger.known other (by rwa [answers_responded_ne equal] at counted)
  · intro owner other processes
    obtain ⟨old, counted, absent⟩ := ledger.processing owner other processes
    have different : other ≠ request := fun equal => absent target (equal ▸ waits)
    rw [received_responded, answers_responded_ne different]
    exact ⟨old, counted, fun name member => absent name ((members name other).mp member).1⟩
  · intro name other member
    obtain ⟨there, different⟩ := (members name other).mp member
    simp only [received_responded, answers_responded_ne different]
    exact ledger.waiting name other there
  · intro name
    by_cases this : name = target
    · have nodup := ledger.nodup target
      rw [head] at nodup
      rw [this]
      exact (List.nodup_cons.mp nodup).2
    · rw [same name this]
      exact ledger.nodup name
  · intro owner other member called
    by_cases equal : other = request
    · subst equal
      have answered : answers (log ++ [.responded other response]) other = refusals owner other + 1 := by
        rw [ledger.single owner client other ((received_responded response).mp member) came, answers_append, counted]
        simp
      have absent : ∀ name, other ∉ line' name := by
        intro name there
        exact ((members name other).mp there).2 rfl
      exact .inr (.inr (.inl ⟨answered, absent⟩))
    · rw [answers_responded_ne equal]
      rcases ledger.settled owner other ((received_responded response).mp member) called with held | busy | done | there
      · cases held
      · exact .inr (.inl busy)
      · have absent : ∀ name, other ∉ line' name := by
          intro name there
          exact done.2 name ((members name other).mp there).1
        exact .inr (.inr (.inl ⟨done.1, absent⟩))
      · obtain ⟨name, old⟩ := there
        exact .inr (.inr (.inr ⟨name, (members name other).mpr ⟨old, equal⟩⟩))
  · intro name
    by_cases this : name = target
    · subst this
      exact backlog_leave rfl (by rw [← head]; exact ledger.queue name)
    · rw [same name this, ← ledger.queue name]
      apply backlog_unmoved
      intro event member
      cases List.mem_singleton.mp member
      refine .inr ⟨request, rfl, ?_⟩
      rw [show backlog (waitingOp name) log = line name from ledger.queue name]
      exact elsewhere name this
  · intro name
    refine (ledger.order name).append ⟨?_, trivial⟩
    intro other leaves present
    cases leaves
    rw [show backlog (waitingOp name) log = line name from ledger.queue name] at present ⊢
    by_cases this : name = target
    · rw [this, head]
      rfl
    · exact absurd present (elsewhere name this)

theorem Ledger.pick (ledger : Ledger log line busy none) (processes : busy client request)
    (others : ∀ owner other, busy' owner other ↔ busy owner other ∧ other ≠ request) :
    Ledger log line busy' (some request) ∧
      InHand log line client request (refusals client request) := by
  have held := ledger.processing client request processes
  refine ⟨⟨ledger.single, ledger.known, ?_, ?_, ledger.waiting, ledger.nodup, ?_, ledger.queue,
    ledger.order⟩, held.1, held.2.1, held.2.2⟩
  · intro owner other member
    exact ledger.processing owner other ((others owner other).mp member).1
  · intro owner other same member
    exact ((others owner other).mp member).2 (Option.some.inj same).symm
  · intro owner other member called
    by_cases equal : other = request
    · exact .inl (by rw [equal])
    · rcases ledger.settled owner other member called with held | busy | rest
      · cases held
      · exact .inr (.inl ((others owner other).mpr ⟨busy, equal⟩))
      · exact .inr (.inr rest)

theorem Outcome.named {rest : List Event} {next : Phase} (outcome : Outcome client request seen rest next)
    {other : RpcRequest} (processes : next.processing = some other) : next.registeredAs = client := by
  cases outcome with
  | refused _ _ _ named => exact named
  | kept _ named => exact named
  | answered _ _ _ now => simp [now] at processes
  | queued _ _ _ now => simp [now] at processes
  | dropped now => simp [now] at processes

theorem Outcome.unreceived {rest : List Event} {next : Phase}
    (outcome : Outcome client request seen rest next) (owner : Option String) (other : RpcRequest) :
    .received owner other ∉ rest := by
  intro member
  cases outcome with
  | refused _ _ _ _ _ all => simp [all] at member
  | kept _ _ _ neutral => exact neutral _ member
  | answered _ checks _ _ neutral all =>
    rw [all] at member
    rcases List.mem_append.mp member with check | last
    · exact neutral _ check
    · cases List.mem_singleton.mp last
  | queued _ _ _ _ all => simp [all] at member
  | dropped _ _ all => simp [all] at member

/-- A step that receives a request has polled its message, and begins with the receipt. -/
theorem Treats.received {hub : Hub} {conn : Conn} {phase : Phase} {input : Input} {progress : Progress}
    (treats : Treats hub conn phase input progress) (received : .received client request ∈ progress.events) :
    ∃ message rest, input = .polled (some message) ∧ client = phase.registeredAs ∧
      request = message.request hub.clock conn ∧ progress.events = .received client request :: rest ∧
      Outcome client request 0 rest progress.phase := by
  cases treats with
  | other unpolled was now unreceived => exact absurd received (unreceived client request)
  | proceeds unpolled own was outcome => exact absurd received (outcome.unreceived client request)
  | receives message polled was rest events outcome =>
    rw [events] at received
    have first := (List.mem_cons.mp received).resolve_right (outcome.unreceived client request)
    cases first
    exact ⟨message, rest, polled, rfl, rfl, events, outcome⟩

theorem InHand.neutral (inHand : InHand log line client request seen)
    (neutral : ∀ event ∈ out, Neutral event) : InHand (log ++ out) line client request seen := by
  refine ⟨List.mem_append_left _ inHand.received, ?_, inHand.absent⟩
  rw [answers_append, answers_neutral neutral, Nat.add_zero]
  exact inHand.answered

def Lines (line line' : String → List RpcRequest) (request : RpcRequest) (rest : List Event) : Prop :=
  (line' = line ∧ ∀ target initiator, .queued target initiator request ∉ rest) ∨
    ∃ target initiator, .queued target initiator request ∈ rest ∧
      (∃ wait, request.body = .call (.ok (.connect target wait))) ∧
      line' target = line target ++ [request] ∧ ∀ other, other ≠ target → line' other = line other

theorem Lines.still {rest : List Event} (lines : Lines line line' request rest)
    (unqueued : ∀ target initiator, .queued target initiator request ∉ rest) : line' = line := by
  rcases lines with ⟨same, _⟩ | ⟨target, initiator, member, _⟩
  · exact same
  · exact absurd member (unqueued target initiator)

theorem Outcome.ledger {rest : List Event} {next : Phase} (outcome : Outcome client request seen rest next)
    (ledger : Ledger log line busy (some request)) (inHand : InHand log line client request seen)
    (lines : Lines line line' request rest)
    (more : ∀ owner other, busy' owner other ↔
      busy owner other ∨ owner = client ∧ next.processing = some other) :
    Ledger (log ++ rest) line' busy' none := by
  have released : next.processing = none → busy' = busy := by
    intro idle
    funext owner other
    simp [more, idle]
  cases outcome with
  | refused response unseen wrong named now all =>
    subst all
    rw [lines.still (by simp)]
    obtain ⟨answered, held⟩ := ledger.answer inHand response
    apply answered.keep held (by omega)
    intro owner other
    rw [more, now, Option.some.injEq, eq_comm (a := request)]
  | kept due named now neutral =>
    rw [lines.still fun target initiator member => neutral _ member]
    apply (ledger.neutral neutral).keep (inHand.neutral neutral) due
    intro owner other
    rw [more, now, Option.some.injEq, eq_comm (a := request)]
  | answered due checks response now neutral all =>
    subst all
    have unqueued : ∀ target initiator, .queued target initiator request ∉
        checks ++ [.responded request response] := by
      intro target initiator member
      rcases List.mem_append.mp member with check | last
      · exact neutral _ check
      · cases List.mem_singleton.mp last
    rw [lines.still unqueued, released now, ← List.append_assoc]
    obtain ⟨answered, held⟩ := (ledger.neutral neutral).answer (inHand.neutral neutral) response
    exact answered.settle held (by omega)
  | queued due target initiator now all =>
    subst all
    rw [released now]
    rcases lines with ⟨_, unqueued⟩ | ⟨name, owner, member, body, grown, same⟩
    · exact absurd (by simp) (unqueued target initiator)
    · simp only [List.mem_cons, reduceCtorEq, List.not_mem_nil, or_false, false_or,
        Event.queued.injEq, and_true] at member
      obtain ⟨rfl, rfl⟩ := member
      have check : ∀ event ∈ [Event.connectionChecked request owner name true], Neutral event := by
        simp [Neutral]
      have joined : Ledger (log ++ [.connectionChecked request owner name true] ++
          [.queued name owner request]) line' busy none :=
        (ledger.neutral check).join (inHand.neutral check) due body grown same
      simpa using joined
  | dropped now silent all =>
    subst all
    rw [lines.still (by simp), released now, List.append_nil]
    exact ledger.drop silent

end KrossbarHub
