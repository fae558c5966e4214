import KrossbarBus.Lib.RemoteCalls

namespace KrossbarLib

open Transition (Run RunWith)

variable {σ ι κ Bson : Type}
variable {monitor inspection : Bool} {methods : String → MethodFunction σ ι κ Bson} {origin : σ}
  {remote after : Remote σ κ Bson} {action : RemoteAction ι Bson} {log out : List (RemoteEvent Bson)}
  {service_name : String} {serving next : Serving Bson} {moves : ServingAction Bson}
  {events : List (ServingEvent Bson)} {request : IncomingRequest Bson}

/-- Where a request is: under way on its stream, before a handle of the service, or with the endpoints. -/
inductive RemotePlace
  | underway (rpc : Nat)
  | waiting (number : Nat)
  | handed

def Serving.waiting (serving : Serving Bson) (number : Nat) : List (IncomingRequest Bson) :=
  (serving.inbox number).filterMap Frame.asRequest

def handedRequests (log : List (ServingEvent Bson)) : List (IncomingRequest Bson) :=
  log.filterMap fun
    | .handed _ request => some request
    | _ => none

def Remote.held (remote : Remote σ κ Bson) (log : List (RemoteEvent Bson)) :
    RemotePlace → List (IncomingRequest Bson)
  | .underway rpc => remote.requests rpc
  | .waiting number => remote.hosting.serving.waiting number
  | .handed => handedRequests (servingLog log)

/-- No two requests have one number on one stream, and each is in one place. -/
structure Remote.Placed (remote : Remote σ κ Bson) (log : List (RemoteEvent Bson)) : Prop where
  apart : Apart fun place => (remote.held log place).map IncomingRequest.key
  streams : ∀ rpc request, request ∈ remote.requests rpc → request.rpc = rpc
  sent : ∀ place request, request ∈ remote.held log place →
    .sent request ∈ log ∧ request.message_id < remote.sent request.rpc

theorem servingLog_append (log out : List (RemoteEvent Bson)) :
    servingLog (log ++ out) = servingLog log ++ servingLog out := by
  simp only [servingLog, List.filterMap_append]

theorem servingLog_hosting (events : List (HostingEvent Bson)) :
    servingLog (events.map .hosting) = events.filterMap HostingEvent.ofServing := by
  rw [servingLog, hosting_map]

theorem handedRequests_append (log out : List (ServingEvent Bson)) :
    handedRequests (log ++ out) = handedRequests log ++ handedRequests out := List.filterMap_append

theorem waiting_setInbox (number other : Nat) (frames : List (Frame Bson)) :
    (serving.setInbox number frames).waiting other =
      if other = number then frames.filterMap Frame.asRequest else serving.waiting other := by
  simp only [Serving.waiting, Serving.setInbox]
  split <;> rfl

/-- What a step of the service does with the requests that wait before its handles. -/
inductive Serving.Hands (serving next : Serving Bson) (events : List (ServingEvent Bson)) : Prop
  | reads (number : Nat) (request : IncomingRequest Bson) (rest : List (IncomingRequest Bson))
      (first : serving.waiting number = request :: rest) (left : next.waiting number = rest)
      (others : ∀ other, other ≠ number → next.waiting other = serving.waiting other)
      (handed : handedRequests events = [request])
  | stays (same : ∀ number, next.waiting number = serving.waiting number) (silent : handedRequests events = [])

theorem Serving.Steps.hands (steps : serving.Steps monitor inspection moves next events)
    (apart : ∀ number message_id endpoint body, moves ≠ .arrive number message_id endpoint body) :
    serving.Hands next events := by
  cases steps with
  | service action service out _ drained taken =>
    refine .stays (fun _ => rfl) ?_
    rw [handedRequests, List.filterMap_map]
    exact List.filterMap_eq_nil_iff.mpr fun _ _ => rfl
  | register registration idle => exact .stays (fun _ => rfl) rfl
  | arrive number rpc message_id endpoint body stream => exact absurd rfl (apart number message_id endpoint body)
  | arriveResponse number rpc id stream =>
    refine .stays (fun other => ?_) rfl
    rw [Serving.receive, waiting_setInbox]
    split
    · rename_i same
      rw [List.filterMap_append, same]
      exact List.append_nil _
    · rfl
  | read number request rest service out first taken =>
    refine .reads number request (rest.filterMap Frame.asRequest) ?_ ?_ (fun other different => ?_) rfl
    · rw [Serving.waiting, first]
      rfl
    · exact (waiting_setInbox number number rest).trans (if_pos rfl)
    · exact (waiting_setInbox number other rest).trans (if_neg different)
  | deliver number id rest first polls =>
    refine .stays (fun other => ?_) rfl
    refine (waiting_setInbox number other rest).trans ?_
    split
    · rename_i same
      rw [same, Serving.waiting, first]
      rfl
    · rfl
  | call number request awaiting running => exact .stays (fun _ => rfl) rfl
  | resume input call number poll_handle phase current held resumed =>
    refine .stays (fun _ => rfl) ?_
    cases call.phase.response input <;> rfl
  | complete request number poll_handle service out current held taken => exact .stays (fun _ => rfl) rfl

theorem Remote.Placed.initial : (Remote.new service_name origin : Remote σ κ Bson).Placed [] where
  apart := .empty fun place => by cases place <;> rfl
  streams := by simp [Remote.new]
  sent := by
    intro place request there
    cases place <;> cases there

/-- The step leaves every request where it is, or forgets it. -/
theorem Remote.Placed.fewer (placed : remote.Placed log) (quiet : handedRequests (servingLog out) = [])
    (requests : ∀ rpc, (after.requests rpc).Sublist (remote.requests rpc))
    (waiting : ∀ number, after.hosting.serving.waiting number = remote.hosting.serving.waiting number)
    (sent : after.sent = remote.sent) : after.Placed (log ++ out) := by
  have fewer : ∀ place, (after.held (log ++ out) place).Sublist (remote.held log place) := by
    intro place
    cases place with
    | underway rpc => exact requests rpc
    | waiting number =>
      simp only [Remote.held, waiting]
      exact List.Sublist.refl _
    | handed =>
      simp only [Remote.held, servingLog_append, handedRequests_append, quiet, List.append_nil]
      exact List.Sublist.refl _
  refine ⟨placed.apart.fewer fun place => (fewer place).map _, ?_, ?_⟩
  · exact fun rpc request there => placed.streams rpc request ((requests rpc).subset there)
  · intro place request there
    obtain ⟨known, below⟩ := placed.sent place request ((fewer place).subset there)
    rw [sent]
    exact ⟨List.mem_append_left _ known, below⟩

/-- A request goes from one place to another. -/
theorem Remote.Placed.moved (placed : remote.Placed log) (left right : RemotePlace)
    {rest : List (IncomingRequest Bson)} (first : remote.held log left = request :: rest)
    (different : left ≠ right) (gone : after.held (log ++ out) left = rest)
    (here : after.held (log ++ out) right = remote.held log right ++ [request])
    (others : ∀ place, place ≠ left → place ≠ right → after.held (log ++ out) place = remote.held log place)
    (requests : ∀ rpc, (after.requests rpc).Sublist (remote.requests rpc)) (sent : after.sent = remote.sent) :
    after.Placed (log ++ out) where
  apart := by
    have first' : (remote.held log left).map IncomingRequest.key = request.key :: rest.map IncomingRequest.key := by
      rw [first, List.map_cons]
    refine placed.apart.move first' different ?_ ?_ ?_
    · simp only [gone]
    · simp only [here, List.map_append, List.map_cons, List.map_nil]
    · intro place elsewhere elsewhere'
      simp only [others place elsewhere elsewhere']
  streams rpc request there := placed.streams rpc request ((requests rpc).subset there)
  sent := by
    intro place other there
    have origin : ∃ before, other ∈ remote.held log before := by
      by_cases leaves : place = left
      · subst leaves
        rw [gone] at there
        exact ⟨place, by rw [first]; exact List.mem_cons_of_mem request there⟩
      · by_cases comes : place = right
        · subst comes
          rw [here] at there
          rcases List.mem_append.mp there with old | new
          · exact ⟨place, old⟩
          · exact ⟨left, by rw [first, List.mem_singleton.mp new]; exact List.mem_cons_self⟩
        · exact ⟨place, by rwa [others place leaves comes] at there⟩
    obtain ⟨before, old⟩ := origin
    obtain ⟨known, below⟩ := placed.sent before other old
    rw [sent]
    exact ⟨List.mem_append_left _ known, below⟩

theorem Remote.Placed.send (placed : remote.Placed log) {rpc : Nat}
    (here : after.requests rpc = remote.requests rpc ++ [request])
    (others : ∀ other, other ≠ rpc → after.requests other = remote.requests other)
    (hosting : after.hosting = remote.hosting) (own : request.rpc = rpc)
    (number : request.message_id = remote.sent rpc) (next : after.sent rpc = remote.sent rpc + 1)
    (same : ∀ other, other ≠ rpc → after.sent other = remote.sent other) :
    after.Placed (log ++ [.sent request]) := by
  have handed : handedRequests (servingLog (log ++ [.sent request])) = handedRequests (servingLog log) := by
    rw [servingLog_append, handedRequests_append]
    exact List.append_nil _
  have kept : ∀ place, place ≠ .underway rpc →
      after.held (log ++ [.sent request]) place = remote.held log place := by
    intro place elsewhere
    cases place with
    | underway other => exact others other fun same => elsewhere (by rw [same])
    | waiting number => simp only [Remote.held, hosting]
    | handed => exact handed
  have fresh : ∀ place other, other ∈ remote.held log place → other.key ≠ request.key := by
    intro place other there same
    obtain ⟨_, below⟩ := placed.sent place other there
    obtain ⟨stream, id⟩ := Prod.mk.inj same
    rw [stream, id, own, number] at below
    exact Int.lt_irrefl _ below
  have grown : ∀ stream, remote.sent stream ≤ after.sent stream := by
    intro stream
    by_cases this : stream = rpc
    · rw [this, next]
      exact Nat.le_succ _
    · exact Nat.le_of_eq (same stream this).symm
  refine ⟨?_, ?_, ?_⟩
  · refine placed.apart.add (k := request.key) (q := .underway rpc) ?_ ?_ ?_
    · intro place there
      obtain ⟨other, member, equal⟩ := List.mem_map.mp there
      exact fresh place other member equal
    · simp only [Remote.held, here, List.map_append, List.map_cons, List.map_nil]
    · intro place elsewhere
      simp only [kept place elsewhere]
  · intro stream other there
    by_cases this : stream = rpc
    · subst this
      rw [here] at there
      rcases List.mem_append.mp there with old | new
      · exact placed.streams stream other old
      · rw [List.mem_singleton.mp new]
        exact own
    · rw [others stream this] at there
      exact placed.streams stream other there
  · have old : ∀ place other, other ∈ remote.held log place →
        .sent other ∈ log ++ [.sent request] ∧ other.message_id < after.sent other.rpc := by
      intro place other there
      obtain ⟨known, below⟩ := placed.sent place other there
      exact ⟨List.mem_append_left _ known, Int.lt_of_lt_of_le below (Int.ofNat_le.mpr (grown other.rpc))⟩
    intro place other there
    by_cases this : place = .underway rpc
    · subst this
      simp only [Remote.held, here] at there
      rcases List.mem_append.mp there with before | new
      · exact old (.underway rpc) other before
      · rw [List.mem_singleton.mp new]
        refine ⟨List.mem_append_right _ (List.mem_singleton_self _), ?_⟩
        rw [own, number, next]
        exact Int.ofNat_lt.mpr (Nat.lt_succ_self _)
    · rw [kept place this] at there
      exact old place other there

theorem requests_update {rest : List (IncomingRequest Bson)} {rpc : Nat}
    (fewer : rest.Sublist (remote.requests rpc)) (other : Nat) :
    (Function.update remote.requests rpc rest other).Sublist (remote.requests other) := by
  by_cases this : other = rpc
  · subst this
    rw [Function.update_self]
    exact fewer
  · rw [Function.update_of_ne this]

theorem arrive_taken {number : Nat} {message_id : Int} {endpoint : String} {body : RequestBody Bson}
    (taken : serving.step monitor inspection (.arrive number message_id endpoint body) = some (next, events)) :
    ∃ rpc, serving.service.streamOf number = some rpc ∧
      next = serving.receive number (.request ⟨rpc, message_id, endpoint, body⟩) ∧
      events = [.arrived number ⟨rpc, message_id, endpoint, body⟩] := by
  cases Serving.step_cases taken with
  | arrive _ rpc _ _ _ stream => exact ⟨rpc, stream, rfl, rfl⟩

theorem waiting_receive (number : Nat) (request : IncomingRequest Bson) :
    (serving.receive number (.request request)).waiting number = serving.waiting number ++ [request] := by
  rw [Serving.receive, waiting_setInbox, if_pos rfl, List.filterMap_append]
  rfl

theorem Remote.Steps.placed (steps : remote.Steps monitor inspection methods action after out)
    (placed : remote.Placed log) : after.Placed (log ++ out) := by
  cases steps with
  | send rpc endpoint body =>
    exact placed.send (Function.update_self ..) (fun _ different => Function.update_of_ne different ..) rfl rfl rfl
      (Function.update_self ..) fun _ different => Function.update_of_ne different ..
  | arrive number rpc request rest hosting events stream first taken =>
    rcases hosting_moves taken with ⟨means, _⟩ | ⟨moves, means, moved⟩
    · cases means
    · cases means
      obtain ⟨other, here, came, told⟩ := arrive_taken moved
      rw [stream] at here
      cases here
      have own := placed.streams rpc request (by rw [first]; exact List.mem_cons_self)
      have whole : (⟨rpc, request.message_id, request.endpoint, request.body⟩ : IncomingRequest Bson) = request := by
        rw [← own]
      rw [whole] at came told
      have fewer : rest.Sublist (remote.requests rpc) := by
        rw [first]
        exact List.sublist_cons_self request rest
      refine placed.moved (.underway rpc) (.waiting number) first (by simp) ?_ ?_ ?_
        (requests_update fewer) rfl
      · exact Function.update_self ..
      · simp only [Remote.held, came]
        exact waiting_receive number request
      · intro place elsewhere elsewhere'
        cases place with
        | underway other => exact Function.update_of_ne (fun same => elsewhere (by rw [same])) ..
        | waiting other =>
          simp only [Remote.held, came, Serving.receive]
          rw [waiting_setInbox, if_neg fun same => elsewhere' (by rw [same])]
        | handed =>
          simp only [Remote.held, servingLog_append, handedRequests_append, servingLog_hosting, told]
          exact List.append_nil _
  | hosting action hosting events apart taken =>
    rcases hosting_moves taken with ⟨_, same, silent⟩ | ⟨moves, means, moved⟩
    · refine placed.fewer ?_ (fun _ => List.Sublist.refl _) (fun number => ?_) rfl
      · rw [servingLog_hosting, silent]
        rfl
      · simp only [same]
    · have elsewhere : ∀ number message_id endpoint body, moves ≠ .arrive number message_id endpoint body := by
        rintro number message_id endpoint body rfl
        cases action with
        | serving action =>
          cases means
          cases apart
        | returned =>
          simp only [Hosting.onServing] at means
          split at means <;> cases means
        | _ => cases means
      cases (Serving.step_cases moved).hands elsewhere with
      | stays same silent =>
        refine placed.fewer ?_ (fun _ => List.Sublist.refl _) same rfl
        rw [servingLog_hosting, silent]
      | reads number request rest first left others handed =>
        refine placed.moved (.waiting number) .handed first (by simp) left ?_ ?_
          (fun _ => List.Sublist.refl _) rfl
        · simp only [Remote.held, servingLog_append, handedRequests_append, servingLog_hosting, handed]
        · intro place elsewhere elsewhere'
          cases place with
          | underway other => rfl
          | waiting other => exact others other fun same => elsewhere (by rw [same])
          | handed => exact absurd rfl elsewhere'
  | receive rpc response rest first =>
    exact placed.fewer rfl (fun _ => List.Sublist.refl _) (fun _ => rfl) rfl
  | lost rpc =>
    exact placed.fewer rfl (requests_update (List.nil_sublist _)) (fun _ => rfl) rfl

theorem run_placed
    (run : Run (Remote.step monitor inspection methods) (.new service_name origin) log remote) : remote.Placed log :=
  run.invariant (I := fun log remote => remote.Placed log) .initial fun _ _ _ _ _ _ placed _ taken =>
    (Remote.step_cases taken).placed placed

end KrossbarLib
