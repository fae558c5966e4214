import KrossbarBus.Lib.LostPeers

namespace KrossbarLib

open KrossbarHub (Error)

variable {σ P R Bson : Type}

inductive ClientRequest (P : Type)
  | call (endpoint : String) (params : P)
  | message (endpoint : String) (body : P)

def ClientRequest.params : ClientRequest P → P
  | .call _ params => params
  | .message _ body => body

/-- The writer of a client, over a connection in some state. Of a call that was sent it has the
    response, if that has arrived. -/
structure PeerWriter (σ P R : Type) where
  call : σ → String → P → Except Error (Option (Except Error R))
  send_message : σ → String → P → Except Error Unit

/-- What is said of the writer: it fails with the error of a conversion that fails. -/
structure PeerWriter.Documented (writer : PeerWriter σ P R) (toBson : P → Except Error Bson) : Prop where
  call : ∀ connection endpoint params e, toBson params = .error e →
    writer.call connection endpoint params = .error e
  send_message : ∀ connection endpoint body e, toBson body = .error e →
    writer.send_message connection endpoint body = .error e

/-- The result of a call is `some`, that of a message `none`. -/
def PeerWriter.send (writer : PeerWriter σ P R) (connection : σ) :
    ClientRequest P → Except Error (Option (Except Error (Option R)))
  | .call endpoint params => (writer.call connection endpoint params).map (Option.map (Except.map some))
  | .message endpoint body => (writer.send_message connection endpoint body).map fun _ => some (.ok none)

/-- `call` and `message` after the send. `Err(_)` is one branch, whatever the error is. -/
def sendAction {α : Type} (call : Nat) : Except Error (Option (Except Error α)) → PeerAction α
  | .ok data => .sent call data
  | .error _ => .unsent call

/-- The call is for this request: its sends end as the writer says. -/
def PeerWriter.Follows (writer : PeerWriter σ P R) (request : ClientRequest P) (call : Nat)
    (_ : Peer (Option R)) (action : PeerAction (Option R)) : Prop :=
  (action = .unsent call ∨ ∃ data, action = .sent call data) →
    ∃ connection, action = sendAction call (writer.send connection request)

/-- The call takes its turn, returns the error, and leaves the event to the others. -/
def FailsAtOnce (writer : PeerWriter σ P R) (request : ClientRequest P) (connection : σ)
    (peer : Peer (Option R)) (call : Nat) (e : Error) : Prop :=
  ∃ after out, Peer.step peer (sendAction call (writer.send connection request)) = some (after, out) ∧
    after.calls[call]? = some (some (.returned (.error e))) ∧
    after.self_reconnect_event = peer.self_reconnect_event

/-- The call waits behind the others. With an empty channel it is stuck; otherwise it can take the
    next outcome away from them. -/
structure JoinsEvent (peer after : Peer (Option R)) (call : Nat) : Prop where
  waiting : after.calls[call]? = some (some .waiting)
  joined : after.self_reconnect_event.waiting = peer.self_reconnect_event.waiting ++ [call]
  stuck : peer.self_reconnect_event.channel = [] → Peer.step after (.reconnectEvent call) = none
  takes : ∀ outcome rest, peer.self_reconnect_event.channel = outcome :: rest →
    ∃ final, Peer.step after (.reconnectEvent call) = some (final, [.heard call outcome]) ∧
      final.self_reconnect_event = ⟨rest, peer.self_reconnect_event.waiting⟩

/-- How far the call can be: it never gets past a wait but with an outcome of the event. -/
inductive Waits (log : List (PeerEvent (Option R))) (call : Nat) : Progress (Option R) → Prop
  | sending : Waits log call .sending
  | waiting (unsent : .unsent call ∈ log) : Waits log call .waiting
  | refused (e : Error) (unsent : .unsent call ∈ log) (heard : .heard call (.error e) ∈ log) :
      Waits log call (.returned (.error e))

theorem PeerWriter.Documented.send {writer : PeerWriter σ P R} {toBson : P → Except Error Bson}
    (documented : writer.Documented toBson) {request : ClientRequest P} {e : Error}
    (unserializable : toBson request.params = .error e) (connection : σ) :
    writer.send connection request = .error e := by
  cases request with
  | call endpoint params =>
    rw [PeerWriter.send, documented.call connection endpoint params e unserializable]
    rfl
  | message endpoint body =>
    rw [PeerWriter.send, documented.send_message connection endpoint body e unserializable]
    rfl

/-- Without a send that succeeds the recursion ends only with a failed reconnect. -/
theorem retry_unsent {ε ρ δ α : Type} (request : ρ) (respond : δ → Progress α) (sends : List (Except ε δ))
    (reconnects : List (Except Error Unit)) (failed : ∀ data, .ok data ∉ sends) :
    (retry request respond sends reconnects).2 = .sending ∨
    sends ≠ [] ∧ ((retry request respond sends reconnects).2 = .waiting ∨
      ∃ e, .error e ∈ reconnects ∧ (retry request respond sends reconnects).2 = .returned (.error e)) := by
  fun_induction retry request respond sends reconnects with
  | case1 reconnects => exact .inl rfl
  | case2 data sends reconnects => exact absurd (List.mem_cons_self ..) (failed data)
  | case3 failure sends => exact .inr ⟨by simp, .inl rfl⟩
  | case4 failure sends e reconnects => exact .inr ⟨by simp, .inr ⟨e, List.mem_cons_self .., rfl⟩⟩
  | case5 failure sends reconnects attempts progress same ih =>
    have rest := ih fun data member => failed data (List.mem_cons_of_mem _ member)
    rw [same] at rest
    rcases rest with sending | ⟨_, waiting | ⟨e, member, refused⟩⟩
    · exact .inl sending
    · exact .inr ⟨by simp, .inl waiting⟩
    · exact .inr ⟨by simp, .inr ⟨e, List.mem_cons_of_mem _ member, refused⟩⟩

section

variable {writer : PeerWriter σ P R} {toBson : P → Except Error Bson} {request : ClientRequest P} {e : Error}
  {service_name : String} {outgoing : Bool} {peer after : Peer (Option R)} {action : PeerAction (Option R)}
  {log out : List (PeerEvent (Option R))} {call : Nat}

theorem sendAction_unserializable (documented : writer.Documented toBson)
    (unserializable : toBson request.params = .error e) (connection : σ) :
    sendAction call (writer.send connection request) = .unsent call := by
  rw [documented.send unserializable]
  rfl

theorem sent_action {data : Option (Except Error (Option R))} (taken : Peer.step peer action = some (after, out))
    (sent : .sent call data ∈ out) : action = .sent call data := by
  cases Peer.step_cases taken with
  | sent index response sending linked =>
    cases List.mem_singleton.mp sent
    rfl
  | _ => simp at sent

theorem never_sent (documented : writer.Documented toBson) (unserializable : toBson request.params = .error e)
    (run : Transition.RunWith Peer.step (writer.Follows request call) (Peer.new service_name outgoing) log peer)
    (data : Option (Except Error (Option R))) : .sent call data ∉ log := by
  intro member
  obtain ⟨_, _, _, _, _, _, follows, taken, sent, _⟩ := run.emitted member
  obtain ⟨connection, same⟩ := follows (.inr ⟨data, sent_action taken sent⟩)
  rw [sent_action taken sent, sendAction_unserializable documented unserializable] at same
  cases same

theorem unsent_of_sendsOf (tried : sendsOf call log ≠ []) (failed : ∀ data, .ok data ∉ sendsOf call log) :
    .unsent call ∈ log := by
  obtain ⟨outcome, member⟩ := List.exists_mem_of_ne_nil _ tried
  cases outcome with
  | ok data => exact absurd member (failed data)
  | error _ => exact mem_sendsOf.mp member

/-- A call whose sends have all failed is in the recursion of `Client.call`, short of its end or with a
    failed reconnect. -/
theorem waits_of_unsent {progress : Progress (Option R)}
    (run : Transition.Run Peer.step (Peer.new service_name outgoing) log peer)
    (unsent : ∀ data, .sent call data ∉ log) (there : peer.calls[call]? = some (some progress)) :
    Waits log call progress := by
  have failed : ∀ data, .ok data ∉ sendsOf call log := fun data member => unsent data (mem_sendsOf.mp member)
  have shape := retry_unsent ("", ()) awaitResponse (sendsOf call log) (outcomesOf call log) failed
  have recursion := calls_retry "" () run there
  simp only [Client.call] at recursion
  rcases shape with sending | ⟨tried, waiting | ⟨e, member, refused⟩⟩
  · rw [sending] at recursion
    rcases recursion with rfl | ⟨_, _, _, responding⟩
    · exact .sending
    · cases responding
  · rw [waiting] at recursion
    rcases recursion with rfl | ⟨_, _, _, responding⟩
    · exact .waiting (unsent_of_sendsOf tried failed)
    · cases responding
  · rw [refused] at recursion
    rcases recursion with rfl | ⟨_, _, _, responding⟩
    · exact .refused e (unsent_of_sendsOf tried failed) (mem_outcomesOf.mp member)
    · cases responding

theorem unsent_joins (sending : peer.calls[call]? = some (some .sending))
    (fresh : call ∉ peer.self_reconnect_event.waiting) :
    ∃ after, Peer.step peer (.unsent call) = some (after, [.unsent call]) ∧ JoinsEvent peer after call := by
  have waiting : (peer.calls.set call (some .waiting))[call]? = some (some .waiting) := by
    rw [set_calls sending, if_pos rfl]
  refine ⟨{ peer.setCall call (some .waiting) with
    self_reconnect_event := { peer.self_reconnect_event with
      waiting := peer.self_reconnect_event.waiting ++ [call] } }, ?_, waiting, rfl, ?_, ?_⟩
  · simp [Peer.step, Event.step, sending, fresh]
  · intro empty
    simp [Peer.step, Event.step, Peer.setCall, waiting, empty]
  · intro outcome rest queued
    have others : (peer.self_reconnect_event.waiting ++ [call]).erase call = peer.self_reconnect_event.waiting := by
      rw [List.erase_append_right _ fresh]
      simp
    refine ⟨{ peer.setCall call (some .waiting) with
      calls := (peer.calls.set call (some .waiting)).set call (some (resume outcome))
      self_reconnect_event := ⟨rest, peer.self_reconnect_event.waiting⟩ }, ?_, rfl⟩
    simp [Peer.step, Event.step, Peer.setCall, waiting, queued, others]

theorem not_failsAtOnce (documented : writer.Documented toBson) (unserializable : toBson request.params = .error e)
    (connection : σ) : ¬ FailsAtOnce writer request connection peer call e := by
  intro ⟨after, out, taken, returned, _⟩
  rw [sendAction_unserializable documented unserializable] at taken
  cases Peer.step_cases taken with
  | unsent _ sending fresh =>
    change (peer.calls.set call (some .waiting))[call]? = _ at returned
    rw [set_calls sending, if_pos rfl] at returned
    cases returned

/-- Parameters that cannot be converted are taken for a lost connection. In no state of the connection
    and of the event does the call return the conversion error: it waits for a reconnect, takes what
    is queued for others, and ends only when a reconnect fails. -/
theorem unserializable_call_waits (documented : writer.Documented toBson)
    (unserializable : toBson request.params = .error e)
    (run : Transition.RunWith Peer.step (writer.Follows request call) (Peer.new service_name outgoing) log peer) :
    (∀ connection, ¬ FailsAtOnce writer request connection peer call e) ∧
    (peer.calls[call]? = some (some .sending) → ∀ connection, ∃ after,
      Peer.step peer (sendAction call (writer.send connection request)) = some (after, [.unsent call]) ∧
      JoinsEvent peer after call) ∧
    ∀ progress, peer.calls[call]? = some (some progress) → Waits log call progress := by
  refine ⟨fun connection => not_failsAtOnce documented unserializable connection, ?_, ?_⟩
  · intro sending connection
    have fresh : call ∉ peer.self_reconnect_event.waiting := by
      rw [(run_settled run.run).waits, sending]
      simp
    rw [sendAction_unserializable documented unserializable]
    exact unsent_joins sending fresh
  · intro progress there
    exact waits_of_unsent run.run (never_sent documented unserializable run) there

def spares (call : Nat) : PeerAction (Option R) → Bool
  | .sent other _ => other != call
  | _ => true

theorem follows_of_spares (documented : writer.Documented toBson)
    (unserializable : toBson request.params = .error e) (connection : σ) (spared : spares call action = true) :
    writer.Follows request call peer action := by
  intro own
  rcases own with rfl | ⟨data, rfl⟩
  · exact ⟨connection, (sendAction_unserializable documented unserializable connection).symm⟩
  · simp [spares] at spared

end

/-- Unsigned numbers become signed ones of 64 bits, if they fit. -/
def signedNumber (params : Nat) : Except Error Int :=
  if params < 9223372036854775808 then .ok params
  else .error (.paramsTypeError ("An attempt to serialize the value: " ++ toString params ++
    " in a signed type failed due to the value's size."))

def numberWriter : PeerWriter Bool Nat Unit where
  call linked _ params :=
    match signedNumber params with
    | .error e => .error e
    | .ok _ => if linked then .ok none else .error .peerDisconnected
  send_message linked _ body :=
    match signedNumber body with
    | .error e => .error e
    | .ok _ => if linked then .ok () else .error .peerDisconnected

theorem numberWriter_documented : numberWriter.Documented signedNumber where
  call := by
    intro connection endpoint params e unserializable
    simp [numberWriter, unserializable]
  send_message := by
    intro connection endpoint body e unserializable
    simp [numberWriter, unserializable]

def largest : ClientRequest Nat := .call "add" 18446744073709551615

theorem largest_unserializable : ∃ e, signedNumber largest.params = .error e :=
  ⟨_, if_neg (by decide)⟩

theorem unserializable_call_hangs : ∃ e log peer, signedNumber largest.params = .error e ∧
    Transition.RunWith Peer.step (numberWriter.Follows largest 0) (Peer.new "com.b" true) log peer ∧
    peer.linked = true ∧ peer.self_reconnect_event.channel = [] ∧
    ¬ FailsAtOnce numberWriter largest true peer 0 e ∧
    ∃ after, Peer.step peer (sendAction 0 (numberWriter.send true largest)) = some (after, [.unsent 0]) ∧
      JoinsEvent peer after 0 := by
  obtain ⟨e, unserializable⟩ := largest_unserializable
  obtain ⟨log, peer, run, shown⟩ := Transition.exists_run_of_execute
    (Transition.guarded Peer.step fun _ => spares 0) (Peer.new "com.b" true : Peer (Option Unit)) [.call]
    (fun _ peer => peer.linked && peer.self_reconnect_event.channel.isEmpty && peer.calls == [some .sending])
    (by decide +kernel)
  simp only [Bool.and_eq_true, List.isEmpty_iff, beq_iff_eq] at shown
  obtain ⟨⟨linked, empty⟩, calls⟩ := shown
  have follows : Transition.RunWith Peer.step (numberWriter.Follows largest 0) (Peer.new "com.b" true) log peer :=
    run.of_guarded fun _ _ _ _ => follows_of_spares numberWriter_documented unserializable true
  have waits := unserializable_call_waits numberWriter_documented unserializable follows
  exact ⟨e, log, peer, unserializable, follows, linked, empty, waits.1 true, waits.2.1 (by simp [calls]) true⟩

/-- A call waited while the connection was down, and the handle has reconnected. The next call on the
    sound connection takes its event. -/
theorem unserializable_call_takes_event : ∃ e log peer, signedNumber largest.params = .error e ∧
    Transition.RunWith Peer.step (numberWriter.Follows largest 1) (Peer.new "com.b" true) log peer ∧
    peer.linked = true ∧ peer.calls = [some .waiting, some .sending] ∧
    ¬ FailsAtOnce numberWriter largest true peer 1 e ∧
    ∃ after final, Peer.step peer (sendAction 1 (numberWriter.send true largest)) = some (after, [.unsent 1]) ∧
      Peer.step after (.reconnectEvent 1) = some (final, [.heard 1 (.ok ())]) ∧
      final.self_reconnect_event = ⟨[], [0]⟩ := by
  obtain ⟨e, unserializable⟩ := largest_unserializable
  obtain ⟨log, peer, run, shown⟩ := Transition.exists_run_of_execute
    (Transition.guarded Peer.step fun _ => spares 1) (Peer.new "com.b" true : Peer (Option Unit))
    [.call, .lost, .unsent 0, .noticed, .reconnected, .emitted, .call]
    (fun _ peer => peer.linked && peer.self_reconnect_event == ⟨[.ok ()], [0]⟩ &&
      peer.calls == [some .waiting, some .sending]) (by decide +kernel)
  simp only [Bool.and_eq_true, beq_iff_eq] at shown
  obtain ⟨⟨linked, event⟩, calls⟩ := shown
  have follows : Transition.RunWith Peer.step (numberWriter.Follows largest 1) (Peer.new "com.b" true) log peer :=
    run.of_guarded fun _ _ _ _ => follows_of_spares numberWriter_documented unserializable true
  obtain ⟨after, sent, joins⟩ := @unsent_joins Unit peer 1 (by simp [calls]) (by simp [event])
  obtain ⟨final, takes, left⟩ := joins.takes (.ok ()) [] (by rw [event])
  rw [event] at left
  refine ⟨e, log, peer, unserializable, follows, linked, calls,
    not_failsAtOnce numberWriter_documented unserializable true, after, final, ?_, takes, left⟩
  rw [sendAction_unserializable numberWriter_documented unserializable]
  exact sent

end KrossbarLib
