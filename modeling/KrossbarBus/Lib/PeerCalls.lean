import KrossbarBus.Lib.Client
import KrossbarBus.Lib.Event

namespace KrossbarLib

open KrossbarHub (Error)

variable {α : Type}

/-- `ClientHandle::poll`. It signals between the end of `on_reconnected` and `self_reconnect_event.emit`. -/
inductive PeerPhase
  | polling
  | reconnecting
  | signalling
  | disconnected
  deriving DecidableEq

/-- A client handle with the calls on all clones of its client. A call that was dropped is `none`. -/
structure Peer (α : Type) where
  service_name : String
  linked : Bool
  outgoing : Bool
  phase : PeerPhase
  self_reconnect_event : Event Nat (Except Error Unit)
  calls : List (Option (Progress α))

def Peer.new (service_name : String) (outgoing : Bool) : Peer α where
  service_name := service_name
  linked := true
  outgoing := outgoing
  phase := .polling
  self_reconnect_event := .new
  calls := []

inductive PeerAction (α : Type)
  /-- `call`, `message` or `subscribe` on any clone. -/
  | call
  | sent (call : Nat) (data : Option (Except Error α))
  | unsent (call : Nat)
  | reconnectEvent (call : Nat)
  | resolved (call : Nat) (response : Except Error α)
  | drop (call : Nat)
  | makeOutgoing
  | lost
  /-- `self.rpc.poll()` returns `None`. -/
  | noticed
  | reconnected
  | emitted
  | refused (e : Error)

inductive PeerEvent (α : Type)
  | sent (call : Nat) (data : Option (Except Error α))
  | unsent (call : Nat)
  | heard (call : Nat) (outcome : Except Error Unit)
  | resolved (call : Nat) (response : Except Error α)
  | disconnected (service_name : String)
  deriving DecidableEq

def Peer.setCall (peer : Peer α) (call : Nat) (progress : Option (Progress α)) : Peer α :=
  { peer with calls := peer.calls.set call progress }

def Peer.emit (peer : Peer α) (value : Except Error Unit) : Peer α :=
  { peer with self_reconnect_event := { peer.self_reconnect_event with
      channel := peer.self_reconnect_event.channel ++ [value] } }

def Peer.giveUp (peer : Peer α) : Peer α × List (PeerEvent α) :=
  ({ peer.emit (.error .peerDisconnected) with phase := .disconnected }, [.disconnected peer.service_name])

/-- What a call does with the outcome of `hub_reconnect_event.wait()`. -/
def resume : Except Error Unit → Progress α
  | .ok () => .sending
  | .error e => .returned (.error e)

/-- One step of a handle or of a call. A send on a lost connection fails. -/
def Peer.step : Transition.Step (Peer α) (PeerAction α) (PeerEvent α)
  | peer, .call => some ({ peer with calls := peer.calls ++ [some .sending] }, [])
  | peer, .sent call data =>
    match peer.calls[call]? with
    | some (some .sending) =>
      if peer.linked then some (peer.setCall call (some (awaitResponse data)), [.sent call data]) else none
    | _ => none
  | peer, .unsent call =>
    match peer.calls[call]?, peer.self_reconnect_event.step (.wait call) with
    | some (some .sending), some (event, _) =>
      some ({ peer.setCall call (some .waiting) with self_reconnect_event := event }, [.unsent call])
    | _, _ => none
  | peer, .reconnectEvent call =>
    match peer.calls[call]?, peer.self_reconnect_event.step (.receive call) with
    | some (some .waiting), some (event, [completion]) =>
      some ({ peer.setCall call (some (resume completion.value)) with self_reconnect_event := event },
        [.heard call completion.value])
    | _, _ => none
  | peer, .resolved call response =>
    match peer.calls[call]? with
    | some (some .responding) =>
      some (peer.setCall call (some (.returned response)), [.resolved call response])
    | _ => none
  | peer, .drop call =>
    some ({ peer.setCall call none with self_reconnect_event := { peer.self_reconnect_event with
      waiting := peer.self_reconnect_event.waiting.erase call } }, [])
  | peer, .makeOutgoing => some ({ peer with outgoing := true }, [])
  | peer, .lost => some ({ peer with linked := false }, [])
  | peer, .noticed =>
    if peer.phase ≠ .polling ∨ peer.linked then none
    else if peer.outgoing then some ({ peer with phase := .reconnecting }, [])
    else some peer.giveUp
  | peer, .reconnected =>
    if peer.phase ≠ .reconnecting then none else some ({ peer with phase := .signalling, linked := true }, [])
  | peer, .emitted =>
    if peer.phase ≠ .signalling then none else some ({ peer.emit (.ok ()) with phase := .polling }, [])
  | peer, .refused _ => if peer.phase ≠ .reconnecting then none else some peer.giveUp

variable {peer after : Peer α} {action : PeerAction α} {log out : List (PeerEvent α)} {call other : Nat}
  {progress : Progress α}

inductive Peer.Steps (peer : Peer α) : PeerAction α → Peer α → List (PeerEvent α) → Prop
  | called : Steps peer .call { peer with calls := peer.calls ++ [some .sending] } []
  | sent (call : Nat) (data : Option (Except Error α)) (sending : peer.calls[call]? = some (some .sending))
      (linked : peer.linked = true) :
      Steps peer (.sent call data) (peer.setCall call (some (awaitResponse data))) [.sent call data]
  | unsent (call : Nat) (sending : peer.calls[call]? = some (some .sending))
      (fresh : call ∉ peer.self_reconnect_event.waiting) :
      Steps peer (.unsent call) { peer.setCall call (some .waiting) with
        self_reconnect_event := { peer.self_reconnect_event with
          waiting := peer.self_reconnect_event.waiting ++ [call] } } [.unsent call]
  | heard (call : Nat) (outcome : Except Error Unit) (rest : List (Except Error Unit))
      (waiting : peer.calls[call]? = some (some .waiting))
      (channel : peer.self_reconnect_event.channel = outcome :: rest) :
      Steps peer (.reconnectEvent call) { peer.setCall call (some (resume outcome)) with
        self_reconnect_event := ⟨rest, peer.self_reconnect_event.waiting.erase call⟩ } [.heard call outcome]
  | resolved (call : Nat) (response : Except Error α) (responding : peer.calls[call]? = some (some .responding)) :
      Steps peer (.resolved call response) (peer.setCall call (some (.returned response))) [.resolved call response]
  | dropped (call : Nat) :
      Steps peer (.drop call) { peer.setCall call none with
        self_reconnect_event := { peer.self_reconnect_event with
          waiting := peer.self_reconnect_event.waiting.erase call } } []
  | outgoing : Steps peer .makeOutgoing { peer with outgoing := true } []
  | lost : Steps peer .lost { peer with linked := false } []
  | reconnects (polling : peer.phase = .polling) (unlinked : peer.linked = false) :
      Steps peer .noticed { peer with phase := .reconnecting } []
  | drops (polling : peer.phase = .polling) (unlinked : peer.linked = false) :
      Steps peer .noticed peer.giveUp.1 [.disconnected peer.service_name]
  | reconnected (reconnecting : peer.phase = .reconnecting) :
      Steps peer .reconnected { peer with phase := .signalling, linked := true } []
  | emitted (signalling : peer.phase = .signalling) :
      Steps peer .emitted { peer.emit (.ok ()) with phase := .polling } []
  | refused (e : Error) (reconnecting : peer.phase = .reconnecting) :
      Steps peer (.refused e) peer.giveUp.1 [.disconnected peer.service_name]

theorem Peer.step_cases (taken : Peer.step peer action = some (after, out)) : peer.Steps action after out := by
  cases action with
  | call =>
    cases taken
    exact .called
  | sent call data =>
    simp only [Peer.step] at taken
    split at taken
    · rename_i sending
      split at taken
      · rename_i linked
        cases taken
        exact .sent call data sending linked
      · cases taken
    · cases taken
  | unsent call =>
    simp only [Peer.step, Event.step] at taken
    split at taken
    · rename_i sending joined
      split at joined
      · cases joined
      · rename_i fresh
        cases joined
        cases taken
        exact .unsent call sending fresh
    · cases taken
  | reconnectEvent call =>
    simp only [Peer.step, Event.step] at taken
    split at taken
    · rename_i event completion waiting received
      split at received
      · cases received
      · rename_i outcome rest channel
        split at received
        · cases received
          cases taken
          exact .heard call outcome rest waiting channel
        · cases received
    · cases taken
  | resolved call response =>
    simp only [Peer.step] at taken
    split at taken
    · rename_i responding
      cases taken
      exact .resolved call response responding
    · cases taken
  | drop call =>
    cases taken
    exact .dropped call
  | makeOutgoing =>
    cases taken
    exact .outgoing
  | lost =>
    cases taken
    exact .lost
  | noticed =>
    simp only [Peer.step] at taken
    split at taken
    · cases taken
    · rename_i quiet
      simp only [not_or, not_not, Bool.not_eq_true] at quiet
      split at taken
      · cases taken
        exact .reconnects quiet.1 quiet.2
      · cases taken
        exact .drops quiet.1 quiet.2
  | reconnected =>
    simp only [Peer.step] at taken
    split at taken
    · cases taken
    · rename_i reconnecting
      cases taken
      exact .reconnected (not_not.mp reconnecting)
  | emitted =>
    simp only [Peer.step] at taken
    split at taken
    · cases taken
    · rename_i signalling
      cases taken
      exact .emitted (not_not.mp signalling)
  | refused e =>
    simp only [Peer.step] at taken
    split at taken
    · cases taken
    · rename_i reconnecting
      cases taken
      exact .refused e (not_not.mp reconnecting)

theorem set_calls {calls : List (Option (Progress α))} {was : Option (Progress α)} (there : calls[call]? = some was)
    (next : Option (Progress α)) (other : Nat) :
    (calls.set call next)[other]? = if other = call then some next else calls[other]? := by
  obtain ⟨bound, _⟩ := List.getElem?_eq_some_iff.mp there
  rw [List.getElem?_set]
  by_cases same : other = call
  · subst same
    simp [bound]
  · rw [if_neg (Ne.symm same), if_neg same]

def sendsOf (call : Nat) (log : List (PeerEvent α)) : List (Except Unit (Option (Except Error α))) :=
  log.filterMap fun
    | .sent other data => if other = call then some (.ok data) else none
    | .unsent other => if other = call then some (.error ()) else none
    | _ => none

def outcomesOf (call : Nat) (log : List (PeerEvent α)) : List (Except Error Unit) :=
  log.filterMap fun
    | .heard other outcome => if other = call then some outcome else none
    | _ => none

theorem mem_sendsOf {outcome : Except Unit (Option (Except Error α))} :
    outcome ∈ sendsOf call log ↔ match outcome with
      | .ok data => .sent call data ∈ log
      | .error _ => .unsent call ∈ log := by
  constructor
  · intro member
    obtain ⟨event, there, shown⟩ := List.mem_filterMap.mp member
    cases event with
    | sent other data =>
      obtain ⟨rfl, same⟩ := Option.ite_none_right_eq_some.mp shown
      cases same
      exact there
    | unsent other =>
      obtain ⟨rfl, same⟩ := Option.ite_none_right_eq_some.mp shown
      cases same
      exact there
    | _ => cases shown
  · intro there
    cases outcome with
    | ok data => exact List.mem_filterMap.mpr ⟨_, there, if_pos rfl⟩
    | error _ => exact List.mem_filterMap.mpr ⟨_, there, if_pos rfl⟩

theorem mem_outcomesOf {outcome : Except Error Unit} : outcome ∈ outcomesOf call log ↔ .heard call outcome ∈ log := by
  constructor
  · intro member
    obtain ⟨event, there, shown⟩ := List.mem_filterMap.mp member
    cases event with
    | heard other heard =>
      obtain ⟨rfl, same⟩ := Option.ite_none_right_eq_some.mp shown
      cases same
      exact there
    | _ => cases shown
  · intro there
    exact List.mem_filterMap.mpr ⟨_, there, if_pos rfl⟩

theorem retry_retried {ε ρ δ : Type} (request : ρ) (respond : δ → Progress α) (failure : ε) (retries : Nat)
    (sends : List (Except ε δ)) (reconnects : List (Except Error Unit)) :
    (retry request respond (List.replicate retries (.error failure) ++ sends)
      (List.replicate retries (.ok ()) ++ reconnects)).2 = (retry request respond sends reconnects).2 := by
  induction retries with
  | zero => rfl
  | succ retries ih => simpa [List.replicate_succ, retry] using ih

/-- Where a call is, from the outcomes that the log has of it. -/
inductive Traced (log : List (PeerEvent α)) (call : Nat) : Progress α → Prop
  | sending (retries : Nat) (sends : sendsOf call log = List.replicate retries (.error ()))
      (outcomes : outcomesOf call log = List.replicate retries (.ok ())) : Traced log call .sending
  | waiting (retries : Nat) (sends : sendsOf call log = List.replicate retries (.error ()) ++ [.error ()])
      (outcomes : outcomesOf call log = List.replicate retries (.ok ())) : Traced log call .waiting
  | ended (progress : Progress α) (settled : progress = .responding ∨ ∃ result, progress = .returned result)
      (same : (retry () awaitResponse (sendsOf call log) (outcomesOf call log)).2 = progress) :
      Traced log call progress
  | resolved (response : Except Error α)
      (same : (retry () awaitResponse (sendsOf call log) (outcomesOf call log)).2 = .responding)
      (arrived : .resolved call response ∈ log) : Traced log call (.returned response)

@[simp] theorem sendsOf_append (more : List (PeerEvent α)) :
    sendsOf call (log ++ more) = sendsOf call log ++ sendsOf call more := List.filterMap_append

@[simp] theorem outcomesOf_append (more : List (PeerEvent α)) :
    outcomesOf call (log ++ more) = outcomesOf call log ++ outcomesOf call more := List.filterMap_append

@[simp] theorem sendsOf_sent (data : Option (Except Error α)) : sendsOf call [.sent call data] = [.ok data] := by
  simp [sendsOf]

@[simp] theorem sendsOf_unsent : sendsOf call [(.unsent call : PeerEvent α)] = [.error ()] := by simp [sendsOf]

theorem sendsOf_sent_ne (different : other ≠ call) (data : Option (Except Error α)) :
    sendsOf call [.sent other data] = [] := by simp [sendsOf, different]

theorem sendsOf_unsent_ne (different : other ≠ call) : sendsOf call [(.unsent other : PeerEvent α)] = [] := by
  simp [sendsOf, different]

theorem outcomesOf_heard_ne (different : other ≠ call) (outcome : Except Error Unit) :
    outcomesOf call [(.heard other outcome : PeerEvent α)] = [] := by simp [outcomesOf, different]

@[simp] theorem sendsOf_heard (outcome : Except Error Unit) :
    sendsOf call [(.heard other outcome : PeerEvent α)] = [] := rfl

@[simp] theorem sendsOf_resolved (response : Except Error α) : sendsOf call [.resolved other response] = [] := rfl

@[simp] theorem outcomesOf_sent (data : Option (Except Error α)) : outcomesOf call [.sent other data] = [] := rfl

@[simp] theorem outcomesOf_unsent : outcomesOf call [(.unsent other : PeerEvent α)] = [] := rfl

@[simp] theorem outcomesOf_heard (outcome : Except Error Unit) :
    outcomesOf call [(.heard call outcome : PeerEvent α)] = [outcome] := by simp [outcomesOf]

@[simp] theorem outcomesOf_resolved (response : Except Error α) :
    outcomesOf call [.resolved other response] = [] := rfl

theorem Traced.more (traced : Traced log call progress) (sends : sendsOf call out = [])
    (outcomes : outcomesOf call out = []) : Traced (log ++ out) call progress := by
  cases traced with
  | sending retries sent heard => exact .sending retries (by simp [sends, sent]) (by simp [outcomes, heard])
  | waiting retries sent heard => exact .waiting retries (by simp [sends, sent]) (by simp [outcomes, heard])
  | ended _ settled same => exact .ended progress settled (by simpa [sends, outcomes] using same)
  | resolved response same arrived =>
    exact .resolved response (by simpa [sends, outcomes] using same) (List.mem_append_left _ arrived)

theorem Traced.tried (traced : Traced log call .sending) : ∃ retries,
    sendsOf call log = List.replicate retries (.error ()) ∧
      outcomesOf call log = List.replicate retries (.ok ()) := by
  cases traced with
  | sending retries sends outcomes => exact ⟨retries, sends, outcomes⟩
  | ended _ settled _ => simp at settled

theorem Traced.waited (traced : Traced log call .waiting) : ∃ retries,
    sendsOf call log = List.replicate retries (.error ()) ++ [.error ()] ∧
      outcomesOf call log = List.replicate retries (.ok ()) := by
  cases traced with
  | waiting retries sends outcomes => exact ⟨retries, sends, outcomes⟩
  | ended _ settled _ => simp at settled

theorem Traced.sent (traced : Traced log call .sending) (data : Option (Except Error α)) :
    Traced (log ++ [.sent call data]) call (awaitResponse data) := by
  obtain ⟨retries, sends, outcomes⟩ := traced.tried
  refine .ended _ (by cases data <;> simp [awaitResponse]) ?_
  have last := retry_retried () awaitResponse () retries [.ok data] []
  simp only [List.append_nil] at last
  simpa [sends, outcomes, retry] using last

theorem Traced.unsent (traced : Traced log call .sending) : Traced (log ++ [.unsent call]) call .waiting := by
  obtain ⟨retries, sends, outcomes⟩ := traced.tried
  exact .waiting retries (by simp [sends]) (by simp [outcomes])

theorem Traced.heard (traced : Traced log call .waiting) (outcome : Except Error Unit) :
    Traced (log ++ [.heard call outcome]) call (resume outcome) := by
  obtain ⟨retries, sends, outcomes⟩ := traced.waited
  cases outcome with
  | ok value =>
    refine .sending (retries + 1) ?_ ?_
    · simp [sends, List.replicate_succ']
    · simp [outcomes, List.replicate_succ']
  | error e =>
    refine .ended _ (.inr ⟨.error e, rfl⟩) ?_
    have last := retry_retried () (awaitResponse (α := α)) () retries [.error ()] [.error e]
    simpa [sends, outcomes, retry, resume] using last

theorem Traced.answered (traced : Traced log call .responding) (response : Except Error α) :
    Traced (log ++ [.resolved call response]) call (.returned response) := by
  cases traced with
  | ended _ _ same => exact .resolved response (by simpa using same) (by simp)

theorem traced_set {was : Option (Progress α)} {next : Progress α}
    (traced : ∀ call progress, peer.calls[call]? = some (some progress) → Traced log call progress)
    (there : peer.calls[call]? = some was) (now : Traced (log ++ out) call next)
    (sends : ∀ other, other ≠ call → sendsOf other out = [])
    (outcomes : ∀ other, other ≠ call → outcomesOf other out = []) (other : Nat) (progress : Progress α)
    (found : (peer.calls.set call (some next))[other]? = some (some progress)) :
    Traced (log ++ out) other progress := by
  rw [set_calls there] at found
  split at found
  · rename_i same
    cases found
    rw [same]
    exact now
  · rename_i different
    exact (traced other progress found).more (sends other different) (outcomes other different)

theorem Peer.Steps.traced (steps : peer.Steps action after out)
    (traced : ∀ call progress, peer.calls[call]? = some (some progress) → Traced log call progress)
    (unused : ∀ call, peer.calls.length ≤ call → sendsOf call log = [] ∧ outcomesOf call log = []) :
    ∀ call progress, after.calls[call]? = some (some progress) → Traced (log ++ out) call progress := by
  have still : ∀ {final : Peer α}, final.calls = peer.calls → (∀ call, sendsOf call out = []) →
      (∀ call, outcomesOf call out = []) → ∀ call progress, final.calls[call]? = some (some progress) →
      Traced (log ++ out) call progress := by
    intro final calls sends outcomes call progress there
    rw [calls] at there
    exact (traced call progress there).more (sends call) (outcomes call)
  cases steps with
  | called =>
    intro call progress there
    rw [List.append_nil]
    change (peer.calls ++ [some .sending])[call]? = some (some progress) at there
    rw [List.getElem?_append] at there
    split at there
    · exact traced call progress there
    · rename_i beyond
      have fresh := unused call (Nat.le_of_not_lt beyond)
      have first := List.mem_of_getElem? there
      simp only [List.mem_singleton, Option.some.injEq] at first
      rw [first]
      exact .sending 0 fresh.1 fresh.2
  | sent call data sending linked =>
    apply traced_set traced sending
    · exact (traced call _ sending).sent data
    · exact fun other different => sendsOf_sent_ne (Ne.symm different) data
    · exact fun other _ => outcomesOf_sent data
  | unsent call sending fresh =>
    apply traced_set traced sending
    · exact (traced call _ sending).unsent
    · exact fun other different => sendsOf_unsent_ne (Ne.symm different)
    · exact fun other _ => outcomesOf_unsent
  | heard call outcome rest waiting channel =>
    apply traced_set traced waiting
    · exact (traced call _ waiting).heard outcome
    · exact fun other _ => sendsOf_heard outcome
    · exact fun other different => outcomesOf_heard_ne (Ne.symm different) outcome
  | resolved call response responding =>
    apply traced_set traced responding
    · exact (traced call _ responding).answered response
    · exact fun other _ => sendsOf_resolved response
    · exact fun other _ => outcomesOf_resolved response
  | dropped call =>
    intro other progress there
    rw [List.append_nil]
    change (peer.calls.set call none)[other]? = some (some progress) at there
    rw [List.getElem?_set] at there
    split at there
    · split at there <;> simp at there
    · exact traced other progress there
  | _ => exact still rfl (by simp [sendsOf]) (by simp [outcomesOf])

theorem Peer.Steps.unmentioned (steps : peer.Steps action after out) :
    peer.calls.length ≤ after.calls.length ∧
      ∀ call, peer.calls.length ≤ call → sendsOf call out = [] ∧ outcomesOf call out = [] := by
  have kept : ∀ (index : Nat) (next : Option (Progress α)),
      peer.calls.length ≤ (peer.calls.set index next).length := by simp
  have within : ∀ {index call : Nat} {was : Option (Progress α)}, peer.calls[index]? = some was →
      peer.calls.length ≤ call → index ≠ call := by
    rintro index call was there beyond rfl
    rw [List.getElem?_eq_none beyond] at there
    cases there
  cases steps with
  | called => exact ⟨by simp, fun call _ => ⟨rfl, rfl⟩⟩
  | sent index data sending _ =>
    exact ⟨kept _ _, fun call beyond => ⟨sendsOf_sent_ne (within sending beyond) data, outcomesOf_sent data⟩⟩
  | unsent index sending _ =>
    exact ⟨kept _ _, fun call beyond => ⟨sendsOf_unsent_ne (within sending beyond), outcomesOf_unsent⟩⟩
  | heard index outcome _ waiting _ =>
    exact ⟨kept _ _, fun call beyond => ⟨sendsOf_heard outcome, outcomesOf_heard_ne (within waiting beyond) outcome⟩⟩
  | resolved index response _ =>
    exact ⟨kept _ _, fun call _ => ⟨sendsOf_resolved response, outcomesOf_resolved response⟩⟩
  | dropped index => exact ⟨kept _ _, fun call _ => ⟨rfl, rfl⟩⟩
  | _ => exact ⟨Nat.le_refl _, fun call _ => ⟨rfl, rfl⟩⟩

theorem retry_progress {ε ρ δ : Type} (request : ρ) (respond : δ → Progress α) (sends : List (Except ε δ))
    (reconnects : List (Except Error Unit)) :
    (retry request respond sends reconnects).2 = (retry () respond sends reconnects).2 := by
  fun_induction retry request respond sends reconnects with
  | case5 failure sends reconnects attempts progress same ih =>
    rw [same] at ih
    exact ih
  | _ => rfl

/-- The calls of a handle's clients are runs of `Client.call`. -/
theorem calls_retry {service_name : String} {outgoing : Bool} {P : Type} (endpoint : String) (params : P)
    (run : Transition.Run Peer.step (Peer.new service_name outgoing) log peer)
    (there : peer.calls[call]? = some (some progress)) :
    (Client.call endpoint params (sendsOf call log) (outcomesOf call log)).2 = progress ∨
    ∃ response, progress = .returned response ∧ .resolved call response ∈ log ∧
      (Client.call endpoint params (sendsOf call log) (outcomesOf call log)).2 = .responding := by
  have kept : (∀ call progress, peer.calls[call]? = some (some progress) → Traced log call progress) ∧
      ∀ call, peer.calls.length ≤ call → sendsOf call log = [] ∧ outcomesOf call log = [] := by
    refine run.invariant (I := fun log peer =>
      (∀ call progress, peer.calls[call]? = some (some progress) → Traced log call progress) ∧
      ∀ call, peer.calls.length ≤ call → sendsOf call log = [] ∧ outcomesOf call log = []) ?_ ?_
    · exact ⟨by simp [Peer.new], fun _ _ => ⟨rfl, rfl⟩⟩
    · intro log peer action after out _ ⟨traced, unused⟩ _ taken
      have steps := Peer.step_cases taken
      obtain ⟨longer, unmentioned⟩ := steps.unmentioned
      refine ⟨steps.traced traced unused, fun call beyond => ?_⟩
      have before := unused call (Nat.le_trans longer beyond)
      have now := unmentioned call (Nat.le_trans longer beyond)
      rw [sendsOf_append, outcomesOf_append, before.1, before.2, now.1, now.2]
      exact ⟨rfl, rfl⟩
  unfold Client.call
  rw [retry_progress]
  cases kept.1 call progress there with
  | sending retries sends outcomes =>
    have tried := retry_retried () awaitResponse () retries ([] : List (Except Unit (Option (Except Error α)))) []
    simp only [List.append_nil] at tried
    exact .inl (by rw [sends, outcomes, tried]; rfl)
  | waiting retries sends outcomes =>
    have tried := retry_retried () awaitResponse () retries
      ([.error ()] : List (Except Unit (Option (Except Error α)))) []
    simp only [List.append_nil] at tried
    exact .inl (by rw [sends, outcomes, tried]; rfl)
  | ended _ _ same => exact .inl same
  | resolved response same arrived => exact .inr ⟨response, rfl, arrived, same⟩

end KrossbarLib
