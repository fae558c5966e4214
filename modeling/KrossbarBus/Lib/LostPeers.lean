import KrossbarBus.Lib.PeerCalls
import KrossbarBus.Transition.Inevitability

namespace KrossbarLib

open KrossbarHub (Error)
open Transition (Run RunWith Inevitably)

variable {α : Type} {peer after : Peer α} {action : PeerAction α} {log out : List (PeerEvent α)} {call other : Nat}
  {progress : Progress α}

def failed : Except Error Unit → Bool
  | .error _ => true
  | .ok _ => false

def Progress.unfinished : Progress α → Bool
  | .sending | .waiting => true
  | _ => false

/-- The calls that have yet to return, but for those whose request was sent. -/
def Peer.unfinished (peer : Peer α) : Nat := peer.calls.countP fun call => call.any Progress.unfinished

def Peer.errors (peer : Peer α) : Nat := peer.self_reconnect_event.channel.countP failed

def Peer.Unfinished (peer : Peer α) (call : Nat) : Prop :=
  ∃ progress, peer.calls[call]? = some (some progress) ∧ progress.unfinished = true

/-- The calls in `hub_reconnect_event.wait()`, and what the handle may have emitted to them. -/
structure Peer.Settled (peer : Peer α) : Prop where
  waits : ∀ call, call ∈ peer.self_reconnect_event.waiting ↔ peer.calls[call]? = some (some .waiting)
  nodup : peer.self_reconnect_event.waiting.Nodup
  outcomes : ∀ e, .error e ∈ peer.self_reconnect_event.channel → e = .peerDisconnected
  unlinked : peer.phase = .reconnecting ∨ peer.phase = .disconnected → peer.linked = false
  quiet : peer.phase ≠ .disconnected → peer.errors = 0
  single : peer.errors ≤ 1

/-- The call moves to something else than a wait. -/
theorem waits_set {waiting : List Nat} {was next : Option (Progress α)}
    (waits : ∀ call, call ∈ waiting ↔ peer.calls[call]? = some (some .waiting)) (there : peer.calls[call]? = some was)
    (before : was ≠ some .waiting) (now : next ≠ some .waiting) (other : Nat) :
    other ∈ waiting ↔ (peer.calls.set call next)[other]? = some (some .waiting) := by
  rw [set_calls there, waits]
  split
  · rename_i same
    subst same
    rw [there]
    simp [before, now]
  · rfl

theorem waits_erase {waiting : List Nat} {next : Option (Progress α)} (nodup : waiting.Nodup)
    (waits : ∀ call, call ∈ waiting ↔ peer.calls[call]? = some (some .waiting)) (now : next ≠ some .waiting)
    (other : Nat) :
    other ∈ waiting.erase call ↔ (peer.calls.set call next)[other]? = some (some .waiting) := by
  rw [nodup.mem_erase_iff, waits, List.getElem?_set]
  by_cases same : other = call
  · subst same
    simp [now]
  · simp [same, Ne.symm same]

theorem giveUp_settled (settled : peer.Settled) (lively : peer.phase ≠ .disconnected)
    (unlinked : peer.linked = false) : peer.giveUp.1.Settled where
  waits := settled.waits
  nodup := settled.nodup
  outcomes := by
    intro e member
    rcases List.mem_append.mp member with old | new
    · exact settled.outcomes e old
    · cases List.mem_singleton.mp new
      rfl
  unlinked := fun _ => unlinked
  quiet := fun gone => absurd rfl gone
  single := by
    have none := settled.quiet lively
    unfold Peer.errors at none
    simp [Peer.errors, Peer.giveUp, Peer.emit, none, failed]

theorem Peer.Steps.settled (steps : peer.Steps action after out) (settled : peer.Settled) : after.Settled := by
  cases steps with
  | called =>
    refine ⟨fun call => ?_, settled.nodup, settled.outcomes, settled.unlinked, settled.quiet, settled.single⟩
    show call ∈ peer.self_reconnect_event.waiting ↔ (peer.calls ++ [some .sending])[call]? = some (some .waiting)
    rw [settled.waits, List.getElem?_append]
    split
    · rfl
    · rename_i beyond
      simp [List.getElem?_singleton, Nat.le_of_not_lt beyond]
  | sent call data sending linked =>
    exact ⟨waits_set settled.waits sending (by simp) (by cases data <;> simp [awaitResponse]), settled.nodup,
      settled.outcomes, settled.unlinked, settled.quiet, settled.single⟩
  | unsent call sending fresh =>
    refine ⟨fun other => ?_, ?_, settled.outcomes, settled.unlinked, settled.quiet, settled.single⟩
    · show other ∈ peer.self_reconnect_event.waiting ++ [call] ↔ (peer.calls.set call _)[other]? = _
      rw [set_calls sending, List.mem_append, List.mem_singleton, settled.waits]
      split
      · rename_i same
        simp [same]
      · rename_i different
        simp [different]
    · show (peer.self_reconnect_event.waiting ++ [call]).Nodup
      rw [List.nodup_append_comm]
      exact List.nodup_cons.mpr ⟨fresh, settled.nodup⟩
  | heard call outcome rest waiting channel =>
    have kept : ∀ value ∈ rest, value ∈ peer.self_reconnect_event.channel := by
      intro value member
      rw [channel]
      exact List.mem_cons_of_mem outcome member
    have fewer : rest.countP failed ≤ peer.errors := by
      rw [Peer.errors, channel, List.countP_cons]
      exact Nat.le_add_right _ _
    have resumed : some (resume outcome : Progress α) ≠ some .waiting := by cases outcome <;> simp [resume]
    refine ⟨waits_erase settled.nodup settled.waits resumed, settled.nodup.erase call, ?_, settled.unlinked, ?_, ?_⟩
    · exact fun e member => settled.outcomes e (kept _ member)
    · exact fun lively => Nat.le_zero.mp (Nat.le_trans fewer (Nat.le_of_eq (settled.quiet lively)))
    · exact Nat.le_trans fewer settled.single
  | resolved call response responding =>
    exact ⟨waits_set settled.waits responding (by simp) (by simp), settled.nodup,
      settled.outcomes, settled.unlinked, settled.quiet, settled.single⟩
  | dropped call =>
    exact ⟨waits_erase settled.nodup settled.waits (by simp), settled.nodup.erase call,
      settled.outcomes, settled.unlinked, settled.quiet, settled.single⟩
  | outgoing =>
    exact ⟨settled.waits, settled.nodup, settled.outcomes, settled.unlinked, settled.quiet, settled.single⟩
  | lost =>
    exact ⟨settled.waits, settled.nodup, settled.outcomes, fun _ => rfl, settled.quiet, settled.single⟩
  | reconnects polling unlinked =>
    have quiet := settled.quiet (by simp [polling])
    exact ⟨settled.waits, settled.nodup, settled.outcomes, fun _ => unlinked, fun _ => quiet, settled.single⟩
  | drops polling unlinked => exact giveUp_settled settled (by simp [polling]) unlinked
  | reconnected reconnecting =>
    have quiet := settled.quiet (by simp [reconnecting])
    exact ⟨settled.waits, settled.nodup, settled.outcomes, by simp, fun _ => quiet, settled.single⟩
  | emitted signalling =>
    have quiet := settled.quiet (by simp [signalling])
    have same : (peer.emit (.ok ())).errors = 0 := by
      unfold Peer.errors at quiet
      simp [Peer.errors, Peer.emit, quiet, failed]
    have single : (peer.emit (.ok ())).errors ≤ 1 := by omega
    refine ⟨settled.waits, settled.nodup, ?_, by simp, fun _ => same, single⟩
    intro e member
    rcases List.mem_append.mp member with old | new
    · exact settled.outcomes e old
    · cases List.mem_singleton.mp new
  | refused e reconnecting =>
    exact giveUp_settled settled (by simp [reconnecting]) (settled.unlinked (.inl reconnecting))

/-- The steps of the calls in progress, which their callers poll. -/
def Peer.Proceeds (_ : Peer α) : PeerAction α → Prop
  | .sent .. | .unsent _ | .reconnectEvent _ => True
  | _ => False

/-- Every call that was unfinished has failed. -/
def Peer.Fails (origin later : Peer α) : Prop :=
  ∀ call, origin.Unfinished call → later.calls[call]? = some (some (.returned (.error .peerDisconnected)))

def Progress.isSending : Progress α → Bool
  | .sending => true
  | _ => false

/-- Every send and every outcome that is received uses it up. -/
def Peer.work (peer : Peer α) : Nat :=
  2 * peer.self_reconnect_event.channel.length + peer.calls.countP fun call => call.any Progress.isSending

theorem countP_set_call {calls : List (Option (Progress α))} {was : Option (Progress α)}
    (there : calls[call]? = some was) (next : Option (Progress α)) (p : Option (Progress α) → Bool) :
    (calls.set call next).countP p + (if p was then 1 else 0) = calls.countP p + if p next then 1 else 0 := by
  obtain ⟨bound, rfl⟩ := List.getElem?_eq_some_iff.mp there
  have counted : (if p calls[call] then 1 else 0) ≤ calls.countP p :=
    List.boole_getElem_le_countP bound
  rw [List.countP_set bound]
  omega

/-- What the calls of a lost peer have done since `origin`. -/
structure Going (origin peer : Peer α) : Prop where
  settled : peer.Settled
  gone : peer.phase = .disconnected
  conserved : peer.unfinished + origin.errors = origin.unfinished + peer.errors
  old : ∀ call, peer.Unfinished call → origin.Unfinished call
  ended : ∀ call, origin.Unfinished call → peer.Unfinished call ∨
    peer.calls[call]? = some (some (.returned (.error .peerDisconnected)))

variable {origin : Peer α}

theorem Going.start (settled : origin.Settled) (gone : origin.phase = .disconnected) : Going origin origin :=
  ⟨settled, gone, rfl, fun _ unfinished => unfinished, fun _ unfinished => .inl unfinished⟩

theorem Going.set_old (going : Going origin peer) (next : Progress α)
    (there : peer.calls[call]? = some (some progress)) (unfinished : progress.unfinished = true)
    (calls : after.calls = peer.calls.set call (some next)) (other : Nat) (left : after.Unfinished other) :
    origin.Unfinished other := by
  obtain ⟨now, found, pending⟩ := left
  rw [calls, set_calls there] at found
  split at found
  · rename_i same
    rw [same]
    exact going.old call ⟨progress, there, unfinished⟩
  · exact going.old other ⟨now, found, pending⟩

theorem Going.set_ended (going : Going origin peer) (next : Progress α)
    (there : peer.calls[call]? = some (some progress)) (calls : after.calls = peer.calls.set call (some next))
    (outcome : next.unfinished = true ∨ next = .returned (.error .peerDisconnected)) (other : Nat)
    (before : origin.Unfinished other) :
    after.Unfinished other ∨ after.calls[other]? = some (some (.returned (.error .peerDisconnected))) := by
  by_cases same : other = call
  · subst same
    rcases outcome with pending | rfl
    · exact .inl ⟨next, by rw [calls, set_calls there, if_pos rfl], pending⟩
    · exact .inr (by rw [calls, set_calls there, if_pos rfl])
  · rcases going.ended other before with ⟨now, found, pending⟩ | failed
    · exact .inl ⟨now, by rw [calls, set_calls there, if_neg same, found], pending⟩
    · exact .inr (by rw [calls, set_calls there, if_neg same, failed])

theorem Going.preserved (going : Going origin peer) (proceeds : peer.Proceeds action)
    (taken : Peer.step peer action = some (after, out)) : Going origin after ∧ after.work < peer.work := by
  have steps := Peer.step_cases taken
  have settled := steps.settled going.settled
  have conserved := going.conserved
  cases steps with
  | sent call data sending linked =>
    rw [going.settled.unlinked (.inr going.gone)] at linked
    cases linked
  | unsent call sending fresh =>
    have unfinished : (peer.calls.set call (some .waiting)).countP _ + 1 = peer.unfinished + 1 :=
      countP_set_call sending (some .waiting) fun call => call.any Progress.unfinished
    have sendings : (peer.calls.set call (some .waiting)).countP _ + 1 = _ + 0 :=
      countP_set_call sending (some .waiting) fun call => call.any Progress.isSending
    refine ⟨⟨settled, going.gone, ?_, going.set_old .waiting sending rfl rfl,
      going.set_ended .waiting sending rfl (.inl rfl)⟩, ?_⟩
    · show (peer.calls.set call (some .waiting)).countP _ + origin.errors = origin.unfinished + peer.errors
      omega
    · show 2 * peer.self_reconnect_event.channel.length + (peer.calls.set call (some .waiting)).countP _ <
        2 * peer.self_reconnect_event.channel.length + _
      omega
  | heard call outcome rest waiting channel =>
    have errors : peer.errors = rest.countP failed + if failed outcome then 1 else 0 := by
      rw [Peer.errors, channel, List.countP_cons]
    have length : peer.self_reconnect_event.channel.length = rest.length + 1 := by rw [channel, List.length_cons]
    have work : peer.work = 2 * (rest.length + 1) + peer.calls.countP fun call => call.any Progress.isSending := by
      rw [Peer.work, length]
    cases outcome with
    | ok value =>
      have unfinished : (peer.calls.set call (some .sending)).countP _ + 1 = peer.unfinished + 1 :=
        countP_set_call waiting (some .sending) fun call => call.any Progress.unfinished
      have sendings : (peer.calls.set call (some .sending)).countP _ + 0 = _ + 1 :=
        countP_set_call waiting (some .sending) fun call => call.any Progress.isSending
      refine ⟨⟨settled, going.gone, ?_, going.set_old .sending waiting rfl rfl,
        going.set_ended .sending waiting rfl (.inl rfl)⟩, ?_⟩
      · show (peer.calls.set call (some .sending)).countP _ + origin.errors = origin.unfinished + rest.countP _
        simp only [failed, Bool.false_eq_true, if_false] at errors
        omega
      · show 2 * rest.length + (peer.calls.set call (some .sending)).countP _ < peer.work
        omega
    | error e =>
      obtain rfl := going.settled.outcomes e (by rw [channel]; exact List.mem_cons_self)
      have unfinished : (peer.calls.set call (some (.returned (.error .peerDisconnected)))).countP _ + 1 =
          peer.unfinished + 0 :=
        countP_set_call waiting (some (.returned (.error .peerDisconnected))) fun call =>
          call.any Progress.unfinished
      have sendings : (peer.calls.set call (some (.returned (.error .peerDisconnected)))).countP _ + 0 = _ + 0 :=
        countP_set_call waiting (some (.returned (.error .peerDisconnected))) fun call =>
          call.any Progress.isSending
      refine ⟨⟨settled, going.gone, ?_, going.set_old _ waiting rfl rfl,
        going.set_ended _ waiting rfl (.inr rfl)⟩, ?_⟩
      · show (peer.calls.set call (some (.returned (.error .peerDisconnected)))).countP _ + origin.errors =
          origin.unfinished + rest.countP _
        simp only [failed, if_true] at errors
        omega
      · show 2 * rest.length + (peer.calls.set call (some (.returned (.error .peerDisconnected)))).countP _ <
          peer.work
        omega
  | _ => cases proceeds

theorem Peer.Unfinished.counted (unfinished : peer.Unfinished call) : 0 < peer.unfinished := by
  obtain ⟨progress, there, pending⟩ := unfinished
  rw [Peer.unfinished, List.countP_pos_iff]
  exact ⟨some progress, List.mem_of_getElem? there, pending⟩

theorem Going.enabled (going : Going origin peer) (enough : peer.unfinished ≤ peer.errors) :
    origin.Fails peer ∨ ∃ action after out, peer.Proceeds action ∧ Peer.step peer action = some (after, out) := by
  by_cases left : ∃ call, peer.Unfinished call
  · right
    obtain ⟨call, left⟩ := left
    have errors : 0 < peer.errors := Nat.lt_of_lt_of_le left.counted enough
    obtain ⟨progress, there, pending⟩ := left
    cases progress with
    | sending =>
      have fresh : call ∉ peer.self_reconnect_event.waiting := by
        rw [going.settled.waits, there]
        simp
      exact ⟨.unsent call, _, _, trivial, by simp only [Peer.step, Event.step, there, if_neg fresh]; rfl⟩
    | waiting =>
      have member := (going.settled.waits call).mpr there
      obtain ⟨value, queued, _⟩ := List.countP_pos_iff.mp errors
      obtain ⟨outcome, rest, channel⟩ := List.exists_cons_of_ne_nil (List.ne_nil_of_mem queued)
      exact ⟨.reconnectEvent call, _, _, trivial, by
        simp only [Peer.step, Event.step, there, channel, if_pos member]; rfl⟩
    | responding => cases pending
    | returned result => cases pending
  · left
    intro call unfinished
    exact (going.ended call unfinished).resolve_left fun pending => left ⟨call, pending⟩

theorem Going.none_left (going : Going origin peer) (fails : origin.Fails peer) : peer.unfinished = 0 := by
  rw [Peer.unfinished, List.countP_eq_zero]
  intro call member unfinished
  obtain ⟨number, there⟩ := List.mem_iff_getElem?.mp member
  obtain ⟨progress, rfl, pending⟩ := (Option.any_eq_true ..).mp unfinished
  rw [fails number (going.old number ⟨progress, there, pending⟩)] at there
  cases there
  cases pending

theorem Peer.Settled.initial (service_name : String) (outgoing : Bool) :
    (Peer.new service_name outgoing : Peer α).Settled where
  waits := by simp [Peer.new, Event.new]
  nodup := List.nodup_nil
  outcomes := by simp [Peer.new, Event.new]
  unlinked := by simp [Peer.new]
  quiet := fun _ => rfl
  single := Nat.zero_le 1

theorem Peer.Steps.gone (steps : peer.Steps action after out)
    (gone : peer.phase = .disconnected ∨ ∃ service_name, .disconnected service_name ∈ out) :
    after.phase = .disconnected := by
  cases steps with
  | drops _ _ => rfl
  | refused _ _ => rfl
  | reconnects polling _ => simp [polling] at gone
  | reconnected reconnecting => simp [reconnecting] at gone
  | emitted signalling => simp [signalling] at gone
  | _ =>
    have same : peer.phase = .disconnected := by simpa using gone
    exact same

theorem run_settled {service_name : String} {outgoing : Bool}
    (run : Run Peer.step (Peer.new service_name outgoing) log peer) : peer.Settled :=
  run.invariant (I := fun _ peer => peer.Settled) (.initial service_name outgoing)
    fun _ _ _ _ _ _ settled _ taken => (Peer.step_cases taken).settled settled

/-- Once the handle has reported the loss, the unfinished calls fail exactly if there are no more of them than
    errors in the channel, which holds at most one. -/
theorem lost_calls_fail_iff {service_name : String} {outgoing : Bool}
    (run : Run Peer.step (Peer.new service_name outgoing) log peer) (reported : .disconnected service_name ∈ log) :
    (Inevitably Peer.step Peer.Proceeds peer.Fails peer ↔ peer.unfinished ≤ peer.errors) ∧ peer.errors ≤ 1 := by
  have settled := run_settled run
  have gone : peer.phase = .disconnected := by
    refine run.invariant (I := fun log peer => .disconnected service_name ∈ log → peer.phase = .disconnected)
      (by simp) ?_ reported
    intro log peer action after out _ ih _ taken member
    refine (Peer.step_cases taken).gone ?_
    rcases List.mem_append.mp member with old | new
    · exact .inl (ih old)
    · exact .inr ⟨service_name, new⟩
  refine ⟨⟨fun inevitably => ?_, fun enough => ?_⟩, settled.single⟩
  · obtain ⟨later, final, progress, fails⟩ := inevitably.run
    have going : Going peer final :=
      progress.invariant (I := fun _ later => Going peer later) (.start settled gone)
        fun _ _ _ _ _ _ going proceeds taken => (going.preserved proceeds taken).1
    have none := going.none_left fails
    have conserved := going.conserved
    omega
  · apply Inevitably.of_decreasing (I := fun later => Going peer later ∧ later.unfinished ≤ later.errors) Peer.work
    · intro later action after out ⟨going, enough⟩ proceeds taken
      obtain ⟨kept, less⟩ := going.preserved proceeds taken
      have before := going.conserved
      have now := kept.conserved
      exact ⟨⟨kept, by omega⟩, less⟩
    · exact fun later ⟨going, enough⟩ => going.enabled enough
    · exact ⟨.start settled gone, enough⟩

/-- Nobody emits any more. -/
theorem starves (gone : peer.phase = .disconnected) (empty : peer.self_reconnect_event.channel = [])
    (waiting : peer.calls[call]? = some (some .waiting))
    (run : RunWith Peer.step (fun _ action => action ≠ .drop call) peer log after) :
    after.calls[call]? = some (some .waiting) := by
  have kept : after.phase = .disconnected ∧ after.self_reconnect_event.channel = [] ∧
      after.calls[call]? = some (some .waiting) := by
    refine run.invariant (I := fun _ peer => peer.phase = .disconnected ∧ peer.self_reconnect_event.channel = [] ∧
      peer.calls[call]? = some (some .waiting)) ⟨gone, empty, waiting⟩ ?_
    intro _ peer action after out _ ⟨gone, empty, waiting⟩ stays taken
    have steps := Peer.step_cases taken
    refine ⟨steps.gone (.inl gone), ?_⟩
    have other : ∀ {index was} (next : Option (Progress α)), peer.calls[index]? = some was → was ≠ some .waiting →
        (peer.calls.set index next)[call]? = some (some .waiting) := by
      intro index was next there different
      rw [set_calls there, if_neg, waiting]
      rintro rfl
      rw [waiting] at there
      exact different (Option.some.inj there).symm
    cases steps with
    | called =>
      refine ⟨empty, ?_⟩
      obtain ⟨bound, _⟩ := List.getElem?_eq_some_iff.mp waiting
      show (peer.calls ++ [some .sending])[call]? = _
      rw [List.getElem?_append_left bound, waiting]
    | sent index data sending _ => exact ⟨empty, other _ sending (by simp)⟩
    | unsent index sending _ => exact ⟨empty, other _ sending (by simp)⟩
    | heard _ _ _ _ channel =>
      rw [empty] at channel
      cases channel
    | resolved index response responding => exact ⟨empty, other _ responding (by simp)⟩
    | dropped index =>
      refine ⟨empty, ?_⟩
      have different : index ≠ call := by
        rintro rfl
        exact stays rfl
      show (peer.calls.set index none)[call]? = _
      rw [List.getElem?_set_ne different, waiting]
    | outgoing => exact ⟨empty, waiting⟩
    | lost => exact ⟨empty, waiting⟩
    | reconnects polling _ => simp [polling] at gone
    | drops polling _ => simp [polling] at gone
    | reconnected reconnecting => simp [reconnecting] at gone
    | emitted signalling => simp [signalling] at gone
    | refused _ reconnecting => simp [reconnecting] at gone
  exact kept.2.2

/-- An incoming connection is lost, and one call is made afterwards. -/
theorem lost_calls_fail_single : ∃ log, ∃ peer : Peer Unit,
    Run Peer.step (Peer.new "com.b" false) log peer ∧ .disconnected "com.b" ∈ log ∧
    peer.calls = [some .sending] ∧ Inevitably Peer.step Peer.Proceeds peer.Fails peer := by
  obtain ⟨log, peer, run, shown⟩ := Transition.exists_run_of_execute Peer.step (Peer.new "com.b" false : Peer Unit)
    [.lost, .noticed, .call]
    (fun log peer => log.contains (.disconnected "com.b") && peer.calls == [some .sending] &&
      decide (peer.unfinished ≤ peer.errors)) (by decide +kernel)
  simp only [Bool.and_eq_true, List.contains_iff_mem, beq_iff_eq, decide_eq_true_eq] at shown
  obtain ⟨⟨reported, calls⟩, enough⟩ := shown
  exact ⟨log, peer, run, reported, calls, (lost_calls_fail_iff run reported).1.mpr enough⟩

/-- Two calls are made on clones of the client. The second one waits for good. -/
theorem second_call_waits : ∃ log, ∃ peer : Peer Unit,
    Run Peer.step (Peer.new "com.b" false) log peer ∧ .disconnected "com.b" ∈ log ∧
    peer.calls[0]? = some (some (.returned (.error .peerDisconnected))) ∧
    ∀ later_log later, RunWith Peer.step (fun _ action => action ≠ .drop 1) peer later_log later →
      later.calls[1]? = some (some .waiting) := by
  obtain ⟨log, peer, run, shown⟩ := Transition.exists_run_of_execute Peer.step (Peer.new "com.b" false : Peer Unit)
    [.lost, .noticed, .call, .call, .unsent 0, .unsent 1, .reconnectEvent 0]
    (fun log peer => log.contains (.disconnected "com.b") && peer.phase == .disconnected &&
      peer.self_reconnect_event.channel.isEmpty &&
      peer.calls == [some (.returned (.error .peerDisconnected)), some .waiting]) (by decide +kernel)
  simp only [Bool.and_eq_true, List.contains_iff_mem, beq_iff_eq, List.isEmpty_iff] at shown
  obtain ⟨⟨⟨reported, gone⟩, empty⟩, calls⟩ := shown
  refine ⟨log, peer, run, reported, by simp [calls], fun later_log later more => ?_⟩
  exact starves gone empty (by simp [calls]) more

end KrossbarLib
