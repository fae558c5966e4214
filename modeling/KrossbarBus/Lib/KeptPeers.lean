import KrossbarBus.Lib.Streams

namespace KrossbarLib

open Transition (Run RunWith)

variable {monitor : Bool} {service after : Service} {action : ServiceAction} {out log : List ServiceEvent}
  {number other rpc : Nat} {poll_handle : ClientHandle} {requester : Requester} {service_name peer : String}
  {wait : Bool} {reply : Reply} {handshake : Handshake}

/-- The service has a client for the peer, and the client's handle reads from the stream. -/
structure Service.Keeps (service : Service) (peer : String) (number rpc : Nat) : Prop where
  entry : service.client_map.get peer = some number
  stream : service.streamOf number = some rpc

/-- The service asks for the peer, adopts a stream of it, or loses it. -/
def ServiceEvent.concerns (peer : String) : ServiceEvent → Bool
  | .requested _ service_name _ | .adopted service_name _ | .accepted service_name _ | .disconnected service_name =>
    service_name == peer
  | _ => false

/-- The stream of the client goes on. -/
def Service.KeepsStream (number : Nat) (service : Service) (action : ServiceAction) : Prop :=
  service.Spares action ∧ action ≠ .streamLost number

/-- A handle under way to the hub is not the one that reads from the stream. -/
theorem Service.Keeps.apart (keeps : service.Keeps peer number rpc) (tracked : service.Tracked)
    (there : service.handshake requester = some (service_name, wait, handshake)) : service_name ≠ peer := by
  rintro rfl
  cases requester with
  | connect =>
    obtain ⟨phase, connecting⟩ := handshake_connecting there
    have absent := tracked.opening service_name (by rw [connecting]; rfl)
    rw [keeps.entry] at absent
    cases absent
  | handle other =>
    have gone := streamOf_reconnecting there
    simp only [Service.handshake, Option.bind_eq_some_iff] at there
    obtain ⟨poll_handle, present, going⟩ := there
    have own : poll_handle.service_name = service_name := by
      cases phase : poll_handle.phase <;> simp_all [ClientHandle.handshake]
    have entry := tracked.scheduled other poll_handle present
    rw [own, keeps.entry] at entry
    cases entry
    rw [keeps.stream] at gone
    cases gone

/-- The end of somebody else's handshake. -/
theorem entry_finish (different : service_name ≠ peer)
    (finished : service.finish requester service_name wait reply = some (after, out)) :
    after.client_map.get peer = service.client_map.get peer ∧ ∀ event ∈ out, event.concerns peer = false := by
  cases Service.finish_cases finished with
  | opened pair =>
    refine ⟨Table.get_insert_of_ne different.symm, ?_⟩
    simp [ServiceEvent.concerns, different]
  | refused e => exact ⟨rfl, by simp [ServiceEvent.concerns]⟩
  | reopened other pair poll_handle present => exact ⟨rfl, by simp [ServiceEvent.concerns, different]⟩
  | abandoned other e =>
    exact ⟨Table.get_remove_of_ne different.symm, by simp [ServiceEvent.concerns, different]⟩

theorem Service.Keeps.entry_kept (keeps : service.Keeps peer number rpc) (tracked : service.Tracked)
    (taken : Service.step monitor service action = some (after, out)) (stays : action ≠ .streamLost number) :
    after.client_map.get peer = some number ∧ ∀ event ∈ out, event.concerns peer = false := by
  have entry := keeps.entry
  have unconcerned : ∀ event ∈ ([] : List ServiceEvent), event.concerns peer = false := by simp
  cases Service.step_cases taken with
  | sent requester service_name wait _ there =>
    have different := keeps.apart tracked there
    rw [setHandshake_frame]
    exact ⟨entry, by simp [ServiceEvent.concerns, different]⟩
  | unsent requester _ _ _ _ | resolved requester _ _ _ _ _ _ | callLost requester _ _ _ _ _
  | hubBack requester _ _ _ _ _ _ =>
    rw [setHandshake_frame]
    exact ⟨entry, unconcerned⟩
  | resumed requester _ _ _ _ _ runs there finished =>
    obtain ⟨same, quiet⟩ := entry_finish (keeps.apart tracked there) finished
    exact ⟨same.trans entry, quiet⟩
  | hubGone requester _ _ e rest _ _ runs there signal finished =>
    obtain ⟨same, quiet⟩ := entry_finish (keeps.apart tracked there) finished
    exact ⟨same.trans entry, quiet⟩
  | drops other poll_handle selecting present polling incoming =>
    have different : poll_handle.service_name ≠ peer := by
      rintro rfl
      rw [tracked.scheduled other poll_handle present] at entry
      cases entry
      exact stays rfl
    exact ⟨(Table.get_remove_of_ne different.symm).trans entry, by simp [ServiceEvent.concerns, different]⟩
  | hubRequest request selecting =>
    cases request with
    | other => exact ⟨entry, unconcerned⟩
    | fd client_name pair =>
      simp only [Service.handleNewConnection]
      split
      · exact ⟨entry, by simp [ServiceEvent.concerns]⟩
      · split
        · exact ⟨entry, by simp [ServiceEvent.concerns]⟩
        · rename_i untaken
          have different : client_name ≠ peer := by
            rintro rfl
            simp [Table.containsKey, entry] at untaken
          exact ⟨(Table.get_insert_of_ne different.symm).trans entry, by simp [ServiceEvent.concerns, different]⟩
  | known _ _ _ _ _ _ _ | stale _ _ _ _ _ => exact ⟨entry, by simp [ServiceEvent.concerns]⟩
  | _ => exact ⟨entry, unconcerned⟩

theorem Service.Keeps.step (keeps : service.Keeps peer number rpc) (tracked : service.Tracked)
    (holds : service.KeepsStream number action) (taken : Service.step monitor service action = some (after, out)) :
    after.Keeps peer number rpc ∧ ∀ event ∈ out, event.concerns peer = false := by
  obtain ⟨spares, stays⟩ := holds
  obtain ⟨entry, quiet⟩ := keeps.entry_kept tracked taken stays
  exact ⟨⟨entry, step_stream tracked spares taken stays keeps.stream⟩, quiet⟩

/-- As long as its stream goes on, a peer stays connected, whatever becomes of the hub and of the other peers: it
    is not asked for again, no further stream of it is taken, and whoever connects to it gets the client there is. -/
theorem peers_survive {own : String}
    (run : RunWith (Service.step monitor) Service.Spares (Service.new own) log service)
    (keeps : service.Keeps peer number rpc) {later : List ServiceEvent}
    (goes : RunWith (Service.step monitor) (Service.KeepsStream number) service later after) :
    after.Keeps peer number rpc ∧ (∀ event ∈ later, event.concerns peer = false) ∧
    ∀ wait next out, Service.step monitor after (.connect peer wait) = some (next, out) →
      out = [.returned number] ∧ next.Keeps peer number rpc := by
  have kept : after.Tracked ∧ after.Keeps peer number rpc ∧ ∀ event ∈ later, event.concerns peer = false := by
    refine goes.invariant (I := fun later after => after.Tracked ∧ after.Keeps peer number rpc ∧
      ∀ event ∈ later, event.concerns peer = false) ⟨run_tracked run, keeps, by simp⟩ ?_
    rintro later state action after out _ ⟨tracked, keeps, quiet⟩ holds taken
    obtain ⟨still, silent⟩ := keeps.step tracked holds taken
    refine ⟨(Service.step_cases taken).tracked tracked holds.1, still, fun event member => ?_⟩
    rcases List.mem_append.mp member with old | new
    · exact quiet event old
    · exact silent event new
  obtain ⟨tracked, still, quiet⟩ := kept
  refine ⟨still, quiet, fun wait next out taken => ?_⟩
  have spares : after.Spares (.connect peer wait) := fun drops => by cases drops
  obtain ⟨keeps, _⟩ := still.step tracked ⟨spares, by simp⟩ taken
  refine ⟨?_, keeps⟩
  cases Service.step_cases taken with
  | known _ _ found _ _ entry _ =>
    rw [still.entry] at entry
    cases entry
    rfl
  | stale _ _ found _ entry =>
    rw [still.entry] at entry
    cases entry
    rfl
  | opened _ _ _ absent =>
    rw [still.entry] at absent
    cases absent

def Service.keepsStream (number : Nat) (service : Service) (action : ServiceAction) : Bool :=
  service.sparesPoll action && match action with
    | .streamLost other => other != number
    | _ => true

theorem keepsStream_keeps (passed : service.keepsStream number action = true) : service.KeepsStream number action := by
  simp only [Service.keepsStream, Bool.and_eq_true] at passed
  refine ⟨sparesPoll_spares passed.1, ?_⟩
  rintro rfl
  simp at passed

def outage : List ServiceAction :=
  [.poll, .hubLost, .registered none, .reconnected, .poll, .hubRequest (.fd "com.b" 9)]

/-- The hub goes, comes back and hands over a second stream of `com.b`. -/
theorem peers_survive_outage : ∃ log service later after,
    Run (Service.step true) (Service.new "com.a") log service ∧
    Run (Service.step true) service later after ∧ .discarded "com.b" 9 ∈ later ∧ after.Keeps "com.b" 1 4 ∧
    ∀ wait next out, Service.step true after (.connect "com.b" wait) = some (next, out) →
      out = [.returned 1] ∧ next.Keeps "com.b" 1 4 := by
  obtain ⟨log, service, run, shown⟩ := Transition.exists_run_of_execute
    (Transition.guarded (Service.step true) Service.sparesPoll) (Service.new "com.a")
    [.connect "com.b" false, .sent .connect true, .resolved 0 (.stream 4), .resumed .connect]
    (fun _ service => service.client_map.get "com.b" == some 1 && (service.streamOf 1 == some 4 &&
      (Transition.execute (Transition.guarded (Service.step true) (Service.keepsStream 1)) service outage).any
        fun reached => reached.2.contains (.discarded "com.b" 9)))
    (by decide +kernel)
  simp only [Bool.and_eq_true, beq_iff_eq] at shown
  obtain ⟨entry, stream, passed⟩ := shown
  obtain ⟨later, after, goes, discarded⟩ := Transition.exists_run_of_execute _ service outage
    (fun (later : List ServiceEvent) _ => later.contains (.discarded "com.b" 9)) passed
  have spares : RunWith (Service.step true) Service.Spares (.new "com.a") log service :=
    run.of_guarded fun _ _ _ _ passed => sparesPoll_spares passed
  have holds : RunWith (Service.step true) (Service.KeepsStream 1) service later after :=
    goes.of_guarded fun _ _ _ _ passed => keepsStream_keeps passed
  obtain ⟨keeps, _, returned⟩ := peers_survive spares ⟨entry, stream⟩ holds
  exact ⟨log, service, later, after, spares.run, holds.run, List.contains_iff_mem.mp discarded, keeps, returned⟩

end KrossbarLib
