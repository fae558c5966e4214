import KrossbarBus.Lib.Handshakes

namespace KrossbarLib

variable {monitor : Bool} {service after : Service} {action : ServiceAction} {out : List ServiceEvent}
  {requester other : Requester} {service_name : String} {wait : Bool} {message_id : Int} {reply : Reply}

def Service.AwaitsCall (service : Service) (requester : Requester) (message_id : Int) : Prop :=
  ∃ service_name wait, service.handshake requester = some (service_name, wait, .awaiting message_id)

/-- Every call has a number of its own. -/
structure Service.CallsApart (service : Service) : Prop where
  earlier : ∀ requester message_id, service.AwaitsCall requester message_id → message_id < service.clock
  single : ∀ requester other message_id, service.AwaitsCall requester message_id → service.AwaitsCall other message_id →
    requester = other

theorem Service.CallsApart.initial (service_name : String) : (Service.new service_name).CallsApart where
  earlier := by
    rintro requester message_id ⟨_, _, there⟩
    cases requester <;> cases there
  single := by
    rintro requester other message_id ⟨_, _, there⟩
    cases requester <;> cases there

/-- Only the completed send of a handshake requests a connection. -/
theorem Service.Steps.sender (steps : service.Steps monitor action after out)
    (member : .requested message_id service_name wait ∈ out) : ∃ requester,
    action = .sent requester true ∧ service.handshake requester = some (service_name, wait, .sending) ∧
      after = { service.setHandshake (.awaiting service.clock) requester with clock := service.clock + 1 } := by
  have silent : ∀ {before final : Service} {events requester name flag reply},
      before.finish requester name flag reply = some (final, events) →
      .requested message_id service_name wait ∉ events := by
    intro before final events requester name flag reply finished requested
    rcases (finish_events finished).2 _ requested with ⟨_, _, same⟩ | ⟨_, same⟩ | ⟨_, same⟩ | same <;> cases same
  cases steps with
  | sent requester name flag runs there =>
    cases List.mem_singleton.mp member
    exact ⟨requester, rfl, there, rfl⟩
  | resumed _ _ _ _ _ _ _ _ finished => exact absurd member (silent finished)
  | hubGone _ _ _ _ _ _ _ _ _ _ finished => exact absurd member (silent finished)
  | hubRequest request selecting =>
    obtain ⟨_, _, _, same | same | same⟩ := offered_events member <;> cases same
  | _ => simp at member

/-- A call that is awaited after a step was awaited before, or the step has sent it. -/
theorem Service.Steps.awaits (steps : service.Steps monitor action after out)
    (going : after.handshake requester = some (service_name, wait, .awaiting message_id)) :
    service.handshake requester = some (service_name, wait, .awaiting message_id) ∨
      message_id = service.clock ∧ .requested service.clock service_name wait ∈ out := by
  cases steps.progress going with
  | kept _ before => exact .inl before
  | sent all => exact .inr ⟨rfl, by simp [all]⟩

theorem Service.CallsApart.preserved (apart : service.CallsApart) (steps : service.Steps monitor action after out) :
    after.CallsApart := by
  have later := steps.emits.1
  by_cases sends : ∃ service_name wait, .requested service.clock service_name wait ∈ out
  · obtain ⟨service_name, wait, requested⟩ := sends
    obtain ⟨sender, _, there, rfl⟩ := steps.sender requested
    have split : ∀ requester message_id,
        Service.AwaitsCall { service.setHandshake (.awaiting service.clock) sender with clock := service.clock + 1 }
          requester message_id →
        requester = sender ∧ message_id = service.clock ∨ service.AwaitsCall requester message_id := by
      rintro requester message_id ⟨name, flag, going⟩
      have going : (service.setHandshake (.awaiting service.clock) sender).handshake requester =
          some (name, flag, .awaiting message_id) := by
        cases requester <;> exact going
      rw [handshake_setHandshake there] at going
      split at going
      · rename_i this
        cases going
        exact .inl ⟨this, rfl⟩
      · exact .inr ⟨name, flag, going⟩
    refine ⟨?_, ?_⟩
    · intro requester message_id awaits
      show message_id < ((service.clock + 1 : Nat) : Int)
      rcases split requester message_id awaits with ⟨_, rfl⟩ | before
      · omega
      · have bound := apart.earlier requester message_id before
        omega
    · intro requester other message_id awaits again
      rcases split requester message_id awaits with ⟨rfl, rfl⟩ | before
      · rcases split other _ again with ⟨rfl, _⟩ | before
        · rfl
        · exact absurd (apart.earlier other _ before) (Int.lt_irrefl _)
      · rcases split other message_id again with ⟨rfl, rfl⟩ | too
        · exact absurd (apart.earlier requester _ before) (Int.lt_irrefl _)
        · exact apart.single requester other message_id before too
  · have kept : ∀ requester message_id, after.AwaitsCall requester message_id →
        service.AwaitsCall requester message_id := by
      rintro requester message_id ⟨name, flag, going⟩
      rcases steps.awaits going with before | ⟨_, requested⟩
      · exact ⟨name, flag, before⟩
      · exact absurd ⟨name, flag, requested⟩ sends
    refine ⟨?_, ?_⟩
    · intro requester message_id awaits
      have bound := apart.earlier requester message_id (kept requester message_id awaits)
      omega
    · intro requester other message_id awaits again
      exact apart.single requester other message_id (kept requester message_id awaits) (kept other message_id again)

/-- Once its answer is read a call is not awaited any more. -/
theorem resolved_unawaited (apart : service.CallsApart)
    (older : ∀ number poll_handle, service.client_poll_handles.get number = some poll_handle → number < service.clock)
    (taken : Service.step monitor service (.resolved message_id reply) = some (after, out))
    (awaits : after.AwaitsCall other message_id) : False := by
  simp only [Service.step] at taken
  split at taken
  · cases taken
  · split at taken
    · rename_i requester found
      cases taken
      obtain ⟨service_name, wait, there⟩ := Service.awaiter_awaits found
      obtain ⟨name, flag, going⟩ := awaits
      rw [handshake_setHandshake there] at going
      split at going
      · cases going
      · rename_i different
        exact different (apart.single other requester message_id ⟨name, flag, going⟩ ⟨service_name, wait, there⟩)
    · rename_i nobody
      cases taken
      obtain ⟨name, flag, going⟩ := awaits
      have listed : other ∈ Requester.connect :: (List.range service.clock).map .handle := by
        cases other with
        | connect => exact List.mem_cons_self
        | handle number =>
          simp only [Service.handshake, Option.bind_eq_some_iff] at going
          obtain ⟨poll_handle, present, _⟩ := going
          simpa using older number poll_handle present
      have missed := List.find?_eq_none.mp nobody other listed
      simp [going] at missed

end KrossbarLib
