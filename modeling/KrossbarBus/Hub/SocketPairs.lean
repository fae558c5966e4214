import KrossbarBus.Hub.Offers
import Mathlib.Data.List.Nodup
import Mathlib.Data.List.Pairwise

namespace KrossbarHub

variable {env : HubEnvironment} {hub after : Hub} {conn : Conn} {credentials : UCred} {phase : Phase}
  {input : Input} {progress : Progress} {action : Action} {out log : List Event}
  {additional_service_dirs : List OsString} {files : FileSystem}

/-- The pair whose first end an event sends. -/
def Event.offers : Event → Option Nat
  | .connectionRequest _ _ _ pair _ => some pair
  | _ => none

theorem sendConnectionDescriptors_offers {clock : Nat} {service_name : String} {handover : Handover} {next : After}
    {events : List Event} (pair : sendConnectionDescriptors env clock service_name handover next = (phase, events)) :
    events.filterMap Event.offers = [clock] ∨ events.filterMap Event.offers = [] := by
  rcases sendConnectionDescriptors_cases pair with ⟨_, rfl⟩ | ⟨_, text, rfl⟩
  · exact .inl rfl
  · exact .inr rfl

theorem resolveWaiters_offers {clock : Nat} {service_name : String} {stream : RpcWriter}
    {waiters : List (String × RpcRequest)} {events : List Event}
    (batch : resolveWaiters env clock service_name stream waiters = (phase, events)) :
    events.filterMap Event.offers = [clock] ∨ events.filterMap Event.offers = [] := by
  rcases resolveWaiters_cases batch with ⟨_, _, rfl⟩ | ⟨_, _, _, _, pair⟩
  · exact .inr rfl
  · exact sendConnectionDescriptors_offers pair

theorem authorizeBody_offers {request : RpcRequest} {events : List Event}
    (body : authorizeBody env request = (phase, events)) : events.filterMap Event.offers = [] := by
  rcases authorizeBody_cases body with ⟨_, _, _, rfl⟩ | ⟨_, _, e, rfl⟩ <;> rfl

theorem clientBody_offers {service_name : String} {request : RpcRequest} {events : List Event}
    (body : clientBody env service_name request = (phase, events)) : events.filterMap Event.offers = [] := by
  rcases clientBody_cases body with ⟨_, _, _, _, rfl⟩ | ⟨_, ⟨_, e, rfl⟩ | ⟨_, rfl⟩⟩ <;> rfl

/-- A step makes one pair at most, and numbers it by the time. -/
theorem Resumes.offers (resumes : Resumes env hub conn credentials phase input progress) :
    progress.events.filterMap Event.offers = [hub.clock] ∨ progress.events.filterMap Event.offers = [] := by
  cases resumes with
  | authReceived message right next events body =>
    rw [List.filterMap_cons_none rfl]
    exact .inr (authorizeBody_offers body)
  | authContinued request ok next events body => exact .inr (authorizeBody_offers body)
  | clientReceived service_name message right next events body =>
    rw [List.filterMap_cons_none rfl]
    exact .inr (clientBody_offers body)
  | clientContinued service_name request ok next events body => exact .inr (clientBody_offers body)
  | pendingTaken service_name free waiters waiting next events batch => exact resolveWaiters_offers batch
  | batchContinued service_name waiters ok next events batch => exact resolveWaiters_offers batch
  | connectRegistered service_name target request wait free allowed target_writer present next events pair =>
    rw [List.filterMap_cons_none rfl]
    exact sendConnectionDescriptors_offers pair
  | _ => exact .inr rfl

theorem step_offers (taken : step env hub action = some (after, out)) :
    out.filterMap Event.offers = [] ∨ out.filterMap Event.offers = [hub.clock] ∧ after.clock = hub.clock + 1 := by
  cases step_cases taken with
  | resumed conn task input progress selecting present resumes =>
    rcases resumes.offers with one | none
    · exact .inr ⟨one, rfl⟩
    · exact .inl none
  | _ => exact .inl rfl

theorem step_clock (taken : step env hub action = some (after, out)) : hub.clock ≤ after.clock := by
  cases step_cases taken with
  | accepted credentials selecting => exact Nat.le_succ _
  | resumed conn task input progress selecting present resumes => exact Nat.le_succ _
  | _ => exact Nat.le_refl _

theorem offers_fresh (run : Run env additional_service_dirs files log hub) :
    (∀ pair ∈ log.filterMap Event.offers, pair < hub.clock) ∧ (log.filterMap Event.offers).Nodup := by
  apply run.invariant
    (I := fun log hub => (∀ pair ∈ log.filterMap Event.offers, pair < hub.clock) ∧
      (log.filterMap Event.offers).Nodup)
  · exact ⟨by simp, by simp⟩
  · intro log hub action after out _ kept _ taken
    obtain ⟨below, nodup⟩ := kept
    rw [List.filterMap_append]
    rcases step_offers taken with none | ⟨one, clock⟩
    · rw [none, List.append_nil]
      exact ⟨fun pair member => Nat.lt_of_lt_of_le (below pair member) (step_clock taken), nodup⟩
    · rw [one, clock]
      constructor
      · intro pair member
        rcases List.mem_append.mp member with old | new
        · exact Nat.lt_succ_of_lt (below pair old)
        · rw [List.mem_singleton.mp new]
          exact Nat.lt_succ_self _
      · apply List.Nodup.append nodup (List.nodup_singleton _)
        intro pair old new
        rw [List.mem_singleton.mp new] at old
        exact absurd (below _ old) (Nat.lt_irrefl _)

theorem eq_of_nodup_filterMap {α β : Type} {f : α → Option β} {xs : List α} (nodup : (xs.filterMap f).Nodup)
    {x y : α} (x_member : x ∈ xs) (y_member : y ∈ xs) {b : β} (x_maps : f x = some b) (y_maps : f y = some b) :
    x = y := by
  by_contra different
  have apart := List.pairwise_filterMap.mp nodup
  have symmetric : Std.Symm fun a a' => ∀ b, f a = some b → ∀ b', f a' = some b' → b ≠ b' :=
    ⟨fun _ _ apart b maps b' maps' => (apart b' maps' b maps).symm⟩
  exact apart.forall x_member y_member different b x_maps b y_maps rfl

/-- A pair is offered once. -/
theorem pair_offered_once (run : Run env additional_service_dirs files log hub) {writer other : RpcWriter}
    {initiator target initiator' target' : String} {pair : Nat} {request request' : RpcRequest}
    (offered : .connectionRequest writer initiator target pair request ∈ log)
    (again : .connectionRequest other initiator' target' pair request' ∈ log) :
    writer = other ∧ initiator = initiator' ∧ target = target' ∧ request = request' := by
  have same := eq_of_nodup_filterMap (offers_fresh run).2 offered again rfl rfl
  cases same
  exact ⟨rfl, rfl, rfl, rfl⟩

end KrossbarHub
