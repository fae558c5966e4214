import KrossbarBus.Transition.Run
import Mathlib.Data.List.Nodup

namespace KrossbarLib

/-- The clones of an `Event` share one unbounded channel. `waiting` holds the calls of `wait` in progress. -/
structure Event (ι T : Type) where
  channel : List T
  waiting : List ι
  deriving DecidableEq

inductive EventAction (ι T : Type)
  | emit (value : T)
  | wait (waiter : ι)
  /-- The channel hands its oldest value to a call of `wait`, to any of them. -/
  | receive (waiter : ι)
  | drop (waiter : ι)

structure Completion (ι T : Type) where
  waiter : ι
  value : T
  deriving DecidableEq

variable {ι T : Type} [DecidableEq ι]

def Event.new : Event ι T := ⟨[], []⟩

def Event.step : Transition.Step (Event ι T) (EventAction ι T) (Completion ι T)
  | event, .emit value => some ({ event with channel := event.channel ++ [value] }, [])
  | event, .wait waiter =>
    if waiter ∈ event.waiting then none else some ({ event with waiting := event.waiting ++ [waiter] }, [])
  | event, .receive waiter =>
    match event.channel with
    | [] => none
    | value :: rest =>
      if waiter ∈ event.waiting then some (⟨rest, event.waiting.erase waiter⟩, [⟨waiter, value⟩]) else none
  | event, .drop waiter =>
    if waiter ∈ event.waiting then some ({ event with waiting := event.waiting.erase waiter }, []) else none

/-- An emission finds at most one blocked call, and no call starts while another one is about to receive. -/
def Event.Unshared (event : Event ι T) : EventAction ι T → Prop
  | .emit _ => event.channel = [] → event.waiting.length ≤ 1
  | .wait _ => event.channel = [] ∨ event.waiting = []
  | _ => True

/-- Whatever happens first, the next thing the call does is to return that value. -/
def Event.Delivers (event : Event ι T) (waiter : ι) (value : T) : Prop :=
  ∀ log later, Transition.RunWith Event.step
    (fun event action => event.Unshared action ∧ action ≠ .receive waiter ∧ action ≠ .drop waiter) event log later →
    ∃ final, Event.step later (.receive waiter) = some (final, [⟨waiter, value⟩])

variable {event after : Event ι T} {action : EventAction ι T} {out : List (Completion ι T)} {waiter : ι} {value : T}

theorem nodup_step (nodup : event.waiting.Nodup) (taken : Event.step event action = some (after, out)) :
    after.waiting.Nodup := by
  cases action with
  | emit value =>
    cases taken
    exact nodup
  | wait waiter =>
    simp only [Event.step] at taken
    split at taken
    · cases taken
    · rename_i absent
      cases taken
      rw [List.nodup_append_comm]
      exact List.nodup_cons.mpr ⟨absent, nodup⟩
  | receive waiter =>
    simp only [Event.step] at taken
    split at taken
    · cases taken
    · split at taken <;> cases taken
      exact nodup.erase waiter
  | drop waiter =>
    simp only [Event.step] at taken
    split at taken <;> cases taken
    exact nodup.erase waiter

theorem run_nodup {allowed : Event ι T → EventAction ι T → Prop} {log : List (Completion ι T)}
    (run : Transition.RunWith Event.step allowed .new log event) : event.waiting.Nodup :=
  run.invariant (I := fun _ event => event.waiting.Nodup) List.nodup_nil
    fun _ _ _ _ _ _ nodup _ taken => nodup_step nodup taken

/-- The only call in progress is about to receive the value. -/
structure Event.Assigned (event : Event ι T) (waiter : ι) (value : T) : Prop where
  alone : event.waiting = [waiter]
  first : event.channel.head? = some value

theorem Event.Assigned.kept (assigned : event.Assigned waiter value) (unshared : event.Unshared action)
    (others : action ≠ .receive waiter ∧ action ≠ .drop waiter)
    (taken : Event.step event action = some (after, out)) : after.Assigned waiter value := by
  have alone := assigned.alone
  have pending : event.channel ≠ [] := by
    intro none
    have first := assigned.first
    rw [none] at first
    cases first
  cases action with
  | emit other =>
    cases taken
    refine ⟨alone, ?_⟩
    rw [List.head?_append, assigned.first]
    rfl
  | wait other =>
    rcases unshared with none | none
    · exact absurd none pending
    · rw [alone] at none
      cases none
  | receive other =>
    simp only [Event.step] at taken
    split at taken
    · cases taken
    · split at taken
      · rename_i member
        rw [alone, List.mem_singleton] at member
        exact absurd (by rw [member]) others.1
      · cases taken
  | drop other =>
    simp only [Event.step] at taken
    split at taken
    · rename_i member
      rw [alone, List.mem_singleton] at member
      exact absurd (by rw [member]) others.2
    · cases taken

theorem Event.Assigned.enabled (assigned : event.Assigned waiter value) :
    ∃ final, Event.step event (.receive waiter) = some (final, [⟨waiter, value⟩]) := by
  obtain ⟨rest, channel⟩ := List.head?_eq_some_iff.mp assigned.first
  refine ⟨⟨rest, []⟩, ?_⟩
  simp [Event.step, channel, assigned.alone]

theorem Event.Assigned.run {log : List (Completion ι T)} (assigned : event.Assigned waiter value)
    (run : Transition.RunWith Event.step
      (fun event action => event.Unshared action ∧ action ≠ .receive waiter ∧ action ≠ .drop waiter) event log after) :
    after.Assigned waiter value :=
  run.invariant (I := fun _ event => event.Assigned waiter value) assigned
    fun _ _ _ _ _ _ assigned allowed taken => assigned.kept allowed.1 allowed.2 taken

theorem Event.Assigned.delivers (assigned : event.Assigned waiter value) : event.Delivers waiter value :=
  fun _ _ run => (assigned.run run).enabled

/-- The waiter alone receives what is emitted while it is blocked. -/
theorem emit_assigned (blocked : event.channel = []) (unshared : event.waiting.length ≤ 1)
    (member : waiter ∈ event.waiting) (taken : Event.step event (.emit value) = some (after, out)) :
    after.Assigned waiter value := by
  cases taken
  obtain ⟨other, alone⟩ := List.length_eq_one_iff.mp
    (Nat.le_antisymm unshared (List.length_pos_of_mem member))
  rw [alone, List.mem_singleton] at member
  constructor
  · rw [member]
    exact alone
  · rw [blocked]
    rfl

/-- A second blocked call is left with an empty channel. -/
theorem emit_starves (blocked : event.channel = []) (nodup : event.waiting.Nodup)
    (shared : ¬ event.waiting.length ≤ 1) (taken : Event.step event (.emit value) = some (after, out)) :
    ∃ starved ∈ event.waiting, ¬ after.Delivers starved value := by
  cases taken
  obtain ⟨first, second, rest, waiting⟩ : ∃ first second rest, event.waiting = first :: second :: rest := by
    match waiting : event.waiting with
    | [] => simp [waiting] at shared
    | [_] => simp [waiting] at shared
    | first :: second :: rest => exact ⟨first, second, rest, rfl⟩
  rw [waiting] at nodup
  have different : first ≠ second := by
    rintro rfl
    simp at nodup
  refine ⟨second, by simp [waiting], ?_⟩
  intro delivers
  have received : Event.step ⟨[value], first :: second :: rest⟩ (.receive first) =
      some (⟨[], second :: rest⟩, [⟨first, value⟩]) := by
    simp [Event.step]
  have emitted : { event with channel := event.channel ++ [value] } = Event.mk [value] (first :: second :: rest) := by
    rw [blocked, waiting]
    rfl
  rw [emitted] at delivers
  have allowed : Event.Unshared (Event.mk [value] (first :: second :: rest)) (.receive first) := trivial
  have others : (EventAction.receive first : EventAction ι T) ≠ .receive second ∧
      (EventAction.receive first : EventAction ι T) ≠ .drop second := by
    simp [different]
  obtain ⟨final, impossible⟩ := delivers _ _ (.next .start ⟨allowed, others⟩ received)
  cases impossible

/-- Every call that is blocked when a value is emitted returns it, exactly if there is at most one. -/
theorem emit_delivers (blocked : event.channel = []) (nodup : event.waiting.Nodup)
    (taken : Event.step event (.emit value) = some (after, out)) :
    event.Unshared (.emit value) ↔ ∀ waiter ∈ event.waiting, after.Delivers waiter value := by
  constructor
  · intro unshared waiter member
    exact (emit_assigned blocked (unshared blocked) member taken).delivers
  · intro delivers _
    by_contra shared
    obtain ⟨starved, member, stuck⟩ := emit_starves blocked nodup shared taken
    exact stuck (delivers starved member)

end KrossbarLib
