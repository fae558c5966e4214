import KrossbarBus.Collections.Table
import KrossbarBus.Transition.Backlog

/-- Members under names, and for each name the requests that wait until it has a member. -/
structure Rendezvous (ν κ ρ : Type*) where
  members : Table ν κ
  waiting : ν → List ρ

namespace Rendezvous

open Transition

variable {ν κ ρ : Type*}

/-- `met` and `declined` are the two answers to a request. -/
inductive Event (ν κ ρ : Type*)
  | joined (name : ν) (member : κ)
  | left (name : ν) (member : κ)
  | waited (request : ρ)
  | met (request : ρ)
  | declined (request : ρ)
  deriving DecidableEq

def empty : Rendezvous ν κ ρ := ⟨.empty, fun _ => []⟩

def Event.answers : Event ν κ ρ → Option ρ
  | .met request => some request
  | .declined request => some request
  | _ => none

variable [DecidableEq ν]

def holderStep (name : ν) (holder : Option κ) : Event ν κ ρ → Option κ
  | .joined other member => if other = name then some member else holder
  | .left other _ => if other = name then none else holder
  | _ => holder

/-- Who holds a name after a log. -/
def holder (log : List (Event ν κ ρ)) (name : ν) : Option κ := log.foldl (holderStep name) none

def turn (wants : ρ → Option ν) (name : ν) : Event ν κ ρ → QueueOp ρ
  | .waited request => if wants request = some name then .join request else .skip
  | .met request => if wants request = some name then .leave request else .skip
  | .declined request => if wants request = some name then .leave request else .skip
  | _ => .skip

variable {wants : ρ → Option ν} {event : Event ν κ ρ} {name : ν} {request : ρ} {log : List (Event ν κ ρ)}

theorem holder_snoc : holder (log ++ [event]) name = holderStep name (holder log name) event := by
  simp [holder]

theorem holder_answer (answers : event.answers = some request) :
    holder (log ++ [event]) name = holder log name := by
  rw [holder_snoc]
  cases event with
  | met own | declined own => rfl
  | _ => cases answers

theorem holder_unjoined (unjoined : ∀ member, event ≠ .joined name member) (free : holder log name = none) :
    holder (log ++ [event]) name = none := by
  rw [holder_snoc, free]
  cases event with
  | joined other member =>
    exact if_neg fun same => unjoined member (by rw [same])
  | left other member => exact ite_self _
  | _ => rfl

theorem turn_waited (wanted : wants request = some name) :
    turn wants name (.waited request : Event ν κ ρ) = .join request := if_pos wanted

theorem turn_answer (answers : event.answers = some request) (wanted : wants request = some name) :
    turn wants name event = .leave request ∧ ∀ other, other ≠ name → turn wants other event = .skip := by
  cases event with
  | met own | declined own =>
    cases answers
    refine ⟨if_pos wanted, ?_⟩
    intro other different
    rw [turn, wanted]
    exact if_neg fun same => different (Option.some.inj same).symm
  | _ => cases answers

variable [DecidableEq ρ] {place after : Rendezvous ν κ ρ}

theorem backlog_skip (quiet : turn wants name event = .skip) :
    backlog (turn wants name) (log ++ [event]) = backlog (turn wants name) log := by
  rw [backlog_snoc, quiet]
  rfl

theorem waits_on (unanswered : event.answers ≠ some request)
    (waits : request ∈ backlog (turn wants name) log) :
    request ∈ backlog (turn wants name) (log ++ [event]) := by
  rw [backlog_snoc]
  cases moves : turn wants name event with
  | join other => exact List.mem_append_left _ waits
  | skip => exact waits
  | leave other =>
    apply (List.mem_erase_of_ne _).mpr waits
    intro same
    subst same
    cases event with
    | met own | declined own =>
      simp only [turn] at moves
      split at moves
      · cases moves
        exact unanswered rfl
      · cases moves
    | waited own =>
      simp only [turn] at moves
      split at moves <;> cases moves
    | _ => cases moves

/-- A request that waits is answered in its turn, and only while the name has a member. -/
def answer (place : Rendezvous ν κ ρ) (name : ν) (request : ρ) : Option (Rendezvous ν κ ρ) :=
  if request ∉ place.waiting name then some place
  else if (place.waiting name).head? = some request ∧ place.members.containsKey name then
    some { place with waiting := Function.update place.waiting name (place.waiting name).tail }
  else none

theorem answer_aside (aside : request ∉ place.waiting name) : place.answer name request = some place :=
  if_pos aside

theorem answer_head {rest : List ρ} (head : place.waiting name = request :: rest)
    (attended : place.members.containsKey name = true) :
    place.answer name request = some { place with waiting := Function.update place.waiting name rest } := by
  simp [answer, head, attended]

theorem answer_cases (answered : place.answer name request = some after) :
    (request ∉ place.waiting name ∧ after = place) ∨
      ∃ rest, place.waiting name = request :: rest ∧ place.members.containsKey name = true ∧
        after = { place with waiting := Function.update place.waiting name rest } := by
  unfold answer at answered
  split at answered
  · rename_i aside
    cases answered
    exact .inl ⟨aside, rfl⟩
  · split at answered
    · rename_i turn
      obtain ⟨head, attended⟩ := turn
      cases answered
      cases queue : place.waiting name with
      | nil => simp [queue] at head
      | cons first rest =>
        rw [queue, List.head?_cons] at head
        cases head
        exact .inr ⟨rest, rfl, attended, rfl⟩
    · cases answered

/-- What an event needs and does. -/
inductive Steps (wants : ρ → Option ν) (place : Rendezvous ν κ ρ) : Event ν κ ρ → Rendezvous ν κ ρ → Prop
  | joined (name : ν) (member : κ) (absent : place.members.get name = none) :
      Steps wants place (.joined name member) { place with members := place.members.insert name member }
  | left (name : ν) (member : κ) (present : place.members.get name = some member) :
      Steps wants place (.left name member) { place with members := place.members.remove name }
  | waited (request : ρ) (name : ν) (wanted : wants request = some name)
      (absent : place.members.get name = none) (new : request ∉ place.waiting name) :
      Steps wants place (.waited request)
        { place with waiting := Function.update place.waiting name (place.waiting name ++ [request]) }
  | aside (event : Event ν κ ρ) (request : ρ) (answers : event.answers = some request) (name : ν)
      (wanted : wants request = some name) (aside : request ∉ place.waiting name) : Steps wants place event place
  | served (event : Event ν κ ρ) (request : ρ) (answers : event.answers = some request) (name : ν)
      (wanted : wants request = some name) (rest : List ρ) (head : place.waiting name = request :: rest)
      (attended : place.members.containsKey name = true) :
      Steps wants place event { place with waiting := Function.update place.waiting name rest }

theorem answer_steps (answers : event.answers = some request) (wanted : wants request = some name)
    (answered : place.answer name request = some after) : Steps wants place event after := by
  rcases answer_cases answered with ⟨aside, rfl⟩ | ⟨rest, head, attended, rfl⟩
  · exact .aside event request answers name wanted aside
  · exact .served event request answers name wanted rest head attended

/-- The place is what its log says. -/
structure Logged (wants : ρ → Option ν) (log : List (Event ν κ ρ)) (place : Rendezvous ν κ ρ) : Prop where
  members : ∀ name, place.members.get name = holder log name
  waiting : ∀ name, place.waiting name = backlog (turn wants name) log

/-- A name has no member when a request begins to wait for it, and has one when a waiting request is
    answered. -/
structure Attended (wants : ρ → Option ν) (before : List (Event ν κ ρ)) (event : Event ν κ ρ) : Prop where
  waited : ∀ request name, event = .waited request → wants request = some name → holder before name = none
  answered : ∀ request name, event.answers = some request → wants request = some name →
    request ∈ backlog (turn wants name) before → (holder before name).isSome = true

theorem Logged.step (logged : Logged wants log place) (steps : Steps wants place event after) :
    Logged wants (log ++ [event]) after ∧ Attended wants log event := by
  cases steps with
  | joined name member absent =>
    refine ⟨⟨?_, ?_⟩, ⟨by simp, by simp [Event.answers]⟩⟩
    · intro other
      rw [holder_snoc, Table.get_insert, logged.members]
      simp only [holderStep, eq_comm]
    · intro other
      rw [backlog_skip rfl, logged.waiting]
  | left name member present =>
    refine ⟨⟨?_, ?_⟩, ⟨by simp, by simp [Event.answers]⟩⟩
    · intro other
      rw [holder_snoc, Table.get_remove, logged.members]
      simp only [holderStep, eq_comm]
    · intro other
      rw [backlog_skip rfl, logged.waiting]
  | waited request name wanted absent new =>
    refine ⟨⟨?_, ?_⟩, ⟨?_, by simp [Event.answers]⟩⟩
    · intro other
      rw [holder_snoc, logged.members]
      rfl
    · intro other
      dsimp only
      rw [Function.update_apply]
      split
      · rename_i same
        subst same
        rw [backlog_join (turn_waited wanted), logged.waiting]
      · rename_i different
        have skips : turn wants other (.waited request : Event ν κ ρ) = .skip :=
          if_neg fun same => different (Option.some.inj (same.symm.trans wanted))
        rw [backlog_skip skips, logged.waiting]
    · intro own other same wants
      cases same
      rw [wanted] at wants
      cases wants
      rw [← logged.members]
      exact absent
  | aside event request answers name wanted aside =>
    obtain ⟨leaves, skips⟩ := turn_answer answers wanted
    refine ⟨⟨?_, ?_⟩, ⟨?_, ?_⟩⟩
    · intro other
      rw [holder_answer answers, logged.members]
    · intro other
      by_cases same : other = name
      · subst same
        rw [backlog_snoc, leaves, ← logged.waiting]
        exact (List.erase_of_not_mem aside).symm
      · rw [backlog_skip (skips other same), logged.waiting]
    · intro own other same
      rw [same] at answers
      cases answers
    · intro own other answers' wanted' waits
      rw [answers] at answers'
      cases answers'
      rw [wanted] at wanted'
      cases wanted'
      rw [← logged.waiting] at waits
      exact absurd waits aside
  | served event request answers name wanted rest head attended =>
    obtain ⟨leaves, skips⟩ := turn_answer answers wanted
    refine ⟨⟨?_, ?_⟩, ⟨?_, ?_⟩⟩
    · intro other
      rw [holder_answer answers, logged.members]
    · intro other
      dsimp only
      rw [Function.update_apply]
      split
      · rename_i same
        subst same
        rw [backlog_leave leaves (by rw [← logged.waiting]; exact head)]
      · rename_i different
        rw [backlog_skip (skips other different), logged.waiting]
    · intro own other same
      rw [same] at answers
      cases answers
    · intro own other answers' wanted' _
      rw [answers] at answers'
      cases answers'
      rw [wanted] at wanted'
      cases wanted'
      rw [← logged.members]
      exact attended

variable [DecidableEq κ] {action : Event ν κ ρ} {out : List (Event ν κ ρ)}

/-- The events are the actions. `wants` is the name that a request asks for. -/
def step (wants : ρ → Option ν) : Transition.Step (Rendezvous ν κ ρ) (Event ν κ ρ) (Event ν κ ρ)
  | place, .joined name member =>
    if place.members.containsKey name then none
    else some ({ place with members := place.members.insert name member }, [.joined name member])
  | place, .left name member =>
    if place.members.get name = some member then
      some ({ place with members := place.members.remove name }, [.left name member])
    else none
  | place, .waited request =>
    match wants request with
    | none => none
    | some name =>
      if place.members.containsKey name ∨ request ∈ place.waiting name then none
      else some ({ place with
        waiting := Function.update place.waiting name (place.waiting name ++ [request]) }, [.waited request])
  | place, .met request =>
    match wants request with
    | none => none
    | some name =>
      if place.members.containsKey name then (place.answer name request).map fun after => (after, [.met request])
      else none
  | place, .declined request =>
    match wants request with
    | none => none
    | some name => (place.answer name request).map fun after => (after, [.declined request])

theorem step_cases (taken : step wants place action = some (after, out)) :
    out = [action] ∧ Steps wants place action after := by
  cases action with
  | joined name member =>
    simp only [step] at taken
    split at taken
    · cases taken
    · rename_i absent
      cases taken
      exact ⟨rfl, .joined name member (by simpa [Table.containsKey] using absent)⟩
  | left name member =>
    simp only [step] at taken
    split at taken
    · rename_i present
      cases taken
      exact ⟨rfl, .left name member present⟩
    · cases taken
  | waited request =>
    simp only [step] at taken
    split at taken
    · cases taken
    · rename_i name wanted
      split at taken
      · cases taken
      · rename_i free
        cases taken
        have absent : place.members.get name = none := by simpa [Table.containsKey] using fun h => free (.inl h)
        exact ⟨rfl, .waited request name wanted absent fun waits => free (.inr waits)⟩
  | met request =>
    simp only [step] at taken
    split at taken
    · cases taken
    · rename_i name wanted
      split at taken
      · obtain ⟨place, answered, same⟩ := Option.map_eq_some_iff.mp taken
        cases same
        exact ⟨rfl, answer_steps rfl wanted answered⟩
      · cases taken
  | declined request =>
    simp only [step] at taken
    split at taken
    · cases taken
    · rename_i name wanted
      obtain ⟨place, answered, same⟩ := Option.map_eq_some_iff.mp taken
      cases same
      exact ⟨rfl, answer_steps rfl wanted answered⟩

theorem run_attended (run : Transition.Run (step wants) empty log place) :
    Logged wants log place ∧ Justified (Attended wants) log := by
  apply run.invariant (I := fun log place => Logged wants log place ∧ Justified (Attended wants) log)
  · exact ⟨⟨fun _ => rfl, fun _ => rfl⟩, justified_nil⟩
  · intro log place action after out _ holds _ taken
    obtain ⟨rfl, steps⟩ := step_cases taken
    obtain ⟨logged, attended⟩ := holds.1.step steps
    exact ⟨logged, holds.2.append ⟨attended, trivial⟩⟩

/-- Between its waiting and any answer to it, somebody joins under the name that a request waits for. -/
theorem joined_meanwhile (run : Transition.Run (step wants) empty log place) (wanted : wants request = some name)
    {before middle later : List (Event ν κ ρ)} (answers : event.answers = some request)
    (split : log = before ++ .waited request :: (middle ++ event :: later)) :
    ∃ member, .joined name member ∈ middle := by
  obtain ⟨_, attended⟩ := run_attended run
  by_contra nobody
  have still : ∀ first, first <+: middle → request ∈ backlog (turn wants name) (before ++ .waited request :: first) ∧
      holder (before ++ .waited request :: first) name = none := by
    intro first
    induction first using List.reverseRecOn with
    | nil =>
      intro _
      have free := (attended before _ _ split).waited request name rfl wanted
      refine ⟨?_, ?_⟩
      · rw [backlog_join (turn_waited wanted)]
        exact List.mem_append_right _ (List.mem_singleton.mpr rfl)
      · rw [holder_snoc, free]
        rfl
    | append_singleton first next ih =>
      intro here
      obtain ⟨rest, whole⟩ := here
      obtain ⟨waits, free⟩ := ih ⟨next :: rest, by rw [← whole, List.append_assoc]; rfl⟩
      have place := attended (before ++ .waited request :: first) next (rest ++ event :: later)
        (by rw [split, ← whole]; simp)
      rw [← List.cons_append, ← List.append_assoc]
      constructor
      · apply waits_on _ waits
        intro answers
        have held := place.answered request name answers wanted waits
        rw [free] at held
        cases held
      · apply holder_unjoined _ free
        intro member same
        exact nobody ⟨member, by rw [← whole, same]; simp⟩
  obtain ⟨waits, free⟩ := still middle (List.prefix_refl middle)
  have held := (attended (before ++ .waited request :: middle) event later (by rw [split]; simp)).answered
    request name answers wanted waits
  rw [free] at held
  cases held

theorem run_aside (idle : ∀ event ∈ out, step wants place event = some (place, [event])) :
    Transition.Run (step wants) place out place := by
  induction out using List.reverseRecOn with
  | nil => exact .start
  | append_singleton out event ih =>
    have earlier := ih fun other member => idle other (List.mem_append_left _ member)
    exact earlier.next trivial (idle event (by simp))

end Rendezvous
