import KrossbarBus.Transition.History
import Mathlib.Data.List.Induction

namespace Transition

variable {ε ρ : Type*}

inductive QueueOp (ρ : Type*)
  | join (request : ρ)
  | leave (request : ρ)
  | skip

variable [DecidableEq ρ]

def QueueOp.apply (waiting : List ρ) : QueueOp ρ → List ρ
  | .join request => waiting ++ [request]
  | .leave request => waiting.erase request
  | .skip => waiting

/-- The requests that have joined and not left, in the order in which they joined. -/
def backlog (op : ε → QueueOp ρ) (log : List ε) : List ρ :=
  log.foldl (fun waiting event => (op event).apply waiting) []

def Fifo (op : ε → QueueOp ρ) (before : List ε) (event : ε) : Prop :=
  ∀ request, op event = .leave request → request ∈ backlog op before →
    (backlog op before).head? = some request

variable {op : ε → QueueOp ρ} {log out : List ε}

@[simp] theorem backlog_nil : backlog op [] = [] := rfl

theorem backlog_snoc (event : ε) : backlog op (log ++ [event]) = (op event).apply (backlog op log) := by
  simp [backlog]

theorem backlog_join {event : ε} {request : ρ} (joins : op event = .join request) :
    backlog op (log ++ [event]) = backlog op log ++ [request] := by
  rw [backlog_snoc, joins]
  rfl

theorem backlog_leave {event : ε} {request : ρ} {rest : List ρ} (leaves : op event = .leave request)
    (head : backlog op log = request :: rest) : backlog op (log ++ [event]) = rest := by
  rw [backlog_snoc, leaves, head]
  exact List.erase_cons_head request rest

theorem backlog_joined {request : ρ} (waits : request ∈ backlog op log) :
    ∃ event ∈ log, op event = .join request := by
  induction log using List.reverseRecOn with
  | nil => cases waits
  | append_singleton log event ih =>
    rw [backlog_snoc] at waits
    have split : request ∈ backlog op log ∨ op event = .join request := by
      cases joins : op event with
      | join other =>
        rw [joins] at waits
        rcases List.mem_append.mp waits with old | new
        · exact .inl old
        · exact .inr (by rw [List.mem_singleton.mp new])
      | leave other =>
        rw [joins] at waits
        exact .inl (List.mem_of_mem_erase waits)
      | skip =>
        rw [joins] at waits
        exact .inl waits
    rcases split with old | here
    · obtain ⟨earlier, member, joined⟩ := ih old
      exact ⟨earlier, List.mem_append_left _ member, joined⟩
    · exact ⟨event, by simp, here⟩

/-- An event that moves nobody of the queue. -/
def Unmoved (op : ε → QueueOp ρ) (waiting : List ρ) (event : ε) : Prop :=
  op event = .skip ∨ ∃ request, op event = .leave request ∧ request ∉ waiting

theorem backlog_unmoved (unmoved : ∀ event ∈ out, Unmoved op (backlog op log) event) :
    backlog op (log ++ out) = backlog op log := by
  induction out generalizing log with
  | nil => rw [List.append_nil]
  | cons event rest ih =>
    have first : backlog op (log ++ [event]) = backlog op log := by
      rw [backlog_snoc]
      rcases unmoved event List.mem_cons_self with skips | ⟨request, leaves, absent⟩
      · rw [skips]
        rfl
      · rw [leaves]
        exact List.erase_of_not_mem absent
    have tail : backlog op ((log ++ [event]) ++ rest) = backlog op (log ++ [event]) := by
      apply ih
      intro later member
      rw [first]
      exact unmoved later (List.mem_cons_of_mem event member)
    rw [first] at tail
    simpa using tail

theorem fifo_unmoved (unmoved : ∀ event ∈ out, Unmoved op (backlog op log) event) :
    JustifiedAfter (Fifo op) log out := by
  induction out generalizing log with
  | nil => exact justifiedAfter_nil
  | cons event rest ih =>
    have here := unmoved event List.mem_cons_self
    have first : backlog op (log ++ [event]) = backlog op log :=
      backlog_unmoved fun other member => by rw [List.mem_singleton.mp member]; exact here
    constructor
    · intro request leaves present
      rcases here with skips | ⟨other, leaves', absent⟩
      · rw [skips] at leaves
        cases leaves
      · rw [leaves'] at leaves
        cases leaves
        exact absurd present absent
    · apply ih
      intro later member
      rw [first]
      exact unmoved later (List.mem_cons_of_mem event member)

theorem fifo_join {event : ε} {request : ρ} (joins : op event = .join request) : Fifo op log event := by
  intro other leaves _
  rw [joins] at leaves
  cases leaves

end Transition
