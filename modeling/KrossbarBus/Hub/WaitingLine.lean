import KrossbarBus.Hub.RequestHandling

namespace KrossbarHub

variable {env : HubEnvironment} {hub after : Hub} {conn : Conn} {phase : Phase} {input : Input}
  {progress : Progress} {task : Task}

def Hub.batch (hub : Hub) (target : String) : List (String × RpcRequest) :=
  match hub.context.client_registry.get target with
  | none => []
  | some conn =>
    match hub.tasks.get conn with
    | none => []
    | some task => task.phase.batch

def Hub.line (hub : Hub) (target : String) : List (String × RpcRequest) :=
  hub.batch target ++ hub.context.waiters target

theorem batch_of_task (consistent : hub.Consistent) (selecting : hub.main = .selecting)
    (present : hub.tasks.get conn = some task) {target : String}
    (named : task.phase.registeredAs = some target) : hub.batch target = task.phase.batch := by
  have entry : hub.context.client_registry.get target = some conn := by
    rw [consistent.registry, owns_task selecting present]
    exact named
  simp [Hub.batch, entry, present]

theorem batch_of_others (consistent : hub.Consistent) (selecting : hub.main = .selecting)
    (present : hub.tasks.get conn = some task) {target : String}
    (unnamed : task.phase.registeredAs ≠ some target)
    (others : ∀ other, other ≠ conn → after.tasks.get other = hub.tasks.get other)
    (entry : after.context.client_registry.get target = hub.context.client_registry.get target) :
    after.batch target = hub.batch target := by
  unfold Hub.batch
  rw [entry]
  cases owner : hub.context.client_registry.get target with
  | none => rfl
  | some other =>
    have different : other ≠ conn := by
      intro same
      rw [same, consistent.registry, owns_task selecting present] at owner
      exact unnamed owner
    simp only [others other different]

theorem batch_advance (consistent : hub.Consistent) (selecting : hub.main = .selecting)
    (present : hub.tasks.get conn = some task)
    (resumes : Resumes env hub conn task.credentials task.phase input progress) (target : String) :
    (hub.advance conn task progress).batch target =
      if task.phase.registeredAs = some target then progress.phase.batch else hub.batch target := by
  have others : ∀ other, other ≠ conn →
      (hub.advance conn task progress).tasks.get other = hub.tasks.get other := by
    intro other different
    simp [different]
  have after := consistent.resume selecting present resumes
  have there : (hub.advance conn task progress).tasks.get conn =
      some { task with phase := progress.phase } := by simp
  rcases resumes.registration with ⟨kept, registry, _⟩ | ⟨name, request, was, now, absent, registry, _⟩
  · split
    · rename_i named
      exact batch_of_task after selecting there (by rw [kept]; exact named)
    · rename_i unnamed
      exact batch_of_others consistent selecting present unnamed others (by simp [registry])
  · have unnamed : task.phase.registeredAs ≠ some target := by
      rw [was]
      simp [Phase.registeredAs]
    rw [if_neg unnamed]
    by_cases same : target = name
    · subst same
      rw [batch_of_task after selecting there (by rw [now]; rfl)]
      simp [now, Phase.batch, Hub.batch, absent]
    · exact batch_of_others consistent selecting present unnamed others
        (by simp [registry, Table.get_insert, same])

/-- How a step of a task moves the lines: nobody moves, a request joins the line for its target, or
    the head of a line is answered. -/
inductive LineMoves (hub after : Hub) (conn : Conn) (phase : Phase) (input : Input)
    (events : List Event) : Prop
  | still (same : ∀ target, after.line target = hub.line target)
      (aside : ∀ event ∈ events, Aside (Handles hub conn phase input) event)
  | joins (target initiator : String) (request : RpcRequest)
      (asks : ∃ wait, phase = .connectLock initiator target request wait)
      (grown : after.line target = hub.line target ++ [(initiator, request)])
      (same : ∀ other, other ≠ target → after.line other = hub.line other)
      (all : events = [.connectionChecked request initiator target true, .queued target initiator request])
  | leaves (target initiator : String) (request : RpcRequest) (response : Response)
      (idle : phase.processing = none)
      (head : hub.line target = (initiator, request) :: after.line target)
      (same : ∀ other, other ≠ target → after.line other = hub.line other)
      (all : events = [.responded request response])

theorem lineMoves (consistent : hub.Consistent) (selecting : hub.main = .selecting)
    (present : hub.tasks.get conn = some task)
    (resumes : Resumes env hub conn task.credentials task.phase input progress) :
    LineMoves hub (hub.advance conn task progress) conn task.phase input progress.events := by
  have batches := batch_advance consistent selecting present resumes
  have own : ∀ {target}, task.phase.registeredAs = some target → hub.batch target = task.phase.batch :=
    batch_of_task consistent selecting present
  cases resumes.queues with
  | quiet pending batch aside =>
    refine .still ?_ aside
    intro target
    have waiters : progress.context.waiters target = hub.context.waiters target := by
      rw [HubContext.waiters, pending]
      rfl
    rw [Hub.line, Hub.line, batches, advance_context, waiters]
    split
    · rename_i named
      rw [batch, own named]
    · rfl
  | queued service_name target request wait was now allowed absent context events =>
    have batch : ∀ other, (hub.advance conn task progress).batch other = hub.batch other := by
      intro other
      rw [batches]
      split
      · rename_i named
        rw [own named, was, now]
        rfl
      · rfl
    refine .joins target service_name request ⟨wait, was⟩ ?_ ?_ events
    · simp [Hub.line, batch, context]
    · intro other different
      simp [Hub.line, batch, context, different]
  | drawn service_name waiters source drawn =>
    have named : task.phase.registeredAs = some service_name := by
      rcases source with ⟨was, _⟩ | ⟨was, _⟩ <;> rw [was] <;> rfl
    have line : hub.line service_name = waiters ++ progress.context.waiters service_name := by
      rw [Hub.line, own named]
      rcases source with ⟨was, taken, context⟩ | ⟨was, context⟩
      · simp [was, Phase.batch, taken, context]
      · simp [was, Phase.batch, context]
    have same : ∀ other, other ≠ service_name →
        (hub.advance conn task progress).line other = hub.line other := by
      intro other different
      have unnamed : task.phase.registeredAs ≠ some other := by
        rw [named]
        simp [Ne.symm different]
      have context : progress.context.waiters other = hub.context.waiters other := by
        rcases source with ⟨_, _, context⟩ | ⟨_, context⟩
        · simp [context, different]
        · rw [context]
      rw [Hub.line, Hub.line, batches, if_neg unnamed, advance_context, context]
    have now : (hub.advance conn task progress).line service_name =
        progress.phase.batch ++ progress.context.waiters service_name := by
      rw [Hub.line, batches, if_pos named, advance_context]
    rcases resolveWaiters_batch drawn with ⟨all, shape⟩ | ⟨initiator, request, e, split, _, events⟩
    · refine .still ?_ ?_
      · intro other
        by_cases this : other = service_name
        · rw [this, now, line, all]
        · exact same other this
      · rcases shape with ⟨_, events⟩ | ⟨_, _, _, _, _, events⟩ <;> simp [events, Aside]
    · refine .leaves service_name initiator request (.err e) ?_ ?_ same events
      · rcases source with ⟨was, _⟩ | ⟨was, _⟩ <;> rw [was] <;> rfl
      · rw [line, now, split]
        rfl
  | answered service_name handover pair waiters response was now context events =>
    have named : task.phase.registeredAs = some service_name := by rw [was]; rfl
    refine .leaves service_name handover.initiator handover.request response (by rw [was]; rfl) ?_ ?_
      events
    · rw [Hub.line, Hub.line, own named, batches, if_pos named, advance_context, context, was, now]
      rfl
    · intro other different
      have unnamed : task.phase.registeredAs ≠ some other := by
        rw [named]
        simp [Ne.symm different]
      rw [Hub.line, Hub.line, batches, if_neg unnamed, advance_context, context]

end KrossbarHub
