import ValueChannels.Proofs.Demo.Desks

/-!
The invariant of a run. The steps that have been taken and those that are still due are together
the steps of the whole run, in whatever order they were taken. Main statements: `OnCourse`, and
`OnCourse.worker_goes` and `OnCourse.master_goes`, by which a step of an actor has to be followed at
the desk of one worker only.
-/

namespace ValueChannels.Demo

open Sample Exchange

/-! ### Exchanges that differ in one channel -/

/-- Only the channel to one worker may have changed. -/
structure Apart (before after : Exchange) (index : Nat) : Prop where
  size : after.channels.size = before.channels.size
  queue : ∀ other side, other ≠ index →
    after.queue? (toward other side) = before.queue? (toward other side)
  entry : ∀ other, other ≠ index →
    after.registry.table.entry (other + 1) = before.registry.table.entry (other + 1)
  capacity : after.registry.table.capacity = before.registry.table.capacity

variable {before after : Exchange} {index : Nat}

theorem apart_of_layout (same : after.layout = before.layout) (index : Nat) :
    Apart before after index := by
  have slots := SameSlots.of_layout same
  constructor
  · exact slots.size
  · exact fun other side _ => queue?_congr same (toward other side)
  · exact fun other _ => congrArg (fun table => Table.entry table (other + 1)) slots.table
  · exact congrArg Table.capacity slots.table

theorem apart_of_written {side : Side} {slot : Slot Message}
    (same : after.layout = (before.setQueue (toward index side) slot).layout) :
    Apart before after index := by
  have slots := sameSlots_of_written same
  constructor
  · exact slots.size
  · intro other side' different
    apply queue?_written_other same
    intro equal
    exact different (congrArg QueueId.channel equal)
  · exact fun other _ => congrArg (fun table => Table.entry table (other + 1)) slots.table
  · exact congrArg Table.capacity slots.table

theorem ends_written {side : Side} {found slot : Slot Message}
    (same : after.layout = (before.setQueue (toward index side) slot).layout)
    (present : before.queue? (toward index side) = some found) :
    after.queue? (toward index side) = some slot ∧
      after.queue? (toward index side.other) = before.queue? (toward index side.other) := by
  have apart : toward index side.other ≠ toward index side := by
    intro equal
    have sides : side.other = side := congrArg QueueId.toward equal
    cases side <;> cases sides
  exact ⟨queue?_written_same present same, queue?_written_other same _ apart⟩

theorem apart_shut (same : after.layout = (shut before index).layout) :
    Apart before after index := by
  have channels : after.channels = (shut before index).channels := congrArg Layout.channels same
  have table : after.registry.table = (shut before index).registry.table :=
    congrArg Layout.table same
  constructor
  · rw [channels]
    exact (size_channels_closeQueue _ _).trans (size_channels_closeQueue _ _)
  · intro other side different
    have apart (side' : Side) : toward other side ≠ toward index side' := fun equal =>
      different (congrArg QueueId.channel equal)
    rw [queue?_congr same, shut, closeQueue_eq _ _ Slot.empty, queue?_setQueue_other _ (apart _),
      closeQueue_eq _ _ Slot.empty, queue?_setQueue_other _ (apart _)]
    rfl
  · intro other different
    have elsewhere : other + 1 ≠ index + 1 := fun equal => different (Nat.succ.inj equal)
    rw [table]
    exact Table.entry_setEntry_other elsewhere
  · rw [table]
    exact Table.capacity_setEntry _ _ _

/-! ### The course of a run -/

/-- What holds of a state after some steps: every worker is at its desk, nothing has failed, what
was done and what is still due are the steps of a run, and the record tells what was done. -/
structure OnCourse (observed : Bool) (workers rounds : Nat) (state : State)
    (done ahead : List (Option Event)) (dues : Nat → List (Option Event)) : Prop where
  builtins : state.builtins = Builtins.channels
  running : state.failure = none
  null : state.exchange.heap.Holds Ref.null .null none
  room : 2 ≤ state.exchange.heap.size
  grows : 2 ≤ state.exchange.registry.config.growFactor
  spans : Table.Spans state.exchange.registry.table.capacity
    state.exchange.registry.config.growFactor workers
  staffed : state.exchange.Staffed (state.workers.length + 1)
  channels : state.exchange.channels.size = state.workers.length
  ids : state.ids.length = state.workers.length
  stage : Stage workers rounds state.tasks state.workers.length
  spare : ∀ index, workers ≤ index →
    state.exchange.registry.table.entry (index + 1) = .unused
  said : state.lines.reverse ++ state.tasks.filterMap Task.line? =
    (agenda workers rounds).filterMap Task.line?
  log : state.exchange.registry.log =
    if observed then some done.reduceOption.reverse else none
  pending : Pending state.exchange.heap state.tasks state.pending ahead
  desks : ∀ index, index < workers →
    Desk state.exchange.heap rounds index (state.view index) (dues index)
  due : (done ++ (ahead ++ (List.range workers).flatMap dues)).Perm (steps workers rounds)

variable {observed : Bool} {workers rounds : Nat} {state : State}
  {done ahead rest : List (Option Event)} {dues : Nat → List (Option Event)} {entry : Option Event}

theorem log_done (observed : Bool) (done : List (Option Event)) (entry : Option Event) :
    (if observed then some done.reduceOption.reverse else none).map (entry.toList ++ ·) =
      if observed then some (done ++ [entry]).reduceOption.reverse else none := by
  cases observed with
  | false => rfl
  | true =>
      rw [List.reduceOption_append, List.reverse_append]
      cases entry <;> rfl

/-- What a step about one worker leaves as it is. -/
structure Steady (state next : State) (index : Nat) : Prop where
  builtins : next.builtins = state.builtins
  failure : next.failure = state.failure
  ids : next.ids = state.ids
  length : next.workers.length = state.workers.length
  apart : Apart state.exchange next.exchange index
  errands : ∀ other, other ≠ index → errands other next.tasks = errands other state.tasks
  workers : ∀ other, other ≠ index → next.workers[other]? = state.workers[other]?

theorem Steady.view {next : State} (steady : Steady state next index) {other : Nat}
    (different : other ≠ index) : next.view other = state.view other := by
  simp only [State.view, steady.errands other different, steady.workers other different, steady.ids,
    steady.apart.queue other _ different, steady.apart.entry other different]

/-- One step that is due. What it changes is about one worker. -/
theorem OnCourse.goes {next : State} {ahead' : List (Option Event)}
    {dues' : Nat → List (Option Event)}
    (course : OnCourse observed workers rounds state done ahead dues)
    (goes : state.exchange.Goes next.exchange entry) (steady : Steady state next index)
    (inside : index < workers) (stage : Stage workers rounds next.tasks next.workers.length)
    (said : next.lines.reverse ++ next.tasks.filterMap Task.line? =
      state.lines.reverse ++ state.tasks.filterMap Task.line?)
    (pending : Pending next.exchange.heap next.tasks next.pending ahead')
    (desk : Desk next.exchange.heap rounds index (next.view index) (dues' index))
    (others : ∀ other, other ≠ index → dues' other = dues other)
    (due : (entry :: (ahead' ++ (List.range workers).flatMap dues')).Perm
      (ahead ++ (List.range workers).flatMap dues)) :
    OnCourse observed workers rounds next (done ++ [entry]) ahead' dues' := by
  constructor
  · exact steady.builtins.trans course.builtins
  · exact steady.failure.trans course.running
  · exact goes.heap.holds course.null (by simp)
  · exact Nat.le_trans course.room goes.heap.size
  · rw [goes.config]
    exact course.grows
  · rw [steady.apart.capacity, goes.config]
    exact course.spans
  · rw [steady.length]
    exact goes.staffed _ course.staffed
  · rw [steady.length]
    exact steady.apart.size.trans course.channels
  · rw [steady.length, steady.ids]
    exact course.ids
  · exact stage
  · intro other beyond
    have different : other ≠ index := by omega
    exact (steady.apart.entry other different).trans (course.spare other beyond)
  · exact said.trans course.said
  · rw [goes.log, course.log, log_done]
  · exact pending
  · intro other member
    -- The other workers see nothing of the step but an older heap.
    by_cases same : other = index
    · rw [same]
      exact desk
    · rw [steady.view same, others other same]
      exact (course.desks other member).aged goes.heap
  · have whole := (due.append_left done).trans course.due
    rw [List.append_assoc]
    exact whole

/-- A worker takes the step that is due. -/
theorem OnCourse.worker_goes {phase : WorkerPhase}
    (course : OnCourse observed workers rounds state done ahead dues) (inside : index < workers)
    (due : dues index = entry :: rest) (goes : state.exchange.Goes after entry)
    (apart : Apart state.exchange after index)
    (desk : Desk after.heap rounds index
      (({ state with exchange := after } : State).setPhase index phase |>.view index) rest) :
    ∃ dues', OnCourse observed workers rounds
      (({ state with exchange := after } : State).setPhase index phase) (done ++ [entry]) ahead
        dues' := by
  have length : (state.workers.modify index fun worker => { worker with phase }).length =
      state.workers.length := List.length_modify ..
  have steady : Steady state (({ state with exchange := after } : State).setPhase index phase)
      index := by
    constructor
    · rfl
    · rfl
    · rfl
    · exact length
    · exact apart
    · exact fun other different => rfl
    · exact fun other different => List.getElem?_modify_ne _ _ (Ne.symm different)
  -- What is due for the worker loses its first step, which joins what has been done.
  have moved : ((List.range workers).flatMap dues).Perm
      (entry :: (List.range workers).flatMap (Function.update dues index rest)) := by
    apply flatMap_perm_cons inside
    · rw [Function.update_self]
      exact due
    · intro other different
      exact Function.update_of_ne different ..
  refine ⟨Function.update dues index rest, course.goes goes steady inside ?_ rfl
    (course.pending.aged goes.heap) ?_ ?_ ?_⟩
  · rw [State.setPhase, length]
    exact course.stage
  · rw [Function.update_self]
    exact desk
  · intro other different
    exact Function.update_of_ne different ..
  · exact List.perm_middle.symm.trans (moved.symm.append_left ahead)

/-- The master takes the step that is due, and the worker that the step is about stays where it is
or has got something. -/
theorem OnCourse.master_goes {tasks : List Task} {pending : Option Underway} {lines : List String}
    (course : OnCourse observed workers rounds state done (entry :: rest) dues)
    (inside : index < workers) (goes : state.exchange.Goes after entry)
    (apart : Apart state.exchange after index)
    (errands : ∀ other, other ≠ index → errands other tasks = errands other state.tasks)
    (stage : Stage workers rounds tasks state.workers.length)
    (said : lines.reverse ++ tasks.filterMap Task.line? =
      state.lines.reverse ++ state.tasks.filterMap Task.line?)
    (pends : Pending after.heap tasks pending rest)
    (desk : Desk after.heap rounds index
      (State.view { state with exchange := after, tasks, pending, lines } index) (dues index)) :
    OnCourse observed workers rounds { state with exchange := after, tasks, pending, lines }
      (done ++ [entry]) rest dues :=
  course.goes goes ⟨rfl, rfl, rfl, rfl, apart, errands, fun _ _ => rfl⟩ inside stage said pends desk
    (fun _ _ => rfl) (.refl _)

end ValueChannels.Demo
