import ValueChannels.Proofs.Demo.Working

/-!
The master opens a channel. The key of the channel is new, the table has a slot for it, and the
worker sits down at a desk of its own. Main statement: `OnCourse.openChannel`.
-/

namespace ValueChannels.Demo

open Sample Exchange

variable {observed : Bool} {workers rounds index : Nat} {state : State}
  {done ahead : List (Option Event)} {dues : Nat → List (Option Event)} {after : Exchange}
  {tasks : List Task}

/-! ### The next task -/

theorem OnCourse.step_master (course : OnCourse observed workers rounds state done ahead dues)
    (more : state.tasks ≠ []) : state.step .master = state.stepMaster := by
  rw [State.step, course.notOver more]
  rfl

theorem stepMaster_idle {task : Task} (idle : state.pending = none)
    (agenda : state.tasks = task :: tasks) : state.stepMaster = state.beginTask task := by
  rw [State.stepMaster, idle, agenda]

theorem stepMaster_pending {operation : Underway} (pending : state.pending = some operation) :
    state.stepMaster = state.attempt operation State.completeTask := by
  rw [State.stepMaster, pending]

theorem Pending.idle_due {heap : Heap} {due : List (Option Event)}
    (pends : Pending heap tasks none due) : due = tasks.flatMap Task.script := by
  cases pends
  rfl

theorem OnCourse.idle (course : OnCourse observed workers rounds state done ahead dues)
    (idle : state.pending = none) (agenda : state.tasks = tasks) :
    OnCourse observed workers rounds state done (tasks.flatMap Task.script) dues := by
  have pends := course.pending
  rw [idle, agenda] at pends
  rw [← pends.idle_due]
  exact course

/-! ### Opening -/

theorem errands_opening (index opened count : Nat) (tasks : List Task) (below : index < opened) :
    errands index ((List.range' opened count).map .openChannel ++ tasks) = errands index tasks := by
  have none_ : errands index ((List.range' opened count).map .openChannel) = [] := by
    rw [errands, List.filter_eq_nil_iff]
    intro task member
    obtain ⟨other, inside, same⟩ := List.mem_map.mp member
    have least := (List.mem_range'_1.mp inside).1
    rw [← same, decide_eq_true_eq]
    show ¬other = index
    omega
  rw [errands_append, none_, List.nil_append]

theorem OnCourse.filled (course : OnCourse observed workers rounds state done ahead dues)
    (agenda : state.tasks = .openChannel index :: tasks) :
    index = state.workers.length ∧ index < workers ∧
      Stage workers rounds tasks (state.workers.length + 1) ∧
      state.exchange.registry.table.Filled state.workers.length := by
  have stage := course.stage
  rw [agenda] at stage
  obtain ⟨next, fewer, further, stage'⟩ := stage.opening
  refine ⟨next, next ▸ fewer, stage', ?_, ?_⟩
  · intro other below
    have member : other < workers := Nat.lt_trans below fewer
    have present : (state.view other).worker ≠ none := by
      have held := List.getElem?_eq_getElem below
      rw [show (state.view other).worker = some state.workers[other] from held]
      exact Option.some_ne_none _
    -- Every worker that is there has its whole itinerary ahead of it, so its channel is still open.
    have errand : (state.view other).errands = itinerary other 0 rounds := by
      have apart : other ≠ Task.worker (.openChannel index) := by
        show other ≠ index
        omega
      show errands other state.tasks = _
      rw [agenda, ← errands_other apart, further, errands_opening _ _ _ _ (by omega),
        errands_later member]
    have desk := course.desks other member
    obtain ⟨id, _, _, entry⟩ : ∃ id, (state.view other).id = some id ∧
        Names state.exchange.heap id (handle other .master) ∧
          (state.view other).entry = .live (100 + other) other := by
      cases rounds with
      | zero => exact desk.isOpen present errand (by simp)
      | succ rounds => exact desk.isOpen present errand (by simp)
    rw [show state.exchange.registry.table.entry (other + 1) = .live (100 + other) other from entry]
    rfl
  · intro other beyond
    have unused : state.exchange.registry.table.entry (other + 1) = .unused := by
      rcases Nat.lt_or_ge other workers with member | outside
      · have missing : (state.view other).worker = none := List.getElem?_eq_none beyond
        exact (course.desks other member).unused_of_absent missing
      · exact course.spare other outside
    rw [unused]
    rfl

theorem OnCourse.newKey (course : OnCourse observed workers rounds state done ahead dues)
    (filled : state.exchange.registry.table.Filled state.workers.length) :
    state.exchange.registry.table.slotOf? (100 + state.workers.length) = none := by
  cases known : state.exchange.registry.table.slotOf? (100 + state.workers.length) with
  | none => rfl
  | some slot =>
      obtain ⟨channel, held⟩ := (Table.slotOf?_eq_some course.keyed).mp known
      obtain ⟨index, here, same⟩ := course.key_of_live held
      have last : index = state.workers.length := by omega
      have spare := filled.spare index (Nat.le_of_eq last.symm)
      rw [here] at held
      rw [Table.entry_eq_live.mpr held] at spare
      cases spare

theorem view_opened {next : State} {slot : Nat} {key : Int} {other : Nat}
    (channels : next.exchange.channels = state.exchange.channels.push (Channel.opened slot key))
    (count : state.exchange.channels.size = index)
    (entry : next.exchange.registry.table.entry (other + 1) =
      state.exchange.registry.table.entry (other + 1))
    (tasks : errands other next.tasks = errands other state.tasks)
    (worker : next.workers[other]? = state.workers[other]?)
    (id : next.ids[other]? = state.ids[other]?) (different : other ≠ index) :
    next.view other = state.view other := by
  have queue (side : Side) : next.exchange.queue? (toward other side) =
      state.exchange.queue? (toward other side) := by
    rcases Nat.lt_or_gt_of_ne different with below | beyond
    · apply queue?_pushed_old channels
      rw [count]
      exact below
    · have missing : state.exchange.queue? (toward other side) = none := by
        have outside : state.exchange.channels.size ≤ other := by omega
        rw [queue?, show (toward other side).channel = other from rfl,
          Array.getElem?_eq_none outside]
        rfl
      rw [missing]
      apply queue?_pushed_beyond channels
      rw [count]
      exact beyond
  simp only [State.view, tasks, worker, id, queue, entry]

theorem getElem?_concat_ne {α : Type} {list : List α} {last : α} {place : Nat}
    (different : place ≠ list.length) : (list ++ [last])[place]? = list[place]? := by
  rcases Nat.lt_or_gt_of_ne different with below | beyond
  · exact List.getElem?_append_left below
  · have longer : (list ++ [last]).length ≤ place := by
      rw [List.length_append]
      exact beyond
    rw [List.getElem?_eq_none longer, List.getElem?_eq_none (Nat.le_of_lt beyond)]

/-- The state with one more worker. -/
def State.joined (state : State) (last : Exchange) (tasks : List Task) (id : Ref) (index : Nat) :
    State :=
  { state with exchange := last, tasks, pending := none, ids := state.ids ++ [id]
               workers := state.workers ++ [employee index .start] }

section Joined

variable {last : Exchange} {id : Ref} {key : Int}
  (course : OnCourse observed workers rounds state done ahead dues)
  (agenda : state.tasks = .openChannel index :: tasks) (place : index = state.workers.length)
  (channels : last.channels = state.exchange.channels.push (Channel.opened (index + 1) key))

include course agenda place channels

theorem OnCourse.newDesk (inside : index < workers)
    (live : last.registry.table.entry (index + 1) = .live (100 + index) index)
    (names : Names last.heap id (handle index .master)) :
    Desk last.heap rounds index ((state.joined last tasks id index).view index) (dues index) := by
  have errand : (state.view index).errands = .openChannel index :: errands index tasks := by
    show errands index state.tasks = _
    rw [agenda]
    exact errands_cons rfl tasks
  obtain ⟨tail, due⟩ := (course.desks index inside).openChannel errand
  have queue (side : Side) : last.queue? (toward index side) = some Slot.empty := by
    apply queue?_pushed_last channels
    rw [course.channels]
    exact place
  have here : (state.workers ++ [employee index .start])[index]? =
      some (employee index .start) := by
    rw [place]
    exact List.getElem?_concat_length
  have known : (state.ids ++ [id])[index]? = some id := by
    rw [place, ← course.ids]
    exact List.getElem?_concat_length
  have seat : (state.joined last tasks id index).view index =
      .seated index (itinerary index 0 rounds) .start id Slot.empty Slot.empty := by
    simp only [State.joined, State.view, View.seated, tail, queue, live, here, known]
  rw [seat, due]
  exact .hears names .start (.ready 0 rounds)

theorem OnCourse.oldDesk (ages : state.exchange.heap.Ages last.heap)
    (others : ∀ other, other ≠ index + 1 →
      last.registry.table.entry other = state.exchange.registry.table.entry other)
    {other : Nat} (member : other < workers) (different : other ≠ index) :
    Desk last.heap rounds other ((state.joined last tasks id index).view other) (dues other) := by
  have view : (state.joined last tasks id index).view other = state.view other := by
    apply view_opened channels (course.channels.trans place.symm)
    · exact others (other + 1) (by omega)
    · rw [agenda]
      exact errands_other different tasks
    · exact getElem?_concat_ne (place ▸ different)
    · rw [place, ← course.ids] at different
      exact getElem?_concat_ne different
    · exact different
  rw [view]
  exact (course.desks other member).aged ages

end Joined

/-- A channel and a context more, and a worker at its desk. -/
theorem OnCourse.admits {last : Exchange} {id : Ref} {key : Int} {entry : Option Event}
    (course : OnCourse observed workers rounds state done
      (entry :: tasks.flatMap Task.script) dues)
    (agenda : state.tasks = .openChannel index :: tasks) (place : index = state.workers.length)
    (stage : Stage workers rounds tasks (state.workers.length + 1))
    (ages : state.exchange.heap.Ages last.heap)
    (staffed : last.Staffed (state.workers.length + 1 + 1))
    (config : last.registry.config = state.exchange.registry.config)
    (log : last.registry.log = state.exchange.registry.log.map (entry.toList ++ ·))
    (channels : last.channels = state.exchange.channels.push (Channel.opened (index + 1) key))
    (spans : Table.Spans last.registry.table.capacity last.registry.config.growFactor workers)
    (live : last.registry.table.entry (index + 1) = .live (100 + index) index)
    (others : ∀ other, other ≠ index + 1 →
      last.registry.table.entry other = state.exchange.registry.table.entry other)
    (names : Names last.heap id (handle index .master)) :
    OnCourse observed workers rounds (state.joined last tasks id index) (done ++ [entry])
      (tasks.flatMap Task.script) dues := by
  have inside : index < workers := by
    rw [place]
    exact stage.bound
  have count : (state.joined last tasks id index).workers.length = state.workers.length + 1 :=
    List.length_append
  constructor
  · exact course.builtins
  · exact course.running
  · exact ages.holds course.null (by simp)
  · exact Nat.le_trans course.room ages.size
  · exact config ▸ course.grows
  · exact spans
  · rw [count]
    exact staffed
  · rw [count, ← course.channels]
    exact (congrArg Array.size channels).trans (Array.size_push ..)
  · rw [count, ← course.ids]
    exact List.length_append
  · rw [count]
    exact stage
  · intro other beyond
    exact (others (other + 1) (by omega)).trans (course.spare other beyond)
  · rw [← course.said, agenda]
    rfl
  · exact log.trans ((congrArg _ course.log).trans (log_done observed done entry))
  · exact .idle tasks
  · intro other member
    by_cases same : other = index
    · rw [same]
      exact course.newDesk agenda place channels inside live names
    · exact course.oldDesk agenda place channels ages others member same
  · rw [List.append_assoc]
    exact course.due

/-- The master opens the channel to the next worker, which starts. -/
theorem OnCourse.openChannel (course : OnCourse observed workers rounds state done ahead dues)
    (fits : 100 + workers < 2147483648) (idle : state.pending = none)
    (agenda : state.tasks = .openChannel index :: tasks) :
    Acts observed workers rounds state done .master := by
  obtain ⟨place, inside, stage, filled⟩ := course.filled agenda
  have fits' : 100 + index < 2147483648 := by omega
  have unknown := course.newKey filled
  rw [← place] at filled unknown
  have room := filled.hasRoom course.spans inside
  obtain ⟨table, opens, live, others⟩ :=
    Table.filled_open? course.grows filled (by omega) unknown room state.exchange.channels.size
  let argument := state.exchange.heap.alloc (.vector (.integer [State.workerKey index]))
  let handed : Exchange := { state.exchange with heap := argument.2 }
  have given : Data handed.heap.Holds argument.1 (.integer [State.workerKey index]) :=
    state.exchange.heap.holds_alloc _
  obtain ⟨id, after, called, names, goes, same⟩ := call_create fits' given opens
  have allocates : state.exchange.Goes handed none :=
    .of_ages (Heap.Retains.alloc state.exchange.heap _).ages
  have whole := allocates.none_trans goes
  have staffed := whole.staffed _ course.staffed
  let name := "worker-" ++ toString index
  let last := (after.addContext name .packed).2
  obtain ⟨staffed', retains⟩ := staffed.addContext name
  have channels : last.channels = state.exchange.channels.push
      (Channel.opened (index + 1) (100 + index)) := congrArg Layout.channels same
  have table' : last.registry.table = table := congrArg Layout.table same
  have joined := (course.idle idle agenda).admits agenda place stage
    (whole.heap.trans retains.ages) staffed' whole.config whole.log channels
    (by
      rw [table', show last.registry.config = _ from whole.config]
      exact course.spans.open? course.grows opens)
    (by rw [table', live, course.channels, ← place]) (fun other different => by
      rw [table']
      exact others other different) (names.aged retains.ages)
  refine ⟨_, _, _, _, ?_, joined⟩
  have more : state.tasks ≠ [] := by
    rw [agenda]
    exact List.cons_ne_nil _ _
  have size : (after.addContext name .packed).1 = contextAt index .worker := by
    show after.contexts.size = _
    rw [staffed.size, ← place]
    rfl
  rw [course.step_master more, stepMaster_idle idle agenda]
  have opened := call_eq { state with exchange := handed } course.builtins called
  apply congrArg some
  rw [State.openChannel]
  refine (opened _).trans ?_
  simp only [State.joined, State.finishTask, agenda, List.tail_cons, employee, ← size]
  rfl

end ValueChannels.Demo
