import ValueChannels.Proofs.Demo.Opening

/-!
The steps of the master. It takes the step that is due for its next task, unless the task is about
a worker whose turn it is. Main statements: `OnCourse.master_acts`, and `OnCourse.step` for all
actors.
-/

namespace ValueChannels.Demo

open Sample Exchange

variable {observed : Bool} {workers rounds index round : Nat} {state : State}
  {done ahead rest : List (Option Event)} {dues : Nat → List (Option Event)}
  {entry : Option Event} {after : Exchange} {tasks : List Task} {phase : WorkerPhase}
  {id : Ref} {toWorker toMaster : Slot Message}

theorem OnCourse.begins {pending : Option Underway}
    (course : OnCourse observed workers rounds state done (none :: rest) dues)
    (inside : index < workers) (goes : state.exchange.Goes after none)
    (same : after.layout = state.exchange.layout)
    (pends : Pending after.heap state.tasks pending rest) :
    OnCourse observed workers rounds { state with exchange := after, pending } (done ++ [none]) rest
      dues := by
  have view : State.view { state with exchange := after, pending } index = state.view index := by
    have table : after.registry.table = state.exchange.registry.table :=
      congrArg Layout.table same
    simp only [State.view, queue?_congr same, table]
  apply course.master_goes inside goes (apart_of_layout same index) (fun _ _ => rfl) course.stage
    rfl pends
  rw [view]
  exact (course.desks index inside).aged goes.heap

theorem view_finishTask {task : Task} {lines : List String}
    (seat : state.view index =
      .seated index (task :: errands index tasks) phase id toWorker toMaster)
    {toWorker' toMaster' : Slot Message}
    (worker : after.queue? (toward index .worker) = some toWorker')
    (master : after.queue? (toward index .master) = some toMaster')
    (table : after.registry.table = state.exchange.registry.table) :
    State.view { state with exchange := after, tasks, pending := none, lines } index =
      .seated index (errands index tasks) phase id toWorker' toMaster' := by
  have held : state.workers[index]? = some (employee index phase) := congrArg View.worker seat
  have id_ : state.ids[index]? = some id := congrArg View.id seat
  have entry_ : state.exchange.registry.table.entry (index + 1) = .live (100 + index) index :=
    congrArg View.entry seat
  simp only [State.view, View.seated, held, id_, table, entry_, worker, master]

/-- A task of the master about a worker that has been there since all channels were opened. -/
theorem OnCourse.atHand {task : Task}
    (course : OnCourse observed workers rounds state done ahead dues) (index : Nat)
    (agenda : state.tasks = task :: tasks) (work : task.opens = false)
    (about : task.worker = index) :
    state.step .master = state.stepMaster ∧ index < workers ∧
      Stage workers rounds tasks state.workers.length ∧
      errands index state.tasks = task :: errands index tasks ∧
      ∃ worker, state.workers[index]? = some worker := by
  have stage := course.stage
  rw [agenda] at stage
  obtain ⟨all, inside, further⟩ := stage.task work
  rw [about] at inside
  have more : state.tasks ≠ [] := by
    rw [agenda]
    exact List.cons_ne_nil _ _
  have present : index < state.workers.length := by
    rw [all]
    exact inside
  refine ⟨course.step_master more, inside, further, ?_, _, List.getElem?_eq_getElem present⟩
  rw [agenda]
  exact errands_cons about tasks

theorem OnCourse.channelOpen {task : Task}
    (course : OnCourse observed workers rounds state done ahead dues) (index : Nat)
    (agenda : state.tasks = task :: tasks) (work : task.opens = false)
    (about : task.worker = index) (further : task ≠ .closeChannel index) :
    Names state.exchange.heap (state.id index) (handle index .master) ∧
      state.exchange.registry.table.slot? (index + 1) = some (.live (100 + index) index) ∧
      ∃ owner, state.exchange.contexts[contextAt index .master]? = some owner ∧
        owner.Equipped state.exchange.heap ∧ owner.interrupt.raised = false := by
  obtain ⟨_, inside, _, errand, worker, held⟩ := course.atHand index agenda work about
  have present : (state.view index).worker ≠ none := by
    rw [show (state.view index).worker = some worker from held]
    exact Option.some_ne_none worker
  obtain ⟨id, known, names, entry⟩ := (course.desks index inside).isOpen present errand further
  have known : state.ids[index]? = some id := known
  refine ⟨?_, Table.entry_eq_live.mp entry, course.staffed.owner (Nat.zero_lt_succ _)⟩
  rw [State.id, known]
  exact names

theorem startSending_begun (state : State) {value : Ref} {message : Message} {owner : Context}
    {heap : Heap} {key : Int} (fits : 100 + index < 2147483648)
    (builtins : state.builtins = Builtins.channels)
    (names : Names state.exchange.heap (state.id index) (handle index .master))
    (live : state.exchange.registry.table.slot? (index + 1) = some (.live key index))
    (holder : state.exchange.contexts[contextAt index .master]? = some owner)
    (converted : Message.ofValue owner state.exchange.heap value = (.ok message, heap))
    (ages : state.exchange.heap.Ages heap) :
    ∃ token after, state.startSending index value =
        { state with exchange := after, pending := some (sending index token .master message) } ∧
      state.exchange.Goes after none ∧ after.layout = state.exchange.layout ∧
      after.heap = heap := by
  obtain ⟨token, after, called, goes, same, kept⟩ :=
    call_send fits names live holder converted ages
  have begun := call_eq state builtins called
  refine ⟨token, after, ?_, goes, same, kept⟩
  rw [State.startSending]
  exact begun _

theorem OnCourse.sendMessage (course : OnCourse observed workers rounds state done ahead dues)
    (fits : 100 + workers < 2147483648) (idle : state.pending = none)
    (agenda : state.tasks = .sendMessage round index :: tasks) :
    Acts observed workers rounds state done .master := by
  obtain ⟨steps, inside, _⟩ := course.atHand index agenda rfl rfl
  obtain ⟨names, live, owner, holder, equipped, _⟩ := course.channelOpen index agenda rfl rfl
    (by simp)
  have fits' : 100 + index < 2147483648 := by omega
  have environments : state.environments = owner.environments := by
    rw [State.environments, show state.exchange.contexts[State.masterContext]? = some owner from
      holder]
    rfl
  let made := Sample.message state.exchange.heap state.environments index round
  let handed : Exchange := { state.exchange with heap := made.2 }
  obtain ⟨shown, retains⟩ : Shows made.2.Holds index round made.1 ∧
      state.exchange.heap.Retains made.2 :=
    shows_message state.exchange.heap state.environments (environments ▸ equipped.global) index
      round
  obtain ⟨message, heap, converted, travels, onward⟩ :=
    travels_ofValue (equipped_retained retains equipped) shown
  obtain ⟨token, after, begun, goes, same, kept⟩ :=
    startSending_begun { state with exchange := handed } fits' course.builtins
      (names.aged retains.ages) live holder converted onward.ages
  have whole : state.exchange.Goes after none := (Goes.of_ages retains.ages).none_trans goes
  have pends : Pending after.heap state.tasks (some (sending index token .master message))
      (some (moved .send index .master (form round)) :: tasks.flatMap Task.script) := by
    rw [agenda, kept]
    exact .sends travels
  refine ⟨_, _, _, _, ?_, (course.idle idle agenda).begins inside whole same pends⟩
  rw [steps, stepMaster_idle idle agenda]
  exact congrArg some begun

theorem converts_null (owner : Context) {heap : Heap} (null : heap.Holds Ref.null .null none) :
    ∃ after, Message.ofValue owner heap Ref.null = (.ok (.plain Ref.null), after) ∧
      heap.Retains after := by
  obtain ⟨depth, bound⟩ := Node.depthBound_eq_succ heap
  have retains := Heap.Retains.makeShared heap Ref.null
  have bare := (retains.holds null).attributes
  refine ⟨(heap.makeShared Ref.null).2, ?_, retains⟩
  simp only [Message.ofValue, bound, Message.convertWithin, bind, EStateM.bind, read_heap,
    null.body, Message.convertPlain, read_mark, bare]
  rfl

theorem OnCourse.dismiss (course : OnCourse observed workers rounds state done ahead dues)
    (fits : 100 + workers < 2147483648) (idle : state.pending = none)
    (agenda : state.tasks = .dismiss index :: tasks) :
    Acts observed workers rounds state done .master := by
  obtain ⟨steps, inside, _⟩ := course.atHand index agenda rfl rfl
  obtain ⟨names, live, owner, holder, _⟩ := course.channelOpen index agenda rfl rfl
    (by simp)
  have fits' : 100 + index < 2147483648 := by omega
  obtain ⟨heap, converted, retains⟩ := converts_null owner course.null
  obtain ⟨token, after, begun, goes, same, _⟩ :=
    startSending_begun state fits' course.builtins names live holder converted retains.ages
  have pends : Pending after.heap state.tasks
      (some (sending index token .master (.plain Ref.null)))
      (some (moved .send index .master "plain") :: tasks.flatMap Task.script) := by
    rw [agenda]
    exact .dismisses
  refine ⟨_, _, _, _, ?_, (course.idle idle agenda).begins inside goes same pends⟩
  rw [steps, stepMaster_idle idle agenda]
  exact congrArg some begun

theorem OnCourse.collectAnswer (course : OnCourse observed workers rounds state done ahead dues)
    (fits : 100 + workers < 2147483648) (idle : state.pending = none)
    (agenda : state.tasks = .collectAnswer round index :: tasks) :
    Acts observed workers rounds state done .master := by
  obtain ⟨steps, inside, _⟩ := course.atHand index agenda rfl rfl
  obtain ⟨names, live, owner, holder, _⟩ := course.channelOpen index agenda rfl rfl
    (by simp)
  have fits' : 100 + index < 2147483648 := by omega
  obtain ⟨token, after, called, goes, same⟩ := call_receive fits' names live holder
  have pends : Pending after.heap state.tasks (some (receiving index token .master))
      (some (moved .receive index .master (answerForm round)) :: tasks.flatMap Task.script) := by
    rw [agenda]
    exact .collects
  refine ⟨_, _, _, _, ?_, (course.idle idle agenda).begins inside goes same pends⟩
  rw [steps, stepMaster_idle idle agenda]
  exact congrArg some (call_eq state course.builtins called _)

/-! ### Ending a task -/

/-- A task has been done. What was said goes with the tasks that are left. -/
theorem OnCourse.finishes {task : Task} {lines : List String}
    (course : OnCourse observed workers rounds state done
      (entry :: tasks.flatMap Task.script) dues)
    (index : Nat) (agenda : state.tasks = task :: tasks) (about : task.worker = index)
    (inside : index < workers)
    (stage : Stage workers rounds tasks state.workers.length)
    (goes : state.exchange.Goes after entry) (apart : Apart state.exchange after index)
    (said : lines.reverse ++ tasks.filterMap Task.line? =
      state.lines.reverse ++ (task :: tasks).filterMap Task.line?)
    (desk : Desk after.heap rounds index
      (State.view { state with exchange := after, tasks, pending := none, lines } index)
        (dues index)) :
    OnCourse observed workers rounds
      { state with exchange := after, tasks, pending := none, lines } (done ++ [entry])
        (tasks.flatMap Task.script) dues := by
  have others (other : Nat) (different : other ≠ index) :
      errands other tasks = errands other state.tasks := by
    rw [agenda]
    exact errands_other (about ▸ different) tasks
  rw [← agenda] at said
  exact course.master_goes inside goes apart others stage said (.idle tasks) desk

theorem OnCourse.delivers {task : Task} {token : Nat} {message : Message}
    {before later : List (Option Event)}
    (course : OnCourse observed workers rounds state done
      (some (moved .send index .master message.form) :: tasks.flatMap Task.script) dues)
    (pending : state.pending = some (sending index token .master message))
    (agenda : state.tasks = task :: tasks) (work : task.opens = false)
    (about : task.worker = index) (further : task ≠ .closeChannel index)
    (mute : task.line? = none)
    (ends : ∀ current : State, current.tasks = task :: tasks →
      State.completeTask Ref.null current = current.finishTask)
    (seat : state.view index =
      .seated index (task :: errands index tasks) phase id Slot.empty Slot.empty)
    (names : Names state.exchange.heap id (handle index .master))
    (hearing : Hearing state.exchange.heap index phase before)
    (due : dues index = before ++ later)
    (board : Board state.exchange.heap index (errands index tasks) (full message) Slot.empty
      later) :
    Acts observed workers rounds state done .master := by
  obtain ⟨steps, inside, stage, _⟩ := course.atHand index agenda work about
  obtain ⟨_, _, owner, holder, _⟩ := course.channelOpen index agenda work about further
  obtain ⟨after, sent, goes, same⟩ :=
    attempt_sending token .master holder message (congrArg View.toWorker seat)
  obtain ⟨worker, kept⟩ := ends_written same (congrArg View.toWorker seat)
  have master : after.queue? (toward index .master) = some Slot.empty :=
    kept.trans (congrArg View.toMaster seat)
  have next : OnCourse observed workers rounds
      { state with exchange := after, tasks, pending := none }
        (done ++ [some (moved .send index .master message.form)]) (tasks.flatMap Task.script)
          dues := by
    apply course.finishes index agenda about inside stage goes (apart_of_written same)
    · rw [List.filterMap_cons_none mute]
    · rw [view_finishTask seat worker master (congrArg Layout.table same), due]
      exact .hears (names.aged goes.heap) (hearing.aged goes.heap) (board.aged goes.heap)
  refine ⟨_, _, _, _, ?_, next⟩
  rw [steps, stepMaster_pending pending, attempt_eq state sent]
  have ended : State.completeTask Ref.null { state with exchange := after } =
      { state with exchange := after, tasks, pending := none } := by
    rw [ends { state with exchange := after } agenda, State.finishTask, agenda, List.tail_cons]
  exact congrArg some ended

theorem OnCourse.sent {token : Nat} {message : Message}
    (course : OnCourse observed workers rounds state done
      (some (moved .send index .master (form round)) :: tasks.flatMap Task.script) dues)
    (pending : state.pending = some (sending index token .master message))
    (agenda : state.tasks = .sendMessage round index :: tasks)
    (travels : Travels state.exchange.heap.Fixes index round message) :
    Acts observed workers rounds state done .master := by
  obtain ⟨_, inside, _, errand, _⟩ := course.atHand index agenda rfl rfl
  obtain ⟨left, phase, id, before, seat, tail, due, names, hearing⟩ :=
    (course.desks index inside).sendMessage errand
  rw [← form_travels travels] at course
  refine course.delivers pending agenda rfl rfl (by simp) rfl ?_ seat
    names hearing due ?_
  · intro current agenda
    rw [State.completeTask, agenda]
  · rw [tail]
    exact .asked round left travels

theorem OnCourse.dismissed {token : Nat}
    (course : OnCourse observed workers rounds state done
      (some (moved .send index .master "plain") :: tasks.flatMap Task.script) dues)
    (pending : state.pending = some (sending index token .master (.plain Ref.null)))
    (agenda : state.tasks = .dismiss index :: tasks) :
    Acts observed workers rounds state done .master := by
  obtain ⟨_, inside, _, errand, _⟩ := course.atHand index agenda rfl rfl
  obtain ⟨round, phase, id, before, seat, tail, due, names, hearing⟩ :=
    (course.desks index inside).dismiss errand
  refine course.delivers pending agenda rfl rfl (by simp) rfl ?_ seat
    names hearing due ?_
  · intro current agenda
    rw [State.completeTask, agenda]
  · rw [tail]
    exact .dismissed round

theorem answerLine_returned {heap : Heap} {answer label copy : Ref} (room : 2 ≤ heap.size)
    (listed : Listed heap.Holds answer [label, copy])
    (labelled : Data heap.Holds label (.character [(shape round).name]))
    (shown : Shows heap.Holds index round copy) :
    State.answerLine heap round index answer = .ok (line round index) := by
  have items : heap.items? answer = some [label, copy] := by
    rw [Heap.items?, listed.body]
  have text : heap.readText label = .ok (shape round).name := by
    rw [Heap.readText, Heap.vector?, labelled.body]
  simp only [State.answerLine, items, text, describe_shown shown room]
  rfl

theorem OnCourse.collected {token : Nat} (fits : 100 + workers < 2147483648)
    (course : OnCourse observed workers rounds state done
      (some (moved .receive index .master (answerForm round)) :: tasks.flatMap Task.script) dues)
    (pending : state.pending = some (receiving index token .master))
    (agenda : state.tasks = .collectAnswer round index :: tasks) :
    (state.step .master = none ∧
        Acts observed workers rounds state done (.worker index)) ∨
      Acts observed workers rounds state done .master := by
  obtain ⟨steps, inside, stage, errand, _⟩ := course.atHand index agenda rfl rfl
  obtain ⟨_, _, owner, holder, equipped, calm⟩ := course.channelOpen index agenda rfl rfl
    (by simp)
  rcases (course.desks index inside).collectAnswer errand with
    ⟨left, phase, id, before, message, seat, tail, returns, due, names, hearing⟩ |
      ⟨empty, awake⟩
  · right
    have builds (reader : Context) (equipped : reader.Equipped state.exchange.heap) :
        ∃ value heap, message.toValue reader state.exchange.heap = (.ok value, heap) ∧
          (∃ label copy, Listed heap.Holds value [label, copy] ∧
            Data heap.Holds label (.character [(shape round).name]) ∧
            Shows heap.Holds index round copy) ∧ state.exchange.heap.Ages heap := by
      obtain ⟨answer, heap, label, copy, built, listed, labelled, shown, ages⟩ :=
        shows_returned equipped returns
      exact ⟨answer, heap, built, ⟨label, copy, listed, labelled, shown⟩, ages⟩
    obtain ⟨answer, after, took, ⟨label, copy, listed, labelled, shown⟩, goes, same⟩ :=
      attempt_receiving token .master holder equipped (congrArg View.toMaster seat) builds
    rw [form_returns returns] at goes
    obtain ⟨master, kept⟩ := ends_written same (congrArg View.toMaster seat)
    have worker : after.queue? (toward index .worker) = some Slot.empty :=
      kept.trans (congrArg View.toWorker seat)
    have next : OnCourse observed workers rounds
        { state with exchange := after, tasks, pending := none
                     lines := line round index :: state.lines }
          (done ++ [some (moved .receive index .master (answerForm round))])
            (tasks.flatMap Task.script) dues := by
      apply course.finishes index agenda rfl inside stage goes (apart_of_written same)
      · rw [List.reverse_cons, List.append_assoc]
        rfl
      · rw [view_finishTask seat worker master (congrArg Layout.table same), tail, due]
        exact .hears (names.aged goes.heap) (hearing.aged goes.heap) (.ready (round + 1) left)
    have said := answerLine_returned (Nat.le_trans course.room goes.heap.size) listed labelled shown
    refine ⟨_, _, _, _, ?_, next⟩
    rw [steps, stepMaster_pending pending, attempt_eq state took]
    simp only [State.completeTask, agenda, Option.getD_some, said, State.finishTask, List.tail_cons]
  · -- The answer is on its way: the worker does not wait for anybody, so that it can act.
    left
    have asleep : (state.exchange.attempt (receiving index token .master)).1 = none :=
      attempt_waits token .master holder calm empty
    constructor
    · rw [steps, stepMaster_pending pending]
      exact attempt_eq_none state asleep _
    · rcases course.worker_acts fits inside with ⟨_, waits⟩ | acts
      · exact absurd waits awake
      · exact acts

theorem OnCourse.closeChannel (course : OnCourse observed workers rounds state done ahead dues)
    (fits : 100 + workers < 2147483648) (idle : state.pending = none)
    (agenda : state.tasks = .closeChannel index :: tasks) :
    (state.step .master = none ∧
        Acts observed workers rounds state done (.worker index)) ∨
      Acts observed workers rounds state done .master := by
  obtain ⟨steps, inside, stage, errand, _⟩ := course.atHand index agenda rfl rfl
  rcases (course.desks index inside).closeChannel errand with
    ⟨id, toWorker, toMaster, gone, tail, due, names⟩ | ⟨⟨worker, held, unfinished⟩, awake⟩
  · right
    have held : state.workers[index]? = some (employee index .finished) := congrArg View.worker gone
    have known : state.ids[index]? = some id := congrArg View.id gone
    have closed : state.exchange.registry.table.slot? (index + 1) = some .closed :=
      Table.entry_eq_closed.mp (congrArg View.entry gone)
    have ids : Names state.exchange.heap (state.id index) (handle index .master) := by
      rw [State.id, known]
      exact names
    have fits' : 100 + index < 2147483648 := by omega
    obtain ⟨after, called, goes, same⟩ :=
      call_close_closed fits' ids State.masterContext closed
    have view : State.view { state with exchange := after, tasks, pending := none } index =
        { errands := [], worker := some (employee index .finished), id := some id
          toWorker := after.queue? (toward index .worker)
          toMaster := after.queue? (toward index .master), entry := .closed } := by
      have entry : after.registry.table.entry (index + 1) = .closed := by
        rw [show after.registry.table = state.exchange.registry.table from
          congrArg Layout.table same]
        exact congrArg View.entry gone
      simp only [State.view, tail, held, known, entry]
    have next : OnCourse observed workers rounds
        { state with exchange := after, tasks, pending := none }
          (done ++ [some (parted index .master)]) (tasks.flatMap Task.script) dues := by
      apply (course.idle idle agenda).finishes index agenda rfl inside stage goes
        (apart_of_layout same index) rfl
      rw [view, due]
      exact .ended
    refine ⟨_, _, _, _, ?_, next⟩
    rw [steps, stepMaster_idle idle agenda]
    simp only [State.beginTask, held, Option.map_some, employee,
      call_eq state course.builtins called, State.finishTask, agenda, List.tail_cons]
  · -- The worker is still there, and the master has told it to leave.
    left
    constructor
    · have held : state.workers[index]? = some worker := held
      rw [steps, stepMaster_idle idle agenda]
      simp only [State.beginTask, held, Option.map_some]
      cases phase : worker.phase with
      | finished => exact absurd phase unfinished
      | _ => rfl
    · rcases course.worker_acts fits inside with ⟨_, waits⟩ | acts
      · exact absurd waits awake
      · exact acts

/-! ### Every step, and always one more -/

theorem step_over (ended : state.isOver = true) (actor : Actor) : state.step actor = none := by
  unfold State.step
  exact if_pos ended

/-- As long as there is something to do the master can take the step that is due, or it waits for a
worker that can. -/
theorem OnCourse.master_acts (course : OnCourse observed workers rounds state done ahead dues)
    (fits : 100 + workers < 2147483648) (more : state.tasks ≠ []) :
    (state.step .master = none ∧
        ∃ index, Acts observed workers rounds state done (.worker index)) ∨
      Acts observed workers rounds state done .master := by
  have pends := course.pending
  generalize agenda : state.tasks = tasks at pends more
  generalize pending : state.pending = operation at pends
  cases pends with
  | idle =>
      cases tasks with
      | nil => exact absurd rfl more
      | cons task rest =>
          cases task with
          | openChannel index => exact Or.inr (course.openChannel fits pending agenda)
          | sendMessage round index => exact Or.inr (course.sendMessage fits pending agenda)
          | collectAnswer round index => exact Or.inr (course.collectAnswer fits pending agenda)
          | dismiss index => exact Or.inr (course.dismiss fits pending agenda)
          | closeChannel index =>
              rcases course.closeChannel fits pending agenda with ⟨stuck, acts⟩ | acts
              · exact Or.inl ⟨stuck, index, acts⟩
              · exact Or.inr acts
  | sends travels => exact Or.inr (course.sent pending agenda travels)
  | @collects round index _ _ =>
      rcases course.collected fits pending agenda with ⟨stuck, acts⟩ | acts
      · exact Or.inl ⟨stuck, index, acts⟩
      · exact Or.inr acts
  | dismisses => exact Or.inr (course.dismissed pending agenda)

/-- Whoever takes a step takes one that is due. -/
theorem OnCourse.step (course : OnCourse observed workers rounds state done ahead dues)
    (fits : 100 + workers < 2147483648) {actor : Actor} {next : State}
    (steps : state.step actor = some next) :
    ∃ entry ahead dues, OnCourse observed workers rounds next (done ++ [entry]) ahead dues := by
  have acted (acts : Acts observed workers rounds state done actor) :
      ∃ entry ahead dues, OnCourse observed workers rounds next (done ++ [entry]) ahead dues := by
    obtain ⟨other, entry, ahead, dues, steps', further⟩ := acts
    rw [steps] at steps'
    cases steps'
    exact ⟨entry, ahead, dues, further⟩
  have more : state.tasks ≠ [] := by
    intro nothing
    have ended : state.isOver = true := by
      rw [State.isOver, nothing]
      rfl
    rw [step_over ended] at steps
    cases steps
  cases actor with
  | master =>
      rcases course.master_acts fits more with ⟨stuck, _⟩ | acts
      · rw [stuck] at steps
        cases steps
      · exact acted acts
  | worker index =>
      rcases Nat.lt_or_ge index workers with inside | beyond
      · rcases course.worker_acts fits inside with ⟨stuck, _⟩ | acts
        · rw [stuck] at steps
          cases steps
        · exact acted acts
      · have missing : state.workers[index]? = none :=
          List.getElem?_eq_none (Nat.le_trans course.stage.bound beyond)
        rw [step_missing missing] at steps
        cases steps

end ValueChannels.Demo
