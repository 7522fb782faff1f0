import ValueChannels.Proofs.Demo.Course

/-!
The steps of the workers. A worker at its desk takes the step that is due there, unless it waits for
the master. Main statement: `OnCourse.worker_acts`.
-/

namespace ValueChannels.Demo

open Sample Exchange

variable {observed : Bool} {workers rounds index : Nat} {state : State}
  {done ahead rest : List (Option Event)} {dues : Nat → List (Option Event)}
  {entry : Option Event} {after : Exchange} {tasks : List Task} {phase : WorkerPhase}
  {id own : Ref} {toWorker toMaster : Slot Message}

/-! ### Calls and attempts within a state -/

theorem call_eq (state : State) {context : Nat} {name : String} {arguments : List Ref}
    {progress : CallProgress}
    (builtins : state.builtins = Builtins.channels)
    (called : Builtins.channels.call context name arguments state.exchange = (.ok progress, after))
    (proceed : CallProgress → State → State) :
    state.call context name arguments proceed =
      proceed progress { state with exchange := after } := by
  rw [State.call, builtins, called]

theorem attempt_eq (state : State) {operation : Underway} {result : Option Ref}
    (attempted : state.exchange.attempt operation = (some (.ok result), after))
    (proceed : Ref → State → State) :
    state.attempt operation proceed =
      some (proceed (result.getD Ref.null) { state with exchange := after }) := by
  rw [State.attempt, attempted]
  rfl

theorem attempt_eq_none (state : State) {operation : Underway}
    (asleep : (state.exchange.attempt operation).1 = none) (proceed : Ref → State → State) :
    state.attempt operation proceed = none := by
  rw [State.attempt]
  cases result : state.exchange.attempt operation with
  | mk outcome after =>
      rw [result] at asleep
      cases asleep
      rfl

/-- The actor takes a step, which is one of those that are due. -/
def Acts (observed : Bool) (workers rounds : Nat) (state : State) (done : List (Option Event))
    (actor : Actor) : Prop :=
  ∃ next entry ahead dues, state.step actor = some next ∧
    OnCourse observed workers rounds next (done ++ [entry]) ahead dues

theorem OnCourse.notOver (course : OnCourse observed workers rounds state done ahead dues)
    (more : state.tasks ≠ []) : state.isOver = false := by
  rw [State.isOver, course.running]
  cases tasks : state.tasks with
  | nil => exact absurd tasks more
  | cons task rest => rfl

/-! ### A worker at its open channel -/

theorem view_setPhase (seat : state.view index = .seated index tasks phase id toWorker toMaster)
    {toWorker' toMaster' : Slot Message} (phase' : WorkerPhase)
    (worker : after.queue? (Demo.toward index .worker) = some toWorker')
    (master : after.queue? (Demo.toward index .master) = some toMaster')
    (table : after.registry.table = state.exchange.registry.table) :
    (({ state with exchange := after } : State).setPhase index phase').view index =
      .seated index tasks phase' id toWorker' toMaster' := by
  have held : state.workers[index]? = some (employee index phase) := congrArg View.worker seat
  have errands_ := congrArg View.errands seat
  have id_ := congrArg View.id seat
  have entry_ := congrArg View.entry seat
  have moved : (state.workers.modify index fun worker => { worker with phase := phase' })[index]? =
      some (employee index phase') := by
    rw [List.getElem?_modify_eq, held]
    rfl
  simp only [State.view, State.setPhase, View.seated] at errands_ id_ entry_ ⊢
  simp only [errands_, id_, entry_, table, worker, master, moved]

theorem view_finished (seat : state.view index = .seated index tasks phase id toWorker toMaster)
    (same : after.layout = (shut state.exchange index).layout) :
    (({ state with exchange := after } : State).setPhase index .finished).view index =
      { errands := tasks, worker := some (employee index .finished), id := some id
        toWorker := after.queue? (Demo.toward index .worker)
        toMaster := after.queue? (Demo.toward index .master), entry := .closed } := by
  have held : state.workers[index]? = some (employee index phase) := congrArg View.worker seat
  have errands_ : errands index state.tasks = tasks := congrArg View.errands seat
  have id_ : state.ids[index]? = some id := congrArg View.id seat
  have live : state.exchange.registry.table.entry (index + 1) ≠ .unused := by
    have entry : state.exchange.registry.table.entry (index + 1) = .live (100 + index) index :=
      congrArg View.entry seat
    rw [entry]
    simp
  have table : after.registry.table = (shut state.exchange index).registry.table :=
    congrArg Layout.table same
  have closed : after.registry.table.entry (index + 1) = .closed := by
    rw [table]
    exact Table.entry_setEntry_same live
  have moved :
      (state.workers.modify index fun worker => { worker with phase := .finished })[index]? =
        some (employee index .finished) := by
    rw [List.getElem?_modify_eq, held]
    rfl
  simp only [State.view, State.setPhase, errands_, id_, closed, moved]

section Seated

variable (course : OnCourse observed workers rounds state done ahead dues)
  (inside : index < workers)
  (seat : state.view index = .seated index tasks phase id toWorker toMaster)
  (names : Names state.exchange.heap id (handle index .master))

include course seat in
theorem OnCourse.seated_step (more : tasks ≠ []) :
    state.step (.worker index) = state.stepWorker index ∧
      state.workers[index]? = some (employee index phase) := by
  have errand : errands index state.tasks = tasks := congrArg View.errands seat
  have notOver : state.isOver = false := by
    apply course.notOver
    intro nothing
    rw [nothing] at errand
    exact more errand.symm
  constructor
  · rw [State.step, notOver]
    rfl
  · exact congrArg View.worker seat

include course seat in
theorem OnCourse.seated_owner :
    ∃ owner, state.exchange.contexts[contextAt index .worker]? = some owner ∧
      owner.Equipped state.exchange.heap ∧ owner.interrupt.raised = false := by
  have held : state.workers[index]? = some (employee index phase) := congrArg View.worker seat
  exact course.staffed.owner (Nat.succ_lt_succ (List.getElem?_eq_some_iff.mp held).1)

include seat in
theorem live_seated : state.exchange.registry.table.slot? (index + 1) =
    some (.live (100 + index) index) :=
  Table.entry_eq_live.mp (congrArg View.entry seat)

include course inside seat names

theorem OnCourse.hears_on {phase' : WorkerPhase} {before : List (Option Event)}
    (board : Board state.exchange.heap index tasks toWorker toMaster rest)
    (due : dues index = entry :: (before ++ rest)) (goes : state.exchange.Goes after entry)
    (same : after.layout = state.exchange.layout)
    (hearing : Hearing after.heap index phase' before) :
    ∃ dues', OnCourse observed workers rounds
      (({ state with exchange := after } : State).setPhase index phase') (done ++ [entry]) ahead
        dues' := by
  have worker : after.queue? (Demo.toward index .worker) = some toWorker :=
    (queue?_congr same _).trans (congrArg View.toWorker seat)
  have master : after.queue? (Demo.toward index .master) = some toMaster :=
    (queue?_congr same _).trans (congrArg View.toMaster seat)
  apply course.worker_goes inside due goes (apart_of_layout same index)
  rw [view_setPhase seat phase' worker master (congrArg Layout.table same)]
  exact .hears (names.aged goes.heap) hearing (board.aged goes.heap)

end Seated

theorem OnCourse.key_of_live (course : OnCourse observed workers rounds state done ahead dues)
    {slot channel : Nat} {key : Int}
    (held : state.exchange.registry.table.slot? slot = some (.live key channel)) :
    ∃ index, slot = index + 1 ∧ key = 100 + index := by
  cases slot with
  | zero => cases held
  | succ index =>
      have entry := Table.entry_eq_live.mpr held
      rcases Nat.lt_or_ge index workers with inside | beyond
      · rcases (course.desks index inside).entry_cases with unused | live | closed
        · cases unused.symm.trans entry
        · cases live.symm.trans entry
          exact ⟨_, rfl, rfl⟩
        · cases closed.symm.trans entry
      · cases (course.spare index beyond).symm.trans entry

theorem OnCourse.keyed (course : OnCourse observed workers rounds state done ahead dues) :
    state.exchange.registry.table.Keyed := by
  constructor
  · intro slot key channel held
    obtain ⟨index, _, same⟩ := course.key_of_live held
    omega
  · intro slot other key channel channel' held held'
    obtain ⟨first, here, same⟩ := course.key_of_live held
    obtain ⟨second, there, same'⟩ := course.key_of_live held'
    omega

theorem OnCourse.starts (course : OnCourse observed workers rounds state done ahead dues)
    (fits : 100 + index < 2147483648) (inside : index < workers)
    (seat : state.view index = .seated index tasks .start id toWorker toMaster)
    (names : Names state.exchange.heap id (handle index .master))
    (board : Board state.exchange.heap index tasks toWorker toMaster rest)
    (due : dues index = some (found .get index .worker) :: none :: rest) (more : tasks ≠ []) :
    Acts observed workers rounds state done (.worker index) := by
  obtain ⟨steps, held⟩ := course.seated_step seat more
  let key := State.workerKey index
  let handed : Exchange :=
    { state.exchange with heap := (state.exchange.heap.alloc (.vector (.integer [key]))).2 }
  have known : handed.registry.table.slotOf? (100 + index) = some (index + 1) :=
    (Table.slotOf?_eq_some course.keyed).mpr ⟨index, live_seated seat⟩
  have given : Data handed.heap.Holds (state.exchange.heap.alloc (.vector (.integer [key]))).1
      (.integer [key]) := state.exchange.heap.holds_alloc _
  obtain ⟨own, after, called, ids, goes, same⟩ := call_get fits given known
  have allocates : state.exchange.Goes handed none :=
    .of_ages (Heap.Retains.alloc state.exchange.heap _).ages
  obtain ⟨dues', further⟩ := course.hears_on inside seat names board due
    (allocates.none_trans goes) same (.listen ids)
  refine ⟨_, _, _, _, ?_, further⟩
  have called' := call_eq { state with exchange := handed } course.builtins called
  simp only [steps, State.stepWorker, held, employee, State.allocKey]
  exact congrArg some (called' _)

theorem OnCourse.listens (course : OnCourse observed workers rounds state done ahead dues)
    (fits : 100 + index < 2147483648) (inside : index < workers)
    (seat : state.view index = .seated index tasks (.listen own) id toWorker toMaster)
    (names : Names state.exchange.heap id (handle index .master))
    (names' : Names state.exchange.heap own (handle index .worker))
    (board : Board state.exchange.heap index tasks toWorker toMaster rest)
    (due : dues index = none :: rest) (more : tasks ≠ []) :
    Acts observed workers rounds state done (.worker index) := by
  obtain ⟨steps, held⟩ := course.seated_step seat more
  obtain ⟨owner, holder, _⟩ := course.seated_owner seat
  obtain ⟨token, after, called, goes, same⟩ := call_receive fits names' (live_seated seat) holder
  obtain ⟨dues', further⟩ := course.hears_on inside seat names board due goes same
    (.awaits (names'.aged goes.heap) token)
  refine ⟨_, _, _, _, ?_, further⟩
  simp only [steps, State.stepWorker, held, employee]
  exact congrArg some (call_eq state course.builtins called _)

theorem OnCourse.sleeps {token : Nat}
    (course : OnCourse observed workers rounds state done ahead dues)
    (seat : state.view index = .seated index tasks
      (.awaitMessage own (receiving index token .worker)) id Slot.empty toMaster)
    (more : tasks ≠ []) : state.step (.worker index) = none := by
  obtain ⟨steps, held⟩ := course.seated_step seat more
  obtain ⟨owner, holder, _, calm⟩ := course.seated_owner seat
  have asleep : (state.exchange.attempt (receiving index token .worker)).1 = none :=
    attempt_waits token .worker holder calm (congrArg View.toWorker seat)
  simp only [steps, State.stepWorker, held, employee]
  exact attempt_eq_none state asleep _

theorem OnCourse.understands {token : Nat} (round : Nat)
    (course : OnCourse observed workers rounds state done ahead dues)
    (inside : index < workers)
    (seat : state.view index = .seated index [.closeChannel index]
      (.awaitMessage own (receiving index token .worker)) id (full (.plain Ref.null)) Slot.empty)
    (names : Names state.exchange.heap id (handle index .master))
    (names' : Names state.exchange.heap own (handle index .worker))
    (due : dues index = answers index round 0) :
    Acts observed workers rounds state done (.worker index) := by
  obtain ⟨steps, held⟩ := course.seated_step seat (List.cons_ne_nil _ _)
  obtain ⟨owner, holder, equipped, _⟩ := course.seated_owner seat
  have builds (reader : Context) (_ : reader.Equipped state.exchange.heap) : ∃ value heap,
      (Message.plain Ref.null).toValue reader state.exchange.heap = (.ok value, heap) ∧
        value = Ref.null ∧ state.exchange.heap.Ages heap :=
    ⟨Ref.null, state.exchange.heap, rfl, rfl, (Heap.Retains.refl _).ages⟩
  obtain ⟨value, after, took, isNull, goes, same⟩ :=
    attempt_receiving token .worker holder equipped (congrArg View.toWorker seat) builds
  obtain ⟨worker, kept⟩ := ends_written same (congrArg View.toWorker seat)
  have master : after.queue? (Demo.toward index .master) = some Slot.empty :=
    kept.trans (congrArg View.toMaster seat)
  have null : after.heap.isNull value = true := by
    have ground := goes.heap.holds course.null (by simp)
    rw [isNull, Heap.isNull, ground.body]
  obtain ⟨dues', further⟩ : ∃ dues', OnCourse observed workers rounds
      (({ state with exchange := after } : State).setPhase index (.leave own))
        (done ++ [some (moved .receive index .worker "plain")]) ahead dues' := by
    apply course.worker_goes inside due goes (apart_of_written same)
    rw [view_setPhase seat (.leave own) worker master (congrArg Layout.table same)]
    exact .leaves (names.aged goes.heap) (names'.aged goes.heap)
  refine ⟨_, _, _, _, ?_, further⟩
  simp only [steps, State.stepWorker, held, employee]
  rw [attempt_eq state took]
  simp only [Option.getD_some, null, if_true]

theorem isNull_shown {heap : Heap} {round : Nat} {value : Ref}
    (shown : Shows heap.Holds index round value) : heap.isNull value = false := by
  have kind := kind_shown shown
  rw [Heap.kind] at kind
  rw [Heap.isNull]
  cases body : heap.body value with
  | null =>
      rw [body, shape] at kind
      split at kind <;> cases kind
  | _ => rfl

theorem answer_begun (state : State) {value : Ref} {round count : Nat} {key : Int}
    (fits : 100 + index < 2147483648) (builtins : state.builtins = Builtins.channels)
    (staffed : state.exchange.Staffed count) (inside : contextAt index .worker < count)
    (names : Names state.exchange.heap own (handle index .worker))
    (live : state.exchange.registry.table.slot? (index + 1) = some (.live key index))
    (shown : Shows state.exchange.heap.Holds index round value) :
    ∃ token message after, state.answer index (contextAt index .worker) own value =
        ({ state with exchange := after } : State).setPhase index
          (.awaitSent own (sending index token .worker message)) ∧
      Returns after.heap index round message ∧ state.exchange.Goes after none ∧
      after.layout = state.exchange.layout := by
  let label := allocText state.exchange.heap (state.exchange.heap.kind value).name
  let reply := label.2.alloc (.list [label.1, value])
  let handed : Exchange := { state.exchange with heap := reply.2 }
  have labels : state.exchange.heap.Retains label.2 := .alloc state.exchange.heap _
  have replies : label.2.Retains reply.2 := .alloc label.2 _
  have retains := labels.trans replies
  have labelled : Data handed.heap.Holds label.1 (.character [(shape round).name]) := by
    rw [← kind_shown shown]
    exact replies.holds (state.exchange.heap.holds_alloc _)
  have listed : Listed handed.heap.Holds reply.1 [label.1, value] := label.2.holds_alloc _
  have ids : Names handed.heap own (handle index .worker) := names.aged retains.ages
  obtain ⟨owner, holder, equipped, _⟩ := (staffed.aged retains.ages).owner inside
  obtain ⟨message, heap, converted, returns, onward⟩ :=
    returns_ofValue equipped (shown.retained retains) labelled listed
  obtain ⟨token, after, called, goes, same, kept⟩ :=
    call_send fits ids live holder converted onward.ages
  have begun := call_eq { state with exchange := handed } builtins called
  refine ⟨token, message, after, ?_, kept ▸ returns, (Goes.of_ages retains.ages).none_trans goes,
    same⟩
  rw [State.answer]
  exact begun _

theorem OnCourse.replies {token round left : Nat} {message : Message}
    (course : OnCourse observed workers rounds state done ahead dues)
    (fits : 100 + index < 2147483648) (inside : index < workers)
    (seat : state.view index =
      .seated index (.collectAnswer round index :: itinerary index (round + 1) left)
        (.awaitMessage own (receiving index token .worker)) id (full message) Slot.empty)
    (names : Names state.exchange.heap id (handle index .master))
    (names' : Names state.exchange.heap own (handle index .worker))
    (travels : Travels state.exchange.heap.Fixes index round message)
    (due : dues index = answers index round (left + 1)) :
    Acts observed workers rounds state done (.worker index) := by
  obtain ⟨steps, held⟩ := course.seated_step seat (List.cons_ne_nil _ _)
  obtain ⟨owner, holder, equipped, _⟩ := course.seated_owner seat
  have builds (reader : Context) (equipped : reader.Equipped state.exchange.heap) :
      ∃ value heap, message.toValue reader state.exchange.heap = (.ok value, heap) ∧
        Shows heap.Holds index round value ∧ state.exchange.heap.Ages heap := by
    obtain ⟨value, heap, built, shown, retains⟩ := shows_toValue equipped travels
    exact ⟨value, heap, built, shown, retains.ages⟩
  obtain ⟨value, middle, took, shown, goes, same⟩ :=
    attempt_receiving token .worker holder equipped (congrArg View.toWorker seat) builds
  -- The same step begins the answer. Up to here only the queue to the worker has changed.
  have table : middle.registry.table = state.exchange.registry.table := congrArg Layout.table same
  have live : middle.registry.table.slot? (index + 1) = some (.live (100 + index) index) := by
    rw [table]
    exact live_seated seat
  have there : contextAt index .worker < state.workers.length + 1 :=
    Nat.succ_lt_succ (List.getElem?_eq_some_iff.mp held).1
  obtain ⟨token', answer, after, begun, returns, onward, same'⟩ :=
    answer_begun { state with exchange := middle } fits course.builtins
      (goes.staffed _ course.staffed) there (names'.aged goes.heap) live shown
  have whole := goes.trans_none onward
  rw [form_travels travels] at whole
  have written := same'.trans same
  obtain ⟨worker, kept⟩ := ends_written written (congrArg View.toWorker seat)
  have master : after.queue? (Demo.toward index .master) = some Slot.empty :=
    kept.trans (congrArg View.toMaster seat)
  obtain ⟨dues', further⟩ : ∃ dues', OnCourse observed workers rounds
      (({ state with exchange := after } : State).setPhase index
        (.awaitSent own (sending index token' .worker answer)))
        (done ++ [some (moved .receive index .worker (form round))]) ahead dues' := by
    apply course.worker_goes inside due whole (apart_of_written written)
    rw [view_setPhase seat _ worker master (congrArg Layout.table written)]
    exact .replies (names.aged whole.heap) (names'.aged whole.heap) returns
  have notNull : middle.heap.isNull value = false := isNull_shown shown
  refine ⟨_, _, _, _, ?_, further⟩
  simp only [steps, State.stepWorker, held, employee]
  rw [attempt_eq state took]
  simp only [Option.getD_some, notNull, Bool.false_eq_true, if_false]
  exact congrArg some begun

theorem OnCourse.answered {token round left : Nat} {message : Message}
    (course : OnCourse observed workers rounds state done ahead dues) (inside : index < workers)
    (seat : state.view index =
      .seated index (.collectAnswer round index :: itinerary index (round + 1) left)
        (.awaitSent own (sending index token .worker message)) id Slot.empty Slot.empty)
    (names : Names state.exchange.heap id (handle index .master))
    (names' : Names state.exchange.heap own (handle index .worker))
    (returns : Returns state.exchange.heap index round message)
    (due : dues index = some (moved .send index .worker (answerForm round)) :: none ::
      Demo.answers index (round + 1) left) :
    Acts observed workers rounds state done (.worker index) := by
  obtain ⟨steps, held⟩ := course.seated_step seat (List.cons_ne_nil _ _)
  obtain ⟨owner, holder, _⟩ := course.seated_owner seat
  obtain ⟨after, sent, goes, same⟩ :=
    attempt_sending token .worker holder message (congrArg View.toMaster seat)
  rw [form_returns returns] at goes
  obtain ⟨master, kept⟩ := ends_written same (congrArg View.toMaster seat)
  have worker : after.queue? (Demo.toward index .worker) = some Slot.empty :=
    kept.trans (congrArg View.toWorker seat)
  obtain ⟨dues', further⟩ : ∃ dues', OnCourse observed workers rounds
      (({ state with exchange := after } : State).setPhase index (.listen own))
        (done ++ [some (moved .send index .worker (answerForm round))]) ahead dues' := by
    apply course.worker_goes inside due goes (apart_of_written same)
    rw [view_setPhase seat (.listen own) worker master (congrArg Layout.table same)]
    exact .hears (names.aged goes.heap) (.listen (names'.aged goes.heap))
      (.answered round left (returns.aged goes.heap))
  refine ⟨_, _, _, _, ?_, further⟩
  simp only [steps, State.stepWorker, held, employee]
  exact attempt_eq state sent _

theorem OnCourse.parts (course : OnCourse observed workers rounds state done ahead dues)
    (fits : 100 + index < 2147483648) (inside : index < workers)
    (seat : state.view index =
      .seated index [.closeChannel index] (.leave own) id toWorker toMaster)
    (names : Names state.exchange.heap id (handle index .master))
    (names' : Names state.exchange.heap own (handle index .worker))
    (due : dues index = [some (parted index .worker)]) :
    Acts observed workers rounds state done (.worker index) := by
  obtain ⟨steps, held⟩ := course.seated_step seat (List.cons_ne_nil _ _)
  obtain ⟨after, called, goes, same⟩ :=
    call_close_live fits names' (contextAt index .worker) (live_seated seat)
  obtain ⟨dues', further⟩ : ∃ dues', OnCourse observed workers rounds
      (({ state with exchange := after } : State).setPhase index .finished)
        (done ++ [some (parted index .worker)]) ahead dues' := by
    apply course.worker_goes inside due goes (apart_shut same)
    rw [view_finished seat same]
    exact .gone (names.aged goes.heap)
  refine ⟨_, _, _, _, ?_, further⟩
  simp only [steps, State.stepWorker, held, employee]
  exact congrArg some (call_eq state course.builtins called _)

/-! ### All workers -/

theorem step_missing (missing : state.workers[index]? = none) :
    state.step (.worker index) = none := by
  rw [State.step]
  split
  · rfl
  · simp only [State.stepWorker, missing]

theorem step_finished (finished : state.workers[index]? = some (employee index .finished)) :
    state.step (.worker index) = none := by
  rw [State.step]
  split
  · rfl
  · simp only [State.stepWorker, finished, employee]

theorem Board.more {heap : Heap} {due : List (Option Event)}
    (board : Board heap index tasks toWorker toMaster due) : tasks ≠ [] := by
  cases board with
  | ready round left => exact itinerary_ne_nil index round left
  | asked | answered | dismissed => exact List.cons_ne_nil _ _

/-- Every worker can take the step that is due, unless it is waiting. -/
theorem OnCourse.worker_acts (course : OnCourse observed workers rounds state done ahead dues)
    (fits : 100 + workers < 2147483648) (inside : index < workers) :
    state.step (.worker index) = none ∧ (state.view index).waits ∨
      Acts observed workers rounds state done (.worker index) := by
  have fits' : 100 + index < 2147483648 := by omega
  -- Where the worker is decides which step is due and whether the master has to come first.
  have desk := course.desks index inside
  generalize seat : state.view index = view at desk
  generalize due : dues index = steps_ at desk
  cases desk with
  | absent =>
      left
      exact ⟨step_missing (congrArg View.worker seat), fun _ impossible => by cases impossible⟩
  | @hears tasks phase id toWorker toMaster before after names hearing board =>
      cases hearing with
      | start => exact Or.inr (course.starts fits' inside seat names board due board.more)
      | listen names' =>
          exact Or.inr (course.listens fits' inside seat names names' board due board.more)
      | @awaits own names' token =>
          have asleep (empty : toWorker = Slot.empty) :
              state.step (.worker index) = none ∧ (View.seated index tasks
                (.awaitMessage own (receiving index token .worker)) id toWorker
                  toMaster).waits := by
            rw [empty] at seat
            refine ⟨course.sleeps seat board.more, ?_⟩
            intro worker here
            cases here
            exact Or.inr ⟨congrArg some empty, _, _, rfl⟩
          cases board with
          | ready => exact Or.inl (asleep rfl)
          | asked round left travels =>
              exact Or.inr (course.replies fits' inside seat names names' travels due)
          | answered => exact Or.inl (asleep rfl)
          | dismissed round => exact Or.inr (course.understands round inside seat names names' due)
  | replies names names' returns =>
      exact Or.inr (course.answered inside seat names names' returns due)
  | leaves names names' => exact Or.inr (course.parts fits' inside seat names names' due)
  | gone | ended =>
      left
      refine ⟨step_finished (congrArg View.worker seat), ?_⟩
      intro worker here
      cases here
      exact Or.inl rfl

end ValueChannels.Demo
