import ValueChannels.Proofs.Demo.Calls
import ValueChannels.Proofs.Exchange.Entries

/-!
Where a worker can be while the demonstration runs. What a state says about a worker is its view;
the views that occur are listed in `Desk`, each with the steps that are still due for that worker.
Main statements: `Desk.aged`, that work elsewhere leaves a worker where it is, and one inversion for
each task of the master, such as `Desk.collectAnswer`, which says where the worker can be that the
task is about.
-/

namespace ValueChannels.Demo

open Sample Exchange

/-! ### What there is to see of a worker -/

/-- What a state says about one worker: the tasks about it, itself, the master's id of its channel,
the two queues of that channel and the entry in the table. -/
structure View where
  errands : List Task
  worker : Option Worker
  id : Option Ref
  toWorker : Option (Slot Message)
  toMaster : Option (Slot Message)
  entry : SlotEntry

def State.view (state : State) (worker : Nat) : View :=
  { errands := errands worker state.tasks
    worker := state.workers[worker]?
    id := state.ids[worker]?
    toWorker := state.exchange.queue? (toward worker .worker)
    toMaster := state.exchange.queue? (toward worker .master)
    entry := state.exchange.registry.table.entry (worker + 1) }

def employee (index : Nat) (phase : WorkerPhase) : Worker :=
  { context := contextAt index .worker, key := State.workerKey index, phase }

/-- A worker whose channel is open. -/
def View.seated (index : Nat) (errands : List Task) (phase : WorkerPhase) (id : Ref)
    (toWorker toMaster : Slot Message) : View :=
  { errands, worker := some (employee index phase), id := some id, toWorker := some toWorker
    toMaster := some toMaster, entry := .live (100 + index) index }

/-- A worker that has not got to a message yet, and what it does before it looks for one. -/
inductive Hearing (heap : Heap) (index : Nat) : WorkerPhase → List (Option Event) → Prop
  | start : Hearing heap index .start [some (found .get index .worker), none]
  | listen {id : Ref} (names : Names heap id (handle index .worker)) :
      Hearing heap index (.listen id) [none]
  | awaits {id : Ref} (names : Names heap id (handle index .worker)) (token : Nat) :
      Hearing heap index (.awaitMessage id (receiving index token .worker)) []

/-- The tasks and the queues of a worker that has not got to a message yet, and what it does once it
looks for one. -/
inductive Board (heap : Heap) (index : Nat) :
    List Task → Slot Message → Slot Message → List (Option Event) → Prop
  /-- Nothing is under way. -/
  | ready (round left : Nat) :
      Board heap index (itinerary index round left) Slot.empty Slot.empty (answers index round left)
  /-- The message of a round is waiting. -/
  | asked (round left : Nat) {message : Message}
      (travels : Travels heap.Fixes index round message) :
      Board heap index (.collectAnswer round index :: itinerary index (round + 1) left)
        (full message) Slot.empty (answers index round (left + 1))
  /-- The answer of a round is waiting. -/
  | answered (round left : Nat) {message : Message} (returns : Returns heap index round message) :
      Board heap index (.collectAnswer round index :: itinerary index (round + 1) left)
        Slot.empty (full message) (answers index (round + 1) left)
  /-- NULL is waiting. -/
  | dismissed (round : Nat) :
      Board heap index [.closeChannel index] (full (.plain Ref.null)) Slot.empty
        (answers index round 0)

/-- Where master and worker are with each other, and the steps that the worker has still to take. -/
inductive Desk (heap : Heap) (rounds index : Nat) : View → List (Option Event) → Prop
  | absent :
      Desk heap rounds index
        { errands := .openChannel index :: itinerary index 0 rounds, worker := none, id := none
          toWorker := none, toMaster := none, entry := .unused }
        (service index rounds)
  | hears {tasks : List Task} {phase : WorkerPhase} {id : Ref} {toWorker toMaster : Slot Message}
      {before after : List (Option Event)} (names : Names heap id (handle index .master))
      (hearing : Hearing heap index phase before)
      (board : Board heap index tasks toWorker toMaster after) :
      Desk heap rounds index (.seated index tasks phase id toWorker toMaster) (before ++ after)
  | replies {round left token : Nat} {id own : Ref} {message : Message}
      (names : Names heap id (handle index .master))
      (names' : Names heap own (handle index .worker))
      (returns : Returns heap index round message) :
      Desk heap rounds index
        (.seated index (.collectAnswer round index :: itinerary index (round + 1) left)
          (.awaitSent own (sending index token .worker message)) id Slot.empty Slot.empty)
        (some (moved .send index .worker (answerForm round)) :: none ::
          answers index (round + 1) left)
  | leaves {id own : Ref} (names : Names heap id (handle index .master))
      (names' : Names heap own (handle index .worker)) :
      Desk heap rounds index
        (.seated index [.closeChannel index] (.leave own) id Slot.empty Slot.empty)
        [some (parted index .worker)]
  | gone {id : Ref} {toWorker toMaster : Option (Slot Message)}
      (names : Names heap id (handle index .master)) :
      Desk heap rounds index
        { errands := [.closeChannel index], worker := some (employee index .finished)
          id := some id, toWorker, toMaster, entry := .closed } []
  | ended {id : Option Ref} {toWorker toMaster : Option (Slot Message)} :
      Desk heap rounds index
        { errands := [], worker := some (employee index .finished), id, toWorker, toMaster
          entry := .closed } []

/-- What the master has under way, and the steps that it has still to take. -/
inductive Pending (heap : Heap) : List Task → Option Underway → List (Option Event) → Prop
  | idle (tasks : List Task) : Pending heap tasks none (tasks.flatMap Task.script)
  | sends {round index token : Nat} {rest : List Task} {message : Message}
      (travels : Travels heap.Fixes index round message) :
      Pending heap (.sendMessage round index :: rest) (some (sending index token .master message))
        (some (moved .send index .master (form round)) :: rest.flatMap Task.script)
  | collects {round index token : Nat} {rest : List Task} :
      Pending heap (.collectAnswer round index :: rest) (some (receiving index token .master))
        (some (moved .receive index .master (answerForm round)) :: rest.flatMap Task.script)
  | dismisses {index token : Nat} {rest : List Task} :
      Pending heap (.dismiss index :: rest)
        (some (sending index token .master (.plain Ref.null)))
        (some (moved .send index .master "plain") :: rest.flatMap Task.script)

/-- The channels are opened one after the other before anything else. -/
structure Stage (workers rounds : Nat) (tasks : List Task) (opened : Nat) : Prop where
  bound : opened ≤ workers
  split : ∃ rest, tasks = (List.range' opened (workers - opened)).map .openChannel ++ rest ∧
    (opened < workers → rest = later workers rounds) ∧
    ∀ task ∈ rest, task.opens = false ∧ task.worker < workers

theorem Stage.task {workers rounds opened : Nat} {task : Task} {tasks : List Task}
    (stage : Stage workers rounds (task :: tasks) opened) (work : task.opens = false) :
    opened = workers ∧ task.worker < workers ∧ Stage workers rounds tasks opened := by
  obtain ⟨rest, same, _, known⟩ := stage.split
  have most : ¬opened < workers := by
    intro fewer
    have more : workers - opened = workers - (opened + 1) + 1 := by omega
    rw [more, List.range'_succ] at same
    cases same
    cases work
  have all : opened = workers := Nat.le_antisymm stage.bound (Nat.le_of_not_lt most)
  have none_ : workers - opened = 0 := by omega
  rw [none_] at same
  have whole : task :: tasks = rest := same
  refine ⟨all, (known task (whole ▸ List.mem_cons_self)).2, stage.bound, tasks, ?_, ?_, ?_⟩
  · rw [none_]
    rfl
  · exact fun fewer => absurd fewer most
  · exact fun other member => known other (whole ▸ List.mem_cons_of_mem task member)

theorem Stage.opening {workers rounds opened index : Nat} {tasks : List Task}
    (stage : Stage workers rounds (.openChannel index :: tasks) opened) :
    index = opened ∧ opened < workers ∧
      tasks = (List.range' (opened + 1) (workers - (opened + 1))).map .openChannel ++
        later workers rounds ∧ Stage workers rounds tasks (opened + 1) := by
  obtain ⟨rest, same, last, known⟩ := stage.split
  have fewer : opened < workers := by
    apply Nat.lt_of_not_le
    intro all
    have none_ : workers - opened = 0 := by omega
    rw [none_] at same
    have whole : Task.openChannel index :: tasks = rest := same
    have wrong := (known (.openChannel index) (whole ▸ List.mem_cons_self)).1
    cases wrong
  have more : workers - opened = workers - (opened + 1) + 1 := by omega
  rw [more, List.range'_succ, last fewer] at same
  cases same
  exact ⟨rfl, fewer, rfl, fewer, later workers rounds, rfl, fun _ => rfl, fun _ => later_worker⟩

/-! ### Work elsewhere -/

variable {heap after : Heap} {rounds index : Nat} {view : View} {due : List (Option Event)}

theorem Names.aged {id : Ref} {handle : Handle} (ages : heap.Ages after)
    (names : Names heap id handle) : Names after id handle :=
  ages.holds names (by simp)

theorem Hearing.aged {phase : WorkerPhase} (ages : heap.Ages after)
    (hearing : Hearing heap index phase due) : Hearing after index phase due := by
  cases hearing with
  | start => exact .start
  | listen names => exact .listen (names.aged ages)
  | awaits names token => exact .awaits (names.aged ages) token

theorem Board.aged {tasks : List Task} {toWorker toMaster : Slot Message} (ages : heap.Ages after)
    (board : Board heap index tasks toWorker toMaster due) :
    Board after index tasks toWorker toMaster due := by
  cases board with
  | ready round left => exact .ready round left
  | asked round left travels => exact .asked round left (travels.aged ages)
  | answered round left returns => exact .answered round left (returns.aged ages)
  | dismissed round => exact .dismissed round

theorem Desk.aged (ages : heap.Ages after) (desk : Desk heap rounds index view due) :
    Desk after rounds index view due := by
  cases desk with
  | absent => exact .absent
  | hears names hearing board =>
      exact .hears (names.aged ages) (hearing.aged ages) (board.aged ages)
  | replies names names' returns =>
      exact .replies (names.aged ages) (names'.aged ages) (returns.aged ages)
  | leaves names names' => exact .leaves (names.aged ages) (names'.aged ages)
  | gone names => exact .gone (names.aged ages)
  | ended => exact .ended

theorem Pending.aged {tasks : List Task} {pending : Option Underway} (ages : heap.Ages after)
    (pends : Pending heap tasks pending due) : Pending after tasks pending due := by
  cases pends with
  | idle => exact .idle tasks
  | sends travels => exact .sends (travels.aged ages)
  | collects => exact .collects
  | dismisses => exact .dismisses

/-! ### Where a worker is -/

theorem itinerary_ne_nil (index round left : Nat) : itinerary index round left ≠ [] := by
  cases left with
  | zero => exact List.cons_ne_nil _ _
  | succ left => exact List.cons_ne_nil _ _

theorem Desk.isOpen {task : Task} {rest : List Task} (desk : Desk heap rounds index view due)
    (present : view.worker ≠ none) (errand : view.errands = task :: rest)
    (further : task ≠ .closeChannel index) :
    ∃ id, view.id = some id ∧ Names heap id (handle index .master) ∧
      view.entry = .live (100 + index) index := by
  cases desk with
  | absent => exact absurd rfl present
  | hears names => exact ⟨_, rfl, names, rfl⟩
  | replies names => exact ⟨_, rfl, names, rfl⟩
  | leaves names => exact ⟨_, rfl, names, rfl⟩
  | gone =>
      cases errand
      exact absurd rfl further
  | ended => cases errand

theorem Desk.unused_of_absent (desk : Desk heap rounds index view due)
    (missing : view.worker = none) : view.entry = .unused := by
  cases desk with
  | absent => rfl
  | hears | replies | leaves | gone | ended => cases missing

theorem Desk.entry_cases (desk : Desk heap rounds index view due) :
    view.entry = .unused ∨ view.entry = .live (100 + index) index ∨ view.entry = .closed := by
  cases desk with
  | absent => exact Or.inl rfl
  | hears | replies | leaves => exact Or.inr (Or.inl rfl)
  | gone | ended => exact Or.inr (Or.inr rfl)

theorem Desk.openChannel {rest : List Task} (desk : Desk heap rounds index view due)
    (errand : view.errands = .openChannel index :: rest) :
    rest = itinerary index 0 rounds ∧ due = service index rounds := by
  cases desk with
  | absent =>
      cases errand
      exact ⟨rfl, rfl⟩
  | hears names hearing board =>
      cases board with
      | ready round left => cases left <;> cases errand
      | asked | answered | dismissed => cases errand
  | replies | leaves | gone | ended => cases errand

theorem Desk.sendMessage {round : Nat} {rest : List Task} (desk : Desk heap rounds index view due)
    (errand : view.errands = .sendMessage round index :: rest) :
    ∃ left phase id before,
      view = .seated index (.sendMessage round index :: rest) phase id Slot.empty Slot.empty ∧
      rest = .collectAnswer round index :: itinerary index (round + 1) left ∧
      due = before ++ answers index round (left + 1) ∧
      Names heap id (handle index .master) ∧ Hearing heap index phase before := by
  cases desk with
  | absent => cases errand
  | hears names hearing board =>
      cases board with
      | ready round' left =>
          cases left with
          | zero => cases errand
          | succ left =>
              cases errand
              exact ⟨left, _, _, _, rfl, rfl, rfl, names, hearing⟩
      | asked | answered | dismissed => cases errand
  | replies | leaves | gone | ended => cases errand

theorem Desk.dismiss {rest : List Task} (desk : Desk heap rounds index view due)
    (errand : view.errands = .dismiss index :: rest) :
    ∃ round phase id before,
      view = .seated index (.dismiss index :: rest) phase id Slot.empty Slot.empty ∧
      rest = [.closeChannel index] ∧ due = before ++ answers index round 0 ∧
      Names heap id (handle index .master) ∧ Hearing heap index phase before := by
  cases desk with
  | absent => cases errand
  | hears names hearing board =>
      cases board with
      | ready round left =>
          cases left with
          | zero =>
              cases errand
              exact ⟨round, _, _, _, rfl, rfl, rfl, names, hearing⟩
          | succ left => cases errand
      | asked | answered | dismissed => cases errand
  | replies | leaves | gone | ended => cases errand

/-- What a worker that waits for a message needs so that it can go on. -/
def View.waits (view : View) : Prop :=
  ∀ worker, view.worker = some worker → worker.phase = .finished ∨
    view.toWorker = some Slot.empty ∧ ∃ id operation, worker.phase = .awaitMessage id operation

theorem Hearing.unfinished {phase : WorkerPhase} (hearing : Hearing heap index phase due) :
    phase ≠ .finished := by
  cases hearing <;> simp

/-- An answer is collected once it is there, and until then the worker can go on. -/
theorem Desk.collectAnswer {round : Nat} {rest : List Task}
    (desk : Desk heap rounds index view due)
    (errand : view.errands = .collectAnswer round index :: rest) :
    (∃ left phase id before message,
      view = .seated index (.collectAnswer round index :: rest) phase id Slot.empty (full message) ∧
      rest = itinerary index (round + 1) left ∧ Returns heap index round message ∧
      due = before ++ answers index (round + 1) left ∧
      Names heap id (handle index .master) ∧ Hearing heap index phase before) ∨
    (view.toMaster = some Slot.empty ∧ ¬view.waits) := by
  cases desk with
  | absent => cases errand
  | hears names hearing board =>
      cases board with
      | ready round' left => cases left <;> cases errand
      | asked round' left travels =>
          right
          constructor
          · rfl
          · intro waits
            rcases waits _ rfl with finished | ⟨empty, _⟩
            · exact hearing.unfinished finished
            · cases empty
      | answered round' left returns =>
          cases errand
          exact Or.inl ⟨left, _, _, _, _, rfl, rfl, returns, rfl, names, hearing⟩
      | dismissed => cases errand
  | replies =>
      right
      constructor
      · rfl
      · intro waits
        rcases waits _ rfl with finished | ⟨_, _, _, listens⟩
        · cases finished
        · cases listens
  | leaves | gone | ended => cases errand

theorem Desk.closeChannel {rest : List Task} (desk : Desk heap rounds index view due)
    (errand : view.errands = .closeChannel index :: rest) :
    (∃ id toWorker toMaster,
      view = { errands := [.closeChannel index], worker := some (employee index .finished)
               id := some id, toWorker, toMaster, entry := .closed } ∧
      rest = [] ∧ due = [] ∧ Names heap id (handle index .master)) ∨
    (∃ worker, view.worker = some worker ∧ worker.phase ≠ .finished) ∧ ¬view.waits := by
  cases desk with
  | absent => cases errand
  | hears names hearing board =>
      cases board with
      | ready round' left => cases left <;> cases errand
      | asked | answered => cases errand
      | dismissed round' =>
          right
          constructor
          · exact ⟨_, rfl, hearing.unfinished⟩
          · intro waits
            rcases waits _ rfl with finished | ⟨empty, _⟩
            · exact hearing.unfinished finished
            · cases empty
  | replies => cases errand
  | leaves =>
      right
      constructor
      · exact ⟨_, rfl, by simp [employee]⟩
      · intro waits
        rcases waits _ rfl with finished | ⟨_, _, _, listens⟩
        · cases finished
        · cases listens
  | gone names =>
      cases errand
      exact Or.inl ⟨_, _, _, rfl, rfl, rfl, names⟩
  | ended => cases errand

theorem Pending.over_due {pending : Option Underway} (pends : Pending heap [] pending due) :
    due = [] := by
  cases pends
  rfl

theorem Desk.over_due (desk : Desk heap rounds index view due) (errand : view.errands = []) :
    due = [] := by
  cases desk with
  | absent => cases errand
  | hears names hearing board =>
      cases board with
      | ready round left => exact absurd errand (itinerary_ne_nil index round left)
      | asked | answered | dismissed => cases errand
  | replies | leaves | gone => cases errand
  | ended => rfl

end ValueChannels.Demo
