import Mathlib.Data.List.Perm.Basic
import Mathlib.Data.List.ReduceOption
import ValueChannels.Demo.Step
import ValueChannels.Proofs.Demo.Receiving

/-!
What a run of the demonstration comes to. The agenda of the master goes through the workers again
and again; for each single worker it is one round after the other. Main statements:
`errands_later`, what of the agenda concerns a worker, `lines_agenda`, which lines are said, and
`events_steps`, which events all steps of a run leave.
-/

namespace ValueChannels.Demo

namespace Task

def worker : Task → Nat
  | .openChannel worker | .sendMessage _ worker | .collectAnswer _ worker | .dismiss worker
  | .closeChannel worker => worker

def opens : Task → Bool
  | .openChannel _ => true
  | _ => false

end Task

/-! ### The tasks that concern one worker -/

/-- The tasks about a worker, in their order. -/
def errands (worker : Nat) (tasks : List Task) : List Task :=
  tasks.filter fun task => task.worker = worker

/-- What there is to do with a worker when so many rounds are left, the first of them given. -/
def itinerary (worker round : Nat) : Nat → List Task
  | 0 => [.dismiss worker, .closeChannel worker]
  | left + 1 => .sendMessage round worker :: .collectAnswer round worker ::
      itinerary worker (round + 1) left

/-- The tasks behind the opening of the channels. -/
def later (workers rounds : Nat) : List Task :=
  (List.range rounds).flatMap (fun round =>
      (List.range workers).map (.sendMessage round) ++
        (List.range workers).map (.collectAnswer round)) ++
    (List.range workers).map .dismiss ++ (List.range workers).map .closeChannel

theorem agenda_eq (workers rounds : Nat) :
    agenda workers rounds = (List.range workers).map .openChannel ++ later workers rounds := by
  simp only [agenda, later, List.append_assoc]

variable {worker index workers rounds : Nat}

theorem errands_map (task : Nat → Task) (about : ∀ worker, (task worker).worker = worker)
    (member : worker < workers) :
    errands worker ((List.range workers).map task) = [task worker] := by
  have once : (List.range workers).filter (fun other => other = worker) = [worker] := by
    have same : (fun other : Nat => decide (other = worker)) = (· == worker) := rfl
    have once := List.count_eq_one_of_mem List.nodup_range (List.mem_range.mpr member)
    rw [same, List.filter_beq, once]
    rfl
  have about' : (fun other => decide ((task other).worker = worker)) =
      fun other => decide (other = worker) := by
    funext other
    rw [about other]
  rw [errands, List.filter_map]
  show ((List.range workers).filter fun other => decide ((task other).worker = worker)).map task = _
  rw [about', once]
  rfl

theorem flatMap_perm_cons {α : Type} {member : Nat} {entry : α} {before after : Nat → List α}
    (inside : member < workers) (here : before member = entry :: after member)
    (others : ∀ other, other ≠ member → after other = before other) :
    ((List.range workers).flatMap before).Perm (entry :: (List.range workers).flatMap after) := by
  induction workers with
  | zero => exact absurd inside (Nat.not_lt_zero member)
  | succ workers ih =>
      simp only [List.range_succ, List.flatMap_append, List.flatMap_cons, List.flatMap_nil,
        List.append_nil]
      by_cases last : member = workers
      · have same : (List.range workers).flatMap before = (List.range workers).flatMap after := by
          apply List.flatMap_congr
          intro other below
          have different : other ≠ member := by
            have bound := List.mem_range.mp below
            omega
          exact (others other different).symm
        rw [same, ← last, here]
        exact List.perm_middle
      · rw [others workers (Ne.symm last)]
        have below : member < workers := by omega
        exact (ih below).append_right _

theorem errands_append (worker : Nat) (first second : List Task) :
    errands worker (first ++ second) = errands worker first ++ errands worker second :=
  List.filter_append ..

theorem errands_cons {task : Task} (about : task.worker = index) (tasks : List Task) :
    errands index (task :: tasks) = task :: errands index tasks := by
  simp only [errands, List.filter_cons, about, decide_true, if_true]

theorem errands_other {task : Task} {other : Nat} (different : other ≠ task.worker)
    (tasks : List Task) : errands other tasks = errands other (task :: tasks) := by
  simp only [errands, List.filter_cons, different.symm, decide_false, Bool.false_eq_true, if_false]

/-- Round after round a message is sent and an answer collected, and at the end the worker is
dismissed and its channel closed. -/
theorem errands_later (member : worker < workers) (rounds : Nat) :
    errands worker (later workers rounds) = itinerary worker 0 rounds := by
  have rest (round left : Nat) : (List.range' round left).flatMap (fun round =>
      [Task.sendMessage round worker, .collectAnswer round worker]) ++
        [.dismiss worker, .closeChannel worker] = itinerary worker round left := by
    induction left generalizing round with
    | zero => rfl
    | succ left ih =>
        rw [List.range'_succ, List.flatMap_cons, List.append_assoc, ih]
        rfl
  have each (round : Nat) : errands worker ((List.range workers).map (.sendMessage round) ++
      (List.range workers).map (.collectAnswer round)) =
        [.sendMessage round worker, .collectAnswer round worker] := by
    rw [errands_append, errands_map (.sendMessage round) (fun _ => rfl) member,
      errands_map (.collectAnswer round) (fun _ => rfl) member]
    rfl
  have before : errands worker ((List.range rounds).flatMap fun round =>
      (List.range workers).map (.sendMessage round) ++
        (List.range workers).map (.collectAnswer round)) =
      (List.range rounds).flatMap fun round =>
        [.sendMessage round worker, .collectAnswer round worker] := by
    rw [errands, List.filter_flatMap]
    exact List.flatMap_congr fun round _ => each round
  rw [later, errands_append, errands_append, before,
    errands_map .dismiss (fun _ => rfl) member, errands_map .closeChannel (fun _ => rfl) member,
    List.append_assoc, List.range_eq_range']
  exact rest 0 rounds

theorem errands_agenda (member : worker < workers) :
    errands worker (agenda workers rounds) = .openChannel worker :: itinerary worker 0 rounds := by
  rw [agenda_eq, errands_append, errands_map .openChannel (fun _ => rfl) member,
    errands_later member]
  rfl

theorem later_worker {task : Task} (member : task ∈ later workers rounds) :
    task.opens = false ∧ task.worker < workers := by
  simp only [later, List.mem_append, List.mem_flatMap, List.mem_map, List.mem_range] at member
  rcases member with (⟨round, _, ⟨worker, bound, same⟩ | ⟨worker, bound, same⟩⟩ |
    ⟨worker, bound, same⟩) | ⟨worker, bound, same⟩
  all_goals
    rw [← same]
    exact ⟨rfl, bound⟩

/-- The tasks, worker by worker. -/
theorem errands_perm (tasks : List Task) (known : ∀ task ∈ tasks, task.worker < workers) :
    tasks.Perm ((List.range workers).flatMap fun worker => errands worker tasks) := by
  induction tasks with
  | nil =>
      have empty : ((List.range workers).flatMap fun worker => errands worker []) = [] :=
        List.flatMap_eq_nil_iff.mpr fun _ _ => rfl
      rw [empty]
  | cons task rest ih =>
      have further := ih fun other member => known other (List.mem_cons_of_mem task member)
      have here := flatMap_perm_cons (known task List.mem_cons_self) (errands_cons rfl rest)
        fun other different => errands_other different rest
      exact (further.cons task).trans here.symm

/-! ### What is said -/

def line (round worker : Nat) : String :=
  "round " ++ toString round ++ " " ++ ("worker-" ++ toString worker) ++ ": " ++
    (Sample.shape round).name ++ " -> " ++ Sample.summary worker round

def Task.line? : Task → Option String
  | .collectAnswer round worker => some (line round worker)
  | _ => none

/-- The lines come round after round, and in each round worker after worker. -/
theorem lines_agenda (workers rounds : Nat) :
    (agenda workers rounds).filterMap Task.line? =
      (List.range rounds).flatMap fun round => (List.range workers).map (line round) := by
  have silent (task : Nat → Task) (mute : ∀ worker, (task worker).line? = none) :
      ((List.range workers).map task).filterMap Task.line? = [] := by
    rw [List.filterMap_map, List.filterMap_eq_nil_iff]
    exact fun worker _ => mute worker
  have each (round : Nat) : ((List.range workers).map (Task.sendMessage round) ++
      (List.range workers).map (Task.collectAnswer round)).filterMap Task.line? =
        (List.range workers).map (line round) := by
    rw [List.filterMap_append, silent (.sendMessage round) fun _ => rfl, List.filterMap_map,
      List.nil_append]
    exact congrFun List.filterMap_eq_map' _
  rw [agenda_eq, later, List.filterMap_append, List.filterMap_append, List.filterMap_append,
    silent .openChannel fun _ => rfl, silent .dismiss fun _ => rfl,
    silent .closeChannel fun _ => rfl, List.filterMap_flatMap, List.append_nil, List.append_nil,
    List.nil_append]
  exact List.flatMap_congr fun round _ => each round

/-! ### What is recorded -/

def handle (worker : Nat) (side : Side) : Handle :=
  { slot := worker + 1, side }

/-- The channel to a worker was opened or looked up. -/
def found (operation : Operation) (worker : Nat) (side : Side) : Event :=
  Event.ofKey operation (100 + worker) (some (handle worker side).toRaw)

/-- A message of a form moved at one end of a channel. -/
def moved (operation : Operation) (worker : Nat) (side : Side) (form : String) : Event :=
  Event.ofHandle operation (handle worker side).toRaw (some form) true

/-- A channel was closed at one end. -/
def parted (worker : Nat) (side : Side) : Event :=
  Event.ofHandle .close (handle worker side).toRaw none true

/-- The steps of a task, each with the event that it leaves, if any. An operation that may have to
wait is begun first and then carried out. -/
def Task.script : Task → List (Option Event)
  | .openChannel worker => [some (found .create worker .master)]
  | .sendMessage round worker => [none, some (moved .send worker .master (Sample.form round))]
  | .collectAnswer round worker =>
      [none, some (moved .receive worker .master (Sample.answerForm round))]
  | .dismiss worker => [none, some (moved .send worker .master "plain")]
  | .closeChannel worker => [some (parted worker .master)]

/-- The steps of a worker that has begun to wait for a message, when so many rounds are left. -/
def answers (worker round : Nat) : Nat → List (Option Event)
  | 0 => [some (moved .receive worker .worker "plain"), some (parted worker .worker)]
  | left + 1 => some (moved .receive worker .worker (Sample.form round)) ::
      some (moved .send worker .worker (Sample.answerForm round)) :: none ::
        answers worker (round + 1) left

/-- The steps of a worker from its start on. -/
def service (worker rounds : Nat) : List (Option Event) :=
  some (found .get worker .worker) :: none :: answers worker 0 rounds

/-- All steps of a run. -/
def steps (workers rounds : Nat) : List (Option Event) :=
  (agenda workers rounds).flatMap Task.script ++
    (List.range workers).flatMap fun worker => service worker rounds

/-- The events of one round with a worker: the message and the answer, at both ends. -/
def exchanged (worker round : Nat) : List Event :=
  [moved .send worker .master (Sample.form round),
    moved .receive worker .worker (Sample.form round),
    moved .send worker .worker (Sample.answerForm round),
    moved .receive worker .master (Sample.answerForm round)]

/-- The events of the end: the dismissal, at both ends, and the two closes. -/
def farewell (worker : Nat) : List Event :=
  [moved .send worker .master "plain", moved .receive worker .worker "plain",
    parted worker .worker, parted worker .master]

/-- The events of a channel from its opening to its end. -/
def conversation (worker rounds : Nat) : List Event :=
  [found .create worker .master, found .get worker .worker] ++
    (List.range rounds).flatMap (exchanged worker) ++ farewell worker

theorem ok_conversation (worker rounds : Nat) {event : Event}
    (member : event ∈ conversation worker rounds) : event.ok = true := by
  simp only [conversation, exchanged, farewell, List.mem_append, List.mem_flatMap, List.mem_cons,
    List.not_mem_nil, or_false] at member
  rcases member with ((rfl | rfl) | ⟨round, _, rfl | rfl | rfl | rfl⟩) | rfl | rfl | rfl | rfl
  all_goals rfl

theorem events_rounds (worker round left : Nat) :
    ((itinerary worker round left).flatMap Task.script ++
        answers worker round left).reduceOption.Perm
      ((List.range' round left).flatMap (exchanged worker) ++ farewell worker) := by
  induction left generalizing round with
  | zero =>
      rw [List.perm_iff_count]
      intro event
      simp only [itinerary, answers, farewell, Task.script, List.flatMap_cons, List.flatMap_nil,
        List.reduceOption_append, List.reduceOption_cons_of_some, List.reduceOption_cons_of_none,
        List.reduceOption_nil, List.range'_zero, List.count_append, List.count_cons,
        List.count_nil]
      omega
  | succ left ih =>
      rw [List.perm_iff_count]
      intro event
      have further := List.perm_iff_count.mp (ih (round + 1)) event
      simp only [List.reduceOption_append, List.count_append] at further
      simp only [itinerary, answers, exchanged, Task.script, List.flatMap_cons,
        List.reduceOption_append, List.reduceOption_cons_of_some, List.reduceOption_cons_of_none,
        List.reduceOption_nil, List.range'_succ, List.count_append, List.count_cons,
        List.count_nil]
      omega

theorem length_rounds (worker round left : Nat) :
    ((itinerary worker round left).flatMap Task.script ++ answers worker round left).length =
      7 * left + 5 := by
  induction left generalizing round with
  | zero => rfl
  | succ left ih =>
      have further := ih (round + 1)
      simp only [itinerary, answers, Task.script, List.flatMap_cons, List.length_append,
        List.length_cons, List.length_nil] at further ⊢
      omega

/-- The steps of the master with a worker, and those of the worker. -/
def course (worker rounds : Nat) : List (Option Event) :=
  some (found .create worker .master) :: (itinerary worker 0 rounds).flatMap Task.script ++
    service worker rounds

theorem steps_perm (workers rounds : Nat) :
    (steps workers rounds).Perm
      ((List.range workers).flatMap fun worker => course worker rounds) := by
  have known : ∀ task ∈ agenda workers rounds, task.worker < workers := by
    intro task member
    rw [agenda_eq, List.mem_append] at member
    rcases member with opening | further
    · obtain ⟨worker, inside, same⟩ := List.mem_map.mp opening
      rw [← same]
      exact List.mem_range.mp inside
    · exact (later_worker further).2
  have master : ((agenda workers rounds).flatMap Task.script).Perm
      ((List.range workers).flatMap fun worker =>
        (errands worker (agenda workers rounds)).flatMap Task.script) := by
    rw [← List.flatMap_assoc]
    exact (errands_perm _ known).flatMap_right _
  have whole := (master.append_right
    ((List.range workers).flatMap fun worker => service worker rounds)).trans
      (List.flatMap_append_perm _ _ _)
  have same : ((List.range workers).flatMap fun worker =>
      (errands worker (agenda workers rounds)).flatMap Task.script ++ service worker rounds) =
        (List.range workers).flatMap fun worker => course worker rounds := by
    apply List.flatMap_congr
    intro worker inside
    rw [errands_agenda (List.mem_range.mp inside)]
    rfl
  rw [same] at whole
  exact whole

theorem events_steps (workers rounds : Nat) :
    (steps workers rounds).reduceOption.Perm
      ((List.range workers).flatMap fun worker => conversation worker rounds) := by
  have each (worker : Nat) : (course worker rounds).reduceOption.Perm
      (conversation worker rounds) := by
    have rounds_ := events_rounds worker 0 rounds
    rw [List.perm_iff_count] at rounds_ ⊢
    intro event
    have further := rounds_ event
    simp only [List.reduceOption_append, List.count_append] at further
    simp only [course, service, conversation, List.range_eq_range', List.reduceOption_append,
      List.cons_append, List.reduceOption_cons_of_some, List.reduceOption_cons_of_none,
      List.count_append, List.count_cons, List.count_nil]
    omega
  have events := (steps_perm workers rounds).filterMap id
  rw [List.filterMap_flatMap] at events
  exact events.trans (.flatMap_left _ fun worker _ => each worker)

theorem length_steps (workers rounds : Nat) :
    (steps workers rounds).length = workers * (7 * rounds + 8) := by
  have each (worker : Nat) : (course worker rounds).length = 7 * rounds + 8 := by
    have further := length_rounds worker 0 rounds
    simp only [course, service, List.length_append, List.length_cons, List.cons_append] at further ⊢
    omega
  rw [(steps_perm workers rounds).length_eq, List.length_flatMap]
  simp only [each, List.map_const', List.sum_replicate_nat, List.length_range]

theorem steps_bounded (workers rounds : Nat) :
    workers * (7 * rounds + 8) ≤ State.stepBound workers rounds := by
  have tasks (tasks : List Task) : (tasks.flatMap Task.script).length ≤ 2 * tasks.length := by
    induction tasks with
    | nil => exact Nat.le_refl _
    | cons task rest ih =>
        have short : task.script.length ≤ 2 := by
          cases task with
          | sendMessage | collectAnswer | dismiss => exact Nat.le_refl 2
          | openChannel | closeChannel => exact Nat.le_succ 1
        rw [List.flatMap_cons, List.length_append, List.length_cons]
        omega
  have further (worker round left : Nat) : (answers worker round left).length = 3 * left + 2 := by
    induction left generalizing round with
    | zero => rfl
    | succ left ih =>
        have more := ih (round + 1)
        simp only [answers, List.length_cons] at more ⊢
        omega
  have served (worker : Nat) : (service worker rounds).length = 3 * rounds + 4 := by
    simp only [service, List.length_cons, further]
  have all := length_steps workers rounds
  have master := tasks (agenda workers rounds)
  have each : workers * (3 * rounds + 4) ≤ workers * (4 * (rounds + 1) + 4) :=
    Nat.mul_le_mul_left _ (by omega)
  have services : ((List.range workers).flatMap fun worker => service worker rounds).length =
      workers * (3 * rounds + 4) := by
    rw [List.length_flatMap]
    simp only [served, List.map_const', List.sum_replicate_nat, List.length_range]
  rw [steps, List.length_append, services] at all
  rw [State.stepBound]
  omega

end ValueChannels.Demo
