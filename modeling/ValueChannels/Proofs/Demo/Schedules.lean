import ValueChannels.Demo.CommandLine
import ValueChannels.Proofs.Demo.Managing
import ValueChannels.Proofs.Exchange.Conduct

/-!
Runs of the demonstration in any order. Every step is one of those that are due, there are as many
steps as are due at the beginning, and somebody can always take the next one. Main statement:
`settled_schedules`.
-/

namespace ValueChannels.Demo

open Sample Exchange

/-- The state after steps of these actors one after the other, if each of them can take its step. -/
def State.play (state : State) : List Actor → Option State
  | [] => some state
  | actor :: schedule => (state.step actor).bind fun next => next.play schedule

def beginning (options : Options) (config : RegistryConfig) : State :=
  State.initial { Registry.ofConfig config with log := if options.events then some [] else none }
    options.workers options.rounds

variable {observed : Bool} {workers rounds : Nat} {state : State} {options : Options}
  {config : RegistryConfig} {done ahead : List (Option Event)} {dues : Nat → List (Option Event)}

/-! ### The beginning -/

theorem stage_agenda (workers rounds : Nat) : Stage workers rounds (agenda workers rounds) 0 := by
  refine ⟨Nat.zero_le workers, later workers rounds, ?_, fun _ => rfl, fun _ => later_worker⟩
  rw [agenda_eq, List.range_eq_range']
  rfl

theorem onCourse_beginning (options : Options) (valid : config.validate = .ok ())
    (spans : Table.Spans config.initialCapacity config.growFactor options.workers) :
    OnCourse options.events options.workers options.rounds (beginning options config) []
      ((agenda options.workers options.rounds).flatMap Task.script)
      fun worker => service worker options.rounds := by
  let registry : Registry :=
    { Registry.ofConfig config with log := if options.events then some [] else none }
  have nobody : (Exchange.initial registry).Staffed 0 :=
    ⟨rfl, fun index context holder => by simp [Exchange.initial] at holder⟩
  obtain ⟨staffed, retains⟩ := nobody.addContext "master"
  have null : Heap.initial.Holds Ref.null .null none := ⟨by decide, rfl, rfl⟩
  have unused (slot : Nat) :
      (beginning options config).exchange.registry.table.entry slot = .unused :=
    Table.entry_ofCapacity config.initialCapacity slot
  constructor
  · rfl
  · rfl
  · exact retains.holds null
  · exact retains.size
  · exact Traffic.grows_of_validate valid
  · show Table.Spans (Table.ofCapacity config.initialCapacity).capacity _ _
    rw [Table.capacity_ofCapacity (Traffic.rooms_of_validate valid)]
    exact spans
  · exact staffed
  · rfl
  · rfl
  · exact stage_agenda options.workers options.rounds
  · exact fun index _ => unused (index + 1)
  · rfl
  · rfl
  · exact .idle _
  · intro index member
    have errand : errands index (agenda options.workers options.rounds) =
        .openChannel index :: itinerary index 0 options.rounds := errands_agenda member
    have view : (beginning options config).view index =
        { errands := .openChannel index :: itinerary index 0 options.rounds, worker := none
          id := none, toWorker := none, toMaster := none, entry := .unused } := by
      rw [← errand, ← unused (index + 1)]
      rfl
    rw [view]
    exact .absent
  · exact .refl _

/-! ### Runs -/

/-- Every run goes step by step through what is due. -/
theorem OnCourse.play (course : OnCourse observed workers rounds state done ahead dues)
    (fits : 100 + workers < 2147483648) {schedule : List Actor} {last : State}
    (played : state.play schedule = some last) :
    ∃ entries ahead dues, entries.length = schedule.length ∧
      OnCourse observed workers rounds last (done ++ entries) ahead dues := by
  induction schedule generalizing state done ahead dues with
  | nil =>
      cases played
      exact ⟨[], ahead, dues, rfl, by rw [List.append_nil]; exact course⟩
  | cons actor schedule ih =>
      obtain ⟨next, steps, played⟩ := Option.bind_eq_some_iff.mp played
      obtain ⟨entry, ahead, dues, further⟩ := course.step fits steps
      obtain ⟨entries, ahead, dues, length, whole⟩ := ih further played
      refine ⟨entry :: entries, ahead, dues, congrArg Nat.succ length, ?_⟩
      rw [List.append_assoc] at whole
      exact whole

theorem OnCourse.length_le (course : OnCourse observed workers rounds state done ahead dues) :
    done.length ≤ workers * (7 * rounds + 8) := by
  rw [← length_steps, ← course.due.length_eq, List.length_append]
  exact Nat.le_add_right ..

/-- As long as a run is not over somebody can go on. -/
theorem OnCourse.progress (course : OnCourse observed workers rounds state done ahead dues)
    (fits : 100 + workers < 2147483648) (unfinished : state.isOver = false) :
    ∃ actor, Acts observed workers rounds state done actor := by
  have more : state.tasks ≠ [] := by
    intro nothing
    rw [State.isOver, nothing] at unfinished
    cases unfinished
  rcases course.master_acts fits more with ⟨_, index, acts⟩ | acts
  · exact ⟨.worker index, acts⟩
  · exact ⟨.master, acts⟩

theorem OnCourse.complete (course : OnCourse observed workers rounds state done ahead dues)
    (ended : state.isOver = true) :
    done.Perm (steps workers rounds) ∧
      state.lines.reverse = (agenda workers rounds).filterMap Task.line? := by
  have nothing : state.tasks = [] := by
    rw [State.isOver, course.running] at ended
    simpa using ended
  have pends := course.pending
  rw [nothing] at pends
  have ahead_ : ahead = [] := pends.over_due
  have dues_ : (List.range workers).flatMap dues = [] := by
    rw [List.flatMap_eq_nil_iff]
    intro index inside
    have errand : (state.view index).errands = [] := by
      show errands index state.tasks = []
      rw [nothing]
      rfl
    exact (course.desks index (List.mem_range.mp inside)).over_due errand
  constructor
  · have due := course.due
    rw [ahead_, dues_, List.append_nil, List.append_nil] at due
    exact due
  · have said := course.said
    rw [nothing, List.filterMap_nil, List.append_nil] at said
    exact said

/-! ### What is left behind -/

def announced (round worker : Nat) : String :=
  let (environments, heap) := Environments.create Heap.initial
  let (message, heap) := Sample.message heap environments worker round
  "round " ++ toString round ++ " " ++ ("worker-" ++ toString worker) ++ ": "
    ++ (heap.kind message).name ++ " -> " ++ Sample.describe heap message

theorem announced_eq (round worker : Nat) : announced round worker = line round worker := by
  obtain ⟨isGlobal, created⟩ := global_create Heap.initial
  obtain ⟨shown, retains⟩ := shows_message (Environments.create Heap.initial).2
    (Environments.create Heap.initial).1 isGlobal worker round
  have room := Nat.le_trans created.size retains.size
  simp only [announced, line, kind_shown shown, describe_shown shown room]

/-- What every run leaves behind: with these options nothing depends on the order of the steps, but
for the order of the events. -/
structure Report.Settled (options : Options) (report : Report) : Prop where
  status : report.status = 0
  error : report.error = none
  lines : report.lines = if options.events then [] else
    (List.range options.rounds).flatMap fun round =>
      (List.range options.workers).map (announced round)
  events : report.events.Perm (if options.events then
    (List.range options.workers).flatMap fun worker => conversation worker options.rounds else [])
  ok : ∀ event ∈ report.events, event.ok = true

theorem OnCourse.settled
    (course : OnCourse options.events options.workers options.rounds state done ahead dues)
    (ended : state.isOver = true) : (state.report options.events).Settled options := by
  obtain ⟨whole, said⟩ := course.complete ended
  have events : (state.report options.events).events.Perm (if options.events then
      (List.range options.workers).flatMap fun worker => conversation worker options.rounds
        else []) := by
    have recorded : (state.report options.events).events =
        ((state.exchange.registry.log).getD []).reverse := rfl
    rw [recorded, course.log]
    cases options.events with
    | false => exact .refl _
    | true =>
        have same : ((some done.reduceOption.reverse).getD []).reverse = done.reduceOption :=
          List.reverse_reverse _
        show (((some done.reduceOption.reverse).getD []).reverse).Perm _
        rw [same]
        exact (whole.filterMap id).trans (events_steps options.workers options.rounds)
  constructor
  · rw [State.report, course.running]
    rfl
  · rw [State.report, course.running]
    rfl
  · have same (round : Nat) : announced round = line round := funext (announced_eq round)
    simp only [State.report, said, lines_agenda, same]
  · exact events
  · intro event member
    have member := events.mem_iff.mp member
    split at member
    · obtain ⟨worker, _, conversed⟩ := List.mem_flatMap.mp member
      exact ok_conversation worker options.rounds conversed
    · cases member

/-! ### The run of the program -/

theorem runFor_plays (bound : Nat) (state : State) :
    ∃ schedule, state.play schedule = some (State.runFor bound state) ∧
      (schedule.length = bound ∨ (State.runFor bound state).advance = none) := by
  induction bound generalizing state with
  | zero => exact ⟨[], rfl, Or.inl rfl⟩
  | succ bound ih =>
      cases ahead : state.advance with
      | none =>
          have stays : State.runFor (bound + 1) state = state := by
            rw [State.runFor, ahead]
          rw [stays]
          exact ⟨[], rfl, Or.inr ahead⟩
      | some next =>
          have goes : State.runFor (bound + 1) state = State.runFor bound next := by
            rw [State.runFor, ahead]
          obtain ⟨actor, _, steps⟩ := List.exists_of_findSome?_eq_some ahead
          obtain ⟨schedule, played, halted⟩ := ih next
          refine ⟨actor :: schedule, ?_, ?_⟩
          · rw [State.play, steps, goes]
            exact played
          · rw [goes]
            exact halted.imp_left (congrArg Nat.succ)

theorem OnCourse.advance (course : OnCourse observed workers rounds state done ahead dues)
    (fits : 100 + workers < 2147483648) (unfinished : state.isOver = false) :
    state.advance ≠ none := by
  obtain ⟨actor, next, _, _, _, steps, _⟩ := course.progress fits unfinished
  intro nobody
  have stuck := List.findSome?_eq_none_iff.mp nobody
  have known : actor ∈ Actor.master :: (List.range state.workers.length).map .worker := by
    cases actor with
    | master => exact List.mem_cons_self
    | worker index =>
        have inside : index < state.workers.length := by
          apply Nat.lt_of_not_le
          intro beyond
          rw [step_missing (List.getElem?_eq_none beyond)] at steps
          cases steps
        exact List.mem_cons_of_mem _ (List.mem_map.mpr ⟨index, List.mem_range.mpr inside, rfl⟩)
  rw [stuck actor known] at steps
  cases steps

/-- The steps that the program takes come to an end, before or when it has taken enough. -/
theorem run_complete (valid : config.validate = .ok ())
    (fits : 100 + options.workers < 2147483648)
    (spans : Table.Spans config.initialCapacity config.growFactor options.workers) :
    ∃ schedule, (beginning options config).play schedule = some (State.runFor
        (State.stepBound options.workers options.rounds) (beginning options config)) ∧
      (State.runFor (State.stepBound options.workers options.rounds)
        (beginning options config)).isOver = true := by
  obtain ⟨schedule, played, halted⟩ :=
    runFor_plays (State.stepBound options.workers options.rounds) (beginning options config)
  generalize State.runFor (State.stepBound options.workers options.rounds)
    (beginning options config) = last at played halted
  obtain ⟨entries, ahead, dues, length, course⟩ :=
    (onCourse_beginning options valid spans).play fits played
  refine ⟨schedule, played, ?_⟩
  cases ended : last.isOver with
  | true => rfl
  | false =>
      rcases halted with most | stuck
      · -- There is another step that is due, so that there were more steps than there are.
        obtain ⟨_, _, _, _, _, _, further⟩ := course.progress fits ended
        have longer := further.length_le
        have bounded := steps_bounded options.workers options.rounds
        rw [List.length_append, List.nil_append, length, most, List.length_singleton] at longer
        omega
      · exact absurd stuck (course.advance fits ended)

/-- What a run of the demonstration leaves behind does not depend on the order in which master and
workers take their steps. -/
theorem settled_schedules {read : String → ConfigFile}
    (configured : configOf options read = .ok config) (valid : config.validate = .ok ())
    (fits : 100 + options.workers < 2147483648)
    (spans : Table.Spans config.initialCapacity config.growFactor options.workers) :
    (∀ schedule state, (beginning options config).play schedule = some state →
      state.failure = none ∧ schedule.length ≤ options.workers * (7 * options.rounds + 8) ∧
      (state.isOver = false → ∃ actor next, state.step actor = some next) ∧
      (state.isOver = true → (state.report options.events).Settled options)) ∧
    ∃ schedule state, (beginning options config).play schedule = some state ∧
      state.isOver = true ∧ perform options read = state.report options.events := by
  constructor
  · intro schedule state played
    obtain ⟨entries, ahead, dues, length, course⟩ :=
      (onCourse_beginning options valid spans).play fits played
    refine ⟨course.running, ?_, ?_, course.settled⟩
    · rw [← length]
      exact course.length_le
    · intro unfinished
      obtain ⟨actor, next, _, _, _, steps, _⟩ := course.progress fits unfinished
      exact ⟨actor, next, steps⟩
  · obtain ⟨schedule, played, ended⟩ := run_complete valid fits spans
    refine ⟨schedule, _, played, ended, ?_⟩
    have created : Registry.create config = .ok (Registry.ofConfig config) := by
      rw [Registry.create, valid]
    have recorder : (if options.events then { Registry.ofConfig config with log := some [] }
        else Registry.ofConfig config) =
          { Registry.ofConfig config with log := if options.events then some [] else none } := by
      cases options.events <;> rfl
    simp only [perform, configured, created, recorder]
    rfl

/-- Two workers get a message of every shape. -/
theorem settled_twoWorkers :
    let options : Options :=
      { workers := 2, rounds := 7, config := none, initialCapacity := none, events := true }
    configOf options (fun _ => .missing) = .ok RegistryConfig.standard ∧
      RegistryConfig.standard.validate = .ok () ∧ 100 + options.workers < 2147483648 ∧
      Table.Spans RegistryConfig.standard.initialCapacity RegistryConfig.standard.growFactor
        options.workers ∧
      (perform options fun _ => .missing).Settled options := by
  intro options
  have configured : configOf options (fun _ => .missing) = .ok RegistryConfig.standard := rfl
  have valid : RegistryConfig.standard.validate = .ok () := rfl
  have fits : 100 + options.workers < 2147483648 := by decide
  have spans : Table.Spans RegistryConfig.standard.initialCapacity
      RegistryConfig.standard.growFactor options.workers := .of_lt (by decide)
  obtain ⟨every, schedule, state, played, ended, same⟩ :=
    settled_schedules configured valid fits spans
  have settled := (every schedule state played).2.2.2 ended
  rw [← same] at settled
  exact ⟨configured, valid, fits, spans, settled⟩

end ValueChannels.Demo
