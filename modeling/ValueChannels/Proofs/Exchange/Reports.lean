import ValueChannels.Proofs.Exchange.Failure
import ValueChannels.Proofs.Exchange.Order

/-!
What an observer is told of calls. A call ends with an answer to its caller, at once or in one of its
sections, and the event that goes with it says what the answer says: whether the call succeeded, the
key or the handle, and the form of the message that it moved. Main statements: `reported_step` for one
step of the traffic, and `reports_run` for whole runs.
-/

namespace ValueChannels

/-- What a call that has ended came to: what it was asked for, what was answered, and the message that
it put into a queue or took off one. -/
inductive Answer where
  | create (key : Int) (result : Except ChannelError Handle)
  | get (key : Int) (result : Except ChannelError Handle)
  | close (handle : Handle) (result : Except ChannelError Unit)
  | send (handle : Handle) (deposited : Option Message) (outcome : Outcome)
  | receive (handle : Handle) (taken : Option Message) (outcome : Outcome)
  | poll (handle : Handle) (taken : Option Message) (outcome : Outcome)

namespace Answer

/-- The event of a call. It names the key of a call that has one and the handle that was found, or the
handle that the call was made with; and the form of a message that moved, built or not. -/
def event : Answer → Event
  | .create key result =>
      { operation := .create, key := some key, handle := result.toOption.map Handle.toRaw
        form := none, ok := result.isOk }
  | .get key result =>
      { operation := .get, key := some key, handle := result.toOption.map Handle.toRaw
        form := none, ok := result.isOk }
  | .close handle result =>
      { operation := .close, key := none, handle := some handle.toRaw
        form := none, ok := result.isOk }
  | .send handle deposited outcome =>
      { operation := .send, key := none, handle := some handle.toRaw
        form := deposited.map Message.form, ok := outcome.isOk }
  | .receive handle taken outcome =>
      { operation := .receive, key := none, handle := some handle.toRaw
        form := taken.map Message.form, ok := outcome.isOk }
  | .poll handle taken outcome =>
      { operation := .poll, key := none, handle := some handle.toRaw
        form := taken.map Message.form, ok := outcome.isOk }

/-- A send has put its message into a queue exactly when it succeeds. A receive that succeeds has taken
a message, and so has a poll that answers a value. -/
def Fits : Answer → Prop
  | .send _ deposited outcome => deposited.isSome = outcome.isOk
  | .receive _ taken outcome => outcome.isOk = true → taken.isSome = true
  | .poll _ taken outcome => ∀ value, outcome = .ok (some value) → taken.isSome = true
  | _ => True

variable (handle : Handle) (taken : Option Message)

theorem fits_receive_failed (err : ChannelError) : (receive handle taken (.error err)).Fits := by
  intro succeeded
  cases succeeded

theorem fits_poll_failed (err : ChannelError) : (poll handle taken (.error err)).Fits := by
  intro value found
  cases found

theorem fits_poll_nothing : (poll handle taken (.ok none)).Fits := by
  intro value found
  cases found

end Answer

/-- The answer of a call that went through sections. -/
def Completion.answer (completion : Completion) : Answer :=
  match completion.errand with
  | .convert _ handle _ _ => .send handle none completion.outcome
  | .wait { handle, job := .deposit message, .. } =>
      .send handle (if completion.outcome.isOk then some message else none) completion.outcome
  | .wait { handle, job := .take, .. } => .receive handle completion.taken completion.outcome
  | .poll _ handle _ => .poll handle completion.taken completion.outcome
  | .close handle _ _ => .close handle (completion.outcome.map fun _ => ())

namespace Exchange

/-- Calls have ended with these answers in between, and each has been recorded. -/
structure Reported (before after : Exchange) (answers : List Answer) : Prop where
  log : after.registry.log = before.registry.log.map ((answers.map Answer.event).reverse ++ ·)
  fits : ∀ answer ∈ answers, answer.Fits

variable {before middle after : Exchange} {answer : Answer} {first second : List Answer}

theorem Reported.silent (log : after.registry.log = before.registry.log) :
    before.Reported after [] := by
  refine ⟨?_, List.forall_mem_nil _⟩
  rw [log]
  cases before.registry.log <;> rfl

theorem Reported.single
    (log : after.registry.log = before.registry.log.map (answer.event :: ·)) (fits : answer.Fits) :
    before.Reported after [answer] :=
  ⟨log, List.forall_mem_singleton.mpr fits⟩

theorem Reported.trans (one : before.Reported middle first) (two : middle.Reported after second) :
    before.Reported after (first ++ second) := by
  constructor
  · rw [two.log, one.log, Option.map_map, List.map_append, List.reverse_append]
    congr 1
    funext events
    exact (List.append_assoc _ _ _).symm
  · intro answer member
    rcases List.mem_append.mp member with old | new
    · exact one.fits answer old
    · exact two.fits answer new

/-! ### Calls and sections -/

variable (exchange : Exchange)

theorem reported_create (key : Int) :
    exchange.Reported (exchange.create key).2
      ((exchange.create key).1.map (Answer.create key)).toList := by
  unfold create
  dsimp only
  split
  · exact .silent rfl
  · exact .single rfl trivial
  · exact .single rfl trivial

theorem reported_get (key : Int) :
    exchange.Reported (exchange.get key).2 [.get key (exchange.get key).1] := by
  unfold get
  split
  · exact .single rfl trivial
  · exact .single rfl trivial

theorem log_register (context : Nat) (handle : Handle) (queue : QueueId) (job : Job Message) :
    (exchange.register context handle queue job).2.registry.log = exchange.registry.log := by
  unfold register
  split <;> rfl

theorem log_finishTake (context : Nat) (handle : Handle) (operation : Operation)
    (message : Message) :
    (exchange.finishTake context handle operation message).2.registry.log =
      exchange.registry.log.map ((Event.ofHandle operation handle.toRaw (some message.form)
        (exchange.finishTake context handle operation message).1.isOk) :: ·) := by
  unfold finishTake
  split
  · rfl
  · split <;> rfl

theorem reported_finish (call : Nat) (operation : Underway)
    {ended : Except WaitError (Option Message)}
    (moved : operation.job = .take → ended ≠ .ok none) :
    exchange.Reported (exchange.finish operation ended).2
      [Completion.answer
        { call, errand := .wait operation, taken := ended.toOption.join
          outcome := (exchange.finish operation ended).1 }] := by
  obtain ⟨context, handle, queue, token, job⟩ := operation
  cases job with
  | deposit message =>
      cases ended with
      | error err => exact .single rfl rfl
      | ok item => exact .single rfl rfl
  | take =>
      cases ended with
      | error err => exact .single rfl (Answer.fits_receive_failed _ _ _)
      | ok item =>
          cases item with
          | none => exact absurd rfl (moved rfl)
          | some message => exact .single (exchange.log_finishTake _ _ _ _) fun _ => rfl

theorem reported_attempt (call : Nat) (operation : Underway) :
    exchange.Reported (exchange.attempt operation).2
      ((exchange.attempt operation).1.toList.map fun outcome =>
        Completion.answer
          { call, errand := .wait operation, taken := exchange.taken? operation, outcome }) := by
  cases present : exchange.queue? operation.queue with
  | none =>
      simp only [attempt, present]
      exact .silent rfl
  | some slot =>
      cases owner : exchange.contexts[operation.context]? with
      | none =>
          simp only [attempt, present, owner]
          exact .silent rfl
      | some context =>
          have possible := slot_attempt_cases slot operation.job context.interrupt.raised
          simp only [attempt, taken?, present, owner]
          cases ended : (slot.attempt operation.job context.interrupt.raised).outcome with
          | none => exact .silent rfl
          | some outcome =>
              -- A removal that ends well never ends without a message.
              have moved : operation.job = .take → outcome ≠ .ok none := by
                rintro job rfl
                rw [ended, job] at possible
                rcases possible with
                  asleep | ⟨_, failed, _⟩ | ⟨_, deposits, _⟩ | ⟨_, _, _, took, _⟩
                · cases asleep
                · cases failed
                · cases deposits
                · cases took
              have reported := reported_finish
                ((exchange.setQueue operation.queue
                  (slot.attempt operation.job context.interrupt.raised).slot).setInterrupt
                    operation.context (Interrupt.release { context.interrupt with
                      raised := (slot.attempt operation.job context.interrupt.raised).raised }
                        operation.token)) call operation moved
              cases outcome with
              | error err => exact ⟨reported.log, reported.fits⟩
              | ok item => exact ⟨reported.log, reported.fits⟩

theorem reported_pollQueue (call context : Nat) (handle : Handle) (queue : QueueId) :
    exchange.Reported (exchange.pollQueue context handle queue).2
      [Completion.answer
        { call, errand := .poll context handle queue, taken := exchange.polled? queue
          outcome := (exchange.pollQueue context handle queue).1 }] := by
  cases present : exchange.queue? queue with
  | none =>
      simp only [pollQueue, polled?, present, Option.map_none]
      exact .single rfl (Answer.fits_poll_failed _ _ _)
  | some slot =>
      cases looked : slot.poll with
      | mk found emptied =>
          simp only [pollQueue, polled?, present, Option.map_some, looked]
          rcases found with err | (_ | message)
          · exact .single rfl (Answer.fits_poll_failed _ _ _)
          · exact .single rfl (Answer.fits_poll_nothing _ _)
          · exact .single (log_finishTake _ _ _ _ _) fun _ _ => rfl

theorem reported_convertSend (call context : Nat) (handle : Handle) (queue : QueueId)
    (value : Ref) : exchange.Reported (exchange.convertSend context handle queue value).2
      (match (exchange.convertSend context handle queue value).1 with
      | .error err =>
          [Completion.answer
            { call, errand := .convert context handle queue value, taken := none
              outcome := .error err }]
      | .ok _ => []) := by
  unfold convertSend
  split
  · exact .single rfl rfl
  · split
    · exact .single rfl rfl
    · exact .silent (log_register _ _ _ _ _)

end Exchange

/-- The move begins a call. -/
def Move.begins : Move → Bool
  | .create _ | .get _ | .close _ | .send _ _ _ | .receive _ _ | .poll _ _ => true
  | _ => false

namespace Traffic

/-! ### Moves -/

/-- The calls that have ended since an earlier state. -/
def since (traffic earlier : Traffic) : List Completion :=
  traffic.completions.drop earlier.completions.length

/-- The answers that are given in a move: to the call that it begins when that ends at once, or to the
one that it continues. -/
def answered (traffic : Traffic) : Move → List Answer
  | .create key => ((traffic.exchange.create key).1.map (Answer.create key)).toList
  | .get key => [.get key (traffic.exchange.get key).1]
  | .close handle =>
      match (traffic.exchange.withdraw handle).1 with
      | .error err => [.close handle (.error err)]
      | .ok none => [.close handle (.ok ())]
      | .ok (some _) => []
  | .send _ handle _ =>
      match traffic.exchange.channel? handle with
      | .error err => [.send handle none (.error err)]
      | .ok _ => []
  | .receive context handle =>
      match (traffic.exchange.startReceive context handle).1 with
      | .error err => [.receive handle none (.error err)]
      | .ok _ => []
  | .poll _ handle =>
      match traffic.exchange.channel? handle with
      | .error err => [.poll handle none (.error err)]
      | .ok _ => []
  | .proceed call => ((traffic.step (.proceed call)).since traffic).map Completion.answer
  | _ => []

/-- The move begins a call that ends its thread instead of being answered. -/
def aborts (traffic : Traffic) : Move → Bool
  | .create key => (traffic.exchange.create key).1.isNone
  | _ => false

/-- The number of calls that end their threads in the course of moves. -/
def aborted (traffic : Traffic) : List Move → Nat
  | [] => 0
  | move :: rest => (traffic.aborts move).toNat + (traffic.step move).aborted rest

/-- The answers that are given in the course of moves. -/
def answers (traffic : Traffic) : List Move → List Answer
  | [] => []
  | move :: rest => traffic.answered move ++ (traffic.step move).answers rest

/-- The number of calls that have begun and have not ended. -/
def underway (traffic : Traffic) : Nat :=
  traffic.calls.countP Option.isSome

variable {traffic after : Traffic} {call : Nat}

theorem since_same (same : after.completions = traffic.completions) :
    after.since traffic = [] := by
  rw [since, same, List.drop_length]

theorem since_complete (completion : Completion) (left : Exchange) :
    (traffic.complete completion left).since traffic = [completion] :=
  List.drop_left

theorem reported_unended (same : after.completions = traffic.completions)
    (reported : traffic.exchange.Reported after.exchange []) :
    traffic.exchange.Reported after.exchange ((after.since traffic).map Completion.answer) := by
  rw [since_same same]
  exact reported

theorem reported_complete {completion : Completion} {left : Exchange}
    (reported : traffic.exchange.Reported left [completion.answer]) :
    traffic.exchange.Reported left
      (((traffic.complete completion left).since traffic).map Completion.answer) := by
  rw [since_complete]
  exact reported

theorem reported_advance (call : Nat) (errand : Errand) :
    traffic.exchange.Reported (traffic.advance call errand).exchange
      (((traffic.advance call errand).since traffic).map Completion.answer) := by
  cases errand with
  | convert context handle queue value =>
      have reported := traffic.exchange.reported_convertSend call context handle queue value
      simp only [advance]
      generalize traffic.exchange.convertSend context handle queue value = result at reported ⊢
      obtain ⟨outcome, left⟩ := result
      cases outcome with
      | error err => exact reported_complete reported
      | ok operation => exact reported_unended rfl reported
  | wait operation =>
      have reported := traffic.exchange.reported_attempt call operation
      simp only [advance]
      generalize traffic.exchange.attempt operation = result at reported ⊢
      obtain ⟨outcome, left⟩ := result
      cases outcome with
      | none => exact reported_unended rfl reported
      | some outcome => exact reported_complete reported
  | poll context handle queue =>
      exact reported_complete (traffic.exchange.reported_pollQueue call context handle queue)
  | close handle channel sides =>
      cases sides with
      | nil => exact reported_complete (.single rfl trivial)
      | cons side sides => exact reported_unended rfl (.silent rfl)

/-- A move is recorded once for every call that ends in it. -/
theorem reported_step (move : Move) :
    traffic.exchange.Reported (traffic.step move).exchange (traffic.answered move) := by
  cases move with
  | send context handle value =>
      simp only [step, answered]
      cases traffic.exchange.channel? handle with
      | error err => exact .single rfl rfl
      | ok channel => exact .silent rfl
  | receive context handle =>
      simp only [step, answered, Exchange.startReceive]
      cases traffic.exchange.channel? handle with
      | error err => exact .single rfl (Answer.fits_receive_failed _ _ _)
      | ok channel => exact .silent (Exchange.log_register _ _ _ _ _)
  | poll context handle =>
      simp only [step, answered]
      cases traffic.exchange.channel? handle with
      | error err => exact .single rfl (Answer.fits_poll_failed _ _ _)
      | ok channel => exact .silent rfl
  | close handle =>
      simp only [step, answered, Exchange.withdraw]
      rcases traffic.exchange.registry.table.close? handle.slot with
        _ | ⟨_ | channel, table⟩
      · exact .single rfl trivial
      · exact .single rfl trivial
      · exact .silent rfl
  | proceed call =>
      simp only [answered]
      cases pending : traffic.errand? call with
      | none =>
          simp only [step, pending]
          exact reported_unended rfl (.silent rfl)
      | some errand =>
          simp only [step, pending]
          exact reported_advance call errand
  | create key => exact traffic.exchange.reported_create key
  | get key => exact traffic.exchange.reported_get key
  | interrupt context =>
      simp only [step, answered, Exchange.interrupt]
      cases traffic.exchange.contexts[context]? with
      | none => exact .silent rfl
      | some owner => exact .silent rfl
  | clear context =>
      simp only [step, answered, Exchange.clearInterrupt]
      cases traffic.exchange.contexts[context]? with
      | none => exact .silent rfl
      | some owner => exact .silent rfl
  | addContext name codec => exact .silent rfl
  | elsewhere heap change => exact .silent rfl

theorem reported_run (moves : List Move) :
    traffic.exchange.Reported (traffic.run moves).exchange (traffic.answers moves) := by
  induction moves generalizing traffic with
  | nil => exact .silent rfl
  | cons move rest ih => exact (reported_step move).trans ih

/-! ### The number of calls -/

theorem countP_calls_set {errand : Errand} (pending : traffic.errand? call = some errand)
    (entry : Option Errand) :
    (traffic.calls.set call entry).countP Option.isSome + 1 =
      traffic.underway + entry.toList.length := by
  have begun := begun_of_pending pending
  have here : traffic.calls[call].isSome = true := by
    simp only [errand?, List.getElem?_eq_getElem begun, Option.join_some] at pending
    rw [pending]
    rfl
  have positive : 0 < traffic.underway :=
    List.countP_pos_iff.mpr ⟨_, List.getElem_mem begun, here⟩
  rw [List.countP_set begun, if_pos here]
  unfold underway at positive ⊢
  cases entry with
  | none => simp; omega
  | some resumed => simp; omega

theorem underway_enter (errand : Errand) (left : Exchange) :
    (traffic.enter errand left).underway = traffic.underway + 1 := by
  simp [underway, enter]

theorem balance_resume {errand : Errand} (pending : traffic.errand? call = some errand)
    (same : after.completions = traffic.completions) {resumed : Errand}
    (calls : after.calls = traffic.calls.set call (some resumed)) :
    traffic.underway = after.underway + (after.since traffic).length := by
  have count := countP_calls_set pending (some resumed)
  rw [← calls] at count
  rw [since_same same]
  exact (Nat.add_right_cancel count).symm

theorem balance_complete {completion : Completion} {errand : Errand} (left : Exchange)
    (pending : traffic.errand? completion.call = some errand) :
    traffic.underway = (traffic.complete completion left).underway +
      ((traffic.complete completion left).since traffic).length := by
  have count := countP_calls_set pending none
  rw [since_complete]
  exact count.symm

theorem balance_section {errand : Errand} (pending : traffic.errand? call = some errand)
    (happened : traffic.Section call errand after) :
    traffic.underway = after.underway + (after.since traffic).length := by
  cases happened with
  | slept => rw [since_same rfl]; rfl
  | converted => exact balance_resume pending rfl rfl
  | failed => exact balance_complete _ pending
  | nothing => exact balance_complete _ pending
  | deposited => exact balance_complete _ pending
  | took => exact balance_complete _ pending
  | closing => exact balance_resume pending rfl rfl
  | ended => exact balance_complete _ pending

/-- A call that a move begins is answered in it, is under way afterwards or has ended its thread. -/
theorem balance_step (move : Move) :
    traffic.underway + move.begins.toNat =
      (traffic.step move).underway + (traffic.answered move).length +
        (traffic.aborts move).toNat := by
  -- A move that begins a call either answers it at once or leaves it under way.
  cases move with
  | send context handle value =>
      simp only [step, answered]
      cases traffic.exchange.channel? handle with
      | error err => rfl
      | ok channel => exact (underway_enter _ _).symm
  | receive context handle =>
      simp only [step, answered, Exchange.startReceive]
      cases traffic.exchange.channel? handle with
      | error err => rfl
      | ok channel => exact (underway_enter _ _).symm
  | poll context handle =>
      simp only [step, answered]
      cases traffic.exchange.channel? handle with
      | error err => rfl
      | ok channel => exact (underway_enter _ _).symm
  | close handle =>
      simp only [step, answered, Exchange.withdraw]
      rcases traffic.exchange.registry.table.close? handle.slot with
        _ | ⟨_ | channel, table⟩
      · rfl
      · rfl
      · exact (underway_enter _ _).symm
  | proceed call =>
      simp only [answered, List.length_map, aborts, Bool.toNat_false, Nat.add_zero]
      cases pending : traffic.errand? call with
      | none =>
          simp only [step, pending]
          rw [since_same rfl]
          rfl
      | some errand =>
          simp only [step, pending]
          exact balance_section pending (traffic.section_advance call errand)
  | create key =>
      simp only [answered, aborts]
      cases (traffic.exchange.create key).1 with
      | none => rfl
      | some result => rfl
  | get key => rfl
  | interrupt context => rfl
  | clear context => rfl
  | addContext name codec => rfl
  | elsewhere heap change => rfl

theorem balance_run (moves : List Move) :
    traffic.underway + moves.countP Move.begins =
      (traffic.run moves).underway + (traffic.answers moves).length + traffic.aborted moves := by
  induction moves generalizing traffic with
  | nil => rfl
  | cons move rest ih =>
      have one := traffic.balance_step move
      have others := @ih (traffic.step move)
      have count : (move :: rest).countP Move.begins =
          rest.countP Move.begins + move.begins.toNat := by
        rw [List.countP_cons]
        cases move.begins <;> rfl
      have length : (traffic.answers (move :: rest)).length =
          (traffic.answered move).length + ((traffic.step move).answers rest).length :=
        List.length_append
      have later : traffic.run (move :: rest) = (traffic.step move).run rest := rfl
      rw [count, length, later, aborted]
      omega

/-! ### Whole runs -/

/-- The traffic of a new registry with an observer. -/
def observed (config : RegistryConfig) : Traffic :=
  (initial config).withExchange (initial config).exchange.observe

/-- The calls that put a message into a queue, in the order in which they ended. -/
def senders (traffic : Traffic) (queue : QueueId) : List Completion :=
  traffic.completions.filter fun completion => !(completion.depositedOn queue).isEmpty

/-- The calls that took a message off a queue, in the order in which they ended. -/
def takers (traffic : Traffic) (queue : QueueId) : List Completion :=
  traffic.completions.filter fun completion => !(completion.takenFrom queue).isEmpty

theorem map_filter_messages {messages : Completion → List Message}
    (atMost : ∀ completion, (messages completion).length ≤ 1) (completions : List Completion) :
    (completions.filter fun completion => !(messages completion).isEmpty).map messages =
      (completions.flatMap messages).map fun message => [message] := by
  induction completions with
  | nil => rfl
  | cons completion rest ih =>
      have here := atMost completion
      rw [List.flatMap_cons, List.filter_cons]
      cases held : messages completion with
      | nil => exact ih
      | cons message others =>
          rw [held] at here
          have nothing : others = [] := List.eq_nil_of_length_eq_zero (by simpa using here)
          subst nothing
          simp only [List.isEmpty_cons, Bool.not_false, if_true, List.map_cons, held, ih,
            List.singleton_append]

theorem length_depositedOn_le (completion : Completion) (queue : QueueId) :
    (completion.depositedOn queue).length ≤ 1 := by
  unfold Completion.depositedOn
  split
  · split <;> simp
  · simp

theorem length_takenFrom_le (completion : Completion) (queue : QueueId) :
    (completion.takenFrom queue).length ≤ 1 := by
  unfold Completion.takenFrom
  split
  · cases completion.taken <;> simp
  · simp

/-- The calls that took messages off a queue took those of the first calls that put one into it, one
by one. -/
theorem Accounted.takers {queue : QueueId} (sound : traffic.Accounted queue) :
    ∃ count, (traffic.takers queue).map (Completion.takenFrom · queue) =
      ((traffic.senders queue).map (Completion.depositedOn · queue)).take count := by
  obtain ⟨count, taken, _⟩ := sound.inOrder
  have takes := map_filter_messages (length_takenFrom_le · queue) traffic.completions
  have deposits := map_filter_messages (length_depositedOn_le · queue) traffic.completions
  refine ⟨count, ?_⟩
  rw [Traffic.takers, Traffic.senders, takes, deposits, ← List.map_take]
  exact congrArg _ taken

theorem form_deposited {completion : Completion} {queue : QueueId} {message : Message}
    (deposits : completion.depositedOn queue = [message]) :
    completion.answer.event.form = some message.form := by
  obtain ⟨call, errand, taken, outcome⟩ := completion
  unfold Completion.depositedOn at deposits
  split at deposits
  · rename_i held result same ended
    cases same
    cases ended
    split at deposits
    · cases deposits
      rfl
    · cases deposits
  · cases deposits

theorem form_taken {completion : Completion} {queue : QueueId} {message : Message}
    (taken : completion.takenFrom queue = [message])
    (takes : completion.taken ≠ none → completion.errand.Takes) :
    completion.answer.event.form = some message.form := by
  obtain ⟨call, errand, moved, outcome⟩ := completion
  have held : moved = some message := by
    unfold Completion.takenFrom at taken
    split at taken
    · exact Option.toList_eq_singleton_iff.mp taken
    · cases taken
  subst held
  cases errand with
  | convert => cases takes (Option.some_ne_none _)
  | wait operation =>
      obtain ⟨context, handle, place, token, job⟩ := operation
      cases job with
      | deposit => cases takes (Option.some_ne_none _)
      | take => rfl
  | poll context handle place => rfl
  | close => cases takes (Option.some_ne_none _)

/-- What the record of a run rests on. -/
structure Recorded (traffic : Traffic) : Prop where
  accounted : ∀ queue, traffic.Accounted queue
  takes : ∀ completion ∈ traffic.completions, completion.taken ≠ none → completion.errand.Takes
  settled : ∀ completion ∈ traffic.completions, traffic.Settled completion.call
  once : (traffic.completions.map Completion.call).Nodup

theorem recorded_observed (config : RegistryConfig) : (observed config).Recorded where
  accounted := accounted_initial config
  takes := List.forall_mem_nil _
  settled := List.forall_mem_nil _
  once := List.nodup_nil

theorem Recorded.step (recorded : traffic.Recorded) (move : Move) :
    (traffic.step move).Recorded := by
  refine ⟨?_, ?_, settled_step recorded.settled move, ?_⟩
  · intro queue
    exact (recorded.accounted queue).effect (traffic.effect_step move queue)
  · rcases traffic.completions_step move with
      same | ⟨call, errand, taken, outcome, _, _, more, takes⟩
    · rw [same]
      exact recorded.takes
    · rw [more, List.forall_mem_append]
      exact ⟨recorded.takes, List.forall_mem_singleton.mpr takes⟩
  · rcases traffic.completions_step move with
      same | ⟨call, errand, taken, outcome, _, pending, more, _⟩
    · rw [same]
      exact recorded.once
    · rw [more, List.map_append, List.map_singleton, List.nodup_append]
      refine ⟨recorded.once, List.nodup_singleton _, ?_⟩
      intro earlier member other here same
      cases List.mem_singleton.mp here
      obtain ⟨completion, ended, rfl⟩ := List.mem_map.mp member
      have finished := (recorded.settled completion ended).finished
      rw [same, pending] at finished
      cases finished

/-- The messages of two calls are one and the same, and the events say so. -/
structure Hands (queue : QueueId) (sent received : Completion) : Prop where
  message : ∃ message, sent.depositedOn queue = [message] ∧ received.takenFrom queue = [message]
  form : ∃ form, sent.answer.event.form = some form ∧ received.answer.event.form = some form

/-- The first call to take a message off a queue takes that of the first one to put one into it, and
so on. -/
theorem Recorded.hands (recorded : traffic.Recorded) (queue : QueueId) {index : Nat}
    {received : Completion} (taker : (traffic.takers queue)[index]? = some received) :
    ∃ sent, (traffic.senders queue)[index]? = some sent ∧ Hands queue sent received := by
  obtain ⟨ended, took⟩ := List.mem_filter.mp (List.mem_of_getElem? taker)
  have one : (received.takenFrom queue).length = 1 := by
    have atMost := length_takenFrom_le received queue
    have atLeast : 0 < (received.takenFrom queue).length :=
      List.length_pos_iff.mpr (by simpa using took)
    omega
  obtain ⟨message, taken⟩ := List.length_eq_one_iff.mp one
  obtain ⟨count, same⟩ := (recorded.accounted queue).takers
  have entry := congrArg (·[index]?) same
  simp only [List.getElem?_map, taker, Option.map_some, taken, List.getElem?_take] at entry
  split at entry
  · obtain ⟨sent, place, deposited⟩ := Option.map_eq_some_iff.mp entry.symm
    refine ⟨sent, place, ⟨message, deposited, taken⟩, ?_⟩
    exact ⟨message.form, form_deposited deposited, form_taken taken (recorded.takes _ ended)⟩
  · cases entry

theorem answers_of_completions (moves : List Move) :
    ∃ ended, (traffic.run moves).completions = traffic.completions ++ ended ∧
      (ended.map Completion.answer).Sublist (traffic.answers moves) := by
  induction moves generalizing traffic with
  | nil => exact ⟨[], (List.append_nil _).symm, .slnil⟩
  | cons move rest ih =>
      obtain ⟨later, whole, among⟩ := @ih (traffic.step move)
      rcases traffic.completions_step move with
        same | ⟨call, errand, taken, outcome, proceeds, _, more, _⟩
      · exact ⟨later, whole.trans (congrArg (· ++ later) same),
          among.trans (List.sublist_append_right _ _)⟩
      · subst proceeds
        have first : (traffic.step (.proceed call)).since traffic =
            [{ call, errand, taken, outcome }] := by
          rw [since, more, List.drop_left]
        refine ⟨{ call, errand, taken, outcome } :: later, ?_, ?_⟩
        · rw [List.append_cons, ← more]
          exact whole
        · rw [answers, answered, first]
          exact among.cons_cons _

/-- What the observer of a run is told. -/
structure Reports (config : RegistryConfig) (moves : List Move) : Prop where
  /-- One event for every answer, in their order, and none besides. -/
  events : ((observed config).run moves).exchange.takeEvents.1 =
    ((observed config).answers moves).map Answer.event
  /-- A send has put its message into a queue exactly when it succeeded, and what a receive or poll
  gave its caller was taken off one. -/
  fits : ∀ answer ∈ (observed config).answers moves, answer.Fits
  /-- Every call that was begun was answered or is under way, or it has ended its thread. -/
  balance : moves.countP Move.begins =
    ((observed config).run moves).underway + ((observed config).answers moves).length +
      (observed config).aborted moves
  /-- The calls that ended in sections were answered, each once. -/
  sections : (((observed config).run moves).completions.map Completion.answer).Sublist
    ((observed config).answers moves)
  once : (((observed config).run moves).completions.map Completion.call).Nodup
  /-- The call that took the message of a send is told of with the same form as the send. -/
  hands : ∀ (queue : QueueId) (index : Nat) (received : Completion),
    (((observed config).run moves).takers queue)[index]? = some received →
      ∃ sent, (((observed config).run moves).senders queue)[index]? = some sent ∧
        Hands queue sent received

/-- In every run over a registry with an observer, every call that ends is told of once, with whether
it succeeded, its key or handle, and the form of the message it moved, if it moved one; and the call
that takes a message is told of with the same form as the send of that message. -/
theorem reports_run (config : RegistryConfig) (moves : List Move) : Reports config moves := by
  have reported := @reported_run (observed config) moves
  have recorded := run_keeps Recorded (fun _ move recorded => recorded.step move) moves
    (recorded_observed config)
  obtain ⟨ended, whole, among⟩ := @answers_of_completions (observed config) moves
  refine ⟨?_, reported.fits, ?_, ?_, recorded.once, ?_⟩
  · have log : (observed config).exchange.registry.log = some [] := rfl
    simp only [Exchange.takeEvents, reported.log, log, Option.map_some, Option.getD_some,
      List.append_nil, List.reverse_reverse]
  · have balance := @balance_run (observed config) moves
    have idle : (observed config).underway = 0 := rfl
    omega
  · rw [whole]
    exact among
  · intro queue index received
    exact recorded.hands queue

/-- The message of `oneDelivery` is told of twice, when it is sent and when it is polled. -/
example : ((observed .standard).run oneDelivery).exchange.takeEvents.1.map
    (fun event => (event.operation, event.form, event.ok)) =
      [(.create, none, true), (.send, some "plain", true), (.poll, some "plain", true),
        (.close, none, true)] := by
  decide +kernel

end Traffic

end ValueChannels
