import ValueChannels.Proofs.Exchange.Sections

/-!
Delivery over the queues of an exchange. Whatever the order of sections, one step of the
traffic leaves a queue as it is, opens it, fills it, empties it or closes it, and the record
of what was sent and taken grows accordingly. Main statement: in every run, what was put into
a queue was taken off it in the same order, was discarded at its close, or waits in it.
-/

namespace ValueChannels.Traffic

variable {traffic : Traffic}

/-! ### The record of a step -/

theorem deposited_complete (completion : Completion) (exchange : Exchange) (queue : QueueId) :
    (traffic.complete completion exchange).deposited queue =
      traffic.deposited queue ++ completion.depositedOn queue := by
  simp [deposited, complete]

theorem taken_complete (completion : Completion) (exchange : Exchange) (queue : QueueId) :
    (traffic.complete completion exchange).taken queue =
      traffic.taken queue ++ completion.takenFrom queue := by
  simp [taken, complete]

/-- What a step that works on the given queue can have done to a queue and to its record. -/
inductive QueueEffect (before after : Traffic) (target : Option QueueId) (queue : QueueId) :
    Prop where
  | same
      (slot : after.exchange.queue? queue = before.exchange.queue? queue)
      (deposited : after.deposited queue = before.deposited queue)
      (taken : after.taken queue = before.taken queue)
      (discarded : after.discarded queue = before.discarded queue)
  | opened
      (absent : before.exchange.queue? queue = none)
      (slot : after.exchange.queue? queue = some Slot.empty)
      (deposited : after.deposited queue = before.deposited queue)
      (taken : after.taken queue = before.taken queue)
      (discarded : after.discarded queue = before.discarded queue)
  | filled (message : Message)
      (works : target = some queue)
      (empty : before.exchange.queue? queue = some Slot.empty)
      (slot : after.exchange.queue? queue = some { item := some message, closed := false })
      (deposited : after.deposited queue = before.deposited queue ++ [message])
      (taken : after.taken queue = before.taken queue)
      (discarded : after.discarded queue = before.discarded queue)
  | emptied (message : Message)
      (works : target = some queue)
      (full : before.exchange.queue? queue = some { item := some message, closed := false })
      (slot : after.exchange.queue? queue = some Slot.empty)
      (deposited : after.deposited queue = before.deposited queue)
      (taken : after.taken queue = before.taken queue ++ [message])
      (discarded : after.discarded queue = before.discarded queue)
  | closed (held : Slot Message)
      (works : target = some queue)
      (present : before.exchange.queue? queue = some held)
      (slot : after.exchange.queue? queue = some held.close)
      (deposited : after.deposited queue = before.deposited queue)
      (taken : after.taken queue = before.taken queue)
      (discarded : after.discarded queue = before.discarded queue ++ held.item.toList)

/-- A call that ended without a message leaves the record alone, and with it every queue that its
exchange left alone. -/
theorem QueueEffect.complete {completion : Completion} {exchange : Exchange}
    {target : Option QueueId} {queue : QueueId}
    (slot : exchange.queue? queue = traffic.exchange.queue? queue)
    (deposit : completion.depositedOn queue = []) (take : completion.takenFrom queue = []) :
    QueueEffect traffic (traffic.complete completion exchange) target queue := by
  refine .same slot ?_ ?_ rfl
  · rw [deposited_complete, deposit, List.append_nil]
  · rw [taken_complete, take, List.append_nil]

theorem takenFrom_none (call : Nat) (errand : Errand) (outcome : Outcome) (queue : QueueId) :
    ({ call, errand, taken := none, outcome } : Completion).takenFrom queue = [] := by
  simp [Completion.takenFrom]

theorem takenFrom_other {completion : Completion} {place queue : QueueId}
    (works : completion.errand.queue? = some place) (different : queue ≠ place) :
    completion.takenFrom queue = [] := by
  have apart : ¬completion.errand.queue? = some queue := by
    rw [works]
    intro same
    exact different (Option.some.inj same).symm
  exact if_neg apart

theorem depositedOn_error (call : Nat) (errand : Errand) (taken : Option Message)
    (reason : ChannelError) (queue : QueueId) :
    ({ call, errand, taken, outcome := .error reason } : Completion).depositedOn queue = [] := by
  unfold Completion.depositedOn
  split
  · rename_i succeeded
    cases succeeded
  · rfl

theorem depositedOn_takes {errand : Errand} (takes : errand.Takes) (call : Nat)
    (taken : Option Message) (outcome : Outcome) (queue : QueueId) :
    ({ call, errand, taken, outcome } : Completion).depositedOn queue = [] := by
  unfold Completion.depositedOn
  split
  · rename_i sends _
    simp only at sends
    rw [sends] at takes
    cases takes
  · rfl

theorem depositedOn_deposit {operation : Underway} {message : Message}
    (job : operation.job = .deposit message) (call : Nat) (taken : Option Message)
    (item : Option Ref) (queue : QueueId) :
    ({ call, errand := .wait operation, taken, outcome := .ok item } : Completion).depositedOn
        queue = if operation.queue = queue then [message] else [] := by
  obtain ⟨context, handle, place, token, job'⟩ := operation
  cases job
  rfl

/-- What a section of a call does to a queue. -/
theorem effect_section {call : Nat} {errand : Errand} {after : Traffic}
    (happened : traffic.Section call errand after) (queue : QueueId) :
    QueueEffect traffic after errand.queue? queue := by
  cases happened with
  | slept operation => exact .same rfl rfl rfl rfl
  | converted _ _ _ _ operation message left layout converts =>
      exact .same (Exchange.queue?_congr layout queue) rfl rfl rfl
  | failed _ err left slots queues =>
      exact .complete (queues queue) (depositedOn_error _ _ _ _ queue)
        (takenFrom_none _ _ _ queue)
  | nothing _ _ _ left slots queues =>
      exact .complete (queues queue) rfl (takenFrom_none _ _ _ queue)
  | deposited operation message left job slots before filled others =>
      by_cases here : queue = operation.queue
      · subst here
        refine .filled message rfl before filled ?_ ?_ rfl
        · rw [deposited_complete, depositedOn_deposit job, if_pos rfl]
        · rw [taken_complete, takenFrom_none, List.append_nil]
      · refine .complete (others queue here) ?_ (takenFrom_none _ _ _ queue)
        have apart : ¬operation.queue = queue := fun same => here same.symm
        rw [depositedOn_deposit job, if_neg apart]
  | took _ place message outcome left takes works slots before emptied others =>
      by_cases here : queue = place
      · subst here
        refine .emptied message works before emptied ?_ ?_ rfl
        · rw [deposited_complete, depositedOn_takes takes, List.append_nil]
        · rw [taken_complete]
          simp [Completion.takenFrom, works]
      · exact .complete (others queue here) (depositedOn_takes takes _ _ _ queue)
          (takenFrom_other works here)
  | closing handle place sides =>
      -- Closing discards the message that was in the queue, so that it stays accounted for.
      by_cases here : queue = place
      · subst here
        have record : (traffic.exchange.inFlight queue).map (Prod.mk queue) =
            ((traffic.exchange.queue? queue).bind Slot.item).toList.map (Prod.mk queue) := rfl
        cases present : traffic.exchange.queue? queue with
        | none =>
            refine .same ?_ rfl rfl ?_
            · simp only [resume]
              rw [Exchange.closeQueue_eq _ _ Slot.empty, Exchange.queue?_setQueue_same, present]
              rfl
            · simp [discarded, record, present]
        | some held =>
            refine .closed held rfl present ?_ rfl rfl ?_
            · simp only [resume]
              rw [Exchange.closeQueue_eq _ _ held, Exchange.queue?_setQueue_same, present]
              rfl
            · cases item : held.item <;> simp [discarded, record, present, item]
      · have apart : ¬place = queue := fun same => here same.symm
        refine .same ?_ rfl rfl ?_
        · simp only [resume]
          rw [Exchange.closeQueue_eq _ _ Slot.empty, Exchange.queue?_setQueue_other _ here]
        · simp [discarded, apart]
  | ended handle channel => exact .complete rfl rfl (takenFrom_none _ _ _ queue)

theorem effect_step (traffic : Traffic) (move : Move) (queue : QueueId) :
    QueueEffect traffic (traffic.step move) (traffic.target? move) queue := by
  have happened := traffic.stepped move
  generalize traffic.step move = after at happened ⊢
  cases happened with
  | still _ left layout => exact .same (Exchange.queue?_congr layout queue) rfl rfl rfl
  | began _ errand _ left layout => exact .same (Exchange.queue?_congr layout queue) rfl rfl rfl
  | opened key slot table left opens layout =>
      have channels : left.channels =
          traffic.exchange.channels.push (Channel.opened slot key) :=
        congrArg Layout.channels layout
      by_cases old : queue.channel < traffic.exchange.channels.size
      · exact .same (Exchange.queue?_pushed_old channels old) rfl rfl rfl
      · have new : traffic.exchange.channels.size ≤ queue.channel := Nat.le_of_not_lt old
        have absent : traffic.exchange.queue? queue = none := by
          simp [Exchange.queue?, new]
        by_cases last : queue.channel = traffic.exchange.channels.size
        · exact .opened absent (Exchange.queue?_pushed_last channels last) rfl rfl rfl
        · refine .same (Eq.trans ?_ absent.symm) rfl rfl rfl
          exact Exchange.queue?_pushed_beyond channels (by omega)
  | withdrew handle channel table left closes layout =>
      have channels : left.channels = traffic.exchange.channels :=
        congrArg Layout.channels layout
      refine .same ?_ rfl rfl rfl
      simp only [enter, Exchange.queue?, channels]
  | advanced call errand _ pending happened =>
      have target : traffic.target? (.proceed call) = errand.queue? := by
        simp [target?, pending]
      rw [target]
      exact effect_section happened queue

/-! ### The record of a queue -/

/-- What was sent on a queue was taken, was discarded when the queue was closed, or waits in it. -/
def Accounted (traffic : Traffic) (queue : QueueId) : Prop :=
  match traffic.exchange.queue? queue with
  | none => traffic.deposited queue = [] ∧ traffic.taken queue = [] ∧ traffic.discarded queue = []
  | some slot =>
      traffic.deposited queue =
        traffic.taken queue ++ (traffic.discarded queue ++ slot.item.toList) ∧
      (slot.closed = false → traffic.discarded queue = []) ∧
      (slot.closed = true → slot.item = none ∧ (traffic.discarded queue).length ≤ 1)

theorem accounted_initial (config : RegistryConfig) (queue : QueueId) :
    (initial config).Accounted queue := by
  have absent : (initial config).exchange.queue? queue = none := by
    simp [initial, Exchange.initial, Exchange.queue?]
  unfold Accounted
  rw [absent]
  exact ⟨rfl, rfl, rfl⟩

theorem Accounted.effect {after : Traffic} {target : Option QueueId} {queue : QueueId}
    (sound : traffic.Accounted queue) (effect : QueueEffect traffic after target queue) :
    after.Accounted queue := by
  unfold Accounted at sound ⊢
  cases effect with
  | same slot deposited taken discarded =>
      rw [slot, deposited, taken, discarded]
      exact sound
  | opened absent slot deposited taken discarded =>
      rw [absent] at sound
      rw [slot, deposited, taken, discarded, sound.1, sound.2.1, sound.2.2]
      refine ⟨rfl, fun _ => rfl, ?_⟩
      intro impossible
      cases impossible
  | filled message works empty slot deposited taken discarded =>
      rw [empty] at sound
      have nothing := sound.2.1 rfl
      rw [slot, deposited, taken, discarded, sound.1, nothing]
      refine ⟨?_, fun _ => rfl, ?_⟩
      · simp [Slot.empty]
      · intro impossible
        cases impossible
  | emptied message works full slot deposited taken discarded =>
      rw [full] at sound
      have nothing := sound.2.1 rfl
      rw [slot, deposited, taken, discarded, sound.1, nothing]
      refine ⟨?_, fun _ => rfl, ?_⟩
      · simp [Slot.empty]
      · intro impossible
        cases impossible
  | closed held works present slot deposited taken discarded =>
      rw [present] at sound
      rw [slot, deposited, taken, discarded, sound.1]
      refine ⟨?_, ?_, ?_⟩
      · simp [Slot.close]
      · intro impossible
        cases impossible
      · intro _
        refine ⟨rfl, ?_⟩
        rw [List.length_append]
        cases open_ : held.closed with
        | false =>
            rw [sound.2.1 open_]
            cases held.item <;> simp
        | true =>
            obtain ⟨nothing, atMost⟩ := sound.2.2 open_
            rw [nothing]
            exact atMost

theorem run_keeps (kept : Traffic → Prop)
    (step : ∀ traffic move, kept traffic → kept (Traffic.step traffic move))
    (moves : List Move) (start : kept traffic) : kept (traffic.run moves) := by
  induction moves generalizing traffic with
  | nil => exact start
  | cons move rest ih => exact ih (step traffic move start)

theorem accounted_run (config : RegistryConfig) (moves : List Move) (queue : QueueId) :
    ((initial config).run moves).Accounted queue := by
  refine run_keeps (fun traffic => traffic.Accounted queue) ?_ moves
    (accounted_initial config queue)
  intro traffic move sound
  exact sound.effect (effect_step traffic move queue)

end ValueChannels.Traffic
