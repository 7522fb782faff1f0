import ValueChannels.Exchange.Basic

/-!
What the operations of an exchange do to its queues and to its table. Most of them leave both
alone; opening a channel adds two empty queues; an attempt, a poll or a close changes the one
queue it works on. Main statements: what an attempt, a poll, an opening and a withdrawal can
have done.
-/

namespace ValueChannels

/-- What decides where the messages of an exchange are, and which handles lead there. -/
structure Layout where
  channels : Array Channel
  table : Table
  growFactor : Nat

namespace Exchange

variable (exchange : Exchange)

def layout : Layout :=
  { channels := exchange.channels
    table := exchange.registry.table
    growFactor := exchange.registry.config.growFactor }

/-- No channel has been opened or taken out of the table in between. -/
structure SameSlots (after : Exchange) : Prop where
  size : after.channels.size = exchange.channels.size
  table : after.registry.table = exchange.registry.table
  growFactor : after.registry.config.growFactor = exchange.registry.config.growFactor

theorem SameSlots.of_layout {exchange after : Exchange} (same : after.layout = exchange.layout) :
    exchange.SameSlots after := by
  refine ⟨?_, congrArg Layout.table same, congrArg Layout.growFactor same⟩
  have channels : after.channels = exchange.channels := congrArg Layout.channels same
  rw [channels]

/-! ### Operations that leave the layout alone -/

@[simp] theorem layout_record (event : Event) :
    (exchange.record event).layout = exchange.layout := rfl

@[simp] theorem layout_modifyContext (index : Nat) (change : Context → Context) :
    (exchange.modifyContext index change).layout = exchange.layout := rfl

@[simp] theorem layout_setInterrupt (index : Nat) (interrupt : Interrupt QueueId) :
    (exchange.setInterrupt index interrupt).layout = exchange.layout := rfl

@[simp] theorem layout_recordClose (handle : Handle) :
    (exchange.recordClose handle).layout = exchange.layout := rfl

@[simp] theorem layout_failPoll (handle : Handle) (err : ChannelError) :
    (exchange.failPoll handle err).2.layout = exchange.layout := rfl

@[simp] theorem layout_addContext (name : String) (codec : Codec) :
    (exchange.addContext name codec).2.layout = exchange.layout := rfl

@[simp] theorem layout_interrupt (index : Nat) :
    (exchange.interrupt index).2.layout = exchange.layout := by
  unfold interrupt
  split <;> rfl

@[simp] theorem layout_clearInterrupt (index : Nat) :
    (exchange.clearInterrupt index).2.layout = exchange.layout := by
  unfold clearInterrupt
  split <;> rfl

@[simp] theorem layout_get (key : Int) :
    (exchange.get key).2.layout = exchange.layout := by
  unfold get
  split <;> rfl

@[simp] theorem layout_register (context : Nat) (handle : Handle) (queue : QueueId)
    (job : Job Message) :
    (exchange.register context handle queue job).2.layout = exchange.layout := by
  unfold register
  split <;> rfl

@[simp] theorem layout_convertSend (context : Nat) (handle : Handle) (queue : QueueId)
    (value : Ref) :
    (exchange.convertSend context handle queue value).2.layout = exchange.layout := by
  unfold convertSend
  split
  · rfl
  · split
    · rfl
    · exact layout_register _ _ _ _ _

@[simp] theorem layout_startReceive (context : Nat) (handle : Handle) :
    (exchange.startReceive context handle).2.layout = exchange.layout := by
  unfold startReceive
  split
  · rfl
  · exact layout_register _ _ _ _ _

@[simp] theorem layout_finishTake (context : Nat) (handle : Handle) (operation : Operation)
    (message : Message) :
    (exchange.finishTake context handle operation message).2.layout = exchange.layout := by
  unfold finishTake
  split
  · rfl
  · split <;> rfl

@[simp] theorem layout_finish (operation : Underway)
    (outcome : Except WaitError (Option Message)) :
    (exchange.finish operation outcome).2.layout = exchange.layout := by
  unfold finish
  split
  · rfl
  · rfl
  · exact layout_finishTake _ _ _ _ _
  · rfl
  · rfl

theorem queue?_congr {exchange other : Exchange} (same : other.layout = exchange.layout)
    (queue : QueueId) : other.queue? queue = exchange.queue? queue := by
  have channels : other.channels = exchange.channels := congrArg Layout.channels same
  unfold queue?
  rw [channels]

/-! ### Operations on one queue -/

theorem queue?_setQueue_same (queue : QueueId) (slot : Slot Message) :
    (exchange.setQueue queue slot).queue? queue =
      (exchange.queue? queue).map fun _ => slot := by
  simp only [queue?, setQueue, Array.getElem?_modify, if_true, Option.map_map]
  cases exchange.channels[queue.channel]? with
  | none => rfl
  | some channel => simp

theorem queue?_setQueue_other {queue other : QueueId} (different : other ≠ queue)
    (slot : Slot Message) : (exchange.setQueue queue slot).queue? other = exchange.queue? other := by
  simp only [queue?, setQueue, Array.getElem?_modify]
  by_cases same : queue.channel = other.channel
  · simp only [same, if_true, Option.map_map]
    cases exchange.channels[other.channel]? with
    | none => rfl
    | some channel =>
        have opposite : other.toward = queue.toward.other := by
          obtain ⟨place, side⟩ := queue
          obtain ⟨otherPlace, otherSide⟩ := other
          cases same
          cases side <;> cases otherSide <;> first | rfl | exact absurd rfl different
        simp [opposite]
  · simp only [same, if_false]

theorem closeQueue_eq (queue : QueueId) (slot : Slot Message) :
    exchange.closeQueue queue = exchange.setQueue queue slot.close := rfl

theorem size_channels_setQueue (queue : QueueId) (slot : Slot Message) :
    (exchange.setQueue queue slot).channels.size = exchange.channels.size := by
  simp [setQueue]

theorem size_channels_closeQueue (queue : QueueId) :
    (exchange.closeQueue queue).channels.size = exchange.channels.size := by
  simp [closeQueue]

section Written

variable {exchange} {after : Exchange} {queue : QueueId} {found slot : Slot Message}

theorem sameSlots_of_written (same : after.layout = (exchange.setQueue queue slot).layout) :
    exchange.SameSlots after := by
  have written := SameSlots.of_layout same
  exact ⟨written.size.trans (size_channels_setQueue _ _ _), written.table, written.growFactor⟩

theorem queue?_written_same (present : exchange.queue? queue = some found)
    (same : after.layout = (exchange.setQueue queue slot).layout) :
    after.queue? queue = some slot := by
  rw [queue?_congr same, queue?_setQueue_same, present]
  rfl

theorem queue?_written_other (same : after.layout = (exchange.setQueue queue slot).layout)
    (other : QueueId) (different : other ≠ queue) :
    after.queue? other = exchange.queue? other := by
  rw [queue?_congr same, queue?_setQueue_other exchange different]

theorem queue?_written_back (present : exchange.queue? queue = some slot)
    (same : after.layout = (exchange.setQueue queue slot).layout) (other : QueueId) :
    after.queue? other = exchange.queue? other := by
  by_cases here : other = queue
  · rw [here, queue?_written_same present same, present]
  · exact queue?_written_other same other here

end Written

theorem queue?_isSome_iff (queue : QueueId) :
    (exchange.queue? queue).isSome = true ↔ queue.channel < exchange.channels.size := by
  simp [queue?, Option.isSome_map]

/-! ### Opening a channel -/

/-- A key that is refused changes nothing, nor does one that there is no room for; any other key adds
a channel with two empty queues and enters it in the table. -/
theorem create_cases (key : Int) :
    (exchange.create key).2.layout = exchange.layout ∧
        (∀ handle, (exchange.create key).1 ≠ some (.ok handle)) ∨
      ∃ slot table,
        exchange.registry.table.open? exchange.registry.config.growFactor key
            exchange.channels.size = some (.ok (slot, table)) ∧
          (exchange.create key).1 = some (.ok { slot, side := .master }) ∧
          (exchange.create key).2.layout = { exchange.layout with
            channels := exchange.channels.push (Channel.opened slot key)
            table } := by
  unfold create
  simp only
  split
  · exact Or.inl ⟨rfl, nofun⟩
  · exact Or.inl ⟨rfl, nofun⟩
  · rename_i slot table opened
    exact Or.inr ⟨slot, table, opened, rfl, rfl⟩

theorem create_none {key : Int} (stopped : (exchange.create key).1 = none) :
    (exchange.create key).2 = exchange := by
  unfold create at stopped ⊢
  simp only at stopped ⊢
  split at stopped
  · rfl
  · cases stopped
  · cases stopped

theorem withdraw_cases (handle : Handle) :
    (exchange.withdraw handle).2.layout = exchange.layout ∧
        (∃ err, (exchange.withdraw handle).1 = .error err) ∨
      ∃ channel table,
        exchange.registry.table.close? handle.slot = some (channel, table) ∧
          (exchange.withdraw handle).1 = .ok channel ∧
          (exchange.withdraw handle).2.layout = { exchange.layout with table } := by
  unfold withdraw
  split
  · exact Or.inl ⟨rfl, _, rfl⟩
  · rename_i channel table closed
    exact Or.inr ⟨channel, table, closed, rfl, rfl⟩

section Pushed

variable {exchange} {after : Exchange} {slot : Nat} {key : Int} {queue : QueueId}

theorem queue?_pushed_old
    (pushed : after.channels = exchange.channels.push (Channel.opened slot key))
    (old : queue.channel < exchange.channels.size) :
    after.queue? queue = exchange.queue? queue := by
  have differs : queue.channel ≠ exchange.channels.size := Nat.ne_of_lt old
  simp [queue?, pushed, Array.getElem?_push, differs]

theorem queue?_pushed_last
    (pushed : after.channels = exchange.channels.push (Channel.opened slot key))
    (last : queue.channel = exchange.channels.size) : after.queue? queue = some Slot.empty := by
  simp only [queue?, pushed, Array.getElem?_push, last, if_true, Option.map_some]
  cases queue.toward <;> rfl

theorem queue?_pushed_beyond
    (pushed : after.channels = exchange.channels.push (Channel.opened slot key))
    (beyond : exchange.channels.size < queue.channel) : after.queue? queue = none := by
  have differs : queue.channel ≠ exchange.channels.size := Nat.ne_of_gt beyond
  have outside : exchange.channels.size ≤ queue.channel := Nat.le_of_lt beyond
  simp [queue?, pushed, Array.getElem?_push, differs, outside]

end Pushed

/-! ### One attempt -/

/-- What a critical section does to a queue: the operation sleeps or fails and the queue stays as
it is, a deposit fills the empty queue, or a removal empties the full one. -/
theorem slot_attempt_cases (slot : Slot Message) (job : Job Message) (raised : Bool) :
    ((slot.attempt job raised).outcome = none) ∨
      (∃ err, (slot.attempt job raised).outcome = some (.error err) ∧
        (slot.attempt job raised).slot = slot) ∨
      (∃ message, job = .deposit message ∧ slot = Slot.empty ∧
        (slot.attempt job raised).outcome = some (.ok none) ∧
        (slot.attempt job raised).slot = { item := some message, closed := false }) ∨
      (∃ message, job = .take ∧ slot = { item := some message, closed := false } ∧
        (slot.attempt job raised).outcome = some (.ok (some message)) ∧
        (slot.attempt job raised).slot = Slot.empty) := by
  obtain ⟨item, closed⟩ := slot
  cases closed with
  | true =>
      right; left
      exact ⟨.closed, rfl, rfl⟩
  | false =>
      cases job with
      | deposit message =>
          cases item with
          | none =>
              right; right; left
              exact ⟨message, rfl, rfl, rfl, rfl⟩
          | some held =>
              cases raised with
              | false => exact Or.inl rfl
              | true => exact Or.inr (Or.inl ⟨.interrupted, rfl, rfl⟩)
      | take =>
          cases item with
          | none =>
              cases raised with
              | false => exact Or.inl rfl
              | true => exact Or.inr (Or.inl ⟨.interrupted, rfl, rfl⟩)
          | some held =>
              right; right; right
              exact ⟨held, rfl, rfl, rfl, rfl⟩

/-- The message that an attempt takes off its queue. -/
def taken? (operation : Underway) : Option Message :=
  match exchange.queue? operation.queue, exchange.contexts[operation.context]? with
  | some slot, some context =>
      match (slot.attempt operation.job context.interrupt.raised).outcome with
      | some (.ok item) => item
      | _ => none
  | _, _ => none

/-- What one attempt of an operation can have come to: its outcome, the message it took off its
queue, and the exchange it left. -/
inductive Attempted (operation : Underway) :
    Option Outcome → Option Message → Exchange → Prop where
  | asleep : Attempted operation none none exchange
  | failed (err : WaitError) (kind : Operation) (after : Exchange)
      (slots : exchange.SameSlots after)
      (queues : ∀ queue, after.queue? queue = exchange.queue? queue) :
      Attempted operation (some (.error (err.toChannelError kind operation.handle))) none after
  | deposited (message : Message) (after : Exchange)
      (job : operation.job = .deposit message)
      (slots : exchange.SameSlots after)
      (before : exchange.queue? operation.queue = some Slot.empty)
      (filled : after.queue? operation.queue = some { item := some message, closed := false })
      (others : ∀ queue, queue ≠ operation.queue → after.queue? queue = exchange.queue? queue) :
      Attempted operation (some (.ok none)) none after
  | took (message : Message) (outcome : Outcome) (after : Exchange)
      (job : operation.job = .take)
      (slots : exchange.SameSlots after)
      (before : exchange.queue? operation.queue = some { item := some message, closed := false })
      (emptied : after.queue? operation.queue = some Slot.empty)
      (others : ∀ queue, queue ≠ operation.queue → after.queue? queue = exchange.queue? queue) :
      Attempted operation (some outcome) (some message) after

theorem finish_error (operation : Underway) (err : WaitError) :
    ∃ kind, (exchange.finish operation (.error err)).1 =
      .error (err.toChannelError kind operation.handle) := by
  unfold finish
  cases operation.job with
  | deposit message => exact ⟨.send, rfl⟩
  | take => exact ⟨.receive, rfl⟩

theorem finish_deposit {operation : Underway} {message : Message}
    (job : operation.job = .deposit message) (item : Option Message) :
    (exchange.finish operation (.ok item)).1 = .ok none := by
  unfold finish
  simp only [job]

theorem layout_finished (queue : QueueId) (slot : Slot Message) (index : Nat)
    (interrupt : Interrupt QueueId) (operation : Underway)
    (outcome : Except WaitError (Option Message)) :
    (((exchange.setQueue queue slot).setInterrupt index interrupt).finish operation
      outcome).2.layout = (exchange.setQueue queue slot).layout :=
  layout_finish _ operation outcome

theorem attempted (operation : Underway) :
    Attempted exchange operation (exchange.attempt operation).1 (exchange.taken? operation)
      (exchange.attempt operation).2 := by
  -- Without the queue or the context there is nobody to act, and the call goes on waiting.
  cases present : exchange.queue? operation.queue with
  | none =>
      simp only [attempt, taken?, present]
      exact .asleep
  | some slot =>
      cases owner : exchange.contexts[operation.context]? with
      | none =>
          simp only [attempt, taken?, present, owner]
          exact .asleep
      | some context =>
          rcases slot_attempt_cases slot operation.job context.interrupt.raised with
            asleep | ⟨err, ended, left⟩ | ⟨message, job, empty, ended, left⟩ |
              ⟨message, job, full, ended, left⟩
          · simp only [attempt, taken?, present, owner, asleep]
            exact .asleep
          · simp only [attempt, taken?, present, owner, ended, left]
            obtain ⟨kind, reason⟩ := finish_error
              ((exchange.setQueue operation.queue slot).setInterrupt operation.context
                (Interrupt.release _ operation.token)) operation err
            rw [reason]
            have same := layout_finished exchange operation.queue slot operation.context
            exact .failed err kind _ (sameSlots_of_written (same _ _ _))
              (queue?_written_back present (same _ _ _))
          · simp only [attempt, taken?, present, owner, ended, left]
            rw [finish_deposit _ job]
            have same := layout_finished exchange operation.queue
              { item := some message, closed := false } operation.context
            exact .deposited message _ job (sameSlots_of_written (same _ _ _))
              (by rw [present, empty]) (queue?_written_same present (same _ _ _))
              (queue?_written_other (same _ _ _))
          · simp only [attempt, taken?, present, owner, ended, left]
            have same := layout_finished exchange operation.queue Slot.empty
              operation.context
            exact .took message _ _ job (sameSlots_of_written (same _ _ _)) (by rw [present, full])
              (queue?_written_same present (same _ _ _)) (queue?_written_other (same _ _ _))

/-- The message that a poll takes off a queue. -/
def polled? (queue : QueueId) : Option Message :=
  match (exchange.queue? queue).map Slot.poll with
  | some (.ok item, _) => item
  | _ => none

/-- What one poll of a queue can have come to. -/
inductive Polled (queue : QueueId) : Outcome → Option Message → Exchange → Prop where
  | failed (err : ChannelError) (after : Exchange)
      (slots : exchange.SameSlots after)
      (queues : ∀ other, after.queue? other = exchange.queue? other) :
      Polled queue (.error err) none after
  | nothing (after : Exchange)
      (slots : exchange.SameSlots after)
      (queues : ∀ other, after.queue? other = exchange.queue? other) :
      Polled queue (.ok none) none after
  | took (message : Message) (outcome : Outcome) (after : Exchange)
      (slots : exchange.SameSlots after)
      (before : exchange.queue? queue = some { item := some message, closed := false })
      (emptied : after.queue? queue = some Slot.empty)
      (others : ∀ other, other ≠ queue → after.queue? other = exchange.queue? other) :
      Polled queue outcome (some message) after

theorem polled (context : Nat) (handle : Handle) (queue : QueueId) :
    Polled exchange queue (exchange.pollQueue context handle queue).1 (exchange.polled? queue)
      (exchange.pollQueue context handle queue).2 := by
  cases present : exchange.queue? queue with
  | none =>
      simp only [pollQueue, polled?, present, Option.map_none]
      exact .failed _ _ (.of_layout rfl) fun _ => rfl
  | some slot =>
      obtain ⟨item, closed⟩ := slot
      cases closed with
      | true =>
          simp only [pollQueue, polled?, present, Option.map_some, Slot.poll, if_true]
          exact .failed _ _ (.of_layout rfl) fun _ => rfl
      | false =>
          cases item with
          | none =>
              simp only [pollQueue, polled?, present, Option.map_some, Slot.poll]
              exact .nothing _ (.of_layout rfl) fun _ => rfl
          | some message =>
              simp only [pollQueue, polled?, present, Option.map_some, Slot.poll]
              have same := layout_finishTake (exchange.setQueue queue Slot.empty)
                context handle .poll message
              exact .took message _ _ (sameSlots_of_written same) present
                (queue?_written_same present same) (queue?_written_other same)

end Exchange

end ValueChannels
