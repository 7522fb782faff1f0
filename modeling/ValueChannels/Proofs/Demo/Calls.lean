import ValueChannels.Proofs.Builtin.Numbers
import ValueChannels.Proofs.Demo.Agenda
import ValueChannels.Proofs.Exchange.Keys
import ValueChannels.Proofs.Exchange.Sections

/-!
The calls of the demonstration, each with the state in which it is made: a channel is opened, got
and closed, messages go into an empty queue and are taken from a full one. Each call succeeds and
leaves one event of its own or none. Main statements: `call_create`, `call_get`, `call_send`,
`call_receive`, `call_close_live`, `call_close_closed`, and `attempt_sending`, `attempt_receiving`
and `attempt_waits` for what comes after a call has begun.
-/

namespace ValueChannels

open Sample

/-! ### What a step leaves of an exchange -/

namespace Exchange

/-- There are so many contexts. All of them are equipped, and nobody has interrupted them. -/
structure Staffed (exchange : Exchange) (count : Nat) : Prop where
  size : exchange.contexts.size = count
  ready : ∀ (index : Nat) (context : Context), exchange.contexts[index]? = some context →
    context.Equipped exchange.heap ∧ context.interrupt.raised = false

/-- Apart from queues and table: the heap goes on, the contexts stay, and this is what is entered in
the record. -/
structure Goes (before after : Exchange) (entry : Option Event) : Prop where
  heap : before.heap.Ages after.heap
  staffed : ∀ count, before.Staffed count → after.Staffed count
  config : after.registry.config = before.registry.config
  log : after.registry.log = before.registry.log.map (entry.toList ++ ·)

variable {exchange before middle after : Exchange} {count : Nat} {entry : Option Event}

theorem Staffed.owner (staffed : exchange.Staffed count) {index : Nat} (inside : index < count) :
    ∃ owner, exchange.contexts[index]? = some owner ∧ owner.Equipped exchange.heap ∧
      owner.interrupt.raised = false := by
  rw [← staffed.size] at inside
  have holder := Array.getElem?_eq_getElem inside
  exact ⟨exchange.contexts[index], holder, staffed.ready index _ holder⟩

theorem Staffed.aged (staffed : exchange.Staffed count) {heap : Heap}
    (ages : exchange.heap.Ages heap) : { exchange with heap }.Staffed count := by
  constructor
  · exact staffed.size
  · intro index context holder
    obtain ⟨equipped, calm⟩ := staffed.ready index context holder
    exact ⟨⟨equipped.codec, equipped.global.aged ages⟩, calm⟩

theorem Staffed.setInterrupt (staffed : exchange.Staffed count) (place : Nat)
    {interrupt : Interrupt QueueId} (calm : interrupt.raised = false) :
    (exchange.setInterrupt place interrupt).Staffed count := by
  constructor
  · simp only [Exchange.setInterrupt, modifyContext, Array.size_modify]
    exact staffed.size
  · intro index context holder
    simp only [Exchange.setInterrupt, modifyContext, Array.getElem?_modify] at holder
    split at holder
    · obtain ⟨old, held, same⟩ := Option.map_eq_some_iff.mp holder
      obtain ⟨equipped, _⟩ := staffed.ready index old held
      rw [← same]
      exact ⟨⟨equipped.codec, equipped.global⟩, calm⟩
    · exact staffed.ready index context holder

theorem global_create (heap : Heap) :
    Global (Environments.create heap).2.Holds (Environments.create heap).1.global ∧
      heap.Retains (Environments.create heap).2 := by
  let empty := heap.allocEnvironment .empty none
  let base := empty.2.allocEnvironment .base (some empty.1)
  let global := base.2.allocEnvironment .global (some base.1)
  have first : heap.Retains base.2 := (Heap.Retains.alloc heap _).trans (.alloc empty.2 _)
  have second : base.2.Retains global.2 := .alloc base.2 _
  have third : global.2.Retains (Environments.create heap).2 := .alloc global.2 _
  constructor
  · exact ⟨_, _, third.holds (base.2.holds_alloc _)⟩
  · exact (first.trans second).trans third

theorem Staffed.addContext (staffed : exchange.Staffed count) (name : String) :
    (exchange.addContext name .packed).2.Staffed (count + 1) ∧
      exchange.heap.Retains (exchange.addContext name .packed).2.heap := by
  obtain ⟨isGlobal, retains⟩ := global_create exchange.heap
  have contexts : (exchange.addContext name .packed).2.contexts =
      exchange.contexts.push (Context.create exchange.heap name .packed).1 := rfl
  have aged := staffed.aged retains.ages
  constructor
  · constructor
    · rw [contexts, Array.size_push, staffed.size]
    · intro index context holder
      rw [contexts, Array.getElem?_push] at holder
      split at holder
      · cases holder
        exact ⟨⟨rfl, isGlobal⟩, rfl⟩
      · exact aged.ready index context holder
  · exact retains

theorem unchanged_log (log : Option (List Event)) :
    log.map ((none : Option Event).toList ++ ·) = log := by
  cases log with
  | none => rfl
  | some events => rfl

theorem Goes.none_trans (first : before.Goes middle none) (second : middle.Goes after entry) :
    before.Goes after entry := by
  constructor
  · exact first.heap.trans second.heap
  · exact fun count staffed => second.staffed count (first.staffed count staffed)
  · exact second.config.trans first.config
  · rw [second.log, first.log, unchanged_log]

theorem Goes.trans_none (first : before.Goes middle entry) (second : middle.Goes after none) :
    before.Goes after entry := by
  constructor
  · exact first.heap.trans second.heap
  · exact fun count staffed => second.staffed count (first.staffed count staffed)
  · exact second.config.trans first.config
  · rw [second.log, unchanged_log, first.log]

theorem Goes.of_ages {heap : Heap} (ages : exchange.heap.Ages heap) :
    exchange.Goes { exchange with heap } none := by
  constructor
  · exact ages
  · exact fun count staffed => staffed.aged ages
  · rfl
  · exact (unchanged_log _).symm

theorem Goes.record (event : Event) : exchange.Goes (exchange.record event) (some event) := by
  constructor
  · exact (Heap.Retains.refl exchange.heap).ages
  · exact fun count staffed => ⟨staffed.size, staffed.ready⟩
  · rfl
  · rfl

theorem Goes.rearranged (exchange : Exchange) (channels : Array Channel) (table : Table) :
    exchange.Goes { exchange with channels, registry := { exchange.registry with table } }
      none := by
  constructor
  · exact (Heap.Retains.refl exchange.heap).ages
  · exact fun count staffed => ⟨staffed.size, staffed.ready⟩
  · rfl
  · exact (unchanged_log _).symm

theorem Goes.setInterrupt {index : Nat} {owner : Context} {interrupt : Interrupt QueueId}
    (holder : exchange.contexts[index]? = some owner)
    (flag : interrupt.raised = owner.interrupt.raised) :
    exchange.Goes (exchange.setInterrupt index interrupt) none := by
  constructor
  · exact (Heap.Retains.refl exchange.heap).ages
  · intro count staffed
    exact staffed.setInterrupt index (flag.trans (staffed.ready index owner holder).2)
  · rfl
  · exact (unchanged_log _).symm

theorem register_held {index : Nat} {owner : Context} (handle : Handle) (queue : QueueId)
    (job : Job Message) (holder : exchange.contexts[index]? = some owner) :
    exchange.register index handle queue job =
      ({ context := index, handle, queue, token := owner.interrupt.nextToken, job },
        exchange.setInterrupt index (owner.interrupt.register queue).2) := by
  simp only [register, holder, Interrupt.register]

end Exchange

/-! ### Operations on the channel to a worker -/

namespace Demo

open Exchange

/-- The value is the id of a channel. -/
def Names (heap : Heap) (id : Ref) (handle : Handle) : Prop :=
  Data heap.Holds id (.integer [Int32.ofInt handle.toRaw])

def contextAt (worker : Nat) : Side → Nat
  | .master => State.masterContext
  | .worker => worker + 1

def toward (worker : Nat) (side : Side) : QueueId :=
  { channel := worker, toward := side }

def sending (worker token : Nat) (side : Side) (message : Message) : Underway :=
  { context := contextAt worker side, handle := handle worker side,
    queue := toward worker side.other, token, job := .deposit message }

def receiving (worker token : Nat) (side : Side) : Underway :=
  { context := contextAt worker side, handle := handle worker side,
    queue := toward worker side, token, job := .take }

def full (message : Message) : Slot Message :=
  { item := some message, closed := false }

variable {exchange : Exchange} {heap : Heap} {worker count token : Nat} {side : Side}
  {id value : Ref} {message : Message}

/-! ### Ids -/

theorem toInt_workerKey (fits : 100 + worker < 2147483648) :
    (State.workerKey worker).toInt = 100 + worker :=
  Int32.toInt_ofInt_of_le (by omega) (by omega)

theorem numbered_handle (fits : 100 + worker < 2147483648) (side : Side) :
    (handle worker side).Numbered := by
  have forms : Handle.rawForms = 18446744073709551616 := rfl
  have slot : (handle worker side).slot = worker + 1 := rfl
  have bounds : -2147483648 ≤ (handle worker side).toRaw ∧
      (handle worker side).toRaw < 2147483648 := by
    rw [Handle.toRaw_eq (by omega)]
    cases side with
    | master => simp only [handle]; omega
    | worker => simp only [handle]; omega
  constructor
  · omega
  · omega
  · exact bounds.1
  · exact bounds.2

theorem names_allocHandle (fits : 100 + worker < 2147483648) (exchange : Exchange) (side : Side) :
    ∃ id heap, exchange.allocHandle (handle worker side) = (.ok id, { exchange with heap }) ∧
      Names heap id (handle worker side) ∧ exchange.heap.Retains heap := by
  have numbered := numbered_handle fits side
  refine ⟨_, _, ?_, exchange.heap.holds_alloc _, .alloc exchange.heap _⟩
  simp only [allocHandle]
  exact if_pos ⟨numbered.low, numbered.high⟩

/-! ### Calls -/

section Functions

variable (context : Nat) (arguments : List Ref) (exchange : Exchange)

theorem call_createName : Builtins.channels.call context Builtins.createName arguments exchange =
    Builtins.create context arguments exchange := rfl

theorem call_getName : Builtins.channels.call context Builtins.getName arguments exchange =
    Builtins.get context arguments exchange := rfl

theorem call_closeName : Builtins.channels.call context Builtins.closeName arguments exchange =
    Builtins.close context arguments exchange := rfl

theorem call_sendName : Builtins.channels.call context Builtins.sendName arguments exchange =
    Builtins.send context arguments exchange := rfl

theorem call_receiveName : Builtins.channels.call context Builtins.receiveName arguments exchange =
    Builtins.receive context arguments exchange := rfl

end Functions

theorem handleArgument_names (fits : 100 + worker < 2147483648)
    (names : Names heap id (handle worker side)) (function : String) (further : List Ref) :
    Builtins.handleArgument function heap (id :: further) (further.length + 1) =
      .ok (handle worker side) := by
  have read := (numbered_handle fits side).readsBack.integer heap id names.body
  exact Builtins.handleArgument_of_readHandle read function further

theorem keyArgument_data {argument : Ref} {key : Int32} (function : String)
    (keyed : Data heap.Holds argument (.integer [key])) :
    Builtins.keyArgument function heap [argument] = .ok key.toInt := by
  have vector : heap.vector? argument = some (.integer [key]) := by
    rw [Heap.vector?, keyed.body]
  simp only [Builtins.keyArgument, Arguments.checkCount, List.length_cons, List.length_nil,
    if_true, Arguments.integerAt, Arguments.readAt, List.getElem?_cons_zero, Heap.readInteger,
    vector]

section Begin

variable {owner : Context} {key : Int} (fits : 100 + worker < 2147483648)
  (names : Names exchange.heap id (handle worker side))
  (held : exchange.registry.table.slot? (worker + 1) = some (.live key worker))
  (holder : exchange.contexts[contextAt worker side]? = some owner)

include held in
theorem channel?_handle (side : Side) : exchange.channel? (handle worker side) = .ok worker :=
  exchange.channel?_eq_ok.mpr (Table.channel?_eq_some.mpr ⟨key, held⟩)

include fits names held holder

/-- A send is begun. -/
theorem call_send (converted : Message.ofValue owner exchange.heap value = (.ok message, heap))
    (ages : exchange.heap.Ages heap) :
    ∃ token after, Builtins.channels.call (contextAt worker side) Builtins.sendName [id, value]
        exchange = (.ok (.underway (sending worker token side message)), after) ∧
      exchange.Goes after none ∧ after.layout = exchange.layout ∧ after.heap = heap := by
  let sent : Exchange := { exchange with heap }
  let after := sent.setInterrupt (contextAt worker side)
    (owner.interrupt.register (toward worker side.other)).2
  have holder' : sent.contexts[contextAt worker side]? = some owner := holder
  have registered : sent.register (contextAt worker side) (handle worker side)
      { channel := worker, toward := (handle worker side).side.other } (.deposit message) =
        (sending worker owner.interrupt.nextToken side message, after) :=
    register_held _ _ _ holder'
  have begun : exchange.startSend (contextAt worker side) (handle worker side) value =
      (.ok (sending worker owner.interrupt.nextToken side message), after) := by
    simp only [startSend, channel?_handle held, convertSend, holder, converted]
    rw [registered]
  have given : Builtins.handleArgument Builtins.sendName exchange.heap [id, value] 2 =
      .ok (handle worker side) := handleArgument_names fits names Builtins.sendName [value]
  refine ⟨owner.interrupt.nextToken, after, ?_, ?_, rfl, rfl⟩
  · rw [call_sendName]
    simp only [Builtins.send, given, List.getElem?_cons_succ, List.getElem?_cons_zero,
      Option.getD_some, begun, Builtins.answerStarted]
  · exact (Goes.of_ages ages).none_trans (.setInterrupt holder' rfl)

/-- A receive is begun. -/
theorem call_receive :
    ∃ token after, Builtins.channels.call (contextAt worker side) Builtins.receiveName [id]
        exchange = (.ok (.underway (receiving worker token side)), after) ∧
      exchange.Goes after none ∧ after.layout = exchange.layout := by
  let after := exchange.setInterrupt (contextAt worker side)
    (owner.interrupt.register (toward worker side)).2
  have begun : exchange.startReceive (contextAt worker side) (handle worker side) =
      (.ok (receiving worker owner.interrupt.nextToken side), after) := by
    simp only [startReceive, channel?_handle held, register_held _ _ _ holder]
    rfl
  have given : Builtins.handleArgument Builtins.receiveName exchange.heap [id] 1 =
      .ok (handle worker side) := handleArgument_names fits names Builtins.receiveName []
  refine ⟨owner.interrupt.nextToken, after, ?_, .setInterrupt holder rfl, rfl⟩
  rw [call_receiveName]
  simp only [Builtins.receive, given, begun, Builtins.answerStarted]

end Begin

section Keys

variable {arguments : List Ref} {key : Int} {found : Handle} {middle last : Exchange}

/-- What a call on a key comes to when the operation succeeds. -/
theorem create_answers (context : Nat)
    (given : Builtins.keyArgument Builtins.createName exchange.heap arguments = .ok key)
    (created : exchange.create key = (some (.ok found), middle))
    (allocated : middle.allocHandle found = (.ok id, last)) :
    Builtins.create context arguments exchange = (.ok (.done id), last) := by
  simp only [Builtins.create, given, created, Builtins.answerHandle, allocated]

theorem get_answers (context : Nat)
    (given : Builtins.keyArgument Builtins.getName exchange.heap arguments = .ok key)
    (looked : exchange.get key = (.ok found, middle))
    (allocated : middle.allocHandle found = (.ok id, last)) :
    Builtins.get context arguments exchange = (.ok (.done id), last) := by
  simp only [Builtins.get, given, looked, Builtins.answerHandle, allocated]

end Keys

/-- The master opens a channel. -/
theorem call_create {argument : Ref} {table : Table} (fits : 100 + worker < 2147483648)
    (keyed : Data exchange.heap.Holds argument (.integer [State.workerKey worker]))
    (opens : exchange.registry.table.open? exchange.registry.config.growFactor (100 + worker)
      exchange.channels.size = some (.ok (worker + 1, table))) :
    ∃ id after, Builtins.channels.call State.masterContext Builtins.createName [argument] exchange =
        (.ok (.done id), after) ∧ Names after.heap id (handle worker .master) ∧
      exchange.Goes after (some (found .create worker .master)) ∧
      after.layout = { exchange.layout with
        channels := exchange.channels.push (Channel.opened (worker + 1) (100 + worker))
        table } := by
  let opened : Exchange := { exchange with
    channels := exchange.channels.push (Channel.opened (worker + 1) (100 + worker))
    registry := { exchange.registry with table } }
  let recorded := opened.record (found .create worker .master)
  have created : exchange.create (100 + worker) =
      (some (.ok (handle worker .master)), recorded) := by
    simp only [create, opens]
    rfl
  obtain ⟨id, heap, allocated, names, retains⟩ := names_allocHandle fits recorded .master
  have given := keyArgument_data Builtins.createName keyed
  rw [toInt_workerKey fits] at given
  refine ⟨id, { recorded with heap }, ?_, names, ?_, rfl⟩
  · rw [call_createName]
    exact create_answers _ given created allocated
  · have records := (Goes.rearranged exchange opened.channels table).none_trans
      (.record (found .create worker .master))
    exact records.trans_none (.of_ages retains.ages)

/-- A worker looks its channel up. -/
theorem call_get {argument : Ref} (fits : 100 + worker < 2147483648)
    (keyed : Data exchange.heap.Holds argument (.integer [State.workerKey worker]))
    (known : exchange.registry.table.slotOf? (100 + worker) = some (worker + 1)) :
    ∃ id after, Builtins.channels.call (contextAt worker .worker) Builtins.getName [argument]
        exchange = (.ok (.done id), after) ∧ Names after.heap id (handle worker .worker) ∧
      exchange.Goes after (some (found .get worker .worker)) ∧ after.layout = exchange.layout := by
  let recorded := exchange.record (found .get worker .worker)
  have positive : 0 < (100 + worker : Int) := by omega
  have looked : exchange.get (100 + worker) = (.ok (handle worker .worker), recorded) := by
    simp only [Exchange.get, positive, if_true, known]
    rfl
  obtain ⟨id, heap, allocated, names, retains⟩ := names_allocHandle fits recorded .worker
  have given := keyArgument_data Builtins.getName keyed
  rw [toInt_workerKey fits] at given
  refine ⟨id, { recorded with heap }, ?_, names, ?_, rfl⟩
  · rw [call_getName]
    exact get_answers _ given looked allocated
  · exact (Goes.record (found .get worker .worker)).trans_none (.of_ages retains.ages)

/-- The exchange with the channel of a worker closed. -/
def shut (exchange : Exchange) (worker : Nat) : Exchange :=
  let table := exchange.registry.table.setEntry (worker + 1) .closed
  let withdrawn : Exchange := { exchange with registry := { exchange.registry with table } }
  (withdrawn.closeQueue (toward worker .worker)).closeQueue (toward worker .master)

section Close

variable (fits : 100 + worker < 2147483648) (names : Names exchange.heap id (handle worker side))

include fits names

/-- An open channel is closed. -/
theorem call_close_live {key : Int} (context : Nat)
    (held : exchange.registry.table.slot? (worker + 1) = some (.live key worker)) :
    ∃ after, Builtins.channels.call context Builtins.closeName [id] exchange =
        (.ok (.done Ref.null), after) ∧
      exchange.Goes after (some (parted worker side)) ∧
      after.layout = (shut exchange worker).layout := by
  have given : Builtins.handleArgument Builtins.closeName exchange.heap [id] 1 =
      .ok (handle worker side) := handleArgument_names fits names Builtins.closeName []
  have taken := Table.close?_live.mpr ⟨key, held⟩
  have closed : exchange.close (handle worker side) =
      (.ok (), (shut exchange worker).recordClose (handle worker side)) := by
    simp only [close, withdraw, handle, taken]
    rfl
  refine ⟨(shut exchange worker).recordClose (handle worker side), ?_, ?_, rfl⟩
  · rw [call_closeName]
    simp only [Builtins.close, given, closed]
  · have rearranges := Goes.rearranged exchange (shut exchange worker).channels
      (shut exchange worker).registry.table
    exact rearranges.none_trans (.record (parted worker side))

/-- A channel that is closed already is closed again. -/
theorem call_close_closed (context : Nat)
    (held : exchange.registry.table.slot? (worker + 1) = some .closed) :
    ∃ after, Builtins.channels.call context Builtins.closeName [id] exchange =
        (.ok (.done Ref.null), after) ∧
      exchange.Goes after (some (parted worker side)) ∧ after.layout = exchange.layout := by
  have given : Builtins.handleArgument Builtins.closeName exchange.heap [id] 1 =
      .ok (handle worker side) := handleArgument_names fits names Builtins.closeName []
  have closed : exchange.close (handle worker side) =
      (.ok (), exchange.recordClose (handle worker side)) := by
    simp only [close, withdraw, handle, Table.close?, held]
  refine ⟨exchange.recordClose (handle worker side), ?_, .record (parted worker side), rfl⟩
  rw [call_closeName]
  simp only [Builtins.close, given, closed]

end Close

/-! ### Attempts -/

/-- The exchange once an operation has found its queue ready and has ended its wait. -/
def leaves (exchange : Exchange) (operation : Underway) (owner : Context) (slot : Slot Message) :
    Exchange :=
  (exchange.setQueue operation.queue slot).setInterrupt operation.context
    (owner.interrupt.release operation.token)

theorem attempt_ready {operation : Underway} {owner : Context} {slot slot' : Slot Message}
    {outcome : Except WaitError (Option Message)}
    (holder : exchange.contexts[operation.context]? = some owner)
    (queue : exchange.queue? operation.queue = some slot)
    (moves : slot.attempt operation.job owner.interrupt.raised =
      { outcome := some outcome, slot := slot', raised := owner.interrupt.raised }) :
    exchange.attempt operation =
      (some ((leaves exchange operation owner slot').finish operation outcome).1,
        ((leaves exchange operation owner slot').finish operation outcome).2) := by
  simp only [attempt, queue, holder, moves]
  rfl

theorem goes_leaves {operation : Underway} {owner : Context} (slot : Slot Message)
    (holder : exchange.contexts[operation.context]? = some owner) :
    exchange.Goes (leaves exchange operation owner slot) none := by
  have writes := Goes.rearranged exchange (exchange.setQueue operation.queue slot).channels
    exchange.registry.table
  have holder' : (exchange.setQueue operation.queue slot).contexts[operation.context]? =
      some owner := holder
  have flag : (owner.interrupt.release operation.token).raised = owner.interrupt.raised := rfl
  exact writes.none_trans (.setInterrupt holder' flag)

section Attempt

variable (token) (side)

variable {owner : Context} (holder : exchange.contexts[contextAt worker side]? = some owner)

include holder

/-- A message is put into an empty queue. -/
theorem attempt_sending (message : Message)
    (empty : exchange.queue? (toward worker side.other) = some Slot.empty) :
    ∃ after, exchange.attempt (sending worker token side message) = (some (.ok none), after) ∧
      exchange.Goes after (some (moved .send worker side message.form)) ∧
      after.layout = (exchange.setQueue (toward worker side.other) (full message)).layout := by
  let left := leaves exchange (sending worker token side message) owner (full message)
  let after := left.record (moved .send worker side message.form)
  have ended : exchange.attempt (sending worker token side message) =
      (some (left.finish (sending worker token side message) (.ok none)).1,
        (left.finish (sending worker token side message) (.ok none)).2) :=
    attempt_ready holder empty rfl
  have finished : left.finish (sending worker token side message) (.ok none) =
      (.ok none, after) := rfl
  have left_ : exchange.Goes left none := goes_leaves (full message) holder
  rw [finished] at ended
  exact ⟨after, ended, left_.none_trans (.record _), rfl⟩

/-- Nothing is taken out of an empty queue. -/
theorem attempt_waits (calm : owner.interrupt.raised = false)
    (empty : exchange.queue? (toward worker side) = some Slot.empty) :
    (exchange.attempt (receiving worker token side)).1 = none := by
  simp only [attempt, receiving, empty, holder, Slot.attempt, Slot.empty, calm,
    Bool.false_eq_true, if_false]

/-- A message is taken out of its queue, and its value is built. -/
theorem attempt_receiving {built : Heap → Ref → Prop} (equipped : owner.Equipped exchange.heap)
    (lies : exchange.queue? (toward worker side) = some (full message))
    (builds : ∀ reader : Context, reader.Equipped exchange.heap → ∃ value heap,
      message.toValue reader exchange.heap = (.ok value, heap) ∧ built heap value ∧
        exchange.heap.Ages heap) :
    ∃ value after, exchange.attempt (receiving worker token side) =
        (some (.ok (some value)), after) ∧ built after.heap value ∧
      exchange.Goes after (some (moved .receive worker side message.form)) ∧
      after.layout = (exchange.setQueue (toward worker side) Slot.empty).layout := by
  let left := leaves exchange (receiving worker token side) owner Slot.empty
  -- The value is built for the owner as it is after the wait, with another interrupt.
  let reader : Context := { owner with interrupt := owner.interrupt.release token }
  have holds : left.contexts[contextAt worker side]? = some reader := by
    have holder' : (exchange.setQueue (toward worker side) Slot.empty).contexts[contextAt worker
        side]? = some owner := holder
    simp only [left, leaves, receiving, setInterrupt, modifyContext, Array.getElem?_modify, if_true,
      holder', Option.map_some]
    rfl
  obtain ⟨value, heap, read, arrived, ages⟩ := builds reader ⟨equipped.codec, equipped.global⟩
  let after := { left with heap }.record (moved .receive worker side message.form)
  have finished : left.finish (receiving worker token side) (.ok (some message)) =
      (.ok (some value), after) := by
    have same : left.heap = exchange.heap := rfl
    simp only [finish, receiving, finishTake, holds, same, read]
    rfl
  have ended : exchange.attempt (receiving worker token side) =
      (some (left.finish (receiving worker token side) (.ok (some message))).1,
        (left.finish (receiving worker token side) (.ok (some message))).2) :=
    attempt_ready holder lies rfl
  rw [finished] at ended
  have left_ : exchange.Goes left none := goes_leaves Slot.empty holder
  have onward : left.Goes { left with heap } none := .of_ages ages
  exact ⟨value, after, ended, arrived, (left_.none_trans onward).none_trans (.record _), rfl⟩

end Attempt

end Demo

end ValueChannels
