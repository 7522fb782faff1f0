import ValueChannels.Proofs.Exchange.Queues
import ValueChannels.Proofs.Exchange.Slots
import ValueChannels.Proofs.Exchange.Traffic

/-!
The steps of the traffic, by what they come to. Main statements: `section_advance` for a section
of a call and `stepped` for a move; what is proved about runs is proved from these two.
-/

namespace ValueChannels

namespace Exchange

variable (exchange : Exchange)

/-- The operation is that of a send that converted its value. -/
structure Converts (context : Nat) (handle : Handle) (queue : QueueId) (value : Ref)
    (operation : Underway) (message : Message) : Prop where
  converts : ∃ owner, exchange.contexts[context]? = some owner ∧
    (Message.ofValue owner exchange.heap value).1 = .ok message
  ofContext : operation.context = context
  ofHandle : operation.handle = handle
  ofQueue : operation.queue = queue
  deposits : operation.job = .deposit message

theorem register_eq (context : Nat) (handle : Handle) (queue : QueueId) (job : Job Message) :
    ∃ token, (exchange.register context handle queue job).1 =
      { context, handle, queue, token, job } := by
  unfold register
  cases exchange.contexts[context]? with
  | none => exact ⟨0, rfl⟩
  | some owner => exact ⟨owner.interrupt.nextToken, rfl⟩

theorem convertSend_cases (context : Nat) (handle : Handle) (queue : QueueId) (value : Ref) :
    (∃ err, (exchange.convertSend context handle queue value).1 = .error err) ∨
      ∃ operation message, (exchange.convertSend context handle queue value).1 = .ok operation ∧
        exchange.Converts context handle queue value operation message := by
  cases owner : exchange.contexts[context]? with
  | none =>
      left
      simp only [convertSend, owner]
      exact ⟨_, rfl⟩
  | some context' =>
      cases converted : Message.ofValue context' exchange.heap value with
      | mk result heap =>
          simp only [convertSend, owner, converted]
          cases result with
          | error err => exact Or.inl ⟨err, rfl⟩
          | ok message =>
              right
              obtain ⟨token, same⟩ :=
                register_eq { exchange with heap } context handle queue (.deposit message)
              refine ⟨_, message, congrArg Except.ok same, ?_⟩
              have result : (Message.ofValue context' exchange.heap value).1 = .ok message := by
                rw [converted]
              exact ⟨⟨context', owner, result⟩, rfl, rfl, rfl, rfl⟩

theorem channel?_eq_ok {handle : Handle} {channel : Nat} :
    exchange.channel? handle = .ok channel ↔
      exchange.registry.table.channel? handle.slot = some channel := by
  unfold channel?
  cases exchange.registry.table.channel? handle.slot with
  | none => simp
  | some found => simp

theorem startReceive_cases (context : Nat) (handle : Handle) :
    (∃ err, (exchange.startReceive context handle).1 = .error err) ∨
      ∃ channel token, exchange.channel? handle = .ok channel ∧
        (exchange.startReceive context handle).1 =
          .ok { context, handle, queue := { channel, toward := handle.side }, token,
                job := .take } := by
  unfold startReceive
  cases exchange.channel? handle with
  | error err => exact Or.inl ⟨err, rfl⟩
  | ok channel =>
      right
      obtain ⟨token, same⟩ :=
        exchange.register_eq context handle { channel, toward := handle.side } .take
      exact ⟨channel, token, rfl, congrArg Except.ok same⟩

end Exchange

namespace Traffic

variable (traffic : Traffic)

/-- What a section of a call can have come to. -/
inductive Section (call : Nat) : Errand → Traffic → Prop where
  | slept (operation : Underway) : Section call (.wait operation) traffic
  | converted (context : Nat) (handle : Handle) (queue : QueueId) (value : Ref)
      (operation : Underway) (message : Message) (left : Exchange)
      (layout : left.layout = traffic.exchange.layout)
      (converts :
        traffic.exchange.Converts context handle queue value operation message) :
      Section call (.convert context handle queue value)
        (traffic.resume call (.wait operation) left)
  | failed (errand : Errand) (err : ChannelError) (left : Exchange)
      (slots : traffic.exchange.SameSlots left)
      (queues : ∀ queue, left.queue? queue = traffic.exchange.queue? queue) :
      Section call errand
        (traffic.complete { call, errand, taken := none, outcome := .error err } left)
  | nothing (context : Nat) (handle : Handle) (queue : QueueId) (left : Exchange)
      (slots : traffic.exchange.SameSlots left)
      (queues : ∀ queue, left.queue? queue = traffic.exchange.queue? queue) :
      Section call (.poll context handle queue)
        (traffic.complete
          { call, errand := .poll context handle queue, taken := none, outcome := .ok none } left)
  | deposited (operation : Underway) (message : Message) (left : Exchange)
      (job : operation.job = .deposit message)
      (slots : traffic.exchange.SameSlots left)
      (before : traffic.exchange.queue? operation.queue = some Slot.empty)
      (filled : left.queue? operation.queue = some { item := some message, closed := false })
      (others : ∀ queue, queue ≠ operation.queue →
        left.queue? queue = traffic.exchange.queue? queue) :
      Section call (.wait operation)
        (traffic.complete
          { call, errand := .wait operation, taken := none, outcome := .ok none } left)
  | took (errand : Errand) (queue : QueueId) (message : Message) (outcome : Outcome)
      (left : Exchange)
      (takes : errand.Takes)
      (place : errand.queue? = some queue)
      (slots : traffic.exchange.SameSlots left)
      (before : traffic.exchange.queue? queue = some { item := some message, closed := false })
      (emptied : left.queue? queue = some Slot.empty)
      (others : ∀ other, other ≠ queue → left.queue? other = traffic.exchange.queue? other) :
      Section call errand
        (traffic.complete { call, errand, taken := some message, outcome } left)
  | closing (handle : Handle) (queue : QueueId) (sides : List Side) :
      Section call (.close handle queue.channel (queue.toward :: sides))
        { traffic.resume call (.close handle queue.channel sides)
            (traffic.exchange.closeQueue queue) with
          discards := traffic.discards ++
            (traffic.exchange.inFlight queue).map (Prod.mk queue) }
  | ended (handle : Handle) (channel : Nat) :
      Section call (.close handle channel [])
        (traffic.complete
          { call, errand := .close handle channel [], taken := none, outcome := .ok none }
          (traffic.exchange.recordClose handle))

theorem section_convert (call context : Nat) (handle : Handle) (queue : QueueId) (value : Ref) :
    traffic.Section call (.convert context handle queue value)
      (traffic.advance call (.convert context handle queue value)) := by
  have layout := traffic.exchange.layout_convertSend context handle queue value
  have happened := traffic.exchange.convertSend_cases context handle queue value
  simp only [advance]
  generalize traffic.exchange.convertSend context handle queue value = result at layout happened ⊢
  obtain ⟨outcome, left⟩ := result
  rcases happened with ⟨err, same⟩ | ⟨operation, message, same, converts⟩
  · cases same
    exact .failed _ err left (.of_layout layout) (Exchange.queue?_congr layout)
  · cases same
    exact .converted context handle queue value operation message left layout converts

theorem section_wait (call : Nat) (operation : Underway) :
    traffic.Section call (.wait operation) (traffic.advance call (.wait operation)) := by
  have happened := traffic.exchange.attempted operation
  simp only [advance]
  generalize traffic.exchange.taken? operation = message at happened ⊢
  generalize traffic.exchange.attempt operation = result at happened ⊢
  obtain ⟨outcome, left⟩ := result
  cases happened with
  | asleep => exact .slept operation
  | failed err kind _ slots queues => exact .failed _ _ left slots queues
  | deposited message _ job slots before filled others =>
      exact .deposited operation message left job slots before filled others
  | took message outcome _ job slots before emptied others =>
      have takes : (Errand.wait operation).Takes := by
        obtain ⟨context, handle, queue, token, job'⟩ := operation
        cases job
        exact True.intro
      exact .took _ operation.queue message outcome left takes rfl slots before emptied others

theorem section_poll (call context : Nat) (handle : Handle) (queue : QueueId) :
    traffic.Section call (.poll context handle queue)
      (traffic.advance call (.poll context handle queue)) := by
  have happened := traffic.exchange.polled context handle queue
  simp only [advance]
  generalize traffic.exchange.polled? queue = message at happened ⊢
  generalize traffic.exchange.pollQueue context handle queue = result at happened ⊢
  obtain ⟨outcome, left⟩ := result
  cases happened with
  | failed err _ slots queues => exact .failed _ err left slots queues
  | nothing _ slots queues => exact .nothing context handle queue left slots queues
  | took message outcome _ slots before emptied others =>
      exact .took _ queue message outcome left True.intro rfl slots before emptied others

/-- What a section of a call comes to. -/
theorem section_advance (call : Nat) (errand : Errand) :
    traffic.Section call errand (traffic.advance call errand) := by
  cases errand with
  | convert context handle queue value => exact traffic.section_convert call context handle queue value
  | wait operation => exact traffic.section_wait call operation
  | poll context handle queue => exact traffic.section_poll call context handle queue
  | close handle channel sides =>
      cases sides with
      | nil => exact .ended handle channel
      | cons side sides => exact .closing handle { channel, toward := side } sides

/-- What a move can have come to. -/
inductive Stepped : Move → Traffic → Prop where
  | still (move : Move) (left : Exchange) (layout : left.layout = traffic.exchange.layout) :
      Stepped move (traffic.withExchange left)
  | began (move : Move) (errand : Errand) (queue : QueueId) (left : Exchange)
      (layout : left.layout = traffic.exchange.layout)
      (found : traffic.exchange.channel? errand.handle = .ok queue.channel)
      (place : errand.queue? = some queue)
      (across : errand.Across)
      (starts : errand.Takes ∨
        ∃ context value, errand = .convert context errand.handle queue value ∧
          move = .send context errand.handle value) :
      Stepped move (traffic.enter errand left)
  | opened (key : Int) (slot : Nat) (table : Table) (left : Exchange)
      (opens : traffic.exchange.registry.table.open? traffic.exchange.registry.config.growFactor
        key traffic.exchange.channels.size = some (.ok (slot, table)))
      (layout : left.layout = { traffic.exchange.layout with
        channels := traffic.exchange.channels.push (Channel.opened slot key)
        table }) :
      Stepped (.create key) (traffic.withExchange left)
  | withdrew (handle : Handle) (channel : Nat) (table : Table) (left : Exchange)
      (closes : traffic.exchange.registry.table.close? handle.slot = some (some channel, table))
      (layout : left.layout = { traffic.exchange.layout with table }) :
      Stepped (.close handle) (traffic.enter (.close handle channel [.worker, .master]) left)
  | advanced (call : Nat) (errand : Errand) (after : Traffic)
      (pending : traffic.errand? call = some errand)
      (happened : traffic.Section call errand after) :
      Stepped (.proceed call) after

theorem stepped_send (context : Nat) (handle : Handle) (value : Ref) :
    traffic.Stepped (.send context handle value) (traffic.step (.send context handle value)) := by
  simp only [step]
  split
  · exact .still _ _ rfl
  · rename_i channel found
    exact .began _ _ { channel, toward := handle.side.other } _ rfl found rfl rfl
      (Or.inr ⟨context, value, rfl, rfl⟩)

theorem stepped_receive (context : Nat) (handle : Handle) :
    traffic.Stepped (.receive context handle) (traffic.step (.receive context handle)) := by
  have layout := traffic.exchange.layout_startReceive context handle
  have happened := traffic.exchange.startReceive_cases context handle
  simp only [step]
  generalize traffic.exchange.startReceive context handle = result at layout happened ⊢
  obtain ⟨outcome, left⟩ := result
  rcases happened with ⟨err, same⟩ | ⟨channel, token, found, same⟩
  · cases same
    exact .still _ left layout
  · cases same
    exact .began _ _ { channel, toward := handle.side } left layout found rfl rfl
      (Or.inl True.intro)

theorem stepped_poll (context : Nat) (handle : Handle) :
    traffic.Stepped (.poll context handle) (traffic.step (.poll context handle)) := by
  simp only [step]
  split
  · exact .still _ _ rfl
  · rename_i channel found
    exact .began _ _ { channel, toward := handle.side } _ rfl found rfl rfl
      (Or.inl True.intro)

theorem stepped_close (handle : Handle) :
    traffic.Stepped (.close handle) (traffic.step (.close handle)) := by
  have happened := traffic.exchange.withdraw_cases handle
  simp only [step]
  generalize traffic.exchange.withdraw handle = result at happened ⊢
  obtain ⟨outcome, left⟩ := result
  rcases happened with ⟨layout, err, same⟩ | ⟨channel, table, closes, same, layout⟩
  · cases same
    exact .still _ left layout
  · cases same
    cases channel with
    | none =>
        have table_same := Table.close?_none closes
        refine .still _ _ ?_
        have recorded : (left.recordClose handle).layout = left.layout := rfl
        rw [recorded, layout, table_same]
        rfl
    | some channel => exact .withdrew handle channel table left closes layout

theorem stepped_create (key : Int) :
    traffic.Stepped (.create key) (traffic.step (.create key)) := by
  rcases traffic.exchange.create_cases key with ⟨layout, _⟩ | ⟨slot, table, opens, _, layout⟩
  · exact .still _ _ layout
  · exact .opened key slot table _ opens layout

/-- What a move comes to. -/
theorem stepped (move : Move) : traffic.Stepped move (traffic.step move) := by
  cases move with
  | send context handle value => exact traffic.stepped_send context handle value
  | receive context handle => exact traffic.stepped_receive context handle
  | poll context handle => exact traffic.stepped_poll context handle
  | close handle => exact traffic.stepped_close handle
  | proceed call =>
      simp only [step]
      cases pending : traffic.errand? call with
      | none => exact .still _ traffic.exchange rfl
      | some errand => exact .advanced call errand _ pending (traffic.section_advance call errand)
  | create key => exact traffic.stepped_create key
  | get key => exact .still _ _ (Exchange.layout_get _ key)
  | interrupt context => exact .still _ _ (Exchange.layout_interrupt _ context)
  | clear context => exact .still _ _ (Exchange.layout_clearInterrupt _ context)
  | addContext name codec => exact .still _ _ rfl
  | elsewhere heap change => exact .still _ _ rfl

end Traffic

end ValueChannels
