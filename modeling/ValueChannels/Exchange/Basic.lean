import ValueChannels.Exchange.Channel
import ValueChannels.Message.ToValue
import ValueChannels.Message.OfValue

/-!
The exchange: the heap, the contexts, the channels and the registry they share, with the
operations on channels. Sending and receiving are started first and then attempted until
an attempt ends them; each attempt is one critical section, so the operations of several
threads interleave between attempts.
-/

namespace ValueChannels

structure Exchange where
  heap : Heap
  contexts : Array Context
  /-- All channels ever opened; a channel keeps its place when it is closed. -/
  channels : Array Channel
  registry : Registry

/-- A send or receive that has been started: who started it on what queue, the token of its
registration with the interrupt of its context, and what it is to do. -/
structure Underway where
  context : Nat
  handle : Handle
  queue : QueueId
  token : Nat
  job : Job Message

/-- How a send or receive ended. A receive that succeeds has a value. -/
abbrev Outcome := Except ChannelError (Option Ref)

def WaitError.toChannelError (operation : Operation) (handle : Handle) :
    WaitError → ChannelError
  | .closed => .notFound (.handle handle.toRaw)
  | .interrupted => .interrupted operation

namespace Exchange

def initial (registry : Registry) : Exchange :=
  { heap := Heap.initial, contexts := #[], channels := #[], registry }

def record (exchange : Exchange) (event : Event) : Exchange :=
  { exchange with registry := exchange.registry.record event }

def addContext (exchange : Exchange) (name : String) (codec : Codec) : Nat × Exchange :=
  let (context, heap) := Context.create exchange.heap name codec
  (exchange.contexts.size, { exchange with heap, contexts := exchange.contexts.push context })

def modifyContext (exchange : Exchange) (index : Nat) (change : Context → Context) : Exchange :=
  { exchange with contexts := exchange.contexts.modify index change }

/-- Changes the environments of a context, together with the heap, by a step with an answer. -/
def updateEnvironments (exchange : Exchange) (index : Nat)
    (step : Environments → Heap → Ref × Environments × Heap) : Option Ref × Exchange :=
  match exchange.contexts[index]? with
  | none => (none, exchange)
  | some context =>
      let (env, environments, heap) := step context.environments exchange.heap
      (some env, { exchange with heap }.modifyContext index fun old => { old with environments })

def attach (exchange : Exchange) (index : Nat) (name : String) : Option Ref × Exchange :=
  exchange.updateEnvironments index fun environments heap => environments.attach heap name

def loadNamespace (exchange : Exchange) (index : Nat) (name : String) : Option Ref × Exchange :=
  exchange.updateEnvironments index fun environments heap => environments.loadNamespace heap name

def setInterrupt (exchange : Exchange) (index : Nat) (interrupt : Interrupt QueueId) : Exchange :=
  exchange.modifyContext index fun context => { context with interrupt }

def isInterrupted (exchange : Exchange) (index : Nat) : Bool :=
  (exchange.contexts[index]?.map fun context => context.interrupt.raised).getD false

/-- Raises the interrupt flag of a context and answers which queues have to be woken. -/
def interrupt (exchange : Exchange) (index : Nat) : List QueueId × Exchange :=
  match exchange.contexts[index]? with
  | none => ([], exchange)
  | some context =>
      let (targets, interrupt) := context.interrupt.raise
      (targets, exchange.setInterrupt index interrupt)

/-- Takes the interrupt flag of a context down and says whether it was raised. -/
def clearInterrupt (exchange : Exchange) (index : Nat) : Bool × Exchange :=
  match exchange.contexts[index]? with
  | none => (false, exchange)
  | some context =>
      let (wasRaised, interrupt) := context.interrupt.clear
      (wasRaised, exchange.setInterrupt index interrupt)

def queue? (exchange : Exchange) (id : QueueId) : Option (Slot Message) :=
  exchange.channels[id.channel]?.map fun channel => channel.queue id.toward

def setQueue (exchange : Exchange) (id : QueueId) (slot : Slot Message) : Exchange :=
  { exchange with
    channels := exchange.channels.modify id.channel fun channel =>
      channel.setQueue id.toward slot }

/-- The place of the open channel behind a handle. -/
def channel? (exchange : Exchange) (handle : Handle) : Except ChannelError Nat :=
  match exchange.registry.table.channel? handle.slot with
  | some channel => .ok channel
  | none => .error (.notFound (.handle handle.toRaw))

/-- Opens a channel under a key; the answer is the handle of its master. There is none when the
capacity of the table overflows: the thread that called is ended, and nothing has changed. -/
def create (exchange : Exchange) (key : Int) : Option (Except ChannelError Handle) × Exchange :=
  let registry := exchange.registry
  let channel := exchange.channels.size
  match registry.table.open? registry.config.growFactor key channel with
  | none => (none, exchange)
  | some (.error err) => (some (.error err), exchange.record (Event.ofKey .create key none))
  | some (.ok (slot, table)) =>
      let handle : Handle := { slot, side := .master }
      let opened := { exchange with
        channels := exchange.channels.push (Channel.opened slot key)
        registry := { registry with table } }
      (some (.ok handle), opened.record (Event.ofKey .create key (some handle.toRaw)))

def get (exchange : Exchange) (key : Int) : Except ChannelError Handle × Exchange :=
  match if 0 < key then exchange.registry.table.slotOf? key else none with
  | some slot =>
      let handle : Handle := { slot, side := .worker }
      (.ok handle, exchange.record (Event.ofKey .get key (some handle.toRaw)))
  | none =>
      (.error (.notFound (.key key)), exchange.record (Event.ofKey .get key none))

/-- Takes the channel behind a handle of either side out of the table, where no handle finds it
any more. There is no channel left to take when the slot's last one was closed before. -/
def withdraw (exchange : Exchange) (handle : Handle) :
    Except ChannelError (Option Nat) × Exchange :=
  match exchange.registry.table.close? handle.slot with
  | none =>
      (.error (.notFound (.handle handle.toRaw)),
        exchange.record (Event.ofHandle .close handle.toRaw none false))
  | some (channel, table) =>
      (.ok channel, { exchange with registry := { exchange.registry with table } })

def closeQueue (exchange : Exchange) (id : QueueId) : Exchange :=
  { exchange with
    channels := exchange.channels.modify id.channel fun channel => channel.closeQueue id.toward }

def recordClose (exchange : Exchange) (handle : Handle) : Exchange :=
  exchange.record (Event.ofHandle .close handle.toRaw none true)

/-- Closes the channel behind a handle of either side: its entry in the table, then the queue to
its worker, then the one to its master. Closing it again succeeds as long as its slot has
not been used for another channel. -/
def close (exchange : Exchange) (handle : Handle) : Except ChannelError Unit × Exchange :=
  match exchange.withdraw handle with
  | (.error err, failed) => (.error err, failed)
  | (.ok none, withdrawn) => (.ok (), withdrawn.recordClose handle)
  | (.ok (some channel), withdrawn) =>
      let halfClosed := withdrawn.closeQueue { channel, toward := .worker }
      let closed := halfClosed.closeQueue { channel, toward := .master }
      (.ok (), closed.recordClose handle)

def register (exchange : Exchange) (context : Nat) (handle : Handle) (queue : QueueId)
    (job : Job Message) : Underway × Exchange :=
  match exchange.contexts[context]? with
  | none => ({ context, handle, queue, token := 0, job }, exchange)
  | some owner =>
      let (token, interrupt) := owner.interrupt.register queue
      ({ context, handle, queue, token, job }, exchange.setInterrupt context interrupt)

def failSend (exchange : Exchange) (handle : Handle) (err : ChannelError) :
    Except ChannelError Underway × Exchange :=
  (.error err, exchange.record (Event.ofHandle .send handle.toRaw none false))

/-- Converts the value of a send on a queue that was found for its handle. -/
def convertSend (exchange : Exchange) (context : Nat) (handle : Handle) (queue : QueueId)
    (value : Ref) : Except ChannelError Underway × Exchange :=
  match exchange.contexts[context]? with
  | none => exchange.failSend handle (.notFound (.handle handle.toRaw))
  | some owner =>
      match Message.ofValue owner exchange.heap value with
      | (.error err, heap) => { exchange with heap }.failSend handle err
      | (.ok message, heap) =>
          let (underway, started) :=
            { exchange with heap }.register context handle queue (.deposit message)
          (.ok underway, started)

/-- Starts a send: finds the channel, then converts the value. A value is not looked at for a
handle without an open channel. -/
def startSend (exchange : Exchange) (context : Nat) (handle : Handle) (value : Ref) :
    Except ChannelError Underway × Exchange :=
  match exchange.channel? handle with
  | .error err => exchange.failSend handle err
  | .ok channel =>
      exchange.convertSend context handle { channel, toward := handle.side.other } value

/-- Starts a receive: finds the channel. -/
def startReceive (exchange : Exchange) (context : Nat) (handle : Handle) :
    Except ChannelError Underway × Exchange :=
  match exchange.channel? handle with
  | .error err =>
      (.error err, exchange.record (Event.ofHandle .receive handle.toRaw none false))
  | .ok channel =>
      let (underway, started) :=
        exchange.register context handle { channel, toward := handle.side } .take
      (.ok underway, started)

/-- Builds the value of a message that was taken off a queue. -/
def finishTake (exchange : Exchange) (context : Nat) (handle : Handle) (operation : Operation)
    (message : Message) : Outcome × Exchange :=
  let event (ok : Bool) : Event :=
    Event.ofHandle operation handle.toRaw (some message.form) ok
  match exchange.contexts[context]? with
  | none => (.error (.notFound (.handle handle.toRaw)), exchange.record (event false))
  | some owner =>
      match message.toValue owner exchange.heap with
      | (.ok value, heap) => (.ok (some value), { exchange with heap }.record (event true))
      | (.error err, heap) => (.error err, { exchange with heap }.record (event false))

/-- Completes an operation whose wait has ended. -/
def finish (exchange : Exchange) (underway : Underway)
    (outcome : Except WaitError (Option Message)) : Outcome × Exchange :=
  let handle := underway.handle
  match underway.job, outcome with
  | .deposit message, .ok _ =>
      let event := Event.ofHandle .send handle.toRaw (some message.form) true
      (.ok none, exchange.record event)
  | .deposit _, .error err =>
      let event := Event.ofHandle .send handle.toRaw none false
      (.error (err.toChannelError .send handle), exchange.record event)
  | .take, .ok (some message) =>
      exchange.finishTake underway.context handle .receive message
  | .take, .ok none =>
      let event := Event.ofHandle .receive handle.toRaw none true
      (.error (.transfer (.described "receive produced no message")), exchange.record event)
  | .take, .error err =>
      let event := Event.ofHandle .receive handle.toRaw none false
      (.error (err.toChannelError .receive handle), exchange.record event)

/-- Attempts an operation once. There is no outcome as long as it has to sleep. -/
def attempt (exchange : Exchange) (underway : Underway) : Option Outcome × Exchange :=
  match exchange.queue? underway.queue, exchange.contexts[underway.context]? with
  | some slot, some context =>
      let attempt := slot.attempt underway.job context.interrupt.raised
      match attempt.outcome with
      | none => (none, exchange)
      | some outcome =>
          let interrupt := { context.interrupt with raised := attempt.raised }
          let left := (exchange.setQueue underway.queue attempt.slot).setInterrupt
            underway.context (interrupt.release underway.token)
          let (result, finished) := left.finish underway outcome
          (some result, finished)
  | _, _ => (none, exchange)

def failPoll (exchange : Exchange) (handle : Handle) (err : ChannelError) : Outcome × Exchange :=
  (.error err, exchange.record (Event.ofHandle .poll handle.toRaw none false))

/-- Takes the next message of a queue that was found for a handle, if there is one. -/
def pollQueue (exchange : Exchange) (context : Nat) (handle : Handle) (queue : QueueId) :
    Outcome × Exchange :=
  match exchange.queue? queue with
  | none => exchange.failPoll handle (.notFound (.handle handle.toRaw))
  | some slot =>
      match slot.poll with
      | (.error err, _) => exchange.failPoll handle (err.toChannelError .poll handle)
      | (.ok none, _) =>
          (.ok none, exchange.record (Event.ofHandle .poll handle.toRaw none true))
      | (.ok (some message), emptied) =>
          (exchange.setQueue queue emptied).finishTake context handle .poll message

/-- Takes the next message of a side if there is one, without sleeping. -/
def poll (exchange : Exchange) (context : Nat) (handle : Handle) : Outcome × Exchange :=
  match exchange.channel? handle with
  | .error err => exchange.failPoll handle err
  | .ok channel => exchange.pollQueue context handle { channel, toward := handle.side }

def observe (exchange : Exchange) : Exchange :=
  { exchange with registry := { exchange.registry with log := some [] } }

/-- The events since the last look, the oldest first, and an exchange whose log starts anew. -/
def takeEvents (exchange : Exchange) : List Event × Exchange :=
  let registry := exchange.registry
  ((registry.log.getD []).reverse,
    { exchange with registry := { registry with log := registry.log.map fun _ => [] } })

end Exchange

end ValueChannels
