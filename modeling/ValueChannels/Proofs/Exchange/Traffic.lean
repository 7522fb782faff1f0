import ValueChannels.Proofs.Exchange.Queues

/-!
The traffic of an exchange: calls of any number of threads, interleaved between their sections.
A call begins by finding its channel and goes on, one section at a time, until it ends: a
send converts its value, a send or receive attempts its queue as often as it takes, a poll
looks at its queue once, and a close works through the queues of its channel. Between any two
sections of a call everything else may happen.
-/

namespace ValueChannels

/-- What is left to do of a call that has found its channel. -/
inductive Errand where
  /-- A send that has not converted its value yet. -/
  | convert (context : Nat) (handle : Handle) (queue : QueueId) (value : Ref)
  | wait (operation : Underway)
  | poll (context : Nat) (handle : Handle) (queue : QueueId)
  /-- A close that has taken the channel out of the table; these of its queues are still open. -/
  | close (handle : Handle) (channel : Nat) (sides : List Side)

namespace Errand

def handle : Errand → Handle
  | .convert _ handle _ _ => handle
  | .wait operation => operation.handle
  | .poll _ handle _ => handle
  | .close handle _ _ => handle

/-- The queue that the next section is about. -/
def queue? : Errand → Option QueueId
  | .convert _ _ queue _ => some queue
  | .wait operation => some operation.queue
  | .poll _ _ queue => some queue
  | .close _ channel (side :: _) => some { channel, toward := side }
  | .close _ _ [] => none

def Sends : Errand → Prop
  | .convert _ _ _ _ => True
  | .wait { job := .deposit _, .. } => True
  | _ => False

def Takes : Errand → Prop
  | .wait { job := .take, .. } => True
  | .poll _ _ _ => True
  | _ => False

/-- A send works on the queue toward the other side of its handle, a receive or poll on the one
toward its own side. -/
def Across : Errand → Prop
  | .convert _ handle queue _ => queue.toward = handle.side.other
  | .wait { handle, queue, job := .deposit _, .. } => queue.toward = handle.side.other
  | .wait { handle, queue, job := .take, .. } => queue.toward = handle.side
  | .poll _ handle queue => queue.toward = handle.side
  | .close _ _ _ => True

end Errand

/-- A call that has ended: its number, what its last section was to do, the message that this
section took off the queue, and how the call ended. -/
structure Completion where
  call : Nat
  errand : Errand
  taken : Option Message
  outcome : Outcome

namespace Completion

/-- The message that a send which succeeded put into a queue. -/
def depositedOn (completion : Completion) (queue : QueueId) : List Message :=
  match completion.errand, completion.outcome with
  | .wait { queue := place, job := .deposit message, .. }, .ok _ =>
      if place = queue then [message] else []
  | _, _ => []

/-- The message that a receive or poll took off a queue. -/
def takenFrom (completion : Completion) (queue : QueueId) : List Message :=
  if completion.errand.queue? = some queue then completion.taken.toList else []

end Completion

/-- The message that waits in a queue. -/
def Exchange.inFlight (exchange : Exchange) (queue : QueueId) : List Message :=
  ((exchange.queue? queue).bind Slot.item).toList

/-- An exchange, the calls that have begun on it by number, with nothing left of those that ended,
the calls that ended, in order, and the messages that closing discarded. -/
structure Traffic where
  exchange : Exchange
  calls : List (Option Errand)
  completions : List Completion
  discards : List (QueueId × Message)

/-- What may happen next. -/
inductive Move where
  | send (context : Nat) (handle : Handle) (value : Ref)
  | receive (context : Nat) (handle : Handle)
  | poll (context : Nat) (handle : Handle)
  | close (handle : Handle)
  /-- A call that has begun goes through its next section. -/
  | proceed (call : Nat)
  | create (key : Int)
  | get (key : Int)
  | interrupt (context : Nat)
  | clear (context : Nat)
  | addContext (name : String) (codec : Codec)
  /-- Whatever else the threads do to the heap and to their contexts. -/
  | elsewhere (heap : Heap) (change : Context → Context)

namespace Traffic

/-- The traffic of a new registry, before anything has happened. -/
def initial (config : RegistryConfig) : Traffic :=
  { exchange := Exchange.initial (Registry.ofConfig config)
    calls := [], completions := [], discards := [] }

def withExchange (traffic : Traffic) (exchange : Exchange) : Traffic :=
  { traffic with exchange }

/-- One more call is under way. -/
def enter (traffic : Traffic) (errand : Errand) (exchange : Exchange) : Traffic :=
  { traffic with exchange, calls := traffic.calls ++ [some errand] }

/-- A call goes on with another errand. -/
def resume (traffic : Traffic) (call : Nat) (errand : Errand) (exchange : Exchange) : Traffic :=
  { traffic with exchange, calls := traffic.calls.set call (some errand) }

/-- A call that has ended in the given exchange. -/
def complete (traffic : Traffic) (completion : Completion) (exchange : Exchange) : Traffic :=
  { traffic with
    exchange
    calls := traffic.calls.set completion.call none
    completions := traffic.completions ++ [completion] }

/-- The next section of a call. -/
def advance (traffic : Traffic) (call : Nat) (errand : Errand) : Traffic :=
  let exchange := traffic.exchange
  match errand with
  | .convert context handle queue value =>
      match exchange.convertSend context handle queue value with
      | (.error err, left) =>
          traffic.complete { call, errand, taken := none, outcome := .error err } left
      | (.ok operation, left) => traffic.resume call (.wait operation) left
  | .wait operation =>
      match exchange.attempt operation with
      | (none, asleep) => traffic.withExchange asleep
      | (some outcome, left) =>
          traffic.complete { call, errand, taken := exchange.taken? operation, outcome } left
  | .poll context handle queue =>
      let (outcome, left) := exchange.pollQueue context handle queue
      traffic.complete { call, errand, taken := exchange.polled? queue, outcome } left
  | .close handle channel (side :: sides) =>
      let queue : QueueId := { channel, toward := side }
      { traffic.resume call (.close handle channel sides) (exchange.closeQueue queue) with
        discards := traffic.discards ++ (exchange.inFlight queue).map (Prod.mk queue) }
  | .close handle _ [] =>
      traffic.complete { call, errand, taken := none, outcome := .ok none }
        (exchange.recordClose handle)

/-- The errand of a call that has begun and has not ended. -/
def errand? (traffic : Traffic) (call : Nat) : Option Errand :=
  (traffic.calls[call]?).join

/-- The state after a move. A call that does not exist cannot proceed. -/
def step (traffic : Traffic) (move : Move) : Traffic :=
  let exchange := traffic.exchange
  match move with
  | .send context handle value =>
      match exchange.channel? handle with
      | .error err => traffic.withExchange (exchange.failSend handle err).2
      | .ok channel =>
          let queue : QueueId := { channel, toward := handle.side.other }
          traffic.enter (.convert context handle queue value) exchange
  | .receive context handle =>
      match exchange.startReceive context handle with
      | (.error _, failed) => traffic.withExchange failed
      | (.ok operation, started) => traffic.enter (.wait operation) started
  | .poll context handle =>
      match exchange.channel? handle with
      | .error err => traffic.withExchange (exchange.failPoll handle err).2
      | .ok channel =>
          traffic.enter (.poll context handle { channel, toward := handle.side }) exchange
  | .close handle =>
      match exchange.withdraw handle with
      | (.error _, failed) => traffic.withExchange failed
      | (.ok none, withdrawn) => traffic.withExchange (withdrawn.recordClose handle)
      | (.ok (some channel), withdrawn) =>
          traffic.enter (.close handle channel [.worker, .master]) withdrawn
  | .proceed call =>
      match traffic.errand? call with
      | some errand => traffic.advance call errand
      | none => traffic
  | .create key => traffic.withExchange (exchange.create key).2
  | .get key => traffic.withExchange (exchange.get key).2
  | .interrupt context => traffic.withExchange (exchange.interrupt context).2
  | .clear context => traffic.withExchange (exchange.clearInterrupt context).2
  | .addContext name codec => traffic.withExchange (exchange.addContext name codec).2
  | .elsewhere heap change =>
      traffic.withExchange { exchange with heap, contexts := exchange.contexts.map change }

def run (traffic : Traffic) (moves : List Move) : Traffic :=
  moves.foldl step traffic

/-- The messages of the sends on a queue that succeeded, in order. -/
def deposited (traffic : Traffic) (queue : QueueId) : List Message :=
  traffic.completions.flatMap fun completion => completion.depositedOn queue

/-- The messages that receives and polls took off a queue, in order. -/
def taken (traffic : Traffic) (queue : QueueId) : List Message :=
  traffic.completions.flatMap fun completion => completion.takenFrom queue

/-- The messages that closing a queue discarded. -/
def discarded (traffic : Traffic) (queue : QueueId) : List Message :=
  traffic.discards.flatMap fun (place, message) => if place = queue then [message] else []

/-- The queue that a move works on. -/
def target? (traffic : Traffic) : Move → Option QueueId
  | .proceed call => (traffic.errand? call).bind Errand.queue?
  | _ => none

end Traffic

end ValueChannels
