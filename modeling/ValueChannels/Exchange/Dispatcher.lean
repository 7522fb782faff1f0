import ValueChannels.Exchange.Basic

/-!
An exchange with operations asleep in it. An operation that cannot end at its first attempt
stays with the dispatcher under a ticket, and is attempted again whenever it is woken.
-/

namespace ValueChannels

structure Dispatcher where
  exchange : Exchange
  /-- The sleeping operations in the order in which they were started. -/
  sleepers : List (Nat × Underway)

/-- The two operations that may have to sleep. -/
inductive WaitKind where
  | send
  | receive
  deriving DecidableEq

/-- The queue that an operation would sleep on if it were started now. -/
def Exchange.sleepQueue? (exchange : Exchange) (context : Nat) (handle : Handle)
    (kind : WaitKind) : Option QueueId :=
  match exchange.channel? handle with
  | .error _ => none
  | .ok channel =>
      let queue : QueueId := match kind with
        | .send => { channel, toward := handle.side.other }
        | .receive => { channel, toward := handle.side }
      let blocked (slot : Slot Message) : Bool := match kind with
        | .send => !slot.closed && !slot.isEmpty
        | .receive => !slot.closed && slot.isEmpty
      match exchange.queue? queue with
      | some slot =>
          if blocked slot && !exchange.isInterrupted context then some queue else none
      | none => none

namespace Dispatcher

def ofExchange (exchange : Exchange) : Dispatcher :=
  { exchange, sleepers := [] }

def sleepsOn (dispatcher : Dispatcher) (queue : QueueId) : Bool :=
  dispatcher.sleepers.any fun sleeper => sleeper.2.queue == queue

/-- Whether an operation would have to sleep on a queue that another one sleeps on already. -/
def isTaken (dispatcher : Dispatcher) (context : Nat) (handle : Handle) (kind : WaitKind) :
    Bool :=
  match dispatcher.exchange.sleepQueue? context handle kind with
  | some queue => dispatcher.sleepsOn queue
  | none => false

def sleepersOf (dispatcher : Dispatcher) (context : Nat) : Nat :=
  dispatcher.sleepers.countP fun sleeper => sleeper.2.context == context

/-- Attempts a started operation, and puts it to sleep under its ticket if it has to wait. -/
def submit (dispatcher : Dispatcher) (ticket : Nat) (underway : Underway) :
    Option Outcome × Dispatcher :=
  match dispatcher.exchange.attempt underway with
  | (some outcome, exchange) => (some outcome, { dispatcher with exchange })
  | (none, exchange) =>
      (none, { exchange, sleepers := dispatcher.sleepers ++ [(ticket, underway)] })

/-- Attempts sleeping operations once in order; the answer is how the ended ones ended, and which
go on sleeping. -/
def attemptAll (exchange : Exchange) :
    List (Nat × Underway) → List (Nat × Outcome) × List (Nat × Underway) × Exchange
  | [] => ([], [], exchange)
  | (ticket, underway) :: rest =>
      match exchange.attempt underway with
      | (some outcome, exchange) =>
          let (ended, asleep, exchange) := attemptAll exchange rest
          ((ticket, outcome) :: ended, asleep, exchange)
      | (none, exchange) =>
          let (ended, asleep, exchange) := attemptAll exchange rest
          (ended, (ticket, underway) :: asleep, exchange)

def wake (dispatcher : Dispatcher) : List (Nat × Outcome) × Dispatcher :=
  let (ended, sleepers, exchange) := attemptAll dispatcher.exchange dispatcher.sleepers
  (ended, { exchange, sleepers })

end Dispatcher

end ValueChannels
