import Mathlib.Logic.Function.Basic
import Mathlib.Logic.Relation
import ValueChannels.Queue.Interrupt
import ValueChannels.Queue.Slot

/-!
Threads that wait. Any number of threads work on any number of queues for any number of contexts. A
thread registers with the interrupt of its context, looks at its queue, goes to sleep if it has to,
looks again whenever it was woken, and takes its registration back when its operation has ended.
Every critical section of a queue is one step, from looking at it to falling asleep; whoever raises
the flag of a context first raises it, then looks up the registrations, and then wakes the queues
it found one by one.
-/

set_option linter.unusedSectionVars false

namespace ValueChannels

/-- Whether an operation wants to put something into its queue. -/
def Job.deposits {α : Type} : Job α → Bool
  | .deposit _ => true
  | .take => false

/-- An operation on a queue, registered under its token with the interrupt of its context. -/
structure Wait (Context Place α : Type) where
  context : Context
  place : Place
  token : Nat
  job : Job α

/-- How far a thread has come with its operation. -/
inductive Phase (Context Place α : Type) where
  | idle
  /-- Registered, and about to look at the queue for the first time. -/
  | entering (wait : Wait Context Place α)
  | asleep (wait : Wait Context Place α)
  /-- Woken, and about to look at the queue again. -/
  | woken (wait : Wait Context Place α)
  /-- Done with the queue, and about to take the registration back. -/
  | leaving (wait : Wait Context Place α) (outcome : Except WaitError (Option α))

/-- Someone who raises the flag of a context: the queues that are still to be woken, once the
registrations have been looked up. -/
structure Alarm (Context Place : Type) where
  context : Context
  targets : Option (List Place)

structure Hall (Thread Context Place α : Type) where
  slots : Place → Slot α
  interrupts : Context → Interrupt Place
  threads : Thread → Phase Context Place α
  alarms : List (Alarm Context Place)

namespace Phase

variable {Context Place α : Type}

/-- The operation of a thread that is registered. -/
def wait? : Phase Context Place α → Option (Wait Context Place α)
  | .idle => none
  | .entering wait | .asleep wait | .woken wait | .leaving wait _ => some wait

/-- The phase after everyone asleep on a queue was woken. -/
def wokenAt [DecidableEq Place] (place : Place) : Phase Context Place α → Phase Context Place α
  | .asleep wait => if wait.place = place then .woken wait else .asleep wait
  | phase => phase

end Phase

namespace Hall

variable {Thread Context Place α : Type}
variable [DecidableEq Thread] [DecidableEq Context] [DecidableEq Place]

def initial : Hall Thread Context Place α :=
  { slots := fun _ => Slot.empty
    interrupts := fun _ => Interrupt.idle
    threads := fun _ => .idle
    alarms := [] }

def setSlot (hall : Hall Thread Context Place α) (place : Place) (slot : Slot α) :
    Hall Thread Context Place α :=
  { hall with slots := Function.update hall.slots place slot }

def setInterrupt (hall : Hall Thread Context Place α) (context : Context)
    (interrupt : Interrupt Place) : Hall Thread Context Place α :=
  { hall with interrupts := Function.update hall.interrupts context interrupt }

def setPhase (hall : Hall Thread Context Place α) (thread : Thread)
    (phase : Phase Context Place α) : Hall Thread Context Place α :=
  { hall with threads := Function.update hall.threads thread phase }

/-- Wakes everyone who sleeps on a queue. -/
def wakeAll (hall : Hall Thread Context Place α) (place : Place) : Hall Thread Context Place α :=
  { hall with threads := fun thread => (hall.threads thread).wokenAt place }

section Updates

variable (hall : Hall Thread Context Place α)

theorem setSlot_interrupts (place : Place) (slot : Slot α) :
    (hall.setSlot place slot).interrupts = hall.interrupts := rfl

theorem setPhase_interrupts (thread : Thread) (phase : Phase Context Place α) :
    (hall.setPhase thread phase).interrupts = hall.interrupts := rfl

theorem wakeAll_slots (place : Place) : (hall.wakeAll place).slots = hall.slots := rfl

theorem setSlot_slots (place other : Place) (slot : Slot α) :
    (hall.setSlot place slot).slots other = if other = place then slot else hall.slots other :=
  Function.update_apply hall.slots place slot other

theorem setInterrupt_interrupts (context other : Context) (interrupt : Interrupt Place) :
    (hall.setInterrupt context interrupt).interrupts other =
      if other = context then interrupt else hall.interrupts other :=
  Function.update_apply hall.interrupts context interrupt other

theorem setPhase_threads (thread other : Thread) (phase : Phase Context Place α) :
    (hall.setPhase thread phase).threads other =
      if other = thread then phase else hall.threads other :=
  Function.update_apply hall.threads thread phase other

end Updates

/-- One of those who sleep on a queue to deposit, or else to take, has been woken, no matter which;
nobody has if nobody sleeps there for that. -/
inductive Notified (place : Place) (deposits : Bool) :
    Hall Thread Context Place α → Hall Thread Context Place α → Prop
  | one {hall : Hall Thread Context Place α} (thread : Thread) (wait : Wait Context Place α)
      (asleep : hall.threads thread = .asleep wait) (there : wait.place = place)
      (wants : wait.job.deposits = deposits) :
      Notified place deposits hall (hall.setPhase thread (.woken wait))
  | nobody {hall : Hall Thread Context Place α}
      (none : ∀ thread wait, hall.threads thread = .asleep wait → wait.place = place →
        wait.job.deposits ≠ deposits) :
      Notified place deposits hall hall

/-- A thread that is about to look at its queue. -/
def Ready (hall : Hall Thread Context Place α) (thread : Thread) (wait : Wait Context Place α) :
    Prop :=
  hall.threads thread = .entering wait ∨ hall.threads thread = .woken wait

/-- What an operation does when it looks at its queue. -/
def attempt (hall : Hall Thread Context Place α) (wait : Wait Context Place α) : Attempt α :=
  (hall.slots wait.place).attempt wait.job (hall.interrupts wait.context).raised

/-- The hall after a thread has looked at its queue and come to another phase by that. -/
def attempted (hall : Hall Thread Context Place α) (thread : Thread)
    (wait : Wait Context Place α) (phase : Phase Context Place α) : Hall Thread Context Place α :=
  let attempt := hall.attempt wait
  let interrupt := { hall.interrupts wait.context with raised := attempt.raised }
  ((hall.setSlot wait.place attempt.slot).setInterrupt wait.context interrupt).setPhase thread phase

/-- What may happen next. -/
inductive Step : Hall Thread Context Place α → Hall Thread Context Place α → Prop
  /-- A thread begins an operation by registering it. -/
  | enter {hall : Hall Thread Context Place α} (thread : Thread) (context : Context)
      (place : Place) (job : Job α) (idle : hall.threads thread = .idle) :
      Step hall
        ((hall.setInterrupt context ((hall.interrupts context).register place).2).setPhase thread
          (.entering
            { context, place, token := ((hall.interrupts context).register place).1, job }))
  | sleep {hall : Hall Thread Context Place α} (thread : Thread) (wait : Wait Context Place α)
      (ready : hall.Ready thread wait) (ended : (hall.attempt wait).outcome = none) :
      Step hall (hall.attempted thread wait (.asleep wait))
  | fail {hall : Hall Thread Context Place α} (thread : Thread) (wait : Wait Context Place α)
      (err : WaitError) (ready : hall.Ready thread wait)
      (ended : (hall.attempt wait).outcome = some (.error err)) :
      Step hall (hall.attempted thread wait (.leaving wait (.error err)))
  /-- An operation that succeeds notifies one of those who wait for that. -/
  | succeed {hall after : Hall Thread Context Place α} (thread : Thread)
      (wait : Wait Context Place α) (item : Option α) (ready : hall.Ready thread wait)
      (ended : (hall.attempt wait).outcome = some (.ok item))
      (notified : Notified wait.place (!wait.job.deposits)
        (hall.attempted thread wait (.leaving wait (.ok item))) after) : Step hall after
  | leave {hall : Hall Thread Context Place α} (thread : Thread) (wait : Wait Context Place α)
      (outcome : Except WaitError (Option α)) (leaving : hall.threads thread = .leaving wait outcome) :
      Step hall
        ((hall.setInterrupt wait.context
          ((hall.interrupts wait.context).release wait.token)).setPhase thread .idle)
  /-- A poll that finds something; any other changes nothing. -/
  | poll {hall after : Hall Thread Context Place α} (place : Place) (item : α) (emptied : Slot α)
      (polled : (hall.slots place).poll = (.ok (some item), emptied))
      (notified : Notified place true (hall.setSlot place emptied) after) : Step hall after
  | close {hall : Hall Thread Context Place α} (place : Place) :
      Step hall ((hall.setSlot place (hall.slots place).close).wakeAll place)
  | raise {hall : Hall Thread Context Place α} (context : Context) :
      Step hall
        { hall.setInterrupt context (hall.interrupts context).raise.2 with
          alarms := hall.alarms ++ [{ context, targets := none }] }
  | lookUp {hall : Hall Thread Context Place α} (context : Context)
      (front behind : List (Alarm Context Place))
      (under : hall.alarms = front ++ { context, targets := none } :: behind) :
      Step hall
        { hall with
          alarms := front ++
            { context, targets := some (hall.interrupts context).raise.1 } :: behind }
  | wake {hall : Hall Thread Context Place α} (context : Context) (place : Place)
      (rest : List Place) (front behind : List (Alarm Context Place))
      (under : hall.alarms = front ++ { context, targets := some (place :: rest) } :: behind) :
      Step hall
        { hall.wakeAll place with
          alarms := front ++ { context, targets := some rest } :: behind }
  | finish {hall : Hall Thread Context Place α} (context : Context)
      (front behind : List (Alarm Context Place))
      (under : hall.alarms = front ++ { context, targets := some [] } :: behind) :
      Step hall { hall with alarms := front ++ behind }
  | clear {hall : Hall Thread Context Place α} (context : Context) :
      Step hall (hall.setInterrupt context (hall.interrupts context).clear.2)

/-- The halls that any number of steps lead to. -/
def Reachable (hall : Hall Thread Context Place α) : Prop :=
  Relation.ReflTransGen Step initial hall

/-- The queues that someone who raises a flag has yet to wake: as long as the registrations have not
been looked up, all that are registered. -/
def pending (hall : Hall Thread Context Place α) (alarm : Alarm Context Place) : List Place :=
  alarm.targets.getD (hall.interrupts alarm.context).raise.1

end Hall

end ValueChannels
