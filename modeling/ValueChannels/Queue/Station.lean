import ValueChannels.Queue.Interrupt
import ValueChannels.Queue.Slot

/-!
One queue used by one context, with at most one operation asleep on it. Whatever changes
the queue or raises the flag wakes the sleeper, which then tries again.
-/

namespace ValueChannels

/-- An operation that has been started and could not be carried out yet. -/
structure Sleeper (α : Type) where
  ticket : Nat
  token : Nat
  job : Job α

structure Station (α : Type) where
  slot : Slot α
  interrupt : Interrupt Unit
  sleeper : Option (Sleeper α)

namespace Station

variable {α : Type}

def vacant : Station α :=
  { slot := Slot.empty, interrupt := Interrupt.idle, sleeper := none }

def wouldSleep (station : Station α) (job : Job α) : Bool :=
  (station.slot.attempt job station.interrupt.raised).outcome.isNone

def isTaken (station : Station α) (job : Job α) : Bool :=
  station.wouldSleep job && station.sleeper.isSome

/-- Runs one critical section of a registered operation; when that ends the operation, its
registration is removed. -/
def run (station : Station α) (token : Nat) (job : Job α) :
    Option (Except WaitError (Option α)) × Station α :=
  let attempt := station.slot.attempt job station.interrupt.raised
  let interrupt := { station.interrupt with raised := attempt.raised }
  match attempt.outcome with
  | none => (none, { station with slot := attempt.slot, interrupt })
  | some outcome =>
      (some outcome, { station with slot := attempt.slot, interrupt := interrupt.release token })

/-- Starts an operation, which goes to sleep under its ticket if it has to. -/
def start (station : Station α) (ticket : Nat) (job : Job α) :
    Option (Except WaitError (Option α)) × Station α :=
  let (token, interrupt) := station.interrupt.register ()
  match run { station with interrupt } token job with
  | (none, station) => (none, { station with sleeper := some { ticket, token, job } })
  | finished => finished

/-- Lets the sleeper try again and answers how it ended, if it did. -/
def wake (station : Station α) : Option (Nat × Except WaitError (Option α)) × Station α :=
  match station.sleeper with
  | none => (none, station)
  | some sleeper =>
      match station.run sleeper.token sleeper.job with
      | (none, station) => (none, station)
      | (some outcome, station) =>
          (some (sleeper.ticket, outcome), { station with sleeper := none })

def poll (station : Station α) : Except WaitError (Option α) × Station α :=
  let (outcome, slot) := station.slot.poll
  (outcome, { station with slot })

def close (station : Station α) : Station α :=
  { station with slot := station.slot.close }

def raise (station : Station α) : Station α :=
  { station with interrupt := station.interrupt.raise.2 }

def clear (station : Station α) : Bool × Station α :=
  let (wasRaised, interrupt) := station.interrupt.clear
  (wasRaised, { station with interrupt })

end Station

end ValueChannels
