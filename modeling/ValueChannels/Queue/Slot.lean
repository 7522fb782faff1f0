/-!
A queue for at most one item. Depositing waits while the queue is full and taking waits
while it is empty; closing drops the item and fails every operation from then on. Each
function is one critical section. Main statements: what a deposit and a removal leave.
-/

namespace ValueChannels

inductive WaitError where
  | closed
  | interrupted
  deriving DecidableEq, Repr

structure Slot (α : Type) where
  item : Option α
  closed : Bool
  deriving DecidableEq

inductive Job (α : Type) where
  | deposit (item : α)
  | take
  deriving DecidableEq

/-- What one critical section did: how the operation ended, if it did and does not have to sleep,
the queue, and whether the interrupt flag is still raised. -/
structure Attempt (α : Type) where
  outcome : Option (Except WaitError (Option α))
  slot : Slot α
  raised : Bool

namespace Slot

variable {α : Type}

def empty : Slot α :=
  { item := none, closed := false }

def isEmpty (slot : Slot α) : Bool :=
  slot.item.isNone

/-- Tries to carry out an operation. A closed queue comes first, then what the queue has to offer;
a raised interrupt flag is looked at, and taken down, only by an operation that would have to
sleep otherwise. -/
def attempt (slot : Slot α) (job : Job α) (raised : Bool) : Attempt α :=
  let sleep : Attempt α :=
    if raised then { outcome := some (.error .interrupted), slot, raised := false }
    else { outcome := none, slot, raised }
  if slot.closed then { outcome := some (.error .closed), slot, raised }
  else match job, slot.item with
    | .deposit item, none =>
        { outcome := some (.ok none), slot := { slot with item := some item }, raised }
    | .deposit _, some _ => sleep
    | .take, some item =>
        { outcome := some (.ok (some item)), slot := { slot with item := none }, raised }
    | .take, none => sleep

def poll (slot : Slot α) : Except WaitError (Option α) × Slot α :=
  if slot.closed then (.error .closed, slot) else (.ok slot.item, { slot with item := none })

def close (_ : Slot α) : Slot α :=
  { item := none, closed := true }

theorem attempt_deposit_empty (item : α) (raised : Bool) :
    (empty.attempt (.deposit item) raised).slot = { item := some item, closed := false } := rfl

theorem attempt_take_full (item : α) (raised : Bool) :
    (({ item := some item, closed := false } : Slot α).attempt .take raised).slot = empty := rfl

theorem attempt_closed {slot : Slot α} (closed : slot.closed = true) (job : Job α)
    (raised : Bool) :
    slot.attempt job raised = { outcome := some (.error .closed), slot, raised } := by
  simp [attempt, closed]

/-- An operation that goes to sleep leaves the queue and the flag alone. -/
theorem attempt_asleep {slot : Slot α} {job : Job α} {raised : Bool}
    (asleep : (slot.attempt job raised).outcome = none) :
    (slot.attempt job raised).slot = slot ∧ (slot.attempt job raised).raised = raised := by
  unfold attempt at asleep ⊢
  cases closed : slot.closed <;> cases job <;> cases held : slot.item <;> cases raised <;>
    simp_all

end Slot

end ValueChannels
