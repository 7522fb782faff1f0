import ValueChannels.Value.Heap

/-!
Rebuilding values. Both readers of values, of nodes and of messages, work on a heap and know the
local environments that they have rebuilt by their numbers.
-/

namespace ValueChannels

/-- The heap that values are built in, and the environments built so far, the latest first. -/
structure Rebuild where
  heap : Heap
  environments : List (UInt32 × Ref)

abbrev Rebuilding (ε : Type) := EStateM ε Rebuild

namespace Rebuilding

variable {ε α : Type}

/-- Runs a step on the heap alone. -/
def onHeap (step : Heap → α × Heap) : Rebuilding ε α :=
  modifyGet fun state =>
    let (result, heap) := step state.heap
    (result, { state with heap })

@[simp] theorem onHeap_eq (step : Heap → α × Heap) (state : Rebuild) :
    (onHeap step : Rebuilding ε α) state =
      .ok (step state.heap).1 { state with heap := (step state.heap).2 } :=
  rfl

def alloc (body : Body) : Rebuilding ε Ref :=
  onHeap fun heap => heap.alloc body

def changeHeap (change : Heap → Heap) : Rebuilding ε Unit :=
  onHeap fun heap => ((), change heap)

/-- Makes the environment of a number known. -/
def register (id : UInt32) (env : Ref) : Rebuilding ε Unit :=
  modify fun state => { state with environments := (id, env) :: state.environments }

def resolve (unknown : UInt32 → ε) (id : UInt32) : Rebuilding ε Ref := do
  match (← get).environments.lookup id with
  | some env => pure env
  | none => throw (unknown id)

end Rebuilding

end ValueChannels
