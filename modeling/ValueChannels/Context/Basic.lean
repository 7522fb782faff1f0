import ValueChannels.Context.Codec
import ValueChannels.Queue.Interrupt
import ValueChannels.Text.Quoted

/-!
Execution contexts. A context has its own environments, its own codec and its own
interrupt flag; the heap is common to all.
-/

namespace ValueChannels

/-- The two ends of a channel. Its creator is the master. -/
inductive Side where
  | master
  | worker
  deriving DecidableEq

def Side.other : Side → Side
  | .master => .worker
  | .worker => .master

/-- A queue: the channel it belongs to, and the side that its messages go to. -/
structure QueueId where
  channel : Nat
  toward : Side
  deriving DecidableEq

structure Context where
  name : String
  environments : Environments
  codec : Codec
  interrupt : Interrupt QueueId

namespace Context

def create (heap : Heap) (name : String) (codec : Codec) : Context × Heap :=
  let (environments, heap) := Environments.create heap
  ({ name, environments, codec, interrupt := Interrupt.idle }, heap)

def inspect (context : Context) : String :=
  Text.record "Context"
    [("name", Text.quoted context.name),
      ("packages", Text.bracketed (context.environments.packages.names.map Text.quoted)),
      ("namespaces", Text.bracketed (context.environments.namespaces.names.map Text.quoted))]

end Context

end ValueChannels
