import ValueChannels.Value.Object

/-!
Nodes are values written out as trees. A local environment is written where it is first
met, under a number, and by that number from then on; every other environment is written
as its kind. Attributes stand beside the item they belong to.
-/

namespace ValueChannels

mutual

inductive Node where
  | mk (item : NodeItem) (attributes : List (String × Node))

inductive NodeItem where
  | null
  | unbound
  | vector (data : AtomicVector)
  | list (items : List Node)
  | environment (id : UInt32) (bindings : List (String × Node)) (parent : Option Node)
  | environmentRef (id : UInt32)
  | named (kind : EnvironmentKind)
  | promise (expr : Expr) (env : Option Node) (value : Option Node)
  | closure (formals : List String) (body : Expr) (env : Node)
  | language (expr : Expr)
  | connection (connection : Connection)

end

namespace Node

def item : Node → NodeItem
  | .mk item _ => item

def attributes : Node → List (String × Node)
  | .mk _ attributes => attributes

def bare (item : NodeItem) : Node :=
  .mk item []

end Node

end ValueChannels
