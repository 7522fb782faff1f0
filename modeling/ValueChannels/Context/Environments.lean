import ValueChannels.Value.Heap

/-!
The environments that a context owns. The global environment sees the attached packages,
the latest first, then base, then the empty environment; every namespace sees the base
namespace, which in turn sees the global environment.
-/

namespace ValueChannels

/-- The non-local environments of one context. -/
structure Environments where
  empty : Ref
  base : Ref
  baseNamespace : Ref
  global : Ref
  packages : Mapping Ref
  namespaces : Mapping Ref
  deriving Inhabited

namespace Environments

def create (heap : Heap) : Environments × Heap :=
  let (empty, heap) := heap.allocEnvironment .empty none
  let (base, heap) := heap.allocEnvironment .base (some empty)
  let (global, heap) := heap.allocEnvironment .global (some base)
  let (baseNamespace, heap) := heap.allocEnvironment .baseNamespace (some global)
  ({ empty, base, baseNamespace, global
     packages := Mapping.empty, namespaces := Mapping.empty }, heap)

/-- The environment of the given kind, where the context has one. -/
def find? (environments : Environments) : EnvironmentKind → Option Ref
  | .empty => some environments.empty
  | .base => some environments.base
  | .baseNamespace => some environments.baseNamespace
  | .global => some environments.global
  | .packageEnv name => environments.packages.get? name
  | .namespaceEnv name => environments.namespaces.get? name
  | .localEnv => none

/-- The environment of a package. A new one is put between the global environment and whatever
enclosed that before; a known one is left where it is. -/
def attach (environments : Environments) (heap : Heap) (name : String) :
    Ref × Environments × Heap :=
  match environments.packages.get? name with
  | some env => (env, environments, heap)
  | none =>
      let (env, heap) :=
        heap.allocEnvironment (.packageEnv name) (heap.parent? environments.global)
      let heap := heap.setParent environments.global env
      (env, { environments with packages := environments.packages.insert name env }, heap)

/-- The environment of a namespace, made when it is first asked for. -/
def loadNamespace (environments : Environments) (heap : Heap) (name : String) :
    Ref × Environments × Heap :=
  match environments.namespaces.get? name with
  | some env => (env, environments, heap)
  | none =>
      let (env, heap) :=
        heap.allocEnvironment (.namespaceEnv name) (some environments.baseNamespace)
      (env, { environments with namespaces := environments.namespaces.insert name env }, heap)

end Environments

namespace Heap

/-- Looks a name up in an environment and in at most `steps` more that enclose it. -/
def lookupWithin (heap : Heap) (name : String) : Nat → Ref → Option Ref
  | steps, env =>
      match heap.frame? env with
      | none => none
      | some frame =>
          match frame.bindings.get? name, frame.parent, steps with
          | some value, _, _ => some value
          | none, some parent, steps + 1 => heap.lookupWithin name steps parent
          | none, _, _ => none

/-- The value a name has in an environment or in the nearest one that encloses it. A chain with
more links than there are objects runs in a circle, where nothing more is found. -/
def lookup (heap : Heap) (env : Ref) (name : String) : Option Ref :=
  heap.lookupWithin name heap.size env

end Heap

end ValueChannels
