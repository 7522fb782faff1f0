import ValueChannels.Value.Heap

/-!
Updates through a handle. The holder of a handle writes to the object behind it; when that
object is shared, the handle first moves to a private copy, so a shared object is never
written to. Environments, NULL and the unbound value have no copies and are written in place.
-/

namespace ValueChannels

inductive UpdateError where
  | expectedList (found : ValueKind)
  | indexOutOfBounds (index length : Nat)
  | expectedVector (found : ValueKind)
  | typeChanged (before after : ValueKind)
  deriving DecidableEq

def UpdateError.message : UpdateError → String
  | .expectedList found => "Expected list, got " ++ found.name
  | .indexOutOfBounds index length =>
      "Index " ++ toString index ++ " out of bounds for list of length " ++ toString length
  | .expectedVector found => "Expected atomic vector, got " ++ found.name
  | .typeChanged before after =>
      "Vector changed type from " ++ before.name ++ " to " ++ after.name

/-- What an update leaves behind: where the handle points now, the heap, and whether the
requested change was made. -/
structure Update where
  handle : Ref
  heap : Heap
  outcome : Except UpdateError Unit

namespace Heap

/-- A new object with the same body and no attributes. Environments, NULL and the unbound value
stand for themselves. -/
def bareCopy (heap : Heap) (ref : Ref) : Ref × Heap :=
  let body := heap.body ref
  if body.copiesToItself then (ref, heap) else heap.alloc body

/-- A new unshared object with the same body and the same attributes. -/
def shallowCopy (heap : Heap) (ref : Ref) : Ref × Heap :=
  let (copy, copied) := heap.bareCopy ref
  if copy = ref then (ref, copied)
  else (copy, copied.replaceAttributes copy (heap.attributes ref))

/-- Moves a handle off a shared object. -/
def makePrivate (heap : Heap) (handle : Ref) : Ref × Heap :=
  if heap.isShared handle then heap.shallowCopy handle else (handle, heap)

/-- Sets one attribute; NULL removes it. -/
def setAttribute (heap : Heap) (handle : Ref) (name : String) (value : Ref) : Ref × Heap :=
  let (target, owned) := heap.makePrivate handle
  let current := (owned.attributes target).getD Mapping.empty
  (target, owned.replaceAttributes target (some (Attributes.set current name value)))

def setElement (heap : Heap) (handle : Ref) (index : Nat) (value : Ref) : Update :=
  match heap.body handle with
  | .list items =>
      let (target, owned) := heap.makePrivate handle
      if index < items.length then
        { handle := target, heap := owned.setBody target (.list (items.set index value))
          outcome := .ok () }
      else
        { handle := target, heap := owned
          outcome := .error (.indexOutOfBounds index items.length) }
  | other => { handle, heap, outcome := .error (.expectedList other.kind) }

def pushElement (heap : Heap) (handle : Ref) (value : Ref) : Update :=
  match heap.body handle with
  | .list items =>
      let (target, owned) := heap.makePrivate handle
      { handle := target, heap := owned.setBody target (.list (items ++ [value]))
        outcome := .ok () }
  | other => { handle, heap, outcome := .error (.expectedList other.kind) }

/-- Changes the data of an atomic vector, whose type has to stay. -/
def updateVector (heap : Heap) (handle : Ref) (change : AtomicVector → AtomicVector) : Update :=
  match heap.body handle with
  | .vector data =>
      let (target, owned) := heap.makePrivate handle
      let changed := change data
      if changed.kind = data.kind then
        { handle := target, heap := owned.setBody target (.vector changed), outcome := .ok () }
      else
        { handle := target, heap := owned
          outcome := .error (.typeChanged data.kind changed.kind) }
  | other => { handle, heap, outcome := .error (.expectedVector other.kind) }

end Heap

end ValueChannels
