import ValueChannels.Value.Object

/-!
The heap that all contexts share. Objects are never removed, and a reference once handed
out stays good. Main statements: what is read after an allocation and after a write.
-/

namespace ValueChannels

structure Heap where
  objects : Array Object

namespace Heap

/-- A heap with NULL and the unbound value, both shared for good. -/
def initial : Heap :=
  ⟨#[{ body := .null, attributes := none, shared := true },
     { body := .unbound, attributes := none, shared := true }]⟩

def size (heap : Heap) : Nat :=
  heap.objects.size

/-- The object at an address; an address that was never handed out reads as a bare NULL. -/
def get (heap : Heap) (ref : Ref) : Object :=
  heap.objects[ref.index]?.getD (Object.fresh .null)

def body (heap : Heap) (ref : Ref) : Body :=
  (heap.get ref).body

def kind (heap : Heap) (ref : Ref) : ValueKind :=
  (heap.body ref).kind

def put (heap : Heap) (ref : Ref) (object : Object) : Heap :=
  ⟨heap.objects.setIfInBounds ref.index object⟩

def modify (heap : Heap) (ref : Ref) (change : Object → Object) : Heap :=
  heap.put ref (change (heap.get ref))

def alloc (heap : Heap) (body : Body) : Ref × Heap :=
  (⟨heap.size⟩, ⟨heap.objects.push (Object.fresh body)⟩)

def setBody (heap : Heap) (ref : Ref) (body : Body) : Heap :=
  heap.modify ref fun object => { object with body }

/-- Replaces the attribute mapping as a whole; an empty one is dropped. -/
def replaceAttributes (heap : Heap) (ref : Ref) (attributes : Option Attributes) : Heap :=
  heap.modify ref fun object => { object with attributes := Attributes.normalize attributes }

def attributes (heap : Heap) (ref : Ref) : Option Attributes :=
  (heap.get ref).attributes

def attribute? (heap : Heap) (ref : Ref) (name : String) : Option Ref :=
  (heap.attributes ref).bind fun mapping => mapping.get? name

def isShared (heap : Heap) (ref : Ref) : Bool :=
  (heap.get ref).shared

/-- Marks an object as shared for good, if its kind allows it. The mark is never taken back; the
answer says whether this was the first time. -/
def makeShared (heap : Heap) (ref : Ref) : Bool × Heap :=
  let object := heap.get ref
  if object.body.isShareable then
    (!object.shared, heap.put ref { object with shared := true })
  else
    (false, heap)

def isNull (heap : Heap) (ref : Ref) : Bool :=
  match heap.body ref with
  | .null => true
  | _ => false

def isUnbound (heap : Heap) (ref : Ref) : Bool :=
  match heap.body ref with
  | .unbound => true
  | _ => false

def vector? (heap : Heap) (ref : Ref) : Option AtomicVector :=
  match heap.body ref with
  | .vector data => some data
  | _ => none

def items? (heap : Heap) (ref : Ref) : Option (List Ref) :=
  match heap.body ref with
  | .list items => some items
  | _ => none

def frame? (heap : Heap) (ref : Ref) : Option Frame :=
  match heap.body ref with
  | .environment frame => some frame
  | _ => none

def promise? (heap : Heap) (ref : Ref) : Option Promise :=
  match heap.body ref with
  | .promise promise => some promise
  | _ => none

def closure? (heap : Heap) (ref : Ref) : Option Closure :=
  match heap.body ref with
  | .closure closure => some closure
  | _ => none

/-- The bindings of an environment in order of definition; other values have none. -/
def bindings (heap : Heap) (ref : Ref) : Mapping Ref :=
  match heap.frame? ref with
  | some frame => frame.bindings
  | none => Mapping.empty

def parent? (heap : Heap) (ref : Ref) : Option Ref :=
  (heap.frame? ref).bind Frame.parent

def binding? (heap : Heap) (ref : Ref) (name : String) : Option Ref :=
  (heap.bindings ref).get? name

/-- Changes the frame of an environment; other values stay as they are. -/
def modifyFrame (heap : Heap) (ref : Ref) (change : Frame → Frame) : Heap :=
  match heap.frame? ref with
  | some frame => heap.setBody ref (.environment (change frame))
  | none => heap

def allocEnvironment (heap : Heap) (kind : EnvironmentKind) (parent : Option Ref) : Ref × Heap :=
  heap.alloc (.environment { kind, bindings := Mapping.empty, parent })

def allocLocal (heap : Heap) (parent : Ref) : Ref × Heap :=
  heap.allocEnvironment .localEnv (some parent)

/-- A name keeps its place when it is defined again. -/
def define (heap : Heap) (env : Ref) (name : String) (value : Ref) : Heap :=
  heap.modifyFrame env fun frame => { frame with bindings := frame.bindings.insert name value }

def setParent (heap : Heap) (env parent : Ref) : Heap :=
  heap.modifyFrame env fun frame => { frame with parent := some parent }

/-- Gives a promise its value. A promise that has one keeps it, and any other value is no
promise; both are answered by `false`. -/
def fulfil (heap : Heap) (ref value : Ref) : Bool × Heap :=
  match heap.promise? ref with
  | some { expr, env, value := none } =>
      (true, heap.setBody ref (.promise { expr, env, value := some value }))
  | _ => (false, heap)

theorem get_put_same (heap : Heap) {ref : Ref} (object : Object)
    (inside : ref.index < heap.size) : (heap.put ref object).get ref = object := by
  have bound : ref.index < heap.objects.size := inside
  simp [get, put, bound]

theorem get_put_other (heap : Heap) {ref other : Ref} (object : Object) (different : other ≠ ref) :
    (heap.put ref object).get other = heap.get other := by
  have apart : ref.index ≠ other.index := by
    intro same
    apply different
    cases ref
    cases other
    cases same
    rfl
  simp [get, put, Array.getElem?_setIfInBounds_ne apart]

@[simp] theorem size_put (heap : Heap) (ref : Ref) (object : Object) :
    (heap.put ref object).size = heap.size := by
  simp [size, put]

@[simp] theorem size_alloc (heap : Heap) (body : Body) :
    (heap.alloc body).2.size = heap.size + 1 := by
  simp [size, alloc]

theorem get_alloc_new (heap : Heap) (body : Body) :
    (heap.alloc body).2.get (heap.alloc body).1 = Object.fresh body := by
  simp [get, alloc, size]

theorem get_alloc_old (heap : Heap) (body : Body) {ref : Ref} (inside : ref.index < heap.size) :
    (heap.alloc body).2.get ref = heap.get ref := by
  have bound : ref.index < heap.objects.size := inside
  have differs : ref.index ≠ heap.objects.size := Nat.ne_of_lt bound
  simp [get, alloc, Array.getElem?_push, differs]

end Heap

end ValueChannels
