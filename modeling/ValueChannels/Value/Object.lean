import ValueChannels.Expr.Basic
import ValueChannels.Value.Kind
import ValueChannels.Value.Mapping

/-!
Objects of the heap. An object has a body, an attribute mapping that may be absent, and a
mark that says whether it is shared for good. Objects point at each other by references.
-/

namespace ValueChannels

structure Ref where
  index : Nat
  deriving DecidableEq, Inhabited

/-- There is one NULL object and one unbound object, at the first two addresses. -/
def Ref.null : Ref := ⟨0⟩

def Ref.unbound : Ref := ⟨1⟩

inductive AtomicVector where
  | logical (data : List Bool)
  | integer (data : List Int32)
  | double (data : List Double)
  | character (data : List String)
  deriving DecidableEq, Inhabited

namespace AtomicVector

def length : AtomicVector → Nat
  | .logical data => data.length
  | .integer data => data.length
  | .double data => data.length
  | .character data => data.length

def kind : AtomicVector → ValueKind
  | .logical _ => .logical
  | .integer _ => .integer
  | .double _ => .double
  | .character _ => .character

def reverse : AtomicVector → AtomicVector
  | .logical data => .logical data.reverse
  | .integer data => .integer data.reverse
  | .double data => .double data.reverse
  | .character data => .character data.reverse

def take (count : Nat) : AtomicVector → AtomicVector
  | .logical data => .logical (data.take count)
  | .integer data => .integer (data.take count)
  | .double data => .double (data.take count)
  | .character data => .character (data.take count)

/-- Equality as values: doubles are compared as numbers, one by one. -/
def same : AtomicVector → AtomicVector → Bool
  | .double xs, .double ys => xs.length == ys.length && (xs.zipWith Double.sameNumber ys).all id
  | xs, ys => xs == ys

end AtomicVector

/-- Storage of an environment: its kind, its bindings in order of definition, and the
environment that encloses it. -/
structure Frame where
  kind : EnvironmentKind
  bindings : Mapping Ref
  parent : Option Ref
  deriving DecidableEq, Inhabited

/-- A delayed expression. Without an environment it belongs to the global one; once it has a
value it is evaluated. -/
structure Promise where
  expr : Expr
  env : Option Ref
  value : Option Ref
  deriving Inhabited

structure Closure where
  formals : List String
  body : Expr
  env : Ref
  deriving Inhabited

structure Connection where
  id : UInt32
  description : String
  className : String
  deriving DecidableEq, Inhabited

inductive Body where
  | null
  | unbound
  | vector (data : AtomicVector)
  | list (items : List Ref)
  | environment (frame : Frame)
  | promise (promise : Promise)
  | closure (closure : Closure)
  | language (expr : Expr)
  | connection (connection : Connection)
  deriving Inhabited

namespace Body

def kind : Body → ValueKind
  | .null => .null
  | .unbound => .unbound
  | .vector data => data.kind
  | .list _ => .list
  | .environment _ => .environment
  | .promise _ => .promise
  | .closure _ => .closure
  | .language _ => .language
  | .connection _ => .connection

/-- The number of elements or bindings; a value without parts counts as one. -/
def length : Body → Nat
  | .null => 0
  | .vector data => data.length
  | .list items => items.length
  | .environment frame => frame.bindings.size
  | _ => 1

/-- Whether the owner of such an object can promise never to write to it again. -/
def isShareable : Body → Bool
  | .null | .unbound | .vector _ | .list _ | .language _ => true
  | _ => false

/-- Whether a copy of such an object is the object itself. -/
def copiesToItself : Body → Bool
  | .null | .unbound | .environment _ => true
  | _ => false

end Body

/-- Attributes by name, none of them NULL. -/
abbrev Attributes := Mapping Ref

namespace Attributes

/-- Setting an attribute to NULL removes it. -/
def set (attributes : Attributes) (name : String) (value : Ref) : Attributes :=
  if value = Ref.null then attributes.erase name else attributes.insert name value

/-- The mapping that results from setting the entries in order. -/
def ofList (entries : List (String × Ref)) : Attributes :=
  entries.foldl (fun attributes entry => set attributes entry.1 entry.2) Mapping.empty

/-- An empty mapping is no mapping. -/
def normalize (attributes : Option Attributes) : Option Attributes :=
  attributes.filter fun mapping => !mapping.isEmpty

end Attributes

@[ext] structure Object where
  body : Body
  attributes : Option Attributes
  shared : Bool
  deriving Inhabited

/-- An object as it is first made: without attributes and not shared. -/
def Object.fresh (body : Body) : Object :=
  { body, attributes := none, shared := false }

end ValueChannels
