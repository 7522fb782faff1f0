import ValueChannels.Value.Heap

/-!
Structural equality of values. Attributes are compared as mappings, whatever their order;
environments are the same only when they are one object. The comparison descends into
elements, attributes, values of promises and environments of closures; it gives no answer
when it never ends, which takes a cycle that does not pass through an environment's frame.
-/

namespace ValueChannels

namespace Heap

/-- Compares two rows element by element, up to the first difference. -/
def compareAll (compare : Ref → Ref → Option Bool) : List Ref → List Ref → Option Bool
  | [], [] => some true
  | x :: xs, y :: ys =>
      match compare x y with
      | some true => compareAll compare xs ys
      | other => other
  | _, _ => some false

/-- Compares every entry with the entry of the same name in a mapping. -/
def compareEntries (compare : Ref → Ref → Option Bool) (other : Attributes) :
    List (String × Ref) → Option Bool
  | [] => some true
  | (name, x) :: rest =>
      match other.get? name with
      | none => some false
      | some y =>
          match compare x y with
          | some true => compareEntries compare other rest
          | answer => answer

/-- Compares two mappings regardless of the order of their names. -/
def compareAttributes (compare : Ref → Ref → Option Bool) (xs ys : Option Attributes) :
    Option Bool :=
  let left := xs.getD Mapping.empty
  let right := ys.getD Mapping.empty
  if left.size = right.size then compareEntries compare right left.entries else some false

def compareBodies (compare : Ref → Ref → Option Bool) : Body → Body → Option Bool
  | .null, .null => some true
  | .unbound, .unbound => some true
  | .vector xs, .vector ys => some (xs.same ys)
  | .list xs, .list ys =>
      if xs.length = ys.length then compareAll compare xs ys else some false
  | .promise x, .promise y =>
      if x.expr.same y.expr then
        match x.value, y.value with
        | some v, some w => compare v w
        | none, none => some true
        | _, _ => some false
      else
        some false
  | .closure x, .closure y =>
      if x.formals = y.formals ∧ x.body.same y.body = true then compare x.env y.env
      else some false
  | .language x, .language y => some (x.same y)
  | .connection x, .connection y => some (decide (x = y))
  | _, _ => some false

/-- Structural equality, as far as `depth` steps down decide it. -/
def identicalWithin (heap : Heap) : Nat → Ref → Ref → Option Bool
  | 0, _, _ => none
  | depth + 1, a, b =>
      if a = b then some true
      else
        let deeper := heap.identicalWithin depth
        match compareAttributes deeper (heap.attributes a) (heap.attributes b) with
        | some true => compareBodies deeper (heap.body a) (heap.body b)
        | other => other

/-- Structural equality. A descent longer than the number of pairs of objects meets one pair
twice and never ends. -/
def identical (heap : Heap) (a b : Ref) : Option Bool :=
  heap.identicalWithin (heap.size * heap.size + 1) a b

end Heap

end ValueChannels
