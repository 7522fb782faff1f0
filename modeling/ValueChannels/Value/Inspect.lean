import ValueChannels.Expr.Inspect
import ValueChannels.Value.Heap

/-!
The inspection text of values. Of an environment only the names are shown, since its
bindings and parents may lead back to it.
-/

namespace ValueChannels

def AtomicVector.inspectData : AtomicVector → String
  | .logical data => Text.bracketed (data.map Text.inspectBool)
  | .integer data => Text.bracketed (data.map fun n => toString n.toInt)
  | .double data => Text.bracketed (data.map Double.inspect)
  | .character data => Text.bracketed (data.map Text.quoted)

def AtomicVector.inspect (vector : AtomicVector) : String :=
  let name := match vector with
    | .logical _ => "Logical"
    | .integer _ => "Integer"
    | .double _ => "Double"
    | .character _ => "Character"
  Text.tagged name vector.inspectData

/-- The inspection text down to `depth` levels of lists. -/
def Heap.inspectWithin (heap : Heap) : Nat → Ref → String
  | 0, _ => ""
  | depth + 1, ref =>
      match heap.body ref with
      | .null => "NULL"
      | .unbound => "<unbound>"
      | .vector data => data.inspect
      | .list items => Text.bracketed (items.map (heap.inspectWithin depth))
      | .environment frame =>
          frame.kind.display ++ " " ++ Text.bracketed (frame.bindings.names.map Text.quoted)
      | .promise promise =>
          "<promise " ++ promise.expr.inspect ++ " evaluated="
            ++ Text.inspectBool promise.value.isSome ++ ">"
      | .closure closure =>
          "<closure (" ++ String.intercalate ", " closure.formals ++ ") "
            ++ closure.body.inspect ++ ">"
      | .language expr => expr.inspect
      | .connection connection =>
          "<connection " ++ toString connection.id.toNat ++ " " ++ connection.description ++ ">"

/-- The inspection text of a value. Lists that do not contain themselves nest less deeply than
there are objects. -/
def Heap.inspect (heap : Heap) (ref : Ref) : String :=
  heap.inspectWithin (heap.size + 1) ref

end ValueChannels
