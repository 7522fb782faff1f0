import ValueChannels.Graph.Decode
import ValueChannels.Graph.Wire
import ValueChannels.Pack.Reader
import ValueChannels.Pack.Writer

/-!
Codecs write values and expressions to bytes and read them back in the receiving context.
The packed codec writes the packed form of nodes; bytes behind the first item are ignored.
-/

namespace ValueChannels

/-- How a context writes and reads what it cannot take apart. -/
structure Codec where
  serialize : Heap → Ref → Except CodecError Bytes
  unserialize : Environments → Bytes → EStateM CodecError Heap Ref
  serializeExpr : Expr → Except CodecError Bytes
  unserializeExpr : Bytes → Except CodecError Expr

namespace Codec

def readPacked {α : Type} (decoder : Pack.Decoder α) (bytes : Bytes) : Except CodecError α :=
  match Pack.read bytes with
  | some (item, _) =>
      match decoder Pack.nestingLimit item with
      | some result => .ok result
      | none => .error .unreadable
  | none => .error .unreadable

/-- Reads a node and builds its value, with no environment known by number at the start. -/
def unserializePacked (environments : Environments) (bytes : Bytes) :
    EStateM CodecError Heap Ref :=
  fun heap =>
    match readPacked Node.decoder bytes with
    | .error err => .error err heap
    | .ok node =>
        match node.decode environments { heap, environments := [] } with
        | .ok ref state => .ok ref state.heap
        | .error err state => .error err state.heap

/-- The codec that every context has unless it is given another. -/
def packed : Codec :=
  { serialize := fun heap ref => do
      let node ← Node.ofValue heap ref
      pure node.toItem.write
    unserialize := unserializePacked
    serializeExpr := fun expr => .ok expr.toItem.write
    unserializeExpr := readPacked Expr.decoder }

end Codec

end ValueChannels
