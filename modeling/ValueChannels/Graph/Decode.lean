import ValueChannels.Context.Environments
import ValueChannels.Graph.Encode
import ValueChannels.Value.Rebuild

/-!
From a node back to a value, inside a context that supplies the environments that travel by
name. An environment is known under its number from before its bindings are read, so that
they can refer back to it. Attributes beside NULL, the unbound value and references to
environments are not read.
-/

namespace ValueChannels

abbrev Node.Decoding := Rebuilding CodecError

/-- Whether the attributes beside an item are passed over: the singletons and the environments
that exist already are not given any. -/
def NodeItem.keepsAttributes : NodeItem → Bool
  | .null | .unbound | .environmentRef _ | .named _ => false
  | _ => true

open Node

mutual

def Node.decode (environments : Environments) : Node → Decoding Ref
  | .mk item attributes => do
      let ref ← item.decode environments
      if item.keepsAttributes && !attributes.isEmpty then
        let entries ← Node.decodeEntries environments attributes
        Rebuilding.changeHeap fun heap =>
          heap.replaceAttributes ref (some (Attributes.ofList entries))
        pure ref
      else
        pure ref

/-- Builds the value of an item, without attributes. -/
def NodeItem.decode (environments : Environments) : NodeItem → Decoding Ref
  | .null => pure Ref.null
  | .unbound => pure Ref.unbound
  | .vector data => Rebuilding.alloc (.vector data)
  | .list items => do
      let refs ← Node.decodeAll environments items
      Rebuilding.alloc (.list refs)
  | .environment id bindings parent => do
      let env ← Rebuilding.onHeap fun heap => heap.allocLocal environments.empty
      Rebuilding.register id env
      Node.decodeBindings environments env bindings
      match ← Node.decodeOptional environments parent with
      | some parent => Rebuilding.changeHeap fun heap => heap.setParent env parent
      | none => pure ()
      pure env
  | .environmentRef id => Rebuilding.resolve .danglingReference id
  | .named kind =>
      match environments.find? kind with
      | some env => pure env
      | none => throw (.unknownEnvironment kind)
  | .promise expr env value => do
      let env ← Node.decodeOptional environments env
      let value ← Node.decodeOptional environments value
      Rebuilding.alloc (.promise { expr, env, value })
  | .closure formals body env => do
      let env ← env.decode environments
      Rebuilding.alloc (.closure { formals, body, env })
  | .language expr => Rebuilding.alloc (.language expr)
  | .connection connection => Rebuilding.alloc (.connection connection)

def Node.decodeOptional (environments : Environments) : Option Node → Decoding (Option Ref)
  | none => pure none
  | some node => do
      let ref ← node.decode environments
      pure (some ref)

def Node.decodeAll (environments : Environments) : List Node → Decoding (List Ref)
  | [] => pure []
  | node :: rest => do
      let ref ← node.decode environments
      let refs ← Node.decodeAll environments rest
      pure (ref :: refs)

def Node.decodeEntries (environments : Environments) :
    List (String × Node) → Decoding (List (String × Ref))
  | [] => pure []
  | (name, node) :: rest => do
      let ref ← node.decode environments
      let entries ← Node.decodeEntries environments rest
      pure ((name, ref) :: entries)

/-- Builds the values of bindings and defines each as soon as it is built. -/
def Node.decodeBindings (environments : Environments) (env : Ref) :
    List (String × Node) → Decoding Unit
  | [] => pure ()
  | (name, node) :: rest => do
      let ref ← node.decode environments
      Rebuilding.changeHeap fun heap => heap.define env name ref
      Node.decodeBindings environments env rest

end

end ValueChannels
