import ValueChannels.Context.Basic
import ValueChannels.Expr.Printer
import ValueChannels.Message.Basic
import ValueChannels.Message.Error
import ValueChannels.Value.Rebuild

/-!
The receiving side: from a message to a value of the receiving context. An environment is
known under its number from before its content is built, and every part gets its attributes
last. The environments that a context owns are never given attributes by a message.
-/

namespace ValueChannels

namespace Message

abbrev Building := Rebuilding ChannelError

namespace Building

/-- Enters an element into the private copy of a list; the answer is where the copy is now. -/
def enterElement (shell : Ref) (index : Nat) (element : Ref) : Building Ref := do
  let update ← Rebuilding.onHeap fun heap =>
    let update := heap.setElement shell index element
    (update, update.heap)
  match update.outcome with
  | .ok () => pure update.handle
  | .error reason => throw (.transfer (.misfit reason))

def unserialize (context : Context) (blob : Bytes) : Building Ref :=
  fun state =>
    match context.codec.unserialize context.environments blob state.heap with
    | .ok ref heap => .ok ref { state with heap }
    | .error reason heap => .error (.ofDecoding .encodedValue reason) { state with heap }

end Building

/-- The expression of a promise is decoded, written out and read again. -/
def rebuildExpr (codec : Codec) (expr : Bytes) : Except CodecError Expr :=
  match codec.unserializeExpr expr with
  | .error reason => .error reason
  | .ok decoded =>
      match Expr.parse decoded.deparse with
      | .ok rebuilt => .ok rebuilt
      | .error reason => .error (.unparsable reason)

/-- Whether a value may be given attributes: only the local ones among environments may. -/
def acceptsAttributes (heap : Heap) (ref : Ref) : Bool :=
  match heap.frame? ref with
  | some frame => frame.kind.isLocal
  | none => true

/-- The heap with the attributes of a value replaced, if it accepts any. -/
def install (heap : Heap) (ref : Ref) (entries : List (String × Ref)) : Heap :=
  if acceptsAttributes heap ref then heap.replaceAttributes ref (some (Attributes.ofList entries))
  else heap

mutual

def build (context : Context) : Message → Building Ref
  | .plain value => pure value
  | .list shell items attributes => do
      let filled ← fillList context shell 0 items
      attach context filled attributes
  | .environment id bindings parent attributes => do
      let env ← Rebuilding.onHeap fun heap => heap.allocLocal context.environments.empty
      Rebuilding.register id env
      buildBindings context env bindings
      match ← buildOptional context parent with
      | some parent => Rebuilding.changeHeap fun heap => heap.setParent env parent
      | none => pure ()
      attach context env attributes
  | .environmentRef id => Rebuilding.resolve (fun id => .transfer (.uncapturedEnvironment id)) id
  | .promise env value expr => do
      match rebuildExpr context.codec expr with
      | .error reason => throw (.ofDecoding .promiseExpression reason)
      | .ok expr =>
          let env ← buildOptional context env
          let value ← buildOptional context value
          Rebuilding.alloc (.promise { expr, env, value })
  | .encoded _ blob attributes => do
      let ref ← Building.unserialize context blob
      attach context ref attributes
  | .attributed base attributes => do
      let ref ← base.build context
      let entries ← buildEntries context attributes
      Rebuilding.changeHeap fun heap => install heap ref entries
      pure ref

/-- Converts the attributes of a value, if it has any, and installs them. -/
def attach (context : Context) (ref : Ref) : Option (List (String × Message)) → Building Ref
  | none => pure ref
  | some attributes => do
      let entries ← buildEntries context attributes
      Rebuilding.changeHeap fun heap => install heap ref entries
      pure ref

/-- Builds the elements of a list from an index on and enters each as soon as it is built. -/
def fillList (context : Context) (shell : Ref) (index : Nat) : List Message → Building Ref
  | [] => pure shell
  | item :: rest => do
      let element ← item.build context
      let shell ← Building.enterElement shell index element
      fillList context shell (index + 1) rest

/-- Builds the values of bindings and defines each as soon as it is built. -/
def buildBindings (context : Context) (env : Ref) : List (String × Message) → Building Unit
  | [] => pure ()
  | (name, message) :: rest => do
      let ref ← message.build context
      Rebuilding.changeHeap fun heap => heap.define env name ref
      buildBindings context env rest

def buildEntries (context : Context) :
    List (String × Message) → Building (List (String × Ref))
  | [] => pure []
  | (name, message) :: rest => do
      let ref ← message.build context
      let entries ← buildEntries context rest
      pure ((name, ref) :: entries)

def buildOptional (context : Context) : Option Message → Building (Option Ref)
  | none => pure none
  | some message => do
      let ref ← message.build context
      pure (some ref)

end

def toValue (context : Context) (heap : Heap) (message : Message) :
    Except ChannelError Ref × Heap :=
  match message.build context { heap, environments := [] } with
  | .ok ref state => (.ok ref, state.heap)
  | .error err state => (.error err, state.heap)

end Message

end ValueChannels
