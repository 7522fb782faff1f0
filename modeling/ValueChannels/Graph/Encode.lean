import ValueChannels.Expr.Token
import ValueChannels.Graph.Node
import ValueChannels.Value.Heap

/-!
From a value to its node. Local environments are numbered in the order in which they are
met, each before its own content.
-/

namespace ValueChannels

inductive CodecError where
  | unwritable
  | unreadable
  | danglingReference (id : UInt32)
  | unknownEnvironment (kind : EnvironmentKind)
  | unparsable (reason : ParseError)
  /-- The value has a cycle that passes through no local environment. -/
  | endless
  deriving DecidableEq

def CodecError.message : CodecError → String
  | .unwritable => "encoding failed"
  | .unreadable => "decoding failed"
  | .danglingReference id =>
      "environment reference #" ++ toString id.toNat ++ " does not point at an earlier environment"
  | .unknownEnvironment kind => kind.display ++ " is not available in the receiving context"
  | .unparsable reason => "expression did not survive deparse/parse: " ++ reason.message
  | .endless => "the value never ends"

/-- Whether an item stands for something written elsewhere, so that no attributes go with it. -/
def NodeItem.isReference : NodeItem → Bool
  | .environmentRef _ | .named _ => true
  | _ => false

namespace Node

/-- Writes nodes while keeping the local environments met so far; the number of an environment
is its position among them. -/
abbrev Encoding := StateT (List Ref) (Except CodecError)

def encodeEntries (encode : Ref → Encoding Node) (entries : List (String × Ref)) :
    Encoding (List (String × Node)) :=
  entries.mapM fun (name, ref) => do
    let node ← encode ref
    pure (name, node)

def encodeOptional (encode : Ref → Encoding Node) : Option Ref → Encoding (Option Node)
  | none => pure none
  | some ref => some <$> encode ref

/-- The item of an environment, by reference if its content has been written before. -/
def encodeFrame (encode : Ref → Encoding Node) (ref : Ref) (frame : Frame) :
    Encoding NodeItem := do
  let known ← get
  match known.idxOf? ref with
  | some index => pure (.environmentRef (UInt32.ofNat index))
  | none =>
      set (known ++ [ref])
      let bindings ← encodeEntries encode frame.bindings.entries
      let parent ← encodeOptional encode frame.parent
      pure (.environment (UInt32.ofNat known.length) bindings parent)

def encodeBody (encode : Ref → Encoding Node) (ref : Ref) : Body → Encoding NodeItem
  | .null => pure .null
  | .unbound => pure .unbound
  | .vector data => pure (.vector data)
  | .list items => .list <$> items.mapM encode
  | .environment frame =>
      if frame.kind.isLocal then encodeFrame encode ref frame else pure (.named frame.kind)
  | .promise promise => do
      let env ← encodeOptional encode promise.env
      let value ← encodeOptional encode promise.value
      pure (.promise promise.expr env value)
  | .closure closure => do
      let env ← encode closure.env
      pure (.closure closure.formals closure.body env)
  | .language expr => pure (.language expr)
  | .connection connection => pure (.connection connection)

/-- Writes a value that is at most `depth` steps deep. -/
def encodeWithin (heap : Heap) : Nat → Ref → Encoding Node
  | 0, _ => throw .endless
  | depth + 1, ref => do
      let object := heap.get ref
      let item ← encodeBody (encodeWithin heap depth) ref object.body
      if item.isReference then
        pure (.bare item)
      else
        let entries := (object.attributes.getD Mapping.empty).entries
        let attributes ← encodeEntries (encodeWithin heap depth) entries
        pure (.mk item attributes)

/-- The depth no value exceeds whose cycles all pass through a local environment: between two
environments that are entered for the first time no object comes twice. -/
def depthBound (heap : Heap) : Nat :=
  (heap.size + 1) * (heap.size + 1)

theorem depthBound_eq_succ (heap : Heap) : ∃ depth, depthBound heap = depth + 1 :=
  ⟨(heap.size + 1) * heap.size + heap.size, rfl⟩

def ofValue (heap : Heap) (ref : Ref) : Except CodecError Node :=
  (·.1) <$> encodeWithin heap (depthBound heap) ref []

end Node

end ValueChannels
