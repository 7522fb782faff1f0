import ValueChannels.Context.Basic
import ValueChannels.Message.Basic
import ValueChannels.Message.Error

/-!
The sending side: from a value to a message. Vectors, NULL and the unbound value are marked
as shared for good and handed over as they are; a list goes with them when all its elements
and attributes do. A local environment is described where it is first met and referred to
by its number from then on. Everything else is encoded.
-/

namespace ValueChannels

namespace Message

/-- The heap of the sender, and the local environments met so far; the number of an environment
is its position among them. -/
structure ConvertState where
  heap : Heap
  environments : List Ref

abbrev Converting := EStateM ChannelError ConvertState

namespace Converting

def heap : Converting Heap :=
  ConvertState.heap <$> get

def onHeap {α : Type} (step : Heap → α × Heap) : Converting α :=
  modifyGet fun state =>
    let (result, heap) := step state.heap
    (result, { state with heap })

end Converting

def convertEntries (convert : Ref → Converting Message) :
    List (String × Ref) → Converting (List (String × Message))
  | [] => pure []
  | (name, ref) :: rest => do
      let message ← convert ref
      let messages ← convertEntries convert rest
      pure ((name, message) :: messages)

def convertAll (convert : Ref → Converting Message) : List Ref → Converting (List Message)
  | [] => pure []
  | ref :: rest => do
      let message ← convert ref
      let messages ← convertAll convert rest
      pure (message :: messages)

def convertOptional (convert : Ref → Converting Message) :
    Option Ref → Converting (Option Message)
  | none => pure none
  | some ref => some <$> convert ref

def convertAttributes (convert : Ref → Converting Message) :
    Option Attributes → Converting (Option MessageAttributes)
  | none => pure none
  | some attributes => do
      let messages ← convertEntries convert attributes.entries
      pure (some messages)

def allPlain (messages : List Message) (refs : List Ref) : Bool :=
  (messages.zipWith isPlain refs).all id

def attributesPlain : Option MessageAttributes → Option Attributes → Bool
  | some messages, some attributes =>
      allPlain (messages.map Prod.snd) (attributes.entries.map Prod.snd)
  | _, _ => true

/-- A list is handed over whole when nothing in it had to be converted. -/
def convertList (convert : Ref → Converting Message) (list : Ref) (items : List Ref) :
    Converting Message := do
  let messages ← convertAll convert items
  let attributes := (← Converting.heap).attributes list
  let converted ← convertAttributes convert attributes
  if allPlain messages items && attributesPlain converted attributes then
    let _ ← Converting.onHeap fun heap => heap.makeShared list
    pure (.plain list)
  else
    let shell ← Converting.onHeap fun heap => heap.bareCopy list
    pure (.list shell messages converted)

/-- A local environment is numbered before its content, so that the content can refer to it. -/
def convertEnvironment (convert : Ref → Converting Message) (env : Ref) (frame : Frame) :
    Converting Message := do
  let known := (← get).environments
  match known.idxOf? env with
  | some index => pure (.environmentRef (UInt32.ofNat index))
  | none =>
      modify fun state => { state with environments := known ++ [env] }
      let bindings ← convertEntries convert frame.bindings.entries
      let parent ← convertOptional convert frame.parent
      let attributes ← convertAttributes convert ((← Converting.heap).attributes env)
      pure (.environment (UInt32.ofNat known.length) bindings parent attributes)

/-- A promise goes with its value, or else with its environment; its attributes stay behind. -/
def convertPromise (context : Context) (convert : Ref → Converting Message) (delayed : Promise) :
    Converting Message := do
  match context.codec.serializeExpr delayed.expr with
  | .error reason => throw (.serialization .promise reason)
  | .ok expr =>
      match delayed.value with
      | some value =>
          let message ← convert value
          pure (.promise none (some message) expr)
      | none =>
          let message ← convert (delayed.env.getD context.environments.global)
          pure (.promise (some message) none expr)

/-- The bytes of a value without its own attributes. Those of a shared value stay in place and a
bare copy is written; those of any other value are taken off while it is written. -/
def blobOf (codec : Codec) (heap : Heap) (ref : Ref) : Except CodecError Bytes × Heap :=
  if heap.isShared ref then
    let (bare, heap) := heap.bareCopy ref
    (codec.serialize heap bare, heap)
  else
    let detached := heap.replaceAttributes ref none
    (codec.serialize detached ref, detached.replaceAttributes ref (heap.attributes ref))

/-- A value that cannot be taken apart is encoded, and its attributes are converted beside it. -/
def convertEncoded (context : Context) (convert : Ref → Converting Message) (ref : Ref) :
    Converting Message := do
  let before ← Converting.heap
  let kind := before.kind ref
  match ← Converting.onHeap fun heap => blobOf context.codec heap ref with
  | .error .endless => throw .endless
  | .error reason => throw (.serialization kind reason)
  | .ok blob =>
      let attributes ← convertAttributes convert (before.attributes ref)
      pure (.encoded kind blob attributes)

/-- A value without parts is handed over as it is unless one of its attributes was converted. -/
def convertPlain (convert : Ref → Converting Message) (ref : Ref) : Converting Message := do
  let _ ← Converting.onHeap fun heap => heap.makeShared ref
  let attributes := (← Converting.heap).attributes ref
  match ← convertAttributes convert attributes with
  | none => pure (.plain ref)
  | some converted =>
      if attributesPlain (some converted) attributes then pure (.plain ref)
      else
        let base ← Converting.onHeap fun heap => heap.bareCopy ref
        pure (.attributed (.plain base) converted)

/-- Converts a value that is at most `depth` steps deep. -/
def convertWithin (context : Context) : Nat → Ref → Converting Message
  | 0, _ => throw .endless
  | depth + 1, ref => do
      let convert := convertWithin context depth
      match (← Converting.heap).body ref with
      | .list items => convertList convert ref items
      | .environment frame =>
          if frame.kind.isLocal then convertEnvironment convert ref frame
          else convertEncoded context convert ref
      | .promise delayed => convertPromise context convert delayed
      | .closure _ | .language _ | .connection _ => convertEncoded context convert ref
      | .null | .unbound | .vector _ => convertPlain convert ref

/-- The message for a value that the context sends, and the heap with the sharing marks that go
with it. -/
def ofValue (context : Context) (heap : Heap) (ref : Ref) : Except ChannelError Message × Heap :=
  match convertWithin context (Node.depthBound heap) ref { heap, environments := [] } with
  | .ok message state => (.ok message, state.heap)
  | .error err state => (.error err, state.heap)

end Message

end ValueChannels
