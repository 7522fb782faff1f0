import ValueChannels.Pack.Item
import ValueChannels.Value.Object

/-!
Messages: values on their way from one context to another. A part that is shared for good
is handed over as it is; everything else in a message is a private copy, or a description
from which the receiver builds a value of its own.
-/

namespace ValueChannels

inductive Message where
  /-- A shared value, handed over as it is. -/
  | plain (value : Ref)
  /-- A list with converted elements, which the receiver enters into the private copy `shell`. -/
  | list (shell : Ref) (items : List Message) (attributes : Option (List (String × Message)))
  /-- A local environment; the number is its own within the message. -/
  | environment (id : UInt32) (bindings : List (String × Message)) (parent : Option Message)
      (attributes : Option (List (String × Message)))
  /-- An environment that the message has described before. -/
  | environmentRef (id : UInt32)
  /-- A promise with its packed expression; it has a value or else an environment. -/
  | promise (env : Option Message) (value : Option Message) (expr : Bytes)
  /-- A value in encoded form, with its attributes beside it. -/
  | encoded (kind : ValueKind) (blob : Bytes) (attributes : Option (List (String × Message)))
  /-- A private copy of a value, with converted attributes. -/
  | attributed (base : Message) (attributes : List (String × Message))
  deriving Inhabited

/-- Attributes of a value on its way, in their order. -/
abbrev MessageAttributes := List (String × Message)

namespace Message

def form : Message → String
  | .plain _ => "plain"
  | .list _ _ _ => "list"
  | .environment _ _ _ _ => "env"
  | .environmentRef _ => "env-ref"
  | .promise _ _ _ => "promise"
  | .encoded _ _ _ => "opaque"
  | .attributed _ _ => "attributed"

/-- Whether the message hands over exactly this object. -/
def isPlain (message : Message) (ref : Ref) : Bool :=
  match message with
  | .plain value => value == ref
  | _ => false

end Message

end ValueChannels
