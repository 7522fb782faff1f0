import ValueChannels.Graph.Encode
import ValueChannels.Value.Update

/-!
Why an operation on channels fails. Every error has a code, a message, and the answer to
whether the same operation may succeed when it is repeated.
-/

namespace ValueChannels

inductive Operation where
  | create
  | get
  | close
  | send
  | receive
  | poll
  deriving DecidableEq

def Operation.name : Operation → String
  | .create => "create"
  | .get => "get"
  | .close => "close"
  | .send => "send"
  | .receive => "receive"
  | .poll => "poll"

/-- What no channel was found for. -/
inductive Sought where
  | key (key : Int)
  | handle (raw : Int)
  | described (text : String)
  deriving DecidableEq

def Sought.display : Sought → String
  | .key number => "key " ++ toString number
  | .handle raw => "handle " ++ toString raw
  | .described text => text

/-- Why a message cannot be rebuilt. -/
inductive TransferFault where
  | uncapturedEnvironment (id : UInt32)
  | misfit (reason : UpdateError)
  | described (text : String)
  deriving DecidableEq

def TransferFault.display : TransferFault → String
  | .uncapturedEnvironment id =>
      "environment #" ++ toString id.toNat ++ " referenced before capture"
  | .misfit reason => reason.message
  | .described text => text

inductive ConfigFault where
  | smallCapacity (capacity : Nat)
  | smallGrowFactor (factor : Nat)
  | described (text : String)
  deriving DecidableEq

def ConfigFault.display : ConfigFault → String
  | .smallCapacity capacity => "initial_capacity must be at least 2, got " ++ toString capacity
  | .smallGrowFactor factor => "grow_factor must be at least 2, got " ++ toString factor
  | .described text => text

inductive EncodedPart where
  | encodedValue
  | promiseExpression
  deriving DecidableEq

def EncodedPart.display : EncodedPart → String
  | .encodedValue => "opaque value"
  | .promiseExpression => "promise expression"

inductive ChannelError where
  | invalidKey (key : Int)
  | duplicateKey (key : Int)
  | notFound (sought : Sought)
  | interrupted (operation : Operation)
  | serialization (kind : ValueKind) (reason : CodecError)
  | deserialization (part : EncodedPart) (reason : CodecError)
  | passByReference (kind : EnvironmentKind)
  | transfer (fault : TransferFault)
  | invalidConfig (fault : ConfigFault)
  /-- The value has a cycle that passes through no local environment. -/
  | endless
  deriving DecidableEq

namespace ChannelError

/-- The error of a part that cannot be decoded. An environment that the receiver lacks would have
to be passed by reference, which is not possible. -/
def ofDecoding (part : EncodedPart) : CodecError → ChannelError
  | .unknownEnvironment kind => .passByReference kind
  | reason => .deserialization part reason

def code : ChannelError → String
  | .invalidKey _ => "CHANNEL_INVALID_KEY"
  | .duplicateKey _ => "CHANNEL_DUPLICATE_KEY"
  | .notFound _ => "CHANNEL_NOT_FOUND"
  | .interrupted _ => "CHANNEL_INTERRUPTED"
  | .serialization _ _ => "CHANNEL_SERIALIZATION"
  | .deserialization _ _ => "CHANNEL_DESERIALIZATION"
  | .passByReference _ => "CHANNEL_PASS_BY_REFERENCE"
  | .transfer _ => "CHANNEL_TRANSFER"
  | .invalidConfig _ => "CHANNEL_INVALID_CONFIG"
  | .endless => "CHANNEL_ENDLESS"

def message : ChannelError → String
  | .invalidKey key => "invalid channel key " ++ toString key ++ ": keys must be positive"
  | .duplicateKey key => "a channel with key " ++ toString key ++ " already exists"
  | .notFound sought => "no channel found for " ++ sought.display
  | .interrupted operation => operation.name ++ " was interrupted"
  | .serialization kind reason =>
      "cannot serialize " ++ kind.name ++ " value: " ++ reason.message
  | .deserialization part reason =>
      "cannot deserialize " ++ part.display ++ ": " ++ reason.message
  | .passByReference kind => kind.display ++ " cannot be passed by reference"
  | .transfer fault => "transfer failed: " ++ fault.display
  | .invalidConfig fault => "invalid registry configuration: " ++ fault.display
  | .endless => "the value never ends"

/-- Only an interrupted wait may succeed when it is repeated as it was. -/
def isRetryable : ChannelError → Bool
  | .interrupted _ => true
  | _ => false

end ChannelError

end ValueChannels
