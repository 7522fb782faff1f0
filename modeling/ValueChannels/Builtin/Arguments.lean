import ValueChannels.Exchange.Basic

/-!
Arguments of builtin functions: how they are read from values, and the errors of a call.
Numbers are read exactly: a double counts as an integer only when it is a whole number that
fits 64 bits.
-/

namespace ValueChannels

inductive ReadError where
  | expectedInteger (found : ValueKind)
  | expectedString (found : ValueKind)
  | invalidId (raw : Int)
  deriving DecidableEq

def ReadError.message : ReadError → String
  | .expectedInteger found => "Expected integer scalar, got " ++ found.name
  | .expectedString found => "Expected string scalar, got " ++ found.name
  | .invalidId raw => "Invalid channel id " ++ toString raw

inductive ArgumentFault where
  | arity (function : String) (expected given : Nat)
  | missing (function : String) (index : Nat) (expected : String)
  | rejected (function : String) (index : Nat) (reason : ReadError)
  | wideId (raw : Int)
  | described (text : String)
  deriving DecidableEq

def ArgumentFault.message : ArgumentFault → String
  | .arity function expected given =>
      function ++ ": expected " ++ toString expected ++ " arguments, got " ++ toString given
  | .missing function index expected =>
      function ++ ": missing argument " ++ toString index ++ " (expected " ++ expected ++ ")"
  | .rejected function index reason =>
      function ++ ": argument " ++ toString index ++ ": " ++ reason.message
  | .wideId raw => "channel id " ++ toString raw ++ " does not fit an integer value"
  | .described text => text

inductive BuiltinError where
  | unknownFunction (name : String)
  | argument (fault : ArgumentFault)
  | channel (err : ChannelError)
  deriving DecidableEq

def BuiltinError.message : BuiltinError → String
  | .unknownFunction name => "unknown function '" ++ name ++ "'"
  | .argument fault => fault.message
  | .channel err => err.message

namespace Heap

def readInteger (heap : Heap) (ref : Ref) : Except ReadError Int :=
  let refuse : Except ReadError Int := .error (.expectedInteger (heap.kind ref))
  match heap.vector? ref with
  | some (.integer [n]) => .ok n.toInt
  | some (.double [x]) =>
      match x.whole? with
      | some n => if -0x8000000000000000 ≤ n ∧ n < 0x8000000000000000 then .ok n else refuse
      | none => refuse
  | _ => refuse

def readText (heap : Heap) (ref : Ref) : Except ReadError String :=
  match heap.vector? ref with
  | some (.character [text]) => .ok text
  | _ => .error (.expectedString (heap.kind ref))

def readHandle (heap : Heap) (ref : Ref) : Except ReadError Handle :=
  match heap.readInteger ref with
  | .error err => .error err
  | .ok raw =>
      match Handle.ofRaw? raw with
      | some handle => .ok handle
      | none => .error (.invalidId raw)

end Heap

namespace Arguments

def checkCount (function : String) (arguments : List Ref) (expected : Nat) :
    Except BuiltinError Unit :=
  if arguments.length = expected then .ok ()
  else .error (.argument (.arity function expected arguments.length))

def readAt {α : Type} (function expected : String) (extract : Ref → Except ReadError α)
    (arguments : List Ref) (index : Nat) : Except BuiltinError α :=
  match arguments[index]? with
  | none => .error (.argument (.missing function index expected))
  | some ref =>
      match extract ref with
      | .ok result => .ok result
      | .error reason => .error (.argument (.rejected function index reason))

def integerAt (function : String) (heap : Heap) (arguments : List Ref) (index : Nat) :
    Except BuiltinError Int :=
  readAt function "integer" heap.readInteger arguments index

def handleAt (function : String) (heap : Heap) (arguments : List Ref) (index : Nat) :
    Except BuiltinError Handle :=
  readAt function "channel id" heap.readHandle arguments index

end Arguments

end ValueChannels
