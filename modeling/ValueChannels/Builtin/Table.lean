import ValueChannels.Builtin.Arguments

/-!
Builtin functions by name, and the functions on channels among them. Ids of channels are
raw handles: positive for whoever created the channel, negative for whoever looked it up.
-/

namespace ValueChannels

/-- What a call has come to: a value, an operation that still has to be attempted, or the end of the
thread that called, which gets no answer. -/
inductive CallProgress where
  | done (value : Ref)
  | underway (operation : Underway)
  | aborted

/-- A builtin function, called by a context on arguments. -/
abbrev BuiltinFunction :=
  Nat → List Ref → Exchange → Except BuiltinError CallProgress × Exchange

abbrev Builtins := Mapping BuiltinFunction

/-- The value of a call whose operation has ended: what was received, or NULL. -/
def Outcome.callValue : Outcome → Except BuiltinError Ref
  | .ok value => .ok (value.getD Ref.null)
  | .error err => .error (.channel err)

namespace Exchange

/-- The id of a channel as an integer value, which has 32 bits. -/
def allocHandle (exchange : Exchange) (handle : Handle) : Except BuiltinError Ref × Exchange :=
  let raw := handle.toRaw
  if -0x80000000 ≤ raw ∧ raw < 0x80000000 then
    let (ref, heap) := exchange.heap.alloc (.vector (.integer [Int32.ofInt raw]))
    (.ok ref, { exchange with heap })
  else
    (.error (.argument (.wideId raw)), exchange)

end Exchange

namespace Builtins

def createName : String := "channel.create"

def getName : String := "channel.get"

def closeName : String := "channel.close"

def sendName : String := "channel.send"

def receiveName : String := "channel.receive"

def pollName : String := "channel.poll"

def keyArgument (function : String) (heap : Heap) (arguments : List Ref) :
    Except BuiltinError Int :=
  match Arguments.checkCount function arguments 1 with
  | .error err => .error err
  | .ok () => Arguments.integerAt function heap arguments 0

/-- The handle that a function of the given arity is given first. -/
def handleArgument (function : String) (heap : Heap) (arguments : List Ref) (arity : Nat) :
    Except BuiltinError Handle :=
  match Arguments.checkCount function arguments arity with
  | .error err => .error err
  | .ok () => Arguments.handleAt function heap arguments 0

/-- Answers an id for the handle that an operation on a key has found. -/
def answerHandle (found : Except ChannelError Handle × Exchange) :
    Except BuiltinError CallProgress × Exchange :=
  match found with
  | (.error err, exchange) => (.error (.channel err), exchange)
  | (.ok handle, exchange) =>
      match exchange.allocHandle handle with
      | (.ok ref, exchange) => (.ok (.done ref), exchange)
      | (.error err, exchange) => (.error err, exchange)

def answerStarted (started : Except ChannelError Underway × Exchange) :
    Except BuiltinError CallProgress × Exchange :=
  match started with
  | (.ok underway, exchange) => (.ok (.underway underway), exchange)
  | (.error err, exchange) => (.error (.channel err), exchange)

def create : BuiltinFunction := fun _ arguments exchange =>
  match keyArgument createName exchange.heap arguments with
  | .error err => (.error err, exchange)
  | .ok key =>
      match exchange.create key with
      | (some created, exchange) => answerHandle (created, exchange)
      | (none, exchange) => (.ok .aborted, exchange)

def get : BuiltinFunction := fun _ arguments exchange =>
  match keyArgument getName exchange.heap arguments with
  | .error err => (.error err, exchange)
  | .ok key => answerHandle (exchange.get key)

def close : BuiltinFunction := fun _ arguments exchange =>
  match handleArgument closeName exchange.heap arguments 1 with
  | .error err => (.error err, exchange)
  | .ok handle =>
      match exchange.close handle with
      | (.ok (), exchange) => (.ok (.done Ref.null), exchange)
      | (.error err, exchange) => (.error (.channel err), exchange)

def send : BuiltinFunction := fun context arguments exchange =>
  match handleArgument sendName exchange.heap arguments 2 with
  | .error err => (.error err, exchange)
  | .ok handle =>
      let value := (arguments[1]?).getD Ref.null
      answerStarted (exchange.startSend context handle value)

def receive : BuiltinFunction := fun context arguments exchange =>
  match handleArgument receiveName exchange.heap arguments 1 with
  | .error err => (.error err, exchange)
  | .ok handle => answerStarted (exchange.startReceive context handle)

/-- The next message, or NULL when none is waiting. -/
def poll : BuiltinFunction := fun context arguments exchange =>
  match handleArgument pollName exchange.heap arguments 1 with
  | .error err => (.error err, exchange)
  | .ok handle =>
      match exchange.poll context handle with
      | (.ok value, exchange) => (.ok (.done (value.getD Ref.null)), exchange)
      | (.error err, exchange) => (.error (.channel err), exchange)

/-- Adds functions under their names and answers the names. -/
def register (builtins : Builtins) (functions : List (String × BuiltinFunction)) :
    List String × Builtins :=
  (functions.map Prod.fst,
    functions.foldl (fun table entry => table.insert entry.1 entry.2) builtins)

def channelFunctions : List (String × BuiltinFunction) :=
  [(createName, create), (getName, get), (closeName, close), (sendName, send),
    (receiveName, receive), (pollName, poll)]

/-- The table of the functions on channels. -/
def channels : Builtins :=
  (register Mapping.empty channelFunctions).2

def sortedNames (builtins : Builtins) : List String :=
  builtins.names.mergeSort fun first second => !decide (second < first)

def inspect (builtins : Builtins) : String :=
  Text.record "Builtins" [("names", Text.bracketed (builtins.sortedNames.map Text.quoted))]

def call (builtins : Builtins) (context : Nat) (name : String) (arguments : List Ref)
    (exchange : Exchange) : Except BuiltinError CallProgress × Exchange :=
  match builtins.get? name with
  | some function => function context arguments exchange
  | none => (.error (.unknownFunction name), exchange)

end Builtins

end ValueChannels
