import ValueChannels.Demo.Step
import ValueChannels.Exchange.Config

/-!
The command line of the demonstration: its options, and what a run prints. A usage error
ends the program with status 2, any other error with status 1.
-/

namespace ValueChannels.Demo

structure Options where
  workers : Nat
  rounds : Nat
  config : Option String
  initialCapacity : Option Nat
  events : Bool
  deriving DecidableEq

/-- The options seen so far on a command line. -/
structure OptionsDraft where
  workers : Option Nat
  rounds : Option Nat
  config : Option String
  initialCapacity : Option Nat
  events : Bool

inductive Invocation where
  | run (options : Options)
  | help
  | misuse
  deriving DecidableEq

/-- The options that take a value. -/
inductive ValueOption where
  | workers
  | rounds
  | config
  | initialCapacity
  deriving DecidableEq

namespace OptionsDraft

def start : OptionsDraft :=
  { workers := none, rounds := none, config := none, initialCapacity := none, events := false }

def complete (draft : OptionsDraft) : Options :=
  { workers := draft.workers.getD 3
    rounds := draft.rounds.getD 6
    config := draft.config
    initialCapacity := draft.initialCapacity
    events := draft.events }

/-- A natural number of 64 bits, with an optional plus sign. -/
def natural? (text : List Char) : Option Nat :=
  let digits := match text with
    | '+' :: rest => rest
    | _ => text
  (Numeral.natural? digits).filter fun n => n < UInt64.size

/-- Enters the value of an option, which may not be given twice. -/
def enter (draft : OptionsDraft) (option : ValueOption) (value : List Char) :
    Option OptionsDraft :=
  match option with
  | .workers =>
      match draft.workers, natural? value with
      | none, some n => some { draft with workers := some n }
      | _, _ => none
  | .rounds =>
      match draft.rounds, natural? value with
      | none, some n => some { draft with rounds := some n }
      | _, _ => none
  | .config =>
      if draft.config.isSome || value.isEmpty then none
      else some { draft with config := some (String.ofList value) }
  | .initialCapacity =>
      match draft.initialCapacity, natural? value with
      | none, some n => some { draft with initialCapacity := some n }
      | _, _ => none

end OptionsDraft

def longOption? (name : String) : Option ValueOption :=
  if name = "workers" then some .workers
  else if name = "rounds" then some .rounds
  else if name = "config" then some .config
  else if name = "initial-capacity" then some .initialCapacity
  else none

def shortOption? (letter : Char) : Option ValueOption :=
  if letter = 'w' then some .workers else if letter = 'r' then some .rounds else none

/-- Whether an argument can be the value of the option in front of it: it is no option itself. -/
def isValue (argument : List Char) : Bool :=
  argument.head? != some '-' || argument == ['-']

/-- What stands in front of the first equals sign, and what behind it. -/
def splitAtEquals (text : List Char) : List Char × Option (List Char) :=
  match text.dropWhile (· != '=') with
  | [] => (text, none)
  | _ :: value => (text.takeWhile (· != '='), some value)

/-- What one argument brings: options that are settled, an option whose value is the next
argument, the mark behind which no options come, or the end of the reading. -/
inductive ArgumentEffect where
  | settled (draft : OptionsDraft)
  | awaits (option : ValueOption)
  | terminator
  | ends (invocation : Invocation)

def enterValue (draft : OptionsDraft) (option : ValueOption) (value : List Char) :
    ArgumentEffect :=
  match draft.enter option value with
  | some draft => .settled draft
  | none => .ends .misuse

/-- An argument that starts with two dashes. -/
def readLong (draft : OptionsDraft) (body : List Char) : ArgumentEffect :=
  let (name, attached) := splitAtEquals body
  match longOption? (String.ofList name), attached with
  | some option, some value => enterValue draft option value
  | some option, none => .awaits option
  | none, some _ => .ends .misuse
  | none, none =>
      if name = "help".toList then .ends .help
      else if name = "json".toList ∧ !draft.events then .settled { draft with events := true }
      else .ends .misuse

/-- An argument that starts with one dash and a letter. The value may follow at once, with or
without an equals sign. -/
def readShort (draft : OptionsDraft) (letter : Char) (body : List Char) : ArgumentEffect :=
  if letter = 'h' then .ends .help
  else
    match shortOption? letter, body with
    | none, _ => .ends .misuse
    | some option, [] => .awaits option
    | some option, first :: more =>
        enterValue draft option (if first = '=' then more else first :: more)

/-- An argument where an option may stand. -/
def readArgument (draft : OptionsDraft) (argument : List Char) : ArgumentEffect :=
  match argument with
  | ['-', '-'] => .terminator
  | '-' :: '-' :: body => readLong draft body
  | '-' :: letter :: body => readShort draft letter body
  | _ => .ends .misuse

/-- Reads the arguments in order; the first fault, or the first request for help, decides. -/
def readArguments (draft : OptionsDraft) (awaited : Option ValueOption) :
    List (List Char) → Invocation
  | [] => if awaited.isSome then .misuse else .run draft.complete
  | argument :: rest =>
      match awaited with
      | some option =>
          if isValue argument then
            match draft.enter option argument with
            | some draft => readArguments draft none rest
            | none => .misuse
          else .misuse
      | none =>
          match readArgument draft argument with
          | .settled draft => readArguments draft none rest
          | .awaits option => readArguments draft (some option) rest
          | .terminator => if rest.isEmpty then .run draft.complete else .misuse
          | .ends invocation => invocation

def Invocation.ofArguments (arguments : List String) : Invocation :=
  readArguments OptionsDraft.start none (arguments.map String.toList)

/-- What is found under the path of a configuration: nothing that can be opened, something that
cannot be read, or a text. -/
inductive ConfigFile where
  | missing
  | unreadable
  | content (text : String)

/-- What the program leaves behind: its exit status, the lines on its standard output, the events
it shows there instead when it is asked for them, and the message of the error that ended it. -/
structure Report where
  status : Nat
  lines : List String
  events : List Event
  error : Option String

namespace Report

def ofError (message : String) : Report :=
  { status := 1, lines := [], events := [], error := some message }

end Report

/-- The configuration of a run, or the error that it cannot be had. -/
def configOf (options : Options) (read : String → ConfigFile) : Except String RegistryConfig :=
  let adjust (config : RegistryConfig) : RegistryConfig :=
    { config with initialCapacity := options.initialCapacity.getD config.initialCapacity }
  match options.config with
  | none => .ok (adjust RegistryConfig.standard)
  | some path =>
      match read path with
      | .missing => .error ("opening " ++ path)
      | .unreadable => .error ("reading " ++ path)
      | .content text =>
          match RegistryConfig.ofText? text with
          | some config => .ok (adjust config)
          | none => .error ("reading " ++ path)

/-- What a run that stops in a state leaves behind. -/
def State.report (state : State) (events : Bool) : Report :=
  { status := state.failure.elim 0 Failure.status
    lines := if events then [] else state.lines.reverse
    events := state.exchange.takeEvents.1
    error := state.failure.bind Failure.message? }

def perform (options : Options) (read : String → ConfigFile) : Report :=
  match configOf options read with
  | .error message => Report.ofError message
  | .ok config =>
      match Registry.create config with
      | .error err => Report.ofError err.message
      | .ok registry =>
          let observed :=
            if options.events then { registry with log := some [] } else registry
          (State.run observed options.workers options.rounds).report options.events

def usageLine : String :=
  "Usage: ferry [OPTIONS]"

def helpLines : List String :=
  ["Ferry demo driver options",
    "",
    usageLine,
    "",
    "Options:",
    "  -w, --workers <WORKERS>",
    "          Number of worker contexts [default: 3]",
    "  -r, --rounds <ROUNDS>",
    "          Messages each worker answers before shutting down [default: 6]",
    "      --config <CONFIG>",
    "          Registry configuration file (JSON)",
    "      --initial-capacity <INITIAL_CAPACITY>",
    "          Overrides the initial registry capacity",
    "      --json",
    "          Print telemetry events as JSON lines on stdout",
    "  -h, --help",
    "          Print help"]

def Invocation.report (invocation : Invocation) (read : String → ConfigFile) : Report :=
  match invocation with
  | .misuse => { status := 2, lines := [], events := [], error := none }
  | .help => { status := 0, lines := helpLines, events := [], error := none }
  | .run options => perform options read

end ValueChannels.Demo
