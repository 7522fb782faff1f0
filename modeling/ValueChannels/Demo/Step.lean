import ValueChannels.Builtin.Table
import ValueChannels.Demo.Sample

/-!
The demonstration as a system of steps. A master context opens a channel to each worker,
sends every worker one message per round and collects the answers; a worker answers each
message with its kind and the message itself until it is sent NULL. Master and workers take
their steps in any order, and a step that would have to sleep is simply not taken.
-/

namespace ValueChannels.Demo

/-- What the master has to do, one item after the other. -/
inductive Task where
  | openChannel (worker : Nat)
  | sendMessage (round worker : Nat)
  | collectAnswer (round worker : Nat)
  | dismiss (worker : Nat)
  | closeChannel (worker : Nat)
  deriving DecidableEq

def agenda (workers rounds : Nat) : List Task :=
  let all := List.range workers
  all.map .openChannel
    ++ (List.range rounds).flatMap (fun round =>
      all.map (.sendMessage round) ++ all.map (.collectAnswer round))
    ++ all.map .dismiss ++ all.map .closeChannel

inductive WorkerPhase where
  | start
  | listen (id : Ref)
  | awaitMessage (id : Ref) (operation : Underway)
  | awaitSent (id : Ref) (operation : Underway)
  | leave (id : Ref)
  | finished

structure Worker where
  context : Nat
  key : Int32
  phase : WorkerPhase

/-- Why a run has ended before its tasks were done: with the message of an error, or because a
call ended its thread. -/
inductive Failure where
  | error (message : String)
  | aborted

namespace Failure

/-- The status that a program exits with. -/
def status : Failure → Nat
  | .error _ => 1
  | .aborted => 101

def message? : Failure → Option String
  | .error message => some message
  | .aborted => none

end Failure

/-- The state of a run: its world, the remaining tasks of the master and the operation it has
under way, the ids of its channels, the workers, the lines said so far with the latest first,
and the failure that ended the run, if there was one. -/
structure State where
  exchange : Exchange
  builtins : Builtins
  tasks : List Task
  pending : Option Underway
  ids : List Ref
  workers : List Worker
  lines : List String
  failure : Option Failure

inductive Actor where
  | master
  | worker (index : Nat)
  deriving DecidableEq

namespace State

def masterContext : Nat := 0

def initial (registry : Registry) (workers rounds : Nat) : State :=
  { exchange := ((Exchange.initial registry).addContext "master" Codec.packed).2
    builtins := Builtins.channels
    tasks := agenda workers rounds
    pending := none
    ids := []
    workers := []
    lines := []
    failure := none }

def isOver (state : State) : Bool :=
  state.tasks.isEmpty || state.failure.isSome

def fail (state : State) (reason : String) : State :=
  { state with failure := some (.error reason) }

def abort (state : State) : State :=
  { state with failure := some .aborted }

def id (state : State) (worker : Nat) : Ref :=
  (state.ids[worker]?).getD Ref.null

/-- Calls a builtin function; an error ends the run. -/
def call (state : State) (context : Nat) (name : String) (arguments : List Ref)
    (proceed : CallProgress → State → State) : State :=
  match state.builtins.call context name arguments state.exchange with
  | (.ok progress, exchange) => proceed progress { state with exchange }
  | (.error err, exchange) => { state with exchange }.fail err.message

/-- Attempts an operation under way; there is no next state as long as it has to sleep. -/
def attempt (state : State) (operation : Underway) (proceed : Ref → State → State) :
    Option State :=
  match state.exchange.attempt operation with
  | (none, _) => none
  | (some outcome, exchange) =>
      match Outcome.callValue outcome with
      | .ok value => some (proceed value { state with exchange })
      | .error err => some ({ state with exchange }.fail err.message)

def allocKey (state : State) (key : Int32) : Ref × State :=
  let (ref, heap) := state.exchange.heap.alloc (.vector (.integer [key]))
  (ref, { state with exchange := { state.exchange with heap } })

def setPhase (state : State) (index : Nat) (phase : WorkerPhase) : State :=
  { state with workers := state.workers.modify index fun worker => { worker with phase } }

def finishTask (state : State) : State :=
  { state with tasks := state.tasks.tail, pending := none }

def workerKey (worker : Nat) : Int32 :=
  Int32.ofInt (100 + worker)

/-- Opens the channel to a new worker and starts the worker. -/
def openChannel (state : State) (worker : Nat) : State :=
  let key := workerKey worker
  let (argument, state) := state.allocKey key
  state.call masterContext Builtins.createName [argument] fun progress state =>
    match progress with
    | .underway _ => state
    | .aborted => state.abort
    | .done id =>
        let name := "worker-" ++ toString worker
        let (context, exchange) := state.exchange.addContext name Codec.packed
        { state.finishTask with
          exchange
          ids := state.ids ++ [id]
          workers := state.workers ++ [{ context, key, phase := .start }] }

def startSending (state : State) (worker : Nat) (value : Ref) : State :=
  state.call masterContext Builtins.sendName [state.id worker, value] fun progress state =>
    match progress with
    | .underway operation => { state with pending := some operation }
    | .aborted => state.abort
    | .done _ => state.finishTask

def environments (state : State) : Environments :=
  (state.exchange.contexts[masterContext]?.map Context.environments).getD default

/-- The line about the answer of a worker, which is a list of a kind and a message. -/
def answerLine (heap : Heap) (round worker : Nat) (answer : Ref) : Except String String :=
  let who := "worker-" ++ toString worker
  match heap.items? answer with
  | some [kind, echoed] =>
      match heap.readText kind with
      | .ok kind =>
          .ok ("round " ++ toString round ++ " " ++ who ++ ": " ++ kind ++ " -> "
            ++ Sample.describe heap echoed)
      | .error reason => .error (who ++ ": " ++ reason.message)
  | _ => .error (who ++ " sent a malformed reply")

def completeTask (value : Ref) (state : State) : State :=
  match state.tasks with
  | .collectAnswer round worker :: _ =>
      match answerLine state.exchange.heap round worker value with
      | .ok line => { state.finishTask with lines := line :: state.lines }
      | .error reason => state.fail reason
  | _ => state.finishTask

def beginTask (state : State) : Task → Option State
  | .openChannel worker => some (state.openChannel worker)
  | .sendMessage round worker =>
      let (value, heap) := Sample.message state.exchange.heap state.environments worker round
      some ({ state with exchange := { state.exchange with heap } }.startSending worker value)
  | .collectAnswer _ worker =>
      some (state.call masterContext Builtins.receiveName [state.id worker] fun progress state =>
        match progress with
        | .underway operation => { state with pending := some operation }
        | .aborted => state.abort
        | .done value => completeTask value state)
  | .dismiss worker => some (state.startSending worker Ref.null)
  | .closeChannel worker =>
      match state.workers[worker]?.map Worker.phase with
      | some .finished =>
          some (state.call masterContext Builtins.closeName [state.id worker] fun _ state =>
            state.finishTask)
      | _ => none

def stepMaster (state : State) : Option State :=
  match state.pending, state.tasks with
  | some operation, _ => state.attempt operation completeTask
  | none, task :: _ => state.beginTask task
  | none, [] => none

/-- Sends a message back together with the name of its kind. -/
def answer (state : State) (index context : Nat) (id message : Ref) : State :=
  let kind := (state.exchange.heap.kind message).name
  let (label, heap) := Sample.allocText state.exchange.heap kind
  let (reply, heap) := heap.alloc (.list [label, message])
  let replying := { state with exchange := { state.exchange with heap } }
  replying.call context Builtins.sendName [id, reply] fun progress state =>
    match progress with
    | .underway operation => state.setPhase index (.awaitSent id operation)
    | .aborted => state.abort
    | .done _ => state.setPhase index (.listen id)

def stepWorker (state : State) (index : Nat) : Option State :=
  match state.workers[index]? with
  | none => none
  | some { context, key, phase } =>
      match phase with
      | .start =>
          let (argument, state) := state.allocKey key
          some (state.call context Builtins.getName [argument] fun progress state =>
            match progress with
            | .done id => state.setPhase index (.listen id)
            | .aborted => state.abort
            | .underway _ => state)
      | .listen id =>
          some (state.call context Builtins.receiveName [id] fun progress state =>
            match progress with
            | .underway operation => state.setPhase index (.awaitMessage id operation)
            | .aborted => state.abort
            | .done _ => state)
      | .awaitMessage id operation =>
          state.attempt operation fun message state =>
            if state.exchange.heap.isNull message then state.setPhase index (.leave id)
            else state.answer index context id message
      | .awaitSent id operation =>
          state.attempt operation fun _ state => state.setPhase index (.listen id)
      | .leave id =>
          some (state.call context Builtins.closeName [id] fun _ state =>
            state.setPhase index .finished)
      | .finished => none

/-- The state after a step of an actor, if that can take one. A run that is over takes none. -/
def step (state : State) (actor : Actor) : Option State :=
  if state.isOver then none
  else match actor with
    | .master => state.stepMaster
    | .worker index => state.stepWorker index

/-- The state after a step of the first actor that can take one. -/
def advance (state : State) : Option State :=
  (Actor.master :: (List.range state.workers.length).map .worker).findSome? state.step

/-- The state after at most so many steps. -/
def runFor : Nat → State → State
  | 0, state => state
  | steps + 1, state =>
      match state.advance with
      | some next => runFor steps next
      | none => state

/-- Enough steps for a run: a task takes the master at most two, and a worker takes four for each
message and two more at each end. -/
def stepBound (workers rounds : Nat) : Nat :=
  2 * (agenda workers rounds).length + workers * (4 * (rounds + 1) + 4)

def run (registry : Registry) (workers rounds : Nat) : State :=
  runFor (stepBound workers rounds) (initial registry workers rounds)

end State

end ValueChannels.Demo
