import ValueChannels.Context.Environments
import ValueChannels.Expr.Printer
import ValueChannels.Value.Inspect
import ValueChannels.Value.Update

/-!
The messages that the demonstration sends around, one shape per round, and the line that
describes a value it got back.
-/

namespace ValueChannels.Sample

/-- A whole number as a 32-bit integer, with the higher bits cut off. -/
def int32 (n : Nat) : Int32 :=
  Int32.ofInt n

def allocInteger (heap : Heap) (n : Nat) : Ref × Heap :=
  heap.alloc (.vector (.integer [int32 n]))

def allocText (heap : Heap) (text : String) : Ref × Heap :=
  heap.alloc (.vector (.character [text]))

def countUp (heap : Heap) (round : Nat) : Ref × Heap :=
  let numbers := (List.range ((int32 round).toInt + 1).toNat).map int32
  heap.alloc (.vector (.integer numbers))

def coordinates (heap : Heap) (worker round : Nat) : Ref × Heap :=
  let (vector, heap) :=
    heap.alloc (.vector (.double [Double.ofInt worker, Double.ofInt round]))
  let (names, heap) := heap.alloc (.vector (.character ["worker", "round"]))
  heap.setAttribute vector "names" names

def task (heap : Heap) (worker round : Nat) : Ref × Heap :=
  let (label, heap) := allocText heap "task"
  let (number, heap) := allocInteger heap worker
  let (even, heap) := heap.alloc (.vector (.logical [round % 2 == 0]))
  let (inner, heap) := heap.alloc (.list [number, even])
  heap.alloc (.list [label, inner])

def scaling (heap : Heap) (environments : Environments) (round : Nat) : Ref × Heap :=
  let (env, heap) := heap.allocLocal environments.global
  let (scale, heap) := heap.alloc (.vector (.double [Double.ofInt round]))
  let heap := heap.define env "scale" scale
  let body := Expr.call (.symbol "*") [⟨none, .symbol "x"⟩, ⟨none, .symbol "scale"⟩]
  heap.alloc (.closure { formals := ["x"], body, env })

def nested (heap : Heap) (environments : Environments) (round : Nat) : Ref × Heap :=
  let (outer, heap) := heap.allocLocal environments.global
  let (one, heap) := allocInteger heap 1
  let heap := heap.define outer "depth" one
  let (inner, heap) := heap.allocLocal outer
  let (two, heap) := allocInteger heap 2
  let heap := heap.define inner "depth" two
  let (number, heap) := allocInteger heap round
  (inner, heap.define inner "round" number)

def delayed (heap : Heap) : Ref × Heap :=
  let expr := Expr.call (.symbol "+") [⟨none, .symbol "round"⟩, ⟨none, .constant (.integer 1)⟩]
  heap.alloc (.promise { expr, env := none, value := none })

def message (heap : Heap) (environments : Environments) (worker round : Nat) : Ref × Heap :=
  match round % 6 with
  | 0 => countUp heap round
  | 1 => coordinates heap worker round
  | 2 => task heap worker round
  | 3 => scaling heap environments round
  | 4 => nested heap environments round
  | _ => delayed heap

/-- The number of local environments from a value on up the chain of parents. -/
def localDepth (heap : Heap) : Nat → Option Ref → Nat
  | 0, _ => 0
  | _ + 1, none => 0
  | steps + 1, some ref =>
      match heap.frame? ref with
      | some frame => if frame.kind.isLocal then 1 + localDepth heap steps frame.parent else 0
      | none => 0

def describe (heap : Heap) (ref : Ref) : String :=
  let listed (names : List String) : String := "[" ++ String.intercalate ", " names ++ "]"
  match heap.body ref with
  | .environment frame =>
      "environment " ++ listed frame.bindings.names ++ " depth "
        ++ toString (localDepth heap (heap.size + 1) (some ref))
  | .closure closure =>
      "closure (" ++ String.intercalate ", " closure.formals ++ ") capturing "
        ++ listed (heap.bindings closure.env).names
  | .promise promise =>
      "promise " ++ promise.expr.deparse ++ " evaluated=" ++ Text.inspectBool promise.value.isSome
  | body =>
      let content := match body with
        | .vector data => data.inspectData
        | other => "length " ++ toString other.length
      let line := body.kind.name ++ " " ++ content
      match heap.attributes ref with
      | some attributes => line ++ " attrs " ++ listed attributes.names
      | none => line

end ValueChannels.Sample
