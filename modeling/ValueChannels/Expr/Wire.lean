import ValueChannels.Expr.Basic
import ValueChannels.Pack.Decoder

/-!
The packed form of expressions: tags for the constructors, records for calls and arguments.
-/

namespace ValueChannels

open Pack

def Constant.tags : List String :=
  ["Null", "Logical", "Integer", "Double", "Str"]

def Constant.toItem : Constant → Item
  | .null => .ofString "Null"
  | .logical b => .tagged "Logical" (.bool b)
  | .integer n => .tagged "Integer" (.ofInt n.toInt)
  | .double x => .tagged "Double" (.double x)
  | .text content => .tagged "Str" (.ofString content)

def Constant.ofItem? (item : Item) : Option Constant :=
  match item.tag? tags with
  | some (0, none) => some .null
  | some (0, some .nil) => some .null
  | some (1, some content) => content.toBool?.map .logical
  | some (2, some content) => content.toInt32?.map .integer
  | some (3, some content) => content.toDouble?.map .double
  | some (4, some content) => content.toText?.map .text
  | _ => none

namespace Expr

def tags : List String :=
  ["Symbol", "Constant", "Call"]

def callFields : List String :=
  ["function", "args"]

def argumentFields : List String :=
  ["name", "value"]

mutual

def toItem : Expr → Item
  | .symbol name => .tagged "Symbol" (.ofString name)
  | .constant value => .tagged "Constant" value.toItem
  | .call function arguments =>
      .tagged "Call" (.array [function.toItem, .array (argumentItems arguments)])

def argumentItems : List (Argument Expr) → List Item
  | [] => []
  | argument :: rest =>
      let name := match argument.name with
        | some name => .ofString name
        | none => .nil
      .array [name, argument.value.toItem] :: argumentItems rest

end

/-- An argument: a name, which may be nil or missing, and a value. -/
def argumentDecoder (value : Decoder Expr) : Decoder (Argument Expr) :=
  Decoder.record argumentFields fun depth fields =>
    match fields with
    | [name, some item] =>
        match Decoder.optionalField (Decoder.leaf Item.toText?) depth name, value depth item with
        | some name, some value => some ⟨name, value⟩
        | _, _ => none
    | _ => none

def callDecoder (expr : Decoder Expr) : Decoder Expr :=
  Decoder.record callFields fun depth fields =>
    match fields with
    | [some function, some arguments] =>
        match expr depth function, (argumentDecoder expr).list depth arguments with
        | some function, some arguments => some (.call function arguments)
        | _, _ => none
    | _ => none

/-- Decodes an expression of at most `height` calls inside each other. -/
def decoderWithin : Nat → Decoder Expr
  | 0, _, _ => none
  | height + 1, depth, item =>
      match item.tag? tags with
      | some (0, some content) => content.toText?.map .symbol
      | some (1, some content) => (Constant.ofItem? content).map .constant
      | some (2, some content) => callDecoder (decoderWithin height) depth content
      | _ => none

/-- Every call inside another one takes a level of nesting, so the level bounds the height. -/
def decoder : Decoder Expr :=
  fun depth item => decoderWithin (depth + 1) depth item

end Expr

end ValueChannels
