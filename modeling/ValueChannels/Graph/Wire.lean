import ValueChannels.Expr.Wire
import ValueChannels.Graph.Node

/-!
The packed form of nodes.
-/

namespace ValueChannels

open Pack

def EnvironmentKind.tags : List String :=
  ["Empty", "Base", "BaseNamespace", "Global", "Package", "Namespace", "Local"]

def EnvironmentKind.toItem : EnvironmentKind → Item
  | .empty => .ofString "Empty"
  | .base => .ofString "Base"
  | .baseNamespace => .ofString "BaseNamespace"
  | .global => .ofString "Global"
  | .packageEnv name => .tagged "Package" (.ofString name)
  | .namespaceEnv name => .tagged "Namespace" (.ofString name)
  | .localEnv => .ofString "Local"

/-- A kind without a name may also be written as a tag with nil behind it. -/
def EnvironmentKind.ofItem? (item : Item) : Option EnvironmentKind :=
  match item.tag? tags with
  | some (4, some content) => content.toText?.map .packageEnv
  | some (5, some content) => content.toText?.map .namespaceEnv
  | some (index, none) => plain index
  | some (index, some .nil) => plain index
  | _ => none
where
  plain : Nat → Option EnvironmentKind
    | 0 => some .empty
    | 1 => some .base
    | 2 => some .baseNamespace
    | 3 => some .global
    | 6 => some .localEnv
    | _ => none

namespace Node

def itemTags : List String :=
  ["Null", "Unbound", "Logical", "Integer", "Double", "Character", "List", "Environment",
    "EnvironmentRef", "Named", "Promise", "Closure", "Language", "Connection"]

def nodeFields : List String :=
  ["item", "attributes"]

def environmentFields : List String :=
  ["id", "bindings", "parent"]

def promiseFields : List String :=
  ["expr", "env", "value"]

def closureFields : List String :=
  ["formals", "body", "env"]

def connectionFields : List String :=
  ["id", "description", "class"]

def vectorItem : AtomicVector → Item
  | .logical data => .tagged "Logical" (.array (data.map .bool))
  | .integer data => .tagged "Integer" (.array (data.map fun n => .ofInt n.toInt))
  | .double data => .tagged "Double" (.array (data.map .double))
  | .character data => .tagged "Character" (.array (data.map .ofString))

end Node

mutual

def Node.toItem : Node → Item
  | .mk item attributes => .array [item.toItem, .array (Node.entryItems attributes)]

def NodeItem.toItem : NodeItem → Item
  | .null => .ofString "Null"
  | .unbound => .ofString "Unbound"
  | .vector data => Node.vectorItem data
  | .list items => .tagged "List" (.array (Node.nodeItems items))
  | .environment id bindings parent =>
      .tagged "Environment"
        (.array [.unsigned id.toNat, .array (Node.entryItems bindings), Node.optionalItem parent])
  | .environmentRef id => .tagged "EnvironmentRef" (.unsigned id.toNat)
  | .named kind => .tagged "Named" kind.toItem
  | .promise expr env value =>
      .tagged "Promise" (.array [expr.toItem, Node.optionalItem env, Node.optionalItem value])
  | .closure formals body env =>
      .tagged "Closure" (.array [.array (formals.map .ofString), body.toItem, env.toItem])
  | .language expr => .tagged "Language" expr.toItem
  | .connection connection =>
      .tagged "Connection"
        (.array [.unsigned connection.id.toNat, .ofString connection.description,
          .ofString connection.className])

def Node.optionalItem : Option Node → Item
  | none => .nil
  | some node => node.toItem

def Node.nodeItems : List Node → List Item
  | [] => []
  | node :: rest => node.toItem :: Node.nodeItems rest

def Node.entryItems : List (String × Node) → List Item
  | [] => []
  | (name, node) :: rest => .array [.ofString name, node.toItem] :: Node.entryItems rest

end

namespace Node

def entriesDecoder (node : Decoder Node) : Decoder (List (String × Node)) :=
  ((Decoder.leaf Item.toText?).pair node).list

def environmentDecoder (node : Decoder Node) : Decoder NodeItem :=
  Decoder.record environmentFields fun depth fields =>
    match fields with
    | [some id, some bindings, parent] =>
        match id.toUInt32?, entriesDecoder node depth bindings, node.optionalField depth parent with
        | some id, some bindings, some parent => some (.environment id bindings parent)
        | _, _, _ => none
    | _ => none

def promiseDecoder (node : Decoder Node) : Decoder NodeItem :=
  Decoder.record promiseFields fun depth fields =>
    match fields with
    | [some expr, env, value] =>
        match Expr.decoder depth expr, node.optionalField depth env,
            node.optionalField depth value with
        | some expr, some env, some value => some (.promise expr env value)
        | _, _, _ => none
    | _ => none

def closureDecoder (node : Decoder Node) : Decoder NodeItem :=
  Decoder.record closureFields fun depth fields =>
    match fields with
    | [some formals, some body, some env] =>
        match (Decoder.leaf Item.toText?).list depth formals, Expr.decoder depth body,
            node depth env with
        | some formals, some body, some env => some (.closure formals body env)
        | _, _, _ => none
    | _ => none

def connectionDecoder : Decoder NodeItem :=
  Decoder.record connectionFields fun _ fields =>
    match fields with
    | [some id, some description, some className] =>
        match id.toUInt32?, description.toText?, className.toText? with
        | some id, some description, some className =>
            some (.connection { id, description, className })
        | _, _, _ => none
    | _ => none

/-- The content of a node, given how the nodes inside it are decoded. -/
def itemDecoder (node : Decoder Node) : Decoder NodeItem :=
  fun depth item =>
    match item.tag? itemTags with
    | some (0, none) | some (0, some .nil) => some .null
    | some (1, none) | some (1, some .nil) => some .unbound
    | some (2, some content) =>
        ((Decoder.leaf Item.toBool?).list depth content).map fun data => .vector (.logical data)
    | some (3, some content) =>
        ((Decoder.leaf Item.toInt32?).list depth content).map fun data => .vector (.integer data)
    | some (4, some content) =>
        ((Decoder.leaf Item.toDouble?).list depth content).map fun data => .vector (.double data)
    | some (5, some content) =>
        ((Decoder.leaf Item.toText?).list depth content).map fun data => .vector (.character data)
    | some (6, some content) => (node.list depth content).map .list
    | some (7, some content) => environmentDecoder node depth content
    | some (8, some content) => content.toUInt32?.map .environmentRef
    | some (9, some content) => (EnvironmentKind.ofItem? content).map .named
    | some (10, some content) => promiseDecoder node depth content
    | some (11, some content) => closureDecoder node depth content
    | some (12, some content) => (Expr.decoder depth content).map .language
    | some (13, some content) => connectionDecoder depth content
    | _ => none

/-- Decodes a node of at most `height` nodes inside each other. -/
def decoderWithin : Nat → Decoder Node
  | 0, _, _ => none
  | height + 1, depth, item =>
      Decoder.record nodeFields
        (fun depth fields =>
          match fields with
          | [some content, some attributes] =>
              match itemDecoder (decoderWithin height) depth content,
                  entriesDecoder (decoderWithin height) depth attributes with
              | some item, some attributes => some (.mk item attributes)
              | _, _ => none
          | _ => none)
        depth item

/-- Every node inside another one takes a level of nesting, so the level bounds the height. -/
def decoder : Decoder Node :=
  fun depth item => decoderWithin (depth + 1) depth item

end Node

end ValueChannels
