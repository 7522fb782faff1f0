import ValueChannels.Message.ToValue
import ValueChannels.Proofs.Expr.Packing
import ValueChannels.Proofs.Expr.Rereading
import ValueChannels.Proofs.Graph.Reading
import ValueChannels.Proofs.Pack.RoundTrip

/-!
The packed form of nodes is decoded to the nodes it was made from, and bytes that are within the
limits of the format are read back. Main statements: `Node.decodes`, `Codec.readPacked_write`.
-/

namespace ValueChannels

open Pack

theorem EnvironmentKind.ofItem?_toItem (kind : EnvironmentKind) :
    EnvironmentKind.ofItem? kind.toItem = some kind := by
  cases kind with
  | empty =>
      have index : (Item.ofString "Empty").nameIndex? tags = some (some 0) := by decide +kernel
      simp only [ofItem?, toItem, Item.tag?_ofString index, ofItem?.plain]
  | base =>
      have index : (Item.ofString "Base").nameIndex? tags = some (some 1) := by decide +kernel
      simp only [ofItem?, toItem, Item.tag?_ofString index, ofItem?.plain]
  | baseNamespace =>
      have index : (Item.ofString "BaseNamespace").nameIndex? tags = some (some 2) := by
        decide +kernel
      simp only [ofItem?, toItem, Item.tag?_ofString index, ofItem?.plain]
  | global =>
      have index : (Item.ofString "Global").nameIndex? tags = some (some 3) := by decide +kernel
      simp only [ofItem?, toItem, Item.tag?_ofString index, ofItem?.plain]
  | packageEnv name =>
      have index : (Item.ofString "Package").nameIndex? tags = some (some 4) := by decide +kernel
      simp only [ofItem?, toItem, Item.tag?_tagged _ index, Item.toText?_ofString, Option.map_some]
  | namespaceEnv name =>
      have index : (Item.ofString "Namespace").nameIndex? tags = some (some 5) := by decide +kernel
      simp only [ofItem?, toItem, Item.tag?_tagged _ index, Item.toText?_ofString, Option.map_some]
  | localEnv =>
      have index : (Item.ofString "Local").nameIndex? tags = some (some 6) := by decide +kernel
      simp only [ofItem?, toItem, Item.tag?_ofString index, ofItem?.plain]

@[simp] theorem EnvironmentKind.levels_toItem (kind : EnvironmentKind) :
    kind.toItem.levels = 0 := by
  cases kind <;> simp [toItem, Item.ofString, Item.levels]

namespace Node

def entryItem (entry : String × Node) : Item :=
  .array [.ofString entry.1, entry.2.toItem]

theorem entryItems_eq (entries : List (String × Node)) :
    entryItems entries = entries.map entryItem := by
  induction entries with
  | nil => rw [entryItems, List.map_nil]
  | cons entry rest ih =>
      rw [entryItems, List.map_cons, ih]
      rfl

theorem nodeItems_eq (nodes : List Node) : nodeItems nodes = nodes.map toItem := by
  induction nodes with
  | nil => rw [nodeItems, List.map_nil]
  | cons node rest ih => rw [nodeItems, List.map_cons, ih]

section Parts

variable {limit : Nat} {decoder : Decoder Node}

theorem decodes_entries {entries : List (String × Node)}
    (ofParts : ∀ part ∈ entries.map Prod.snd, Decodes limit decoder part.toItem part) :
    Decodes limit (entriesDecoder decoder) (.array (entryItems entries)) entries := by
  rw [entryItems_eq]
  apply Decodes.list
  intro entry member
  have named : Decodes limit (Decoder.leaf Item.toText?) (Item.ofString entry.1) entry.1 :=
    .leaf rfl (Item.toText?_ofString entry.1)
  exact named.pair (ofParts entry.2 (List.mem_map_of_mem member))

theorem decodes_optional {optional : Option Node} {depth : Nat}
    (ofParts : ∀ part ∈ optional.toList, Decodes limit decoder part.toItem part)
    (bound : depth < limit) : decoder.optionalField depth (some (optionalItem optional)) =
      if (optionalItem optional).levels ≤ depth then some optional else none := by
  cases optional with
  | none => rfl
  | some node =>
      have something : node.toItem ≠ .nil := by
        cases node
        rw [toItem]
        exact fun impossible => nomatch impossible
      have held := ofParts node List.mem_cons_self
      rw [optionalItem]
      exact Decodes.optional something held bound

theorem decodes_environment {id : UInt32} {number : Item} {bindings : List (String × Node)}
    {parent : Option Node} (flat : number.levels = 0) (read : number.toUInt32? = some id)
    (ofParts : ∀ part ∈ (NodeItem.environment id bindings parent).parts,
      Decodes limit decoder part.toItem part) :
    Decodes limit (environmentDecoder decoder)
      (.array [number, .array (entryItems bindings), optionalItem parent])
      (.environment id bindings parent) := by
  apply Decodes.record rfl
  intro depth bound
  have inside : depth < limit := by omega
  have defined := decodes_entries (fun part member => ofParts part (List.mem_append_left _ member))
    depth inside
  have enclosing := decodes_optional
    (fun part member => ofParts part (List.mem_append_right _ member)) inside
  simp only [List.map_cons, List.map_nil, read, defined, enclosing, Item.levelsAll, flat, Nat.max_le]
  by_cases here : (Item.array (entryItems bindings)).levels ≤ depth <;>
    by_cases there : (optionalItem parent).levels ≤ depth <;>
    simp [here, there]

theorem decodes_promise {expr : Expr} {env value : Option Node}
    (ofParts : ∀ part ∈ (NodeItem.promise expr env value).parts,
      Decodes limit decoder part.toItem part) :
    Decodes limit (promiseDecoder decoder)
      (.array [expr.toItem, optionalItem env, optionalItem value])
      (.promise expr env value) := by
  apply Decodes.record rfl
  intro depth bound
  have inside : depth < limit := by omega
  have written := Expr.decodes_expr limit expr depth inside
  have around := decodes_optional
    (fun part member => ofParts part (List.mem_append_left _ member)) inside
  have content := decodes_optional
    (fun part member => ofParts part (List.mem_append_right _ member)) inside
  simp only [List.map_cons, List.map_nil, written, around, content, Item.levelsAll, Nat.max_le]
  by_cases first : expr.toItem.levels ≤ depth <;>
    by_cases second : (optionalItem env).levels ≤ depth <;>
    by_cases third : (optionalItem value).levels ≤ depth <;>
    simp [first, second, third]

theorem decodes_texts (texts : List String) :
    Decodes limit (Decoder.leaf Item.toText?).list (.array (texts.map .ofString)) texts :=
  .list fun text _ => .leaf rfl (Item.toText?_ofString text)

theorem decodes_closure {formals : List String} {body : Expr} {env : Node}
    (ofPart : Decodes limit decoder env.toItem env) :
    Decodes limit (closureDecoder decoder)
      (.array [.array (formals.map .ofString), body.toItem, env.toItem])
      (.closure formals body env) := by
  apply Decodes.record rfl
  intro depth bound
  have inside : depth < limit := by omega
  have names := decodes_texts formals depth inside
  have written := Expr.decodes_expr limit body depth inside
  have around := ofPart depth inside
  simp only [List.map_cons, List.map_nil, names, written, around, Item.levelsAll, Nat.max_le]
  by_cases first : (Item.array (formals.map .ofString)).levels ≤ depth <;>
    by_cases second : body.toItem.levels ≤ depth <;>
    by_cases third : env.toItem.levels ≤ depth <;>
    simp [first, second, third]

theorem decodes_connection {connection : Connection} {number : Item} (flat : number.levels = 0)
    (read : number.toUInt32? = some connection.id) :
    Decodes limit connectionDecoder
      (.array [number, .ofString connection.description, .ofString connection.className])
      (.connection connection) := by
  apply Decodes.record rfl
  intro depth bound
  simp only [List.map_cons, List.map_nil, read, Item.toText?_ofString, Item.levelsAll, flat,
    Item.levels_ofString, Nat.max_self, Nat.zero_le, if_true]

theorem decodes_vector (data : AtomicVector) :
    Decodes limit (itemDecoder decoder) (vectorItem data) (.vector data) := by
  intro depth bound
  cases data with
  | logical data =>
      have index : (Item.ofString "Logical").nameIndex? itemTags = some (some 2) := by
        decide +kernel
      have read : Decodes limit (Decoder.leaf Item.toBool?).list (.array (data.map .bool)) data :=
        .list fun _ _ => .leaf rfl rfl
      simp only [itemDecoder, vectorItem, Item.tag?_tagged _ index, read.map _ bound,
        Item.levels_tagged]
  | integer data =>
      have index : (Item.ofString "Integer").nameIndex? itemTags = some (some 3) := by
        decide +kernel
      have read : Decodes limit (Decoder.leaf Item.toInt32?).list
          (.array (data.map fun n => .ofInt n.toInt)) data :=
        .list fun n _ => .leaf (Item.levels_ofInt _) (Item.toInt32?_ofInt n)
      simp only [itemDecoder, vectorItem, Item.tag?_tagged _ index, read.map _ bound,
        Item.levels_tagged]
  | double data =>
      have index : (Item.ofString "Double").nameIndex? itemTags = some (some 4) := by
        decide +kernel
      have read : Decodes limit (Decoder.leaf Item.toDouble?).list (.array (data.map .double))
          data := .list fun _ _ => .leaf rfl rfl
      simp only [itemDecoder, vectorItem, Item.tag?_tagged _ index, read.map _ bound,
        Item.levels_tagged]
  | character data =>
      have index : (Item.ofString "Character").nameIndex? itemTags = some (some 5) := by
        decide +kernel
      simp only [itemDecoder, vectorItem, Item.tag?_tagged _ index,
        (decodes_texts data).map _ bound, Item.levels_tagged]

theorem decodes_item {item : NodeItem}
    (ofParts : ∀ part ∈ item.parts, Decodes limit decoder part.toItem part) :
    Decodes limit (itemDecoder decoder) item.toItem item := by
  intro depth bound
  cases item with
  | null =>
      have index : (Item.ofString "Null").nameIndex? itemTags = some (some 0) := by decide +kernel
      simp only [itemDecoder, NodeItem.toItem, Item.tag?_ofString index]
      rfl
  | unbound =>
      have index : (Item.ofString "Unbound").nameIndex? itemTags = some (some 1) := by
        decide +kernel
      simp only [itemDecoder, NodeItem.toItem, Item.tag?_ofString index]
      rfl
  | vector data =>
      rw [NodeItem.toItem]
      exact decodes_vector data depth bound
  | list items =>
      have index : (Item.ofString "List").nameIndex? itemTags = some (some 6) := by decide +kernel
      have read : Decodes limit decoder.list (.array (items.map toItem)) items := .list ofParts
      simp only [NodeItem.toItem, nodeItems_eq, itemDecoder, Item.tag?_tagged _ index,
        read.map _ bound, Item.levels_tagged]
  | environment id bindings parent =>
      have index : (Item.ofString "Environment").nameIndex? itemTags = some (some 7) := by
        decide +kernel
      simp only [itemDecoder, NodeItem.toItem, Item.tag?_tagged _ index, Item.levels_tagged]
      exact decodes_environment rfl (Item.toUInt32?_unsigned id) ofParts depth bound
  | environmentRef id =>
      have index : (Item.ofString "EnvironmentRef").nameIndex? itemTags = some (some 8) := by
        decide +kernel
      have number := Item.toUInt32?_unsigned id
      have flat : (Item.unsigned id.toNat).levels = 0 := rfl
      rw [NodeItem.toItem]
      -- Without this the number's header would be computed, and its width depends on its size.
      generalize Item.unsigned id.toNat = item at number flat ⊢
      simp only [itemDecoder, Item.tag?_tagged _ index, number, Option.map_some,
        Item.levels_tagged, flat, Nat.zero_le, if_true]
  | named kind =>
      have index : (Item.ofString "Named").nameIndex? itemTags = some (some 9) := by decide +kernel
      simp only [itemDecoder, NodeItem.toItem, Item.tag?_tagged _ index,
        EnvironmentKind.ofItem?_toItem, Option.map_some, Item.levels_tagged,
        EnvironmentKind.levels_toItem, Nat.zero_le, if_true]
  | promise expr env value =>
      have index : (Item.ofString "Promise").nameIndex? itemTags = some (some 10) := by
        decide +kernel
      simp only [itemDecoder, NodeItem.toItem, Item.tag?_tagged _ index, Item.levels_tagged]
      exact decodes_promise ofParts depth bound
  | closure formals body env =>
      have index : (Item.ofString "Closure").nameIndex? itemTags = some (some 11) := by
        decide +kernel
      simp only [itemDecoder, NodeItem.toItem, Item.tag?_tagged _ index, Item.levels_tagged]
      exact decodes_closure (ofParts env List.mem_cons_self) depth bound
  | language expr =>
      have index : (Item.ofString "Language").nameIndex? itemTags = some (some 12) := by
        decide +kernel
      simp only [itemDecoder, NodeItem.toItem, Item.tag?_tagged _ index,
        (Expr.decodes_expr limit expr).map _ bound, Item.levels_tagged]
  | connection connection =>
      have index : (Item.ofString "Connection").nameIndex? itemTags = some (some 13) := by
        decide +kernel
      simp only [itemDecoder, NodeItem.toItem, Item.tag?_tagged _ index, Item.levels_tagged]
      exact decodes_connection rfl (Item.toUInt32?_unsigned connection.id) depth bound

end Parts

theorem decodes_within (node : Node) (height : Nat) :
    Decodes height (decoderWithin height) node.toItem node := by
  induction node using Node.induct generalizing height with
  | step item attributes ofParts ofAttributes =>
      intro depth bound
      cases height with
      | zero => cases bound
      | succ height =>
          rw [toItem, decoderWithin]
          refine Decodes.record rfl ?_ depth bound
          intro depth bound
          have content := decodes_item (fun part member => ofParts part member height) depth
            (by omega)
          have held := decodes_entries (fun part member => ofAttributes part member height) depth
            (by omega)
          simp only [List.map_cons, List.map_nil, content, held, Item.levelsAll, Nat.max_le]
          by_cases here : item.toItem.levels ≤ depth <;>
            by_cases there : (Item.array (entryItems attributes)).levels ≤ depth <;>
            simp [here, there]

/-- The packed form of a node is decoded to the node, where the levels are enough. -/
theorem decodes (limit : Nat) (node : Node) : Decodes limit decoder node.toItem node := by
  intro depth _
  exact decodes_within node (depth + 1) depth (Nat.lt_succ_self depth)

end Node

/-- Reading the bytes of an item, with whatever behind them, gives the value back that the item was
made from, unless the arrays of the item nest too deep. -/
theorem Codec.readPacked_append {α : Type} {decoder : Decoder α} {item : Item} {value : α}
    (writable : item.Writable) (decodes : Decodes (nestingLimit + 1) decoder item value)
    (behind : Bytes) : readPacked decoder (item.write ++ behind) =
      if item.levels ≤ nestingLimit then .ok value else .error .unreadable := by
  have decoded := decodes nestingLimit (Nat.lt_succ_self _)
  simp only [readPacked, Pack.read_write writable behind, decoded]
  split <;> simp_all

/-- Whether the bytes of an item can be read back: its numbers and lengths fit the headers of the
format, and its arrays nest no deeper than the limit. -/
def Pack.Item.Packable (item : Item) : Prop :=
  item.Writable ∧ item.levels ≤ nestingLimit

theorem Codec.readPacked_write {α : Type} {decoder : Decoder α} {item : Item} {value : α}
    (packable : item.Packable) (decodes : Decodes (nestingLimit + 1) decoder item value) :
    readPacked decoder item.write = .ok value := by
  have read := readPacked_append packable.1 decodes []
  rw [List.append_nil, if_pos packable.2] at read
  exact read

/-- An expression within the limits is rebuilt as it is after it was written out and read again. -/
theorem Message.rebuildExpr_packed {expr : Expr} (packable : expr.toItem.Packable) :
    rebuildExpr .packed expr.toItem.write = .ok expr.reread := by
  have read : Codec.packed.unserializeExpr expr.toItem.write = .ok expr :=
    Codec.readPacked_write packable (Expr.decodes_expr _ expr)
  simp only [rebuildExpr, read, Expr.parse_deparse]

end ValueChannels
