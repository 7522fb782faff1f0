import ValueChannels.Proofs.Graph.Reading
import ValueChannels.Proofs.Pack.RoundTrip

/-!
The first bytes of a node say what kind of value it is, so that even a text that is garbled further
on is read as that kind or not at all. Main statements: `readPacked_head` for the bytes of a node,
`Codec.restores_packed` for the packed codec.
-/

namespace ValueChannels

open Pack

/-- The kind of value of the items that are written for values which do not come apart. -/
def NodeItem.head? : NodeItem → Option ValueKind
  | .named _ => some .environment
  | .closure _ _ _ => some .closure
  | .language _ => some .language
  | .connection _ => some .connection
  | _ => none

/-- The tag that such a value is written under. -/
def ValueKind.headTag : ValueKind → String
  | .environment => "Named"
  | .closure => "Closure"
  | .language => "Language"
  | _ => "Connection"

namespace NodeItem

theorem toItem_head {item : NodeItem} {kind : ValueKind} (head : item.head? = some kind) :
    ∃ content, item.toItem = .tagged kind.headTag content := by
  cases item with
  | named _ | closure _ _ _ | language _ | connection _ =>
      cases head
      rw [NodeItem.toItem]
      exact ⟨_, rfl⟩
  | _ => cases head

theorem head?_encodeBody {encode : Ref → Node.Encoding Node} {ref : Ref} {body : Body}
    {item : NodeItem} {known known' : List Ref} (encoded : body.isEncoded = true)
    (written : Node.encodeBody encode ref body known = .ok (item, known')) :
    item.head? = some body.kind := by
  cases body with
  | closure closure =>
      unfold Node.encodeBody at written
      obtain ⟨env, known'', _, last⟩ := stateT_bind_ok written
      rw [(stateT_pure_ok last).1]
      rfl
  | environment frame =>
      have named : ¬frame.kind.isLocal = true := by
        simpa [Body.isEncoded] using encoded
      rw [Node.encodeBody, if_neg named] at written
      cases written
      rfl
  | language expr | connection connection =>
      cases written
      rfl
  | _ => cases encoded

end NodeItem

namespace Pack

theorem readWithin_tagged {tag : String} {content item : Item} {depth : Nat} {rest after : Bytes}
    (short : (Item.ofString tag).Writable) (deep : (Item.ofString tag).write.length < depth)
    (read : readWithin depth ((Item.tagged tag content).write ++ rest) = some (item, after)) :
    ∃ content', item = .tagged tag content' := by
  cases depth with
  | zero => omega
  | succ depth =>
      have one : 1 < Pack.capacity 4 := by decide
      have header := readHeader_map one
        ((Item.ofString tag).write ++ (content.write ++ rest))
      have key := Item.readWithin_write (Item.ofString tag) short depth (by omega)
        (content.write ++ rest)
      have bytes : (Item.tagged tag content).write ++ rest =
          mapHeader 1 ++ ((Item.ofString tag).write ++ (content.write ++ rest)) := by
        rw [Item.tagged, Item.write_map]
        simp
      rw [bytes, readWithin, header] at read
      simp only [readEntries, key] at read
      cases value : readWithin depth (content.write ++ rest) with
      | none =>
          rw [value] at read
          cases read
      | some found =>
          rw [value] at read
          cases read
          exact ⟨found.1, rfl⟩

theorem read_pair_tagged {tag : String} {content second item : Item} {after : Bytes}
    (short : (Item.ofString tag).Writable)
    (read : Pack.read (Item.array [.tagged tag content, second]).write = some (item, after)) :
    ∃ content' second', item = .array [.tagged tag content', second'] := by
  have two : 2 < Pack.capacity 4 := by decide
  have header := readHeader_array two
    ((Item.tagged tag content).write ++ second.write)
  have bytes : (Item.array [.tagged tag content, second]).write =
      arrayHeader 2 ++ ((Item.tagged tag content).write ++ second.write) := by
    rw [Item.write_array]
    simp
  -- Reading may nest as deep as there are bytes, which is enough for the tag.
  have deep : (Item.ofString tag).write.length <
      (arrayHeader 2 ++ ((Item.tagged tag content).write ++ second.write)).length := by
    rw [Item.tagged, Item.write_map]
    simp only [List.length_append, Item.writeEntries_cons]
    have positive := arrayHeader_pos 2
    omega
  rw [Pack.read, bytes, readWithin, header] at read
  generalize (arrayHeader 2 ++ ((Item.tagged tag content).write ++ second.write)).length = depth
    at deep read
  simp only [readMany] at read
  cases first : readWithin depth ((Item.tagged tag content).write ++ second.write) with
  | none =>
      rw [first] at read
      cases read
  | some found =>
      obtain ⟨head, rest⟩ := found
      obtain ⟨content', same⟩ := readWithin_tagged short deep first
      rw [first] at read
      cases next : readWithin depth rest with
      | none =>
          simp only [next] at read
          cases read
      | some found' =>
          simp only [next] at read
          cases read
          rw [same]
          exact ⟨content', found'.1, rfl⟩

end Pack

namespace Node

theorem record_some {α : Type} {names : List String}
    {build : Nat → List (Option Item) → Option α} {depth : Nat} {item : Item} {result : α}
    (decoded : Decoder.record names build depth item = some result) :
    ∃ below fields, build below fields = some result := by
  cases depth with
  | zero => cases decoded
  | succ below =>
      obtain ⟨fields, _, built⟩ := Option.bind_eq_some_iff.mp decoded
      exact ⟨below, fields, built⟩

theorem tag?_tagged {tags : List String} {tag : String} {index : Nat} (content : Item)
    (found : (Item.ofString tag).nameIndex? tags = some (some index)) :
    (Item.tagged tag content).tag? tags = some (index, some content) := by
  simp only [Item.tagged, Item.tag?, found]

theorem itemDecoder_head {item : NodeItem} {kind : ValueKind} (head : item.head? = some kind)
    {decoder : Decoder Node} {depth : Nat} {content : Item} {decoded : NodeItem}
    (read : itemDecoder decoder depth (.tagged kind.headTag content) = some decoded) :
    decoded.head? = some kind := by
  cases item with
  | named _ =>
      cases head
      have index : (Item.ofString "Named").nameIndex? itemTags = some (some 9) := by
        decide +kernel
      change itemDecoder decoder depth (.tagged "Named" content) = some decoded at read
      rw [itemDecoder, tag?_tagged content index] at read
      obtain ⟨named, _, same⟩ := Option.map_eq_some_iff.mp read
      rw [← same]
      rfl
  | closure _ _ _ =>
      cases head
      have index : (Item.ofString "Closure").nameIndex? itemTags = some (some 11) := by
        decide +kernel
      change itemDecoder decoder depth (.tagged "Closure" content) = some decoded at read
      rw [itemDecoder, tag?_tagged content index] at read
      obtain ⟨below, fields, built⟩ := record_some read
      split at built
      · split at built
        · cases built
          rfl
        · cases built
      · cases built
  | language _ =>
      cases head
      have index : (Item.ofString "Language").nameIndex? itemTags = some (some 12) := by
        decide +kernel
      change itemDecoder decoder depth (.tagged "Language" content) = some decoded at read
      rw [itemDecoder, tag?_tagged content index] at read
      obtain ⟨expr, _, same⟩ := Option.map_eq_some_iff.mp read
      rw [← same]
      rfl
  | connection _ =>
      cases head
      have index : (Item.ofString "Connection").nameIndex? itemTags = some (some 13) := by
        decide +kernel
      change itemDecoder decoder depth (.tagged "Connection" content) = some decoded at read
      rw [itemDecoder, tag?_tagged content index] at read
      obtain ⟨below, fields, built⟩ := record_some read
      split at built
      · split at built
        · cases built
          rfl
        · cases built
      · cases built
  | _ => cases head

theorem decoderWithin_pair (height depth : Nat) (content attributes : Item) :
    decoderWithin (height + 1) (depth + 1) (.array [content, attributes]) =
      match itemDecoder (decoderWithin height) depth content,
          entriesDecoder (decoderWithin height) depth attributes with
      | some item, some attributes => some (.mk item attributes)
      | _, _ => none :=
  rfl

theorem head?_encodeWithin {heap : Heap} {depth : Nat} {ref : Ref} {node : Node}
    {known known' : List Ref} (encoded : (heap.body ref).isEncoded = true)
    (made : encodeWithin heap depth ref known = .ok (node, known')) :
    node.item.head? = some (heap.kind ref) := by
  cases depth with
  | zero => cases made
  | succ depth =>
      unfold encodeWithin at made
      obtain ⟨item, known'', body, rest⟩ := stateT_bind_ok made
      have head := NodeItem.head?_encodeBody encoded body
      split at rest
      · rw [(stateT_pure_ok rest).1]
        exact head
      · obtain ⟨attributes, _, _, last⟩ := stateT_bind_ok rest
        rw [(stateT_pure_ok last).1]
        exact head

theorem head?_ofValue {heap : Heap} {ref : Ref} {node : Node}
    (encoded : (heap.body ref).isEncoded = true) (made : Node.ofValue heap ref = .ok node) :
    node.item.head? = some (heap.kind ref) := by
  unfold Node.ofValue at made
  cases within : encodeWithin heap (depthBound heap) ref [] with
  | error reason =>
      rw [within] at made
      cases made
  | ok result =>
      rw [within] at made
      cases made
      exact head?_encodeWithin encoded within

/-- A node whose item shows its kind in its first bytes is read as a node of that kind. -/
theorem readPacked_head {item : NodeItem} {attributes : List (String × Node)} {kind : ValueKind}
    {node : Node} (head : item.head? = some kind)
    (read : Codec.readPacked decoder (Node.mk item attributes).toItem.write = .ok node) :
    node.item.head? = some kind := by
  obtain ⟨content, tagged⟩ := NodeItem.toItem_head head
  have short : (Item.ofString kind.headTag).Writable := by
    cases kind <;> (show List.length _ < _; decide +kernel)
  rw [Node.toItem, tagged] at read
  unfold Codec.readPacked at read
  split at read
  · rename_i found rest bytes
    obtain ⟨content', second, same⟩ := read_pair_tagged short bytes
    rw [same] at read
    split at read
    · rename_i result decoded
      cases read
      change decoderWithin (1023 + 1) (1022 + 1) _ = some _ at decoded
      rw [decoderWithin_pair] at decoded
      split at decoded
      · rename_i inner _ ofItem _
        cases decoded
        exact itemDecoder_head head ofItem
      · cases decoded
    · cases read
  · cases read

theorem ends_alloc_kind (body : Body) (before : Rebuild) :
    Ends (Rebuilding.alloc body : Decoding Ref) before
      (fun ref after => after.heap.kind ref = body.kind ∧ ref.index < after.heap.size)
      (fun _ _ => True) := by
  apply Ends.modifyGet
  constructor
  · exact congrArg (fun object => object.body.kind) (before.heap.get_alloc_new body)
  · exact before.heap.inside_alloc body

theorem ends_item_kind {environments : Environments} {before : Rebuild} {item : NodeItem}
    {kind : ValueKind} (head : item.head? = some kind) (sound : environments.Sound before.heap) :
    Ends (item.decode environments) before
      (fun ref after => after.heap.kind ref = kind ∧ ref.index < after.heap.size)
      (fun _ _ => True) := by
  cases item with
  | named named =>
      cases head
      rw [NodeItem.decode]
      cases found : environments.find? named with
      | none => exact Ends.throw trivial
      | some env =>
          obtain ⟨frame, body, _⟩ := sound named env found
          apply Ends.pure
          constructor
          · rw [Heap.kind, body]
            rfl
          · exact sound.inside found
  | closure formals body env =>
      cases head
      rw [NodeItem.decode]
      apply Ends.bind
      apply Ends.any.mono _ fun _ _ _ => trivial
      intro env' middle _
      exact ends_alloc_kind _ middle
  | language expr | connection connection =>
      cases head
      rw [NodeItem.decode]
      exact ends_alloc_kind _ before
  | _ => cases head

/-- A node with such an item is decoded to a value of its kind. -/
theorem ends_kind {environments : Environments} {base : Heap} {before : Rebuild} {node : Node}
    {kind : ValueKind} (head : node.item.head? = some kind)
    (sound : environments.Sound before.heap) (unpacking : Unpacking environments base before) :
    Ends (node.decode environments) before
      (fun ref after => after.heap.kind ref = kind ∧ ref.index < after.heap.size)
      (fun _ _ => True) := by
  obtain ⟨item, attributes⟩ := node
  have start : Ends (item.decode environments) before
      (fun ref after => Unpacking environments base after ∧ after.heap.kind ref = kind ∧
        ref.index < after.heap.size)
      (fun _ _ => True) := by
    apply ((ends_item item (fun part _ => unpacks environments part) unpacking).and
      (ends_item_kind head sound)).mono _ fun _ _ _ => trivial
    intro ref after both
    exact ⟨both.1.1.unpacking, both.2⟩
  rw [decode]
  apply Ends.bind
  apply start.mono _ fun _ _ spoiled => spoiled
  intro ref middle made
  split
  · apply Ends.bind
    apply (ends_decodeEntries attributes (fun part _ => unpacks environments part) middle
      made.1).mono _ fun _ _ _ => trivial
    intro entries later decoded
    apply Ends.bind
    apply Ends.modifyGet
    apply Ends.pure
    constructor
    · show (later.heap.replaceAttributes ref _).kind ref = kind
      rw [Heap.kind_replaceAttributes, decoded.1.kind ref made.2.2, made.2.1]
    · show ref.index < (later.heap.replaceAttributes ref _).size
      rw [Heap.size_replaceAttributes]
      exact Nat.lt_of_lt_of_le made.2.2 decoded.1.size
  · exact Ends.pure made.2

end Node

/-- What one codec writes, the other reads into new objects and as a value of the same kind. -/
structure Codec.Restores (sender receiver : Codec) : Prop where
  reads : ∀ environments blob before, Ends (receiver.unserialize environments blob) before
    (environments.Reads before) (fun _ => before.Extends)
  kind : ∀ heap ref blob, (heap.body ref).isEncoded = true → sender.serialize heap ref = .ok blob →
    ∀ environments before result after, environments.Sound before →
      receiver.unserialize environments blob before = .ok result after →
        after.kind result = heap.kind ref

namespace Codec

theorem decoded_packed {heap before after : Heap} {ref result : Ref} {blob : Bytes}
    {environments : Environments} (encoded : (heap.body ref).isEncoded = true)
    (written : packed.serialize heap ref = .ok blob)
    (read : packed.unserialize environments blob before = .ok result after) :
    ∃ (node : Node) (state : Rebuild), node.item.head? = some (heap.kind ref) ∧
      node.decode environments { heap := before, environments := [] } = .ok result state ∧
      state.heap = after := by
  cases made : Node.ofValue heap ref with
  | error reason =>
      simp only [packed, made] at written
      cases written
  | ok node =>
      have blob' : node.toItem.write = blob := by
        simp only [packed, made] at written
        exact Except.ok.inj written
      obtain ⟨item, attributes⟩ := node
      have head := Node.head?_ofValue encoded made
      simp only [packed, unserializePacked, ← blob'] at read
      cases found : readPacked Node.decoder (Node.mk item attributes).toItem.write with
      | error reason =>
          rw [found] at read
          cases read
      | ok node' =>
          rw [found] at read
          dsimp only at read
          split at read
          · rename_i ref' state ended
            cases read
            exact ⟨node', state, Node.readPacked_head head found, ended, rfl⟩
          · cases read

theorem kind_packed {heap before after : Heap} {ref result : Ref} {blob : Bytes}
    {environments : Environments} (encoded : (heap.body ref).isEncoded = true)
    (written : packed.serialize heap ref = .ok blob) (sound : environments.Sound before)
    (read : packed.unserialize environments blob before = .ok result after) :
    after.kind result = heap.kind ref := by
  obtain ⟨node, state, head, ended, rfl⟩ := decoded_packed encoded written read
  exact ((Node.ends_kind head sound (Node.Unpacking.start environments before)).ok ended).1

theorem owned_packed {heap before after : Heap} {ref result : Ref} {blob : Bytes}
    {environments : Environments} (isNamed : (heap.body ref).isNamed = true)
    (written : packed.serialize heap ref = .ok blob)
    (read : packed.unserialize environments blob before = .ok result after) :
    environments.Owns result := by
  have content : ∃ frame, heap.body ref = .environment frame ∧ frame.kind.isLocal = false := by
    cases body : heap.body ref <;> rw [body] at isNamed <;> simp_all [Body.isNamed]
  obtain ⟨frame, body, isOther⟩ := content
  have encoded : (heap.body ref).isEncoded = true := by simp [body, Body.isEncoded, isOther]
  obtain ⟨⟨item, attributes⟩, state, head, ended, _⟩ := decoded_packed encoded written read
  have kind : heap.kind ref = .environment := congrArg Body.kind body
  rw [kind] at head
  cases item with
  | named named =>
      rw [Node.decode, NodeItem.decode] at ended
      cases found : environments.find? named with
      | none =>
          rw [found] at ended
          cases ended
      | some env =>
          rw [found] at ended
          cases ended
          exact ⟨named, found⟩
  | _ => cases head

/-- What the packed codec writes it reads back into new objects. -/
theorem restores_packed : packed.Restores packed := by
  constructor
  · exact reads_packed
  · intro heap ref blob encoded written environments before result after sound read
    exact kind_packed encoded written sound read

end Codec

end ValueChannels
