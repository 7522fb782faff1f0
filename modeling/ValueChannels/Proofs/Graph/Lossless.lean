import ValueChannels.Proofs.Graph.Packing

/-!
The wire format loses nothing. A node or an expression whose lengths fit the headers is read back
from its bytes, whatever follows them, unless its arrays nest too deep; so different ones
have different bytes, and neither begins with the other's. Main statement: `lossless`.
-/

namespace ValueChannels

open Pack

namespace Pack.Item

mutual

/-- The greatest of the lengths that are written with an item. -/
def longest : Item → Nat
  | .text content | .bytes content | .extension _ content => content.length
  | .array items => max items.length (longestAll items)
  | .map entries => max entries.length (longestEntries entries)
  | _ => 0

def longestAll : List Item → Nat
  | [] => 0
  | item :: rest => max item.longest (longestAll rest)

def longestEntries : List (Item × Item) → Nat
  | [] => 0
  | (key, value) :: rest => max (max key.longest value.longest) (longestEntries rest)

end

/-- The format has room for an item: no length takes more than 32 bits, and its arrays nest no deeper
than the reader goes. -/
def Fits (item : Item) : Prop :=
  item.longest < capacity 4 ∧ item.levels ≤ nestingLimit

instance (item : Item) : Decidable item.Fits :=
  inferInstanceAs (Decidable (_ ∧ _))

theorem headers_pos (n : Nat) : (0 < (arrayHeader n).length ∧ 0 < (mapHeader n).length) ∧
    (0 < (textHeader n).length ∧ 0 < (bytesHeader n).length) ∧ 0 < (extensionHeader n).length := by
  unfold arrayHeader mapHeader textHeader bytesHeader extensionHeader
  refine ⟨⟨?_, ?_⟩, ⟨?_, ?_⟩, ?_⟩ <;> repeat' split
  all_goals exact Nat.succ_pos _

theorem numbers_pos (n : Nat) (m : Int) :
    0 < (unsignedBytes n).length ∧ 0 < (signedBytes m).length := by
  unfold unsignedBytes signedBytes
  refine ⟨?_, ?_⟩ <;> repeat' split
  all_goals exact Nat.succ_pos _

mutual

/-- The bytes of an item are no fewer than its levels, and than the lengths in it. -/
theorem bounds_write (item : Item) : 0 < item.write.length ∧
    item.levels ≤ item.write.length ∧ item.longest ≤ item.write.length := by
  cases item with
  | array items =>
      obtain ⟨count, levels, longest⟩ := bounds_writeAll items
      have header := (headers_pos items.length).1.1
      rw [write_array, List.length_append, Item.levels, Item.longest]
      omega
  | map entries =>
      obtain ⟨count, levels, longest⟩ := bounds_writeEntries entries
      have header := (headers_pos entries.length).1.2
      rw [write_map, List.length_append, Item.levels, Item.longest]
      omega
  | bool value => cases value <;> exact ⟨Nat.zero_lt_one, Nat.zero_le _, Nat.zero_le _⟩
  | nil | single _ | double _ => exact ⟨Nat.succ_pos _, Nat.zero_le _, Nat.zero_le _⟩
  | unsigned n =>
      have some := (numbers_pos n 0).1
      simp only [write, writeBefore, List.append_nil, Item.levels, Item.longest]
      omega
  | signed n =>
      have some := (numbers_pos 0 n).2
      simp only [write, writeBefore, List.append_nil, Item.levels, Item.longest]
      omega
  | text content =>
      have header := (headers_pos content.length).2.1.1
      simp only [write, writeBefore, List.append_nil, List.length_append, Item.levels, Item.longest]
      omega
  | bytes content =>
      have header := (headers_pos content.length).2.1.2
      simp only [write, writeBefore, List.append_nil, List.length_append, Item.levels, Item.longest]
      omega
  | extension tag content =>
      have header := (headers_pos content.length).2.2
      simp only [write, writeBefore, List.append_nil, List.length_append, List.length_cons,
        Item.levels, Item.longest]
      omega

theorem bounds_writeAll (items : List Item) : items.length ≤ (writeAll items).length ∧
    levelsAll items ≤ (writeAll items).length ∧ longestAll items ≤ (writeAll items).length := by
  cases items with
  | nil => exact ⟨Nat.le_refl _, Nat.le_refl _, Nat.le_refl _⟩
  | cons item rest =>
      have here := bounds_write item
      have others := bounds_writeAll rest
      rw [writeAll_cons, List.length_append, List.length_cons, levelsAll, longestAll]
      omega

theorem bounds_writeEntries (entries : List (Item × Item)) :
    entries.length ≤ (writeEntries entries).length ∧
      levelsEntries entries ≤ (writeEntries entries).length ∧
        longestEntries entries ≤ (writeEntries entries).length := by
  cases entries with
  | nil => exact ⟨Nat.le_refl _, Nat.le_refl _, Nat.le_refl _⟩
  | cons entry rest =>
      obtain ⟨key, value⟩ := entry
      have first := bounds_write key
      have second := bounds_write value
      have others := bounds_writeEntries rest
      rw [writeEntries_cons, List.length_append, List.length_append, List.length_cons,
        levelsEntries, longestEntries]
      omega

end

theorem fits_of_short {item : Item} (short : item.write.length ≤ nestingLimit) : item.Fits := by
  obtain ⟨_, levels, longest⟩ := bounds_write item
  have limit : nestingLimit < capacity 4 := by decide
  exact ⟨Nat.lt_of_le_of_lt (Nat.le_trans longest short) limit, Nat.le_trans levels short⟩

/-- The numbers of an item fit the headers there are, so that it can be written unless it is too
long somewhere. -/
def Numbered (item : Item) : Prop :=
  item.longest < capacity 4 → item.Writable

theorem numbered_ofString (text : String) : (ofString text).Numbered :=
  id

theorem numbered_ofInt (n : Int32) : (ofInt n.toInt).Numbered := by
  intro _
  have lower := n.le_toInt
  have upper := n.toInt_lt
  unfold ofInt
  split
  · show n.toInt.toNat < capacity 8
    obtain ⟨_, _, _, eight⟩ := capacities
    omega
  · exact ⟨by omega, by omega⟩

theorem numbered_unsigned (n : UInt32) : (Item.unsigned n.toNat).Numbered := by
  intro _
  have small := n.toNat_lt
  show n.toNat < capacity 8
  obtain ⟨_, _, _, eight⟩ := capacities
  omega

theorem numbered_array {items : List Item} (each : ∀ item ∈ items, item.Numbered) :
    (Item.array items).Numbered := by
  intro short
  rw [longest] at short
  have parts : longestAll items < capacity 4 := by omega
  refine ⟨by omega, ?_⟩
  clear short
  induction items with
  | nil => trivial
  | cons item rest ih =>
      rw [longestAll] at parts
      have others := ih (fun other member => each other (List.mem_cons_of_mem _ member)) (by omega)
      exact ⟨each item List.mem_cons_self (by omega), others⟩

theorem numbered_pair {first second : Item} (left : first.Numbered) (right : second.Numbered) :
    (Item.array [first, second]).Numbered := by
  apply numbered_array
  simp only [List.forall_mem_cons, List.not_mem_nil, false_implies, implies_true, and_true]
  exact ⟨left, right⟩

theorem numbered_triple {first second third : Item} (left : first.Numbered)
    (middle : second.Numbered) (right : third.Numbered) :
    (Item.array [first, second, third]).Numbered := by
  apply numbered_array
  simp only [List.forall_mem_cons, List.not_mem_nil, false_implies, implies_true, and_true]
  exact ⟨left, middle, right⟩

theorem numbered_tagged (tag : String) {content : Item} (inner : content.Numbered) :
    (tagged tag content).Numbered := by
  intro short
  simp only [tagged, longest, longestEntries, List.length_cons, List.length_nil] at short
  have name := numbered_ofString tag (by omega)
  have one : 1 < capacity 4 := by decide
  exact ⟨one, name, inner (by omega), trivial⟩

end Pack.Item

open Pack.Item

theorem Constant.numbered (value : Constant) : value.toItem.Numbered := by
  cases value with
  | null => exact numbered_ofString "Null"
  | logical value => exact numbered_tagged _ fun _ => trivial
  | integer value => exact numbered_tagged _ (numbered_ofInt value)
  | double value => exact numbered_tagged _ fun _ => trivial
  | text content => exact numbered_tagged _ (numbered_ofString content)

namespace Expr

mutual

theorem numbered (expr : Expr) : expr.toItem.Numbered := by
  cases expr with
  | symbol name => exact numbered_tagged _ (numbered_ofString name)
  | constant value => exact numbered_tagged _ value.numbered
  | call function arguments =>
      have listed := numbered_array (numbered_arguments arguments)
      exact numbered_tagged _ (numbered_pair (numbered function) listed)

theorem numbered_arguments (arguments : List (Argument Expr)) :
    ∀ item ∈ argumentItems arguments, item.Numbered := by
  cases arguments with
  | nil => exact fun item member => nomatch member
  | cons argument rest =>
      obtain ⟨name, value⟩ := argument
      rw [argumentItems]
      simp only [List.forall_mem_cons]
      refine ⟨numbered_pair ?_ (numbered value), numbered_arguments rest⟩
      cases name with
      | none => exact fun _ => trivial
      | some name => exact numbered_ofString name

end

theorem packable (expr : Expr) (fits : expr.toItem.Fits) : expr.toItem.Packable :=
  ⟨expr.numbered fits.1, fits.2⟩

end Expr

theorem EnvironmentKind.numbered (kind : EnvironmentKind) : kind.toItem.Numbered := by
  cases kind with
  | packageEnv name | namespaceEnv name => exact numbered_tagged _ (numbered_ofString name)
  | _ => exact numbered_ofString _

namespace Node

theorem numbered_texts (texts : List String) :
    (Item.array (texts.map .ofString)).Numbered := by
  apply numbered_array
  intro item member
  obtain ⟨text, _, rfl⟩ := List.mem_map.mp member
  exact numbered_ofString text

theorem numbered_vector (data : AtomicVector) : (vectorItem data).Numbered := by
  cases data with
  | character data => exact numbered_tagged _ (numbered_texts data)
  | _ =>
      apply numbered_tagged
      apply numbered_array
      intro item member
      obtain ⟨value, _, rfl⟩ := List.mem_map.mp member
      first
        | exact numbered_ofInt value
        | exact fun _ => trivial

theorem numbered_entries {entries : List (String × Node)}
    (ofParts : ∀ part ∈ entries.map Prod.snd, part.toItem.Numbered) :
    (Item.array (entryItems entries)).Numbered := by
  rw [entryItems_eq]
  apply numbered_array
  intro item member
  obtain ⟨entry, held, rfl⟩ := List.mem_map.mp member
  exact numbered_pair (numbered_ofString entry.1) (ofParts entry.2 (List.mem_map_of_mem held))

theorem numbered_optional {optional : Option Node}
    (ofParts : ∀ part ∈ optional.toList, part.toItem.Numbered) :
    (optionalItem optional).Numbered := by
  cases optional with
  | none => exact fun _ => trivial
  | some node => exact ofParts node List.mem_cons_self

theorem numbered_item {item : NodeItem} (ofParts : ∀ part ∈ item.parts, part.toItem.Numbered) :
    item.toItem.Numbered := by
  cases item with
  | null | unbound => exact numbered_ofString _
  | vector data => exact numbered_vector data
  | list items =>
      rw [NodeItem.toItem, nodeItems_eq]
      apply numbered_tagged
      apply numbered_array
      intro item member
      obtain ⟨node, held, rfl⟩ := List.mem_map.mp member
      exact ofParts node held
  | environment id bindings parent =>
      apply numbered_tagged
      refine numbered_triple (numbered_unsigned id) (numbered_entries ?_) (numbered_optional ?_)
      · exact fun part member => ofParts part (List.mem_append_left _ member)
      · exact fun part member => ofParts part (List.mem_append_right _ member)
  | environmentRef id => exact numbered_tagged _ (numbered_unsigned id)
  | named kind => exact numbered_tagged _ kind.numbered
  | promise expr env value =>
      apply numbered_tagged
      refine numbered_triple expr.numbered (numbered_optional ?_) (numbered_optional ?_)
      · exact fun part member => ofParts part (List.mem_append_left _ member)
      · exact fun part member => ofParts part (List.mem_append_right _ member)
  | closure formals body env =>
      have around := ofParts env List.mem_cons_self
      exact numbered_tagged _ (numbered_triple (numbered_texts formals) body.numbered around)
  | language expr => exact numbered_tagged _ expr.numbered
  | connection connection =>
      apply numbered_tagged
      exact numbered_triple (numbered_unsigned connection.id)
        (numbered_ofString connection.description) (numbered_ofString connection.className)

theorem numbered (node : Node) : node.toItem.Numbered := by
  induction node using Node.induct with
  | step item attributes ofParts ofAttributes =>
      rw [toItem]
      exact numbered_pair (numbered_item ofParts) (numbered_entries ofAttributes)

theorem packable (node : Node) (fits : node.toItem.Fits) : node.toItem.Packable :=
  ⟨node.numbered fits.1, fits.2⟩

end Node

/-- Trees that lose nothing on the wire, as long as no length is too great for its header. -/
structure Codec.Lossless {α : Type} (toItem : α → Item) (decoder : Decoder α) : Prop where
  /-- The bytes of a tree are read back as the tree, whatever follows them, unless its arrays nest
  deeper than the reader goes. -/
  rereads : ∀ tree behind, (toItem tree).longest < Pack.capacity 4 →
    readPacked decoder ((toItem tree).write ++ behind) =
      if (toItem tree).levels ≤ nestingLimit then .ok tree else .error .unreadable
  /-- The bytes of one tree do not begin with those of another. -/
  apart : ∀ first second, first ≠ second →
    (toItem first).longest < Pack.capacity 4 → (toItem first).levels ≤ nestingLimit →
      (toItem second).longest < Pack.capacity 4 → (toItem second).levels ≤ nestingLimit →
        ¬(toItem first).write <+: (toItem second).write

theorem Codec.lossless_of_decodes {α : Type} {toItem : α → Item} {decoder : Decoder α}
    (numbered : ∀ tree, (toItem tree).Numbered)
    (decodes : ∀ tree, Decodes (nestingLimit + 1) decoder (toItem tree) tree) :
    Lossless toItem decoder := by
  have rereads (tree : α) (behind : Bytes) (short : (toItem tree).longest < Pack.capacity 4) :=
    readPacked_append (numbered tree short) (decodes tree) behind
  refine ⟨rereads, ?_⟩
  intro first second different short shallow short' shallow' ⟨behind, begins⟩
  have one := rereads first behind short
  have other := rereads second [] short'
  -- The bytes of the second are those of the first with more behind them: both are read from them.
  rw [List.append_nil, ← begins, one, if_pos shallow, if_pos shallow'] at other
  exact different (Except.ok.inj other)

/-- Nodes and expressions lose nothing on the wire. -/
theorem Codec.lossless :
    Lossless Node.toItem Node.decoder ∧ Lossless Expr.toItem Expr.decoder :=
  ⟨lossless_of_decodes Node.numbered (Node.decodes _),
    lossless_of_decodes Expr.numbered (Expr.decodes_expr _)⟩

/-- A double that is no number comes back with all its bits, in front of other bytes. -/
theorem Codec.lossless_notNumber :
    readPacked Node.decoder
      ((Node.bare (.vector (.double [⟨0x7FF0000000000001⟩]))).toItem.write ++ [0xC0]) =
        .ok (.bare (.vector (.double [⟨0x7FF0000000000001⟩]))) := by
  have short : (Node.bare (.vector (.double [⟨0x7FF0000000000001⟩]))).toItem.longest <
      Pack.capacity 4 := by
    decide +kernel
  have shallow : (Node.bare (.vector (.double [⟨0x7FF0000000000001⟩]))).toItem.levels ≤
      nestingLimit := by
    decide +kernel
  rw [lossless.1.rereads _ _ short, if_pos shallow]

end ValueChannels
