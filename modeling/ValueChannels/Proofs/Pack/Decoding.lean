import ValueChannels.Pack.Decoder

/-!
Decoders of packed data. A decoder gives the value back that an item was made from, exactly where
the levels of nesting that are left are enough for the arrays of the item. Main statements: one
for each way in which decoders are put together.
-/

namespace ValueChannels.Pack

namespace Item

mutual

/-- How deep the arrays in an item nest. A map has the levels of what it holds. -/
def levels : Item → Nat
  | .array items => levelsAll items + 1
  | .map entries => levelsEntries entries
  | _ => 0

def levelsAll : List Item → Nat
  | [] => 0
  | item :: rest => max item.levels (levelsAll rest)

def levelsEntries : List (Item × Item) → Nat
  | [] => 0
  | (key, value) :: rest => max (max key.levels value.levels) (levelsEntries rest)

end

@[simp] theorem levels_tagged (tag : String) (content : Item) :
    (tagged tag content).levels = content.levels := by
  simp [tagged, ofString, levels, levelsEntries]

@[simp] theorem levels_ofString (text : String) : (ofString text).levels = 0 := rfl

@[simp] theorem levels_ofInt (n : Int) : (ofInt n).levels = 0 := by
  unfold ofInt
  split <;> rfl

theorem tag?_tagged {tags : List String} {tag : String} {index : Nat} (content : Item)
    (found : (ofString tag).nameIndex? tags = some (some index)) :
    (tagged tag content).tag? tags = some (index, some content) := by
  simp only [tagged, tag?, found]

theorem tag?_ofString {tags : List String} {tag : String} {index : Nat}
    (found : (ofString tag).nameIndex? tags = some (some index)) :
    (ofString tag).tag? tags = some (index, none) := by
  rw [ofString] at found ⊢
  simp only [tag?, found]

/-! ### Items without parts -/

theorem toList_bytes (bytes : ByteArray) : bytes.toList = bytes.data.toList := by
  have loop (position : Nat) (read : List UInt8)
      (before : read = (bytes.data.toList.take position).reverse) :
      ByteArray.toList.loop bytes position read = bytes.data.toList := by
    fun_induction ByteArray.toList.loop bytes position read with
    | case1 position read inside ih =>
        apply ih
        have bound : position < bytes.data.toList.length := inside
        have next : bytes.get! position = bytes.data.toList[position] := by
          have there : position < bytes.data.size := inside
          show bytes.data[position]! = _
          rw [getElem!_pos bytes.data position there, Array.getElem_toList]
        rw [List.take_succ_eq_append_getElem bound, List.reverse_append, before, next]
        rfl
    | case2 position read outside =>
        have whole : bytes.data.toList.length ≤ position := Nat.le_of_not_lt outside
        rw [before, List.reverse_reverse, List.take_of_length_le whole]
  exact loop 0 [] rfl

theorem toText?_ofString (text : String) : (ofString text).toText? = some text := by
  rw [ofString, toText?, toList_bytes]
  simp only [String.fromUTF8?, Array.toArray_toList, String.toUTF8_eq_toByteArray]
  rw [dif_pos text.isValidUTF8]
  rfl

theorem toInt?_ofInt (n : Int) : (ofInt n).toInt? = some n := by
  unfold ofInt
  split
  · rename_i positive
    rw [toInt?, Int.toNat_of_nonneg positive]
  · rfl

theorem toInt32?_ofInt (n : Int32) : (ofInt n.toInt).toInt32? = some n := by
  have lower := n.le_toInt
  have upper := n.toInt_lt
  rw [toInt32?, toInt?_ofInt]
  simp only
  rw [if_pos ⟨lower, upper⟩, Int32.ofInt_toInt]

theorem toUInt32?_unsigned (n : UInt32) : (Item.unsigned n.toNat).toUInt32? = some n := by
  have small : n.toNat < UInt32.size := n.toNat_lt
  rw [toUInt32?, toInt?]
  simp only
  rw [if_pos ⟨Int.natCast_nonneg _, Int.ofNat_lt.mpr small⟩, Int.toNat_natCast, UInt32.ofNat_toNat]

end Item

/-! ### Decoders -/

/-- Up to a limit, a decoder gives the value back that an item was made from, or nothing when the
arrays of the item nest deeper than the levels that are left. -/
def Decodes {α : Type} (limit : Nat) (decoder : Decoder α) (item : Item) (value : α) : Prop :=
  ∀ depth < limit, decoder depth item = if item.levels ≤ depth then some value else none

namespace Decodes

variable {α β : Type} {limit : Nat}

theorem leaf {convert : Item → Option α} {item : Item} {value : α} (flat : item.levels = 0)
    (converted : convert item = some value) : Decodes limit (Decoder.leaf convert) item value := by
  intro depth _
  rw [flat, if_pos (Nat.zero_le depth)]
  exact converted

theorem mapM_within {element : Item → Option α} {write : α → Item} {values : List α} {depth : Nat}
    (each : ∀ value ∈ values, element (write value) =
      if (write value).levels ≤ depth then some value else none) :
    (values.map write).mapM element =
      if Item.levelsAll (values.map write) ≤ depth then some values else none := by
  induction values with
  | nil => simp [Item.levelsAll]
  | cons value rest ih =>
      have first := each value List.mem_cons_self
      have others := ih fun value member => each value (List.mem_cons_of_mem _ member)
      simp only [List.map_cons, List.mapM_cons, first, others, Item.levelsAll, Nat.max_le]
      by_cases here : (write value).levels ≤ depth <;>
        by_cases there : Item.levelsAll (rest.map write) ≤ depth <;>
        simp [here, there]

theorem list {element : Decoder α} {write : α → Item} {values : List α}
    (each : ∀ value ∈ values, Decodes limit element (write value) value) :
    Decodes limit (Decoder.list element) (.array (values.map write)) values := by
  intro depth bound
  cases depth with
  | zero => rfl
  | succ depth =>
      simp only [Item.levels, Nat.add_le_add_iff_right]
      exact mapM_within fun value member => each value member depth (by omega)

theorem pair {first : Decoder α} {second : Decoder β} {x y : Item} {a : α} {b : β}
    (left : Decodes limit first x a) (right : Decodes limit second y b) :
    Decodes limit (Decoder.pair first second) (.array [x, y]) (a, b) := by
  intro depth bound
  cases depth with
  | zero => rfl
  | succ depth =>
      rw [Decoder.pair, left depth (by omega), right depth (by omega)]
      simp only [Item.levels, Item.levelsAll, Nat.add_le_add_iff_right, Nat.max_le]
      by_cases here : x.levels ≤ depth <;> by_cases there : y.levels ≤ depth <;>
        simp [here, there]

theorem optional {inner : Decoder α} {item : Item} {value : α} (something : item ≠ .nil)
    (decodes : Decodes limit inner item value) {depth : Nat} (bound : depth < limit) :
    Decoder.optionalField inner depth (some item) =
      if item.levels ≤ depth then some (some value) else none := by
  rw [Decoder.optionalField, Decoder.optional, decodes depth bound]
  · split <;> rfl
  · exact something

theorem record {names : List String} {build : Nat → List (Option Item) → Option α}
    {items : List Item} {value : α} (complete : items.length = names.length)
    (built : ∀ depth, depth + 1 < limit → build depth (items.map some) =
      if Item.levelsAll items ≤ depth then some value else none) :
    Decodes limit (Decoder.record names build) (.array items) value := by
  intro depth bound
  cases depth with
  | zero => rfl
  | succ depth =>
      simp only [Decoder.record, Item.fields?, if_pos complete, Option.bind_some, Item.levels,
        Nat.add_le_add_iff_right]
      exact built depth bound

theorem map {decoder : Decoder α} {item : Item} {value : α}
    (decodes : Decodes limit decoder item value) (make : α → β) {depth : Nat}
    (bound : depth < limit) :
    (decoder depth item).map make = if item.levels ≤ depth then some (make value) else none := by
  rw [decodes depth bound]
  split <;> rfl

end Decodes

end ValueChannels.Pack
