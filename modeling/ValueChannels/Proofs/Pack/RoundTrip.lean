import ValueChannels.Pack.Reader
import ValueChannels.Pack.Writer

/-!
Written items are read back as they were. Numbers and lengths have to fit the widest header; what
follows the bytes of an item is left for the next one. Main statements: `readHeader` after each
header, `Item.readWithin_write` for all items, `read_write` for whole texts.
-/

namespace ValueChannels.Pack

/-! ### Numbers -/

theorem length_bigEndian (width n : Nat) : (bigEndian width n).length = width := by
  induction width with
  | zero => rfl
  | succ width ih => rw [bigEndian, List.length_cons, ih]

theorem foldl_bigEndian (width n start : Nat) :
    (bigEndian width n).foldl (fun value byte => 256 * value + byte.toNat) start =
      start * capacity width + n % capacity width := by
  induction width generalizing start with
  | zero => simp [bigEndian, capacity, Nat.mod_one]
  | succ width ih =>
      have digit : (UInt8.ofNat (n / capacity width)).toNat = n / capacity width % 256 := by
        rw [UInt8.toNat_ofNat']
      have split : n % (256 * capacity width) =
          n / capacity width % 256 * capacity width + n % capacity width := by
        rw [Nat.mul_comm 256, Nat.mod_mul, Nat.mul_comm, Nat.add_comm]
      rw [bigEndian, List.foldl_cons, ih, digit, capacity, split]
      rw [Nat.add_mul, Nat.mul_comm 256 start, Nat.mul_assoc, Nat.add_assoc]

theorem ofBigEndian_bigEndian {width n : Nat} (fits : n < capacity width) :
    ofBigEndian (bigEndian width n) = n := by
  unfold ofBigEndian
  rw [foldl_bigEndian, Nat.zero_mul, Nat.zero_add, Nat.mod_eq_of_lt fits]

theorem takeBytes_append (content rest : Bytes) :
    takeBytes content.length (content ++ rest) = some (content, rest) := by
  simp [takeBytes]

theorem takeNumber_bigEndian {width n : Nat} (fits : n < capacity width) (rest : Bytes) :
    takeNumber width (bigEndian width n ++ rest) = some (n, rest) := by
  have taken := takeBytes_append (bigEndian width n) rest
  rw [length_bigEndian] at taken
  simp only [takeNumber, taken, Option.map_some, ofBigEndian_bigEndian fits]

theorem announce_bigEndian {width n : Nat} (fits : n < capacity width) (make : Nat → Announced)
    (rest : Bytes) : announce width make (bigEndian width n ++ rest) = some (make n, rest) := by
  rw [announce, takeNumber_bigEndian fits, Option.map_some]

theorem toNat_marker (n : Nat) (fits : n < 256) : (UInt8.ofNat n).toNat = n := by
  rw [UInt8.toNat_ofNat', Nat.mod_eq_of_lt fits]

/-! ### Headers -/

theorem readHeader_unsigned {n : Nat} (fits : n < capacity 8) (rest : Bytes) :
    readHeader (unsignedBytes n ++ rest) = some (.complete (.unsigned n), rest) := by
  unfold unsignedBytes
  split
  · rename_i small
    have value := toNat_marker n (by omega)
    rw [List.singleton_append, readHeader, value, if_pos small]
  split
  · rename_i narrow
    exact announce_bigEndian narrow (fun n => .complete (.unsigned n)) rest
  split
  · rename_i narrow
    exact announce_bigEndian narrow (fun n => .complete (.unsigned n)) rest
  split
  · rename_i narrow
    exact announce_bigEndian narrow (fun n => .complete (.unsigned n)) rest
  · exact announce_bigEndian fits (fun n => .complete (.unsigned n)) rest

theorem ofTwosComplement_eq {width : Nat} {n : Int} (lower : -capacity width ≤ 2 * n) :
    ofTwosComplement width (n + capacity width).toNat = n := by
  have whole : ((n + capacity width).toNat : Int) = n + capacity width := by
    apply Int.toNat_of_nonneg
    omega
  have high : ¬2 * (n + capacity width).toNat < capacity width := by omega
  rw [ofTwosComplement, if_neg high, whole]
  omega

theorem readHeader_signed {n : Int} (lower : -0x8000000000000000 ≤ n) (negative : n < 0)
    (rest : Bytes) : readHeader (signedBytes n ++ rest) = some (.complete (.signed n), rest) := by
  obtain ⟨one, two, four, eight⟩ := capacities
  have announced {width : Nat} (fits : -capacity width ≤ 2 * n) :
      announce width (fun n => .complete (.signed (ofTwosComplement width n)))
          (bigEndian width (n + capacity width).toNat ++ rest) =
        some (.complete (.signed n), rest) := by
    have narrow : (n + capacity width).toNat < capacity width := by omega
    rw [announce_bigEndian narrow, ofTwosComplement_eq fits]
  unfold signedBytes
  split
  · rw [one]
    have value := toNat_marker (n + 0x100).toNat (by omega)
    have first : ¬(n + 0x100).toNat < 0x80 := by omega
    have second : ¬(n + 0x100).toNat < 0x90 := by omega
    have third : ¬(n + 0x100).toNat < 0xA0 := by omega
    have fourth : ¬(n + 0x100).toNat < 0xC0 := by omega
    have fifth : 0xE0 ≤ (n + 0x100).toNat := by omega
    have same : (((n + 0x100).toNat : Nat) : Int) - 0x100 = n := by omega
    simp only [List.cons_append, List.nil_append, readHeader, Int.cast_ofNat_Int, value, first,
      second, third, fourth, fifth, if_true, if_false, same]
  split
  · have fits : -capacity 1 ≤ 2 * n := by omega
    exact announced fits
  split
  · have fits : -capacity 2 ≤ 2 * n := by omega
    exact announced fits
  split
  · have fits : -capacity 4 ≤ 2 * n := by omega
    exact announced fits
  · have fits : -capacity 8 ≤ 2 * n := by omega
    exact announced fits

theorem readHeader_text {length : Nat} (fits : length < capacity 4) (rest : Bytes) :
    readHeader (textHeader length ++ rest) = some (.text length, rest) := by
  unfold textHeader
  split
  · have value := toNat_marker (0xA0 + length) (by omega)
    have first : ¬0xA0 + length < 0x80 := by omega
    have second : ¬0xA0 + length < 0x90 := by omega
    have third : ¬0xA0 + length < 0xA0 := by omega
    have fourth : 0xA0 + length < 0xC0 := by omega
    simp only [List.cons_append, List.nil_append, readHeader, value, first, second, third, fourth,
      if_true, if_false, Nat.add_sub_cancel_left]
  split
  · rename_i narrow
    exact announce_bigEndian narrow _ rest
  split
  · rename_i narrow
    exact announce_bigEndian narrow _ rest
  · exact announce_bigEndian fits _ rest

theorem readHeader_bytes {length : Nat} (fits : length < capacity 4) (rest : Bytes) :
    readHeader (bytesHeader length ++ rest) = some (.bytes length, rest) := by
  unfold bytesHeader
  split
  · rename_i narrow
    exact announce_bigEndian narrow _ rest
  split
  · rename_i narrow
    exact announce_bigEndian narrow _ rest
  · exact announce_bigEndian fits _ rest

theorem readHeader_array {length : Nat} (fits : length < capacity 4) (rest : Bytes) :
    readHeader (arrayHeader length ++ rest) = some (.array length, rest) := by
  unfold arrayHeader
  split
  · have value := toNat_marker (0x90 + length) (by omega)
    have first : ¬0x90 + length < 0x80 := by omega
    have second : ¬0x90 + length < 0x90 := by omega
    have third : 0x90 + length < 0xA0 := by omega
    simp only [List.cons_append, List.nil_append, readHeader, value, first, second, third,
      if_true, if_false, Nat.add_sub_cancel_left]
  split
  · rename_i narrow
    exact announce_bigEndian narrow _ rest
  · exact announce_bigEndian fits _ rest

theorem readHeader_map {length : Nat} (fits : length < capacity 4) (rest : Bytes) :
    readHeader (mapHeader length ++ rest) = some (.map length, rest) := by
  unfold mapHeader
  split
  · have value := toNat_marker (0x80 + length) (by omega)
    have first : ¬0x80 + length < 0x80 := by omega
    have second : 0x80 + length < 0x90 := by omega
    simp only [List.cons_append, List.nil_append, readHeader, value, first, second,
      if_true, if_false, Nat.add_sub_cancel_left]
  split
  · rename_i narrow
    exact announce_bigEndian narrow _ rest
  · exact announce_bigEndian fits _ rest

theorem readHeader_extension {length : Nat} (fits : length < capacity 4) (rest : Bytes) :
    readHeader (extensionHeader length ++ rest) = some (.extension length, rest) := by
  unfold extensionHeader
  split
  · rename_i narrow
    exact announce_bigEndian narrow _ rest
  split
  · rename_i narrow
    exact announce_bigEndian narrow _ rest
  · exact announce_bigEndian fits _ rest

/-! ### Items -/

mutual

/-- Whether the numbers and lengths of an item fit the headers there are. -/
def Item.Writable : Item → Prop
  | .unsigned n => n < capacity 8
  | .signed n => -0x8000000000000000 ≤ n ∧ n < 0
  | .text content => content.length < capacity 4
  | .bytes content => content.length < capacity 4
  | .array items => items.length < capacity 4 ∧ Item.AllWritable items
  | .map entries => entries.length < capacity 4 ∧ Item.EntriesWritable entries
  | .extension _ content => content.length < capacity 4
  | .nil | .bool _ | .single _ | .double _ => True

def Item.AllWritable : List Item → Prop
  | [] => True
  | item :: rest => item.Writable ∧ Item.AllWritable rest

def Item.EntriesWritable : List (Item × Item) → Prop
  | [] => True
  | (key, value) :: rest => key.Writable ∧ value.Writable ∧ Item.EntriesWritable rest

end

/-- What the header of an item announces. -/
def Item.announced : Item → Announced
  | .text content => .text content.length
  | .bytes content => .bytes content.length
  | .array items => .array items.length
  | .map entries => .map entries.length
  | .extension _ content => .extension content.length
  | item => .complete item

/-- What is written behind the header of an item. -/
def Item.content (rest : Bytes) : Item → Bytes
  | .text content | .bytes content => content ++ rest
  | .array items => Item.writeAllBefore items rest
  | .map entries => Item.writeEntriesBefore entries rest
  | .extension tag content => tag :: (content ++ rest)
  | _ => rest

theorem Item.readHeader_write {item : Item} (writable : item.Writable) (rest : Bytes) :
    readHeader (item.write ++ rest) = some (item.announced, item.content rest) := by
  rw [← Item.writeBefore_eq]
  cases item with
  | nil => rfl
  | bool value => cases value <;> rfl
  | unsigned n => exact readHeader_unsigned writable rest
  | signed n => exact readHeader_signed writable.1 writable.2 rest
  | single bits =>
      have fits : bits.toNat < capacity 4 := bits.toNat_lt
      have read := announce_bigEndian fits
        (fun bits => .complete (.single (UInt32.ofNat bits))) rest
      rw [UInt32.ofNat_toNat] at read
      exact read
  | double value =>
      have fits : value.bits.toNat < capacity 8 := value.bits.toNat_lt
      have read := announce_bigEndian fits
        (fun bits => .complete (.double ⟨UInt64.ofNat bits⟩)) rest
      rw [UInt64.ofNat_toNat] at read
      exact read
  | text content => exact readHeader_text writable _
  | bytes content => exact readHeader_bytes writable _
  | array items => exact readHeader_array writable.1 _
  | map entries => exact readHeader_map writable.1 _
  | extension tag content => exact readHeader_extension writable _

theorem Item.write_pos {item : Item} (writable : item.Writable) : 0 < item.write.length := by
  have read := Item.readHeader_write writable []
  rw [List.append_nil] at read
  apply List.length_pos_iff.mpr
  intro empty
  rw [empty] at read
  cases read

theorem arrayHeader_pos (length : Nat) : 0 < (arrayHeader length).length := by
  unfold arrayHeader header
  split
  · exact Nat.one_pos
  · split <;> exact Nat.succ_pos _

theorem mapHeader_pos (length : Nat) : 0 < (mapHeader length).length := by
  unfold mapHeader header
  split
  · exact Nat.one_pos
  · split <;> exact Nat.succ_pos _

mutual

/-- An item is read back at any depth that its bytes do not exceed. -/
theorem Item.readWithin_write (item : Item) (writable : item.Writable) (depth : Nat)
    (deep : item.write.length ≤ depth) (rest : Bytes) :
    readWithin depth (item.write ++ rest) = some (item, rest) := by
  have positive := Item.write_pos writable
  have read := Item.readHeader_write writable rest
  cases depth with
  | zero => omega
  | succ depth =>
      rw [readWithin, read]
      cases item with
      | array items =>
          have pos := arrayHeader_pos items.length
          rw [Item.write_array, List.length_append] at deep
          have parts := Item.readMany_writeAll items writable.2 depth (by omega) rest
          rw [← Item.writeAllBefore_eq] at parts
          simp only [Item.announced, Item.content, parts, Option.map_some]
      | map entries =>
          have pos := mapHeader_pos entries.length
          rw [Item.write_map, List.length_append] at deep
          have parts := Item.readEntries_writeEntries entries writable.2 depth (by omega) rest
          rw [← Item.writeEntriesBefore_eq] at parts
          simp only [Item.announced, Item.content, parts, Option.map_some]
      | text content | bytes content | extension tag content =>
          simp only [Item.announced, Item.content, takeBytes_append, Option.map_some]
      | nil | bool value | unsigned n | signed n | single bits | double value => rfl

theorem Item.readMany_writeAll (items : List Item) (writable : Item.AllWritable items) (depth : Nat)
    (deep : (Item.writeAll items).length ≤ depth) (rest : Bytes) :
    readMany (readWithin depth) items.length (Item.writeAll items ++ rest) = some (items, rest) := by
  cases items with
  | nil => rfl
  | cons item others =>
      rw [Item.writeAll_cons, List.length_append] at deep
      have first := Item.readWithin_write item writable.1 depth (by omega)
        (Item.writeAll others ++ rest)
      have second := Item.readMany_writeAll others writable.2 depth (by omega) rest
      simp only [Item.writeAll_cons, List.append_assoc, List.length_cons, readMany, first, second,
        Option.map_some]

theorem Item.readEntries_writeEntries (entries : List (Item × Item))
    (writable : Item.EntriesWritable entries) (depth : Nat)
    (deep : (Item.writeEntries entries).length ≤ depth) (rest : Bytes) :
    readEntries (readWithin depth) entries.length (Item.writeEntries entries ++ rest) =
      some (entries, rest) := by
  cases entries with
  | nil => rfl
  | cons entry others =>
      obtain ⟨key, value⟩ := entry
      rw [Item.writeEntries_cons, List.length_append, List.length_append] at deep
      have first := Item.readWithin_write key writable.1 depth (by omega)
        (value.write ++ (Item.writeEntries others ++ rest))
      have second := Item.readWithin_write value writable.2.1 depth (by omega)
        (Item.writeEntries others ++ rest)
      have third := Item.readEntries_writeEntries others writable.2.2 depth (by omega) rest
      simp only [Item.writeEntries_cons, List.append_assoc, List.length_cons, readEntries, first,
        second, third, Option.map_some]

end

/-- Whole items are read back, with whatever follows them left alone. -/
theorem read_write {item : Item} (writable : item.Writable) (rest : Bytes) :
    read (item.write ++ rest) = some (item, rest) := by
  apply Item.readWithin_write item writable
  rw [List.length_append]
  omega

end ValueChannels.Pack
