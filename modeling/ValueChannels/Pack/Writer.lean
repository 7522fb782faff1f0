import ValueChannels.Pack.Item

/-!
The bytes of an item. Every header is the shortest one for its number. Main statement: writing
in front of other bytes puts the item's own bytes there and leaves the others as they are.
-/

namespace ValueChannels.Pack

/-- The lowest `width` bytes of a number, the highest of them first. -/
def bigEndian : Nat → Nat → Bytes
  | 0, _ => []
  | width + 1, n => UInt8.ofNat (n / capacity width) :: bigEndian width n

/-- A header byte with a number of `width` bytes behind it. -/
def header (marker : UInt8) (width n : Nat) : Bytes :=
  marker :: bigEndian width n

def unsignedBytes (n : Nat) : Bytes :=
  if n < 0x80 then [UInt8.ofNat n]
  else if n < capacity 1 then header 0xCC 1 n
  else if n < capacity 2 then header 0xCD 2 n
  else if n < capacity 4 then header 0xCE 4 n
  else header 0xCF 8 n

/-- A negative number, in two's complement of the width that holds it. -/
def signedBytes (n : Int) : Bytes :=
  if -0x20 ≤ n then [UInt8.ofNat (n + capacity 1).toNat]
  else if -0x80 ≤ n then header 0xD0 1 (n + capacity 1).toNat
  else if -0x8000 ≤ n then header 0xD1 2 (n + capacity 2).toNat
  else if -0x80000000 ≤ n then header 0xD2 4 (n + capacity 4).toNat
  else header 0xD3 8 (n + capacity 8).toNat

def textHeader (length : Nat) : Bytes :=
  if length < 0x20 then [UInt8.ofNat (0xA0 + length)]
  else if length < capacity 1 then header 0xD9 1 length
  else if length < capacity 2 then header 0xDA 2 length
  else header 0xDB 4 length

def bytesHeader (length : Nat) : Bytes :=
  if length < capacity 1 then header 0xC4 1 length
  else if length < capacity 2 then header 0xC5 2 length
  else header 0xC6 4 length

def arrayHeader (length : Nat) : Bytes :=
  if length < 0x10 then [UInt8.ofNat (0x90 + length)]
  else if length < capacity 2 then header 0xDC 2 length
  else header 0xDD 4 length

def mapHeader (length : Nat) : Bytes :=
  if length < 0x10 then [UInt8.ofNat (0x80 + length)]
  else if length < capacity 2 then header 0xDE 2 length
  else header 0xDF 4 length

def extensionHeader (length : Nat) : Bytes :=
  if length < capacity 1 then header 0xC7 1 length
  else if length < capacity 2 then header 0xC8 2 length
  else header 0xC9 4 length

mutual

/-- The bytes that an item is written as, in front of the bytes that follow it. What is already
written is never copied again, however deep the items nest. -/
def Item.writeBefore : Item → Bytes → Bytes
  | .nil, behind => 0xC0 :: behind
  | .bool false, behind => 0xC2 :: behind
  | .bool true, behind => 0xC3 :: behind
  | .unsigned n, behind => unsignedBytes n ++ behind
  | .signed n, behind => signedBytes n ++ behind
  | .single bits, behind => header 0xCA 4 bits.toNat ++ behind
  | .double x, behind => header 0xCB 8 x.bits.toNat ++ behind
  | .text content, behind => textHeader content.length ++ (content ++ behind)
  | .bytes content, behind => bytesHeader content.length ++ (content ++ behind)
  | .array items, behind => arrayHeader items.length ++ Item.writeAllBefore items behind
  | .map entries, behind => mapHeader entries.length ++ Item.writeEntriesBefore entries behind
  | .extension tag content, behind =>
      extensionHeader content.length ++ tag :: (content ++ behind)

def Item.writeAllBefore : List Item → Bytes → Bytes
  | [], behind => behind
  | item :: rest, behind => item.writeBefore (Item.writeAllBefore rest behind)

def Item.writeEntriesBefore : List (Item × Item) → Bytes → Bytes
  | [], behind => behind
  | (key, value) :: rest, behind =>
      key.writeBefore (value.writeBefore (Item.writeEntriesBefore rest behind))

end

def Item.write (item : Item) : Bytes :=
  item.writeBefore []

def Item.writeAll (items : List Item) : Bytes :=
  Item.writeAllBefore items []

/-- The bytes of the entries of a map, each key before its value. -/
def Item.writeEntries (entries : List (Item × Item)) : Bytes :=
  Item.writeEntriesBefore entries []

mutual

theorem Item.writeBefore_append (item : Item) (first second : Bytes) :
    item.writeBefore (first ++ second) = item.writeBefore first ++ second := by
  cases item with
  | array items => simp [Item.writeBefore, Item.writeAllBefore_append items]
  | map entries => simp [Item.writeBefore, Item.writeEntriesBefore_append entries]
  | bool b => cases b <;> simp [Item.writeBefore]
  | _ => simp [Item.writeBefore]

theorem Item.writeAllBefore_append (items : List Item) (first second : Bytes) :
    Item.writeAllBefore items (first ++ second) = Item.writeAllBefore items first ++ second := by
  cases items with
  | nil => rfl
  | cons item rest =>
      simp only [Item.writeAllBefore]
      rw [Item.writeAllBefore_append rest, Item.writeBefore_append item]

theorem Item.writeEntriesBefore_append (entries : List (Item × Item)) (first second : Bytes) :
    Item.writeEntriesBefore entries (first ++ second)
      = Item.writeEntriesBefore entries first ++ second := by
  cases entries with
  | nil => rfl
  | cons entry rest =>
      obtain ⟨key, value⟩ := entry
      simp only [Item.writeEntriesBefore]
      rw [Item.writeEntriesBefore_append rest, Item.writeBefore_append value,
        Item.writeBefore_append key]

end

theorem Item.writeBefore_eq (item : Item) (behind : Bytes) :
    item.writeBefore behind = item.write ++ behind :=
  item.writeBefore_append [] behind

theorem Item.writeAllBefore_eq (items : List Item) (behind : Bytes) :
    Item.writeAllBefore items behind = Item.writeAll items ++ behind :=
  Item.writeAllBefore_append items [] behind

theorem Item.writeEntriesBefore_eq (entries : List (Item × Item)) (behind : Bytes) :
    Item.writeEntriesBefore entries behind = Item.writeEntries entries ++ behind :=
  Item.writeEntriesBefore_append entries [] behind

theorem Item.write_array (items : List Item) :
    (Item.array items).write = arrayHeader items.length ++ Item.writeAll items := by
  simp [Item.write, Item.writeAll, Item.writeBefore]

theorem Item.write_map (entries : List (Item × Item)) :
    (Item.map entries).write = mapHeader entries.length ++ Item.writeEntries entries := by
  simp [Item.write, Item.writeEntries, Item.writeBefore]

@[simp] theorem Item.writeAll_nil : Item.writeAll [] = [] := by
  simp [Item.writeAll, Item.writeAllBefore]

@[simp] theorem Item.writeAll_cons (item : Item) (rest : List Item) :
    Item.writeAll (item :: rest) = item.write ++ Item.writeAll rest := by
  rw [Item.writeAll, Item.writeAllBefore, Item.writeBefore_eq, Item.writeAllBefore_eq,
    List.append_nil]

@[simp] theorem Item.writeEntries_nil : Item.writeEntries [] = [] := by
  simp [Item.writeEntries, Item.writeEntriesBefore]

@[simp] theorem Item.writeEntries_cons (key value : Item) (rest : List (Item × Item)) :
    Item.writeEntries ((key, value) :: rest)
      = key.write ++ (value.write ++ Item.writeEntries rest) := by
  rw [Item.writeEntries, Item.writeEntriesBefore, Item.writeBefore_eq, Item.writeBefore_eq,
    Item.writeEntriesBefore_eq, List.append_nil]

end ValueChannels.Pack
