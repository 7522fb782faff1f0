import ValueChannels.Pack.Item

/-!
Reading items. Every header width is accepted, whether or not a shorter one would do. A
reader returns the item and the bytes behind it, and nothing when the bytes end too early.
-/

namespace ValueChannels.Pack

/-- The number that bytes spell, the highest byte first. -/
def ofBigEndian (bytes : Bytes) : Nat :=
  bytes.foldl (fun value byte => 256 * value + byte.toNat) 0

/-- The first `count` bytes and the rest, unless there are fewer. -/
def takeBytes (count : Nat) (bytes : Bytes) : Option (Bytes × Bytes) :=
  let taken := bytes.take count
  if taken.length = count then some (taken, bytes.drop count) else none

def takeNumber (width : Nat) (bytes : Bytes) : Option (Nat × Bytes) :=
  (takeBytes width bytes).map fun (digits, rest) => (ofBigEndian digits, rest)

/-- The number that `width` bytes of two's complement stand for. -/
def ofTwosComplement (width n : Nat) : Int :=
  if 2 * n < capacity width then n else (n : Int) - capacity width

/-- What the first bytes of an item announce: a complete item, or so many bytes, items or
entries to come. -/
inductive Announced where
  | complete (item : Item)
  | text (length : Nat)
  | bytes (length : Nat)
  | array (length : Nat)
  | map (length : Nat)
  | extension (length : Nat)

/-- Reads a number of `width` bytes into what it announces. -/
def announce (width : Nat) (make : Nat → Announced) (bytes : Bytes) :
    Option (Announced × Bytes) :=
  (takeNumber width bytes).map fun (n, rest) => (make n, rest)

/-- Reads the header of an item. The byte `0xC1` starts no item. -/
def readHeader : Bytes → Option (Announced × Bytes)
  | [] => none
  | marker :: rest =>
      let n := marker.toNat
      if n < 0x80 then some (.complete (.unsigned n), rest)
      else if n < 0x90 then some (.map (n - 0x80), rest)
      else if n < 0xA0 then some (.array (n - 0x90), rest)
      else if n < 0xC0 then some (.text (n - 0xA0), rest)
      else if 0xE0 ≤ n then some (.complete (.signed ((n : Int) - 0x100)), rest)
      else match n with
        | 0xC0 => some (.complete .nil, rest)
        | 0xC2 => some (.complete (.bool false), rest)
        | 0xC3 => some (.complete (.bool true), rest)
        | 0xC4 => announce 1 .bytes rest
        | 0xC5 => announce 2 .bytes rest
        | 0xC6 => announce 4 .bytes rest
        | 0xC7 => announce 1 .extension rest
        | 0xC8 => announce 2 .extension rest
        | 0xC9 => announce 4 .extension rest
        | 0xCA => announce 4 (fun bits => .complete (.single (UInt32.ofNat bits))) rest
        | 0xCB => announce 8 (fun bits => .complete (.double ⟨UInt64.ofNat bits⟩)) rest
        | 0xCC => announce 1 (fun n => .complete (.unsigned n)) rest
        | 0xCD => announce 2 (fun n => .complete (.unsigned n)) rest
        | 0xCE => announce 4 (fun n => .complete (.unsigned n)) rest
        | 0xCF => announce 8 (fun n => .complete (.unsigned n)) rest
        | 0xD0 => announce 1 (fun n => .complete (.signed (ofTwosComplement 1 n))) rest
        | 0xD1 => announce 2 (fun n => .complete (.signed (ofTwosComplement 2 n))) rest
        | 0xD2 => announce 4 (fun n => .complete (.signed (ofTwosComplement 4 n))) rest
        | 0xD3 => announce 8 (fun n => .complete (.signed (ofTwosComplement 8 n))) rest
        | 0xD4 => some (.extension 1, rest)
        | 0xD5 => some (.extension 2, rest)
        | 0xD6 => some (.extension 4, rest)
        | 0xD7 => some (.extension 8, rest)
        | 0xD8 => some (.extension 16, rest)
        | 0xD9 => announce 1 .text rest
        | 0xDA => announce 2 .text rest
        | 0xDB => announce 4 .text rest
        | 0xDC => announce 2 .array rest
        | 0xDD => announce 4 .array rest
        | 0xDE => announce 2 .map rest
        | 0xDF => announce 4 .map rest
        | _ => none

def readMany (read : Bytes → Option (Item × Bytes)) :
    Nat → Bytes → Option (List Item × Bytes)
  | 0, bytes => some ([], bytes)
  | count + 1, bytes =>
      match read bytes with
      | none => none
      | some (item, rest) =>
          (readMany read count rest).map fun (items, after) => (item :: items, after)

def readEntries (read : Bytes → Option (Item × Bytes)) :
    Nat → Bytes → Option (List (Item × Item) × Bytes)
  | 0, bytes => some ([], bytes)
  | count + 1, bytes =>
      match read bytes with
      | none => none
      | some (key, rest) =>
          match read rest with
          | none => none
          | some (value, rest) =>
              (readEntries read count rest).map fun (entries, after) =>
                ((key, value) :: entries, after)

/-- Reads an item whose parts nest less than `depth` deep. -/
def readWithin : Nat → Bytes → Option (Item × Bytes)
  | 0, _ => none
  | depth + 1, bytes =>
      match readHeader bytes with
      | none => none
      | some (.complete item, rest) => some (item, rest)
      | some (.text length, rest) =>
          (takeBytes length rest).map fun (content, after) => (.text content, after)
      | some (.bytes length, rest) =>
          (takeBytes length rest).map fun (content, after) => (.bytes content, after)
      | some (.array length, rest) =>
          (readMany (readWithin depth) length rest).map fun (items, after) => (.array items, after)
      | some (.map length, rest) =>
          (readEntries (readWithin depth) length rest).map fun (entries, after) =>
            (.map entries, after)
      | some (.extension _, []) => none
      | some (.extension length, tag :: rest) =>
          (takeBytes length rest).map fun (content, after) => (.extension tag content, after)

/-- Reads one item. Each level of nesting takes at least one byte. -/
def read (bytes : Bytes) : Option (Item × Bytes) :=
  readWithin (bytes.length + 1) bytes

end ValueChannels.Pack
