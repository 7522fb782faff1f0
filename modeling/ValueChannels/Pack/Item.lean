import ValueChannels.Number.Double

/-!
Items of MessagePack, a binary format of nested arrays and maps. Integers remember whether
they were written in the signed or in the unsigned family, and text is kept as bytes,
because a reader may accept texts that are no UTF-8 where it skips them.
-/

namespace ValueChannels

abbrev Bytes := List UInt8

end ValueChannels

namespace ValueChannels.Pack

def capacity : Nat → Nat
  | 0 => 1
  | width + 1 => 256 * capacity width

theorem capacities : capacity 1 = 0x100 ∧ capacity 2 = 0x10000 ∧ capacity 4 = 0x100000000 ∧
    capacity 8 = 0x10000000000000000 :=
  ⟨rfl, rfl, rfl, rfl⟩

inductive Item where
  | nil
  | bool (value : Bool)
  | unsigned (value : Nat)
  | signed (value : Int)
  | single (bits : UInt32)
  | double (value : Double)
  | text (content : Bytes)
  | bytes (content : Bytes)
  | array (items : List Item)
  | map (entries : List (Item × Item))
  | extension (tag : UInt8) (content : Bytes)
  deriving Inhabited

namespace Item

def ofString (s : String) : Item :=
  .text s.toUTF8.toList

/-- A whole number in the family of its sign. -/
def ofInt (n : Int) : Item :=
  if 0 ≤ n then .unsigned n.toNat else .signed n

/-- A tagged value: a map with the tag as its only key. -/
def tagged (tag : String) (content : Item) : Item :=
  .map [(.ofString tag, content)]

mutual

/-- Whether the items that hold others nest at most `depth` deep; an extension holds its bytes. -/
def fits : Nat → Item → Bool
  | 0, .array _ => false
  | 0, .map _ => false
  | 0, .extension _ _ => false
  | depth + 1, .array items => allFit depth items
  | depth + 1, .map entries => entriesFit depth entries
  | _, _ => true

def allFit (depth : Nat) : List Item → Bool
  | [] => true
  | item :: rest => item.fits depth && allFit depth rest

def entriesFit (depth : Nat) : List (Item × Item) → Bool
  | [] => true
  | (key, value) :: rest => key.fits depth && value.fits depth && entriesFit depth rest

end

end Item

end ValueChannels.Pack
