import ValueChannels.Pack.Item

/-!
Decoders from items to typed data. A decoder knows how many levels of arrays and maps may
still be entered; the map around a tagged value is not counted. Records may be written as
arrays in the order of their fields or as maps by field name, and tags and names may be
given by their position.
-/

namespace ValueChannels.Pack

abbrev Decoder (α : Type) := Nat → Item → Option α

/-- How deep arrays and maps may nest in one message. -/
def nestingLimit : Nat := 1023

namespace Item

def toText? : Item → Option String
  | .text content | .bytes content => String.fromUTF8? ⟨content.toArray⟩
  | _ => none

def toBool? : Item → Option Bool
  | .bool value => some value
  | _ => none

def toInt? : Item → Option Int
  | .unsigned n => some n
  | .signed n => some n
  | _ => none

def toInt32? (item : Item) : Option Int32 :=
  match item.toInt? with
  | some n => if -0x80000000 ≤ n ∧ n < 0x80000000 then some (Int32.ofInt n) else none
  | none => none

def toUInt32? (item : Item) : Option UInt32 :=
  match item.toInt? with
  | some n => if 0 ≤ n ∧ n < UInt32.size then some (UInt32.ofNat n.toNat) else none
  | none => none

/-- A double may be written in any form of number. -/
def toDouble? : Item → Option Double
  | .double x => some x
  | .single bits => some (Double.ofSingle bits)
  | .unsigned n => some (Double.ofInt n)
  | .signed n => some (Double.ofInt n)
  | _ => none

/-- Which of the names an item gives, by itself or by its position; `none` inside for a name
that is not among them. -/
def nameIndex? (names : List String) : Item → Option (Option Nat)
  | .text content | .bytes content =>
      some (names.findIdx? fun name => name.toUTF8.toList == content)
  | .unsigned n => some (if n < names.length then some n else none)
  | _ => none

/-- The position of the tag of a tagged value, and the content where the tag has one. -/
def tag? (tags : List String) : Item → Option (Nat × Option Item)
  | .map [(tag, content)] =>
      match tag.nameIndex? tags with
      | some (some index) => some (index, some content)
      | _ => none
  | .map _ => none
  | item =>
      match item.nameIndex? tags with
      | some (some index) => some (index, none)
      | _ => none

/-- Enters the entries of a record into the row of its fields. A field may not come twice, and
what stands under other names is skipped. -/
def collectFields (names : List String) (depth : Nat) :
    List (Item × Item) → List (Option Item) → Option (List (Option Item))
  | [], found => some found
  | (key, value) :: rest, found =>
      match key.nameIndex? names with
      | none => none
      | some none => if value.fits depth then collectFields names depth rest found else none
      | some (some index) =>
          match found[index]? with
          | some none => collectFields names depth rest (found.set index (some value))
          | _ => none

/-- The fields of a record in order, with nothing where a map leaves one out. -/
def fields? (names : List String) (depth : Nat) : Item → Option (List (Option Item))
  | .array items => if items.length = names.length then some (items.map some) else none
  | .map entries => collectFields names depth entries (names.map fun _ => none)
  | _ => none

end Item

namespace Decoder

variable {α β : Type}

def leaf (convert : Item → Option α) : Decoder α :=
  fun _ item => convert item

/-- A record, whose fields lie one level deeper. -/
def record (names : List String) (build : Nat → List (Option Item) → Option α) : Decoder α
  | 0, _ => none
  | depth + 1, item => (item.fields? names depth).bind (build depth)

/-- A sequence, whose elements lie one level deeper. Bytes are a sequence at no depth. -/
def list (element : Decoder α) : Decoder (List α)
  | depth, .bytes content =>
      (content.map fun byte => Item.unsigned byte.toNat).mapM (element depth)
  | 0, _ => none
  | depth + 1, .array items => items.mapM (element depth)
  | _, _ => none

def pair (first : Decoder α) (second : Decoder β) : Decoder (α × β)
  | 0, _ => none
  | depth + 1, .array [x, y] =>
      match first depth x, second depth y with
      | some a, some b => some (a, b)
      | _, _ => none
  | _, _ => none

def optional (inner : Decoder α) : Decoder (Option α)
  | _, .nil => some none
  | depth, item => (inner depth item).map some

/-- A field that may be nil or missing. -/
def optionalField (inner : Decoder α) (depth : Nat) : Option Item → Option (Option α)
  | none => some none
  | some item => optional inner depth item

end Decoder

end ValueChannels.Pack
