import ValueChannels.Exchange.Table

/-!
The table of channels in two rows of equal length, one of keys and one of channels, both by slot
from slot 0 on. What a slot without a channel remembers is told by its key. Main statements: every
operation of the table is the operation of the two rows.
-/

namespace ValueChannels

/-- A row of keys and a row of channels. -/
structure Columns where
  keys : List Int
  channels : List (Option Nat)

namespace Columns

/-- The key of a slot that was never used. -/
def freeKey : Int := 0

/-- The key of a slot whose channel was closed. -/
def closedKey : Int := -1

def ofCapacity (capacity : Nat) : Columns :=
  { keys := List.replicate capacity freeKey, channels := List.replicate capacity none }

/-- The channel in a slot. Slot 0 has none, whatever stands there. -/
def channel? (columns : Columns) (slot : Nat) : Option Nat :=
  if slot = 0 then none else columns.channels[slot]?.join

/-- The first slot behind slot 0 with this key and with a channel. -/
def slotOf? (columns : Columns) (key : Int) : Option Nat :=
  ((columns.keys.zip columns.channels).tail.findIdx? fun (other, channel) =>
    other == key && channel.isSome).map (· + 1)

/-- The first slot behind slot 0 without a channel. -/
def freeSlot? (columns : Columns) : Option Nat :=
  (columns.channels.tail.findIdx? fun channel => channel.isNone).map (· + 1)

/-- Whether a channel more can be taken in without a capacity that is no machine word. -/
def hasRoom (columns : Columns) (factor : Nat) : Bool :=
  columns.freeSlot?.isSome || decide (columns.keys.length * factor < UInt64.size)

def grow (columns : Columns) (factor : Nat) : Columns :=
  let capacity := columns.keys.length * factor
  { keys := columns.keys ++ List.replicate (capacity - columns.keys.length) freeKey
    channels := columns.channels ++ List.replicate (capacity - columns.channels.length) none }

def set (columns : Columns) (slot : Nat) (key : Int) (channel : Option Nat) : Columns :=
  { keys := columns.keys.set slot key, channels := columns.channels.set slot channel }

def reserve (columns : Columns) (factor : Nat) : Nat × Columns :=
  match columns.freeSlot? with
  | some slot => (slot, columns)
  | none => (columns.keys.length, columns.grow factor)

def open? (columns : Columns) (factor : Nat) (key : Int) (channel : Nat) :
    Option (Except ChannelError (Nat × Columns)) :=
  if key ≤ 0 then some (.error (.invalidKey key))
  else if (columns.slotOf? key).isSome then some (.error (.duplicateKey key))
  else if columns.hasRoom factor then
    let (slot, columns) := columns.reserve factor
    some (.ok (slot, columns.set slot key (some channel)))
  else none

def close? (columns : Columns) (slot : Nat) : Option (Option Nat × Columns) :=
  if slot = 0 ∨ columns.channels.length ≤ slot then none
  else
    match columns.channels[slot]?.join with
    | some channel => some (some channel, columns.set slot closedKey none)
    | none => if columns.keys[slot]? = some closedKey then some (none, columns) else none

end Columns

namespace SlotEntry

def key : SlotEntry → Int
  | .unused => Columns.freeKey
  | .closed => Columns.closedKey
  | .live key _ => key

def channel? : SlotEntry → Option Nat
  | .live _ channel => some channel
  | _ => none

theorem isNone_channel? (entry : SlotEntry) : entry.channel?.isNone = !entry.isLive := by
  cases entry <;> rfl

theorem hasKey_eq (key : Int) (entry : SlotEntry) :
    entry.hasKey key = (entry.key == key && entry.channel?.isSome) := by
  cases entry <;> simp [hasKey, SlotEntry.key, channel?]

end SlotEntry

namespace Table

/-- The two rows of a table. Slot 0 has the key of a slot that was never used, and no channel. -/
def columns (table : Table) : Columns :=
  { keys := Columns.freeKey :: table.entries.map SlotEntry.key
    channels := none :: table.entries.map SlotEntry.channel? }

variable (table : Table)

theorem keys_columns (index : Nat) :
    table.columns.keys[index + 1]? = (table.slot? (index + 1)).map SlotEntry.key := by
  simp [columns, slot?]

theorem channels_columns (index : Nat) :
    table.columns.channels[index + 1]? = (table.slot? (index + 1)).map SlotEntry.channel? := by
  simp [columns, slot?]

theorem columns_channel? (slot : Nat) : table.columns.channel? slot = table.channel? slot := by
  cases slot with
  | zero => rfl
  | succ index =>
      rw [Columns.channel?, if_neg (Nat.succ_ne_zero index), channels_columns, channel?]
      cases table.slot? (index + 1) with
      | none => rfl
      | some entry => cases entry <;> rfl

theorem columns_slotOf? (key : Int) : table.columns.slotOf? key = table.slotOf? key := by
  have rows : (table.columns.keys.zip table.columns.channels).tail =
      table.entries.map fun entry => (entry.key, entry.channel?) := by
    simp [columns, List.zip_map']
  rw [Columns.slotOf?, slotOf?, rows, List.findIdx?_map]
  congr 2
  funext entry
  exact (SlotEntry.hasKey_eq key entry).symm

theorem columns_freeSlot? : table.columns.freeSlot? = table.freeSlot? := by
  have row : table.columns.channels.tail = table.entries.map SlotEntry.channel? := rfl
  rw [Columns.freeSlot?, freeSlot?, row, List.findIdx?_map]
  congr 2
  funext entry
  exact entry.isNone_channel?

theorem length_columns : table.columns.keys.length = table.capacity := by
  simp [columns, capacity]

theorem columns_hasRoom (factor : Nat) : table.columns.hasRoom factor = table.hasRoom factor := by
  rw [Columns.hasRoom, hasRoom, columns_freeSlot?, length_columns]

theorem columns_grow (factor : Nat) : (table.grow factor).columns = table.columns.grow factor := by
  simp [columns, grow, Columns.grow, capacity, SlotEntry.key, SlotEntry.channel?]

theorem columns_setEntry (index : Nat) (entry : SlotEntry) :
    (table.setEntry (index + 1) entry).columns =
      table.columns.set (index + 1) entry.key entry.channel? := by
  simp [columns, setEntry, Columns.set, List.map_set]

theorem columns_reserve (factor : Nat) :
    table.columns.reserve factor =
      ((table.reserve factor).1, (table.reserve factor).2.columns) := by
  rw [Columns.reserve, reserve, columns_freeSlot?]
  cases table.freeSlot? with
  | some slot => rfl
  | none => rw [length_columns, columns_grow]

theorem reserve_behind (factor : Nat) : ∃ index, (table.reserve factor).1 = index + 1 := by
  rw [reserve]
  cases free : table.freeSlot? with
  | some slot =>
      obtain ⟨index, _, same⟩ := Option.map_eq_some_iff.mp free
      exact ⟨index, same.symm⟩
  | none => exact ⟨table.entries.length, rfl⟩

/-- Opening a channel works on the two rows as it works on the table. -/
theorem columns_open? (factor : Nat) (key : Int) (channel : Nat) :
    table.columns.open? factor key channel =
      (table.open? factor key channel).map fun answer =>
        answer.map fun (slot, after) => (slot, after.columns) := by
  rw [Columns.open?, open?, columns_slotOf?, columns_hasRoom, columns_reserve]
  split
  · rfl
  · split
    · rfl
    · split
      · obtain ⟨index, behind⟩ := table.reserve_behind factor
        have written := (table.reserve factor).2.columns_setEntry index (.live key channel)
        rw [← behind] at written
        simp only [Option.map_some, Except.map, written]
        rfl
      · rfl

theorem columns_close? (slot : Nat) :
    table.columns.close? slot =
      (table.close? slot).map fun (channel, after) => (channel, after.columns) := by
  cases slot with
  | zero => rfl
  | succ index =>
      have length : table.columns.channels.length = table.entries.length + 1 := by simp [columns]
      rw [Columns.close?, close?, channels_columns, keys_columns, length]
      cases held : table.slot? (index + 1) with
      | none =>
          have outside : table.entries.length ≤ index := List.getElem?_eq_none_iff.mp held
          rw [if_pos (Or.inr (Nat.succ_le_succ outside))]
          rfl
      | some entry =>
          have inside : index < table.entries.length := (List.getElem?_eq_some_iff.mp held).1
          rw [if_neg (by omega)]
          cases entry with
          | unused => rfl
          | closed => rfl
          | live key channel =>
              simp only [Option.map_some, columns_setEntry]
              rfl

end Table

end ValueChannels
