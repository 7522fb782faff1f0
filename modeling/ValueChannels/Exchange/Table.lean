import ValueChannels.Message.Error

/-!
The table of channels by slot. Slots are numbered from 1 on; a new channel takes the lowest
slot without a channel, and the table grows when there is none, as far as its capacity stays
a machine word. A slot whose channel was
closed remembers that until it is used again. Main statements: which slot a channel takes,
and that growing moves no entry.
-/

namespace ValueChannels

inductive SlotEntry where
  | unused
  | closed
  | live (key : Int) (channel : Nat)
  deriving DecidableEq

namespace SlotEntry

def isLive : SlotEntry → Bool
  | .live _ _ => true
  | _ => false

def hasKey (key : Int) : SlotEntry → Bool
  | .live other _ => other == key
  | _ => false

end SlotEntry

structure Table where
  entries : List SlotEntry
  deriving DecidableEq

namespace Table

/-- The number of slots, with the slot 0 that is never used. -/
def capacity (table : Table) : Nat :=
  table.entries.length + 1

def ofCapacity (capacity : Nat) : Table :=
  ⟨List.replicate (capacity - 1) .unused⟩

def liveCount (table : Table) : Nat :=
  table.entries.countP SlotEntry.isLive

/-- The entry of a slot inside the table. -/
def slot? (table : Table) (slot : Nat) : Option SlotEntry :=
  match slot with
  | 0 => none
  | index + 1 => table.entries[index]?

def channel? (table : Table) (slot : Nat) : Option Nat :=
  match table.slot? slot with
  | some (.live _ channel) => some channel
  | _ => none

def setEntry (table : Table) (slot : Nat) (entry : SlotEntry) : Table :=
  match slot with
  | 0 => table
  | index + 1 => ⟨table.entries.set index entry⟩

/-- The slot of the channel with a key. -/
def slotOf? (table : Table) (key : Int) : Option Nat :=
  (table.entries.findIdx? (SlotEntry.hasKey key)).map (· + 1)

/-- The lowest slot without a channel. -/
def freeSlot? (table : Table) : Option Nat :=
  (table.entries.findIdx? fun entry => !entry.isLive).map (· + 1)

/-- Whether a channel more can be taken in: in a slot without one, or in a table that has grown.
The capacity of that has to be a machine word, of which there are `UInt64.size`. -/
def hasRoom (table : Table) (factor : Nat) : Bool :=
  table.freeSlot?.isSome || decide (table.capacity * factor < UInt64.size)

/-- The table with a multiple of its capacity, which is only ever made where there is room. -/
def grow (table : Table) (factor : Nat) : Table :=
  ⟨table.entries ++ List.replicate (table.capacity * factor - table.capacity) .unused⟩

/-- The lowest slot without a channel, in a table that has one: the first slot of the added part
when the table had to grow. -/
def reserve (table : Table) (factor : Nat) : Nat × Table :=
  match table.freeSlot? with
  | some slot => (slot, table)
  | none => (table.capacity, table.grow factor)

/-- Enters a channel under a key that no live channel has. There is no answer for a channel that
the table has no room for, because the capacity overflows. -/
def open? (table : Table) (factor : Nat) (key : Int) (channel : Nat) :
    Option (Except ChannelError (Nat × Table)) :=
  if key ≤ 0 then some (.error (.invalidKey key))
  else if (table.slotOf? key).isSome then some (.error (.duplicateKey key))
  else if table.hasRoom factor then
    let (slot, table) := table.reserve factor
    some (.ok (slot, table.setEntry slot (.live key channel)))
  else none

/-- Takes the channel out of a slot. Nothing is left to take when the slot was closed before, and
a slot that was never used, or does not exist, cannot be closed. -/
def close? (table : Table) (slot : Nat) : Option (Option Nat × Table) :=
  match table.slot? slot with
  | some (.live _ channel) => some (some channel, table.setEntry slot .closed)
  | some .closed => some (none, table)
  | _ => none

theorem capacity_grow (table : Table) {factor : Nat} (positive : 0 < factor) :
    (table.grow factor).capacity = table.capacity * factor := by
  have least : table.capacity ≤ table.capacity * factor := Nat.le_mul_of_pos_right _ positive
  have whole : table.capacity = table.entries.length + 1 := rfl
  have length : (table.grow factor).capacity =
      table.entries.length + (table.capacity * factor - table.capacity) + 1 := by
    simp [grow, capacity]
  omega

theorem slot?_grow (table : Table) (factor : Nat) {slot : Nat} (inside : slot < table.capacity) :
    (table.grow factor).slot? slot = table.slot? slot := by
  cases slot with
  | zero => rfl
  | succ index =>
      have bound : index < table.entries.length := Nat.lt_of_succ_lt_succ inside
      simp [slot?, grow, List.getElem?_append_left bound]

theorem freeSlot?_least {table : Table} {slot lower : Nat} (free : table.freeSlot? = some slot)
    (positive : 0 < lower) (below : lower < slot) : (table.channel? lower).isSome = true := by
  unfold freeSlot? at free
  obtain ⟨index, found, same⟩ := Option.map_eq_some_iff.mp free
  subst same
  obtain ⟨_, _, earlier⟩ := List.findIdx?_eq_some_iff_getElem.mp found
  cases lower with
  | zero => exact absurd positive (Nat.lt_irrefl 0)
  | succ previous =>
      have before : previous < index := Nat.lt_of_succ_lt_succ below
      have live := earlier previous before
      have bound : previous < table.entries.length := by omega
      simp only [channel?, slot?, List.getElem?_eq_getElem bound]
      cases held : table.entries[previous] with
      | unused => simp [held, SlotEntry.isLive] at live
      | closed => simp [held, SlotEntry.isLive] at live
      | live key channel => rfl

end Table

end ValueChannels
