import ValueChannels.Proofs.Exchange.Slots

/-!
The keys of a table of slots. Main statements: `find?_eq_some`, that a key is found exactly where its
channel is, and what opening and closing do to the channels of a table.
-/

namespace ValueChannels

namespace Table

variable {table after : Table} {slot other channel : Nat} {key : Int}

/-- The slot and the channel of a key. -/
def find? (table : Table) (key : Int) : Option (Nat × Nat) :=
  (table.slotOf? key).bind fun slot => (table.channel? slot).map (Prod.mk slot)

/-- The keys of channels are positive, and no two channels have the same one. -/
structure Keyed (table : Table) : Prop where
  positive : ∀ slot key channel, table.slot? slot = some (.live key channel) → 0 < key
  distinct : ∀ slot other key channel channel',
    table.slot? slot = some (.live key channel) →
      table.slot? other = some (.live key channel') → slot = other

/-! ### Finding a key -/

theorem slotOf?_eq_some (keyed : table.Keyed) :
    table.slotOf? key = some slot ↔ ∃ channel, table.slot? slot = some (.live key channel) := by
  have live {index : Nat} {inside : index < table.entries.length}
      (has : table.entries[index].hasKey key = true) :
      ∃ channel, table.slot? (index + 1) = some (.live key channel) := by
    rw [slot?, List.getElem?_eq_getElem inside]
    cases entry : table.entries[index] with
    | unused => simp [entry, SlotEntry.hasKey] at has
    | closed => simp [entry, SlotEntry.hasKey] at has
    | live held channel =>
        rw [entry, SlotEntry.hasKey, beq_iff_eq] at has
        exact ⟨channel, by rw [has]⟩
  constructor
  · intro found
    obtain ⟨index, first, same⟩ := Option.map_eq_some_iff.mp found
    obtain ⟨inside, has, _⟩ := List.findIdx?_eq_some_iff_getElem.mp first
    rw [← same]
    exact live has
  · rintro ⟨channel, held⟩
    cases found : table.slotOf? key with
    | some first =>
        -- The first slot with the key is the only one.
        obtain ⟨index, here, same⟩ := Option.map_eq_some_iff.mp found
        obtain ⟨inside, has, _⟩ := List.findIdx?_eq_some_iff_getElem.mp here
        obtain ⟨channel', held'⟩ := live has
        rw [same] at held'
        rw [keyed.distinct _ _ _ _ _ held' held]
    | none =>
        cases slot with
        | zero => cases held
        | succ index =>
            have missing := List.findIdx?_eq_none_iff.mp (Option.map_eq_none_iff.mp found)
            have member := List.mem_of_getElem? held
            have absent := missing _ member
            simp [SlotEntry.hasKey] at absent

theorem find?_eq_some (keyed : table.Keyed) :
    table.find? key = some (slot, channel) ↔ table.slot? slot = some (.live key channel) := by
  rw [find?, Option.bind_eq_some_iff]
  constructor
  · rintro ⟨first, found, leads⟩
    obtain ⟨held, entry⟩ := (slotOf?_eq_some keyed).mp found
    have here : table.channel? first = some held := channel?_eq_some.mpr ⟨key, entry⟩
    rw [here] at leads
    cases leads
    exact entry
  · intro entry
    have leads : table.channel? slot = some channel := channel?_eq_some.mpr ⟨key, entry⟩
    exact ⟨slot, (slotOf?_eq_some keyed).mpr ⟨channel, entry⟩, by rw [leads]; rfl⟩

theorem isSome_slotOf? (keyed : table.Keyed) :
    (table.slotOf? key).isSome = (table.find? key).isSome := by
  cases found : table.slotOf? key with
  | none => rw [find?, found]; rfl
  | some slot =>
      obtain ⟨channel, entry⟩ := (slotOf?_eq_some keyed).mp found
      rw [(find?_eq_some keyed).mpr entry]
      rfl

/-! ### Opening and closing -/

theorem slot?_setEntry_same {entry : SlotEntry} (held : SlotEntry)
    (present : table.slot? slot = some held) : (table.setEntry slot entry).slot? slot = some entry := by
  cases slot with
  | zero => cases present
  | succ index =>
      have inside := (List.getElem?_eq_some_iff.mp present).1
      simp [slot?, setEntry, inside]

theorem slot?_setEntry_other {entry : SlotEntry} (different : other ≠ slot) :
    (table.setEntry slot entry).slot? other = table.slot? other := by
  cases slot with
  | zero => rfl
  | succ index =>
      cases other with
      | zero => rfl
      | succ place =>
          have apart : index ≠ place := fun same => different (congrArg Nat.succ same.symm)
          simp [slot?, setEntry, List.getElem?_set_ne apart]

theorem reserve_vacant (table : Table) (factor : Nat) :
    ∀ key channel, (table.reserve factor).2.slot? (table.reserve factor).1 ≠
      some (.live key channel) := by
  intro key channel held
  unfold reserve at held
  cases free : table.freeSlot? with
  | some slot =>
      rw [free] at held
      obtain ⟨index, found, same⟩ := Option.map_eq_some_iff.mp free
      obtain ⟨inside, vacant, _⟩ := List.findIdx?_eq_some_iff_getElem.mp found
      subst same
      have entry : table.entries[index] = .live key channel :=
        (List.getElem?_eq_some_iff.mp held).2
      simp [entry, SlotEntry.isLive] at vacant
  | none =>
      rw [free] at held
      have added : (table.grow factor).entries[table.entries.length]? = some (.live key channel) :=
        held
      rw [grow, List.getElem?_append_right (Nat.le_refl _)] at added
      cases List.eq_of_mem_replicate (List.mem_of_getElem? added)

theorem live_reserve (factor : Nat) :
    (table.reserve factor).2.slot? slot = some (.live key channel) ↔
      table.slot? slot = some (.live key channel) := by
  rw [reserve]
  split
  · rfl
  · rcases Nat.lt_or_ge slot table.capacity with inside | outside
    · rw [slot?_grow table factor inside]
    · obtain ⟨index, same⟩ := Nat.exists_eq_add_of_le' (Nat.le_trans (Nat.le_add_left 1 _) outside)
      subst same
      have beyond : table.entries.length ≤ index := Nat.le_of_succ_le_succ outside
      constructor
      · intro held
        simp only [slot?, grow, List.getElem?_append_right beyond] at held
        cases List.eq_of_mem_replicate (List.mem_of_getElem? held)
      · intro held
        rw [slot?, List.getElem?_eq_none beyond] at held
        cases held

/-- The channels of an opened table: those of the table before, and the new one in a slot that had
none. -/
theorem live_open? {factor : Nat} (grows : 2 ≤ factor) {new : Int} {made : Nat}
    (opened : table.open? factor new made = some (.ok (slot, after))) :
    after.slot? other = some (.live key channel) ↔
      (other = slot ∧ key = new ∧ channel = made) ∨
        (other ≠ slot ∧ table.slot? other = some (.live key channel)) := by
  obtain ⟨place, whole⟩ := open?_eq_ok opened
  obtain ⟨index, behind, inside⟩ := table.reserve_inside grows
  rw [behind] at place
  have held : (table.reserve factor).2.slot? slot = some (table.reserve factor).2.entries[index] := by
    rw [place]
    exact List.getElem?_eq_getElem inside
  by_cases here : other = slot
  · rw [whole, here, slot?_setEntry_same _ held]
    constructor
    · intro same
      cases same
      exact Or.inl ⟨rfl, rfl, rfl⟩
    · rintro (⟨_, rfl, rfl⟩ | ⟨apart, _⟩)
      · rfl
      · exact absurd rfl apart
  · rw [whole, slot?_setEntry_other here, live_reserve]
    constructor
    · intro old
      exact Or.inr ⟨here, old⟩
    · rintro (⟨same, _⟩ | ⟨_, old⟩)
      · exact absurd same here
      · exact old

theorem live_close? {taken : Option Nat} (closed : table.close? slot = some (taken, after)) :
    after.slot? other = some (.live key channel) ↔
      other ≠ slot ∧ table.slot? other = some (.live key channel) := by
  unfold close? at closed
  split at closed
  · rename_i held inside entry
    cases closed
    by_cases here : other = slot
    · rw [here, slot?_setEntry_same _ entry]
      simp
    · rw [slot?_setEntry_other here]
      exact ⟨fun held => ⟨here, held⟩, And.right⟩
  · rename_i entry
    cases closed
    constructor
    · intro held
      refine ⟨?_, held⟩
      intro here
      rw [here, entry] at held
      cases held
    · exact And.right
  · cases closed

theorem close?_live : table.close? slot = some (some channel, table.setEntry slot .closed) ↔
    ∃ key, table.slot? slot = some (.live key channel) := by
  unfold close?
  cases held : table.slot? slot with
  | none => simp
  | some entry => cases entry <;> simp

theorem keyed_ofCapacity (capacity : Nat) : (ofCapacity capacity).Keyed := by
  have none_ (slot : Nat) (key : Int) (channel : Nat) :
      (ofCapacity capacity).slot? slot ≠ some (.live key channel) := fun held =>
    channel?_ofCapacity capacity slot channel (channel?_eq_some.mpr ⟨key, held⟩)
  exact ⟨fun slot key channel held => absurd held (none_ slot key channel),
    fun slot _ key channel _ held => absurd held (none_ slot key channel)⟩

theorem open?_accepts {factor : Nat} {new : Int} {made : Nat}
    (opened : table.open? factor new made = some (.ok (slot, after))) :
    0 < new ∧ table.slotOf? new = none ∧ table.hasRoom factor = true := by
  unfold Table.open? at opened
  split at opened
  · cases opened
  · split at opened
    · cases opened
    · split at opened
      · rename_i positive unknown room
        exact ⟨by omega, by simpa using unknown, room⟩
      · cases opened

/-- There is no answer only for want of room. -/
theorem open?_eq_none {factor : Nat} {new : Int} {made : Nat}
    (stopped : table.open? factor new made = none) : table.hasRoom factor = false := by
  unfold Table.open? at stopped
  split at stopped
  · cases stopped
  · split at stopped
    · cases stopped
    · split at stopped
      · cases stopped
      · rename_i room
        simpa using room

theorem open?_refuses {factor : Nat} {new : Int} {made : Nat} {err : ChannelError}
    (refused : table.open? factor new made = some (.error err)) :
    ¬(0 < new ∧ table.slotOf? new = none) := by
  rintro ⟨positive, unknown⟩
  rw [Table.open?, if_neg (by omega), unknown] at refused
  simp only [Option.isSome_none, Bool.false_eq_true, if_false] at refused
  split at refused <;> cases refused

theorem Keyed.open? (keyed : table.Keyed) {factor : Nat} (grows : 2 ≤ factor) {new : Int}
    {made : Nat} (opened : table.open? factor new made = some (.ok (slot, after))) : after.Keyed := by
  have accepted := open?_accepts opened
  have unknown (slot channel : Nat) : table.slot? slot ≠ some (.live new channel) := by
    intro held
    rw [(slotOf?_eq_some keyed).mpr ⟨channel, held⟩] at accepted
    cases accepted.2.1
  constructor
  · intro slot key channel held
    rcases (live_open? grows opened).mp held with ⟨_, isNew, _⟩ | ⟨_, old⟩
    · rw [isNew]
      exact accepted.1
    · exact keyed.positive slot key channel old
  · intro first second key channel channel' held held'
    rcases (live_open? grows opened).mp held with ⟨here, isNew, _⟩ | ⟨_, old⟩
    · rcases (live_open? grows opened).mp held' with ⟨there, _⟩ | ⟨_, old'⟩
      · rw [here, there]
      · rw [isNew] at old'
        exact absurd old' (unknown second channel')
    · rcases (live_open? grows opened).mp held' with ⟨_, isNew, _⟩ | ⟨_, old'⟩
      · rw [isNew] at old
        exact absurd old (unknown first channel)
      · exact keyed.distinct _ _ _ _ _ old old'

theorem Keyed.close? (keyed : table.Keyed) {taken : Option Nat}
    (closed : table.close? slot = some (taken, after)) : after.Keyed := by
  constructor
  · intro other key channel held
    exact keyed.positive other key channel ((live_close? closed).mp held).2
  · intro first second key channel channel' held held'
    exact keyed.distinct _ _ _ _ _ ((live_close? closed).mp held).2 ((live_close? closed).mp held').2

end Table

end ValueChannels
