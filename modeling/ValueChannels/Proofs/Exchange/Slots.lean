import ValueChannels.Exchange.Table

/-!
The channels that a table of slots leads to. Main statements: opening adds the new channel and
no other and leads to it by its slot, closing takes one channel out, and no two slots ever
lead to the same channel.
-/

namespace ValueChannels.Table

variable {table after : Table}

/-- No two slots lead to the same channel. -/
def Single (table : Table) : Prop :=
  ∀ slot other channel, table.channel? slot = some channel → table.channel? other = some channel →
    slot = other

theorem channel?_eq_some {slot channel : Nat} :
    table.channel? slot = some channel ↔ ∃ key, table.slot? slot = some (.live key channel) := by
  unfold channel?
  constructor
  · intro found
    split at found
    · rename_i key inside entry
      cases found
      exact ⟨key, entry⟩
    · cases found
  · rintro ⟨key, entry⟩
    rw [entry]

theorem channel?_ofCapacity (capacity slot channel : Nat) :
    ¬(ofCapacity capacity).channel? slot = some channel := by
  intro found
  obtain ⟨key, entry⟩ := channel?_eq_some.mp found
  cases slot with
  | zero => cases entry
  | succ index => cases List.eq_of_mem_replicate (List.mem_of_getElem? entry)

theorem slot?_setEntry {slot other : Nat} {entry held : SlotEntry}
    (found : (table.setEntry slot entry).slot? other = some held) :
    (other = slot ∧ held = entry) ∨ (other ≠ slot ∧ table.slot? other = some held) := by
  cases other with
  | zero => cases found
  | succ index =>
      cases slot with
      | zero => exact Or.inr ⟨Nat.succ_ne_zero index, found⟩
      | succ place =>
          have entries : (table.entries.set place entry)[index]? = some held := found
          rw [List.getElem?_set] at entries
          by_cases same : place = index
          · rw [if_pos same] at entries
            split at entries
            · cases entries
              exact Or.inl ⟨congrArg Nat.succ same.symm, rfl⟩
            · cases entries
          · rw [if_neg same] at entries
            refine Or.inr ⟨?_, entries⟩
            intro equal
            exact same (Nat.succ.inj equal).symm

theorem capacity_ofCapacity {capacity : Nat} (some_ : 0 < capacity) :
    (ofCapacity capacity).capacity = capacity := by
  rw [Table.capacity, ofCapacity, List.length_replicate]
  omega

theorem capacity_setEntry (table : Table) (slot : Nat) (content : SlotEntry) :
    (table.setEntry slot content).capacity = table.capacity := by
  cases slot with
  | zero => rfl
  | succ index => rw [capacity, capacity, setEntry, List.length_set]

theorem channel?_reserve {factor slot channel : Nat}
    (found : (table.reserve factor).2.channel? slot = some channel) :
    table.channel? slot = some channel := by
  unfold reserve at found
  split at found
  · exact found
  · obtain ⟨key, entry⟩ := channel?_eq_some.mp found
    cases slot with
    | zero => cases entry
    | succ index =>
        rw [channel?_eq_some]
        refine ⟨key, ?_⟩
        simp only [slot?, grow, List.getElem?_append] at entry ⊢
        split at entry
        · exact entry
        · cases List.eq_of_mem_replicate (List.mem_of_getElem? entry)

theorem open?_eq_ok {factor : Nat} {key : Int} {channel slot : Nat}
    (opened : table.open? factor key channel = some (.ok (slot, after))) :
    slot = (table.reserve factor).1 ∧
      after = (table.reserve factor).2.setEntry slot (.live key channel) := by
  unfold open? at opened
  split at opened
  · cases opened
  · split at opened
    · cases opened
    · split at opened
      · cases opened
        exact ⟨rfl, rfl⟩
      · cases opened

theorem capacity_open? {factor : Nat} {key : Int} {channel slot : Nat} (grows : 2 ≤ factor)
    (opened : table.open? factor key channel = some (.ok (slot, after))) :
    after.capacity = table.capacity ∨ after.capacity = table.capacity * factor := by
  obtain ⟨_, whole⟩ := open?_eq_ok opened
  rw [whole, capacity_setEntry, reserve]
  cases table.freeSlot? with
  | some free => exact Or.inl rfl
  | none => exact Or.inr (table.capacity_grow (by omega))

/-- An opened table leads to the new channel and, by the other slots, to what it led to before. -/
theorem channel?_of_open? {factor : Nat} {key : Int} {channel slot : Nat}
    (opened : table.open? factor key channel = some (.ok (slot, after))) {other found : Nat}
    (leads : after.channel? other = some found) :
    (other = slot ∧ found = channel) ∨ (other ≠ slot ∧ table.channel? other = some found) := by
  obtain ⟨_, same⟩ := open?_eq_ok opened
  obtain ⟨held, entry⟩ := channel?_eq_some.mp leads
  rw [same] at entry
  rcases slot?_setEntry entry with ⟨place, new⟩ | ⟨elsewhere, old⟩
  · cases new
    exact Or.inl ⟨place, rfl⟩
  · exact Or.inr ⟨elsewhere, channel?_reserve (channel?_eq_some.mpr ⟨held, old⟩)⟩

theorem Single.open? (single : table.Single) {factor : Nat} {key : Int} {channel slot : Nat}
    (opened : table.open? factor key channel = some (.ok (slot, after)))
    (new : ∀ other, ¬table.channel? other = some channel) : after.Single := by
  intro first second found atFirst atSecond
  rcases channel?_of_open? opened atFirst with ⟨here, isNew⟩ | ⟨_, old⟩
  · rcases channel?_of_open? opened atSecond with ⟨there, _⟩ | ⟨_, old⟩
    · rw [here, there]
    · rw [isNew] at old
      exact absurd old (new second)
  · rcases channel?_of_open? opened atSecond with ⟨_, isNew⟩ | ⟨_, alsoOld⟩
    · rw [isNew] at old
      exact absurd old (new first)
    · exact single first second found old alsoOld

theorem channel?_of_close? {slot : Nat} {closed : Option Nat}
    (close : table.close? slot = some (closed, after)) {other found : Nat}
    (leads : after.channel? other = some found) :
    other ≠ slot ∧ table.channel? other = some found := by
  unfold close? at close
  split at close
  · cases close
    obtain ⟨held, entry⟩ := channel?_eq_some.mp leads
    rcases slot?_setEntry entry with ⟨_, impossible⟩ | ⟨elsewhere, old⟩
    · cases impossible
    · exact ⟨elsewhere, channel?_eq_some.mpr ⟨held, old⟩⟩
  · rename_i entry
    cases close
    refine ⟨?_, leads⟩
    intro here
    obtain ⟨held, live⟩ := channel?_eq_some.mp leads
    rw [here, entry] at live
    cases live
  · cases close

theorem channel?_closed {slot channel : Nat}
    (close : table.close? slot = some (some channel, after)) :
    table.channel? slot = some channel := by
  unfold close? at close
  split at close
  · rename_i key inside entry
    cases close
    exact channel?_eq_some.mpr ⟨key, entry⟩
  · cases close
  · cases close

theorem close?_none {slot : Nat} (close : table.close? slot = some (none, after)) :
    after = table := by
  unfold close? at close
  split at close
  · cases close
  · cases close
    rfl
  · cases close

theorem Single.close? (single : table.Single) {slot : Nat} {closed : Option Nat}
    (close : table.close? slot = some (closed, after)) : after.Single := by
  intro first second found atFirst atSecond
  exact single first second found (channel?_of_close? close atFirst).2
    (channel?_of_close? close atSecond).2

theorem Single.unreachable (single : table.Single) {slot channel : Nat}
    (close : table.close? slot = some (some channel, after)) (other : Nat) :
    ¬after.channel? other = some channel := by
  intro leads
  obtain ⟨elsewhere, old⟩ := channel?_of_close? close leads
  exact elsewhere (single other slot channel old (channel?_closed close))

theorem reserve_inside (table : Table) {factor : Nat} (grows : 2 ≤ factor) :
    ∃ index, (table.reserve factor).1 = index + 1 ∧
      index < (table.reserve factor).2.entries.length := by
  unfold reserve
  cases free : table.freeSlot? with
  | some slot =>
      unfold freeSlot? at free
      obtain ⟨index, found, same⟩ := Option.map_eq_some_iff.mp free
      obtain ⟨inside, _⟩ := List.findIdx?_eq_some_iff_getElem.mp found
      exact ⟨index, same.symm, inside⟩
  | none =>
      refine ⟨table.entries.length, rfl, ?_⟩
      have whole : table.capacity = table.entries.length + 1 := rfl
      have twice : table.capacity * 2 ≤ table.capacity * factor :=
        Nat.mul_le_mul_left _ grows
      simp only [grow, List.length_append, List.length_replicate]
      omega

theorem channel?_opened {factor : Nat} (grows : 2 ≤ factor) {key : Int} {channel slot : Nat}
    (opened : table.open? factor key channel = some (.ok (slot, after))) :
    after.channel? slot = some channel := by
  obtain ⟨place, same⟩ := open?_eq_ok opened
  obtain ⟨index, at_, inside⟩ := table.reserve_inside grows
  rw [at_] at place
  subst place
  rw [same]
  simp [channel?, slot?, setEntry, inside]

end ValueChannels.Table
