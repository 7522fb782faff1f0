import Mathlib.Algebra.Group.Nat.Defs
import ValueChannels.Proofs.Exchange.Keys

/-!
What stands in the slots of a table, whether or not the table is that large. Main statements:
`filled_open?`, that a table that is filled from below is filled further, and `entry_close`, what a
close leaves.
-/

namespace ValueChannels.Table

variable {table after : Table} {slot other : Nat} {key : Int} {channel : Nat}

/-- What stands in a slot; slots beyond the end of the table have not been used. -/
def entry (table : Table) (slot : Nat) : SlotEntry :=
  (table.slot? slot).getD .unused

theorem entry_eq_live :
    table.entry slot = .live key channel ↔ table.slot? slot = some (.live key channel) := by
  unfold entry
  cases table.slot? slot with
  | none => simp
  | some entry => simp

theorem entry_eq_closed : table.entry slot = .closed ↔ table.slot? slot = some .closed := by
  unfold entry
  cases table.slot? slot with
  | none => simp
  | some entry => simp

theorem entry_ofCapacity (capacity slot : Nat) : (ofCapacity capacity).entry slot = .unused := by
  unfold entry
  cases held : (ofCapacity capacity).slot? slot with
  | none => rfl
  | some entry =>
      cases slot with
      | zero => cases held
      | succ index => exact List.eq_of_mem_replicate (List.mem_of_getElem? held)

/-- Whether or not the table has to grow, nothing moves. -/
theorem entry_reserve (table : Table) (factor slot : Nat) :
    (table.reserve factor).2.entry slot = table.entry slot := by
  rw [reserve]
  split
  · rfl
  · rcases Nat.lt_or_ge slot table.capacity with inside | outside
    · rw [entry, slot?_grow table factor inside]
      rfl
    · obtain ⟨index, same⟩ := Nat.exists_eq_add_of_le' (Nat.le_trans (Nat.le_add_left 1 _) outside)
      subst same
      have beyond : table.entries.length ≤ index := Nat.le_of_succ_le_succ outside
      have missing : table.slot? (index + 1) = none := List.getElem?_eq_none beyond
      have added : (table.grow factor).slot? (index + 1) =
          (List.replicate (table.capacity * factor - table.capacity)
            SlotEntry.unused)[index - table.entries.length]? :=
        List.getElem?_append_right beyond
      rw [entry, entry, missing, added, List.getElem?_replicate]
      split <;> rfl

/-- The first slots have channels and no other ones. -/
structure Filled (table : Table) (count : Nat) : Prop where
  taken : ∀ index, index < count → (table.entry (index + 1)).isLive = true
  spare : ∀ index, count ≤ index → (table.entry (index + 1)).isLive = false

theorem Filled.reserve {count : Nat} (filled : table.Filled count) (factor : Nat) :
    (table.reserve factor).1 = count + 1 := by
  have live (index : Nat) (inside : index < table.entries.length) :
      table.entries[index].isLive = true ↔ index < count := by
    have here : table.entry (index + 1) = table.entries[index] := by
      rw [entry, slot?, List.getElem?_eq_getElem inside]
      rfl
    rw [← here]
    rcases Nat.lt_or_ge index count with below | beyond
    · exact iff_of_true (filled.taken index below) below
    · rw [filled.spare index beyond]
      simp only [Bool.false_eq_true, false_iff]
      exact Nat.not_lt_of_le beyond
  rw [Table.reserve]
  -- The slots in use are the first ones, so the lowest free one follows them; if none is free they
  -- are all there are.
  cases free : table.freeSlot? with
  | some slot =>
      obtain ⟨index, found, same⟩ := Option.map_eq_some_iff.mp free
      obtain ⟨inside, vacant, earlier⟩ := List.findIdx?_eq_some_iff_getElem.mp found
      have beyond : ¬index < count := by
        intro below
        rw [(live index inside).mpr below] at vacant
        cases vacant
      have reached : ¬count < index := by
        intro later
        have bound : count < table.entries.length := Nat.lt_trans later inside
        have held := earlier count later
        exact Nat.lt_irrefl count ((live count bound).mp (by simpa using held))
      show slot = count + 1
      omega
  | none =>
      have whole := List.findIdx?_eq_none_iff.mp (Option.map_eq_none_iff.mp free)
      have most : table.entries.length ≤ count := by
        apply Nat.le_of_not_lt
        intro larger
        have held := whole _ (List.getElem_mem larger)
        exact Nat.lt_irrefl count ((live count larger).mp (by simpa using held))
      have least : count ≤ table.entries.length := by
        apply Nat.le_of_not_lt
        intro smaller
        have beyond : table.entries[table.entries.length]? = none :=
          List.getElem?_eq_none (Nat.le_refl _)
        have missing := filled.taken table.entries.length smaller
        rw [entry, slot?, beyond] at missing
        cases missing
      exact congrArg Nat.succ (Nat.le_antisymm most least)

/-! ### Room for so many channels -/

/-- A capacity that is multiplied by the factor whenever there are as many channels as slots stays a
machine word on the way to so many channels. -/
def Spans (capacity factor channels : Nat) : Prop :=
  ∀ rounds, capacity * factor ^ rounds ≤ channels →
    capacity * factor ^ (rounds + 1) < UInt64.size

theorem Filled.hasRoom {factor count channels : Nat} (filled : table.Filled count)
    (spans : Spans table.capacity factor channels) (fewer : count < channels) :
    table.hasRoom factor = true := by
  rw [Table.hasRoom, Bool.or_eq_true, decide_eq_true_iff]
  cases free : table.freeSlot? with
  | some slot => exact Or.inl rfl
  | none =>
      have full := filled.reserve factor
      simp only [Table.reserve, free] at full
      have fits := spans 0 (by rw [Nat.pow_zero, Nat.mul_one]; omega)
      rw [Nat.zero_add, Nat.pow_one] at fits
      exact Or.inr fits

theorem Spans.open? {factor channels : Nat} (spans : Spans table.capacity factor channels)
    (grows : 2 ≤ factor) (opened : table.open? factor key channel = some (.ok (slot, after))) :
    Spans after.capacity factor channels := by
  rcases capacity_open? grows opened with same | multiplied
  · rw [same]
    exact spans
  · -- What is left to do is what was left to do behind the first round.
    intro rounds within
    rw [multiplied, Nat.mul_assoc, ← Nat.pow_succ'] at within ⊢
    exact spans (rounds + 1) within

/-- It is enough that the number of channels times the factor is a machine word. -/
theorem Spans.of_lt {capacity factor channels : Nat} (small : channels * factor < UInt64.size) :
    Spans capacity factor channels := by
  intro rounds within
  rw [Nat.pow_succ, ← Nat.mul_assoc]
  exact Nat.lt_of_le_of_lt (Nat.mul_le_mul_right factor within) small

/-- The next channel comes into the next slot. -/
theorem filled_open? {factor count : Nat} (grows : 2 ≤ factor) (filled : table.Filled count)
    (positive : 0 < key) (unknown : table.slotOf? key = none)
    (room : table.hasRoom factor = true) (channel : Nat) :
    ∃ after, table.open? factor key channel = some (.ok (count + 1, after)) ∧
      after.entry (count + 1) = .live key channel ∧
      ∀ other, other ≠ count + 1 → after.entry other = table.entry other := by
  have place := filled.reserve factor
  have opened : table.open? factor key channel = some (.ok
      (count + 1, (table.reserve factor).2.setEntry (count + 1) (.live key channel))) := by
    rw [open?, if_neg (Int.not_le.mpr positive), unknown, if_pos room, ← place]
    rfl
  refine ⟨_, opened, entry_eq_live.mpr ?_, ?_⟩
  · exact (live_open? grows opened).mpr (Or.inl ⟨rfl, rfl, rfl⟩)
  · intro other different
    rw [entry, slot?_setEntry_other different]
    exact table.entry_reserve factor other

theorem entry_setEntry_same {content : SlotEntry} (used : table.entry slot ≠ .unused) :
    (table.setEntry slot content).entry slot = content := by
  unfold entry at used ⊢
  cases held : table.slot? slot with
  | none =>
      rw [held] at used
      exact absurd rfl used
  | some before =>
      rw [slot?_setEntry_same before held]
      rfl

theorem entry_setEntry_other {content : SlotEntry} (different : other ≠ slot) :
    (table.setEntry slot content).entry other = table.entry other := by
  rw [entry, slot?_setEntry_other different]
  rfl

end ValueChannels.Table
