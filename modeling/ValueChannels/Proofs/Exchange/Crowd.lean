import ValueChannels.Proofs.Exchange.Entries
import ValueChannels.Proofs.Exchange.Occupancy

/-!
Registries in which channels are opened one after the other and none is closed. Nothing but the
capacity of the table bounds how many there are. Main statement: `crowded_run`.
-/

namespace ValueChannels.Traffic

variable {config : RegistryConfig} {traffic : Traffic} {most count : Nat} {key : Int}

/-- So many channels are opened, under the keys from 2 on; the key 1 is left to somebody else. -/
def crowd (count : Nat) : List Move :=
  (List.range count).map fun (index : Nat) => .create (index + 2)

/-- The channels of a crowd are open and no other ones have ever been, and the table may take in as
many as it is to span. -/
structure Crowded (most : Nat) (traffic : Traffic) (count : Nat) : Prop where
  listed : traffic.Listed
  spans : Table.Spans traffic.exchange.registry.table.capacity
    traffic.exchange.registry.config.growFactor most
  grows : 2 ≤ traffic.exchange.registry.config.growFactor
  member : ∀ index, index < count → ∃ channel,
    traffic.exchange.registry.table.entry (index + 1) = .live (index + 2) channel
  unused : ∀ index, count ≤ index →
    traffic.exchange.registry.table.entry (index + 1) = .unused

theorem crowd_succ (count : Nat) : crowd (count + 1) = crowd count ++ [.create (count + 2)] := by
  rw [crowd, List.range_succ, List.map_append]
  rfl

namespace Crowded

theorem filled (crowded : traffic.Crowded most count) :
    traffic.exchange.registry.table.Filled count := by
  constructor
  · intro index below
    obtain ⟨channel, held⟩ := crowded.member index below
    rw [held]
    rfl
  · intro index beyond
    rw [crowded.unused index beyond]
    rfl

theorem newKey (crowded : traffic.Crowded most count) (outside : ∀ index < count, key ≠ index + 2) :
    traffic.exchange.registry.table.slotOf? key = none := by
  cases known : traffic.exchange.registry.table.slotOf? key with
  | none => rfl
  | some slot =>
      obtain ⟨channel, held⟩ := (Table.slotOf?_eq_some crowded.listed.keyed).mp known
      cases slot with
      | zero => cases held
      | succ index =>
          have live := Table.entry_eq_live.mpr held
          rcases Nat.lt_or_ge index count with below | beyond
          · obtain ⟨_, held'⟩ := crowded.member index below
            rw [held'] at live
            cases live
            exact absurd rfl (outside index below)
          · rw [crowded.unused index beyond] at live
            cases live

/-- Whoever comes with a new key gets the next slot. -/
theorem opens (crowded : traffic.Crowded most count) (fewer : count < most) (positive : 0 < key)
    (outside : ∀ index < count, key ≠ index + 2) :
    ∃ table, traffic.exchange.registry.table.open? traffic.exchange.registry.config.growFactor key
        traffic.exchange.channels.size = some (.ok (count + 1, table)) ∧
      table.entry (count + 1) = .live key traffic.exchange.channels.size ∧
      ∀ other, other ≠ count + 1 → table.entry other =
        traffic.exchange.registry.table.entry other :=
  Table.filled_open? crowded.grows crowded.filled positive (crowded.newKey outside)
    (crowded.filled.hasRoom crowded.spans fewer) _

theorem step (crowded : traffic.Crowded most count) (fewer : count < most) :
    (traffic.step (.create (count + 2))).Crowded most (count + 1) := by
  have positive : (0 : Int) < count + 2 := by omega
  obtain ⟨opened, opens, live, others⟩ :=
    crowded.opens fewer positive (fun index below => by omega)
  have table := traffic.table_step_eq (.create (count + 2))
  simp only [opens] at table
  have factor := traffic.growFactor_step (.create (count + 2))
  constructor
  · exact crowded.listed.step _
  · rw [table, factor]
    exact crowded.spans.open? crowded.grows opens
  · rw [factor]
    exact crowded.grows
  · intro index inside
    rw [table]
    rcases Nat.lt_succ_iff_lt_or_eq.mp inside with below | rfl
    · rw [others _ (by omega)]
      exact crowded.member index below
    · exact ⟨_, live⟩
  · intro index beyond
    rw [table, others _ (by omega)]
    exact crowded.unused index (by omega)

theorem creates (crowded : traffic.Crowded most count) (fewer : count < most) (positive : 0 < key)
    (outside : ∀ index < count, key ≠ index + 2) :
    ∃ after, traffic.exchange.create key =
        (some (.ok { slot := count + 1, side := .master }), after) ∧
      after.channels.size = traffic.exchange.channels.size + 1 := by
  obtain ⟨table, opens, _⟩ := crowded.opens fewer positive outside
  simp only [Exchange.create, opens]
  exact ⟨_, rfl, Array.size_push ..⟩

theorem elsewhere (crowded : traffic.Crowded most count) (heap : Heap)
    (change : Context → Context) : (traffic.step (.elsewhere heap change)).Crowded most count where
  listed := crowded.listed.step _
  spans := crowded.spans
  grows := crowded.grows
  member := crowded.member
  unused := crowded.unused

/-- As many channels were open at once as there are now. -/
theorem peak_le (valid : config.validate = .ok ()) {moves : List Move}
    (crowded : ((initial config).run moves).Crowded most count) :
    (initial config).peak moves ≤ count := by
  by_contra larger
  have used := (compact_run valid moves).dense.used_iff.mpr
    (show 1 ≤ count + 1 ∧ count + 1 ≤ (initial config).peak moves by omega)
  obtain ⟨entry, held, touched⟩ := used
  have unused := crowded.unused count (Nat.le_refl count)
  rw [Table.entry, held] at unused
  exact touched unused

end Crowded

theorem crowded_initial (valid : config.validate = .ok ())
    (spans : Table.Spans config.initialCapacity config.growFactor most) :
    (initial config).Crowded most 0 := by
  constructor
  · exact listed_initial valid
  · show Table.Spans (Table.ofCapacity config.initialCapacity).capacity config.growFactor most
    rw [Table.capacity_ofCapacity (rooms_of_validate valid)]
    exact spans
  · exact grows_of_validate valid
  · intro index impossible
    cases impossible
  · intro index _
    exact Table.entry_ofCapacity config.initialCapacity (index + 1)

/-- A registry of a valid configuration takes in as many channels as its capacity can span. -/
theorem crowded_run (valid : config.validate = .ok ())
    (spans : Table.Spans config.initialCapacity config.growFactor most) (within : count ≤ most) :
    ((initial config).run (crowd count)).Crowded most count := by
  induction count with
  | zero => exact crowded_initial valid spans
  | succ count ih =>
      rw [crowd_succ, run_append]
      exact (ih (Nat.le_of_succ_le within)).step within

end ValueChannels.Traffic
