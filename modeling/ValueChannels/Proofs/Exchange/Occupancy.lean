import Mathlib.Order.Bounds.Basic
import Mathlib.Order.Lattice.Nat
import ValueChannels.Proofs.Exchange.Reuse

/-!
Which slots of a table are in use. New channels take the lowest slot without one, so the slots that
have ever been used are the first ones, as many as there were channels open at once, and the table
has grown just far enough to hold them. Main statement: `gapless_run`.
-/

namespace ValueChannels

namespace Table

variable {table after : Table} {used slot channel factor : Nat} {key : Int}

/-- So many slots of a table have been used, the first ones, and the others have not. -/
def Dense (table : Table) (used : Nat) : Prop :=
  ∃ front spare, table.entries = front ++ List.replicate spare .unused ∧ front.length = used ∧
    .unused ∉ front

namespace Dense

theorem ofCapacity (capacity : Nat) : (Table.ofCapacity capacity).Dense 0 :=
  ⟨[], capacity - 1, rfl, rfl, List.not_mem_nil⟩

theorem capacity_gt (dense : table.Dense used) : used < table.capacity := by
  obtain ⟨front, spare, entries, length, _⟩ := dense
  rw [capacity, entries, List.length_append, length]
  omega

theorem liveCount_eq {front : List SlotEntry} {spare : Nat}
    (entries : table.entries = front ++ List.replicate spare .unused) :
    table.liveCount = front.countP SlotEntry.isLive := by
  rw [liveCount, entries, List.countP_append, List.countP_replicate]
  rfl

theorem liveCount_le (dense : table.Dense used) : table.liveCount ≤ used := by
  obtain ⟨front, spare, entries, length, _⟩ := dense
  rw [liveCount_eq entries, ← length]
  exact List.countP_le_length

theorem used_iff (dense : table.Dense used) :
    (∃ entry, table.slot? slot = some entry ∧ entry ≠ .unused) ↔ 1 ≤ slot ∧ slot ≤ used := by
  obtain ⟨front, spare, entries, length, touched⟩ := dense
  cases slot with
  | zero => simp [slot?]
  | succ index =>
      rw [slot?, entries]
      constructor
      · rintro ⟨entry, found, notUnused⟩
        refine ⟨Nat.le_add_left 1 index, ?_⟩
        by_contra beyond
        rw [List.getElem?_append_right (by omega)] at found
        exact notUnused (List.eq_of_mem_replicate (List.mem_of_getElem? found))
      · rintro ⟨_, inside⟩
        have bound : index < front.length := by omega
        refine ⟨front[index], ?_, ?_⟩
        · rw [List.getElem?_append_left bound, List.getElem?_eq_getElem bound]
        · intro same
          exact touched (same ▸ List.getElem_mem bound)

theorem closes_iff (dense : table.Dense used) :
    (∃ result, table.close? slot = some result) ↔ 1 ≤ slot ∧ slot ≤ used := by
  rw [← dense.used_iff, close?]
  cases held : table.slot? slot with
  | none => simp
  | some entry => cases entry <;> simp

theorem touch (dense : table.Dense used) (behind : 1 ≤ slot) (inside : slot ≤ used)
    {entry : SlotEntry} (touching : entry ≠ .unused) :
    (table.setEntry slot entry).Dense used ∧
      (table.setEntry slot entry).capacity = table.capacity := by
  obtain ⟨front, spare, entries, length, touched⟩ := dense
  cases slot with
  | zero => cases behind
  | succ index =>
      have bound : index < front.length := by omega
      refine ⟨⟨front.set index entry, spare, ?_, ?_, ?_⟩, capacity_setEntry _ _ _⟩
      · rw [setEntry, entries, List.set_append_left _ _ bound]
      · rw [List.length_set, length]
      · intro member
        rcases List.mem_or_eq_of_mem_set member with old | new
        · exact touched old
        · exact touching new.symm

theorem close? (dense : table.Dense used) {taken : Option Nat}
    (closed : table.close? slot = some (taken, after)) :
    after.Dense used ∧ after.capacity = table.capacity := by
  unfold Table.close? at closed
  split at closed
  · rename_i held inside entry
    cases closed
    obtain ⟨behind, within⟩ := dense.used_iff.mp ⟨_, entry, nofun⟩
    exact dense.touch behind within nofun
  · cases closed
    exact ⟨dense, rfl⟩
  · cases closed

end Dense

/-- How a table takes in a channel: in a slot that was closed, or, when all slots that have been
used are live, in one more slot, for which the table may have had to grow. -/
inductive Seated (table : Table) (factor used slot : Nat) (after : Table) : Prop where
  | again (behind : 1 ≤ slot) (inside : slot ≤ used) (dense : after.Dense used)
      (capacity : after.capacity = table.capacity)
  | next (place : slot = used + 1) (dense : after.Dense (used + 1))
      (full : after.liveCount = used + 1)
      (capacity : after.capacity = table.capacity ∨
        table.capacity = used + 1 ∧ after.capacity = table.capacity * factor)

theorem seated_next {front : List SlotEntry} {spare : Nat}
    (entries : after.entries = front ++ .live key channel :: List.replicate spare .unused)
    (length : front.length = used) (touched : .unused ∉ front)
    (live : front.countP SlotEntry.isLive = used)
    (capacity : after.capacity = table.capacity ∨
      table.capacity = used + 1 ∧ after.capacity = table.capacity * factor) :
    table.Seated factor used (used + 1) after := by
  have whole : after.entries = (front ++ [.live key channel]) ++ List.replicate spare .unused := by
    rw [entries, List.append_assoc, List.singleton_append]
  refine .next rfl ⟨_, spare, whole, ?_, ?_⟩ ?_ capacity
  · rw [List.length_append, length, List.length_singleton]
  · intro member
    rcases List.mem_append.mp member with old | new
    · exact touched old
    · cases List.mem_singleton.mp new
  · rw [Dense.liveCount_eq whole, List.countP_append, live]
    rfl

theorem Dense.open? (dense : table.Dense used) (grows : 2 ≤ factor)
    (opened : table.open? factor key channel = some (.ok (slot, after))) :
    table.Seated factor used slot after := by
  obtain ⟨place, whole⟩ := open?_eq_ok opened
  obtain ⟨front, spare, entries, length, touched⟩ := dense
  -- A slot that was closed is taken again before one that never was in use, and the table grows
  -- only when it has neither.
  cases free : front.findIdx? fun entry => !entry.isLive with
  | some index =>
      have found : table.freeSlot? = some (index + 1) := by
        rw [freeSlot?, entries, List.findIdx?_append, free]
        rfl
      obtain ⟨bound, _⟩ := List.findIdx?_eq_some_iff_getElem.mp free
      simp only [reserve, found] at place whole
      rw [whole, place]
      have behind : 1 ≤ index + 1 := Nat.le_add_left 1 index
      have inside : index + 1 ≤ used := by omega
      have dense : table.Dense used := ⟨front, spare, entries, length, touched⟩
      obtain ⟨still, capacity⟩ := dense.touch behind inside
        (show SlotEntry.live key channel ≠ .unused from SlotEntry.noConfusion)
      exact .again behind inside still capacity
  | none =>
      have live : front.countP SlotEntry.isLive = used := by
        rw [List.countP_eq_length.mpr, length]
        intro entry member
        simpa using List.findIdx?_eq_none_iff.mp free entry member
      cases spare with
      | succ spare =>
          have found : table.freeSlot? = some (used + 1) := by
            rw [freeSlot?, entries, List.findIdx?_append, free, ← length]
            simp [List.replicate_succ, List.findIdx?_cons, SlotEntry.isLive]
          simp only [reserve, found] at place whole
          rw [whole, place]
          have seated : (table.setEntry (used + 1) (.live key channel)).entries =
              front ++ .live key channel :: List.replicate spare .unused := by
            rw [setEntry, entries, ← length, List.replicate_succ]
            simp
          exact seated_next seated length touched live (Or.inl (capacity_setEntry _ _ _))
      | zero =>
          have found : table.freeSlot? = none := by
            rw [freeSlot?, entries, List.findIdx?_append, free]
            rfl
          have size : table.capacity = used + 1 := by
            rw [capacity, entries, List.replicate_zero, List.append_nil, length]
          have twice : table.capacity * 2 ≤ table.capacity * factor := Nat.mul_le_mul_left _ grows
          obtain ⟨added, more⟩ : ∃ added, table.capacity * factor - table.capacity = added + 1 :=
            ⟨table.capacity * factor - table.capacity - 1, by omega⟩
          simp only [reserve, found] at place whole
          rw [whole, place, size]
          have seated : ((table.grow factor).setEntry (used + 1) (.live key channel)).entries =
              front ++ .live key channel :: List.replicate added .unused := by
            rw [setEntry, grow, entries, more, ← length, List.replicate_succ]
            simp
          refine seated_next seated length touched live (Or.inr ⟨size, ?_⟩)
          rw [← capacity_grow table (by omega), capacity_setEntry]

theorem isLeast_reserve (table : Table) (factor : Nat) :
    IsLeast {slot | 0 < slot ∧ table.channel? slot = none} (table.reserve factor).1 := by
  obtain ⟨index, behind⟩ := table.reserve_behind factor
  constructor
  · refine ⟨by omega, ?_⟩
    cases leads : table.channel? (table.reserve factor).1 with
    | none => rfl
    | some channel =>
        obtain ⟨key, entry⟩ := channel?_eq_some.mp leads
        exact absurd ((live_reserve factor).mpr entry) (reserve_vacant table factor key channel)
  · rintro slot ⟨positive, vacant⟩
    by_contra below
    have live : (table.channel? slot).isSome = true := by
      rw [reserve] at below
      split at below
      · rename_i least free
        exact freeSlot?_least free positive (by omega)
      · rename_i full
        -- In a full table every slot below the capacity is live.
        cases slot with
        | zero => cases positive
        | succ place =>
            have bound : place < table.entries.length := by
              have whole : table.capacity = table.entries.length + 1 := rfl
              omega
            have isLive := List.findIdx?_eq_none_iff.mp (Option.map_eq_none_iff.mp full)
              _ (List.getElem_mem bound)
            rw [channel?, slot?, List.getElem?_eq_getElem bound]
            cases held : table.entries[place] with
            | live key channel => rfl
            | _ => simp [held, SlotEntry.isLive] at isLive
    rw [vacant] at live
    cases live

end Table

namespace Traffic

variable {config : RegistryConfig} {traffic : Traffic} {used : Nat}

def liveCount (traffic : Traffic) : Nat :=
  traffic.exchange.registry.table.liveCount

/-- How many channels are open at the start, and then after each of the moves. -/
def loads (traffic : Traffic) (moves : List Move) : Set Nat :=
  {live | ∃ sooner rest, moves = sooner ++ rest ∧ (traffic.run sooner).liveCount = live}

/-- The most channels that are open at once. -/
def peak (traffic : Traffic) : List Move → Nat
  | [] => traffic.liveCount
  | move :: rest => max traffic.liveCount ((traffic.step move).peak rest)

theorem isGreatest_peak (traffic : Traffic) (moves : List Move) :
    IsGreatest (traffic.loads moves) (traffic.peak moves) := by
  induction moves generalizing traffic with
  | nil =>
      refine ⟨⟨[], [], rfl, rfl⟩, ?_⟩
      rintro live ⟨sooner, rest, whole, counted⟩
      obtain ⟨none, _⟩ := List.append_eq_nil_iff.mp whole.symm
      rw [← counted, none]
      exact Nat.le_refl _
  | cons move rest ih =>
      obtain ⟨⟨first, last, split, attained⟩, bound⟩ := ih (traffic.step move)
      constructor
      · rw [peak]
        rcases Nat.le_total traffic.liveCount ((traffic.step move).peak rest) with below | above
        · rw [Nat.max_eq_right below]
          exact ⟨move :: first, last, congrArg (move :: ·) split, attained⟩
        · rw [Nat.max_eq_left above]
          exact ⟨[], move :: rest, rfl, rfl⟩
      · rintro live ⟨sooner, later, whole, counted⟩
        rw [peak]
        cases sooner with
        | nil => exact Nat.le_trans (Nat.le_of_eq counted.symm) (Nat.le_max_left _ _)
        | cons other sooner =>
            obtain ⟨rfl, rest'⟩ := List.cons.inj whole
            exact Nat.le_trans (bound ⟨sooner, later, rest', counted⟩) (Nat.le_max_right _ _)

theorem peak_mono (sooner rest : List Move) :
    traffic.peak sooner ≤ traffic.peak (sooner ++ rest) := by
  obtain ⟨first, second, whole, counted⟩ := (traffic.isGreatest_peak sooner).1
  refine (traffic.isGreatest_peak (sooner ++ rest)).2 ⟨first, second ++ rest, ?_, counted⟩
  rw [whole, List.append_assoc]

/-- The slot was handed out: one of the moves was answered with a handle of it. -/
def HandedOut (traffic : Traffic) (moves : List Move) (slot : Nat) : Prop :=
  ∃ sooner move rest handle, moves = sooner ++ move :: rest ∧
    (traffic.run sooner).Answers handle move ∧ handle.slot = slot

/-- So many slots of the registry have been used, and its table grew for them and no further. -/
structure Compact (config : RegistryConfig) (traffic : Traffic) (used : Nat) : Prop where
  dense : traffic.exchange.registry.table.Dense used
  factor : traffic.exchange.registry.config.growFactor = config.growFactor
  grown : ∃ rounds,
    traffic.exchange.registry.table.capacity =
        config.initialCapacity * config.growFactor ^ rounds ∧
      ∀ sooner < rounds, config.initialCapacity * config.growFactor ^ sooner ≤ used

theorem compact_initial (valid : config.validate = .ok ()) : Compact config (initial config) 0 := by
  refine ⟨.ofCapacity _, rfl, 0, ?_, fun _ impossible => absurd impossible (Nat.not_lt_zero _)⟩
  rw [pow_zero, Nat.mul_one]
  exact Table.capacity_ofCapacity (rooms_of_validate valid)

theorem growFactor_step (traffic : Traffic) (move : Move) :
    (traffic.step move).exchange.registry.config.growFactor =
      traffic.exchange.registry.config.growFactor := by
  cases traffic.table_step move with
  | same slots => exact slots.growFactor
  | opened key slot opens size growFactor => exact growFactor
  | withdrew slot channel closes size growFactor => exact growFactor

namespace Compact

theorem keeps (compact : Compact config traffic used) (move : Move)
    (dense : (traffic.step move).exchange.registry.table.Dense used)
    (capacity : (traffic.step move).exchange.registry.table.capacity =
      traffic.exchange.registry.table.capacity) :
    Compact config (traffic.step move) used :=
  ⟨dense, (traffic.growFactor_step move).trans compact.factor, capacity ▸ compact.grown⟩

theorem grows (compact : Compact config traffic used) (move : Move)
    (dense : (traffic.step move).exchange.registry.table.Dense (used + 1))
    (capacity : (traffic.step move).exchange.registry.table.capacity =
        traffic.exchange.registry.table.capacity ∨
      traffic.exchange.registry.table.capacity = used + 1 ∧
        (traffic.step move).exchange.registry.table.capacity =
          traffic.exchange.registry.table.capacity * config.growFactor) :
    Compact config (traffic.step move) (used + 1) := by
  refine ⟨dense, (traffic.growFactor_step move).trans compact.factor, ?_⟩
  obtain ⟨rounds, size, behind⟩ := compact.grown
  rcases capacity with same | ⟨full, multiplied⟩
  · refine ⟨rounds, same.trans size, ?_⟩
    intro sooner before
    exact Nat.le_succ_of_le (behind sooner before)
  · refine ⟨rounds + 1, ?_, ?_⟩
    · rw [multiplied, size, Nat.mul_assoc, pow_succ]
    · intro sooner before
      rcases Nat.lt_succ_iff_lt_or_eq.mp before with earlier | last
      · exact Nat.le_succ_of_le (behind sooner earlier)
      · rw [last, ← size, full]

/-- A move uses no new slot, or it opens a channel in the next one while all others are live. -/
theorem step (compact : Compact config traffic used) (factor : 2 ≤ config.growFactor)
    (move : Move) :
    Compact config (traffic.step move) used ∨
      Compact config (traffic.step move) (used + 1) ∧
        (traffic.step move).liveCount = used + 1 ∧
        traffic.Answers { slot := used + 1, side := .master } move := by
  have table := traffic.table_step_eq move
  have same (still : (traffic.step move).exchange.registry.table =
      traffic.exchange.registry.table) : Compact config (traffic.step move) used :=
    compact.keeps move (still ▸ compact.dense) (congrArg Table.capacity still)
  -- Only creating and closing change the table.
  cases move with
  | create key =>
      rcases opened : traffic.exchange.registry.table.open? config.growFactor key
          traffic.exchange.channels.size with _ | _ | ⟨slot, after⟩
      · simp only [compact.factor, opened] at table
        exact .inl (same table)
      · simp only [compact.factor, opened] at table
        exact .inl (same table)
      · simp only [compact.factor, opened] at table
        subst table
        cases compact.dense.open? factor opened with
        | again behind inside dense capacity => exact .inl (compact.keeps _ dense capacity)
        | next place dense full capacity =>
            refine .inr ⟨compact.grows _ dense capacity, full, ?_⟩
            simp only [Answers, Exchange.create, compact.factor, opened, place]
  | close handle =>
      cases closed : traffic.exchange.registry.table.close? handle.slot with
      | none =>
          simp only [closed] at table
          exact .inl (same table)
      | some result =>
          obtain ⟨taken, after⟩ := result
          simp only [closed] at table
          subst table
          obtain ⟨dense, capacity⟩ := compact.dense.close? closed
          exact .inl (compact.keeps _ dense capacity)
  | _ => exact .inl (same table)

theorem liveCount_le (compact : Compact config traffic used) : traffic.liveCount ≤ used :=
  compact.dense.liveCount_le

/-- Whatever was used before, a run uses as many slots as channels are open at once. -/
theorem run (compact : Compact config traffic used) (factor : 2 ≤ config.growFactor)
    (moves : List Move) :
    Compact config (traffic.run moves) (max used (traffic.peak moves)) := by
  induction moves generalizing traffic used with
  | nil =>
      rw [peak, Nat.max_eq_left compact.liveCount_le]
      exact compact
  | cons move rest ih =>
      have before := compact.liveCount_le
      have first := ((traffic.step move).isGreatest_peak rest).2 ⟨[], rest, rfl, rfl⟩
      rcases compact.step factor move with still | ⟨next, live, _⟩
      · have whole : max used (traffic.peak (move :: rest)) =
            max used ((traffic.step move).peak rest) := by
          rw [peak]
          omega
        rw [whole]
        exact ih still
      · have whole : max used (traffic.peak (move :: rest)) =
            max (used + 1) ((traffic.step move).peak rest) := by
          rw [Traffic.run, List.foldl_nil, live] at first
          rw [peak]
          omega
        rw [whole]
        exact ih next

/-- The slots behind those that were used before are handed out one after the other, as far as the
most channels that are open at once reach. -/
theorem handedOut (compact : Compact config traffic used) (factor : 2 ≤ config.growFactor)
    {moves : List Move} {slot : Nat} (behind : used < slot) (inside : slot ≤ traffic.peak moves) :
    traffic.HandedOut moves slot := by
  induction moves generalizing traffic used with
  | nil =>
      have least := compact.liveCount_le
      rw [peak] at inside
      omega
  | cons move rest ih =>
      have least := compact.liveCount_le
      have later (issued : (traffic.step move).HandedOut rest slot) :
          traffic.HandedOut (move :: rest) slot := by
        obtain ⟨sooner, other, last, handle, whole, answers, place⟩ := issued
        exact ⟨move :: sooner, other, last, handle, congrArg (move :: ·) whole, answers, place⟩
      rw [peak] at inside
      rcases compact.step factor move with still | ⟨next, live, answers⟩
      · exact later (ih still behind (by omega))
      · by_cases here : slot = used + 1
        · exact ⟨[], move, rest, _, rfl, answers, here.symm⟩
        · exact later (ih next (by omega) (by omega))

theorem inside (compact : Compact config traffic used) {handle : Handle} {channel : Nat}
    (leads : traffic.exchange.channel? handle = .ok channel) :
    1 ≤ handle.slot ∧ handle.slot ≤ used := by
  obtain ⟨key, entry⟩ := Table.channel?_eq_some.mp ((Exchange.channel?_eq_ok _).mp leads)
  exact compact.dense.used_iff.mp ⟨_, entry, nofun⟩

/-- The capacity is the first one of its sequence that is larger than the slots in use. -/
theorem isLeast_capacity (compact : Compact config traffic used)
    (factor : 2 ≤ config.growFactor) :
    IsLeast {size | used < size ∧
        ∃ rounds, size = config.initialCapacity * config.growFactor ^ rounds}
      traffic.exchange.registry.table.capacity := by
  obtain ⟨rounds, size, behind⟩ := compact.grown
  refine ⟨⟨compact.dense.capacity_gt, rounds, size⟩, ?_⟩
  rintro other ⟨larger, more, size'⟩
  have enough : rounds ≤ more := by
    by_contra fewer
    have least := behind more (Nat.lt_of_not_le fewer)
    omega
  rw [size, size']
  exact Nat.mul_le_mul_left _ (Nat.pow_le_pow_right (by omega) enough)

theorem closes_iff (compact : Compact config traffic used) (handle : Handle) :
    (traffic.exchange.close handle).1 = .ok () ↔ 1 ≤ handle.slot ∧ handle.slot ≤ used := by
  rw [← compact.dense.closes_iff]
  simp only [Exchange.close, Exchange.withdraw]
  cases closed : traffic.exchange.registry.table.close? handle.slot with
  | none => simp
  | some result =>
      obtain ⟨taken, table⟩ := result
      cases taken <;> simp

theorem run_closes (compact : Compact config traffic used) (factor : 2 ≤ config.growFactor)
    (handle : Handle) (times : Nat) :
    Compact config (traffic.run (List.replicate times (.close handle))) used := by
  induction times generalizing traffic with
  | zero => exact compact
  | succ times ih =>
      rcases compact.step factor (.close handle) with still | ⟨_, _, answers⟩
      · exact ih still
      · exact answers.elim

end Compact

theorem compact_run (valid : config.validate = .ok ()) (moves : List Move) :
    Compact config ((initial config).run moves) ((initial config).peak moves) := by
  have compact := (compact_initial valid).run (grows_of_validate valid) moves
  rw [Nat.max_eq_right (Nat.zero_le _)] at compact
  exact compact

/-- The slots of a registry after some moves, with the most channels that were open at once: so many
slots were handed out, from the first one on, and exactly they can be closed, however often; the
next channel gets the lowest slot without one, and the table has the first of its capacities in
which all of them have room. -/
structure Gapless (config : RegistryConfig) (moves : List Move) (peak : Nat) : Prop where
  greatest : IsGreatest ((initial config).loads moves) peak
  handedOut : ∀ slot, (initial config).HandedOut moves slot ↔ 1 ≤ slot ∧ slot ≤ peak
  lowest : ∀ key handle,
    (((initial config).run moves).exchange.create key).1 = some (.ok handle) →
      IsLeast {slot | 0 < slot ∧
        ((initial config).run moves).exchange.registry.table.channel? slot = none} handle.slot
  capacity : IsLeast {size | peak < size ∧
      ∃ rounds, size = config.initialCapacity * config.growFactor ^ rounds}
    ((initial config).run moves).exchange.registry.table.capacity
  closes : ∀ handle times,
    (((initial config).run (moves ++ List.replicate times (.close handle))).exchange.close
      handle).1 = .ok () ↔ 1 ≤ handle.slot ∧ handle.slot ≤ peak

/-- In every run over a registry of a valid configuration its slots are used without gaps. -/
theorem gapless_run (valid : config.validate = .ok ()) (moves : List Move) :
    Gapless config moves ((initial config).peak moves) := by
  have factor := grows_of_validate valid
  have compact := compact_run valid moves
  refine ⟨Traffic.isGreatest_peak _ moves, ?_, ?_, compact.isLeast_capacity factor, ?_⟩
  · intro slot
    constructor
    · rintro ⟨sooner, move, rest, handle, whole, answers, rfl⟩
      obtain ⟨channel, leads⟩ := (listed_run valid sooner).answers answers
      have then' := compact_run valid (sooner ++ [move])
      rw [run_append] at then'
      obtain ⟨positive, inside⟩ := then'.inside leads
      refine ⟨positive, Nat.le_trans inside ?_⟩
      rw [whole, List.append_cons sooner move rest]
      exact peak_mono _ rest
    · rintro ⟨positive, inside⟩
      exact (compact_initial valid).handedOut factor positive inside
  · intro key handle created
    obtain ⟨_, rfl⟩ := (listed_run valid moves).created created
    exact Table.isLeast_reserve _ _
  · intro handle times
    rw [run_append]
    exact (compact.run_closes factor handle times).closes_iff handle

/-- Two channels are open at once at most, in a table that had to grow for the second one. -/
theorem gapless_threeKeys :
    RegistryConfig.validate { initialCapacity := 2, growFactor := 2 } = .ok () ∧
      ((initial { initialCapacity := 2, growFactor := 2 }).run threeKeys
        ).exchange.registry.table.capacity = 4 ∧
      Gapless { initialCapacity := 2, growFactor := 2 } threeKeys 2 :=
  ⟨rfl, rfl, gapless_run rfl threeKeys⟩

end Traffic

end ValueChannels
