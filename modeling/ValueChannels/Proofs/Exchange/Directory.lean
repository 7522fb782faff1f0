import Mathlib.Logic.Function.Basic
import ValueChannels.Proofs.Exchange.Columns
import ValueChannels.Proofs.Exchange.Conduct
import ValueChannels.Proofs.Exchange.Keys

/-!
The registry as a map from keys to open channels. Of every key it knows at most one channel, by its
slot and by its place among all channels; opening enters a key, closing takes one out, and nothing
else changes the map. Main statement: `directory_run`.
-/

namespace ValueChannels

/-- The slot and the place of the channel of each key. -/
abbrev Directory := Int → Option (Nat × Nat)

namespace Exchange

variable (exchange : Exchange)

def directory : Directory :=
  exchange.registry.table.find?

def columns : Columns :=
  exchange.registry.table.columns

/-- Whether the registry can take in a channel more. -/
def hasRoom : Bool :=
  exchange.registry.table.hasRoom exchange.registry.config.growFactor

def nextSlot : Nat :=
  (exchange.registry.table.reserve exchange.registry.config.growFactor).1

/-- The slot and the key that a channel was opened with. -/
def label? (channel : Nat) : Option (Nat × Int) :=
  exchange.channels[channel]?.map fun opened => (opened.slot, opened.key)

/-- Every channel that the table leads to was opened in that slot and under that key. -/
def Labelled : Prop :=
  ∀ slot key channel, exchange.registry.table.slot? slot = some (.live key channel) →
    exchange.label? channel = some (slot, key)

/-- The two rows of the table agree with each other and with the channels: slot 0 stays free, a slot
has a channel exactly when its key is positive, which is then a channel of this slot and this key,
and no two slots have the same positive key. -/
structure Registered : Prop where
  lengths : exchange.columns.keys.length = exchange.columns.channels.length
  reserved : exchange.columns.keys[0]? = some Columns.freeKey ∧
    exchange.columns.channels[0]? = some none
  occupied : ∀ slot, 0 < slot → ((∃ channel, exchange.columns.channels[slot]? = some (some channel)) ↔
    ∃ key, exchange.columns.keys[slot]? = some key ∧ 0 < key)
  own : ∀ slot place, exchange.columns.channels[slot]? = some (some place) →
    ∃ channel : Channel, exchange.channels[place]? = some channel ∧ channel.slot = slot ∧
      exchange.columns.keys[slot]? = some channel.key
  distinct : ∀ (slot other : Nat) (key : Int), 0 < key → exchange.columns.keys[slot]? = some key →
    exchange.columns.keys[other]? = some key → slot = other

/-! ### Channels keep their labels -/

theorem label?_of_layout {after : Exchange} (same : after.layout = exchange.layout)
    (channel : Nat) : after.label? channel = exchange.label? channel := by
  have channels : after.channels = exchange.channels := congrArg Layout.channels same
  rw [label?, label?, channels]

theorem label?_setQueue (queue : QueueId) (slot : Slot Message) (channel : Nat) :
    (exchange.setQueue queue slot).label? channel = exchange.label? channel := by
  have kept (opened : Channel) : ((opened.setQueue queue.toward slot).slot,
      (opened.setQueue queue.toward slot).key) = (opened.slot, opened.key) := by
    cases queue.toward <;> rfl
  simp only [label?, setQueue, Array.getElem?_modify]
  split
  · rw [Option.map_map]
    exact congrArg (fun change => Option.map change _) (funext kept)
  · rfl

theorem label?_closeQueue (queue : QueueId) (channel : Nat) :
    (exchange.closeQueue queue).label? channel = exchange.label? channel := by
  have kept (opened : Channel) : ((opened.closeQueue queue.toward).slot,
      (opened.closeQueue queue.toward).key) = (opened.slot, opened.key) := by
    cases queue.toward <;> rfl
  simp only [label?, closeQueue, Array.getElem?_modify]
  split
  · rw [Option.map_map]
    exact congrArg (fun change => Option.map change _) (funext kept)
  · rfl

theorem label?_attempt (operation : Underway) (channel : Nat) :
    (exchange.attempt operation).2.label? channel = exchange.label? channel := by
  unfold attempt
  split
  · rename_i slot owner _ _
    cases ended : (slot.attempt operation.job owner.interrupt.raised).outcome with
    | none => simp only [ended]
    | some outcome =>
        simp only [ended]
        rw [label?_of_layout _ (layout_finished exchange _ _ _ _ _ _), label?_setQueue]
  · rfl

theorem label?_pollQueue (context : Nat) (handle : Handle) (queue : QueueId) (channel : Nat) :
    (exchange.pollQueue context handle queue).2.label? channel = exchange.label? channel := by
  unfold pollQueue
  split
  · rfl
  · split
    · rfl
    · rfl
    · rw [label?_of_layout _ (layout_finishTake _ _ _ _ _), label?_setQueue]

end Exchange

namespace Traffic

variable {traffic : Traffic}

theorem label?_advance (traffic : Traffic) (call : Nat) (errand : Errand) (channel : Nat) :
    (traffic.advance call errand).exchange.label? channel = traffic.exchange.label? channel := by
  cases errand with
  | convert context handle queue value =>
      have layout := traffic.exchange.layout_convertSend context handle queue value
      simp only [advance]
      split
      · rename_i err left converted
        rw [converted] at layout
        exact traffic.exchange.label?_of_layout layout channel
      · rename_i operation left converted
        rw [converted] at layout
        exact traffic.exchange.label?_of_layout layout channel
  | wait operation =>
      have labels := traffic.exchange.label?_attempt operation channel
      simp only [advance]
      split
      · rename_i left attempted
        rw [attempted] at labels
        exact labels
      · rename_i outcome left attempted
        rw [attempted] at labels
        exact labels
  | poll context handle queue => exact traffic.exchange.label?_pollQueue context handle queue channel
  | close handle place sides =>
      cases sides with
      | nil => rfl
      | cons side sides => exact traffic.exchange.label?_closeQueue _ channel

theorem label?_step (traffic : Traffic) (move : Move) {channel : Nat}
    (inside : channel < traffic.exchange.channels.size) :
    (traffic.step move).exchange.label? channel = traffic.exchange.label? channel := by
  have happened := traffic.stepped move
  generalize result : traffic.step move = after at happened ⊢
  cases happened with
  | still _ left layout => exact traffic.exchange.label?_of_layout layout channel
  | began _ errand _ left layout => exact traffic.exchange.label?_of_layout layout channel
  | opened key slot table left opens layout =>
      have channels := congrArg Layout.channels layout
      simp only [Exchange.layout] at channels
      simp only [withExchange, Exchange.label?, channels, Array.getElem?_push,
        Nat.ne_of_lt inside, if_false]
  | withdrew handle place table left closes layout =>
      have channels := congrArg Layout.channels layout
      simp only [Exchange.layout] at channels
      simp only [enter, Exchange.label?, channels]
  | advanced call errand _ pending =>
      simp only [step, pending] at result
      rw [← result]
      exact traffic.label?_advance call errand channel

/-! ### What a move does to the map -/

end Traffic

/-- What a move makes of the map from keys to channels, when the next channel gets this slot and this
place, if there is room for it: a positive key that has no channel gets one, a close removes the key
of its slot, and all other moves leave the map alone. -/
def Move.enters (room : Bool) (slot place : Nat) (directory : Directory) : Move → Directory
  | .create key =>
      if 0 < key ∧ directory key = none ∧ room = true then
        Function.update directory key (some (slot, place))
      else directory
  | .close handle => fun key => (directory key).filter fun held => held.1 ≠ handle.slot
  | _ => directory

/-- What a move makes of the two rows: it opens or closes a slot as the rows do by themselves. -/
def Move.writes (factor place : Nat) (columns : Columns) : Move → Columns
  | .create key =>
      match columns.open? factor key place with
      | some (.ok (_, opened)) => opened
      | _ => columns
  | .close handle =>
      match columns.close? handle.slot with
      | some (_, closed) => closed
      | none => columns
  | _ => columns

namespace Traffic

variable {traffic : Traffic}

theorem table_advance (traffic : Traffic) (call : Nat) :
    (traffic.step (.proceed call)).exchange.registry.table = traffic.exchange.registry.table := by
  have happened := traffic.stepped (.proceed call)
  generalize traffic.step _ = after at happened ⊢
  cases happened with
  | still _ left layout => exact congrArg Layout.table layout
  | began _ errand _ left layout => exact congrArg Layout.table layout
  | advanced _ errand _ pending happened => exact (slots_section happened).table

theorem table_step_eq (traffic : Traffic) (move : Move) :
    (traffic.step move).exchange.registry.table =
      match move with
      | .create key =>
          match traffic.exchange.registry.table.open? traffic.exchange.registry.config.growFactor
              key traffic.exchange.channels.size with
          | some (.ok (_, opened)) => opened
          | _ => traffic.exchange.registry.table
      | .close handle =>
          match traffic.exchange.registry.table.close? handle.slot with
          | some (_, closed) => closed
          | none => traffic.exchange.registry.table
      | _ => traffic.exchange.registry.table := by
  cases move with
  | create key =>
      simp only [step, withExchange, Exchange.create]
      split
      · rename_i opened
        rw [opened]
      · rename_i opened
        rw [opened]
        rfl
      · rename_i opened
        rw [opened]
        rfl
  | close handle =>
      simp only [step, Exchange.withdraw]
      cases closed : traffic.exchange.registry.table.close? handle.slot with
      | none => rfl
      | some result =>
          obtain ⟨channel, table⟩ := result
          cases channel with
          | none => rfl
          | some channel => rfl
  | proceed call => exact traffic.table_advance call
  | send context handle value =>
      simp only [step]
      split <;> rfl
  | receive context handle =>
      have layout := congrArg Layout.table (traffic.exchange.layout_startReceive context handle)
      simp only [step]
      generalize traffic.exchange.startReceive context handle = result at layout ⊢
      obtain ⟨outcome, left⟩ := result
      cases outcome <;> exact layout
  | poll context handle =>
      simp only [step]
      split <;> rfl
  | get key => exact congrArg Layout.table (traffic.exchange.layout_get key)
  | interrupt context => exact congrArg Layout.table (traffic.exchange.layout_interrupt context)
  | clear context => exact congrArg Layout.table (traffic.exchange.layout_clearInterrupt context)
  | addContext name codec => rfl
  | elsewhere heap change => rfl

/-- What holds of the table after every run, besides what is sound about the traffic. -/
structure Listed (traffic : Traffic) : Prop where
  sound : traffic.Sound
  keyed : traffic.exchange.registry.table.Keyed
  labelled : traffic.exchange.Labelled

theorem listed_initial {config : RegistryConfig} (valid : config.validate = .ok ()) :
    (initial config).Listed := by
  refine ⟨sound_initial valid, Table.keyed_ofCapacity config.initialCapacity, ?_⟩
  intro slot key channel held
  exact absurd (Table.channel?_eq_some.mpr ⟨key, held⟩)
    (Table.channel?_ofCapacity config.initialCapacity slot channel)

theorem Listed.step (listed : traffic.Listed) (move : Move) : (traffic.step move).Listed := by
  have bounded {slot : Nat} {key : Int} {channel : Nat}
      (held : traffic.exchange.registry.table.slot? slot = some (.live key channel)) :
      (traffic.step move).exchange.label? channel = some (slot, key) := by
    rw [traffic.label?_step move (listed.sound.bounded slot channel
      (Table.channel?_eq_some.mpr ⟨key, held⟩))]
    exact listed.labelled slot key channel held
  refine ⟨listed.sound.step move, ?_, ?_⟩
  · cases traffic.table_step move with
    | same slots =>
        rw [slots.table]
        exact listed.keyed
    | opened key slot opens => exact listed.keyed.open? listed.sound.grows opens
    | withdrew slot channel closes => exact listed.keyed.close? closes
  · intro slot key channel held
    -- A channel has kept its label, unless it is the one that was opened just now.
    have happened := traffic.stepped move
    generalize result : traffic.step move = after at happened held bounded ⊢
    cases happened with
    | still _ left layout =>
        have same : left.registry.table = traffic.exchange.registry.table :=
          congrArg Layout.table layout
        apply bounded
        rw [← same]
        exact held
    | began _ errand _ left layout =>
        have same : left.registry.table = traffic.exchange.registry.table :=
          congrArg Layout.table layout
        apply bounded
        rw [← same]
        exact held
    | advanced call errand _ pending happened =>
        apply bounded
        rw [← (slots_section happened).table]
        exact held
    | opened new place table left opens layout =>
        have entries : left.registry.table = table := congrArg Layout.table layout
        have held' : table.slot? slot = some (.live key channel) := by
          rw [← entries]
          exact held
        rcases (Table.live_open? listed.sound.grows opens).mp held' with
          ⟨here, isNew, made⟩ | ⟨_, old⟩
        · have channels : left.channels = _ := congrArg Layout.channels layout
          rw [here, isNew, made]
          simp [withExchange, Exchange.label?, channels, Channel.opened]
        · exact bounded old
    | withdrew handle taken table left closes layout =>
        have entries : left.registry.table = table := congrArg Layout.table layout
        have held' : table.slot? slot = some (.live key channel) := by
          rw [← entries]
          exact held
        exact bounded ((Table.live_close? closes).mp held').2

theorem listed_run {config : RegistryConfig} (valid : config.validate = .ok ())
    (moves : List Move) : ((initial config).run moves).Listed :=
  run_keeps Listed (fun _ move listed => listed.step move) moves (listed_initial valid)

/-! ### The rows -/

theorem keys_positive {table : Table} {slot : Nat} {key : Int} (positive : 0 < key) :
    table.columns.keys[slot]? = some key ↔ ∃ channel, table.slot? slot = some (.live key channel) := by
  cases slot with
  | zero =>
      constructor
      · intro first
        cases first
        exact absurd positive (Int.lt_irrefl 0)
      · rintro ⟨channel, impossible⟩
        cases impossible
  | succ index =>
      rw [table.keys_columns]
      cases table.slot? (index + 1) with
      | none => simp
      | some entry =>
          cases entry with
          | unused => simp [SlotEntry.key, Columns.freeKey]; omega
          | closed => simp [SlotEntry.key, Columns.closedKey]; omega
          | live held channel => simp [SlotEntry.key]

theorem channels_live {table : Table} {slot channel : Nat} :
    table.columns.channels[slot]? = some (some channel) ↔
      ∃ key, table.slot? slot = some (.live key channel) := by
  cases slot with
  | zero => simp [Table.columns, Table.slot?]
  | succ index =>
      rw [table.channels_columns]
      cases table.slot? (index + 1) with
      | none => simp
      | some entry => cases entry <;> simp [SlotEntry.channel?]

theorem Listed.registered (listed : traffic.Listed) : traffic.exchange.Registered := by
  constructor
  · simp [Exchange.columns, Table.columns]
  · exact ⟨rfl, rfl⟩
  · intro slot _
    constructor
    · rintro ⟨channel, held⟩
      obtain ⟨key, entry⟩ := channels_live.mp held
      have positive := listed.keyed.positive slot key channel entry
      exact ⟨key, (keys_positive positive).mpr ⟨channel, entry⟩, positive⟩
    · rintro ⟨key, held, positive⟩
      obtain ⟨channel, entry⟩ := (keys_positive positive).mp held
      exact ⟨channel, channels_live.mpr ⟨key, entry⟩⟩
  · intro slot place held
    obtain ⟨key, entry⟩ := channels_live.mp held
    obtain ⟨channel, opened, same⟩ := Option.map_eq_some_iff.mp (listed.labelled slot key place entry)
    cases same
    have positive := listed.keyed.positive _ _ place entry
    exact ⟨channel, opened, rfl, (keys_positive positive).mpr ⟨place, entry⟩⟩
  · intro slot other key positive held held'
    obtain ⟨channel, entry⟩ := (keys_positive positive).mp held
    obtain ⟨channel', entry'⟩ := (keys_positive positive).mp held'
    exact listed.keyed.distinct slot other key channel channel' entry entry'

theorem columns_step (traffic : Traffic) (move : Move) :
    (traffic.step move).exchange.columns =
      move.writes traffic.exchange.registry.config.growFactor traffic.exchange.channels.size
        traffic.exchange.columns := by
  rw [Exchange.columns, traffic.table_step_eq]
  cases move with
  | create key =>
      simp only [Move.writes, Exchange.columns, Table.columns_open?]
      rcases traffic.exchange.registry.table.open? traffic.exchange.registry.config.growFactor key
          traffic.exchange.channels.size with _ | _ | result
      · rfl
      · rfl
      · rfl
  | close handle =>
      simp only [Move.writes, Exchange.columns, Table.columns_close?]
      cases traffic.exchange.registry.table.close? handle.slot with
      | none => rfl
      | some result => rfl
  | _ => rfl

/-! ### The map -/

theorem Listed.directory_eq_some (listed : traffic.Listed) {key : Int} {slot channel : Nat} :
    traffic.exchange.directory key = some (slot, channel) ↔
      traffic.exchange.registry.table.slot? slot = some (.live key channel) :=
  Table.find?_eq_some listed.keyed

theorem directory_ext {first second : Directory}
    (same : ∀ key slot channel, first key = some (slot, channel) ↔ second key = some (slot, channel)) :
    first = second := by
  funext key
  apply Option.ext
  rintro ⟨slot, channel⟩
  exact same key slot channel

theorem Listed.unknown_iff (listed : traffic.Listed) {key : Int} :
    traffic.exchange.directory key = none ↔
      traffic.exchange.registry.table.slotOf? key = none := by
  rw [← Option.not_isSome_iff_eq_none, ← Option.not_isSome_iff_eq_none,
    Table.isSome_slotOf? listed.keyed]
  rfl

/-- Opening answers as the map says: a key that is not positive is refused, and so is one that has a
channel. -/
theorem Listed.creates (listed : traffic.Listed) (key : Int) :
    (traffic.exchange.create key).1 =
      if key ≤ 0 then some (.error (.invalidKey key))
      else if (traffic.exchange.directory key).isSome then some (.error (.duplicateKey key))
      else if traffic.exchange.hasRoom then
        some (.ok { slot := traffic.exchange.nextSlot, side := .master })
      else none := by
  rw [Exchange.directory, ← Table.isSome_slotOf? listed.keyed]
  simp only [Exchange.create, Table.open?]
  by_cases refused : key ≤ 0
  · simp only [refused, if_true]
  · by_cases known : (traffic.exchange.registry.table.slotOf? key).isSome = true
    · simp only [refused, known, if_true, if_false]
    · cases room : traffic.exchange.hasRoom with
      | true =>
          have room' : traffic.exchange.registry.table.hasRoom
              traffic.exchange.registry.config.growFactor = true := room
          simp only [refused, known, room', if_true, if_false]
          rfl
      | false =>
          have room' : traffic.exchange.registry.table.hasRoom
              traffic.exchange.registry.config.growFactor = false := room
          simp only [refused, known, room', if_false, Bool.false_eq_true]

/-- A channel is only opened under a new key and in the next slot. -/
theorem Listed.created (listed : traffic.Listed) {key : Int} {handle : Handle}
    (created : (traffic.exchange.create key).1 = some (.ok handle)) :
    (0 < key ∧ traffic.exchange.directory key = none ∧ traffic.exchange.hasRoom = true) ∧
      handle = { slot := traffic.exchange.nextSlot, side := .master } := by
  rw [listed.creates key] at created
  split at created
  · cases created
  · split at created
    · cases created
    · split at created
      · rename_i positive unknown room
        cases created
        exact ⟨⟨Int.lt_of_not_ge positive, by simpa using unknown, room⟩, rfl⟩
      · cases created

theorem Listed.gets (listed : traffic.Listed) (key : Int) :
    (traffic.exchange.get key).1 =
      match traffic.exchange.directory key with
      | some (slot, _) => .ok { slot, side := .worker }
      | none => .error (.notFound (.key key)) := by
  have found : (if 0 < key then traffic.exchange.registry.table.slotOf? key else none) =
      (traffic.exchange.directory key).map Prod.fst := by
    cases known : traffic.exchange.directory key with
    | some place =>
        have entry := listed.directory_eq_some.mp known
        rw [if_pos (listed.keyed.positive _ key _ entry)]
        exact (Table.slotOf?_eq_some listed.keyed).mpr ⟨_, entry⟩
    | none =>
        rw [listed.unknown_iff.mp known]
        split <;> rfl
  simp only [Exchange.get, found]
  cases traffic.exchange.directory key with
  | none => rfl
  | some place => rfl

/-- Closing takes out the channel of a key exactly when the handle has its slot. -/
theorem Listed.closes (listed : traffic.Listed) (handle : Handle) (channel : Nat) :
    (traffic.exchange.withdraw handle).1 = .ok (some channel) ↔
      ∃ key, traffic.exchange.directory key = some (handle.slot, channel) := by
  simp only [listed.directory_eq_some, ← Table.close?_live, Exchange.withdraw]
  cases closed : traffic.exchange.registry.table.close? handle.slot with
  | none => simp
  | some result =>
      obtain ⟨taken, table⟩ := result
      simp only [Except.ok.injEq, Option.some.injEq, Prod.mk.injEq]
      constructor
      · intro same
        refine ⟨same, ?_⟩
        rw [same] at closed
        obtain ⟨key, entry⟩ := Table.channel?_eq_some.mp (Table.channel?_closed closed)
        rw [Table.close?_live.mpr ⟨key, entry⟩] at closed
        cases closed
        rfl
      · exact And.left

theorem Listed.leads (listed : traffic.Listed) {key : Int} {slot channel : Nat}
    (known : traffic.exchange.directory key = some (slot, channel)) (side : Side) :
    traffic.exchange.channel? { slot, side } = .ok channel :=
  (traffic.exchange.channel?_eq_ok).mpr
    (Table.channel?_eq_some.mpr ⟨key, listed.directory_eq_some.mp known⟩)

theorem Listed.vacant (listed : traffic.Listed) : traffic.exchange.nextSlot ≠ 0 ∧
    ∀ key channel, traffic.exchange.directory key ≠ some (traffic.exchange.nextSlot, channel) := by
  constructor
  · obtain ⟨index, behind⟩ := traffic.exchange.registry.table.reserve_behind
      traffic.exchange.registry.config.growFactor
    rw [Exchange.nextSlot, behind]
    exact Nat.succ_ne_zero index
  · intro key channel known
    have entry := (Table.live_reserve traffic.exchange.registry.config.growFactor).mpr
      (listed.directory_eq_some.mp known)
    exact Table.reserve_vacant _ _ key channel entry

theorem Listed.live_opened (listed : traffic.Listed) {table : Table} {key other : Int}
    {slot slot' channel : Nat}
    (opened : traffic.exchange.registry.table.open? traffic.exchange.registry.config.growFactor key
      traffic.exchange.channels.size = some (.ok (slot, table))) :
    table.slot? slot' = some (.live other channel) ↔
      Function.update traffic.exchange.directory key
        (some (traffic.exchange.nextSlot, traffic.exchange.channels.size)) other =
          some (slot', channel) := by
  have place : slot = traffic.exchange.nextSlot := (Table.open?_eq_ok opened).1
  rw [Table.live_open? listed.sound.grows opened, place]
  by_cases same : other = key
  · subst same
    rw [Function.update_self]
    have absent : ¬traffic.exchange.registry.table.slot? slot' = some (.live other channel) := by
      rw [← listed.directory_eq_some, listed.unknown_iff.mpr (Table.open?_accepts opened).2.1]
      exact fun impossible => nomatch impossible
    simp only [true_and, absent, and_false, or_false, Option.some.injEq, Prod.mk.injEq, eq_comm]
  · rw [Function.update_of_ne same, listed.directory_eq_some]
    constructor
    · rintro (⟨_, isNew, _⟩ | ⟨_, old⟩)
      · exact absurd isNew same
      · exact old
    · intro old
      refine Or.inr ⟨?_, old⟩
      intro here
      rw [here] at old
      exact listed.vacant.2 other channel (listed.directory_eq_some.mpr old)

theorem Listed.enters (listed : traffic.Listed) (move : Move) :
    (traffic.step move).exchange.directory =
      move.enters traffic.exchange.hasRoom traffic.exchange.nextSlot
        traffic.exchange.channels.size traffic.exchange.directory := by
  have next := listed.step move
  have table := traffic.table_step_eq move
  cases move with
  | create key =>
      simp only at table
      rw [Move.enters]
      rcases opened : traffic.exchange.registry.table.open?
          traffic.exchange.registry.config.growFactor key traffic.exchange.channels.size with
        _ | err | ⟨slot, after⟩
      · rw [opened] at table
        have full : traffic.exchange.hasRoom = false := Table.open?_eq_none opened
        have stopped : ¬(0 < key ∧ traffic.exchange.directory key = none ∧
            traffic.exchange.hasRoom = true) := by
          rw [full]
          exact fun impossible => nomatch impossible.2.2
        rw [if_neg stopped, Exchange.directory, table]
        rfl
      · rw [opened] at table
        have refused : ¬(0 < key ∧ traffic.exchange.directory key = none ∧
            traffic.exchange.hasRoom = true) := by
          rintro ⟨positive, unknown, _⟩
          exact Table.open?_refuses opened ⟨positive, listed.unknown_iff.mp unknown⟩
        rw [if_neg refused, Exchange.directory, table]
        rfl
      · rw [opened] at table
        obtain ⟨positive, unknown, room⟩ := Table.open?_accepts opened
        rw [if_pos ⟨positive, listed.unknown_iff.mpr unknown, room⟩]
        apply directory_ext
        intro other slot' channel
        rw [next.directory_eq_some, table]
        exact listed.live_opened opened
  | close handle =>
      simp only at table
      rw [Move.enters]
      apply directory_ext
      intro key slot channel
      rw [next.directory_eq_some, table, Option.filter_eq_some_iff, listed.directory_eq_some,
        decide_eq_true_iff]
      cases closed : traffic.exchange.registry.table.close? handle.slot with
      | none =>
          refine ⟨fun held => ⟨held, ?_⟩, And.left⟩
          intro (here : slot = handle.slot)
          have entry : traffic.exchange.registry.table.slot? handle.slot =
              some (.live key channel) := by
            rw [← here]
            exact held
          rw [Table.close?_live.mpr ⟨key, entry⟩] at closed
          cases closed
      | some result =>
          rw [Table.live_close? closed, and_comm]
  | _ => exact congrArg Table.find? table

/-- A key that is known stays known, in its slot and with its channel, as long as its slot is not
closed. -/
theorem directory_kept (listed : traffic.Listed) {key : Int} {slot channel : Nat}
    (known : traffic.exchange.directory key = some (slot, channel)) (later : List Move)
    (spared : ∀ handle, .close handle ∈ later → handle.slot ≠ slot) :
    (traffic.run later).exchange.directory key = some (slot, channel) := by
  induction later generalizing traffic with
  | nil => exact known
  | cons move rest ih =>
      refine ih (listed.step move) ?_ fun handle member => spared handle (List.mem_cons_of_mem _ member)
      rw [listed.enters move]
      cases move with
      | create new =>
          rw [Move.enters]
          split
          · rename_i fresh
            have different : key ≠ new := by
              intro same
              rw [same, fresh.2.1] at known
              cases known
            rw [Function.update_of_ne different]
            exact known
          · exact known
      | close handle =>
          have apart := spared handle List.mem_cons_self
          show (traffic.exchange.directory key).filter _ = _
          rw [known, Option.filter_some, if_pos (decide_eq_true apart.symm)]
      | _ => exact known

/-- The registry is a partial map from keys to channels. -/
structure Mapped (traffic : Traffic) : Prop where
  rows : traffic.exchange.Registered
  /-- A move writes to the rows as they say themselves. -/
  writes : ∀ move, (traffic.step move).exchange.columns =
    move.writes traffic.exchange.registry.config.growFactor traffic.exchange.channels.size
      traffic.exchange.columns
  creates : ∀ key, (traffic.exchange.create key).1 =
    if key ≤ 0 then some (.error (.invalidKey key))
    else if (traffic.exchange.directory key).isSome then some (.error (.duplicateKey key))
    else if traffic.exchange.hasRoom then
      some (.ok { slot := traffic.exchange.nextSlot, side := .master })
    else none
  /-- There is room unless every slot has a channel and the capacity would overflow. -/
  room : traffic.exchange.hasRoom =
    traffic.exchange.columns.hasRoom traffic.exchange.registry.config.growFactor
  /-- Where there is no room, nothing happens. -/
  stops : ∀ key, (traffic.exchange.create key).1 = none → traffic.step (.create key) = traffic
  vacant : traffic.exchange.nextSlot ≠ 0 ∧
    ∀ key channel, traffic.exchange.directory key ≠ some (traffic.exchange.nextSlot, channel)
  gets : ∀ key, (traffic.exchange.get key).1 =
    match traffic.exchange.directory key with
    | some (slot, _) => .ok { slot, side := .worker }
    | none => .error (.notFound (.key key))
  closes : ∀ handle channel, (traffic.exchange.withdraw handle).1 = .ok (some channel) ↔
    ∃ key, traffic.exchange.directory key = some (handle.slot, channel)
  ends : ∀ handle channel, (traffic.exchange.withdraw handle).1 = .ok (some channel) →
    (traffic.exchange.close handle).1 = .ok ()
  leads : ∀ key slot channel side, traffic.exchange.directory key = some (slot, channel) →
    traffic.exchange.channel? { slot, side } = .ok channel
  /-- A handle is looked up in the row of channels. -/
  finds : ∀ handle, traffic.exchange.channel? handle =
    match traffic.exchange.columns.channel? handle.slot with
    | some channel => .ok channel
    | none => .error (.notFound (.handle handle.toRaw))
  /-- A move changes the map as it would change a map from keys to channels. -/
  enters : ∀ move, (traffic.step move).exchange.directory =
    move.enters traffic.exchange.hasRoom traffic.exchange.nextSlot traffic.exchange.channels.size
      traffic.exchange.directory
  /-- A channel keeps its slot and its place until its slot is closed. -/
  kept : ∀ key slot channel later, traffic.exchange.directory key = some (slot, channel) →
    (∀ handle, .close handle ∈ later → handle.slot ≠ slot) →
      (traffic.run later).exchange.directory key = some (slot, channel)
  /-- What is found under a key is the other end of what opening it had answered. -/
  returned : ∀ key handle later, (traffic.exchange.create key).1 = some (.ok handle) →
    (∀ other, .close other ∈ later → other.slot ≠ handle.slot) →
      (((traffic.step (.create key)).run later).exchange.get key).1 = .ok handle.peer

theorem Listed.mapped (listed : traffic.Listed) : traffic.Mapped where
  rows := listed.registered
  writes := traffic.columns_step
  creates := listed.creates
  room := (Table.columns_hasRoom _ _).symm
  stops key stopped := by
    have same := traffic.exchange.create_none stopped
    simp only [Traffic.step, same]
    rfl
  vacant := listed.vacant
  gets := listed.gets
  closes := listed.closes
  ends handle channel withdrawn := by
    unfold Exchange.close
    generalize traffic.exchange.withdraw handle = result at withdrawn ⊢
    obtain ⟨outcome, left⟩ := result
    cases withdrawn
    rfl
  leads _ _ _ side known := listed.leads known side
  finds handle := by
    rw [Exchange.columns, Table.columns_channel?]
    rfl
  enters := listed.enters
  kept _ _ _ later known spared := directory_kept listed known later spared
  returned key handle later created spared := by
    obtain ⟨fresh, rfl⟩ := listed.created created
    have entered : (traffic.step (.create key)).exchange.directory key =
        some (traffic.exchange.nextSlot, traffic.exchange.channels.size) := by
      rw [listed.enters, Move.enters, if_pos fresh, Function.update_self]
    have next := listed.step (.create key)
    have last := run_keeps Listed (fun _ move held => held.step move) later next
    rw [last.gets, directory_kept next entered later spared]
    rfl

variable {config : RegistryConfig}

/-- A table of two slots that has grown once and whose first channel was closed. -/
def threeKeys : List Move :=
  [.create 5, .create 6, .close { slot := 1, side := .worker }, .create 7]

end Traffic

end ValueChannels
