import ValueChannels.Proofs.Builtin.Numbers
import ValueChannels.Proofs.Exchange.Crowd

/-!
Builtin calls that reject their arguments have no effect. A function on channels reads its
arguments before it does anything, so there is nothing to take back, except for the id that it has
to answer after a channel was opened or found. Slots are used without gaps, which is why that id
fits an integer value as long as fewer than `2 ^ 31` channels are open at once. Main statement:
`restrained_run`.
-/

namespace ValueChannels

/-- There is no such function, or the arguments are wrong. -/
def BuiltinError.Rejects : BuiltinError → Prop
  | .unknownFunction _ => True
  | .argument _ => True
  | .channel _ => False

namespace Handle

variable {handle : Handle}

/-- The last slot whose handles have ids of 32 bits on both sides. -/
def lastSlot : Nat := 2 ^ 31 - 1

/-- The slot number with the sign of the side, which is the raw form of a slot that has ids. -/
def signed (handle : Handle) : Int :=
  match handle.side with
  | .master => handle.slot
  | .worker => -(handle.slot : Int)

theorem signed_peer (handle : Handle) : handle.peer.signed = -handle.signed := by
  obtain ⟨slot, side⟩ := handle
  cases side <;> simp [signed, peer, Side.other]

theorem toRaw_eq_signed (small : handle.slot ≤ lastSlot) : handle.toRaw = handle.signed := by
  have forms : rawForms = 2 ^ 64 := rfl
  have last : lastSlot = 2 ^ 31 - 1 := rfl
  exact toRaw_eq (by omega)

theorem numbered_of_slot (used : 0 < handle.slot) (small : handle.slot ≤ lastSlot) :
    handle.Numbered := by
  have last : lastSlot = 2 ^ 31 - 1 := rfl
  have raw := toRaw_eq_signed small
  have size : handle.signed.natAbs = handle.slot := by
    unfold signed
    cases handle.side with
    | master => rfl
    | worker => simp
  constructor
  · exact used
  · omega
  · omega
  · omega

end Handle

namespace Builtins

variable {builtins : Builtins} {exchange : Exchange} {handle : Handle} {name : String}

/-! ### What a call answers -/

/-- Every function on channels is found under its name. -/
def Offers (builtins : Builtins) : Prop :=
  ∀ entry ∈ channelFunctions, builtins.get? entry.1 = some entry.2

theorem offers_register (base : Builtins) : Offers (register base channelFunctions).2 := by
  intro entry member
  simp only [channelFunctions, List.mem_cons, List.not_mem_nil, or_false] at member
  simp only [register, channelFunctions, List.foldl_cons, List.foldl_nil, Mapping.get?_insert]
  rcases member with rfl | rfl | rfl | rfl | rfl | rfl <;> rfl

/-- A function that rejects its arguments leaves the exchange as it was, unless more channels are
open after the call than have ids. -/
def Restrained (function : BuiltinFunction) (exchange : Exchange) : Prop :=
  ∀ (context : Nat) (arguments : List Ref) (error : BuiltinError) (after : Exchange),
    function context arguments exchange = (.error error, after) → error.Rejects →
      after.registry.table.liveCount ≤ Handle.lastSlot → after = exchange

theorem answerStarted_error {started : Except ChannelError Underway × Exchange}
    {error : BuiltinError} {after : Exchange}
    (answered : answerStarted started = (.error error, after)) : ¬error.Rejects := by
  obtain ⟨outcome, left⟩ := started
  cases outcome with
  | ok operation => cases answered
  | error err =>
      cases answered
      exact id

theorem answerHandle_ok (numbered : handle.Numbered) (exchange : Exchange) :
    ∃ id heap, answerHandle (.ok handle, exchange) = (.ok (.done id), { exchange with heap }) ∧
      heap.body id = .vector (.integer [Int32.ofInt handle.toRaw]) := by
  obtain ⟨id, heap, allocated, body⟩ := numbered.allocHandle exchange
  refine ⟨id, heap, ?_, body⟩
  simp only [answerHandle, allocated]

theorem answerHandle_rejects {found : Except ChannelError Handle × Exchange}
    {error : BuiltinError} {after : Exchange} (answered : answerHandle found = (.error error, after))
    (rejects : error.Rejects) : ∃ handle, found = (.ok handle, after) ∧ ¬handle.Numbered := by
  obtain ⟨outcome, middle⟩ := found
  cases outcome with
  | error err =>
      cases answered
      cases rejects
  | ok handle =>
      have wide : ¬handle.Numbered := by
        intro numbered
        obtain ⟨id, heap, allocated, _⟩ := answerHandle_ok numbered middle
        rw [allocated] at answered
        cases answered
      simp only [answerHandle, Exchange.allocHandle] at answered
      split at answered
      · cases answered
      · rename_i allocated
        split at allocated
        · cases allocated
        · cases allocated
          cases answered
          exact ⟨handle, rfl, wide⟩

/-! ### Functions that are given a handle -/

theorem restrained_close (exchange : Exchange) : Restrained close exchange := by
  intro context arguments error after called rejects _
  unfold close at called
  split at called
  · cases called
    rfl
  · split at called
    · cases called
    · cases called
      cases rejects

theorem restrained_send (exchange : Exchange) : Restrained send exchange := by
  intro context arguments error after called rejects _
  unfold send at called
  split at called
  · cases called
    rfl
  · exact absurd rejects (answerStarted_error called)

theorem restrained_receive (exchange : Exchange) : Restrained receive exchange := by
  intro context arguments error after called rejects _
  unfold receive at called
  split at called
  · cases called
    rfl
  · exact absurd rejects (answerStarted_error called)

theorem restrained_poll (exchange : Exchange) : Restrained poll exchange := by
  intro context arguments error after called rejects _
  unfold poll at called
  split at called
  · cases called
    rfl
  · split at called
    · cases called
    · cases called
      cases rejects

/-- A value is taken for a handle by every function that is given one: it does what the operation
does that it stands for. -/
structure Accepted (id : Ref) (handle : Handle) (exchange : Exchange) : Prop where
  close : ∀ context, (Builtins.close context [id] exchange).2 = (exchange.close handle).2
  send : ∀ context value, Builtins.send context [id, value] exchange =
    answerStarted (exchange.startSend context handle value)
  receive : ∀ context, Builtins.receive context [id] exchange =
    answerStarted (exchange.startReceive context handle)
  poll : ∀ context, (Builtins.poll context [id] exchange).2 = (exchange.poll context handle).2

theorem accepted_of_readHandle {id : Ref} (read : exchange.heap.readHandle id = .ok handle) :
    Accepted id handle exchange := by
  have given (function : String) (further : List Ref) :=
    handleArgument_of_readHandle read function further
  constructor
  · intro context
    simp only [close, show handleArgument closeName exchange.heap [id] 1 = _ from given _ []]
    split
    · rename_i closed
      rw [closed]
    · rename_i closed
      rw [closed]
  · intro context value
    simp only [send, show handleArgument sendName exchange.heap [id, value] 2 = _ from given _ [value]]
    rfl
  · intro context
    simp only [receive, show handleArgument receiveName exchange.heap [id] 1 = _ from given _ []]
  · intro context
    simp only [poll, show handleArgument pollName exchange.heap [id] 1 = _ from given _ []]
    split
    · rename_i polled
      rw [polled]
    · rename_i polled
      rw [polled]

/-- The value is the id of a handle: an integer of 32 bits that every function which is given a
handle takes for this one, as long as nobody writes to the value. -/
structure Issued (heap : Heap) (id : Ref) (handle : Handle) (number : Int32) : Prop where
  body : heap.body id = .vector (.integer [number])
  signed : number.toInt = handle.signed
  accepted : ∀ later : Exchange, later.heap.body id = heap.body id → Accepted id handle later

theorem issued_of_body {heap : Heap} {id : Ref} (used : 0 < handle.slot)
    (small : handle.slot ≤ Handle.lastSlot)
    (body : heap.body id = .vector (.integer [Int32.ofInt handle.toRaw])) :
    Issued heap id handle (Int32.ofInt handle.toRaw) := by
  have numbered := Handle.numbered_of_slot used small
  constructor
  · exact body
  · rw [numbered.toInt, Handle.toRaw_eq_signed small]
  · intro later same
    exact accepted_of_readHandle (numbered.readsBack.integer _ _ (same.trans body))

/-! ### Functions that are given a key -/

section Keys

variable {key : Int} {arguments : List Ref} {after : Exchange}

theorem answerHandle_issues (used : 0 < handle.slot) (small : handle.slot ≤ Handle.lastSlot)
    (exchange : Exchange) :
    ∃ id heap number,
      answerHandle (.ok handle, exchange) = (.ok (.done id), { exchange with heap }) ∧
        Issued heap id handle number := by
  obtain ⟨id, heap, answered, body⟩ :=
    answerHandle_ok (Handle.numbered_of_slot used small) exchange
  exact ⟨id, heap, _, answered, issued_of_body used small body⟩

theorem create_issues (used : 0 < handle.slot) (small : handle.slot ≤ Handle.lastSlot)
    (context : Nat) (given : keyArgument createName exchange.heap arguments = .ok key)
    (opens : exchange.create key = (some (.ok handle), after)) :
    ∃ id heap number,
      create context arguments exchange = (.ok (.done id), { after with heap }) ∧
        Issued heap id handle number := by
  obtain ⟨id, heap, number, answered, issued⟩ := answerHandle_issues used small after
  refine ⟨id, heap, number, ?_, issued⟩
  simp only [create, given, opens, answered]

theorem get_issues (used : 0 < handle.slot) (small : handle.slot ≤ Handle.lastSlot)
    (context : Nat) (given : keyArgument getName exchange.heap arguments = .ok key)
    (looked : (exchange.get key).1 = .ok handle) :
    ∃ id heap number,
      get context arguments exchange = (.ok (.done id), { (exchange.get key).2 with heap }) ∧
        Issued heap id handle number := by
  obtain ⟨id, heap, number, answered, issued⟩ :=
    answerHandle_issues used small (exchange.get key).2
  refine ⟨id, heap, number, ?_, issued⟩
  rw [← looked] at answered
  simp only [get, given, answered]

/-- Behind the last slot the call is rejected although the channel is open. -/
theorem create_beyond (context : Nat)
    (given : keyArgument createName exchange.heap arguments = .ok key)
    (opens : exchange.create key = (some (.ok handle), after)) (beyond : 2 ^ 31 ≤ handle.toRaw) :
    create context arguments exchange = (.error (.argument (.wideId handle.toRaw)), after) := by
  have wide : ¬(-0x80000000 ≤ handle.toRaw ∧ handle.toRaw < 0x80000000) := by omega
  simp only [create, given, opens, answerHandle, Exchange.allocHandle, if_neg wide]

end Keys

end Builtins

namespace Traffic

variable {traffic : Traffic} {config : RegistryConfig} {key : Int} {handle : Handle}
  {after : Exchange}

/-- All slots that have ever been used have ids. -/
structure Identified (traffic : Traffic) : Prop where
  listed : traffic.Listed
  slots : ∃ used ≤ Handle.lastSlot, traffic.exchange.registry.table.Dense used

/-- The traffic with other events in its log, or with none, as looking at the log makes it. -/
def watched (traffic : Traffic) (log : Option (List Event)) : Traffic :=
  traffic.withExchange { traffic.exchange with registry := { traffic.exchange.registry with log } }

namespace Identified

/-- A channel takes a slot that was used before, or the one behind them, which is then the number
of channels that are open. -/
theorem created (identified : traffic.Identified)
    (opens : traffic.exchange.create key = (some (.ok handle), after))
    (within : after.registry.table.liveCount ≤ Handle.lastSlot) :
    handle.side = .master ∧ 0 < handle.slot ∧ handle.slot ≤ Handle.lastSlot := by
  obtain ⟨used, few, dense⟩ := identified.slots
  unfold Exchange.create at opens
  dsimp only at opens
  split at opens
  · cases opens
  · cases opens
  · rename_i slot table opened
    cases opens
    refine ⟨rfl, ?_⟩
    cases dense.open? identified.listed.sound.grows opened with
    | again behind inside _ _ => exact ⟨behind, Nat.le_trans inside few⟩
    | next place _ full _ =>
        have live : table.liveCount ≤ Handle.lastSlot := within
        rw [full, ← place] at live
        exact ⟨place ▸ Nat.succ_pos used, live⟩

theorem found (identified : traffic.Identified)
    (looked : (traffic.exchange.get key).1 = .ok handle) :
    handle.side = .worker ∧ 0 < handle.slot ∧ handle.slot ≤ Handle.lastSlot := by
  obtain ⟨used, few, dense⟩ := identified.slots
  rw [identified.listed.gets key] at looked
  split at looked
  · rename_i slot channel known
    cases looked
    have entry := identified.listed.directory_eq_some.mp known
    obtain ⟨behind, inside⟩ := dense.used_iff.mp ⟨_, entry, nofun⟩
    exact ⟨rfl, behind, Nat.le_trans inside few⟩
  · cases looked

theorem restrained_create (identified : traffic.Identified) :
    Builtins.Restrained Builtins.create traffic.exchange := by
  intro context arguments error after called rejects within
  unfold Builtins.create at called
  split at called
  · cases called
    rfl
  · split at called
    · rename_i created left answered
      obtain ⟨handle, same, wide⟩ := Builtins.answerHandle_rejects called rejects
      cases same
      obtain ⟨_, used, small⟩ := identified.created answered within
      exact absurd (Handle.numbered_of_slot used small) wide
    · cases called

theorem restrained_get (identified : traffic.Identified) :
    Builtins.Restrained Builtins.get traffic.exchange := by
  intro context arguments error after called rejects within
  unfold Builtins.get at called
  split at called
  · cases called
    rfl
  · obtain ⟨handle, looked, wide⟩ := Builtins.answerHandle_rejects called rejects
    obtain ⟨_, used, small⟩ := identified.found (congrArg Prod.fst looked)
    exact absurd (Handle.numbered_of_slot used small) wide

theorem restrained (identified : traffic.Identified) :
    ∀ entry ∈ Builtins.channelFunctions, Builtins.Restrained entry.2 traffic.exchange := by
  intro entry member
  simp only [Builtins.channelFunctions, List.mem_cons, List.not_mem_nil, or_false] at member
  rcases member with rfl | rfl | rfl | rfl | rfl | rfl
  · exact identified.restrained_create
  · exact identified.restrained_get
  · exact Builtins.restrained_close _
  · exact Builtins.restrained_send _
  · exact Builtins.restrained_receive _
  · exact Builtins.restrained_poll _

theorem admits_watched {log : Option (List Event)} {errand : Errand}
    (admits : traffic.exchange.Admits errand) : (traffic.watched log).exchange.Admits errand := by
  constructor
  · exact admits.across
  · exact admits.inside
  · intro handle channel sides same
    have closing := admits.closing handle channel sides same
    exact ⟨closing.inside, closing.unreachable, closing.closed⟩

theorem watched (identified : traffic.Identified) (log : Option (List Event)) :
    (traffic.watched log).Identified := by
  have sound := identified.listed.sound
  refine ⟨⟨⟨sound.accounted, sound.grows, sound.single, sound.bounded, ?_, ?_⟩,
    identified.listed.keyed, identified.listed.labelled⟩, identified.slots⟩
  · intro call errand pending
    exact admits_watched (sound.pending call errand pending)
  · intro completion member
    obtain ⟨admits, takes⟩ := sound.ended completion member
    exact ⟨admits_watched admits, takes⟩

end Identified

theorem identified_run (valid : config.validate = .ok ()) (moves : List Move)
    (few : (initial config).peak moves ≤ Handle.lastSlot) :
    ((initial config).run moves).Identified :=
  ⟨listed_run valid moves, _, few, (compact_run valid moves).dense⟩

/-- What callers of builtin functions can rely on in a state. -/
structure Restrained (traffic : Traffic) : Prop where
  /-- A call that is rejected leaves everything as it was: the registry, the queues, the contexts
  with their flags, the heap with its marks, and the log. A function that somebody else has put
  into the table has to see to that by itself. -/
  refusal : ∀ (builtins : Builtins) (name : String) (context : Nat) (arguments : List Ref)
    (error : BuiltinError) (after : Exchange), Builtins.Offers builtins →
    (∀ guest, builtins.get? name = some guest →
      name ∉ Builtins.channelFunctions.map Prod.fst → Builtins.Restrained guest traffic.exchange) →
    builtins.call context name arguments traffic.exchange = (.error error, after) →
    error.Rejects → after.registry.table.liveCount ≤ Handle.lastSlot → after = traffic.exchange
  /-- A call that is under way can no longer be rejected. -/
  outcome : ∀ (outcome : Outcome) (error : BuiltinError),
    outcome.callValue = .error error → ¬error.Rejects
  /-- When a channel was opened the call answers its id, a positive one; and whoever looks the
  channel up before its slot is closed gets an id too, the exact negative. -/
  creates : ∀ (context : Nat) (arguments : List Ref) (key : Int) (handle : Handle)
    (after : Exchange),
    Builtins.keyArgument Builtins.createName traffic.exchange.heap arguments = .ok key →
    traffic.exchange.create key = (some (.ok handle), after) →
    after.registry.table.liveCount ≤ Handle.lastSlot →
    ∃ id heap number,
      Builtins.create context arguments traffic.exchange = (.ok (.done id), { after with heap }) ∧
      Builtins.Issued heap id handle number ∧ handle.side = .master ∧ 0 < number.toInt ∧
      ∀ later : List Move, (∀ other, .close other ∈ later → other.slot ≠ handle.slot) →
        ∀ (context : Nat) (arguments : List Ref),
          let exchange := ((traffic.step (.create key)).run later).exchange
          Builtins.keyArgument Builtins.getName exchange.heap arguments = .ok key →
          ∃ peer heap opposite,
            Builtins.get context arguments exchange =
              (.ok (.done peer), { (exchange.get key).2 with heap }) ∧
            Builtins.Issued heap peer handle.peer opposite ∧ opposite.toInt = -number.toInt
  /-- When a channel was found the call answers its id, a negative one. -/
  gets : ∀ (context : Nat) (arguments : List Ref) (key : Int) (handle : Handle),
    Builtins.keyArgument Builtins.getName traffic.exchange.heap arguments = .ok key →
    (traffic.exchange.get key).1 = .ok handle →
    ∃ id heap number,
      Builtins.get context arguments traffic.exchange =
        (.ok (.done id), { (traffic.exchange.get key).2 with heap }) ∧
      Builtins.Issued heap id handle number ∧ handle.side = .worker ∧ number.toInt < 0

theorem Identified.reliable (identified : traffic.Identified) : traffic.Restrained := by
  constructor
  · intro builtins name context arguments error after offers guests called rejects within
    unfold Builtins.call at called
    split at called
    · rename_i function found
      by_cases ours : name ∈ Builtins.channelFunctions.map Prod.fst
      · obtain ⟨entry, member, rfl⟩ := List.mem_map.mp ours
        rw [offers entry member] at found
        cases found
        exact identified.restrained entry member context arguments error after called rejects within
      · exact guests function found ours context arguments error after called rejects within
    · cases called
      rfl
  · intro outcome error answered
    cases outcome with
    | ok value => cases answered
    | error err =>
        cases answered
        exact id
  · intro context arguments key handle after given opens within
    obtain ⟨side, used, small⟩ := identified.created opens within
    obtain ⟨id, heap, number, answered, issued⟩ :=
      Builtins.create_issues used small context given opens
    have positive : 0 < number.toInt := by
      rw [issued.signed, Handle.signed, side]
      exact Int.natCast_pos.mpr used
    refine ⟨id, heap, number, answered, issued, side, positive, ?_⟩
    -- Whoever asks for the key later is given the other side, whose id is the negative of this one.
    intro later spared context arguments exchange given
    have looked := identified.listed.mapped.returned key handle later (congrArg Prod.fst opens) spared
    have place : handle.peer.slot = handle.slot := rfl
    rw [← place] at used small
    obtain ⟨peer, heap, opposite, answered, other⟩ :=
      Builtins.get_issues used small context given looked
    refine ⟨peer, heap, opposite, answered, other, ?_⟩
    rw [other.signed, issued.signed, Handle.signed_peer]
  · intro context arguments key handle given looked
    obtain ⟨side, used, small⟩ := identified.found looked
    obtain ⟨id, heap, number, answered, issued⟩ :=
      Builtins.get_issues used small context given looked
    refine ⟨id, heap, number, answered, issued, side, ?_⟩
    rw [issued.signed, Handle.signed, side]
    exact Int.neg_neg_of_pos (Int.natCast_pos.mpr used)

/-- In every run over a registry of a valid configuration in which fewer than `2 ^ 31` channels are
open at once, and with any log of events, rejected calls have no effect and ids are answered. The
call counts: no more channels may be open after it either. -/
theorem restrained_run (valid : config.validate = .ok ()) (moves : List Move)
    (few : (initial config).peak moves ≤ Handle.lastSlot) (log : Option (List Event)) :
    (((initial config).run moves).watched log).Restrained :=
  ((identified_run valid moves few).watched log).reliable

/-- One channel is open, and there is a value that can be given as another key. -/
def oneKey : List Move :=
  [.create 6, .elsewhere (Heap.initial.alloc (.vector (.integer [5]))).2 id]

/-- A call without arguments is rejected there, and one with the value opens the second channel. -/
theorem restrained_oneKey :
    let traffic := ((initial .standard).run oneKey).watched (some [])
    RegistryConfig.validate .standard = .ok () ∧
      (initial .standard).peak oneKey ≤ Handle.lastSlot ∧
      Builtins.channels.call 0 Builtins.createName [] traffic.exchange =
        (.error (.argument (.arity Builtins.createName 1 0)), traffic.exchange) ∧
      Builtins.keyArgument Builtins.createName traffic.exchange.heap [⟨2⟩] = .ok 5 ∧
      (traffic.exchange.create 5).1 = some (.ok { slot := 2, side := .master }) ∧
      Builtins.Offers Builtins.channels ∧ traffic.Restrained :=
  ⟨rfl, by decide, rfl, rfl, rfl, Builtins.offers_register Mapping.empty,
    restrained_run rfl oneKey (by decide) (some [])⟩

/-- When every slot with an id has a channel, the next one is opened and has none. -/
theorem Crowded.rejects (crowded : traffic.Crowded (2 ^ 31) Handle.lastSlot) (context : Nat)
    {arguments : List Ref}
    (given : Builtins.keyArgument Builtins.createName traffic.exchange.heap arguments = .ok 1) :
    ∃ error after, Builtins.channels.call context Builtins.createName arguments traffic.exchange =
        (.error error, after) ∧ error.Rejects ∧ after ≠ traffic.exchange := by
  have fewer : Handle.lastSlot < 2 ^ 31 := by decide
  obtain ⟨after, opens, more⟩ :=
    crowded.creates fewer (show (0 : Int) < 1 by decide) (fun index _ => by omega)
  refine ⟨_, after, Builtins.create_beyond context given opens (by decide), trivial, ?_⟩
  intro same
  rw [same] at more
  omega

/-- It is not enough that the ids sufficed before the call: with `2 ^ 31 - 1` channels open one more
is opened, and then the call is rejected. -/
theorem not_restrained_before :
    ¬∀ (config : RegistryConfig) (moves : List Move), config.validate = .ok () →
      (initial config).peak moves ≤ Handle.lastSlot →
        ∀ (name : String) (context : Nat) (arguments : List Ref) (error : BuiltinError)
          (after : Exchange),
          Builtins.channels.call context name arguments ((initial config).run moves).exchange =
            (.error error, after) →
          error.Rejects → after = ((initial config).run moves).exchange := by
  intro restrained
  have spans : Table.Spans 4 2 (2 ^ 31) := .of_lt (by decide)
  let asked := (Heap.initial.alloc (.vector (.integer [1]))).2
  have crowded : ((initial .standard).run (crowd Handle.lastSlot ++ [.elsewhere asked id])).Crowded
      (2 ^ 31) Handle.lastSlot := by
    rw [run_append]
    exact (crowded_run rfl spans (by decide)).elsewhere asked id
  have given : Builtins.keyArgument Builtins.createName
      ((initial .standard).run (crowd Handle.lastSlot ++ [.elsewhere asked id])).exchange.heap
        [⟨2⟩] = .ok 1 := by
    rw [run_append]
    rfl
  obtain ⟨error, after, called, rejects, changed⟩ := crowded.rejects 0 given
  exact changed (restrained .standard _ rfl (crowded.peak_le rfl) _ _ _ error after called rejects)

end Traffic

end ValueChannels
