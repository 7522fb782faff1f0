import ValueChannels.Proofs.Exchange.Delivery

/-!
The conduct of calls. A call keeps to the queue of its side, and a close that has begun has
made its channel unreachable. Main statement: `sound_run`, the invariant of every run of the
traffic over a registry.
-/

namespace ValueChannels

namespace Exchange

/-- A channel that is being closed: no slot leads to it, and its queues are closed but for the
given sides. -/
structure Closing (exchange : Exchange) (channel : Nat) (sides : List Side) : Prop where
  inside : channel < exchange.channels.size
  unreachable : ∀ slot, ¬exchange.registry.table.channel? slot = some channel
  closed : ∀ side, side ∉ sides →
    ∃ slot, exchange.queue? { channel, toward := side } = some slot ∧ slot.closed = true

/-- An errand that a call can have: it is about a queue of its side, and a close is about a
channel that is being closed. -/
structure Admits (exchange : Exchange) (errand : Errand) : Prop where
  across : errand.Across
  inside : ∀ queue, errand.queue? = some queue → queue.channel < exchange.channels.size
  closing : ∀ handle channel sides, errand = .close handle channel sides →
    exchange.Closing channel sides

/-- What time does to an exchange: channels are added, a closed queue stays closed, and a slot
leads to a channel that was there before only if it did before. -/
structure Later (before after : Exchange) : Prop where
  size : before.channels.size ≤ after.channels.size
  closed : ∀ queue slot, before.queue? queue = some slot → slot.closed = true →
    ∃ later, after.queue? queue = some later ∧ later.closed = true
  leads : ∀ slot channel, channel < before.channels.size →
    after.registry.table.channel? slot = some channel →
      before.registry.table.channel? slot = some channel

variable {exchange after : Exchange}

theorem Closing.later {channel : Nat} {sides : List Side}
    (closing : exchange.Closing channel sides) (later : exchange.Later after) :
    after.Closing channel sides := by
  refine ⟨Nat.lt_of_lt_of_le closing.inside later.size, ?_, ?_⟩
  · intro slot leads
    exact closing.unreachable slot (later.leads slot channel closing.inside leads)
  · intro side done
    obtain ⟨slot, present, closed⟩ := closing.closed side done
    exact later.closed _ slot present closed

theorem Admits.later {errand : Errand} (admits : exchange.Admits errand)
    (later : exchange.Later after) : after.Admits errand := by
  refine ⟨admits.across, ?_, ?_⟩
  · intro queue about
    exact Nat.lt_of_lt_of_le (admits.inside queue about) later.size
  · intro handle channel sides same
    exact (admits.closing handle channel sides same).later later

end Exchange

namespace Traffic

variable {traffic : Traffic}

/-! ### The table after a step -/

/-- What a step does to the table. -/
inductive TableEffect (before after : Exchange) : Prop where
  | same (slots : before.SameSlots after)
  | opened (key : Int) (slot : Nat)
      (opens : before.registry.table.open? before.registry.config.growFactor key
        before.channels.size = some (.ok (slot, after.registry.table)))
      (size : after.channels.size = before.channels.size + 1)
      (growFactor : after.registry.config.growFactor = before.registry.config.growFactor)
  | withdrew (slot channel : Nat)
      (closes : before.registry.table.close? slot = some (some channel, after.registry.table))
      (size : after.channels.size = before.channels.size)
      (growFactor : after.registry.config.growFactor = before.registry.config.growFactor)

theorem slots_section {call : Nat} {errand : Errand} {after : Traffic}
    (happened : traffic.Section call errand after) :
    traffic.exchange.SameSlots after.exchange := by
  cases happened with
  | slept operation => exact .of_layout rfl
  | converted _ _ _ _ operation message left layout converts => exact .of_layout layout
  | failed _ err left slots queues => exact slots
  | nothing _ _ _ left slots queues => exact slots
  | deposited operation message left job slots before filled others => exact slots
  | took _ place message outcome left takes works slots before emptied others => exact slots
  | closing handle queue sides =>
      exact ⟨Exchange.size_channels_closeQueue _ queue, rfl, rfl⟩
  | ended handle channel => exact .of_layout rfl

theorem table_step (traffic : Traffic) (move : Move) :
    TableEffect traffic.exchange (traffic.step move).exchange := by
  have happened := traffic.stepped move
  generalize traffic.step move = after at happened ⊢
  cases happened with
  | still _ left layout => exact .same (.of_layout layout)
  | began _ errand _ left layout => exact .same (.of_layout layout)
  | opened key slot table left opens layout =>
      have channels := congrArg Layout.channels layout
      have entries := congrArg Layout.table layout
      simp only [Exchange.layout] at channels entries
      refine .opened key slot ?_ ?_ (congrArg Layout.growFactor layout)
      · rw [opens]
        exact congrArg (fun table => some (Except.ok (slot, table))) entries.symm
      · simp only [withExchange, channels, Array.size_push]
  | withdrew handle channel table left closes layout =>
      have channels := congrArg Layout.channels layout
      have entries := congrArg Layout.table layout
      simp only [Exchange.layout] at channels entries
      refine .withdrew handle.slot channel ?_ ?_ (congrArg Layout.growFactor layout)
      · rw [closes]
        exact congrArg (fun table => some (some channel, table)) entries.symm
      · simp only [enter, channels]
  | advanced call errand _ pending happened => exact .same (slots_section happened)

theorem later_step (traffic : Traffic) (move : Move) :
    traffic.exchange.Later (traffic.step move).exchange := by
  refine ⟨?_, ?_, ?_⟩
  · cases traffic.table_step move with
    | same slots => exact Nat.le_of_eq slots.size.symm
    | opened key slot opens size => omega
    | withdrew slot channel closes size => omega
  · intro queue slot present closed
    cases traffic.effect_step move queue with
    | same kept => exact ⟨slot, kept.trans present, closed⟩
    | opened absent =>
        rw [absent] at present
        cases present
    | filled message works empty =>
        rw [empty] at present
        cases present
        cases closed
    | emptied message works full =>
        rw [full] at present
        cases present
        cases closed
    | closed held works old new => exact ⟨held.close, new, rfl⟩
  · intro slot channel inside leads
    cases traffic.table_step move with
    | same slots =>
        rw [slots.table] at leads
        exact leads
    | opened key place opens =>
        rcases Table.channel?_of_open? opens leads with ⟨_, new⟩ | ⟨_, old⟩
        · exact absurd new (Nat.ne_of_lt inside)
        · exact old
    | withdrew place taken closes => exact (Table.channel?_of_close? closes leads).2

/-! ### The calls after a step -/

theorem begun_of_pending {call : Nat} {errand : Errand}
    (pending : traffic.errand? call = some errand) : call < traffic.calls.length := by
  refine Nat.lt_of_not_le ?_
  intro beyond
  rw [errand?, List.getElem?_eq_none beyond] at pending
  cases pending

theorem errand?_enter {begun errand : Errand} {exchange : Exchange} {call : Nat}
    (pending : (traffic.enter begun exchange).errand? call = some errand) :
    (call = traffic.calls.length ∧ errand = begun) ∨ traffic.errand? call = some errand := by
  simp only [enter, errand?, List.getElem?_append] at pending
  split at pending
  · exact Or.inr pending
  · rename_i beyond
    left
    cases at_ : call - traffic.calls.length with
    | zero =>
        rw [at_] at pending
        refine ⟨?_, (Option.some.inj pending).symm⟩
        omega
    | succ later =>
        rw [at_] at pending
        cases pending

theorem errand?_set {calls : List (Option Errand)} {entry : Option Errand} {call other : Nat}
    {errand : Errand} (pending : ((calls.set call entry)[other]?).join = some errand) :
    (other = call ∧ entry = some errand) ∨ (calls[other]?).join = some errand := by
  rw [List.getElem?_set] at pending
  split at pending
  · rename_i here
    split at pending
    · exact Or.inl ⟨here.symm, pending⟩
    · cases pending
  · exact Or.inr pending

theorem errand?_resume {resumed errand : Errand} {exchange : Exchange} {call other : Nat}
    (pending : (traffic.resume call resumed exchange).errand? other = some errand) :
    (other = call ∧ errand = resumed) ∨ traffic.errand? other = some errand := by
  rcases errand?_set pending with ⟨here, same⟩ | before
  · exact Or.inl ⟨here, (Option.some.inj same).symm⟩
  · exact Or.inr before

theorem errand?_complete {completion : Completion} {exchange : Exchange} {call : Nat}
    {errand : Errand} (pending : (traffic.complete completion exchange).errand? call = some errand) :
    traffic.errand? call = some errand := by
  rcases errand?_set pending with ⟨_, impossible⟩ | before
  · cases impossible
  · exact before

/-- A section changes the entry of its own call, if any. -/
theorem Section.calls {call : Nat} {errand : Errand} {after : Traffic}
    (happened : traffic.Section call errand after) :
    after.calls = traffic.calls ∨ ∃ entry, after.calls = traffic.calls.set call entry := by
  cases happened with
  | slept => exact Or.inl rfl
  | converted | failed | nothing | deposited | took | closing | ended => exact Or.inr ⟨_, rfl⟩

/-- What the errand of a section goes on to: a conversion to the deposit of its message, a closing
to the queue that is left. -/
inductive GoesOn (traffic : Traffic) (after : Exchange) : Errand → Errand → Prop where
  | converted {context : Nat} {handle : Handle} {queue : QueueId} {value : Ref}
      {operation : Underway} {message : Message}
      (converts : traffic.exchange.Converts context handle queue value operation message) :
      GoesOn traffic after (.convert context handle queue value) (.wait operation)
  | closing {handle : Handle} {queue : QueueId} {sides : List Side}
      (closed : after = traffic.exchange.closeQueue queue) :
      GoesOn traffic after (.close handle queue.channel (queue.toward :: sides))
        (.close handle queue.channel sides)

theorem Section.pending {call other : Nat} {ran errand : Errand} {after : Traffic}
    (happened : traffic.Section call ran after) (pending : after.errand? other = some errand) :
    traffic.errand? other = some errand ∨
      other = call ∧ traffic.GoesOn after.exchange ran errand := by
  cases happened with
  | slept => exact Or.inl pending
  | converted _ _ _ _ operation _ left _ converts =>
      rcases errand?_resume pending with ⟨here, same⟩ | before
      · rw [same]
        exact Or.inr ⟨here, .converted converts⟩
      · exact Or.inl before
  | closing handle queue sides =>
      have resumed : (traffic.resume call (.close handle queue.channel sides)
          (traffic.exchange.closeQueue queue)).errand? other = some errand := pending
      rcases errand?_resume resumed with ⟨here, same⟩ | before
      · rw [same]
        exact Or.inr ⟨here, .closing rfl⟩
      · exact Or.inl before
  | failed | nothing | deposited | took | ended => exact Or.inl (errand?_complete pending)

/-! ### The invariant -/

/-- What holds of the traffic after every run. -/
structure Sound (traffic : Traffic) : Prop where
  accounted : ∀ queue, traffic.Accounted queue
  grows : 2 ≤ traffic.exchange.registry.config.growFactor
  single : traffic.exchange.registry.table.Single
  bounded : ∀ slot channel, traffic.exchange.registry.table.channel? slot = some channel →
    channel < traffic.exchange.channels.size
  pending : ∀ call errand, traffic.errand? call = some errand → traffic.exchange.Admits errand
  ended : ∀ completion ∈ traffic.completions, traffic.exchange.Admits completion.errand ∧
    (completion.taken ≠ none → completion.errand.Takes)

theorem rooms_of_validate {config : RegistryConfig} (valid : config.validate = .ok ()) :
    0 < config.initialCapacity := by
  unfold RegistryConfig.validate at valid
  split at valid
  · cases valid
  · omega

theorem grows_of_validate {config : RegistryConfig} (valid : config.validate = .ok ()) :
    2 ≤ config.growFactor := by
  unfold RegistryConfig.validate at valid
  split at valid
  · cases valid
  · split at valid
    · cases valid
    · rename_i enough
      exact Nat.le_of_not_lt enough

theorem sound_initial {config : RegistryConfig} (valid : config.validate = .ok ()) :
    (initial config).Sound := by
  have empty (slot channel : Nat) :
      ¬(initial config).exchange.registry.table.channel? slot = some channel :=
    Table.channel?_ofCapacity config.initialCapacity slot channel
  refine ⟨accounted_initial config, grows_of_validate valid, ?_, ?_, ?_, ?_⟩
  · intro slot other channel leads
    exact absurd leads (empty slot channel)
  · intro slot channel leads
    exact absurd leads (empty slot channel)
  · intro call errand pending
    simp [initial, errand?] at pending
  · intro completion member
    cases member

theorem Sound.table (sound : traffic.Sound) (move : Move) :
    2 ≤ (traffic.step move).exchange.registry.config.growFactor ∧
      (traffic.step move).exchange.registry.table.Single ∧
      ∀ slot channel, (traffic.step move).exchange.registry.table.channel? slot = some channel →
        channel < (traffic.step move).exchange.channels.size := by
  cases traffic.table_step move with
  | same slots =>
      rw [slots.table, slots.size, slots.growFactor]
      exact ⟨sound.grows, sound.single, sound.bounded⟩
  | opened key slot opens size growFactor =>
      rw [size, growFactor]
      refine ⟨sound.grows, sound.single.open? opens ?_, ?_⟩
      · intro other leads
        exact absurd (sound.bounded other _ leads) (Nat.lt_irrefl _)
      · intro other channel leads
        rcases Table.channel?_of_open? opens leads with ⟨_, new⟩ | ⟨_, old⟩
        · omega
        · exact Nat.lt_succ_of_lt (sound.bounded other channel old)
  | withdrew slot taken closes size growFactor =>
      rw [size, growFactor]
      refine ⟨sound.grows, sound.single.close? closes, ?_⟩
      intro other channel leads
      exact sound.bounded other channel (Table.channel?_of_close? closes leads).2

theorem admits_converted {context : Nat} {handle : Handle} {queue : QueueId} {value : Ref}
    {operation : Underway} {message : Message}
    (admits : traffic.exchange.Admits (.convert context handle queue value))
    (converts : traffic.exchange.Converts context handle queue value operation message) :
    traffic.exchange.Admits (.wait operation) := by
  obtain ⟨_, _, sameHandle, sameQueue, job⟩ := converts
  obtain ⟨context', handle', queue', token, job'⟩ := operation
  cases sameHandle
  cases sameQueue
  cases job
  refine ⟨admits.across, admits.inside, ?_⟩
  intro handle channel sides impossible
  cases impossible

theorem closing_closed {queue : QueueId} {sides : List Side}
    (closing : traffic.exchange.Closing queue.channel (queue.toward :: sides)) :
    (traffic.exchange.closeQueue queue).Closing queue.channel sides := by
  have size := Exchange.size_channels_closeQueue traffic.exchange queue
  refine ⟨Nat.lt_of_lt_of_eq closing.inside size.symm, closing.unreachable, ?_⟩
  intro side done
  by_cases here : ({ channel := queue.channel, toward := side } : QueueId) = queue
  · obtain ⟨held, present⟩ :=
      Option.isSome_iff_exists.mp ((traffic.exchange.queue?_isSome_iff queue).mpr closing.inside)
    refine ⟨held.close, ?_, rfl⟩
    rw [here, Exchange.closeQueue_eq _ _ held, Exchange.queue?_setQueue_same, present]
    rfl
  · have other : side ∉ queue.toward :: sides := by
      intro member
      rcases List.mem_cons.mp member with same | rest
      · subst same
        exact here rfl
      · exact done rest
    rw [Exchange.closeQueue_eq _ _ Slot.empty, Exchange.queue?_setQueue_other _ here]
    exact closing.closed side other

/-- A call that goes on after a section has an errand that it can have. -/
theorem admits_section {call : Nat} {errand : Errand} {after : Traffic}
    (happened : traffic.Section call errand after) (later : traffic.exchange.Later after.exchange)
    (admits : traffic.exchange.Admits errand) {other : Nat} {left : Errand}
    (pending : after.errand? other = some left) :
    after.exchange.Admits left ∨ traffic.errand? other = some left := by
  rcases happened.pending pending with before | ⟨_, goesOn⟩
  · exact Or.inr before
  left
  cases goesOn with
  | converted converts => exact (admits_converted admits converts).later later
  | @closing handle queue sides closed =>
      have closing := admits.closing handle queue.channel _ rfl
      rw [closed]
      refine ⟨True.intro, ?_, ?_⟩
      · intro place about
        have size := Exchange.size_channels_closeQueue traffic.exchange queue
        have inside := Nat.lt_of_lt_of_eq closing.inside size.symm
        cases sides with
        | nil => cases about
        | cons side rest =>
            cases about
            exact inside
      · intro handle' channel' sides' same
        cases same
        exact closing_closed closing

theorem Sound.pending_step (sound : traffic.Sound) (move : Move) {call : Nat} {errand : Errand}
    (pending : (traffic.step move).errand? call = some errand) :
    (traffic.step move).exchange.Admits errand := by
  have happened := traffic.stepped move
  have later := traffic.later_step move
  generalize traffic.step move = after at happened later pending ⊢
  -- What an errand needs is kept by every step, so only the errand that has just begun is looked
  -- at.
  cases happened with
  | still _ left layout => exact (sound.pending call errand pending).later later
  | began _ begun queue left layout found place across starts =>
      rcases errand?_enter pending with ⟨_, same⟩ | before
      · subst same
        refine Exchange.Admits.later ⟨across, ?_, ?_⟩ later
        · intro other about
          rw [place] at about
          cases about
          exact sound.bounded _ _ ((traffic.exchange.channel?_eq_ok).mp found)
        · intro handle channel sides impossible
          subst impossible
          rcases starts with impossible | ⟨_, _, impossible, _⟩ <;> cases impossible
      · exact (sound.pending call errand before).later later
  | opened key slot table left opens layout =>
      exact (sound.pending call errand pending).later later
  | withdrew handle channel table left closes layout =>
      rcases errand?_enter pending with ⟨_, same⟩ | before
      · subst same
        have inside : channel < left.channels.size :=
          Nat.lt_of_lt_of_le (sound.bounded _ _ (Table.channel?_closed closes)) later.size
        have entries : left.registry.table = table := congrArg Layout.table layout
        refine ⟨True.intro, ?_, ?_⟩
        · intro queue about
          cases about
          exact inside
        · intro handle' channel' sides' same
          cases same
          refine ⟨inside, ?_, ?_⟩
          · intro slot leads
            simp only [enter, entries] at leads
            exact sound.single.unreachable closes slot leads
          · intro side neither
            cases side <;> simp at neither
      · exact (sound.pending call errand before).later later
  | advanced number ran _ running happened =>
      rcases admits_section happened later (sound.pending number ran running) pending with
        now | before
      · exact now
      · exact (sound.pending call errand before).later later

theorem completions_section {call : Nat} {errand : Errand} {after : Traffic}
    (happened : traffic.Section call errand after) :
    after.completions = traffic.completions ∨
      ∃ taken outcome,
        after.completions = traffic.completions ++ [Completion.mk call errand taken outcome] ∧
          (taken ≠ none → errand.Takes) := by
  cases happened with
  | slept => exact Or.inl rfl
  | converted => exact Or.inl rfl
  | failed _ err => exact Or.inr ⟨none, .error err, rfl, fun impossible => absurd rfl impossible⟩
  | nothing => exact Or.inr ⟨none, .ok none, rfl, fun impossible => absurd rfl impossible⟩
  | deposited => exact Or.inr ⟨none, .ok none, rfl, fun impossible => absurd rfl impossible⟩
  | took _ queue message outcome left takes =>
      exact Or.inr ⟨some message, outcome, rfl, fun _ => takes⟩
  | closing => exact Or.inl rfl
  | ended => exact Or.inr ⟨none, .ok none, rfl, fun impossible => absurd rfl impossible⟩

theorem completions_step (traffic : Traffic) (move : Move) :
    (traffic.step move).completions = traffic.completions ∨
      ∃ call errand taken outcome,
        move = .proceed call ∧ traffic.errand? call = some errand ∧
          (traffic.step move).completions =
            traffic.completions ++ [Completion.mk call errand taken outcome] ∧
          (taken ≠ none → errand.Takes) := by
  have happened := traffic.stepped move
  generalize traffic.step move = after at happened ⊢
  cases happened with
  | still => exact Or.inl rfl
  | began => exact Or.inl rfl
  | opened => exact Or.inl rfl
  | withdrew => exact Or.inl rfl
  | advanced call errand _ pending happened =>
      rcases completions_section happened with same | ⟨taken, outcome, more, takes⟩
      · exact Or.inl same
      · exact Or.inr ⟨call, errand, taken, outcome, rfl, pending, more, takes⟩

theorem Sound.ended_step (sound : traffic.Sound) (move : Move) {completion : Completion}
    (member : completion ∈ (traffic.step move).completions) :
    (traffic.step move).exchange.Admits completion.errand ∧
      (completion.taken ≠ none → completion.errand.Takes) := by
  have later := traffic.later_step move
  have old (before : completion ∈ traffic.completions) :
      (traffic.step move).exchange.Admits completion.errand ∧
        (completion.taken ≠ none → completion.errand.Takes) := by
    obtain ⟨admits, takes⟩ := sound.ended completion before
    exact ⟨admits.later later, takes⟩
  rcases traffic.completions_step move with same | ⟨call, errand, taken, outcome, _, pending, more, takes⟩
  · rw [same] at member
    exact old member
  · rw [more] at member
    rcases List.mem_append.mp member with before | new
    · exact old before
    · cases List.mem_singleton.mp new
      exact ⟨(sound.pending call errand pending).later later, takes⟩

theorem Sound.step (sound : traffic.Sound) (move : Move) : (traffic.step move).Sound := by
  obtain ⟨grows, single, bounded⟩ := sound.table move
  refine ⟨?_, grows, single, bounded, ?_, ?_⟩
  · intro queue
    exact (sound.accounted queue).effect (traffic.effect_step move queue)
  · intro call errand pending
    exact sound.pending_step move pending
  · intro completion member
    exact sound.ended_step move member

theorem sound_run {config : RegistryConfig} (valid : config.validate = .ok ())
    (moves : List Move) : ((initial config).run moves).Sound :=
  run_keeps Sound (fun _ move sound => sound.step move) moves (sound_initial valid)

end Traffic

end ValueChannels
