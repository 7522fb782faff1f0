import ValueChannels.Proofs.Exchange.Directory
import ValueChannels.Proofs.Exchange.Order

/-!
Handles of closed channels. A handle is a slot and a side: from the close of its channel on it leads
nowhere, until the slot is used again, and then it leads to the new channel. Main statements:
`silent_until_reuse`, and `not_silent_forever`, that a handle does not stay silent for good.
-/

namespace ValueChannels

namespace Table

variable {table after : Table} {slot other : Nat}

theorem closed_open? {factor : Nat} {key : Int} {channel : Nat}
    (opened : table.open? factor key channel = some (.ok (other, after)))
    (closed : table.slot? slot = some .closed) (apart : slot ≠ other) :
    after.slot? slot = some .closed := by
  obtain ⟨_, whole⟩ := open?_eq_ok opened
  have inside : slot < table.capacity := by
    cases slot with
    | zero => cases closed
    | succ index => exact Nat.succ_lt_succ (List.getElem?_eq_some_iff.mp closed).1
  rw [whole, slot?_setEntry_other apart, reserve]
  split
  · exact closed
  · rw [slot?_grow table factor inside]
    exact closed

theorem closed_close? {taken : Option Nat} (close : table.close? other = some (taken, after))
    (closed : table.slot? slot = some .closed) : after.slot? slot = some .closed := by
  unfold close? at close
  split at close
  · rename_i held inside entry
    cases close
    have apart : slot ≠ other := by
      intro same
      rw [same, entry] at closed
      cases closed
    rw [slot?_setEntry_other apart]
    exact closed
  · cases close
    exact closed
  · cases close

theorem closed_of_close? {channel : Nat} (leads : table.channel? slot = some channel) :
    ∃ after, table.close? slot = some (some channel, after) ∧ after.slot? slot = some .closed := by
  obtain ⟨key, entry⟩ := channel?_eq_some.mp leads
  exact ⟨_, close?_live.mpr ⟨key, entry⟩, slot?_setEntry_same _ entry⟩

end Table

theorem Exchange.Later.trans {first second third : Exchange} (sooner : first.Later second)
    (later : second.Later third) : first.Later third where
  size := Nat.le_trans sooner.size later.size
  closed queue slot present closed := by
    obtain ⟨between, present', closed'⟩ := sooner.closed queue slot present closed
    exact later.closed queue between present' closed'
  leads slot channel inside leads := by
    have inside' := Nat.lt_of_lt_of_le inside sooner.size
    exact sooner.leads slot channel inside (later.leads slot channel inside' leads)

namespace Traffic

variable {traffic : Traffic}

/-- A move that answers with a handle: it opens a channel or looks one up. -/
def Answers (traffic : Traffic) (handle : Handle) : Move → Prop
  | .create key => (traffic.exchange.create key).1 = some (.ok handle)
  | .get key => (traffic.exchange.get key).1 = .ok handle
  | _ => False

/-- Nothing is reached through a handle, from either side: no channel is found for it, and closing it
once more is answered with success and changes neither a queue nor the table. -/
structure Silent (traffic : Traffic) (handle : Handle) : Prop where
  sends : ∀ context side value,
    (traffic.exchange.startSend context { handle with side } value).1 =
      .error (.notFound (.handle ({ handle with side } : Handle).toRaw))
  receives : ∀ context side,
    (traffic.exchange.startReceive context { handle with side }).1 =
      .error (.notFound (.handle ({ handle with side } : Handle).toRaw))
  polls : ∀ context side,
    (traffic.exchange.poll context { handle with side }).1 =
      .error (.notFound (.handle ({ handle with side } : Handle).toRaw))
  closes : ∀ side, (traffic.exchange.close { handle with side }).1 = .ok () ∧
    (traffic.exchange.close { handle with side }).2.layout = traffic.exchange.layout

theorem silent_of_closed {handle : Handle}
    (closed : traffic.exchange.registry.table.slot? handle.slot = some .closed) :
    traffic.Silent handle := by
  have missing (side : Side) : traffic.exchange.channel? { handle with side } =
      .error (.notFound (.handle ({ handle with side } : Handle).toRaw)) := by
    simp only [Exchange.channel?, Table.channel?, closed]
  constructor
  · intro context side value
    simp only [Exchange.startSend, missing, Exchange.failSend]
  · intro context side
    simp only [Exchange.startReceive, missing]
  · intro context side
    simp only [Exchange.poll, missing, Exchange.failPoll]
  · intro side
    have again : traffic.exchange.registry.table.close? handle.slot =
        some (none, traffic.exchange.registry.table) := by
      simp only [Table.close?, closed]
    constructor
    · simp only [Exchange.close, Exchange.withdraw, again]
    · simp only [Exchange.close, Exchange.withdraw, again]
      rfl

/-- No move but one that opens a channel in it makes a closed slot another one. -/
theorem closed_step {slot : Nat}
    (closed : traffic.exchange.registry.table.slot? slot = some .closed) (move : Move)
    (spared : ∀ key, move = .create key →
      (traffic.exchange.create key).1 ≠ some (.ok { slot, side := .master })) :
    (traffic.step move).exchange.registry.table.slot? slot = some .closed := by
  rw [traffic.table_step_eq]
  cases move with
  | create key =>
      have answer := spared key rfl
      rcases opened : traffic.exchange.registry.table.open?
          traffic.exchange.registry.config.growFactor key traffic.exchange.channels.size with
        _ | _ | ⟨other, after⟩
      · simp only [opened]
        exact closed
      · simp only [opened]
        exact closed
      · simp only [Exchange.create, opened] at answer
        simp only [opened]
        have apart : slot ≠ other := by
          intro same
          rw [same] at answer
          exact answer rfl
        exact Table.closed_open? opened closed apart
  | close handle =>
      cases withdrawn : traffic.exchange.registry.table.close? handle.slot with
      | none =>
          simp only [withdrawn]
          exact closed
      | some result =>
          simp only [withdrawn]
          exact Table.closed_close? withdrawn closed
  | _ => exact closed

/-- None of these moves opens a channel in the slot. -/
def Spares (traffic : Traffic) (slot : Nat) (moves : List Move) : Prop :=
  ∀ sooner key rest, moves = sooner ++ .create key :: rest →
    ((traffic.run sooner).exchange.create key).1 ≠ some (.ok { slot, side := .master })

theorem closed_run {slot : Nat} (moves : List Move)
    (closed : traffic.exchange.registry.table.slot? slot = some .closed)
    (spared : traffic.Spares slot moves) :
    (traffic.run moves).exchange.registry.table.slot? slot = some .closed := by
  induction moves generalizing traffic with
  | nil => exact closed
  | cons move rest ih =>
      refine ih (closed_step closed move ?_) ?_
      · intro key same
        exact spared [] key rest (congrArg (· :: rest) same)
      · intro sooner key last whole
        exact spared (move :: sooner) key last (congrArg (move :: ·) whole)

theorem closed_closing {handle : Handle} {channel : Nat}
    (leads : traffic.exchange.channel? handle = .ok channel) :
    (traffic.step (.close handle)).exchange.registry.table.slot? handle.slot = some .closed := by
  obtain ⟨after, closes, closed⟩ := Table.closed_of_close? ((Exchange.channel?_eq_ok _).mp leads)
  rw [traffic.table_step_eq]
  simp only [closes]
  exact closed

theorem Listed.answers (listed : traffic.Listed) {handle : Handle} {move : Move}
    (answers : traffic.Answers handle move) :
    ∃ channel, (traffic.step move).exchange.channel? handle = .ok channel := by
  have next := listed.step move
  cases move with
  | create key =>
      have created : (traffic.exchange.create key).1 = some (.ok handle) := answers
      exact ⟨_, (listed.sound.opens created).leads⟩
  | get key =>
      have table := traffic.table_step_eq (.get key)
      have answer := listed.gets key
      rw [show (traffic.exchange.get key).1 = .ok handle from answers] at answer
      cases known : traffic.exchange.directory key with
      | none =>
          rw [known] at answer
          cases answer
      | some place =>
          rw [known] at answer
          cases answer
          have still : (traffic.step (.get key)).exchange.directory key = some place := by
            rw [Exchange.directory, table]
            exact known
          exact ⟨place.2, next.leads still .worker⟩
  | _ => exact answers.elim

theorem later_run (traffic : Traffic) (moves : List Move) :
    traffic.exchange.Later (traffic.run moves).exchange := by
  refine run_keeps (fun after => traffic.exchange.Later after.exchange) ?_ moves ?_
  · intro after move later
    exact later.trans (after.later_step move)
  · exact ⟨Nat.le_refl _, fun _ slot present closed => ⟨slot, present, closed⟩,
      fun _ _ _ leads => leads⟩

/-- A channel is only ever found in the slot that it was first found in. -/
theorem Listed.stays (listed : traffic.Listed) {handle other : Handle} {channel : Nat}
    (leads : traffic.exchange.channel? handle = .ok channel) (between : List Move)
    (found : (traffic.run between).exchange.channel? other = .ok channel) :
    other.slot = handle.slot := by
  rw [Exchange.channel?_eq_ok] at leads found
  have inside := listed.sound.bounded _ _ leads
  exact listed.sound.single _ _ channel ((traffic.later_run between).leads _ _ inside found) leads

variable {config : RegistryConfig}

/-- A handle that was answered is the handle of a channel. From the close of that channel on it is
silent, whatever else is done, as long as no channel is opened in its slot; one that is opened
there is a new one, and the handle leads to it from both sides. -/
theorem silent_until_reuse (valid : config.validate = .ok ()) {before : List Move} {issue : Move}
    {handle : Handle} (answers : ((initial config).run before).Answers handle issue) :
    ∃ channel, ((initial config).run (before ++ [issue])).exchange.channel? handle = .ok channel ∧
      ∀ between close later,
        (((initial config).run (before ++ [issue] ++ between)).exchange.withdraw close).1 =
          .ok (some channel) →
        ((initial config).run (before ++ [issue] ++ between ++ [.close close])).Spares handle.slot
          later →
        let last := (initial config).run (before ++ [issue] ++ between ++ [.close close] ++ later)
        last.Silent handle ∧
          ∀ key, (last.exchange.create key).1 =
              some (.ok { slot := handle.slot, side := .master }) →
            ∃ new, channel < new ∧ ∀ side,
              (last.step (.create key)).exchange.channel? { handle with side } = .ok new := by
  have listed := listed_run valid (before ++ [issue])
  obtain ⟨channel, leads⟩ := (listed_run valid before).answers answers
  have leads' : ((initial config).run (before ++ [issue])).exchange.channel? handle =
      .ok channel := by
    rw [run_append]
    exact leads
  refine ⟨channel, leads', ?_⟩
  intro between close later closes spared last
  have used := listed_run valid (before ++ [issue] ++ between)
  obtain ⟨key, known⟩ := (used.closes close channel).mp closes
  have found := used.leads known close.side
  -- The channel that was closed was never in another slot than that of the handle.
  have here : close.slot = handle.slot := by
    rw [run_append] at found
    exact listed.stays leads' between found
  have closed := closed_closing found
  have final : last.exchange.registry.table.slot? handle.slot = some .closed := by
    have start : ((initial config).run (before ++ [issue] ++ between ++ [.close close])
        ).exchange.registry.table.slot? handle.slot = some .closed := by
      rw [run_append _ [_], ← here]
      exact closed
    have kept := closed_run later start spared
    rw [← run_append] at kept
    exact kept
  refine ⟨silent_of_closed final, ?_⟩
  intro key created
  have opens := (listed_run valid _).sound.opens created
  refine ⟨last.exchange.channels.size, ?_, ?_⟩
  · have inside := used.sound.bounded _ _ ((Exchange.channel?_eq_ok _).mp found)
    have later' := later_run ((initial config).run (before ++ [issue] ++ between))
      (.close close :: later)
    rw [← run_append, List.append_cons (before ++ [issue] ++ between)] at later'
    exact Nat.lt_of_lt_of_le inside later'.size
  · intro side
    have leads := opens.leads
    rw [Exchange.channel?_eq_ok] at leads ⊢
    exact leads

/-- The handles of two channels; the first is closed, then the second from its other side, and a third
channel gets the slot of the first. -/
theorem silent_afterClose :
    RegistryConfig.standard.validate = .ok () ∧
      ((initial .standard).run [.create 1]).Answers { slot := 2, side := .master } (.create 2) ∧
      ((initial .standard).run ([.create 1] ++ [.create 2] ++ [.close { slot := 1, side := .master }] ++
        [.close { slot := 2, side := .worker }] ++ [.create 3])).Silent
          { slot := 2, side := .master } := by
  have valid : RegistryConfig.standard.validate = .ok () := rfl
  have answers : ((initial .standard).run [.create 1]).Answers { slot := 2, side := .master }
      (.create 2) := rfl
  obtain ⟨channel, leads, silent⟩ := silent_until_reuse valid answers
  cases leads
  refine ⟨valid, answers, (silent [.close { slot := 1, side := .master }]
    { slot := 2, side := .worker } [.create 3] rfl ?_).1⟩
  intro sooner key rest whole
  cases sooner with
  | nil =>
      cases whole
      intro answered
      cases answered
  | cons move sooner =>
      have short := congrArg List.length whole
      simp at short

/-- A handle does not stay silent for good: the slot of a closed channel is used again. -/
theorem not_silent_forever :
    ¬∀ (config : RegistryConfig), config.validate = .ok () → ∀ before issue handle,
      ((initial config).run before).Answers handle issue → ∀ channel,
        ((initial config).run (before ++ [issue])).exchange.channel? handle = .ok channel →
          ∀ between close later,
            (((initial config).run (before ++ [issue] ++ between)).exchange.withdraw close).1 =
                .ok (some channel) →
              ((initial config).run
                (before ++ [issue] ++ between ++ [.close close] ++ later)).Silent handle := by
  intro forever
  have silent := forever .standard rfl [] (.create 1) { slot := 1, side := .master } rfl 0 rfl []
    { slot := 1, side := .master } [.create 2] rfl
  cases silent.polls 0 .master

end Traffic

end ValueChannels
