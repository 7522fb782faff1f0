import ValueChannels.Proofs.Queue.Tending

/-!
No wakeup is lost. Whoever raises a flag wakes every queue that a thread of the context is registered
for, and a thread is registered before it looks at the flag. Main statement: in every hall that can be
reached, nobody sleeps through what it waits for.
-/

set_option linter.unusedSectionVars false

namespace ValueChannels

namespace Alarm

variable {Context Place α : Type}

/-- Someone who raised the flag of an operation's context has yet to wake its queue, or to look up
whom to wake. -/
def Reaches (alarm : Alarm Context Place) (wait : Wait Context Place α) :
    Prop :=
  alarm.context = wait.context ∧ ∀ targets, alarm.targets = some targets → wait.place ∈ targets

end Alarm

namespace Hall

variable {Thread Context Place α : Type}
variable [DecidableEq Thread] [DecidableEq Context] [DecidableEq Place]
variable {hall after : Hall Thread Context Place α}

/-- For everyone who sleeps although the flag of its context is up, somebody who raised it is still
under way. -/
def Alarmed (hall : Hall Thread Context Place α) : Prop :=
  ∀ thread wait, hall.threads thread = .asleep wait →
    (hall.interrupts wait.context).raised = true → ∃ alarm ∈ hall.alarms, alarm.Reaches wait

theorem Alarmed.later (alarmed : hall.Alarmed) (none : hall.NobodyFellAsleep after)
    (raised : ∀ context, (after.interrupts context).raised = true →
      (hall.interrupts context).raised = true)
    (alarms : after.alarms = hall.alarms) : after.Alarmed := by
  intro thread wait asleep flag
  rw [alarms]
  exact alarmed thread wait (none thread wait asleep) (raised wait.context flag)

theorem raised_of_setInterrupt {context other : Context} {interrupt : Interrupt Place}
    (raised : ((hall.setInterrupt context interrupt).interrupts other).raised = true)
    (lowered : interrupt.raised = true → (hall.interrupts context).raised = true) :
    (hall.interrupts other).raised = true := by
  rw [setInterrupt_interrupts] at raised
  split at raised
  · rename_i same
    subst same
    exact lowered raised
  · exact raised

theorem raised_of_attempted {thread : Thread} {wait : Wait Context Place α}
    {phase : Phase Context Place α} {context : Context}
    (raised : ((hall.attempted thread wait phase).interrupts context).raised = true) :
    (hall.interrupts context).raised = true := by
  rw [← hall.setSlot_interrupts wait.place (hall.attempt wait).slot]
  exact raised_of_setInterrupt raised Slot.raised_of_attempt

/-- The registrations are in order: everyone at work is registered for its queue, under a token of
its own that was drawn before. -/
structure Booked (hall : Hall Thread Context Place α) : Prop where
  registered : ∀ thread wait, (hall.threads thread).wait? = some wait →
    (wait.token, wait.place) ∈ (hall.interrupts wait.context).registrations
  drawn : ∀ thread wait, (hall.threads thread).wait? = some wait →
    wait.token < (hall.interrupts wait.context).nextToken
  own : ∀ thread other wait otherWait, (hall.threads thread).wait? = some wait →
    (hall.threads other).wait? = some otherWait → wait.context = otherWait.context →
    wait.token = otherWait.token → thread = other

theorem Booked.later (booked : hall.Booked)
    (waits : ∀ thread, (after.threads thread).wait? = (hall.threads thread).wait?)
    (registrations : ∀ context,
      (after.interrupts context).registrations = (hall.interrupts context).registrations)
    (tokens : ∀ context,
      (after.interrupts context).nextToken = (hall.interrupts context).nextToken) :
    after.Booked := by
  refine ⟨fun thread wait has => ?_, fun thread wait has => ?_,
    fun thread other wait otherWait has otherHas => ?_⟩
  · rw [registrations]
    exact booked.registered thread wait (by rwa [← waits])
  · rw [tokens]
    exact booked.drawn thread wait (by rwa [← waits])
  · rw [waits] at has otherHas
    exact booked.own thread other wait otherWait has otherHas

theorem Booked.enter (booked : hall.Booked) {thread : Thread} (context : Context) (place : Place)
    (job : Job α) :
    ((hall.setInterrupt context ((hall.interrupts context).register place).2).setPhase thread
      (.entering
        { context, place, token := ((hall.interrupts context).register place).1, job })).Booked := by
  have kept (other : Context) (entry : Nat × Place)
      (member : entry ∈ (hall.interrupts other).registrations) :
      entry ∈ ((hall.setInterrupt context
        ((hall.interrupts context).register place).2).interrupts other).registrations := by
    rw [setInterrupt_interrupts]
    split
    · rename_i same
      subst same
      exact List.mem_append_left _ member
    · exact member
  have grown (other : Context) : (hall.interrupts other).nextToken ≤
      ((hall.setInterrupt context
        ((hall.interrupts context).register place).2).interrupts other).nextToken := by
    rw [setInterrupt_interrupts]
    split
    · rename_i same
      subst same
      exact Nat.le_succ _
    · exact Nat.le_refl _
  refine ⟨fun other wait has => ?_, fun other wait has => ?_,
    fun other third wait otherWait has otherHas same token => ?_⟩
  · rw [setPhase_threads] at has
    split at has
    · cases has
      rw [setPhase_interrupts, setInterrupt_interrupts, if_pos rfl]
      exact List.mem_append_right _ (List.mem_singleton.mpr rfl)
    · exact kept wait.context _ (booked.registered other wait has)
  · rw [setPhase_threads] at has
    split at has
    · cases has
      rw [setPhase_interrupts, setInterrupt_interrupts, if_pos rfl]
      exact Nat.lt_succ_self _
    · exact Nat.lt_of_lt_of_le (booked.drawn other wait has) (grown wait.context)
  · rw [setPhase_threads] at has otherHas
    -- The token just drawn is above all drawn before, so no other waiting thread holds it.
    split at has <;> split at otherHas
    · rename_i first second
      exact first.trans second.symm
    · cases has
      have earlier := booked.drawn third otherWait otherHas
      rw [← same, ← token] at earlier
      exact absurd earlier (Nat.lt_irrefl _)
    · cases otherHas
      have earlier := booked.drawn other wait has
      rw [same, token] at earlier
      exact absurd earlier (Nat.lt_irrefl _)
    · exact booked.own other third wait otherWait has otherHas same token

theorem Booked.leave (booked : hall.Booked) {thread : Thread} {wait : Wait Context Place α}
    (working : (hall.threads thread).wait? = some wait) :
    ((hall.setInterrupt wait.context
      ((hall.interrupts wait.context).release wait.token)).setPhase thread .idle).Booked := by
  have others (other : Thread) (otherWait : Wait Context Place α)
      (has : (((hall.setInterrupt wait.context ((hall.interrupts wait.context).release
        wait.token)).setPhase thread .idle).threads other).wait? = some otherWait) :
      other ≠ thread ∧ (hall.threads other).wait? = some otherWait := by
    rw [setPhase_threads] at has
    split at has
    · cases has
    · rename_i different
      exact ⟨different, has⟩
  refine ⟨fun other otherWait has => ?_, fun other otherWait has => ?_,
    fun other third otherWait thirdWait has thirdHas => ?_⟩
  · obtain ⟨different, has⟩ := others other otherWait has
    have member := booked.registered other otherWait has
    rw [setPhase_interrupts, setInterrupt_interrupts]
    split
    · rename_i same
      rw [same] at member
      refine List.mem_filter.mpr ⟨member, bne_iff_ne.mpr fun token => different ?_⟩
      exact booked.own other thread otherWait wait has working same token
    · exact member
  · obtain ⟨_, has⟩ := others other otherWait has
    have drawn := booked.drawn other otherWait has
    rw [setPhase_interrupts, setInterrupt_interrupts]
    split
    · rename_i same
      rw [same] at drawn
      exact drawn
    · exact drawn
  · exact booked.own other third otherWait thirdWait (others other otherWait has).2
      (others third thirdWait thirdHas).2

theorem wait?_setPhase {thread : Thread} {phase : Phase Context Place α}
    (same : phase.wait? = (hall.threads thread).wait?) (other : Thread) :
    ((hall.setPhase thread phase).threads other).wait? = (hall.threads other).wait? := by
  rw [setPhase_threads]
  split
  · rename_i self
    rw [self, same]
  · rfl

theorem wait?_wokenAt (place : Place) (phase : Phase Context Place α) :
    (phase.wokenAt place).wait? = phase.wait? := by
  cases phase with
  | asleep wait =>
      rw [Phase.wokenAt]
      split <;> rfl
  | idle => rfl
  | entering wait => rfl
  | woken wait => rfl
  | leaving wait outcome => rfl

theorem Notified.wait? {place : Place} {deposits : Bool}
    (notified : Notified place deposits hall after) (thread : Thread) :
    (after.threads thread).wait? = (hall.threads thread).wait? := by
  cases notified with
  | one woken wait asleep there wants =>
      have same : (Phase.woken wait).wait? = (hall.threads woken).wait? := by
        rw [asleep]
        rfl
      exact wait?_setPhase same thread
  | nobody _ => rfl

theorem Booked.setInterrupt (booked : hall.Booked) (context : Context)
    (interrupt : Interrupt Place)
    (registrations : interrupt.registrations = (hall.interrupts context).registrations)
    (tokens : interrupt.nextToken = (hall.interrupts context).nextToken) :
    (hall.setInterrupt context interrupt).Booked := by
  refine booked.later (fun _ => rfl) (fun other => ?_) (fun other => ?_) <;>
    rw [setInterrupt_interrupts] <;> split
  · rename_i same
    rw [same, registrations]
  · rfl
  · rename_i same
    rw [same, tokens]
  · rfl

theorem Ready.wait? {thread : Thread} {wait : Wait Context Place α}
    (ready : hall.Ready thread wait) : (hall.threads thread).wait? = some wait := by
  rcases ready with entering | woken
  · rw [entering, Phase.wait?]
  · rw [woken, Phase.wait?]

theorem Booked.attempted (booked : hall.Booked) {thread : Thread} {wait : Wait Context Place α}
    (ready : hall.Ready thread wait) {phase : Phase Context Place α}
    (same : phase.wait? = some wait) : (hall.attempted thread wait phase).Booked := by
  have filled : (hall.setSlot wait.place (hall.attempt wait).slot).Booked :=
    ⟨booked.registered, booked.drawn, booked.own⟩
  have seen := filled.setInterrupt wait.context
    { hall.interrupts wait.context with raised := (hall.attempt wait).raised } rfl rfl
  exact seen.later (wait?_setPhase (same.trans ready.wait?.symm)) (fun _ => rfl) (fun _ => rfl)

/-- Every step keeps the registrations in order. -/
theorem Booked.step (booked : hall.Booked) (step : Step hall after) : after.Booked := by
  cases step with
  | enter thread context place job idle => exact booked.enter context place job
  | sleep thread wait ready ended => exact booked.attempted ready rfl
  | fail thread wait err ready ended => exact booked.attempted ready rfl
  | succeed thread wait item ready ended notified =>
      have attempted : (hall.attempted thread wait (.leaving wait (.ok item))).Booked :=
        booked.attempted ready rfl
      refine attempted.later notified.wait? (fun _ => ?_) (fun _ => ?_) <;>
        rw [notified.interrupts]
  | leave thread wait outcome leaving => exact booked.leave (congrArg Phase.wait? leaving)
  | poll place item emptied polled notified =>
      refine booked.later notified.wait? (fun _ => ?_) (fun _ => ?_) <;>
        rw [notified.interrupts, setSlot_interrupts]
  | close place =>
      exact booked.later (fun _ => wait?_wokenAt place _) (fun _ => rfl) (fun _ => rfl)
  | wake context place rest front behind under =>
      exact booked.later (fun _ => wait?_wokenAt place _) (fun _ => rfl) (fun _ => rfl)
  | raise context =>
      have raised := booked.setInterrupt context (hall.interrupts context).raise.2 rfl rfl
      exact ⟨raised.registered, raised.drawn, raised.own⟩
  | lookUp context front behind under => exact ⟨booked.registered, booked.drawn, booked.own⟩
  | finish context front behind under => exact ⟨booked.registered, booked.drawn, booked.own⟩
  | clear context => exact booked.setInterrupt context (hall.interrupts context).clear.2 rfl rfl

theorem Alarmed.others (alarmed : hall.Alarmed) {front behind : List (Alarm Context Place)}
    {middle : Alarm Context Place} (under : hall.alarms = front ++ middle :: behind)
    {thread : Thread} {wait : Wait Context Place α} (asleep : hall.threads thread = .asleep wait)
    (raised : (hall.interrupts wait.context).raised = true) :
    middle.Reaches wait ∨ ∃ alarm ∈ front ++ behind, alarm.Reaches wait := by
  obtain ⟨alarm, member, reaches⟩ := alarmed thread wait asleep raised
  rw [under] at member
  rcases List.mem_append.mp member with before | later
  · exact Or.inr ⟨alarm, List.mem_append_left behind before, reaches⟩
  · rcases List.mem_cons.mp later with self | after
    · exact Or.inl (self ▸ reaches)
    · exact Or.inr ⟨alarm, List.mem_append_right front after, reaches⟩

theorem Alarmed.replaced (alarmed : hall.Alarmed) {front behind : List (Alarm Context Place)}
    {middle next : Alarm Context Place} (under : hall.alarms = front ++ middle :: behind)
    {thread : Thread} {wait : Wait Context Place α} (asleep : hall.threads thread = .asleep wait)
    (raised : (hall.interrupts wait.context).raised = true)
    (still : middle.Reaches wait → next.Reaches wait) :
    ∃ alarm ∈ front ++ next :: behind, alarm.Reaches wait := by
  obtain reaches | ⟨alarm, member, reaches⟩ := alarmed.others under asleep raised
  · exact ⟨next, List.mem_append_right front List.mem_cons_self, still reaches⟩
  · rcases List.mem_append.mp member with before | after
    · exact ⟨alarm, List.mem_append_left _ before, reaches⟩
    · exact ⟨alarm, List.mem_append_right front (List.mem_cons_of_mem next after), reaches⟩

/-- Every step keeps the flags alarmed. -/
theorem Alarmed.step (alarmed : hall.Alarmed) (booked : hall.Booked) (step : Step hall after) :
    after.Alarmed := by
  cases step with
  | enter thread context place job idle =>
      refine alarmed.later (nobodyFellAsleep_setPhase fun _ => nofun) (fun other raised => ?_) rfl
      rw [setPhase_interrupts] at raised
      exact raised_of_setInterrupt raised fun flag => flag
  | sleep thread wait ready ended =>
      intro other sleeping asleep raised
      have flag := raised_of_attempted raised
      rw [attempted, setPhase_threads] at asleep
      split at asleep
      · -- Whoever falls asleep has seen that the flag of its context is down.
        cases asleep
        exact absurd ((Slot.opened_of_asleep ended).2.symm.trans flag) nofun
      · exact alarmed other sleeping asleep flag
  | fail thread wait err ready ended =>
      exact alarmed.later (nobodyFellAsleep_setPhase fun _ => nofun)
        (fun _ raised => raised_of_attempted raised) rfl
  | succeed thread wait item ready ended notified =>
      have attempted : (hall.attempted thread wait (.leaving wait (.ok item))).Alarmed :=
        alarmed.later (nobodyFellAsleep_setPhase fun _ => nofun)
          (fun _ raised => raised_of_attempted raised) rfl
      refine attempted.later notified.nobodyFellAsleep (fun _ raised => ?_) notified.alarms
      rwa [notified.interrupts] at raised
  | leave thread wait outcome leaving =>
      refine alarmed.later (nobodyFellAsleep_setPhase fun _ => nofun) (fun other raised => ?_) rfl
      rw [setPhase_interrupts] at raised
      exact raised_of_setInterrupt raised fun flag => flag
  | poll place item emptied polled notified =>
      refine alarmed.later notified.nobodyFellAsleep (fun _ raised => ?_) notified.alarms
      rwa [notified.interrupts] at raised
  | close place =>
      exact alarmed.later (fun _ _ asleep => (asleep_of_wakeAll asleep).1) (fun _ raised => raised)
        rfl
  | raise context =>
      intro thread wait asleep raised
      by_cases same : wait.context = context
      · exact ⟨{ context, targets := none }, List.mem_append_right _ (List.mem_singleton.mpr rfl),
          same.symm, fun _ found => nomatch found⟩
      · rw [setInterrupt_interrupts, if_neg same] at raised
        obtain ⟨alarm, member, reaches⟩ := alarmed thread wait asleep raised
        exact ⟨alarm, List.mem_append_left _ member, reaches⟩
  -- A thread registers before it looks at the flag, so its queue is among those that are found.
  | lookUp context front behind under =>
      intro thread wait asleep raised
      refine alarmed.replaced under asleep raised fun reaches => ⟨reaches.1, fun targets found => ?_⟩
      cases found
      have registered := booked.registered thread wait (congrArg Phase.wait? asleep)
      rw [← reaches.1] at registered
      exact List.mem_map_of_mem registered
  | wake context place rest front behind under =>
      intro thread wait asleep raised
      obtain ⟨asleep, elsewhere⟩ := asleep_of_wakeAll asleep
      refine alarmed.replaced under asleep raised fun reaches => ⟨reaches.1, fun targets found => ?_⟩
      cases found
      exact List.mem_of_ne_of_mem elsewhere (reaches.2 _ rfl)
  | finish context front behind under =>
      intro thread wait asleep raised
      obtain reaches | found := alarmed.others under asleep raised
      · exact absurd (reaches.2 [] rfl) List.not_mem_nil
      · exact found
  | clear context =>
      refine alarmed.later (fun _ _ asleep => asleep) (fun other raised => ?_) rfl
      exact raised_of_setInterrupt raised fun flag => nomatch flag

/-- Nobody sleeps through what it waits for. -/
structure Wakeful (hall : Hall Thread Context Place α) : Prop where
  depositor_woken : ∀ thread wait, hall.threads thread = .asleep wait →
    wait.job.deposits = true → (hall.slots wait.place).closed = false →
    (hall.slots wait.place).item = none →
    ∃ other wokenWait, other ≠ thread ∧ hall.threads other = .woken wokenWait ∧
      wokenWait.place = wait.place ∧ wokenWait.job.deposits = true
  taker_woken : ∀ thread wait, hall.threads thread = .asleep wait →
    wait.job.deposits = false → (hall.slots wait.place).closed = false →
    (hall.slots wait.place).item ≠ none →
    ∃ other wokenWait, other ≠ thread ∧ hall.threads other = .woken wokenWait ∧
      wokenWait.place = wait.place ∧ wokenWait.job.deposits = false
  queue_open : ∀ thread wait, hall.threads thread = .asleep wait →
    (hall.slots wait.place).closed = false
  alarm_under_way : ∀ thread wait, hall.threads thread = .asleep wait →
    (hall.interrupts wait.context).raised = true →
    ∃ alarm ∈ hall.alarms, alarm.context = wait.context ∧ wait.place ∈ hall.pending alarm

/-- What every step keeps. -/
structure Orderly (hall : Hall Thread Context Place α) : Prop where
  tended : ∀ place, hall.Tended place
  alarmed : hall.Alarmed
  booked : hall.Booked

theorem orderly_initial : (initial : Hall Thread Context Place α).Orderly where
  tended := fun _ _ _ asleep => nomatch asleep
  alarmed := fun _ _ asleep => nomatch asleep
  booked :=
    { registered := fun _ _ has => nomatch has
      drawn := fun _ _ has => nomatch has
      own := fun _ _ _ _ has => nomatch has }

theorem Orderly.step (orderly : hall.Orderly) (step : Step hall after) : after.Orderly where
  tended := Tended.step orderly.tended step
  alarmed := orderly.alarmed.step orderly.booked step
  booked := orderly.booked.step step

theorem Reachable.orderly (reachable : hall.Reachable) : hall.Orderly := by
  induction reachable with
  | refl => exact orderly_initial
  | tail _ step orderly => exact orderly.step step

theorem Tended.other_woken {thread : Thread} {wait : Wait Context Place α}
    (tended : hall.Tended wait.place) (asleep : hall.threads thread = .asleep wait)
    (suited : (hall.slots wait.place).isEmpty = wait.job.deposits) :
    ∃ other wokenWait, other ≠ thread ∧ hall.threads other = .woken wokenWait ∧
      wokenWait.place = wait.place ∧ wokenWait.job.deposits = wait.job.deposits := by
  obtain ⟨other, woken, awake, there, wants⟩ := (tended thread wait asleep rfl).2 suited
  refine ⟨other, woken, fun same => ?_, awake, there, wants⟩
  rw [same, asleep] at awake
  cases awake

/-- No wakeup is lost. In every hall that can be reached: if somebody sleeps to deposit into an open
queue that is empty, or to take from one that is full, then somebody else who wants the same of that
queue has been woken and has not looked yet; nobody sleeps on a closed queue; and if the flag of a
sleeper's context is up, someone who raised it is under way and has yet to wake its queue. -/
theorem wakeful_of_reachable (reachable : hall.Reachable) : hall.Wakeful := by
  have orderly := reachable.orderly
  refine
    { depositor_woken := fun thread wait asleep wants _ empty => ?_
      taker_woken := fun thread wait asleep wants _ full => ?_
      queue_open := fun thread wait asleep => (orderly.tended wait.place thread wait asleep rfl).1
      alarm_under_way := fun thread wait asleep raised => ?_ }
  · have suited : (hall.slots wait.place).isEmpty = wait.job.deposits := by
      rw [wants, Slot.isEmpty, empty, Option.isNone_none]
    rw [← wants]
    exact (orderly.tended wait.place).other_woken asleep suited
  · have suited : (hall.slots wait.place).isEmpty = wait.job.deposits := by
      rw [wants, Slot.isEmpty, Option.isNone_eq_false_iff, Option.isSome_iff_ne_none]
      exact full
    rw [← wants]
    exact (orderly.tended wait.place).other_woken asleep suited
  · obtain ⟨alarm, member, same, pending⟩ := orderly.alarmed thread wait asleep raised
    refine ⟨alarm, member, same, ?_⟩
    rw [Hall.pending]
    cases targets : alarm.targets with
    | some places => exact pending places targets
    | none =>
        have registered := orderly.booked.registered thread wait (congrArg Phase.wait? asleep)
        rw [same]
        exact List.mem_map_of_mem registered

/-- Of two who wait to deposit, one sleeps on after the queue was emptied by a poll, since the other
was woken; and after the flag was raised, the one who raised it has still to wake the queue. -/
theorem wakeful_emptied : ∃ hall : Hall (Fin 3) Unit Unit Nat,
    hall.Reachable ∧ (hall.slots ()).item = none ∧ (hall.interrupts ()).raised = true ∧
      hall.threads 2 = .asleep { context := (), place := (), token := 2, job := .deposit 9 } ∧
      hall.Wakeful := by
  have start : Relation.ReflTransGen Step initial (initial : Hall (Fin 3) Unit Unit Nat) := .refl
  have entered := start.tail (Step.enter 0 () () (.deposit 7) rfl)
  have filled := entered.tail (Step.succeed 0 _ none (Or.inl rfl) rfl (Notified.nobody (by
    intro thread wait asleep
    match thread with
    | 0 => cases asleep
    | 1 => cases asleep
    | 2 => cases asleep)))
  have left := filled.tail (Step.leave 0 _ _ rfl)
  have second := (left.tail (Step.enter 1 () () (.deposit 8) rfl)).tail
    (Step.sleep 1 _ (Or.inl rfl) rfl)
  have third := (second.tail (Step.enter 2 () () (.deposit 9) rfl)).tail
    (Step.sleep 2 _ (Or.inl rfl) rfl)
  have polled := third.tail (Step.poll () 7 _ rfl (Notified.one 1 _ rfl rfl rfl))
  have raised := polled.tail (Step.raise ())
  exact ⟨_, raised, rfl, rfl, rfl, wakeful_of_reachable raised⟩

end Hall

end ValueChannels
