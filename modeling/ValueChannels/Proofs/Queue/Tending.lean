import ValueChannels.Proofs.Queue.Hall

/-!
What queues do for those who wait on them. Whoever changes what a queue has to offer wakes one of
those who wait for that, if there is any. Main statement: if somebody sleeps on a queue that has what
it waits for, then somebody else who waits for the same was woken and has not looked yet; and nobody
sleeps on a closed queue.
-/

set_option linter.unusedSectionVars false

namespace ValueChannels

namespace Slot

variable {α : Type}

/-- How looking at a queue can go, and when. -/
inductive Course (slot : Slot α) (job : Job α) (raised : Bool) : Attempt α → Prop
  | closed (shut : slot.closed = true) :
      Course slot job raised { outcome := some (.error .closed), slot, raised }
  | success (item : Option α) (next : Slot α) (suited : slot.isEmpty = job.deposits)
      (flipped : next.isEmpty = !job.deposits) (opened : next.closed = false) :
      Course slot job raised { outcome := some (.ok item), slot := next, raised }
  | interrupted (unsuited : slot.isEmpty ≠ job.deposits) :
      Course slot job raised { outcome := some (.error .interrupted), slot, raised := false }
  | sleep (opened : slot.closed = false) (unsuited : slot.isEmpty ≠ job.deposits)
      (lowered : raised = false) : Course slot job raised { outcome := none, slot, raised }

theorem course_attempt (slot : Slot α) (job : Job α) (raised : Bool) :
    Course slot job raised (slot.attempt job raised) := by
  obtain ⟨item, closed⟩ := slot
  cases closed with
  | true =>
      rw [attempt_closed rfl]
      exact Course.closed rfl
  | false =>
      cases job with
      | deposit entry =>
          cases item with
          | none => exact Course.success none ⟨some entry, false⟩ rfl rfl rfl
          | some held =>
              cases raised with
              | true => exact Course.interrupted (by simp [isEmpty, Job.deposits])
              | false => exact Course.sleep rfl (by simp [isEmpty, Job.deposits]) rfl
      | take =>
          cases item with
          | some held => exact Course.success (some held) ⟨none, false⟩ rfl rfl rfl
          | none =>
              cases raised with
              | true => exact Course.interrupted (by simp [isEmpty, Job.deposits])
              | false => exact Course.sleep rfl (by simp [isEmpty, Job.deposits]) rfl

theorem unsuited_of_attempt {slot : Slot α} {job : Job α} {raised : Bool}
    (unsuccessful : ∀ item, (slot.attempt job raised).outcome ≠ some (.ok item)) :
    (slot.attempt job raised).slot = slot ∧
      (slot.closed = false → slot.isEmpty ≠ job.deposits) := by
  have course := course_attempt slot job raised
  generalize slot.attempt job raised = attempt at unsuccessful course
  cases course with
  | closed shut => exact ⟨rfl, fun opened => absurd (shut.symm.trans opened) nofun⟩
  | success item next suited flipped opened => exact absurd rfl (unsuccessful item)
  | interrupted unsuited => exact ⟨rfl, fun _ => unsuited⟩
  | sleep opened unsuited lowered => exact ⟨rfl, fun _ => unsuited⟩

theorem opened_of_asleep {slot : Slot α} {job : Job α} {raised : Bool}
    (asleep : (slot.attempt job raised).outcome = none) :
    slot.closed = false ∧ raised = false := by
  have course := course_attempt slot job raised
  generalize slot.attempt job raised = attempt at asleep course
  cases course with
  | sleep opened unsuited lowered => exact ⟨opened, lowered⟩
  | closed shut => cases asleep
  | success item next suited flipped opened => cases asleep
  | interrupted unsuited => cases asleep

theorem flipped_of_success {slot : Slot α} {job : Job α} {raised : Bool} {item : Option α}
    (success : (slot.attempt job raised).outcome = some (.ok item)) :
    (slot.attempt job raised).slot.closed = false ∧
      (slot.attempt job raised).slot.isEmpty = !job.deposits := by
  have course := course_attempt slot job raised
  generalize slot.attempt job raised = attempt at success course
  cases course with
  | success item next suited flipped opened => exact ⟨opened, flipped⟩
  | closed shut => cases success
  | interrupted unsuited => cases success
  | sleep opened unsuited lowered => cases success

theorem raised_of_attempt {slot : Slot α} {job : Job α} {raised : Bool}
    (still : (slot.attempt job raised).raised = true) : raised = true := by
  have course := course_attempt slot job raised
  generalize slot.attempt job raised = attempt at still course
  cases course with
  | closed shut => exact still
  | success item next suited flipped opened => exact still
  | interrupted unsuited => cases still
  | sleep opened unsuited lowered => exact still

theorem emptied_of_poll {slot emptied : Slot α} {item : α}
    (polled : slot.poll = (.ok (some item), emptied)) :
    emptied.closed = false ∧ emptied.isEmpty = true := by
  unfold poll at polled
  split at polled
  · cases polled
  · rename_i opened
    obtain ⟨_, rfl⟩ := Prod.mk.inj polled
    exact ⟨Bool.eq_false_iff.mpr opened, rfl⟩

end Slot

namespace Hall

variable {Thread Context Place α : Type}
variable [DecidableEq Thread] [DecidableEq Context] [DecidableEq Place]
variable {hall after : Hall Thread Context Place α}

/-- Nobody has fallen asleep. -/
def NobodyFellAsleep (hall after : Hall Thread Context Place α) : Prop :=
  ∀ thread wait, after.threads thread = .asleep wait → hall.threads thread = .asleep wait

/-- Whoever was woken on a queue has not looked at it since. -/
def NobodyLooked (place : Place) (hall after : Hall Thread Context Place α) : Prop :=
  ∀ thread wait, wait.place = place → hall.threads thread = .woken wait →
    after.threads thread = .woken wait

theorem nobodyFellAsleep_setPhase {thread : Thread} {phase : Phase Context Place α}
    (awake : ∀ wait, phase ≠ .asleep wait) : hall.NobodyFellAsleep (hall.setPhase thread phase) := by
  intro other wait asleep
  rw [setPhase_threads] at asleep
  by_cases same : other = thread
  · rw [if_pos same] at asleep
    exact absurd asleep (awake wait)
  · rwa [if_neg same] at asleep

theorem nobodyLooked_setPhase {thread : Thread} {phase : Phase Context Place α} {place : Place}
    (elsewhere : ∀ wait, hall.threads thread = .woken wait → wait.place ≠ place) :
    hall.NobodyLooked place (hall.setPhase thread phase) := by
  intro other wait there woken
  have different : other ≠ thread := by
    intro same
    subst same
    exact elsewhere wait woken there
  rw [setPhase_threads, if_neg different]
  exact woken

theorem asleep_of_wakeAll {place : Place} {thread : Thread} {wait : Wait Context Place α}
    (asleep : (hall.wakeAll place).threads thread = .asleep wait) :
    hall.threads thread = .asleep wait ∧ wait.place ≠ place := by
  change (hall.threads thread).wokenAt place = .asleep wait at asleep
  cases was : hall.threads thread with
  | asleep sleeping =>
      rw [was] at asleep
      simp only [Phase.wokenAt] at asleep
      split at asleep
      · cases asleep
      · rename_i elsewhere
        cases asleep
        exact ⟨rfl, elsewhere⟩
  | idle => simp [was, Phase.wokenAt] at asleep
  | entering sleeping => simp [was, Phase.wokenAt] at asleep
  | woken sleeping => simp [was, Phase.wokenAt] at asleep
  | leaving sleeping outcome => simp [was, Phase.wokenAt] at asleep

theorem nobodyLooked_wakeAll (place other : Place) :
    hall.NobodyLooked other (hall.wakeAll place) := by
  intro thread wait _ woken
  change (hall.threads thread).wokenAt place = .woken wait
  rw [woken]
  rfl

theorem Notified.nobodyFellAsleep {place : Place} {deposits : Bool}
    (notified : Notified place deposits hall after) : hall.NobodyFellAsleep after := by
  cases notified with
  | one thread wait asleep there wants => exact nobodyFellAsleep_setPhase (fun _ => nofun)
  | nobody _ => exact fun _ _ asleep => asleep

theorem Notified.nobodyLooked {place other : Place} {deposits : Bool}
    (notified : Notified place deposits hall after) : hall.NobodyLooked other after := by
  cases notified with
  | one thread wait asleep there wants =>
      exact nobodyLooked_setPhase (fun _ woken => by rw [asleep] at woken; cases woken)
  | nobody _ => exact fun _ _ _ woken => woken

theorem Notified.slots {place : Place} {deposits : Bool}
    (notified : Notified place deposits hall after) : after.slots = hall.slots := by
  cases notified <;> rfl

theorem Notified.interrupts {place : Place} {deposits : Bool}
    (notified : Notified place deposits hall after) : after.interrupts = hall.interrupts := by
  cases notified <;> rfl

theorem Notified.alarms {place : Place} {deposits : Bool}
    (notified : Notified place deposits hall after) : after.alarms = hall.alarms := by
  cases notified <;> rfl

/-- A thread was woken for a queue, to deposit there or else to take, and has not looked yet. -/
def Woken (hall : Hall Thread Context Place α) (place : Place) (deposits : Bool)
    (thread : Thread) : Prop :=
  ∃ wait, hall.threads thread = .woken wait ∧ wait.place = place ∧ wait.job.deposits = deposits

/-- Everyone who sleeps on a queue sleeps on an open one, and if the queue has what the sleeper waits
for, then somebody else who waits for the same was woken. -/
def Tended (hall : Hall Thread Context Place α) (place : Place) : Prop :=
  ∀ thread wait, hall.threads thread = .asleep wait → wait.place = place →
    (hall.slots place).closed = false ∧
      ((hall.slots place).isEmpty = wait.job.deposits →
        ∃ other, hall.Woken place wait.job.deposits other)

theorem Woken.later {place : Place} {deposits : Bool} {thread : Thread}
    (woken : hall.Woken place deposits thread) (kept : hall.NobodyLooked place after) :
    after.Woken place deposits thread := by
  obtain ⟨wait, woken, there, wants⟩ := woken
  exact ⟨wait, kept thread wait there woken, there, wants⟩

theorem Tended.later {place : Place} (tended : hall.Tended place)
    (slot : after.slots place = hall.slots place) (none : hall.NobodyFellAsleep after)
    (kept : hall.NobodyLooked place after) : after.Tended place := by
  intro thread wait asleep there
  obtain ⟨opened, woken⟩ := tended thread wait (none thread wait asleep) there
  rw [slot]
  refine ⟨opened, fun suited => ?_⟩
  obtain ⟨other, woken⟩ := woken suited
  exact ⟨other, woken.later kept⟩

/-- A queue is tended once somebody has been notified that it has something to offer. -/
theorem Notified.tended {place : Place} {deposits : Bool}
    (notified : Notified place deposits hall after) (opened : (hall.slots place).closed = false)
    (offers : (hall.slots place).isEmpty = deposits) : after.Tended place := by
  intro thread wait asleep there
  rw [notified.slots]
  refine ⟨opened, fun suited => ?_⟩
  have wants : wait.job.deposits = deposits := suited.symm.trans offers
  cases notified with
  | one other woken slept elsewhere same =>
      refine ⟨other, woken, ?_, elsewhere, same.trans wants.symm⟩
      rw [setPhase_threads, if_pos rfl]
  | nobody absent => exact absurd wants (absent thread wait asleep there)

theorem Tended.looked {place : Place} {thread : Thread} {wait : Wait Context Place α}
    {phase : Phase Context Place α} (tended : hall.Tended place) (ready : hall.Ready thread wait)
    (unsuited : wait.place = place → (hall.slots place).closed = false →
      (hall.slots place).isEmpty ≠ wait.job.deposits)
    (falls : ∀ sleeping, phase = .asleep sleeping →
      sleeping = wait ∧ (hall.slots wait.place).closed = false) :
    (hall.setPhase thread phase).Tended place := by
  intro other sleeping asleep there
  by_cases same : other = thread
  · rw [setPhase_threads, if_pos same] at asleep
    obtain ⟨self, opened⟩ := falls sleeping asleep
    subst self there
    exact ⟨opened, fun suited => absurd suited (unsuited rfl opened)⟩
  · rw [setPhase_threads, if_neg same] at asleep
    obtain ⟨opened, woken⟩ := tended other sleeping asleep there
    refine ⟨opened, fun suited => ?_⟩
    obtain ⟨helper, helping, awake, here, wants⟩ := woken suited
    have apart : helper ≠ thread := by
      intro same
      subst same
      rcases ready with entering | looking
      · exact absurd (entering.symm.trans awake) nofun
      · cases looking.symm.trans awake
        exact unsuited here opened (suited.trans wants.symm)
    refine ⟨helper, helping, ?_, here, wants⟩
    rw [setPhase_threads, if_neg apart]
    exact awake

theorem attempted_slots (hall : Hall Thread Context Place α) (thread : Thread)
    (wait : Wait Context Place α) (phase : Phase Context Place α) (place : Place) :
    (hall.attempted thread wait phase).slots place =
      if place = wait.place then (hall.attempt wait).slot else hall.slots place :=
  setSlot_slots hall wait.place place (hall.attempt wait).slot

theorem Tended.attempted {place : Place} {thread : Thread} {wait : Wait Context Place α}
    {phase : Phase Context Place α} (tended : hall.Tended place) (ready : hall.Ready thread wait)
    (unsuccessful : wait.place = place → ∀ item, (hall.attempt wait).outcome ≠ some (.ok item))
    (falls : ∀ sleeping, phase = .asleep sleeping →
      sleeping = wait ∧ (hall.attempt wait).outcome = none) :
    (hall.attempted thread wait phase).Tended place := by
  have slot : (hall.attempted thread wait phase).slots place = hall.slots place := by
    rw [attempted_slots]
    split
    · rename_i here
      rw [attempt, (Slot.unsuited_of_attempt (unsuccessful here.symm)).1, here]
    · rfl
  have looked : (hall.setPhase thread phase).Tended place := by
    refine tended.looked ready (fun here => ?_) (fun sleeping phased => ?_)
    · have unsuited := (Slot.unsuited_of_attempt (unsuccessful here)).2
      rwa [here] at unsuited
    · obtain ⟨self, ended⟩ := falls sleeping phased
      exact ⟨self, (Slot.opened_of_asleep ended).1⟩
  exact looked.later slot (fun _ _ asleep => asleep) (fun _ _ _ woken => woken)

/-- Every step keeps every queue tended. -/
theorem Tended.step (tended : ∀ place, hall.Tended place) (step : Step hall after)
    (place : Place) : after.Tended place := by
  have here := tended place
  -- A step is about one place at most; the threads at all the others are as they were.
  cases step with
  | enter thread context target job idle =>
      refine here.later rfl (nobodyFellAsleep_setPhase fun _ => nofun) ?_
      exact nobodyLooked_setPhase fun _ woken => absurd (idle.symm.trans woken) nofun
  | sleep thread wait ready ended =>
      refine here.attempted ready (fun _ item success => ?_) (fun sleeping phased => ?_)
      · exact absurd (ended.symm.trans success) nofun
      · cases phased
        exact ⟨rfl, ended⟩
  | fail thread wait err ready ended =>
      refine here.attempted ready (fun _ item success => ?_) (fun sleeping phased => ?_)
      · exact absurd (ended.symm.trans success) nofun
      · cases phased
  | succeed thread wait item ready ended notified =>
      obtain ⟨opened, flipped⟩ := Slot.flipped_of_success ended
      by_cases own : place = wait.place
      · subst own
        refine notified.tended ?_ ?_ <;> rw [attempted_slots, if_pos rfl]
        · exact opened
        · exact flipped
      · have attempted : (hall.attempted thread wait (.leaving wait (.ok item))).Tended place :=
          here.attempted ready (fun there => absurd there.symm own)
            fun sleeping phased => nomatch phased
        exact attempted.later (congrFun notified.slots place) notified.nobodyFellAsleep
          notified.nobodyLooked
  | leave thread wait outcome leaving =>
      refine here.later rfl (nobodyFellAsleep_setPhase fun _ => nofun) ?_
      exact nobodyLooked_setPhase fun _ woken => absurd (leaving.symm.trans woken) nofun
  | poll target item emptied polled notified =>
      obtain ⟨opened, vacant⟩ := Slot.emptied_of_poll polled
      by_cases own : place = target
      · subst own
        refine notified.tended ?_ ?_ <;> rw [setSlot_slots, if_pos rfl]
        · exact opened
        · exact vacant
      · have slot : after.slots place = hall.slots place := by
          rw [notified.slots, setSlot_slots, if_neg own]
        exact here.later slot notified.nobodyFellAsleep notified.nobodyLooked
  | close target =>
      by_cases own : place = target
      · intro thread wait asleep there
        exact absurd (there.trans own) (asleep_of_wakeAll asleep).2
      · refine here.later ?_ (fun _ _ asleep => (asleep_of_wakeAll asleep).1)
          (nobodyLooked_wakeAll target place)
        rw [wakeAll_slots, setSlot_slots, if_neg own]
  | wake context target rest front behind under =>
      exact here.later rfl (fun _ _ asleep => (asleep_of_wakeAll asleep).1)
        (nobodyLooked_wakeAll target place)
  | raise context => exact here
  | lookUp context front behind under => exact here
  | finish context front behind under => exact here
  | clear context => exact here

end Hall

end ValueChannels
