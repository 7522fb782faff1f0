import Mathlib.Data.Set.Card
import ValueChannels.Proofs.Queue.Wakeups

/-!
What becomes of interrupts. Everything that happens in a hall is written down, so that what was
raised can be counted against what was taken down; and everyone at work is registered exactly once.
Main statement: `accounted_of_played`.
-/

set_option linter.unusedSectionVars false

namespace ValueChannels

namespace Slot

variable {α : Type} {slot : Slot α} {job : Job α} {raised : Bool}

theorem attempt_interrupted
    (interrupted : (slot.attempt job raised).outcome = some (.error .interrupted)) :
    slot.closed = false ∧ slot.isEmpty ≠ job.deposits ∧ raised = true ∧
      (slot.attempt job raised).slot = slot ∧ (slot.attempt job raised).raised = false := by
  obtain ⟨item, closed⟩ := slot
  cases closed with
  | true =>
      rw [attempt_closed rfl] at interrupted
      cases interrupted
  | false =>
      cases job <;> cases item <;> cases raised <;> cases interrupted <;>
        exact ⟨rfl, nofun, rfl, rfl, rfl⟩

theorem raised_of_not_interrupted
    (other : (slot.attempt job raised).outcome ≠ some (.error .interrupted)) :
    (slot.attempt job raised).raised = raised := by
  have course := course_attempt slot job raised
  generalize slot.attempt job raised = attempt at other course
  cases course with
  | closed shut => rfl
  | success item next suited flipped opened => rfl
  | interrupted unsuited => exact absurd rfl other
  | sleep opened unsuited lowered => rfl

theorem poll_nothing (nothing : ∀ item, slot.poll.1 ≠ .ok (some item)) : slot.poll.2 = slot := by
  obtain ⟨item, closed⟩ := slot
  cases closed with
  | true => rfl
  | false =>
      cases item with
      | none => rfl
      | some item => exact absurd rfl (nothing item)

end Slot

namespace Interrupt

variable {Target : Type} {interrupt : Interrupt Target}

/-- Every registration has a token of its own, which was drawn before. -/
structure Ordered (interrupt : Interrupt Target) : Prop where
  distinct : (interrupt.registrations.map Prod.fst).Nodup
  drawn : ∀ entry ∈ interrupt.registrations, entry.1 < interrupt.nextToken

namespace Ordered

theorem register (ordered : interrupt.Ordered) (target : Target) :
    (interrupt.register target).2.Ordered := by
  constructor
  · rw [Interrupt.register, List.map_append]
    refine List.nodup_append.mpr ⟨ordered.distinct, List.nodup_singleton _, ?_⟩
    intro token old other new same
    obtain ⟨entry, member, rfl⟩ := List.mem_map.mp old
    have drawn := ordered.drawn entry member
    rw [same, List.mem_singleton.mp new] at drawn
    exact absurd drawn (Nat.lt_irrefl _)
  · intro entry member
    rcases List.mem_append.mp member with old | new
    · exact Nat.lt_succ_of_lt (ordered.drawn entry old)
    · rw [List.mem_singleton.mp new]
      exact Nat.lt_succ_self _

theorem release (ordered : interrupt.Ordered) (token : Nat) :
    (interrupt.release token).Ordered where
  distinct := ordered.distinct.sublist (List.filter_sublist.map Prod.fst)
  drawn entry member := ordered.drawn entry (List.mem_filter.mp member).1

theorem flag (ordered : interrupt.Ordered) (raised : Bool) :
    { interrupt with raised }.Ordered :=
  ⟨ordered.distinct, ordered.drawn⟩

theorem release_eq (ordered : interrupt.Ordered) {token : Nat} {target : Target}
    (registered : (token, target) ∈ interrupt.registrations) :
    ∃ front behind, interrupt.registrations = front ++ (token, target) :: behind ∧
      (interrupt.release token).registrations = front ++ behind := by
  obtain ⟨front, behind, whole⟩ := List.append_of_mem registered
  refine ⟨front, behind, whole, ?_⟩
  have distinct := ordered.distinct
  rw [whole, List.map_append, List.map_cons] at distinct
  obtain ⟨_, last, apart⟩ := List.nodup_append.mp distinct
  have before : ∀ entry ∈ front, (entry.1 != token) = true := by
    intro entry member
    exact bne_iff_ne.mpr (apart entry.1 (List.mem_map_of_mem member) token List.mem_cons_self)
  have after : ∀ entry ∈ behind, (entry.1 != token) = true := by
    intro entry member
    refine bne_iff_ne.mpr fun same => (List.nodup_cons.mp last).1 ?_
    exact List.mem_map.mpr ⟨entry, member, same⟩
  rw [Interrupt.release, whole, List.filter_append, List.filter_cons_of_neg (by simp),
    List.filter_eq_self.mpr before, List.filter_eq_self.mpr after]

theorem waiters_release (ordered : interrupt.Ordered) {token : Nat} {target : Target}
    (registered : (token, target) ∈ interrupt.registrations) :
    (interrupt.release token).waiters + 1 = interrupt.waiters := by
  obtain ⟨front, behind, whole, rest⟩ := ordered.release_eq registered
  rw [waiters, waiters, whole, rest, List.length_append, List.length_append, List.length_cons]
  omega

end Ordered

theorem waiters_register (target : Target) :
    (interrupt.register target).2.waiters = interrupt.waiters + 1 := by
  rw [waiters, register, List.length_append]
  rfl

end Interrupt

/-- Something that happens: an operation is begun, looks at its queue and comes to an outcome or
falls asleep, or returns; a queue is polled or closed; a flag is raised, whoever raised it goes on,
or it is taken down and was up or not. -/
inductive Act (Thread Context Place α : Type) where
  | enter (thread : Thread) (wait : Wait Context Place α)
  | look (thread : Thread) (wait : Wait Context Place α)
      (outcome : Option (Except WaitError (Option α)))
  | leave (thread : Thread) (wait : Wait Context Place α) (outcome : Except WaitError (Option α))
  | poll (place : Place) (outcome : Except WaitError (Option α))
  | close (place : Place)
  | raise (context : Context)
  | alarm (context : Context)
  | clear (context : Context) (was : Bool)

namespace Act

variable {Thread Context Place α : Type} [DecidableEq Thread] [DecidableEq Context]

/-- An operation of the context is interrupted. -/
def interrupted (context : Context) : Act Thread Context Place α → Bool
  | .look _ wait (some (.error .interrupted)) => wait.context = context
  | _ => false

/-- An operation of the context returns that it was interrupted. -/
def returned (context : Context) : Act Thread Context Place α → Bool
  | .leave _ wait (.error .interrupted) => wait.context = context
  | _ => false

def raised (context : Context) : Act Thread Context Place α → Bool
  | .raise other => other = context
  | _ => false

/-- The flag of the context is taken down by someone who finds it up. -/
def cleared (context : Context) : Act Thread Context Place α → Bool
  | .clear other was => was && other = context
  | _ => false

/-- The interrupt of a context after this. -/
def interrupt (context : Context) (before : Interrupt Place) :
    Act Thread Context Place α → Interrupt Place
  | .enter _ wait => if context = wait.context then (before.register wait.place).2 else before
  | .look _ wait (some (.error .interrupted)) =>
      if context = wait.context then { before with raised := false } else before
  | .leave _ wait _ => if context = wait.context then before.release wait.token else before
  | .raise other => if context = other then before.raise.2 else before
  | .clear other _ => if context = other then before.clear.2 else before
  | _ => before

/-- The operations of the threads after this. -/
def waits (before : Thread → Option (Wait Context Place α)) :
    Act Thread Context Place α → Thread → Option (Wait Context Place α)
  | .enter thread wait => Function.update before thread (some wait)
  | .leave thread _ _ => Function.update before thread none
  | _ => before

/-- The operations that were interrupted and have not returned, after this. -/
def dues (before : Thread → Option (Wait Context Place α)) :
    Act Thread Context Place α → Thread → Option (Wait Context Place α)
  | .look thread wait (some (.error .interrupted)) => Function.update before thread (some wait)
  | .leave thread _ _ => Function.update before thread none
  | _ => before

end Act

namespace Phase

variable {Context Place α : Type}

/-- The operation of a thread that was interrupted and has not returned. -/
def due? : Phase Context Place α → Option (Wait Context Place α)
  | .leaving wait (.error .interrupted) => some wait
  | _ => none

end Phase

namespace Hall

variable {Thread Context Place α : Type}
variable [DecidableEq Thread] [DecidableEq Context] [DecidableEq Place]
variable {hall after : Hall Thread Context Place α} {act : Act Thread Context Place α}

/-- What may happen next, and what the hall is like after it. -/
inductive Does : Hall Thread Context Place α → Act Thread Context Place α →
    Hall Thread Context Place α → Prop
  | enter {hall : Hall Thread Context Place α} (thread : Thread) (context : Context)
      (place : Place) (job : Job α) (idle : hall.threads thread = .idle) :
      Does hall
        (.enter thread
          { context, place, token := ((hall.interrupts context).register place).1, job })
        ((hall.setInterrupt context ((hall.interrupts context).register place).2).setPhase thread
          (.entering
            { context, place, token := ((hall.interrupts context).register place).1, job }))
  | sleep {hall : Hall Thread Context Place α} (thread : Thread) (wait : Wait Context Place α)
      (ready : hall.Ready thread wait) (ended : (hall.attempt wait).outcome = none) :
      Does hall (.look thread wait none) (hall.attempted thread wait (.asleep wait))
  | fail {hall : Hall Thread Context Place α} (thread : Thread) (wait : Wait Context Place α)
      (err : WaitError) (ready : hall.Ready thread wait)
      (ended : (hall.attempt wait).outcome = some (.error err)) :
      Does hall (.look thread wait (some (.error err)))
        (hall.attempted thread wait (.leaving wait (.error err)))
  | succeed {hall after : Hall Thread Context Place α} (thread : Thread)
      (wait : Wait Context Place α) (item : Option α) (ready : hall.Ready thread wait)
      (ended : (hall.attempt wait).outcome = some (.ok item))
      (notified : Notified wait.place (!wait.job.deposits)
        (hall.attempted thread wait (.leaving wait (.ok item))) after) :
      Does hall (.look thread wait (some (.ok item))) after
  | leave {hall : Hall Thread Context Place α} (thread : Thread) (wait : Wait Context Place α)
      (outcome : Except WaitError (Option α))
      (leaving : hall.threads thread = .leaving wait outcome) :
      Does hall (.leave thread wait outcome)
        ((hall.setInterrupt wait.context
          ((hall.interrupts wait.context).release wait.token)).setPhase thread .idle)
  | poll {hall after : Hall Thread Context Place α} (place : Place) (item : α) (emptied : Slot α)
      (polled : (hall.slots place).poll = (.ok (some item), emptied))
      (notified : Notified place true (hall.setSlot place emptied) after) :
      Does hall (.poll place (.ok (some item))) after
  | pollNothing {hall : Hall Thread Context Place α} (place : Place)
      (nothing : ∀ item, (hall.slots place).poll.1 ≠ .ok (some item)) :
      Does hall (.poll place (hall.slots place).poll.1)
        (hall.setSlot place (hall.slots place).poll.2)
  | close {hall : Hall Thread Context Place α} (place : Place) :
      Does hall (.close place) ((hall.setSlot place (hall.slots place).close).wakeAll place)
  | raise {hall : Hall Thread Context Place α} (context : Context) :
      Does hall (.raise context)
        { hall.setInterrupt context (hall.interrupts context).raise.2 with
          alarms := hall.alarms ++ [{ context, targets := none }] }
  | lookUp {hall : Hall Thread Context Place α} (context : Context)
      (front behind : List (Alarm Context Place))
      (under : hall.alarms = front ++ { context, targets := none } :: behind) :
      Does hall (.alarm context)
        { hall with
          alarms := front ++
            { context, targets := some (hall.interrupts context).raise.1 } :: behind }
  | wake {hall : Hall Thread Context Place α} (context : Context) (place : Place)
      (rest : List Place) (front behind : List (Alarm Context Place))
      (under : hall.alarms = front ++ { context, targets := some (place :: rest) } :: behind) :
      Does hall (.alarm context)
        { hall.wakeAll place with
          alarms := front ++ { context, targets := some rest } :: behind }
  | finish {hall : Hall Thread Context Place α} (context : Context)
      (front behind : List (Alarm Context Place))
      (under : hall.alarms = front ++ { context, targets := some [] } :: behind) :
      Does hall (.alarm context) { hall with alarms := front ++ behind }
  | clear {hall : Hall Thread Context Place α} (context : Context) :
      Does hall (.clear context (hall.interrupts context).clear.1)
        (hall.setInterrupt context (hall.interrupts context).clear.2)

theorem Does.step (does : Does hall act after) : Step hall after ∨ after = hall := by
  cases does with
  | enter thread context place job idle => exact .inl (.enter thread context place job idle)
  | sleep thread wait ready ended => exact .inl (.sleep thread wait ready ended)
  | fail thread wait err ready ended => exact .inl (.fail thread wait err ready ended)
  | succeed thread wait item ready ended notified =>
      exact .inl (.succeed thread wait item ready ended notified)
  | leave thread wait outcome leaving => exact .inl (.leave thread wait outcome leaving)
  | poll place item emptied polled notified => exact .inl (.poll place item emptied polled notified)
  | pollNothing place nothing =>
      refine .inr ?_
      rw [Slot.poll_nothing nothing, setSlot, Function.update_eq_self]
  | close place => exact .inl (.close place)
  | raise context => exact .inl (.raise context)
  | lookUp context front behind under => exact .inl (.lookUp context front behind under)
  | wake context place rest front behind under =>
      exact .inl (.wake context place rest front behind under)
  | finish context front behind under => exact .inl (.finish context front behind under)
  | clear context => exact .inl (.clear context)

theorem Step.does (step : Step hall after) : ∃ act, Does hall act after := by
  cases step with
  | enter thread context place job idle => exact ⟨_, .enter thread context place job idle⟩
  | sleep thread wait ready ended => exact ⟨_, .sleep thread wait ready ended⟩
  | fail thread wait err ready ended => exact ⟨_, .fail thread wait err ready ended⟩
  | succeed thread wait item ready ended notified =>
      exact ⟨_, .succeed thread wait item ready ended notified⟩
  | leave thread wait outcome leaving => exact ⟨_, .leave thread wait outcome leaving⟩
  | poll place item emptied polled notified =>
      exact ⟨_, .poll place item emptied polled notified⟩
  | close place => exact ⟨_, .close place⟩
  | raise context => exact ⟨_, .raise context⟩
  | lookUp context front behind under => exact ⟨_, .lookUp context front behind under⟩
  | wake context place rest front behind under =>
      exact ⟨_, .wake context place rest front behind under⟩
  | finish context front behind under => exact ⟨_, .finish context front behind under⟩
  | clear context => exact ⟨_, .clear context⟩

/-- What has happened since the queues were empty and nobody was there. -/
inductive Played : List (Act Thread Context Place α) → Hall Thread Context Place α → Prop
  | start : Played [] initial
  | next {acts : List (Act Thread Context Place α)} {hall after : Hall Thread Context Place α}
      {act : Act Thread Context Place α} (played : Played acts hall) (does : Does hall act after) :
      Played (acts ++ [act]) after

/-- The halls in which something may have happened are the ones that can be reached. -/
theorem reachable_iff_played : hall.Reachable ↔ ∃ acts, Played acts hall := by
  constructor
  · intro reachable
    induction reachable with
    | refl => exact ⟨[], .start⟩
    | tail _ step before =>
        obtain ⟨acts, played⟩ := before
        obtain ⟨act, does⟩ := step.does
        exact ⟨acts ++ [act], played.next does⟩
  · rintro ⟨acts, played⟩
    induction played with
    | start => exact .refl
    | next _ does before =>
        rcases does.step with step | same
        · exact before.tail step
        · exact same ▸ before

/-! ### What an act does -/

theorem interrupts_setInterrupt (context other : Context)
    (change : Interrupt Place → Interrupt Place) :
    (hall.setInterrupt context (change (hall.interrupts context))).interrupts other =
      if other = context then change (hall.interrupts other) else hall.interrupts other := by
  rw [setInterrupt_interrupts]
  split
  · rename_i same
    rw [same]
  · rfl

theorem interrupts_attempted (thread : Thread) {wait : Wait Context Place α}
    (phase : Phase Context Place α) (context : Context)
    (other : (hall.attempt wait).outcome ≠ some (.error .interrupted)) :
    (hall.attempted thread wait phase).interrupts context = hall.interrupts context := by
  rw [attempted, setPhase_interrupts, setInterrupt_interrupts, setSlot_interrupts]
  split
  · rename_i same
    rw [attempt, Slot.raised_of_not_interrupted other, same]
  · rfl

theorem Does.interrupt (does : Does hall act after) (context : Context) :
    after.interrupts context = act.interrupt context (hall.interrupts context) := by
  cases does with
  | enter thread target place job idle =>
      exact interrupts_setInterrupt target context fun before => (before.register place).2
  | sleep thread wait ready ended =>
      exact interrupts_attempted thread _ context fun same => by cases ended.symm.trans same
  | fail thread wait err ready ended =>
      cases err with
      | closed =>
          exact interrupts_attempted thread _ context fun same => by cases ended.symm.trans same
      | interrupted =>
          obtain ⟨_, _, _, _, lowered⟩ := Slot.attempt_interrupted ended
          rw [attempted, setPhase_interrupts, attempt, lowered]
          exact interrupts_setInterrupt wait.context context fun before =>
            { before with raised := false }
  | succeed thread wait item ready ended notified =>
      rw [notified.interrupts]
      exact interrupts_attempted thread _ context fun same => by cases ended.symm.trans same
  | leave thread wait outcome leaving =>
      exact interrupts_setInterrupt wait.context context fun before => before.release wait.token
  | poll place item emptied polled notified =>
      rw [notified.interrupts, setSlot_interrupts]
      rfl
  | pollNothing place nothing => rfl
  | close place => rfl
  | raise target =>
      exact interrupts_setInterrupt target context fun before => before.raise.2
  | lookUp target front behind under => rfl
  | wake target place rest front behind under => rfl
  | finish target front behind under => rfl
  | clear target => exact interrupts_setInterrupt target context fun before => before.clear.2

theorem Does.interrupted {thread : Thread} {wait : Wait Context Place α}
    (does : Does hall (.look thread wait (some (.error .interrupted))) after) :
    (hall.slots wait.place).closed = false ∧
      (hall.slots wait.place).isEmpty ≠ wait.job.deposits ∧
      (hall.interrupts wait.context).raised = true ∧ after.slots = hall.slots := by
  cases does with
  | fail _ _ _ ready ended =>
      obtain ⟨opened, unsuited, raised, slot, _⟩ := Slot.attempt_interrupted ended
      refine ⟨opened, unsuited, raised, ?_⟩
      change Function.update hall.slots wait.place (hall.attempt wait).slot = hall.slots
      rw [attempt, slot, Function.update_eq_self]

section Readings

variable {reading : Phase Context Place α → Option (Wait Context Place α)}

theorem reading_setPhase (thread : Thread) (phase : Phase Context Place α) :
    reading ∘ (hall.setPhase thread phase).threads =
      Function.update (reading ∘ hall.threads) thread (reading phase) :=
  Function.comp_update reading hall.threads thread phase

theorem reading_attempted {thread : Thread} {wait : Wait Context Place α}
    {phase : Phase Context Place α} (same : reading phase = reading (hall.threads thread)) :
    reading ∘ (hall.attempted thread wait phase).threads = reading ∘ hall.threads := by
  refine (reading_setPhase thread phase).trans ?_
  rw [same]
  exact Function.update_eq_self thread (reading ∘ hall.threads)

/-- A reading of phases that waking does not change. -/
def Steady (reading : Phase Context Place α → Option (Wait Context Place α)) : Prop :=
  ∀ wait, reading (.asleep wait) = reading (.woken wait)

theorem Steady.wakeAll (steady : Steady reading) (place : Place) :
    reading ∘ (hall.wakeAll place).threads = reading ∘ hall.threads := by
  funext thread
  change reading ((hall.threads thread).wokenAt place) = reading (hall.threads thread)
  cases hall.threads thread with
  | asleep wait =>
      rw [Phase.wokenAt]
      split
      · exact (steady wait).symm
      · rfl
  | _ => rfl

theorem Steady.notified (steady : Steady reading) {place : Place} {deposits : Bool}
    (notified : Notified place deposits hall after) :
    reading ∘ after.threads = reading ∘ hall.threads := by
  cases notified with
  | one thread wait asleep there wants =>
      rw [reading_setPhase, ← steady wait, ← asleep]
      exact Function.update_eq_self thread (reading ∘ hall.threads)
  | nobody _ => rfl

end Readings

theorem steady_wait? : Steady (Phase.wait? : Phase Context Place α → _) := fun _ => rfl

theorem steady_due? : Steady (Phase.due? : Phase Context Place α → _) := fun _ => rfl

theorem Does.waits (does : Does hall act after) :
    Phase.wait? ∘ after.threads = act.waits (Phase.wait? ∘ hall.threads) := by
  cases does with
  | enter thread target place job idle => exact reading_setPhase thread _
  | sleep thread wait ready ended => exact reading_attempted ready.wait?.symm
  | fail thread wait err ready ended => exact reading_attempted ready.wait?.symm
  | succeed thread wait item ready ended notified =>
      exact (steady_wait?.notified notified).trans (reading_attempted ready.wait?.symm)
  | leave thread wait outcome leaving => exact reading_setPhase thread _
  | poll place item emptied polled notified =>
      exact (steady_wait?.notified notified).trans rfl
  | pollNothing place nothing => rfl
  | close place => exact steady_wait?.wakeAll place
  | raise target => rfl
  | lookUp target front behind under => rfl
  | wake target place rest front behind under => exact steady_wait?.wakeAll place
  | finish target front behind under => rfl
  | clear target => rfl

theorem Ready.due? {thread : Thread} {wait : Wait Context Place α}
    (ready : hall.Ready thread wait) : (hall.threads thread).due? = none := by
  rcases ready with entering | woken
  · rw [entering]
    rfl
  · rw [woken]
    rfl

theorem Does.dues (does : Does hall act after) :
    Phase.due? ∘ after.threads = act.dues (Phase.due? ∘ hall.threads) := by
  cases does with
  | enter thread target place job idle =>
      have free : (Phase.due? ∘ hall.threads) thread = none := congrArg Phase.due? idle
      have kept : Function.update (Phase.due? ∘ hall.threads) thread none =
          Phase.due? ∘ hall.threads := by
        rw [← free, Function.update_eq_self]
      exact (reading_setPhase thread _).trans kept
  | sleep thread wait ready ended => exact reading_attempted ready.due?.symm
  | fail thread wait err ready ended =>
      cases err with
      | closed => exact reading_attempted ready.due?.symm
      | interrupted => exact reading_setPhase thread _
  | succeed thread wait item ready ended notified =>
      exact (steady_due?.notified notified).trans (reading_attempted ready.due?.symm)
  | leave thread wait outcome leaving => exact reading_setPhase thread _
  | poll place item emptied polled notified =>
      exact (steady_due?.notified notified).trans rfl
  | pollNothing place nothing => rfl
  | close place => exact steady_due?.wakeAll place
  | raise target => rfl
  | lookUp target front behind under => rfl
  | wake target place rest front behind under => exact steady_due?.wakeAll place
  | finish target front behind under => rfl
  | clear target => rfl

/-! ### Counting -/

/-- The threads that have an operation of the context. -/
def ofContext (context : Context) (waits : Thread → Option (Wait Context Place α)) : Set Thread :=
  {thread | ∃ wait, waits thread = some wait ∧ wait.context = context}

section OfContext

variable {waits : Thread → Option (Wait Context Place α)} {thread : Thread}
variable {wait : Wait Context Place α} {context : Context}

theorem encard_ofContext_some (free : waits thread = none) :
    (ofContext context (Function.update waits thread (some wait))).encard =
      (ofContext context waits).encard + if wait.context = context then 1 else 0 := by
  have absent : thread ∉ ofContext context waits := by
    rintro ⟨other, has, _⟩
    cases free.symm.trans has
  by_cases here : wait.context = context
  · have whole : ofContext context (Function.update waits thread (some wait)) =
        insert thread (ofContext context waits) := by
      ext other
      by_cases same : other = thread
      · subst same
        simp [ofContext, here]
      · simp [ofContext, same]
    rw [if_pos here, whole, Set.encard_insert_of_notMem absent]
  · have whole : ofContext context (Function.update waits thread (some wait)) =
        ofContext context waits := by
      ext other
      by_cases same : other = thread
      · subst same
        simp [ofContext, here, free]
      · simp [ofContext, Function.update_of_ne same]
    rw [if_neg here, whole, add_zero]

theorem encard_ofContext_none (has : waits thread = some wait) :
    (ofContext context (Function.update waits thread none)).encard +
        (if wait.context = context then 1 else 0) = (ofContext context waits).encard := by
  have free : Function.update waits thread none thread = none := Function.update_self _ _ _
  rw [← encard_ofContext_some free, Function.update_idem, ← has, Function.update_eq_self]

end OfContext

theorem Does.ordered (does : Does hall act after) {context : Context}
    (ordered : (hall.interrupts context).Ordered) : (after.interrupts context).Ordered := by
  rw [does.interrupt]
  unfold Act.interrupt
  split
  · split
    · exact ordered.register _
    · exact ordered
  · split
    · exact ordered.flag false
    · exact ordered
  · split
    · exact ordered.release _
    · exact ordered
  · split
    · exact ordered.flag true
    · exact ordered
  · split
    · exact ordered.flag false
    · exact ordered
  · exact ordered

/-- Whatever takes a flag down finds it up, and only raising it puts it up. -/
theorem Does.spends (does : Does hall act after) (context : Context) :
    (act.interrupted context).toNat + (act.cleared context).toNat +
        (after.interrupts context).raised.toNat ≤
      (act.raised context).toNat + (hall.interrupts context).raised.toNat := by
  rw [does.interrupt]
  cases act with
  | enter thread wait =>
      rw [Act.interrupt]
      split <;> exact Nat.le_refl _
  | look thread wait outcome =>
      match outcome with
      | none | some (.ok _) | some (.error .closed) => exact Nat.le_refl _
      | some (.error .interrupted) =>
          by_cases here : context = wait.context
          · obtain ⟨_, _, raised, _⟩ := does.interrupted
            simp [Act.interrupt, Act.interrupted, Act.cleared, Act.raised, here, raised]
          · simp [Act.interrupt, Act.interrupted, Act.cleared, Act.raised, here, Ne.symm here]
  | leave thread wait outcome =>
      rw [Act.interrupt]
      split <;> exact Nat.le_refl _
  | raise other =>
      by_cases here : context = other
      · simp [Act.interrupt, Act.interrupted, Act.cleared, Act.raised, Interrupt.raise, here]
      · simp [Act.interrupt, Act.interrupted, Act.cleared, Act.raised, here]
  | clear other was =>
      cases does with
      | clear _ =>
          by_cases here : context = other
          · simp [Act.interrupt, Act.interrupted, Act.cleared, Act.raised, Interrupt.clear, here]
          · simp [Act.interrupt, Act.interrupted, Act.cleared, Act.raised, here, Ne.symm here]
  | _ => exact Nat.le_refl _

theorem Does.ready {thread : Thread} {wait : Wait Context Place α}
    {outcome : Option (Except WaitError (Option α))}
    (does : Does hall (.look thread wait outcome) after) : hall.Ready thread wait := by
  cases does with
  | sleep _ _ ready ended => exact ready
  | fail _ _ _ ready ended => exact ready
  | succeed _ _ _ ready ended notified => exact ready

theorem Does.idle {thread : Thread} {wait : Wait Context Place α}
    (does : Does hall (.enter thread wait) after) : hall.threads thread = .idle := by
  cases does with
  | enter _ _ _ _ idle => exact idle

theorem Does.leaving {thread : Thread} {wait : Wait Context Place α}
    {outcome : Except WaitError (Option α)} (does : Does hall (.leave thread wait outcome) after) :
    hall.threads thread = .leaving wait outcome := by
  cases does with
  | leave _ _ _ leaving => exact leaving

/-! ### What a run keeps -/

variable {acts : List (Act Thread Context Place α)}

theorem Played.booked (played : Played acts hall) : hall.Booked :=
  (reachable_iff_played.mpr ⟨acts, played⟩).orderly.booked

theorem Played.ordered (played : Played acts hall) (context : Context) :
    (hall.interrupts context).Ordered := by
  induction played with
  | start => exact ⟨List.nodup_nil, fun _ member => absurd member List.not_mem_nil⟩
  | next _ does before => exact does.ordered before

theorem countP_snoc (counts : Act Thread Context Place α → Bool)
    (acts : List (Act Thread Context Place α)) (act : Act Thread Context Place α) :
    (acts ++ [act]).countP counts = acts.countP counts + (counts act).toNat := by
  rw [List.countP_append, List.countP_singleton, Bool.toNat, Bool.cond_eq_ite]

theorem Played.spent (played : Played acts hall) (context : Context) :
    acts.countP (Act.interrupted context) + acts.countP (Act.cleared context) +
        (hall.interrupts context).raised.toNat ≤ acts.countP (Act.raised context) := by
  induction played with
  | start => exact Nat.le_refl _
  | next _ does before =>
      have spends := does.spends context
      simp only [countP_snoc]
      omega

theorem Does.owes (does : Does hall act after) (context : Context) :
    ((act.returned context).toNat : ℕ∞) +
        (ofContext context (Phase.due? ∘ after.threads)).encard =
      (act.interrupted context).toNat + (ofContext context (Phase.due? ∘ hall.threads)).encard := by
  rw [does.dues]
  cases act with
  | look thread wait outcome =>
      match outcome with
      | none | some (.ok _) | some (.error .closed) => rfl
      | some (.error .interrupted) =>
          have free : (Phase.due? ∘ hall.threads) thread = none := does.ready.due?
          rw [Act.dues, encard_ofContext_some free]
          by_cases here : wait.context = context <;>
            simp [Act.returned, Act.interrupted, here, add_comm]
  | leave thread wait outcome =>
      match outcome with
      | .error .interrupted =>
          have has : (Phase.due? ∘ hall.threads) thread = some wait :=
            congrArg Phase.due? does.leaving
          rw [Act.dues, ← encard_ofContext_none has]
          by_cases here : wait.context = context <;>
            simp [Act.returned, Act.interrupted, here, add_comm]
      | .ok _ | .error .closed =>
          have free : (Phase.due? ∘ hall.threads) thread = none :=
            congrArg Phase.due? does.leaving
          rw [Act.dues, ← free, Function.update_eq_self]
          rfl
  | _ => rfl

theorem ofContext_none (context : Context) :
    (ofContext context fun _ : Thread => (none : Option (Wait Context Place α))).encard = 0 := by
  refine Set.encard_eq_zero.mpr (Set.eq_empty_of_forall_notMem ?_)
  rintro thread ⟨_, has, _⟩
  cases has

/-- An operation that was interrupted returns that, and no other does. -/
theorem Played.owed (played : Played acts hall) (context : Context) :
    (acts.countP (Act.returned context) : ℕ∞) +
        (ofContext context (Phase.due? ∘ hall.threads)).encard =
      acts.countP (Act.interrupted context) := by
  induction played with
  | start => exact (zero_add _).trans (ofContext_none context)
  | next _ does before =>
      rw [countP_snoc, countP_snoc, Nat.cast_add, Nat.cast_add, ← before, add_assoc,
        does.owes context, add_assoc, add_comm (Nat.cast _) (Set.encard _)]

theorem Played.working (played : Played acts hall) (context : Context) :
    (ofContext context (Phase.wait? ∘ hall.threads)).encard =
      (hall.interrupts context).waiters := by
  -- On the run. A thread is counted by the interrupt of its context from the act that enters it to
  -- the one that lets it go.
  induction played with
  | start => exact ofContext_none context
  | @next acts hall after act played does before =>
      rw [does.waits, does.interrupt]
      cases act with
      | enter thread wait =>
          have free : (Phase.wait? ∘ hall.threads) thread = none := congrArg Phase.wait? does.idle
          rw [Act.waits, encard_ofContext_some free, before, Act.interrupt]
          by_cases here : context = wait.context
          · rw [if_pos here, if_pos here.symm, Interrupt.waiters_register]
            rfl
          · rw [if_neg here, if_neg (Ne.symm here), add_zero]
      | leave thread wait outcome =>
          have has : (Phase.wait? ∘ hall.threads) thread = some wait :=
            congrArg Phase.wait? does.leaving
          have registered := played.booked.registered thread wait has
          rw [← encard_ofContext_none has] at before
          rw [Act.waits, Act.interrupt]
          by_cases here : context = wait.context
          · subst here
            rw [if_pos rfl] at before ⊢
            rw [← (played.ordered wait.context).waiters_release registered, Nat.cast_add] at before
            exact (ENat.add_left_injective_of_ne_top (by decide)) before
          · rw [if_neg here]
            rw [if_neg (Ne.symm here), add_zero] at before
            exact before
      | look thread wait outcome =>
          match outcome with
          | none | some (.ok _) | some (.error .closed) => exact before
          | some (.error .interrupted) =>
              refine before.trans ?_
              rw [Act.interrupt]
              split <;> rfl
      | raise other =>
          refine before.trans ?_
          rw [Act.interrupt]
          split <;> rfl
      | clear other was =>
          refine before.trans ?_
          rw [Act.interrupt]
          split <;> rfl
      | _ => exact before

/-- A flag changes only when an operation of its context is interrupted, or when it is raised or
taken down. -/
theorem Does.moves (does : Does hall act after) {context : Context}
    (moved : (after.interrupts context).raised ≠ (hall.interrupts context).raised) :
    act.interrupted context = true ∨ act = .raise context ∨
      ∃ was, act = .clear context was := by
  rw [does.interrupt] at moved
  cases act with
  | look thread wait outcome =>
      match outcome with
      | none | some (.ok _) | some (.error .closed) => exact absurd rfl moved
      | some (.error .interrupted) =>
          rw [Act.interrupt] at moved
          split at moved
          · rename_i here
            exact .inl (decide_eq_true here.symm)
          · exact absurd rfl moved
  | raise other =>
      rw [Act.interrupt] at moved
      split at moved
      · rename_i here
        exact .inr (.inl (congrArg Act.raise here.symm))
      · exact absurd rfl moved
  | clear other was =>
      rw [Act.interrupt] at moved
      split at moved
      · rename_i here
        exact .inr (.inr ⟨was, here ▸ rfl⟩)
      · exact absurd rfl moved
  | enter thread wait =>
      rw [Act.interrupt] at moved
      split at moved <;> exact absurd rfl moved
  | leave thread wait outcome =>
      rw [Act.interrupt] at moved
      split at moved <;> exact absurd rfl moved
  | _ => exact absurd rfl moved

/-- The interrupts after a run, and what may happen to them next. An operation is interrupted only on
an open queue that does not have what it wants and while the flag of its context is up; that takes
the flag down and leaves every queue alone. Else a flag changes only by being raised or taken down.
So no more operations were interrupted, and flags found up by those who took them down, than flags
were raised; and no more operations returned that. Who returns takes its own registration back and
no other, so every context has as many registrations as threads at work for it. -/
structure Accounted (acts : List (Act Thread Context Place α))
    (hall : Hall Thread Context Place α) : Prop where
  interrupted : ∀ thread wait after,
    Does hall (.look thread wait (some (.error .interrupted))) after →
      (hall.slots wait.place).closed = false ∧
        (hall.slots wait.place).isEmpty ≠ wait.job.deposits ∧
        (hall.interrupts wait.context).raised = true ∧
        (after.interrupts wait.context).raised = false ∧ after.slots = hall.slots
  moved : ∀ act after context, Does hall act after →
    (after.interrupts context).raised ≠ (hall.interrupts context).raised →
      act.interrupted context = true ∨ act = .raise context ∨ ∃ was, act = .clear context was
  spent : ∀ context, acts.countP (Act.interrupted context) + acts.countP (Act.cleared context) ≤
    acts.countP (Act.raised context)
  returned : ∀ context,
    acts.countP (Act.returned context) ≤ acts.countP (Act.interrupted context)
  left : ∀ thread wait outcome after, Does hall (.leave thread wait outcome) after →
    (∃ front behind, (hall.interrupts wait.context).registrations =
        front ++ (wait.token, wait.place) :: behind ∧
      (after.interrupts wait.context).registrations = front ++ behind) ∧
      ∀ other ≠ wait.context, after.interrupts other = hall.interrupts other
  working : ∀ context,
    {thread | ∃ wait, (hall.threads thread).wait? = some wait ∧ wait.context = context}.encard =
      (hall.interrupts context).waiters

/-- Whatever any number of threads do on any number of queues, interrupts are used up once each,
cost no message, and leave no registration behind. -/
theorem accounted_of_played (played : Played acts hall) : Accounted acts hall := by
  refine
    { interrupted := fun thread wait after does => ?_
      moved := fun act after context does => does.moves
      spent := fun context => ?_
      returned := fun context => ?_
      left := fun thread wait outcome after does => ?_
      working := played.working }
  · obtain ⟨opened, unsuited, raised, slots⟩ := does.interrupted
    refine ⟨opened, unsuited, raised, ?_, slots⟩
    rw [does.interrupt, Act.interrupt, if_pos rfl]
  · exact Nat.le_trans (Nat.le_add_right _ _) (played.spent context)
  · have owed := played.owed context
    exact Nat.cast_le.mp (le_self_add.trans owed.le)
  · have registered := played.booked.registered thread wait (congrArg Phase.wait? does.leaving)
    constructor
    · rw [does.interrupt, Act.interrupt, if_pos rfl]
      exact (played.ordered wait.context).release_eq registered
    · intro other different
      rw [does.interrupt, Act.interrupt, if_neg different]

/-- Two threads wait for messages of one context when its flag is raised; one of them is
interrupted, and the flag is down again when it is taken down. -/
theorem accounted_oneOfTwo : ∃ acts, ∃ hall : Hall (Fin 2) Unit Bool Nat,
    Played acts hall ∧ acts.countP (Act.raised ()) = 1 ∧ acts.countP (Act.returned ()) = 1 ∧
      acts.countP (Act.cleared ()) = 0 ∧ (hall.interrupts ()).waiters = 1 ∧
      Accounted acts hall := by
  have nobody : Played [] (initial : Hall (Fin 2) Unit Bool Nat) := .start
  have first := (nobody.next (Does.enter 0 () false .take rfl)).next
    (Does.sleep 0 _ (Or.inl rfl) rfl)
  have second := (first.next (Does.enter 1 () true .take rfl)).next
    (Does.sleep 1 _ (Or.inl rfl) rfl)
  have raised := (second.next (Does.raise ())).next (Does.lookUp () [] [] rfl)
  have woken := raised.next (Does.wake () false [true] [] [] rfl)
  have interrupted := woken.next (Does.fail 0 _ .interrupted (Or.inr rfl) rfl)
  have returned := (interrupted.next (Does.leave 0 _ _ rfl)).next (Does.clear ())
  exact ⟨_, _, returned, rfl, rfl, rfl, rfl, accounted_of_played returned⟩

end Hall

end ValueChannels
