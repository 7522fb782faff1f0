import ValueChannels.Proofs.Exchange.Origin
import ValueChannels.Proofs.Transfer.Keeping

/-!
What a call that fails leaves behind. A call either ends at once, before it has done anything, or it
works its way through sections; those that come before the last change no table and no queue, and the
last one does so only when it takes a message off its queue that cannot be built. Main statements:
`serves_cases` for one section of a call, `fails_safely_run` for whole calls in any run.
-/

namespace ValueChannels

/-! ### Messages that cannot be built -/

/-- The error of a receive that ended well and has no message to show for it. -/
def ChannelError.missingMessage : ChannelError :=
  .transfer (.described "receive produced no message")

namespace Message

theorem tenable_described (context : Context) : Tenable context (fun _ => True) (fun _ => True)
    fun err => ∀ text, err ≠ .transfer (.described text) where
  alloc := fun _ _ _ => trivial
  made := fun _ _ _ => trivial
  define := fun _ _ _ _ _ _ => trivial
  setParent := fun _ _ _ _ _ => trivial
  setElement := fun _ _ _ _ _ => trivial
  install := fun _ _ _ _ => trivial
  unserialize := fun _ _ _ => Ends.any
  uncaptured := fun _ _ same => nomatch same
  misfit := fun _ _ same => nomatch same
  decoding := by
    intro part reason text same
    cases reason <;> cases same

theorem toValue_ne_missing (context : Context) (heap : Heap) (message : Message) :
    (message.toValue context heap).1 ≠ .error .missingMessage := by
  intro same
  have allowed : ∀ err, (message.toValue context heap).1 = .error err →
      ∀ text, err ≠ .transfer (.described text) :=
    (kept_toValue (tenable_described context) trivial message).2
  exact allowed _ same _ rfl

end Message

namespace Exchange

variable {exchange : Exchange}

/-- The table and the queues are as they were. -/
structure Undisturbed (before after : Exchange) : Prop where
  slots : before.SameSlots after
  queues : ∀ queue, after.queue? queue = before.queue? queue

theorem Undisturbed.of_layout {before after : Exchange} (same : after.layout = before.layout) :
    before.Undisturbed after :=
  ⟨.of_layout same, queue?_congr same⟩

/-! ### Taking a message -/

/-- What is known of a call that took a message, or found none, and ended with an error: the message
could not be built in the context of the call, and the error is not that of a missing message. -/
structure Explains (before : Exchange) (index : Nat) (taken : Option Message) (err : ChannelError)
    (after : Exchange) : Prop where
  unbuildable : ∀ message, taken = some message → ∀ owner, after.contexts[index]? = some owner →
    (message.toValue owner before.heap).1 = .error err
  present : err ≠ .missingMessage

theorem explains_untaken {index : Nat} {err : ChannelError} (after : Exchange)
    (present : err ≠ .missingMessage) : exchange.Explains index none err after := by
  constructor
  · intro message impossible
    cases impossible
  · exact present

theorem explains_finishTake {index : Nat} {handle : Handle} {operation : Operation}
    {message : Message} {err : ChannelError}
    (failed : (exchange.finishTake index handle operation message).1 = .error err) :
    exchange.Explains index (some message) err
      (exchange.finishTake index handle operation message).2 := by
  cases holder : exchange.contexts[index]? with
  | none =>
      simp only [finishTake, holder] at failed ⊢
      cases failed
      constructor
      · intro _ _ owner found
        have nobody := holder.symm.trans found
        cases nobody
      · intro impossible
        cases impossible
  | some owner =>
      have present := Message.toValue_ne_missing owner exchange.heap message
      simp only [finishTake, holder] at failed ⊢
      cases built : message.toValue owner exchange.heap with
      | mk outcome heap =>
          rw [built] at failed present
          cases outcome with
          | ok value => cases failed
          | error reason =>
              cases failed
              constructor
              · intro other same receiver found
                cases same
                cases holder.symm.trans found
                rw [built]
              · intro same
                rw [same] at present
                exact present rfl

theorem explains_attempt {operation : Underway} {err : ChannelError} (job : operation.job = .take)
    (failed : (exchange.attempt operation).1 = some (.error err)) :
    exchange.Explains operation.context (exchange.taken? operation) err
      (exchange.attempt operation).2 := by
  cases present : exchange.queue? operation.queue with
  | none =>
      simp only [attempt, present] at failed
      cases failed
  | some slot =>
      cases holder : exchange.contexts[operation.context]? with
      | none =>
          simp only [attempt, present, holder] at failed
          cases failed
      | some owner =>
          rcases slot_attempt_cases slot .take owner.interrupt.raised with
            asleep | ⟨reason, ended, _⟩ | ⟨_, other, _⟩ | ⟨message, _, _, ended, _⟩
          · simp only [attempt, present, holder, job, asleep] at failed
            cases failed
          · simp only [attempt, taken?, present, holder, job, ended, finish] at failed ⊢
            apply explains_untaken
            intro same
            cases reason <;> cases failed <;> cases same
          · cases other
          · simp only [attempt, taken?, present, holder, job, ended, finish] at failed ⊢
            have explains := explains_finishTake (Option.some.inj failed)
            exact ⟨explains.unbuildable, explains.present⟩

theorem explains_poll {index : Nat} {handle : Handle} {queue : QueueId} {err : ChannelError}
    (failed : (exchange.pollQueue index handle queue).1 = .error err) :
    exchange.Explains index (exchange.polled? queue) err
      (exchange.pollQueue index handle queue).2 := by
  cases present : exchange.queue? queue with
  | none =>
      simp only [pollQueue, polled?, present, Option.map_none] at failed ⊢
      cases failed
      exact explains_untaken _ (fun impossible => by cases impossible)
  | some slot =>
      obtain ⟨item, closed⟩ := slot
      cases closed with
      | true =>
          simp only [pollQueue, polled?, present, Option.map_some, Slot.poll, if_true] at failed ⊢
          cases failed
          exact explains_untaken _ (fun impossible => by cases impossible)
      | false =>
          cases item with
          | none =>
              simp only [pollQueue, present, Slot.poll] at failed
              cases failed
          | some message =>
              simp only [pollQueue, polled?, present, Option.map_some, Slot.poll,
                Bool.false_eq_true, if_false] at failed ⊢
              have explains := explains_finishTake failed
              exact ⟨explains.unbuildable, explains.present⟩

end Exchange

namespace Errand

theorem job_of_takes {operation : Underway} (takes : (Errand.wait operation).Takes) :
    operation.job = .take := by
  obtain ⟨context, handle, queue, token, job⟩ := operation
  cases job with
  | deposit message => exact takes.elim
  | take => rfl

theorem takes_of_job {operation : Underway} (job : operation.job = .take) :
    (Errand.wait operation).Takes := by
  obtain ⟨context, handle, queue, token, job'⟩ := operation
  cases job
  exact True.intro

/-- The context that an errand is run in. A close needs none. -/
def context? : Errand → Option Nat
  | .convert context _ _ _ => some context
  | .wait operation => some operation.context
  | .poll context _ _ => some context
  | .close _ _ _ => none

end Errand

namespace Traffic

variable {traffic : Traffic} {call : Nat}

/-! ### Calls that end at once -/

/-- The call that the move begins ends with an error in its first section. -/
inductive Refuses (traffic : Traffic) : Move → ChannelError → Prop where
  | create {key : Int} {err : ChannelError}
      (refused : (traffic.exchange.create key).1 = some (.error err)) :
      Refuses traffic (.create key) err
  | get {key : Int} {err : ChannelError} (refused : (traffic.exchange.get key).1 = .error err) :
      Refuses traffic (.get key) err
  | close {handle : Handle} {err : ChannelError}
      (refused : (traffic.exchange.close handle).1 = .error err) : Refuses traffic (.close handle) err
  | send {context : Nat} {handle : Handle} {value : Ref} {err : ChannelError}
      (refused : traffic.exchange.channel? handle = .error err) :
      Refuses traffic (.send context handle value) err
  | receive {context : Nat} {handle : Handle} {err : ChannelError}
      (refused : (traffic.exchange.startReceive context handle).1 = .error err) :
      Refuses traffic (.receive context handle) err
  | poll {context : Nat} {handle : Handle} {err : ChannelError}
      (refused : traffic.exchange.channel? handle = .error err) :
      Refuses traffic (.poll context handle) err

theorem recorded_of_refuses {move : Move} {err : ChannelError} (refuses : traffic.Refuses move err) :
    ∃ event, traffic.step move = traffic.withExchange (traffic.exchange.record event) := by
  cases refuses with
  | create refused =>
      simp only [step, Exchange.create] at refused ⊢
      split at refused
      · cases refused
      · exact ⟨_, rfl⟩
      · cases refused
  | get refused =>
      simp only [step, Exchange.get] at refused ⊢
      split at refused
      · cases refused
      · exact ⟨_, rfl⟩
  | close refused =>
      rename_i handle
      cases found : traffic.exchange.registry.table.close? handle.slot with
      | none =>
          simp only [step, Exchange.withdraw, found]
          exact ⟨_, rfl⟩
      | some closed =>
          obtain ⟨channel, table⟩ := closed
          cases channel <;> simp only [Exchange.close, Exchange.withdraw, found] at refused <;>
            cases refused
  | send refused =>
      simp only [step, refused]
      exact ⟨_, rfl⟩
  | receive refused =>
      simp only [step, Exchange.startReceive] at refused ⊢
      split at refused
      · exact ⟨_, rfl⟩
      · cases refused
  | poll refused =>
      simp only [step, refused]
      exact ⟨_, rfl⟩

/-! ### Calls that go through sections -/

/-- The move begins the call, or it is the next section of the call. -/
def Serves (traffic : Traffic) (call : Nat) (move : Move) : Prop :=
  move = .proceed call ∨
    (traffic.calls.length = call ∧ (traffic.step move).calls.length = call + 1)

/-- A section takes a message off the queue that its call is about, and the message cannot be built in
the context of the call. Everything else is as it was. -/
structure Wastes (before after : Exchange) (errand : Errand) (message : Message)
    (err : ChannelError) : Prop where
  takes : errand.Takes
  slots : before.SameSlots after
  emptied : ∃ queue, errand.queue? = some queue ∧
    before.queue? queue = some { item := some message, closed := false } ∧
    after.queue? queue = some Slot.empty ∧
    ∀ other, other ≠ queue → after.queue? other = before.queue? other
  unbuildable : ∀ index owner, errand.context? = some index → after.contexts[index]? = some owner →
    (message.toValue owner before.heap).1 = .error err

/-- What the last section of a call does if it is an error that the call ends with. -/
structure FailsWith (before after : Exchange) (completion : Completion) (err : ChannelError) :
    Prop where
  effect : before.Undisturbed after ∨
    ∃ message, completion.taken = some message ∧
      Wastes before after completion.errand message err
  present : completion.errand.Takes → err ≠ .missingMessage

/-- What is left to do of the call is the rest of a close. -/
def Closes (traffic : Traffic) (call : Nat) : Prop :=
  ∃ handle channel sides, traffic.errand? call = some (.close handle channel sides)

/-- The call has begun, and it has ended. -/
structure Settled (traffic : Traffic) (call : Nat) : Prop where
  begun : call < traffic.calls.length
  finished : traffic.errand? call = none

theorem settled_complete {completion : Completion} (begun : completion.call < traffic.calls.length)
    (left : Exchange) : (traffic.complete completion left).Settled completion.call := by
  constructor
  · exact Nat.lt_of_lt_of_eq begun List.length_set.symm
  · simp only [errand?, complete, List.getElem?_set_self begun, Option.join_some]

/-- A move leaves all calls alone but the one that it continues and the one that it begins. -/
theorem errand?_step_other (move : Move) (begun : call < traffic.calls.length)
    (other : move ≠ .proceed call) : (traffic.step move).errand? call = traffic.errand? call := by
  have happened := traffic.stepped move
  have entered (errand : Errand) (left : Exchange) :
      (traffic.enter errand left).errand? call = traffic.errand? call := by
    simp only [errand?, enter, List.getElem?_append_left begun]
  generalize traffic.step move = after at happened ⊢
  cases happened with
  | still => rfl
  | began => exact entered _ _
  | opened => rfl
  | withdrew => exact entered _ _
  | advanced number errand _ pending happened =>
      have different : number ≠ call := by
        intro same
        rw [same] at other
        exact other rfl
      rcases happened.calls with same | ⟨entry, same⟩
      · rw [errand?, same, errand?]
      · rw [errand?, same, List.getElem?_set_ne different, errand?]

theorem length_calls_section {number : Nat} {errand : Errand} {after : Traffic}
    (happened : traffic.Section number errand after) :
    after.calls.length = traffic.calls.length := by
  rcases happened.calls with same | ⟨entry, same⟩
  · rw [same]
  · rw [same, List.length_set]

theorem length_calls_step (move : Move) :
    traffic.calls.length ≤ (traffic.step move).calls.length := by
  have happened := traffic.stepped move
  have entered (errand : Errand) (left : Exchange) :
      traffic.calls.length ≤ (traffic.enter errand left).calls.length := by
    rw [enter, List.length_append]
    exact Nat.le_add_right _ _
  generalize traffic.step move = after at happened ⊢
  cases happened with
  | still => exact Nat.le_refl _
  | began => exact entered _ _
  | opened => exact Nat.le_refl _
  | withdrew => exact entered _ _
  | advanced number errand _ pending happened =>
      exact Nat.le_of_eq (length_calls_section happened).symm

theorem new_completion {move : Move} {completion : Completion}
    (member : completion ∈ (traffic.step move).completions) :
    completion ∈ traffic.completions ∨ (move = .proceed completion.call ∧
      traffic.errand? completion.call = some completion.errand ∧
      (traffic.step move).completions = traffic.completions ++ [completion]) := by
  rcases traffic.completions_step move with
    same | ⟨number, errand, taken, outcome, proceeds, pending, more, _⟩
  · rw [same] at member
    exact Or.inl member
  · rw [more] at member
    rcases List.mem_append.mp member with old | new
    · exact Or.inl old
    · cases List.mem_singleton.mp new
      exact Or.inr ⟨proceeds, pending, more⟩

theorem Settled.step (settled : traffic.Settled call) (move : Move) :
    (traffic.step move).Settled call := by
  refine ⟨Nat.lt_of_lt_of_le settled.begun (traffic.length_calls_step move), ?_⟩
  by_cases proceeds : move = .proceed call
  · rw [proceeds, Traffic.step]
    simp only [settled.finished]
  · rw [traffic.errand?_step_other move settled.begun proceeds, settled.finished]

/-- The rest of a close is done section by section, and ends well. -/
theorem Closes.step (closes : traffic.Closes call) (move : Move) :
    ((traffic.step move).Closes call ∧ ∀ completion ∈ (traffic.step move).completions,
        completion.call = call → completion ∈ traffic.completions) ∨
      ((traffic.step move).Settled call ∧ ∀ completion ∈ (traffic.step move).completions,
        completion.call = call →
          completion ∈ traffic.completions ∨ completion.outcome = .ok none) := by
  obtain ⟨handle, channel, sides, pending⟩ := closes
  have begun := begun_of_pending pending
  by_cases proceeds : move = .proceed call
  · subst proceeds
    have advanced : traffic.step (.proceed call) =
        traffic.advance call (.close handle channel sides) := by
      simp only [Traffic.step, pending]
    rw [advanced]
    cases sides with
    | nil =>
        right
        refine ⟨settled_complete begun _, ?_⟩
        intro completion member _
        rcases List.mem_append.mp member with old | new
        · exact Or.inl old
        · cases List.mem_singleton.mp new
          exact Or.inr rfl
    | cons side rest =>
        left
        refine ⟨⟨handle, channel, rest, ?_⟩, fun completion member _ => member⟩
        simp only [errand?, advance, resume, List.getElem?_set_self begun, Option.join_some]
  · left
    refine ⟨⟨handle, channel, sides, ?_⟩, ?_⟩
    · rw [traffic.errand?_step_other move begun proceeds, pending]
    · intro completion member same
      rcases new_completion member with old | ⟨here, _⟩
      · exact old
      · rw [same] at here
        exact absurd here proceeds

theorem Settled.run (settled : traffic.Settled call) (moves : List Move) {completion : Completion}
    (member : completion ∈ (traffic.run moves).completions) (same : completion.call = call) :
    completion ∈ traffic.completions := by
  induction moves generalizing traffic with
  | nil => exact member
  | cons move rest ih =>
      rcases new_completion (ih (settled.step move) member) with old | ⟨_, pending, _⟩
      · exact old
      · rw [same, settled.finished] at pending
        cases pending

theorem Closes.run (closes : traffic.Closes call) (moves : List Move) {completion : Completion}
    (member : completion ∈ (traffic.run moves).completions) (same : completion.call = call) :
    completion ∈ traffic.completions ∨ completion.outcome = .ok none := by
  induction moves generalizing traffic with
  | nil => exact Or.inl member
  | cons move rest ih =>
      rcases closes.step move with ⟨still, old⟩ | ⟨settled, ended⟩
      · rcases ih still member with before | well
        · exact Or.inl (old completion before same)
        · exact Or.inr well
      · exact ended completion (settled.run rest member same) same

/-! ### One section -/

/-- What the next section of a call comes to: the call goes on and nothing has happened to the table
and the queues, it is a close that goes on, or it ends. -/
inductive Progress (traffic : Traffic) (call : Nat) (after : Traffic) : Prop where
  | goesOn (undisturbed : traffic.exchange.Undisturbed after.exchange)
      (completions : after.completions = traffic.completions)
  | closes (closes : after.Closes call) (completions : after.completions = traffic.completions)
  | ends (completion : Completion) (ofCall : completion.call = call)
      (completions : after.completions = traffic.completions ++ [completion])
      (settled : after.Settled call)
      (fails : ∀ err, completion.outcome = .error err →
        FailsWith traffic.exchange after.exchange completion err)

theorem Progress.complete (begun : call < traffic.calls.length) {errand : Errand}
    {taken : Option Message} {outcome : Outcome} {left : Exchange}
    (fails : ∀ err, outcome = .error err →
      FailsWith traffic.exchange left { call, errand, taken, outcome } err) :
    traffic.Progress call (traffic.complete { call, errand, taken, outcome } left) :=
  .ends _ rfl rfl (settled_complete begun left) fails

theorem progress_convert (begun : call < traffic.calls.length) (context : Nat) (handle : Handle)
    (queue : QueueId) (value : Ref) :
    traffic.Progress call (traffic.advance call (.convert context handle queue value)) := by
  have layout := traffic.exchange.layout_convertSend context handle queue value
  simp only [advance]
  generalize traffic.exchange.convertSend context handle queue value = result at layout ⊢
  obtain ⟨outcome, left⟩ := result
  cases outcome with
  | ok operation => exact .goesOn (.of_layout layout) rfl
  | error err =>
      refine Progress.complete begun ?_
      intro other _
      exact ⟨Or.inl (.of_layout layout), fun takes => takes.elim⟩

theorem progress_wait (begun : call < traffic.calls.length) (operation : Underway) :
    traffic.Progress call (traffic.advance call (.wait operation)) := by
  have happened := traffic.exchange.attempted operation
  have explains (takes : (Errand.wait operation).Takes) {err : ChannelError} :=
    @Exchange.explains_attempt traffic.exchange operation err (Errand.job_of_takes takes)
  simp only [advance]
  generalize traffic.exchange.taken? operation = message at happened explains ⊢
  generalize traffic.exchange.attempt operation = result at happened explains ⊢
  obtain ⟨outcome, left⟩ := result
  cases happened with
  | asleep => exact .goesOn (.of_layout rfl) rfl
  | failed err kind _ slots queues =>
      refine Progress.complete begun ?_
      intro other same
      cases same
      exact ⟨Or.inl ⟨slots, queues⟩, fun takes => (explains takes rfl).present⟩
  | deposited message _ job slots before filled others =>
      refine Progress.complete begun ?_
      intro other impossible
      cases impossible
  | took message outcome _ job slots before emptied others =>
      refine Progress.complete begun ?_
      intro err same
      have takes : (Errand.wait operation).Takes := Errand.takes_of_job job
      have explained := explains takes (congrArg some same)
      refine ⟨Or.inr ⟨message, rfl, ?_⟩, fun _ => explained.present⟩
      refine ⟨takes, slots, ⟨operation.queue, rfl, before, emptied, others⟩, ?_⟩
      intro index owner here holder
      cases here
      exact explained.unbuildable message rfl owner holder

theorem progress_poll (begun : call < traffic.calls.length) (context : Nat) (handle : Handle)
    (queue : QueueId) :
    traffic.Progress call (traffic.advance call (.poll context handle queue)) := by
  have happened := traffic.exchange.polled context handle queue
  have explains {err : ChannelError} :=
    @Exchange.explains_poll traffic.exchange context handle queue err
  simp only [advance]
  generalize traffic.exchange.polled? queue = message at happened explains ⊢
  generalize traffic.exchange.pollQueue context handle queue = result at happened explains ⊢
  obtain ⟨outcome, left⟩ := result
  cases happened with
  | failed err _ slots queues =>
      refine Progress.complete begun ?_
      intro other same
      cases same
      exact ⟨Or.inl ⟨slots, queues⟩, fun _ => (explains rfl).present⟩
  | nothing _ slots queues =>
      refine Progress.complete begun ?_
      intro other impossible
      cases impossible
  | took message outcome _ slots before emptied others =>
      refine Progress.complete begun ?_
      intro err same
      have explained := explains same
      refine ⟨Or.inr ⟨message, rfl, ?_⟩, fun _ => explained.present⟩
      refine ⟨trivial, slots, ⟨queue, rfl, before, emptied, others⟩, ?_⟩
      intro index owner here holder
      cases here
      exact explained.unbuildable message rfl owner holder

theorem progress_close (begun : call < traffic.calls.length) (handle : Handle) (channel : Nat)
    (sides : List Side) :
    traffic.Progress call (traffic.advance call (.close handle channel sides)) := by
  cases sides with
  | nil =>
      refine Progress.complete begun ?_
      intro err impossible
      cases impossible
  | cons side rest =>
      refine .closes ⟨handle, channel, rest, ?_⟩ rfl
      simp only [errand?, advance, resume, List.getElem?_set_self begun, Option.join_some]

/-- What a section of a call comes to, when the call has not ended. -/
theorem progress_step {errand : Errand} (pending : traffic.errand? call = some errand) :
    traffic.Progress call (traffic.step (.proceed call)) := by
  have begun := begun_of_pending pending
  have advanced : traffic.step (.proceed call) = traffic.advance call errand := by
    simp only [step, pending]
  rw [advanced]
  cases errand with
  | convert context handle queue value => exact progress_convert begun context handle queue value
  | wait operation => exact progress_wait begun operation
  | poll context handle queue => exact progress_poll begun context handle queue
  | close handle channel sides => exact progress_close begun handle channel sides

/-- What a move comes to that begins a call or continues one. A call that does not exist, or has ended,
cannot go on. -/
theorem serves_cases {move : Move} (serves : traffic.Serves call move) :
    traffic.step move = traffic ∨
      ¬traffic.Settled call ∧ traffic.Progress call (traffic.step move) := by
  rcases serves with proceeds | ⟨last, more⟩
  · rw [proceeds]
    cases pending : traffic.errand? call with
    | none =>
        left
        simp only [step, pending]
    | some errand =>
        right
        refine ⟨?_, progress_step pending⟩
        intro settled
        rw [settled.finished] at pending
        cases pending
  · right
    constructor
    · intro settled
      exact absurd settled.begun (Nat.not_lt_of_le (Nat.le_of_eq last))
    · have happened := traffic.stepped move
      generalize traffic.step move = after at happened more ⊢
      cases happened with
      | still => exact absurd more (Nat.ne_of_lt (Nat.lt_succ_of_le (Nat.le_of_eq last)))
      | opened => exact absurd more (Nat.ne_of_lt (Nat.lt_succ_of_le (Nat.le_of_eq last)))
      | began _ errand _ left layout => exact .goesOn (.of_layout layout) rfl
      | withdrew handle channel table left closes layout =>
          refine .closes ⟨handle, channel, [.worker, .master], ?_⟩ rfl
          simp only [errand?, enter, ← last, List.getElem?_concat_length, Option.join_some]
      | advanced number errand _ pending happened =>
          rw [length_calls_section happened] at more
          exact absurd more (Nat.ne_of_lt (Nat.lt_succ_of_le (Nat.le_of_eq last)))

/-! ### Runs -/

theorem last_section {completion : Completion}
    (pending : traffic.errand? completion.call = some completion.errand)
    (added : (traffic.step (.proceed completion.call)).completions =
      traffic.completions ++ [completion]) :
    (traffic.step (.proceed completion.call)).Settled completion.call ∧
      ∀ err, completion.outcome = .error err →
        FailsWith traffic.exchange (traffic.step (.proceed completion.call)).exchange completion
          err := by
  have longer : (traffic.step (.proceed completion.call)).completions ≠ traffic.completions := by
    rw [added]
    simp
  cases progress_step pending with
  | goesOn _ same => exact absurd same longer
  | closes _ same => exact absurd same longer
  | ends ended _ added' finished fails =>
      have same : ended = completion :=
        List.singleton_inj.mp (List.append_cancel_left (added'.symm.trans added))
      rw [same] at fails
      exact ⟨finished, fails⟩

theorem settled_step
    (settled : ∀ completion ∈ traffic.completions, traffic.Settled completion.call)
    (move : Move) :
    ∀ completion ∈ (traffic.step move).completions,
      (traffic.step move).Settled completion.call := by
  intro completion member
  rcases new_completion member with old | ⟨proceeds, pending, added⟩
  · exact (settled completion old).step move
  · subst proceeds
    exact (last_section pending added).1

theorem settled_run (config : RegistryConfig) (moves : List Move) :
    ∀ completion ∈ ((initial config).run moves).completions,
      ((initial config).run moves).Settled completion.call :=
  run_keeps (fun traffic => ∀ completion ∈ traffic.completions, traffic.Settled completion.call)
    (fun _ move settled => settled_step settled move) moves fun _ impossible => nomatch impossible

theorem effect_of_failed {config : RegistryConfig} {front rest : List Move} {move : Move}
    {completion : Completion} {err : ChannelError}
    (member : completion ∈ ((initial config).run (front ++ move :: rest)).completions)
    (failed : completion.outcome = .error err)
    (serves : ((initial config).run front).Serves completion.call move) :
    Exchange.Undisturbed ((initial config).run front).exchange
        (((initial config).run front).step move).exchange ∨
      FailsWith ((initial config).run front).exchange
        (((initial config).run front).step move).exchange completion err := by
  have settled := settled_run config front
  rw [run_append] at member
  generalize (initial config).run front = before at settled serves member ⊢
  have later : completion ∈ ((before.step move).run rest).completions := member
  rcases serves_cases serves with still | ⟨unsettled, progress⟩
  · rw [still]
    exact Or.inl (.of_layout rfl)
  · have new : completion ∉ before.completions := fun old => unsettled (settled completion old)
    cases progress with
    | goesOn undisturbed _ => exact Or.inl undisturbed
    | closes closes same =>
        rcases closes.run rest later rfl with old | well
        · rw [same] at old
          exact absurd old new
        · exact nomatch failed.symm.trans well
    | ends ended ofCall added finished fails =>
        have here := finished.run rest later rfl
        rw [added] at here
        rcases List.mem_append.mp here with old | same
        · exact absurd old new
        · cases List.mem_singleton.mp same
          exact Or.inr (fails err failed)

/-- How the calls of a run fail. -/
structure FailsSafely (config : RegistryConfig) (moves : List Move) : Prop where
  /-- A create, get or close that fails, and a send, receive or poll that fails on its handle, does
  nothing to the exchange but record it. The value of such a send is not looked at. -/
  atOnce : ∀ move err, ((initial config).run moves).Refuses move err →
    ∃ event, ((initial config).run moves).step move =
      ((initial config).run moves).withExchange (((initial config).run moves).exchange.record event)
  /-- No move of a call that has failed has changed the table or a queue, but for the last one when
  that took a message which could not be built. -/
  onTheWay : ∀ completion ∈ ((initial config).run moves).completions, ∀ err,
    completion.outcome = .error err → ∀ front move rest, moves = front ++ move :: rest →
      ((initial config).run front).Serves completion.call move →
        Exchange.Undisturbed ((initial config).run front).exchange
            (((initial config).run front).step move).exchange ∨
          ∃ message, completion.taken = some message ∧
            Wastes ((initial config).run front).exchange
              (((initial config).run front).step move).exchange completion.errand message err
  /-- No receive or poll is told that there was no message. -/
  present : (∀ context handle err,
      ((initial config).run moves).Refuses (.receive context handle) err → err ≠ .missingMessage) ∧
    ∀ completion ∈ ((initial config).run moves).completions, completion.errand.Takes →
      completion.outcome ≠ .error .missingMessage

theorem present_of_refuses {context : Nat} {handle : Handle} {err : ChannelError}
    (refuses : traffic.Refuses (.receive context handle) err) : err ≠ .missingMessage := by
  cases refuses with
  | receive refused =>
      simp only [Exchange.startReceive, Exchange.channel?] at refused
      cases found : traffic.exchange.registry.table.channel? handle.slot with
      | none =>
          rw [found] at refused
          cases refused
          exact fun same => nomatch same
      | some channel =>
          rw [found] at refused
          cases refused

theorem present_run (config : RegistryConfig) (moves : List Move) :
    ∀ completion ∈ ((initial config).run moves).completions, completion.errand.Takes →
      completion.outcome ≠ .error .missingMessage := by
  refine run_keeps (fun traffic => ∀ completion ∈ traffic.completions,
    completion.errand.Takes → completion.outcome ≠ .error .missingMessage) ?_ moves
    fun _ impossible => nomatch impossible
  intro traffic move present completion member takes failed
  rcases new_completion member with old | ⟨proceeds, pending, added⟩
  · exact present completion old takes failed
  · subst proceeds
    exact ((last_section pending added).2 _ failed).present takes rfl

/-- Calls fail safely in every run over every registry. -/
theorem fails_safely_run (config : RegistryConfig) (moves : List Move) :
    FailsSafely config moves := by
  refine ⟨fun move err refuses => recorded_of_refuses refuses, ?_,
    fun context handle err refuses => present_of_refuses refuses, present_run config moves⟩
  intro completion member err failed front move rest whole serves
  rw [whole] at member
  rcases effect_of_failed member failed serves with undisturbed | fails
  · exact Or.inl undisturbed
  · exact fails.effect

/-- A codec that writes and cannot read. -/
def unreading : Codec :=
  { Codec.packed with unserialize := fun _ _ heap => .error .unreadable heap }

/-- The second of two contexts cannot read what the first sends it. -/
def wastedMoves : List Move :=
  [.addContext "a" .packed, .addContext "b" unreading,
    .elsewhere ((Context.create (Context.create Heap.initial "a" .packed).2 "b" unreading).2.alloc
      (.language (.symbol "x"))).2 id,
    .create 1, .send 0 ⟨1, .master⟩ ⟨10⟩, .proceed 0, .proceed 0, .receive 1 ⟨1, .worker⟩]

/-- The receive takes the message off its queue and fails, and that is all that it does. -/
theorem fails_safely_wasted :
    ∃ completion ∈ ((initial .standard).run (wastedMoves ++ [.proceed 1])).completions,
      completion.call = 1 ∧
      completion.outcome = .error (.deserialization .encodedValue .unreadable) ∧
      ∃ message, completion.taken = some message ∧
        Wastes ((initial .standard).run wastedMoves).exchange
          (((initial .standard).run wastedMoves).step (.proceed 1)).exchange completion.errand
          message (.deserialization .encodedValue .unreadable) := by
  have calls : (((initial .standard).run (wastedMoves ++ [.proceed 1])).completions.getLast?).map
      Completion.call = some 1 := by
    decide +kernel
  have outcomes : (((initial .standard).run
      (wastedMoves ++ [.proceed 1])).completions.getLast?).map Completion.outcome =
        some (.error (.deserialization .encodedValue .unreadable)) := by
    decide +kernel
  obtain ⟨received, last, ofCall⟩ := Option.map_eq_some_iff.mp calls
  have member := List.mem_of_getLast? last
  rw [last] at outcomes
  have failed : received.outcome = .error (.deserialization .encodedValue .unreadable) :=
    Option.some.inj outcomes
  refine ⟨received, member, ofCall, failed, ?_⟩
  have full : (((initial .standard).run wastedMoves).exchange.queue? ⟨0, .worker⟩).map
      Slot.isEmpty = some false := by
    decide +kernel
  have emptied : ((((initial .standard).run wastedMoves).step (.proceed 1)).exchange.queue?
      ⟨0, .worker⟩).map Slot.isEmpty = some true := by
    decide +kernel
  rcases (fails_safely_run .standard (wastedMoves ++ [.proceed 1])).onTheWay received member _
    failed wastedMoves (.proceed 1) [] rfl (Or.inl (congrArg Move.proceed ofCall.symm)) with
      undisturbed | wastes
  · rw [undisturbed.queues ⟨0, .worker⟩, full] at emptied
    cases emptied
  · exact wastes

end Traffic

end ValueChannels
