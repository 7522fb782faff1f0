import ValueChannels.Proofs.Exchange.Origin

/-!
The order of delivery. Main statement: `orderly_run`, which says of every run over a valid
registry what its sends, receives, polls and closes have done with the messages.
-/

namespace ValueChannels

namespace Exchange

variable (exchange : Exchange)

theorem attempt_shut {operation : Underway} {slot : Slot Message} {owner : Context}
    (present : exchange.queue? operation.queue = some slot) (closed : slot.closed = true)
    (context : exchange.contexts[operation.context]? = some owner) :
    (exchange.attempt operation).1 =
        some (.error (.notFound (.handle operation.handle.toRaw))) ∧
      exchange.taken? operation = none := by
  have ended := Slot.attempt_closed closed operation.job owner.interrupt.raised
  constructor
  · simp only [attempt, present, context, ended, finish]
    cases operation.job <;> rfl
  · simp only [taken?, present, context, ended]

theorem pollQueue_shut {queue : QueueId} {slot : Slot Message}
    (present : exchange.queue? queue = some slot) (closed : slot.closed = true) (context : Nat)
    (handle : Handle) :
    (exchange.pollQueue context handle queue).1 =
        .error (.notFound (.handle handle.toRaw)) ∧
      exchange.polled? queue = none := by
  constructor
  · simp only [pollQueue, present, Slot.poll, closed, if_true]
    rfl
  · simp only [polled?, present, Option.map_some, Slot.poll, closed, if_true]

end Exchange

namespace Traffic

variable {traffic : Traffic}

/-- The next section of a call ends it with an error. -/
def Fails (traffic : Traffic) (call : Nat) (errand : Errand) (err : ChannelError) : Prop :=
  (traffic.step (.proceed call)).completions =
    traffic.completions ++ [{ call, errand, taken := none, outcome := .error err }]

/-- A channel whose close has ended. No handle leads to it, and whoever still has something to do
on it fails, a send after it has converted its value at the latest. -/
structure Shut (traffic : Traffic) (channel : Nat) : Prop where
  unreachable : ∀ handle, traffic.exchange.channel? handle ≠ .ok channel
  waits : ∀ call operation owner, traffic.errand? call = some (.wait operation) →
    operation.queue.channel = channel →
    traffic.exchange.contexts[operation.context]? = some owner →
      traffic.Fails call (.wait operation) (.notFound (.handle operation.handle.toRaw))
  polls : ∀ call context handle queue,
    traffic.errand? call = some (.poll context handle queue) → queue.channel = channel →
      traffic.Fails call (.poll context handle queue) (.notFound (.handle handle.toRaw))
  converts : ∀ call context handle queue value,
    traffic.errand? call = some (.convert context handle queue value) →
    queue.channel = channel →
      (∃ err, traffic.Fails call (.convert context handle queue value) err) ∨
        ∃ operation, operation.queue = queue ∧
          (traffic.step (.proceed call)).errand? call = some (.wait operation)

/-- What opening a channel under a key comes to: its handle leads to two empty queues that nobody
has had anything to do with, whatever channel had the slot before. -/
structure Opens (traffic : Traffic) (key : Int) (handle : Handle) : Prop where
  leads : (traffic.step (.create key)).exchange.channel? handle =
    .ok traffic.exchange.channels.size
  empty : ∀ side, (traffic.step (.create key)).exchange.queue?
    { channel := traffic.exchange.channels.size, toward := side } = some Slot.empty
  untouched : ∀ side, (traffic.step (.create key)).deposited
      { channel := traffic.exchange.channels.size, toward := side } = [] ∧
    (traffic.step (.create key)).taken
      { channel := traffic.exchange.channels.size, toward := side } = []
  unattended : ∀ call errand queue, (traffic.step (.create key)).errand? call = some errand →
    errand.queue? = some queue → queue.channel ≠ traffic.exchange.channels.size

/-- What the traffic has done with the messages, and what any further move does with them. -/
structure Orderly (traffic : Traffic) : Prop where
  /-- The messages that were taken off a queue are the first of those put into it, in order: all
  of them, or all but one. -/
  inOrder : ∀ queue, ∃ count, traffic.taken queue = (traffic.deposited queue).take count ∧
    ((traffic.deposited queue).length = count ∨ (traffic.deposited queue).length = count + 1)
  /-- The one that was not taken was discarded by a close, or is in flight. -/
  kept : ∀ queue, traffic.deposited queue =
    traffic.taken queue ++ (traffic.discarded queue ++ traffic.exchange.inFlight queue)
  discards : ∀ queue, (traffic.discarded queue).length ≤ 1
  /-- A message that one side sent is taken by the other. -/
  otherSide : ∀ queue, ∀ sent ∈ traffic.completions, ∀ received ∈ traffic.completions,
    sent.depositedOn queue ≠ [] → received.takenFrom queue ≠ [] →
      received.errand.handle.side = sent.errand.handle.side.other
  /-- A send that ends with an error changes no queue. -/
  sendFails : ∀ move call errand taken err, errand.Sends →
    (traffic.step move).completions =
      traffic.completions ++ [{ call, errand, taken, outcome := .error err }] →
    ∀ queue, (traffic.step move).exchange.queue? queue = traffic.exchange.queue? queue
  /-- A send that succeeds finds its queue empty and leaves its own message there. -/
  sendSucceeds : ∀ move call operation message taken item, operation.job = .deposit message →
    (traffic.step move).completions =
      traffic.completions ++ [{ call, errand := .wait operation, taken, outcome := .ok item }] →
    traffic.exchange.queue? operation.queue = some Slot.empty ∧
      (traffic.step move).exchange.queue? operation.queue =
        some { item := some message, closed := false }
  /-- A move changes no queue but the one it works on. -/
  apart : ∀ move queue slot, traffic.target? move ≠ some queue →
    traffic.exchange.queue? queue = some slot →
      (traffic.step move).exchange.queue? queue = some slot
  shut : ∀ completion ∈ traffic.completions, ∀ handle channel,
    completion.errand = .close handle channel [] → traffic.Shut channel
  opens : ∀ key handle, (traffic.exchange.create key).1 = some (.ok handle) →
    traffic.Opens key handle

theorem Accounted.kept {queue : QueueId} (sound : traffic.Accounted queue) :
    traffic.deposited queue =
        traffic.taken queue ++ (traffic.discarded queue ++ traffic.exchange.inFlight queue) ∧
      (traffic.discarded queue ++ traffic.exchange.inFlight queue).length ≤ 1 := by
  unfold Accounted at sound
  unfold Exchange.inFlight
  cases present : traffic.exchange.queue? queue with
  | none =>
      rw [present] at sound
      rw [sound.1, sound.2.1, sound.2.2]
      exact ⟨rfl, Nat.zero_le 1⟩
  | some slot =>
      rw [present] at sound
      obtain ⟨whole, open_, closed⟩ := sound
      refine ⟨whole, ?_⟩
      cases state : slot.closed with
      | false =>
          rw [open_ state]
          cases item : slot.item <;> simp [item]
      | true =>
          obtain ⟨nothing, atMost⟩ := closed state
          simp [nothing, atMost]

/-- What was taken is a first part of what was put in, one short of it at most. -/
theorem Accounted.inOrder {queue : QueueId} (sound : traffic.Accounted queue) :
    ∃ count, traffic.taken queue = (traffic.deposited queue).take count ∧
      ((traffic.deposited queue).length = count ∨
        (traffic.deposited queue).length = count + 1) := by
  obtain ⟨whole, atMost⟩ := sound.kept
  refine ⟨(traffic.taken queue).length, ?_, ?_⟩
  · rw [whole, List.take_left]
  · have length := congrArg List.length whole
    rw [List.length_append] at length
    omega

theorem depositedOn_sides {completion : Completion} {queue : QueueId}
    (deposits : completion.depositedOn queue ≠ []) (across : completion.errand.Across) :
    queue.toward = completion.errand.handle.side.other := by
  obtain ⟨call, errand, taken, outcome⟩ := completion
  unfold Completion.depositedOn at deposits
  split at deposits
  · rename_i message result same ok
    cases same
    split at deposits
    · rename_i here
      subst here
      exact across
    · exact absurd rfl deposits
  · exact absurd rfl deposits

theorem takenFrom_sides {completion : Completion} {queue : QueueId}
    (taken : completion.takenFrom queue ≠ []) (across : completion.errand.Across)
    (takes : completion.taken ≠ none → completion.errand.Takes) :
    queue.toward = completion.errand.handle.side := by
  unfold Completion.takenFrom at taken
  split at taken
  · rename_i about
    have some_ : completion.taken ≠ none := by
      intro nothing
      rw [nothing] at taken
      exact taken rfl
    have takes := takes some_
    obtain ⟨call, errand, message, outcome⟩ := completion
    cases errand with
    | convert => cases takes
    | wait operation =>
        obtain ⟨context, handle, place, token, job⟩ := operation
        cases job with
        | deposit => cases takes
        | take =>
            cases about
            exact across
    | poll context handle place =>
        cases about
        exact across
    | close => cases takes
  · exact absurd rfl taken

theorem Sound.otherSide (sound : traffic.Sound) (queue : QueueId) {sent received : Completion}
    (wasSent : sent ∈ traffic.completions) (wasReceived : received ∈ traffic.completions)
    (deposits : sent.depositedOn queue ≠ []) (taken : received.takenFrom queue ≠ []) :
    received.errand.handle.side = sent.errand.handle.side.other := by
  have toward := depositedOn_sides deposits (sound.ended sent wasSent).1.across
  have from_ := takenFrom_sides taken (sound.ended received wasReceived).1.across
    (sound.ended received wasReceived).2
  exact from_.symm.trans toward

theorem section_of_completed {move : Move} {completion : Completion}
    (more : (traffic.step move).completions = traffic.completions ++ [completion]) :
    traffic.Section completion.call completion.errand (traffic.step move) := by
  have grown {after : Traffic} (same : after.completions = traffic.completions)
      (longer : after.completions = traffic.completions ++ [completion]) : False := by
    rw [same] at longer
    cases List.self_eq_append_right.mp longer
  have happened := traffic.stepped move
  generalize traffic.step move = after at happened more ⊢
  cases happened with
  | still => exact (grown rfl more).elim
  | began => exact (grown rfl more).elim
  | opened => exact (grown rfl more).elim
  | withdrew => exact (grown rfl more).elim
  | advanced call errand _ pending happened =>
      rcases completions_section happened with same | ⟨taken, outcome, added, _⟩
      · exact (grown same more).elim
      · rw [added] at more
        cases List.append_cancel_left more
        exact happened

theorem sends_not_takes {errand : Errand} (sends : errand.Sends) : ¬errand.Takes := by
  cases errand with
  | convert => exact id
  | wait operation =>
      obtain ⟨context, handle, queue, token, job⟩ := operation
      cases job with
      | deposit message => exact id
      | take => cases sends
  | poll => cases sends
  | close => cases sends

theorem send_fails {move : Move} {call : Nat} {errand : Errand} {taken : Option Message}
    {err : ChannelError} (sends : errand.Sends)
    (more : (traffic.step move).completions =
      traffic.completions ++ [{ call, errand, taken, outcome := .error err }])
    (queue : QueueId) :
    (traffic.step move).exchange.queue? queue = traffic.exchange.queue? queue := by
  have happened := section_of_completed more
  generalize traffic.step move = after at happened more ⊢
  cases happened with
  | slept => rfl
  | converted _ _ _ _ operation message left layout => exact Exchange.queue?_congr layout queue
  | failed _ reason left slots queues => exact queues queue
  | nothing _ _ _ left slots queues => exact queues queue
  | deposited => cases List.append_cancel_left more
  | took _ place message outcome left takes => exact absurd takes (sends_not_takes sends)
  | closing => cases sends
  | ended => cases sends

theorem send_succeeds {move : Move} {call : Nat} {operation : Underway} {message : Message}
    {taken : Option Message} {item : Option Ref} (job : operation.job = .deposit message)
    (more : (traffic.step move).completions =
      traffic.completions ++ [{ call, errand := .wait operation, taken, outcome := .ok item }]) :
    traffic.exchange.queue? operation.queue = some Slot.empty ∧
      (traffic.step move).exchange.queue? operation.queue =
        some { item := some message, closed := false } := by
  have happened := section_of_completed more
  simp only at happened
  generalize traffic.step move = after at happened more ⊢
  cases happened with
  | slept => cases List.self_eq_append_right.mp more
  | failed => cases List.append_cancel_left more
  | deposited _ held left same slots before filled =>
      rw [job] at same
      cases same
      exact ⟨before, filled⟩
  | took _ place held outcome left takes =>
      obtain ⟨context, handle, queue, token, job'⟩ := operation
      cases job
      cases takes

theorem apart_step {move : Move} {queue : QueueId} {slot : Slot Message}
    (elsewhere : traffic.target? move ≠ some queue)
    (present : traffic.exchange.queue? queue = some slot) :
    (traffic.step move).exchange.queue? queue = some slot := by
  cases traffic.effect_step move queue with
  | same kept => exact kept.trans present
  | opened absent =>
      rw [absent] at present
      cases present
  | filled message works => exact absurd works elsewhere
  | emptied message works => exact absurd works elsewhere
  | closed held works => exact absurd works elsewhere

theorem errand?_resumed {call : Nat} {errand : Errand} (pending : traffic.errand? call = some errand)
    (resumed : Errand) (exchange : Exchange) :
    (traffic.resume call resumed exchange).errand? call = some resumed := by
  simp [errand?, resume, begun_of_pending pending]

theorem shut_of_closing {channel : Nat} (closing : traffic.exchange.Closing channel []) :
    traffic.Shut channel := by
  have closed (queue : QueueId) (here : queue.channel = channel) :
      ∃ slot, traffic.exchange.queue? queue = some slot ∧ slot.closed = true := by
    subst here
    exact closing.closed queue.toward List.not_mem_nil
  refine ⟨?_, ?_, ?_, ?_⟩
  · intro handle leads
    exact closing.unreachable _ (traffic.exchange.channel?_eq_ok.mp leads)
  · intro call operation owner pending here context
    obtain ⟨slot, present, isClosed⟩ := closed _ here
    obtain ⟨ended, nothing⟩ := traffic.exchange.attempt_shut present isClosed context
    simp only [Fails, step, pending, advance]
    generalize traffic.exchange.attempt operation = result at ended ⊢
    obtain ⟨outcome, left⟩ := result
    cases ended
    simp only [nothing, complete]
  · intro call context handle queue pending here
    obtain ⟨slot, present, isClosed⟩ := closed _ here
    obtain ⟨ended, nothing⟩ := traffic.exchange.pollQueue_shut present isClosed context handle
    simp only [Fails, step, pending, advance]
    generalize traffic.exchange.pollQueue context handle queue = result at ended ⊢
    obtain ⟨outcome, left⟩ := result
    cases ended
    simp only [nothing, complete]
  · intro call context handle queue value pending here
    simp only [Fails, step, pending]
    have happened := traffic.section_convert call context handle queue value
    generalize traffic.advance call (.convert context handle queue value) = after at happened ⊢
    cases happened with
    | converted _ _ _ _ operation message left layout converts =>
        refine Or.inr ⟨operation, converts.ofQueue, ?_⟩
        exact errand?_resumed pending _ _
    | failed _ err left => exact Or.inl ⟨err, rfl⟩
    | took _ place message outcome left takes => cases takes

theorem Sound.opens (sound : traffic.Sound) {key : Int} {handle : Handle}
    (created : (traffic.exchange.create key).1 = some (.ok handle)) :
    traffic.Opens key handle := by
  rcases traffic.exchange.create_cases key with ⟨_, closed⟩ | ⟨slot, table, opens, ok, layout⟩
  · exact absurd created (closed handle)
  · rw [ok] at created
    cases created
    have channels := congrArg Layout.channels layout
    have entries := congrArg Layout.table layout
    simp only [Exchange.layout] at channels entries
    have absent (side : Side) :
        traffic.Accounted { channel := traffic.exchange.channels.size, toward := side } :=
      sound.accounted _
    have nothing (side : Side) :
        traffic.deposited { channel := traffic.exchange.channels.size, toward := side } = [] ∧
          traffic.taken { channel := traffic.exchange.channels.size, toward := side } = [] := by
      have none_ : traffic.exchange.queue?
          { channel := traffic.exchange.channels.size, toward := side } = none := by
        simp [Exchange.queue?]
      have record := absent side
      unfold Accounted at record
      rw [none_] at record
      exact ⟨record.1, record.2.1⟩
    refine ⟨?_, ?_, nothing, ?_⟩
    · rw [Exchange.channel?_eq_ok]
      have leads := Table.channel?_opened sound.grows opens
      rw [← entries] at leads
      exact leads
    · intro side
      exact Exchange.queue?_pushed_last channels rfl
    · intro call errand queue pending about here
      have inside := (sound.pending call errand pending).inside queue about
      exact Nat.ne_of_lt inside here

theorem Sound.orderly (sound : traffic.Sound) : traffic.Orderly where
  inOrder queue := (sound.accounted queue).inOrder
  kept queue := (sound.accounted queue).kept.1
  discards queue := by
    have atMost := (sound.accounted queue).kept.2
    rw [List.length_append] at atMost
    omega
  otherSide queue _ wasSent _ wasReceived := sound.otherSide queue wasSent wasReceived
  sendFails _ _ _ _ _ sends more := send_fails sends more
  sendSucceeds _ _ _ _ _ _ job more := send_succeeds job more
  apart _ _ _ elsewhere present := apart_step elsewhere present
  shut completion member handle channel closed := by
    have admits := (sound.ended completion member).1
    exact shut_of_closing (admits.closing handle channel [] closed)
  opens _ _ created := sound.opens created

variable {config : RegistryConfig}

/-- In every run over a registry of a valid configuration, with any number of calls interleaved in
any way, the messages that are taken off a queue are the first of those that sends on it
deposited, in order and each once; each is the message of its own send; none goes back to the
side it came from; a failed send, or a move that works on another queue, leaves a queue alone;
a closed channel has dropped one message per direction at most and fails whoever still uses
it; and a channel opened later has no part in its messages. -/
theorem orderly_run (valid : config.validate = .ok ()) (moves : List Move) :
    ((initial config).run moves).Orderly ∧
      ∀ completion ∈ ((initial config).run moves).completions, ∀ operation message,
        completion.errand = .wait operation → operation.job = .deposit message →
          SentBy config moves completion.call operation message :=
  ⟨(sound_run valid moves).orderly, (traced_run config moves).ended⟩

/-- A channel over which one message is sent and polled before it is closed. -/
def oneDelivery : List Move :=
  [.addContext "master" .packed, .addContext "worker" .packed, .create 7,
    .send 0 { slot := 1, side := .master } Ref.null, .proceed 0, .proceed 0,
    .poll 1 { slot := 1, side := .worker }, .proceed 1,
    .close { slot := 1, side := .worker }, .proceed 2, .proceed 2, .proceed 2]

theorem orderly_oneDelivery :
    RegistryConfig.standard.validate = .ok () ∧
      (((initial .standard).run oneDelivery).taken { channel := 0, toward := .worker }).length =
        1 ∧
      ((initial .standard).run oneDelivery).Orderly := by
  refine ⟨rfl, rfl, ?_⟩
  exact (orderly_run rfl oneDelivery).1

end Traffic

end ValueChannels
