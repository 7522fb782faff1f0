import ValueChannels.Proofs.Exchange.Conduct

/-!
Where the messages of sends come from. Main statement: `traced_run`, by which the message of
every send in a run is what its own value was converted into.
-/

namespace ValueChannels.Traffic

variable {traffic : Traffic}

theorem run_append (earlier later : List Move) :
    traffic.run (earlier ++ later) = (traffic.run earlier).run later := by
  simp [run]

/-- The call began as a send of the value, when its handle led to the channel of the queue. -/
def BeganAs (config : RegistryConfig) (moves : List Move) (call context : Nat) (handle : Handle)
    (queue : QueueId) (value : Ref) : Prop :=
  ∃ first second, moves = first ++ .send context handle value :: second ∧
    ((initial config).run first).calls.length = call ∧
    ((initial config).run first).exchange.channel? handle = .ok queue.channel

/-- The operation of a call and its message come from a send: its handle led to the channel of the
queue when it began, and its value was converted into the message later. -/
def SentBy (config : RegistryConfig) (moves : List Move) (call : Nat) (operation : Underway)
    (message : Message) : Prop :=
  ∃ middle third value, moves = middle ++ .proceed call :: third ∧
    BeganAs config middle call operation.context operation.handle operation.queue value ∧
    ∃ owner, ((initial config).run middle).exchange.contexts[operation.context]? = some owner ∧
      (Message.ofValue owner ((initial config).run middle).exchange.heap value).1 = .ok message

theorem BeganAs.more {config : RegistryConfig} {moves : List Move} {call context : Nat}
    {handle : Handle} {queue : QueueId} {value : Ref}
    (began : BeganAs config moves call context handle queue value) (move : Move) :
    BeganAs config (moves ++ [move]) call context handle queue value := by
  obtain ⟨first, second, rfl, length, found⟩ := began
  exact ⟨first, second ++ [move], by simp, length, found⟩

theorem SentBy.more {config : RegistryConfig} {moves : List Move} {call : Nat}
    {operation : Underway} {message : Message}
    (sent : SentBy config moves call operation message) (move : Move) :
    SentBy config (moves ++ [move]) call operation message := by
  obtain ⟨middle, third, value, rfl, rest⟩ := sent
  exact ⟨middle, third ++ [move], value, by simp, rest⟩

/-- Where the pending and ended sends of a run come from. -/
structure Traced (config : RegistryConfig) (moves : List Move) : Prop where
  converting : ∀ call context handle queue value,
    ((initial config).run moves).errand? call = some (.convert context handle queue value) →
      BeganAs config moves call context handle queue value
  waiting : ∀ call operation message,
    ((initial config).run moves).errand? call = some (.wait operation) →
    operation.job = .deposit message → SentBy config moves call operation message
  ended : ∀ completion ∈ ((initial config).run moves).completions, ∀ operation message,
    completion.errand = .wait operation → operation.job = .deposit message →
      SentBy config moves completion.call operation message

variable {config : RegistryConfig} {moves : List Move}

/-- A send that is still to convert its value has just begun, or was there before. -/
theorem convert_step {move : Move} {call context : Nat} {handle : Handle} {queue : QueueId}
    {value : Ref}
    (pending : (traffic.step move).errand? call = some (.convert context handle queue value)) :
    traffic.errand? call = some (.convert context handle queue value) ∨
      (move = .send context handle value ∧ call = traffic.calls.length ∧
        traffic.exchange.channel? handle = .ok queue.channel) := by
  have happened := traffic.stepped move
  generalize traffic.step move = after at happened pending ⊢
  -- No errand turns into a conversion: a call that converts has just begun.
  cases happened with
  | still => exact Or.inl pending
  | began _ begun place left layout found about across starts =>
      rcases errand?_enter pending with ⟨here, same⟩ | before
      · subst same
        cases about
        rcases starts with takes | ⟨_, _, same, sent⟩
        · cases takes
        · cases same
          exact Or.inr ⟨sent, here, found⟩
      · exact Or.inl before
  | opened => exact Or.inl pending
  | withdrew =>
      rcases errand?_enter pending with ⟨_, impossible⟩ | before
      · cases impossible
      · exact Or.inl before
  | advanced number ran _ running happened =>
      rcases happened.pending pending with before | ⟨_, goesOn⟩
      · exact Or.inl before
      · cases goesOn

theorem deposit_step {move : Move} {call : Nat} {operation : Underway} {message : Message}
    (pending : (traffic.step move).errand? call = some (.wait operation))
    (job : operation.job = .deposit message) :
    traffic.errand? call = some (.wait operation) ∨
      ∃ context handle queue value, move = .proceed call ∧
        traffic.errand? call = some (.convert context handle queue value) ∧
        traffic.exchange.Converts context handle queue value operation message := by
  have happened := traffic.stepped move
  generalize traffic.step move = after at happened pending ⊢
  -- Only a conversion turns an errand into one that has a message to deposit.
  cases happened with
  | still => exact Or.inl pending
  | began _ begun place left layout found about across starts =>
      rcases errand?_enter pending with ⟨_, same⟩ | before
      · subst same
        rcases starts with takes | ⟨_, _, impossible, _⟩
        · obtain ⟨context, handle, queue, token, job'⟩ := operation
          cases job
          cases takes
        · cases impossible
      · exact Or.inl before
  | opened => exact Or.inl pending
  | withdrew =>
      rcases errand?_enter pending with ⟨_, impossible⟩ | before
      · cases impossible
      · exact Or.inl before
  | advanced number ran _ running happened =>
      rcases happened.pending pending with before | ⟨here, goesOn⟩
      · exact Or.inl before
      · cases goesOn with
        | @converted context handle queue value _ converted converts =>
            subst here
            have carries := converts.deposits
            rw [job] at carries
            cases carries
            exact Or.inr ⟨context, handle, queue, value, rfl, running, converts⟩

theorem Traced.step (traced : Traced config moves) (move : Move) :
    Traced config (moves ++ [move]) := by
  have last : (initial config).run (moves ++ [move]) = ((initial config).run moves).step move :=
    run_append moves [move]
  refine ⟨?_, ?_, ?_⟩
  · intro call context handle queue value pending
    rw [last] at pending
    rcases convert_step pending with before | ⟨rfl, here, found⟩
    · exact (traced.converting _ _ _ _ _ before).more move
    · exact ⟨moves, [], rfl, here.symm, found⟩
  · intro call operation message pending job
    rw [last] at pending
    rcases deposit_step pending job with before | ⟨context, handle, queue, value, rfl, running, converts⟩
    · exact (traced.waiting call operation message before job).more move
    · refine ⟨moves, [], value, rfl, ?_, ?_⟩
      · rw [converts.ofContext, converts.ofHandle, converts.ofQueue]
        exact traced.converting _ _ _ _ _ running
      · rw [converts.ofContext]
        exact converts.converts
  · intro completion member operation message waits job
    rw [last] at member
    rcases completions_step _ move with same | ⟨call, errand, taken, outcome, _, pending, added, _⟩
    · rw [same] at member
      exact (traced.ended completion member operation message waits job).more move
    · rw [added] at member
      rcases List.mem_append.mp member with before | new
      · exact (traced.ended completion before operation message waits job).more move
      · cases List.mem_singleton.mp new
        subst waits
        exact (traced.waiting call operation message pending job).more move

theorem traced_append (traced : Traced config moves) (more : List Move) :
    Traced config (moves ++ more) := by
  induction more generalizing moves with
  | nil =>
      rw [List.append_nil]
      exact traced
  | cons move rest ih =>
      have whole := ih (traced.step move)
      rw [List.append_assoc] at whole
      exact whole

theorem traced_run (config : RegistryConfig) (moves : List Move) : Traced config moves := by
  have nothing : Traced config [] := by
    refine ⟨?_, ?_, ?_⟩
    · intro call context handle queue value pending
      simp [run, initial, errand?] at pending
    · intro call operation message pending
      simp [run, initial, errand?] at pending
    · intro completion member
      cases member
  exact traced_append nothing moves

end ValueChannels.Traffic
