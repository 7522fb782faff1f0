import ValueChannels.Proofs.Exchange.Sections
import ValueChannels.Proofs.Graph.Leaves
import ValueChannels.Proofs.Graph.Lossless
import ValueChannels.Proofs.Transfer.Receipt
import ValueChannels.Proofs.Transfer.Refusal

/-!
What becomes of a language object that is sent without attributes. Its send is always accepted, and
whoever takes the message is given the expression, unless the arrays of its encoding nest deeper
than the reader goes: the writer has no such limit, so the receiver meets the error that the sender
did not. Main statement: `delivers_language`.
-/

namespace ValueChannels

open Pack

/-! ### The message of an expression -/

namespace Expr

/-- The item that an expression is written as when it is sent by itself. -/
def parcel (expr : Expr) : Item :=
  (Node.bare (.language expr)).toItem

theorem levels_parcel (expr : Expr) : expr.parcel.levels = max 1 expr.toItem.levels + 1 := by
  simp only [parcel, Node.bare, Node.toItem, NodeItem.toItem, Node.entryItems, Item.levels_tagged,
    Item.levels, Item.levelsAll]
  omega

theorem longest_parcel (expr : Expr) : expr.parcel.longest = max 8 expr.toItem.longest := by
  have tag : (Item.ofString "Language").longest = 8 := by decide +kernel
  simp only [parcel, Node.bare, Node.toItem, NodeItem.toItem, Node.entryItems, Item.tagged,
    Item.longest, Item.longestAll, Item.longestEntries, List.length_cons, List.length_nil, tag]
  omega

/-- The message of a language object without attributes. -/
def message (expr : Expr) : Message :=
  .encoded .language expr.parcel.write none

/-- What the receiver of an expression has: a language object with the expression, if that fits, and
an error if it is nested deeper than the reader goes. -/
structure Arrives (expr : Expr) (outcome : Outcome) (heap : Heap) : Prop where
  whole : expr.parcel.Fits → ∃ copy, outcome = .ok (some copy) ∧
    heap.body copy = .language expr ∧ heap.attributes copy = none
  unreadable : expr.parcel.longest < capacity 4 → nestingLimit < expr.parcel.levels →
    outcome = .error (.deserialization .encodedValue .unreadable)

end Expr

section Language

variable {heap : Heap} {value : Ref} {expr : Expr}

theorem Message.blobOf_language (body : heap.body value = .language expr) :
    (blobOf .packed heap value).1 = .ok expr.parcel.write := by
  have inside : value.index < heap.size := by
    apply heap.inside_of_body
    rw [body]
    exact fun impossible => nomatch impossible
  unfold blobOf
  split
  · have copied : (heap.body value).copiesToItself = false := by
      rw [body]
      rfl
    rw [heap.bareCopy_alloc copied, body]
    have leaf : (heap.alloc (.language expr)).2.leaf? (heap.alloc (.language expr)).1 =
        some (.language expr) := by
      rw [Heap.leaf?, Heap.body, Heap.get_alloc_new]
      rfl
    refine Codec.serialize_leaf leaf ?_ ?_
    · rw [Heap.attributes, Heap.get_alloc_new]
      rfl
    · rw [Heap.size_alloc]
      exact Nat.succ_pos _
  · have leaf : (heap.replaceAttributes value none).leaf? value = some (.language expr) := by
      rw [Heap.leaf?, heap.body_replaceAttributes, body]
    refine Codec.serialize_leaf leaf ?_ ?_
    · rw [Heap.attributes, heap.get_replaceAttributes_same none inside]
      rfl
    · rw [heap.size_replaceAttributes]
      exact Nat.lt_of_le_of_lt (Nat.zero_le _) inside

theorem Message.ofValue_language {context : Context} (packed : context.codec = .packed)
    (body : heap.body value = .language expr) (bare : heap.attributes value = none) :
    (ofValue context heap value).1 = .ok expr.message := by
  have encoded : (heap.body value).isEncoded = true := by
    rw [body]
    rfl
  have kind : heap.kind value = .language := congrArg Body.kind body
  have written := blobOf_language body
  rw [← packed] at written
  have accepted := accepted_encoded encoded written bare
  rw [kind] at accepted
  exact accepted

theorem Codec.unserialize_language (environments : Environments) (before : Heap)
    (short : expr.parcel.longest < capacity 4) :
    packed.unserialize environments expr.parcel.write before =
      if expr.parcel.levels ≤ nestingLimit then
        .ok (before.alloc (.language expr)).1 (before.alloc (.language expr)).2
      else .error .unreadable before := by
  have read : readPacked Node.decoder (expr.parcel.write ++ []) =
      if expr.parcel.levels ≤ nestingLimit then .ok (.bare (.language expr))
      else .error .unreadable :=
    readPacked_append (Node.numbered _ short) (Node.decodes _ _) []
  rw [List.append_nil] at read
  simp only [packed, unserializePacked, read]
  by_cases shallow : expr.parcel.levels ≤ nestingLimit
  · simp only [if_pos shallow]
    rfl
  · simp only [if_neg shallow]

end Language

/-! ### Taking the message -/

namespace Exchange

variable {exchange : Exchange} {reader : Nat} {taker : Context} {expr : Expr}

theorem arrives_finishTake (holder : exchange.contexts[reader]? = some taker)
    (packed : taker.codec = .packed) (handle : Handle) (operation : Operation) :
    expr.Arrives (exchange.finishTake reader handle operation expr.message).1
      (exchange.finishTake reader handle operation expr.message).2.heap := by
  constructor
  · intro fits
    have read := Codec.unserialize_language taker.environments exchange.heap fits.1
    rw [if_pos fits.2, ← packed] at read
    simp only [finishTake, holder, Expr.message, Message.toValue_encoded _ read]
    refine ⟨_, rfl, ?_, ?_⟩
    · exact congrArg Object.body (Heap.get_alloc_new _ _)
    · exact congrArg Object.attributes (Heap.get_alloc_new _ _)
  · intro short deep
    have read := Codec.unserialize_language taker.environments exchange.heap short
    rw [if_neg (Nat.not_le_of_lt deep), ← packed] at read
    simp only [finishTake, holder, Expr.message, Message.toValue_unreadable _ read]
    rfl

/-- The contexts are the same but for their interrupts. -/
def SameContexts (exchange after : Exchange) : Prop :=
  ∀ (index : Nat) (owner : Context), exchange.contexts[index]? = some owner →
    ∃ interrupt, after.contexts[index]? = some { owner with interrupt }

theorem sameContexts_setInterrupt (exchange : Exchange) (place : Nat)
    (interrupt : Interrupt QueueId) :
    exchange.SameContexts (exchange.setInterrupt place interrupt) := by
  intro index owner holder
  simp only [setInterrupt, modifyContext, Array.getElem?_modify, holder, Option.map_some]
  split
  · exact ⟨interrupt, rfl⟩
  · exact ⟨owner.interrupt, rfl⟩

theorem sameContexts_register (exchange : Exchange) (context : Nat) (handle : Handle)
    (queue : QueueId) (job : Job Message) :
    exchange.SameContexts (exchange.register context handle queue job).2 := by
  unfold register
  split
  · exact fun index owner holder => ⟨owner.interrupt, holder⟩
  · exact sameContexts_setInterrupt exchange context _

/-- Whoever takes the next message of a queue has what the receiver of the expression has: a call that
waits for a message, a receive that starts now, and a poll. -/
structure Delivers (exchange : Exchange) (reader : Nat) (queue : QueueId) (expr : Expr) :
    Prop where
  waits : ∀ receiving : Underway, receiving.context = reader → receiving.queue = queue →
    receiving.job = .take → ∃ outcome left,
      exchange.attempt receiving = (some outcome, left) ∧ expr.Arrives outcome left.heap
  receives : ∀ handle, exchange.channel? handle = .ok queue.channel → handle.side = queue.toward →
    ∃ receiving started outcome left,
      exchange.startReceive reader handle = (.ok receiving, started) ∧
        started.attempt receiving = (some outcome, left) ∧ expr.Arrives outcome left.heap
  polls : ∀ handle, exchange.channel? handle = .ok queue.channel → handle.side = queue.toward →
    expr.Arrives (exchange.poll reader handle).1 (exchange.poll reader handle).2.heap

variable {queue : QueueId}

theorem arrives_attempt {receiving : Underway} (job : receiving.job = .take)
    (holder : exchange.contexts[receiving.context]? = some taker) (packed : taker.codec = .packed)
    (full : exchange.queue? receiving.queue = some { item := some expr.message, closed := false }) :
    ∃ outcome left, exchange.attempt receiving = (some outcome, left) ∧
      expr.Arrives outcome left.heap := by
  simp only [attempt, full, holder, job, Slot.attempt, finish, Bool.false_eq_true, if_false]
  obtain ⟨interrupt, still⟩ := sameContexts_setInterrupt
    (exchange.setQueue receiving.queue Slot.empty) receiving.context
    (taker.interrupt.release receiving.token) receiving.context taker holder
  exact ⟨_, _, rfl, arrives_finishTake still packed receiving.handle .receive⟩

theorem arrives_startReceive {handle : Handle} (holder : exchange.contexts[reader]? = some taker)
    (packed : taker.codec = .packed)
    (found : exchange.channel? handle = .ok queue.channel) (toward : handle.side = queue.toward)
    (full : exchange.queue? queue = some { item := some expr.message, closed := false }) :
    ∃ receiving started outcome left,
      exchange.startReceive reader handle = (.ok receiving, started) ∧
        started.attempt receiving = (some outcome, left) ∧ expr.Arrives outcome left.heap := by
  have place : ({ channel := queue.channel, toward := handle.side } : QueueId) = queue := by
    rw [toward]
  obtain ⟨token, registered⟩ := exchange.register_eq reader handle queue .take
  obtain ⟨interrupt, still⟩ := exchange.sameContexts_register reader handle queue .take reader taker
    holder
  have kept := queue?_congr (exchange.layout_register reader handle queue .take) queue
  obtain ⟨outcome, left, ended, arrives⟩ : ∃ outcome left,
      (exchange.register reader handle queue .take).2.attempt
        (exchange.register reader handle queue .take).1 = (some outcome, left) ∧
          expr.Arrives outcome left.heap := by
    rw [registered]
    exact arrives_attempt rfl still packed (kept.trans full)
  refine ⟨_, _, outcome, left, ?_, ended, arrives⟩
  simp only [startReceive, found, place]

/-- The message of an expression is delivered to everybody who takes it with the packed codec. -/
theorem delivers_message (holder : exchange.contexts[reader]? = some taker)
    (packed : taker.codec = .packed)
    (full : exchange.queue? queue = some { item := some expr.message, closed := false }) :
    exchange.Delivers reader queue expr := by
  refine ⟨?_, ?_, ?_⟩
  · rintro receiving rfl rfl job
    exact arrives_attempt job holder packed full
  · intro handle found toward
    exact arrives_startReceive holder packed found toward full
  · intro handle found toward
    have place : ({ channel := queue.channel, toward := handle.side } : QueueId) = queue := by
      rw [toward]
    have still : (exchange.setQueue queue Slot.empty).contexts[reader]? = some taker := holder
    simp only [poll, found, place, pollQueue, full]
    exact arrives_finishTake still packed handle .poll

/-! ### Sending -/

section Sending

variable {context channel : Nat} {owner : Context} {handle : Handle} {value : Ref}
  (holder : exchange.contexts[context]? = some owner)
  (found : exchange.channel? handle = .ok channel)

include holder found

theorem startSend_converted {message : Message}
    (converted : (Message.ofValue owner exchange.heap value).1 = .ok message) :
    ∃ sending started, exchange.startSend context handle value = (.ok sending, started) ∧
      sending.context = context ∧ sending.queue = { channel, toward := handle.side.other } ∧
      sending.job = .deposit message ∧ started.layout = exchange.layout ∧
      exchange.SameContexts started := by
  cases ended : Message.ofValue owner exchange.heap value with
  | mk result heap =>
      rw [ended] at converted
      cases converted
      let sent : Exchange := { exchange with heap }
      let queue : QueueId := { channel, toward := handle.side.other }
      obtain ⟨token, registered⟩ := sent.register_eq context handle queue (.deposit message)
      refine ⟨{ context, handle, queue, token, job := .deposit message },
        (sent.register context handle queue (.deposit message)).2, ?_, rfl, rfl, rfl,
        sent.layout_register context handle queue (.deposit message),
        sent.sameContexts_register context handle queue (.deposit message)⟩
      simp only [startSend, found, convertSend, holder, ended]
      rw [← registered]

/-- The send of a value that is not converted ends there, and no queue is touched. -/
theorem startSend_refused {err : ChannelError}
    (refused : (Message.ofValue owner exchange.heap value).1 = .error err) :
    ∃ failed, exchange.startSend context handle value = (.error err, failed) ∧
      ∀ queue, failed.queue? queue = exchange.queue? queue := by
  cases ended : Message.ofValue owner exchange.heap value with
  | mk result heap =>
      rw [ended] at refused
      cases refused
      have fails : exchange.startSend context handle value =
          { exchange with heap }.failSend handle err := by
        simp only [startSend, found, convertSend, holder, ended]
      exact ⟨_, fails, fun _ => rfl⟩

end Sending

theorem attempt_deposit {owner : Context} {sending : Underway} {message : Message}
    (job : sending.job = .deposit message)
    (holder : exchange.contexts[sending.context]? = some owner)
    (empty : exchange.queue? sending.queue = some Slot.empty) :
    ∃ sent, exchange.attempt sending = (some (.ok none), sent) ∧ exchange.SameContexts sent ∧
      sent.registry.table = exchange.registry.table := by
  simp only [attempt, empty, holder, job, Slot.attempt, Slot.empty, finish, Bool.false_eq_true,
    if_false]
  exact ⟨_, rfl, sameContexts_setInterrupt (exchange.setQueue sending.queue _) _ _, rfl⟩

theorem queue?_deposited {waiting sent : Exchange} {sending : Underway} {message : Message}
    {result : Option Ref} (job : sending.job = .deposit message)
    (ended : waiting.attempt sending = (some (.ok result), sent)) :
    sent.queue? sending.queue = some { item := some message, closed := false } := by
  have happened := waiting.attempted sending
  rw [ended] at happened
  generalize waiting.taken? sending = taken at happened
  cases happened with
  | deposited put _ does _ _ filled =>
      cases job.symm.trans does
      exact filled
  | took _ _ _ does =>
      cases job.symm.trans does

/-- A language object without attributes is accepted, and once its send has ended well the message in
the queue is delivered; a value that the codec does not carry is refused to its sender, and nothing
is put into any queue. -/
theorem delivers_language {context channel : Nat} {owner : Context} {handle : Handle}
    (holder : exchange.contexts[context]? = some owner)
    (found : exchange.channel? handle = .ok channel) (value : Ref) :
    (∀ expr, owner.codec = .packed → exchange.heap.body value = .language expr →
      exchange.heap.attributes value = none →
        ∃ sending started, exchange.startSend context handle value = (.ok sending, started) ∧
          sending.queue = { channel, toward := handle.side.other } ∧
          ∀ (waiting sent later : Exchange) result reader taker,
            waiting.attempt sending = (some (.ok result), sent) →
              later.queue? sending.queue = sent.queue? sending.queue →
                later.contexts[reader]? = some taker → taker.codec = .packed →
                  later.Delivers reader sending.queue expr) ∧
    (∀ reason, (exchange.heap.body value).isEncoded = true →
      (Message.blobOf owner.codec exchange.heap value).1 = .error reason → reason ≠ .endless →
        (exchange.startSend context handle value).1 =
          .error (.serialization (exchange.heap.kind value) reason)) ∧
    ∀ err, (Message.ofValue owner exchange.heap value).1 = .error err →
      err.Refuses ∧ ∃ failed, exchange.startSend context handle value = (.error err, failed) ∧
        ∀ queue, failed.queue? queue = exchange.queue? queue := by
  refine ⟨?_, ?_, ?_⟩
  · intro expr packed body bare
    obtain ⟨sending, started, sends, _, place, job, _⟩ :=
      startSend_converted holder found (Message.ofValue_language packed body bare)
    refine ⟨sending, started, sends, place, ?_⟩
    intro waiting sent later result reader taker ended kept known reads
    exact delivers_message known reads (kept.trans (queue?_deposited job ended))
  · intro reason encoded unwritten ending
    obtain ⟨failed, fails, _⟩ :=
      startSend_refused holder found (Message.refused_encoded encoded unwritten ending)
    rw [fails]
  · intro err refused
    exact ⟨Message.refuses_ofValue refused, startSend_refused holder found refused⟩

/-- Two contexts with the packed codec, a channel with the key 1, and a language object. -/
def paired (expr : Expr) : Exchange :=
  let (_, exchange) := (initial (Registry.ofConfig .standard)).addContext "a" .packed
  let (_, exchange) := exchange.addContext "b" .packed
  let (_, exchange) := exchange.create 1
  { exchange with heap := (exchange.heap.alloc (.language expr)).2 }

theorem sent_paired (expr : Expr) : ∃ sending started sent taker,
    (paired expr).startSend 0 { slot := 1, side := .master } ⟨10⟩ = (.ok sending, started) ∧
      started.attempt sending = (some (.ok none), sent) ∧
      sending.job = .deposit expr.message ∧ sending.queue = { channel := 0, toward := .worker } ∧
      sent.channel? { slot := 1, side := .worker } = .ok 0 ∧
      sent.contexts[1]? = some taker ∧ taker.codec = .packed := by
  obtain ⟨owner, holder, packed⟩ : ∃ owner, (paired expr).contexts[0]? = some owner ∧
      owner.codec = .packed := ⟨_, rfl, rfl⟩
  obtain ⟨reader, known, reads⟩ : ∃ reader, (paired expr).contexts[1]? = some reader ∧
      reader.codec = .packed := ⟨_, rfl, rfl⟩
  have found : (paired expr).channel? { slot := 1, side := .master } = .ok 0 := rfl
  have body : (paired expr).heap.body ⟨10⟩ = .language expr := rfl
  obtain ⟨sending, started, sends, ofContext, place, job, layout, same⟩ :=
    startSend_converted holder found (Message.ofValue_language packed body rfl)
  obtain ⟨interrupt, still⟩ := same 0 owner holder
  rw [← ofContext] at still
  have empty : started.queue? sending.queue = some Slot.empty := by
    rw [queue?_congr layout, place]
    rfl
  obtain ⟨sent, ended, same', table⟩ := attempt_deposit job still empty
  obtain ⟨interrupt', known'⟩ := same 1 reader known
  obtain ⟨interrupt'', known''⟩ := same' 1 _ known'
  refine ⟨sending, started, sent, _, sends, ended, job, place, ?_, known'', reads⟩
  rw [channel?_eq_ok, table, (SameSlots.of_layout layout).table]
  rfl

/-- A symbol that is sent on the channel of `paired` is received on its other side. -/
theorem delivers_symbol : ∃ sending started sent receiving ready copy left,
    (paired (.symbol "x")).startSend 0 { slot := 1, side := .master } ⟨10⟩ =
        (.ok sending, started) ∧
      started.attempt sending = (some (.ok none), sent) ∧
      sent.startReceive 1 { slot := 1, side := .worker } = (.ok receiving, ready) ∧
      ready.attempt receiving = (some (.ok (some copy)), left) ∧
      left.heap.body copy = .language (.symbol "x") := by
  obtain ⟨sending, started, sent, taker, sends, ended, _, place, found, known, reads⟩ :=
    sent_paired (.symbol "x")
  obtain ⟨owner, holder, packed⟩ : ∃ owner, (paired (.symbol "x")).contexts[0]? = some owner ∧
      owner.codec = .packed := ⟨_, rfl, rfl⟩
  have opened : (paired (.symbol "x")).channel? { slot := 1, side := .master } = .ok 0 := rfl
  obtain ⟨sending', started', sends', _, delivers⟩ :=
    (delivers_language holder opened ⟨10⟩).1 (.symbol "x") packed rfl rfl
  cases sends.symm.trans sends'
  have given := delivers started sent sent none 1 taker ended rfl known reads
  obtain ⟨receiving, ready, outcome, left, starts, taken, arrives⟩ :=
    given.receives { slot := 1, side := .worker } (by rw [place]; exact found) (by rw [place])
  have fits : (Expr.symbol "x").parcel.Fits := by decide +kernel
  obtain ⟨copy, same, body, _⟩ := arrives.whole fits
  subst same
  exact ⟨sending, started, sent, receiving, ready, copy, left, sends, ended, starts, taken, body⟩

end Exchange

/-! ### Expressions that are too deep -/

/-- A symbol as the argument of so many calls. -/
def Expr.nested : Nat → Expr
  | 0 => .symbol "x"
  | count + 1 => .call (.symbol "f") [{ name := none, value := nested count }]

theorem Expr.measures_nested (count : Nat) :
    (nested count).toItem.levels = 3 * count ∧ (nested count).toItem.longest = 6 := by
  induction count with
  | zero => decide +kernel
  | succ count ih =>
      obtain ⟨levels, longest⟩ := ih
      have tag : (Item.ofString "Call").longest = 4 := by decide +kernel
      have name : (Item.ofString "f").longest = 1 := by decide +kernel
      have symbol : (Item.ofString "Symbol").longest = 6 := by decide +kernel
      constructor
      · simp only [nested, toItem, argumentItems, Item.levels_tagged, Item.levels_ofString,
          Item.levels, Item.levelsAll, levels]
        omega
      · simp only [nested, toItem, argumentItems, Item.tagged, Item.longest, Item.longestAll,
          Item.longestEntries, List.length_cons, List.length_nil, longest, tag, name, symbol]
        omega

namespace Exchange

/-- An expression of 341 nested calls is accepted, and the context that takes it cannot read it. -/
theorem accepted_unreadable : ∃ sending started sent receiving ready left,
    (paired (.nested 341)).heap.body ⟨10⟩ = .language (.nested 341) ∧
      (paired (.nested 341)).startSend 0 { slot := 1, side := .master } ⟨10⟩ =
        (.ok sending, started) ∧
      started.attempt sending = (some (.ok none), sent) ∧
      sent.channel? { slot := 1, side := .worker } = .ok 0 ∧
      sent.startReceive 1 { slot := 1, side := .worker } = (.ok receiving, ready) ∧
      ready.attempt receiving =
        (some (.error (.deserialization .encodedValue .unreadable)), left) := by
  obtain ⟨sending, started, sent, taker, sends, ended, job, place, found, known, reads⟩ :=
    sent_paired (.nested 341)
  have delivers := delivers_message known reads (queue?_deposited job ended)
  obtain ⟨receiving, ready, outcome, left, starts, taken, arrives⟩ :=
    delivers.receives { slot := 1, side := .worker } (by rw [place]; exact found) (by rw [place])
  obtain ⟨levels, longest⟩ := Expr.measures_nested 341
  have short : (Expr.nested 341).parcel.longest < capacity 4 := by
    rw [Expr.longest_parcel, longest]
    decide
  have deep : nestingLimit < (Expr.nested 341).parcel.levels := by
    rw [Expr.levels_parcel, levels]
    decide
  rw [arrives.unreadable short deep] at taken
  exact ⟨sending, started, sent, receiving, ready, left, rfl, sends, ended, found, starts, taken⟩

end Exchange

end ValueChannels
