import ValueChannels.Proofs.Transfer.Isolation
import ValueChannels.Proofs.Transfer.Receipt

/-!
What has been handed over stays frozen. Programs hold values in any number of contexts, update them
through handles, define names, deliver promises, encode and decode, prepare messages and materialize
each once. What waits in a prepared message is hidden from all of them. Main statements:
`Step.continues` for single steps, `stays_frozen` for whole runs.
-/

namespace ValueChannels

/-- What programs have come to: the heap, the values that they hold, and the messages that were
prepared and not yet materialized. -/
structure World where
  heap : Heap
  held : List Ref
  mail : List Message

namespace World

def initial : World :=
  { heap := Heap.initial, held := [Ref.null, Ref.unbound], mail := [] }

/-- A value comes to be held. -/
def hold (world : World) (ref : Ref) (heap : Heap) : World :=
  { world with heap, held := ref :: world.held }

def create (world : World) (body : Body) : World :=
  world.hold (world.heap.alloc body).1 (world.heap.alloc body).2

/-- One operation on values that are held. Contexts have their environments in the heap; those that
decode have a codec that only makes new objects. -/
inductive Step : World → World → Prop where
  | create {world : World} {body : Body} (proper : body.isSingleton = false)
      (parts : ∀ child ∈ body.children, child ∈ world.held) : Step world (world.create body)
  | look {world : World} {ref child : Ref} (holds : ref ∈ world.held)
      (member : child ∈ (world.heap.get ref).children) : Step world (world.hold child world.heap)
  | setAttribute {world : World} {handle value : Ref} (name : String) (holds : handle ∈ world.held)
      (has : value ∈ world.held) :
      Step world (world.hold (world.heap.setAttribute handle name value).1
        (world.heap.setAttribute handle name value).2)
  | setElement {world : World} {handle value : Ref} (index : Nat) (holds : handle ∈ world.held)
      (has : value ∈ world.held) :
      Step world (world.hold (world.heap.setElement handle index value).handle
        (world.heap.setElement handle index value).heap)
  | pushElement {world : World} {handle value : Ref} (holds : handle ∈ world.held)
      (has : value ∈ world.held) :
      Step world (world.hold (world.heap.pushElement handle value).handle
        (world.heap.pushElement handle value).heap)
  | updateVector {world : World} {handle : Ref} (change : AtomicVector → AtomicVector)
      (holds : handle ∈ world.held) :
      Step world (world.hold (world.heap.updateVector handle change).handle
        (world.heap.updateVector handle change).heap)
  | define {world : World} {env value : Ref} (name : String) (holds : env ∈ world.held)
      (has : value ∈ world.held) :
      Step world { world with heap := world.heap.define env name value }
  | setParent {world : World} {env parent : Ref} (holds : env ∈ world.held)
      (has : parent ∈ world.held) :
      Step world { world with heap := world.heap.setParent env parent }
  | fulfil {world : World} {promise value : Ref} (holds : promise ∈ world.held)
      (has : value ∈ world.held) :
      Step world { world with heap := (world.heap.fulfil promise value).2 }
  | serialize (world : World) (context : Context) (ref : Ref) : Step world world
  | unserialize {world : World} {context : Context} {blob : Bytes} {ref : Ref} {heap : Heap}
      (lives : context.environments.Sound world.heap) (codec : context.codec.Secluded)
      (read : context.codec.unserialize context.environments blob world.heap = .ok ref heap) :
      Step world (world.hold ref heap)
  | unreadable {world : World} {context : Context} {blob : Bytes} {reason : CodecError}
      {heap : Heap} (lives : context.environments.Sound world.heap)
      (codec : context.codec.Secluded)
      (read : context.codec.unserialize context.environments blob world.heap =
        .error reason heap) : Step world { world with heap }
  | prepare {world : World} {context : Context} {ref : Ref} {message : Message} {heap : Heap}
      (lives : context.environments.Sound world.heap) (holds : ref ∈ world.held)
      (converted : Message.ofValue context world.heap ref = (.ok message, heap)) :
      Step world { world with heap, mail := message :: world.mail }
  | refuse {world : World} {context : Context} {ref : Ref} {reason : ChannelError} {heap : Heap}
      (lives : context.environments.Sound world.heap) (holds : ref ∈ world.held)
      (converted : Message.ofValue context world.heap ref = (.error reason, heap)) :
      Step world { world with heap }
  | materialize {world : World} {context : Context} {front back : List Message}
      {message : Message} {ref : Ref} {heap : Heap}
      (lives : context.environments.Sound world.heap) (codec : context.codec.Secluded)
      (waits : world.mail = front ++ message :: back)
      (built : Message.toValue context world.heap message = (.ok ref, heap)) :
      Step world { heap, held := ref :: world.held, mail := front ++ back }
  | lose {world : World} {context : Context} {front back : List Message} {message : Message}
      {reason : ChannelError} {heap : Heap}
      (lives : context.environments.Sound world.heap) (codec : context.codec.Secluded)
      (waits : world.mail = front ++ message :: back)
      (built : Message.toValue context world.heap message = (.error reason, heap)) :
      Step world { world with heap, mail := front ++ back }

/-- A run in which no attribute is set on a singleton. -/
inductive Run (start : World) : World → Prop where
  | refl : Run start start
  | step {middle last : World} (before : Run start middle) (taken : Step middle last)
      (bare : last.heap.Bare) : Run start last

/-- What belongs to a message that waits. -/
def Hidden (world : World) (ref : Ref) : Prop :=
  ∃ message ∈ world.mail, message.Writes ref

/-- The message has nothing to do with the ones that remain when it is built. -/
structure Released (world : World) (message : Message) (rest : List Message) : Prop where
  fewer : rest.Sublist world.mail
  mentioned : ∀ ref, message.Mentions ref → ref.index < world.heap.size
  written : ∀ ref, message.Writes ref → world.Hidden ref
  others : ∀ other ∈ rest, ∀ ref, message.Mentions ref → ¬other.Writes ref

/-- What building the message may write to: what belongs to it, and what is new. -/
def Written (world : World) (message : Message) (ref : Ref) : Prop :=
  message.Writes ref ∨ world.heap.size ≤ ref.index

/-- The order that all steps keep. Nobody refers to what a message is going to write to, which is
no other message's, and a copy of a vector or a list. -/
structure Orderly (world : World) : Prop where
  closed : world.heap.Closed world.Hidden
  held : ∀ ref ∈ world.held, world.heap.Public world.Hidden ref
  mentions : ∀ message ∈ world.mail, ∀ ref, message.Mentions ref → ref.index < world.heap.size
  copies : ∀ ref, world.Hidden ref →
    (world.heap.body ref).isData = true ∧ (world.heap.body ref).copiesToItself = false
  apart : world.mail.Pairwise fun first second => ∀ ref,
    (first.Mentions ref → ¬second.Writes ref) ∧ (second.Mentions ref → ¬first.Writes ref)
  singleton : ∀ ref, ref = Ref.null ∨ ref = Ref.unbound →
    world.heap.isShared ref = true ∧ (world.heap.body ref).isSingleton = true
  bare : world.heap.Bare

/-- The later world keeps to the order, shows what was shown before, and has the shared data of
the earlier one as it was. -/
structure Continues (before after : World) : Prop where
  orderly : after.Orderly
  size : before.heap.size ≤ after.heap.size
  shown : ∀ ref, before.heap.Public before.Hidden ref → after.heap.Public after.Hidden ref
  same : ∀ ref, before.heap.Public before.Hidden ref → before.heap.SharedData ref →
    after.heap.get ref = before.heap.get ref
  environments : ∀ environments : Environments, environments.Sound before.heap →
    environments.Sound after.heap

variable {world before middle after : World} {heap : Heap} {ref : Ref}

theorem orderly_initial : initial.Orderly := by
  have empty (ref : Ref) : ¬initial.Hidden ref := by
    intro hidden
    obtain ⟨message, member, _⟩ := hidden
    cases member
  constructor
  · intro ref child member
    by_cases inside : ref.index < initial.heap.size
    · exact ⟨Heap.sound_initial.closed ref inside child member, empty child⟩
    · exact (Heap.children_outside (Nat.le_of_not_lt inside) member).elim
  · intro ref member
    refine ⟨?_, empty ref⟩
    rcases List.mem_cons.mp member with same | other
    · rw [same]
      decide
    · rw [List.mem_singleton.mp other]
      decide
  · intro message impossible
    cases impossible
  · intro ref hidden
    exact absurd hidden (empty ref)
  · exact .nil
  · intro ref singleton
    rcases singleton with same | same
    · rw [same]
      exact ⟨rfl, rfl⟩
    · rw [same]
      exact ⟨rfl, rfl⟩
  · intro ref _
    obtain ⟨index⟩ := ref
    match index with
    | 0 => rfl
    | 1 => rfl
    | index + 2 =>
        have outside : initial.heap.size ≤ (⟨index + 2⟩ : Ref).index := Nat.le_add_left 2 index
        rw [Heap.attributes, Heap.get_outside _ outside]
        rfl

theorem Hidden.of_sublist {rest : List Message} (fewer : rest.Sublist world.mail)
    (hidden : World.Hidden { world with mail := rest } ref) : world.Hidden ref := by
  obtain ⟨other, member, writes⟩ := hidden
  exact ⟨other, fewer.subset member, writes⟩

namespace Orderly

theorem inside (orderly : world.Orderly) (hidden : world.Hidden ref) :
    ref.index < world.heap.size := by
  obtain ⟨message, member, writes⟩ := hidden
  exact orderly.mentions message member ref writes.mentions

theorem isPublic_environment (orderly : world.Orderly) {environments : Environments}
    (sound : environments.Sound world.heap) {kind : EnvironmentKind}
    (found : environments.find? kind = some ref) : world.heap.Public world.Hidden ref := by
  refine ⟨sound.inside found, ?_⟩
  intro hidden
  obtain ⟨frame, body, _⟩ := sound kind ref found
  have data := (orderly.copies ref hidden).1
  rw [body] at data
  cases data

theorem isPublic_singleton (orderly : world.Orderly)
    (singleton : ref = Ref.null ∨ ref = Ref.unbound) : world.heap.Public world.Hidden ref := by
  have here := orderly.singleton ref singleton
  refine ⟨Heap.inside_of_shared here.1, ?_⟩
  intro hidden
  have itself := Body.copiesToItself_of_isSingleton here.2
  rw [(orderly.copies ref hidden).2] at itself
  cases itself

/-- A step that leaves no more messages than there were, and writes to nothing that was public. -/
theorem later (orderly : world.Orderly) {mine : Ref → Prop} {rest : List Message}
    {held : List Ref} (fewer : rest.Sublist world.mail)
    (spared : ∀ ref, world.heap.Public world.Hidden ref → ¬mine ref)
    (upholds : Heap.Upholds (World.Hidden { world with mail := rest }) mine world.heap heap)
    (isPublic : ∀ ref ∈ held, heap.Public (World.Hidden { world with mail := rest }) ref)
    (bare : heap.Bare) : Continues world { heap, held, mail := rest } := by
  have shown {ref : Ref} (early : world.heap.Public world.Hidden ref) :
      world.heap.Public (World.Hidden { world with mail := rest }) ref :=
    ⟨early.1, fun hidden => early.2 (Hidden.of_sublist fewer hidden)⟩
  have same {ref : Ref} (early : world.heap.Public world.Hidden ref)
      (shared : world.heap.SharedData ref) : heap.get ref = world.heap.get ref :=
    Heap.Stays.get_eq (upholds.same ref shared (spared ref early)) shared.1 orderly.bare bare
  constructor
  · constructor
    · exact upholds.closed fun ref child member => shown (orderly.closed ref child member)
    · exact isPublic
    · intro message member ref mentions
      have early := orderly.mentions message (fewer.subset member) ref mentions
      exact Nat.lt_of_lt_of_le early upholds.size
    · intro ref hidden
      have before := Hidden.of_sublist fewer hidden
      have kept := upholds.covered ref (orderly.inside before) hidden
      show (heap.body ref).isData = true ∧ (heap.body ref).copiesToItself = false
      rw [kept]
      exact orderly.copies ref before
    · exact orderly.apart.sublist fewer
    · intro ref singleton
      have here := orderly.singleton ref singleton
      have kept := same (orderly.isPublic_singleton singleton)
        ⟨here.1, Body.isData_of_isSingleton here.2⟩
      show (heap.get ref).shared = true ∧ (heap.get ref).body.isSingleton = true
      rw [kept]
      exact here
    · exact bare
  · exact upholds.size
  · intro ref early
    exact (shown early).later upholds.size
  · intro ref
    exact same
  · intro environments sound kind ref found
    obtain ⟨frame, body, kind'⟩ := sound kind ref found
    have early := orderly.isPublic_environment sound found
    obtain ⟨frame', body', kind''⟩ := upholds.frame ref frame (spared ref early) body
    exact ⟨frame', body', kind''.trans kind'⟩

/-- A step that leaves the messages where they are. -/
theorem continues (orderly : world.Orderly)
    (upholds : Heap.Upholds world.Hidden (fun _ => False) world.heap heap) {held : List Ref}
    (isPublic : ∀ ref ∈ held, heap.Public world.Hidden ref) (bare : heap.Bare) :
    Continues world { world with heap, held } :=
  orderly.later (.refl _) (fun _ _ => id) upholds isPublic bare

theorem continues_hold (orderly : world.Orderly)
    (upholds : Heap.Upholds world.Hidden (fun _ => False) world.heap heap)
    (isPublic : heap.Public world.Hidden ref) (bare : heap.Bare) :
    Continues world (world.hold ref heap) := by
  apply orderly.continues upholds _ bare
  intro other member
  rcases List.mem_cons.mp member with same | held
  · rw [same]
    exact isPublic
  · exact (orderly.held other held).later upholds.size

theorem continues_heap (orderly : world.Orderly)
    (upholds : Heap.Upholds world.Hidden (fun _ => False) world.heap heap) (bare : heap.Bare) :
    Continues world { world with heap } :=
  orderly.continues upholds (fun ref member => (orderly.held ref member).later upholds.size) bare

theorem continues_moves (orderly : world.Orderly) {handle target : Ref}
    (holds : handle ∈ world.held)
    (moves : Heap.Moves world.Hidden (fun _ => False) world.heap handle target heap)
    (bare : heap.Bare) : Continues world (world.hold target heap) :=
  orderly.continues_hold moves.upholds
    (moves.isPublic (fun _ => orderly.inside) (orderly.held handle holds)) bare

theorem conversion (orderly : world.Orderly) {context : Context}
    {outcome : Except ChannelError Message} (lives : context.environments.Sound world.heap)
    (holds : ref ∈ world.held)
    (converted : Message.ofValue context world.heap ref = (outcome, heap)) :
    Heap.Surveyed (fun ref => world.Hidden ref ∨ world.heap.size ≤ ref.index) world.heap heap ∧
      ∀ message, outcome = .ok message →
        Message.Carries (fun ref => world.Hidden ref ∨ world.heap.size ≤ ref.index)
          world.heap.size heap message ∧
        ∀ value, message = .plain value →
          value = ref ∧ heap.Frozen (Node.depthBound world.heap) ref := by
  have isPublic := orderly.held ref holds
  have found : context.environments.find? .global = some context.environments.global := rfl
  have global := orderly.isPublic_environment lives found
  apply Message.handed_ofValue ⟨orderly.closed.later, orderly.bare, Nat.le_refl _⟩ _ global.1 _
    converted
  · refine ⟨isPublic.1, ?_⟩
    intro isHidden
    rcases isHidden with early | new
    · exact isPublic.2 early
    · exact Nat.not_le_of_lt isPublic.1 new
  · intro isHidden
    rcases isHidden with early | new
    · exact global.2 early
    · exact Nat.not_le_of_lt global.1 new

theorem continues_prepare (orderly : world.Orderly) {message : Message}
    (surveyed : Heap.Surveyed (fun ref => world.Hidden ref ∨ world.heap.size ≤ ref.index)
      world.heap heap)
    (carries : Message.Carries (fun ref => world.Hidden ref ∨ world.heap.size ≤ ref.index)
      world.heap.size heap message) :
    Continues world { world with heap, mail := message :: world.mail } := by
  have upholds := surveyed.upholds.of_later
  have rest := orderly.continues_heap upholds (surveyed.bare orderly.bare)
  have hidden {ref : Ref} (isHidden : World.Hidden { world with heap, mail := message :: world.mail }
      ref) : message.Writes ref ∨ world.Hidden ref := by
    obtain ⟨other, member, writes⟩ := isHidden
    rcases List.mem_cons.mp member with same | waits
    · rw [← same]
      exact Or.inl writes
    · exact Or.inr ⟨other, waits, writes⟩
  -- The copies of the message are new, so nothing that was public is hidden by them.
  have shown {ref : Ref} (isPublic : world.heap.Public world.Hidden ref) :
      heap.Public (World.Hidden { world with heap, mail := message :: world.mail }) ref := by
    refine ⟨Nat.lt_of_lt_of_le isPublic.1 upholds.size, ?_⟩
    intro isHidden
    rcases hidden isHidden with own | other
    · exact Nat.not_le_of_lt isPublic.1 (carries.writes ref own).1
    · exact isPublic.2 other
  constructor
  · constructor
    · intro ref child member
      have isPublic := surveyed.upholds.closed orderly.closed.later ref child member
      refine ⟨isPublic.1, ?_⟩
      intro isHidden
      rcases hidden isHidden with own | other
      · exact isPublic.2 (Or.inr (carries.writes child own).1)
      · exact isPublic.2 (Or.inl other)
    · intro ref member
      exact shown (orderly.held ref member)
    · intro other member ref mentions
      rcases List.mem_cons.mp member with same | waits
      · rw [same] at mentions
        exact (carries.mentions ref mentions).1
      · exact rest.orderly.mentions other waits ref mentions
    · intro ref isHidden
      rcases hidden isHidden with own | other
      · exact (carries.writes ref own).2
      · exact rest.orderly.copies ref other
    · apply List.Pairwise.cons _ orderly.apart
      intro other waits ref
      constructor
      · intro mentions writes
        rcases (carries.mentions ref mentions).2 with own | free
        · have early := orderly.mentions other waits ref writes.mentions
          exact Nat.not_le_of_lt early (carries.writes ref own).1
        · exact free (Or.inl ⟨other, waits, writes⟩)
      · intro mentions writes
        have early := orderly.mentions other waits ref mentions
        exact Nat.not_le_of_lt early (carries.writes ref writes).1
    · exact rest.orderly.singleton
    · exact rest.orderly.bare
  · exact rest.size
  · intro ref
    exact shown
  · exact rest.same
  · exact rest.environments

end Orderly

namespace Released

variable {context : Context} {rest : List Message} {message : Message}
  (released : Released world message rest)

include released

theorem not_written (isPublic : world.heap.Public world.Hidden ref) : ¬world.Written message ref := by
  intro own
  rcases own with writes | new
  · exact isPublic.2 (released.written ref writes)
  · exact Nat.not_le_of_lt isPublic.1 new

theorem ground (orderly : world.Orderly) (lives : context.environments.Sound world.heap)
    (codec : context.codec.Secluded) :
    Message.Ground (World.Hidden { world with mail := rest }) (world.Written message)
      world.heap.size context := by
  have shown {ref : Ref} (isPublic : world.heap.Public world.Hidden ref) :
      ¬world.Written message ref ∧ ¬World.Hidden { world with mail := rest } ref :=
    ⟨not_written released isPublic, fun hidden => isPublic.2 (Hidden.of_sublist released.fewer hidden)⟩
  constructor
  · intro ref new
    exact Or.inr new
  · intro ref own hidden
    rcases own with writes | new
    · obtain ⟨other, member, writes'⟩ := hidden
      exact released.others other member ref writes.mentions writes'
    · exact Nat.not_le_of_lt (orderly.inside (Hidden.of_sublist released.fewer hidden)) new
  · intro ref singleton
    exact shown (orderly.isPublic_singleton singleton)
  · intro ref owns
    obtain ⟨kind, found⟩ := owns
    exact shown (orderly.isPublic_environment lives found)
  · exact codec

theorem fitting (orderly : world.Orderly) (lives : context.environments.Sound world.heap) :
    Message.Fitting (World.Hidden { world with mail := rest }) world.heap.size context
      { heap := world.heap, environments := [] } := by
  constructor
  · exact Nat.le_refl _
  · intro ref child member
    have isPublic := orderly.closed ref child member
    exact ⟨isPublic.1, fun hidden => isPublic.2 (Hidden.of_sublist released.fewer hidden)⟩
  · exact orderly.singleton
  · exact lives
  · intro entry impossible
    cases impossible

theorem suits : Message.Suits (World.Hidden { world with mail := rest }) (world.Written message)
    world.heap.size message := by
  constructor
  · intro ref mentions
    refine ⟨released.mentioned ref mentions, ?_⟩
    intro hidden
    obtain ⟨other, member, writes⟩ := hidden
    exact released.others other member ref mentions writes
  · intro ref writes
    exact Or.inl writes

/-- A message is built, or fails to be. What it wrote to is hidden no more. -/
theorem continues_build (orderly : world.Orderly) {outcome : Except ChannelError Ref}
    {held : List Ref} (lives : context.environments.Sound world.heap)
    (codec : context.codec.Secluded)
    (built : Message.toValue context world.heap message = (outcome, heap))
    (results : ∀ ref ∈ held, ref ∈ world.held ∨ outcome = .ok ref) (bare : heap.Bare) :
    Continues world { heap, held, mail := rest } := by
  have fitting := fitting released orderly lives
  obtain ⟨upholds, result⟩ := Message.upholds_toValue (ground released orderly lives codec)
    (suits released) fitting built
  apply orderly.later released.fewer (fun _ => not_written released) upholds _ bare
  intro ref member
  rcases results ref member with before | built
  · have isPublic := orderly.held ref before
    exact ⟨Nat.lt_of_lt_of_le isPublic.1 upholds.size,
      fun hidden => isPublic.2 (Hidden.of_sublist released.fewer hidden)⟩
  · exact result ref built

end Released

theorem Orderly.released (orderly : world.Orderly) {front back : List Message} {message : Message}
    (waits : world.mail = front ++ message :: back) :
    Released world message (front ++ back) := by
  have waiting : message ∈ world.mail := by
    rw [waits]
    exact List.mem_append_right front List.mem_cons_self
  constructor
  · rw [waits]
    exact (List.sublist_cons_self message back).append_left front
  · exact orderly.mentions message waiting
  · intro ref writes
    exact ⟨message, waiting, writes⟩
  · intro other member ref
    have apart := orderly.apart
    rw [waits, List.pairwise_append, List.pairwise_cons] at apart
    rcases List.mem_append.mp member with early | late
    · exact (apart.2.2 other early message List.mem_cons_self ref).2
    · exact (apart.2.1.1 other late ref).1

theorem released_bytes (world : World) (blob : Bytes) :
    Released world (.encoded .language blob none) world.mail := by
  have nothing {ref : Ref} (mentions : Message.Mentions (.encoded .language blob none) ref) :
      False := by
    cases mentions with
    | own member => cases member
    | part member => cases member
  constructor
  · exact .refl _
  · intro ref mentions
    exact (nothing mentions).elim
  · intro ref writes
    exact (nothing writes.mentions).elim
  · intro other _ ref mentions
    exact (nothing mentions).elim

/-- Every step keeps the order and the shared data, as long as singletons have no attributes. -/
theorem Step.continues (step : Step before after) (orderly : before.Orderly)
    (bare : after.heap.Bare) : Continues before after := by
  have room := fun ref (hidden : before.Hidden ref) => orderly.inside hidden
  cases step with
  | @create body proper parts =>
      apply orderly.continues_hold _ _ bare
      · apply Heap.Upholds.alloc
        intro _ child member
        exact orderly.held child (parts child member)
      · refine ⟨?_, fun hidden => ?_⟩
        · exact before.heap.inside_alloc body
        · have inside := orderly.inside hidden
          rw [before.heap.index_alloc] at inside
          exact Nat.lt_irrefl _ inside
  | look holds member =>
      exact orderly.continues_hold (.refl _ _ _) (orderly.closed _ _ member) bare
  | setAttribute name holds has =>
      exact orderly.continues_moves holds
        (Heap.moves_setAttribute _ room (orderly.held _ holds) name (orderly.held _ has)) bare
  | setElement index holds has =>
      exact orderly.continues_moves holds
        (Heap.moves_setElement _ room (orderly.held _ holds) index (orderly.held _ has)) bare
  | pushElement holds has =>
      exact orderly.continues_moves holds
        (Heap.moves_pushElement _ room (orderly.held _ holds) (orderly.held _ has)) bare
  | updateVector change holds =>
      exact orderly.continues_moves holds
        (Heap.moves_updateVector _ room (orderly.held _ holds) change) bare
  | define name holds has =>
      exact orderly.continues_heap
        (.define name (orderly.held _ holds).2 (orderly.held _ has)) bare
  | setParent holds has =>
      exact orderly.continues_heap (.setParent (orderly.held _ holds).2 (orderly.held _ has)) bare
  | fulfil holds has =>
      exact orderly.continues_heap (.fulfil (orderly.held _ holds).2 (orderly.held _ has)) bare
  | serialize => exact orderly.continues_heap (.refl _ _ _) bare
  -- A codec is taken for the receiver of a message that holds nothing but the bytes.
  | @unserialize context blob ref heap lives codec read =>
      apply (released_bytes before blob).continues_build orderly lives codec
        (Message.toValue_encoded blob read) _ bare
      intro other member
      rcases List.mem_cons.mp member with same | held
      · rw [same]
        exact Or.inr rfl
      · exact Or.inl held
  | unreadable lives codec read =>
      exact (released_bytes before _).continues_build orderly lives codec
        (Message.toValue_unreadable _ read) (fun _ => Or.inl) bare
  | prepare lives holds converted =>
      obtain ⟨surveyed, sent⟩ := orderly.conversion lives holds converted
      exact orderly.continues_prepare surveyed (sent _ rfl).1
  | refuse lives holds converted =>
      obtain ⟨surveyed, _⟩ := orderly.conversion lives holds converted
      exact orderly.continues_heap surveyed.upholds.of_later bare
  | materialize lives codec waits built =>
      apply (orderly.released waits).continues_build orderly lives codec built _ bare
      intro ref member
      rcases List.mem_cons.mp member with same | held
      · rw [same]
        exact Or.inr rfl
      · exact Or.inl held
  | lose lives codec waits built =>
      exact (orderly.released waits).continues_build orderly lives codec built (fun _ => Or.inl)
        bare

theorem Continues.refl (orderly : world.Orderly) : Continues world world :=
  ⟨orderly, Nat.le_refl _, fun _ => id, fun _ _ _ => rfl, fun _ => id⟩

theorem Continues.trans (first : Continues before middle) (second : Continues middle after) :
    Continues before after := by
  constructor
  · exact second.orderly
  · exact Nat.le_trans first.size second.size
  · intro ref shown
    exact second.shown ref (first.shown ref shown)
  · intro ref shown shared
    have kept := first.same ref shown shared
    have shared' : middle.heap.SharedData ref := by
      unfold Heap.SharedData Heap.isShared Heap.body at shared ⊢
      rw [kept]
      exact shared
    exact (second.same ref (first.shown ref shown) shared').trans kept
  · intro environments sound
    exact second.environments environments (first.environments environments sound)

theorem Run.continues (run : Run before after) (orderly : before.Orderly) :
    Continues before after := by
  induction run with
  | refl => exact .refl orderly
  | step _ taken bare ih => exact ih.trans (taken.continues ih.orderly bare)

/-- A value as it was when it was handed over: the same objects are reached, all of them are shared
data, and they are what they were. It is handed over again as it is, whoever sends it. -/
structure Unchanged (sent heap : Heap) (value : Ref) : Prop where
  reaches : ∀ found, heap.ReachesAll value found ↔ sent.ReachesAll value found
  shared : ∀ found, heap.ReachesAll value found →
    heap.isShared found = true ∧ (heap.body found).isData = true
  same : ∀ found, heap.ReachesAll value found → heap.get found = sent.get found
  again : ∀ context : Context, Message.ofValue context heap value = (.ok (.plain value), heap)

theorem stays_frozen {world later : World} {context : Context} {value handed : Ref} {sent : Heap}
    (earlier : Run initial world) (holds : value ∈ world.held)
    (lives : context.environments.Sound world.heap)
    (prepared : Message.ofValue context world.heap value = (.ok (.plain handed), sent))
    (run : Run { world with heap := sent, mail := .plain handed :: world.mail } later) :
    handed = value ∧ Unchanged sent later.heap value := by
  have orderly := (earlier.continues orderly_initial).orderly
  obtain ⟨surveyed, described⟩ := orderly.conversion lives holds prepared
  obtain ⟨carries, plain⟩ := described _ rfl
  obtain ⟨same, frozen⟩ := plain handed rfl
  have begun := orderly.continues_prepare surveyed carries
  have continues := run.continues begun.orderly
  have shown := begun.shown value (orderly.held value holds)
  -- All that the value reaches is public and shared data, and a run keeps every such object.
  have kept : ∀ found, sent.ReachesAll value found → later.heap.get found = sent.get found := by
    intro found reached
    exact continues.same found (begun.orderly.closed.reaches shown reached)
      (frozen.reaches reached).self
  have stays : later.heap.Frozen (Node.depthBound world.heap) value := frozen.kept kept
  have back {found : Ref} (reached : later.heap.ReachesAll value found) :
      sent.ReachesAll value found := reached.kept kept
  refine ⟨same, ?_, ?_, ?_, ?_⟩
  · intro found
    constructor
    · exact back
    · intro reached
      exact reached.kept fun other way => (kept other (back way)).symm
  · intro found reached
    exact (stays.reaches reached).self
  · intro found reached
    exact kept found (back reached)
  · -- The depth that a conversion may go down to has grown with the heap, and the value has not.
    intro other
    apply Message.ofValue_frozen other stays
    have size := Nat.le_trans begun.size continues.size
    have more : world.heap.size + 1 ≤ later.heap.size + 1 := Nat.succ_le_succ size
    exact Nat.mul_le_mul more more

/-- The environments of a context, a vector, and a list of it. -/
def sampleWorld : World :=
  ((((((initial.create (.environment { kind := .empty, bindings := Mapping.empty, parent := none })).create
    (.environment { kind := .base, bindings := Mapping.empty, parent := some ⟨2⟩ })).create
    (.environment { kind := .global, bindings := Mapping.empty, parent := some ⟨3⟩ })).create
    (.environment { kind := .baseNamespace, bindings := Mapping.empty, parent := some ⟨4⟩ })).create
    (.vector (.integer [7]))).create (.list [⟨6⟩]))

theorem run_sampleWorld : Run initial sampleWorld := by
  unfold sampleWorld
  iterate 6
    apply Run.step _ (.create rfl (by decide)) (Heap.bare_of_all (by decide))
  exact .refl

/-- The list grows through a handle after it was handed over. -/
theorem unchanged_grown : ∃ sent later,
    Message.ofValue Message.sampleSender sampleWorld.heap ⟨7⟩ = (.ok (.plain ⟨7⟩), sent) ∧
      Run { sampleWorld with heap := sent, mail := [.plain ⟨7⟩] } later ∧
      later.heap.body ⟨8⟩ = .list [⟨6⟩, ⟨6⟩] ∧ Unchanged sent later.heap ⟨7⟩ := by
  have lives : Message.sampleSender.environments.Sound sampleWorld.heap :=
    Environments.sound_fixed ⟨rfl, rfl⟩ ⟨_, rfl, rfl⟩ ⟨_, rfl, rfl⟩ ⟨_, rfl, rfl⟩ ⟨_, rfl, rfl⟩
  have pushed : Run { sampleWorld with
      heap := (Message.ofValue Message.sampleSender sampleWorld.heap ⟨7⟩).2, mail := [.plain ⟨7⟩] } _ :=
    .step .refl (@Step.pushElement _ ⟨7⟩ ⟨6⟩ (by decide) (by decide)) (Heap.bare_of_all (by decide))
  refine ⟨_, _, rfl, pushed, rfl, ?_⟩
  exact (stays_frozen run_sampleWorld (by decide) lives rfl pushed).2

end World

end ValueChannels
