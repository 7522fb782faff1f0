import ValueChannels.Proofs.Transfer.Correspondence
import ValueChannels.Proofs.Transfer.Conversion
import ValueChannels.Proofs.Heap.Soundness

/-!
What the two sides of a transfer have in common. A received value stands on shared data, on the
environments of its own context and on objects that were made for it, and all of these lead to
their like. Main statement: `isolated_transfer`.
-/

namespace ValueChannels.Message

open Rebuilding

variable {sending : Sending} {context : Context} {heap : Heap} {table : List (UInt32 × Ref)}

/-- A row of objects that were made for one encoded value: each refers to others of the row, to what
the context offers, or to received attributes. -/
def Sealed (sending : Sending) (context : Context) (heap : Heap) (table : List (UInt32 × Ref))
    (first last : Nat) : Prop :=
  ∀ ref, first ≤ ref.index → ref.index < last → ∀ child ∈ (heap.get ref).children,
    (first ≤ child.index ∧ child.index < last) ∨ child = Ref.null ∨ child = Ref.unbound ∨
      context.environments.Owns child ∨ ∃ sent, Linked sending context heap table sent child

/-- What a received value may lead to. -/
inductive Stands (sending : Sending) (context : Context) (heap : Heap)
    (table : List (UInt32 × Ref)) (ref : Ref) : Prop where
  | shared (deep : heap.Deep ref)
  | owned (owns : context.environments.Owns ref)
  | linked {sent : Ref} (linked : Linked sending context heap table sent ref)
  | made {first last : Nat} (room : sending.final.size ≤ first) (above : first ≤ ref.index)
      (below : ref.index < last) (complete : Sealed sending context heap table first last)

/-- The later heap holds what the sender had as the sender left it. -/
structure Spares (sending : Sending) (after : Heap) : Prop where
  marked : Heap.Marked sending.origin.size sending.origin sending.final
  same : ∀ old, old.index < sending.origin.size → after.get old = sending.final.get old

namespace Spares

variable {after : Heap}

theorem inner (spares : Spares sending after) (sound : sending.origin.Sound) (ref : Ref)
    (inside : ref.index < sending.origin.size) :
    ∀ child ∈ (sending.final.get ref).children, child.index < sending.origin.size := by
  intro child member
  rw [spares.marked.children inside] at member
  exact sound.closed ref inside child member

theorem deep (spares : Spares sending after) (sound : sending.origin.Sound) {ref : Ref}
    (inside : ref.index < sending.origin.size) (deep : sending.final.Deep ref) : after.Deep ref :=
  deep.within (spares.inner sound) spares.same inside

theorem singleton (spares : Spares sending after) (sound : sending.origin.Sound)
    (bare : sending.origin.attributes Ref.null = none ∧
      sending.origin.attributes Ref.unbound = none) {ref : Ref}
    (isSingleton : ref = Ref.null ∨ ref = Ref.unbound) : after.Deep ref := by
  have room := sound.room
  have inside : ref.index < sending.origin.size := by
    rcases isSingleton with same | same
    · rw [same]
      exact Nat.lt_of_lt_of_le Nat.zero_lt_two room
    · rw [same]
      exact Nat.lt_of_lt_of_le Nat.one_lt_two room
  have content : sending.origin.body ref = .null ∨ sending.origin.body ref = .unbound := by
    rcases isSingleton with same | same
    · exact Or.inl ((sound.null ref inside).mpr same)
    · exact Or.inr ((sound.unbound ref).mpr same)
  have attributes : sending.origin.attributes ref = none := by
    rcases isSingleton with same | same
    · rw [same]
      exact bare.1
    · rw [same]
      exact bare.2
  have shared : sending.origin.isShared ref = true := by
    rcases isSingleton with same | same
    · rw [same]
      exact sound.singletons.1
    · rw [same]
      exact sound.singletons.2
  refine spares.deep sound inside (.intro (spares.marked.shared ref inside shared) ?_ ?_)
  · rw [spares.marked.body ref inside]
    rcases content with same | same
    · rw [same]
      rfl
    · rw [same]
      rfl
  · intro child member
    rw [spares.marked.children inside] at member
    unfold Heap.body at content
    unfold Heap.attributes at attributes
    rw [Object.children, attributes] at member
    rcases content with same | same
    · rw [same] at member
      cases member
    · rw [same] at member
      cases member

end Spares

/-! ### What stands leads to what stands -/

theorem Furnished.linked {sent received child : Ref}
    (furnished : Furnished sending context heap table sent received)
    (member : child ∈ (attributeEntries (heap.attributes received)).map Prod.snd) :
    ∃ source, Linked sending context heap table source child := by
  obtain ⟨values, parts, installed⟩ := furnished
  rw [installed] at member
  obtain ⟨entry, present, same⟩ := List.mem_map.mp member
  have held := Heap.entries_normalize present
  cases has : sending.origin.attributes sent with
  | none =>
      rw [has] at held
      cases held
  | some mapping =>
      rw [has] at held
      obtain ⟨pair, zipped, same'⟩ := List.mem_map.mp (Attributes.mem_ofList held)
      have value : child ∈ values := by
        rw [← same, ← same']
        exact (List.of_mem_zip zipped).2
      obtain ⟨source, _, linked⟩ := forall₂_right parts value
      exact ⟨source, linked⟩

/-- Objects that the codec made for an encoded value, with the attributes that were installed on the
value itself. -/
theorem sealed_encoded {sent received : Ref} {before after : Heap} {blob : Bytes}
    (meets : Meets sending context)
    (read : context.codec.unserialize context.environments blob before = .ok received after)
    (bodies : ∀ other, before.size ≤ other.index → other.index < after.size →
      heap.body other = after.body other)
    (others : ∀ other, before.size ≤ other.index → other.index < after.size →
      (other ≠ received ∨ sending.origin.attributes sent = none ∨
        ¬acceptsAttributes after received = true) →
          heap.attributes other = after.attributes other)
    (furnished : sending.origin.attributes sent ≠ none → acceptsAttributes after received = true →
      Furnished sending context heap table sent received) :
    Sealed sending context heap table before.size after.size := by
  have reads := Ends.ok (meets.codec.reads _ _ _) read
  intro ref above below child member
  have offered (inside : child ∈ (after.get ref).children) :
      (before.size ≤ child.index ∧ child.index < after.size) ∨ child = Ref.null ∨
        child = Ref.unbound ∨ context.environments.Owns child ∨
          ∃ sent, Linked sending context heap table sent child := by
    rcases reads.closed ref above below child inside with made | isNull | isUnbound | owns
    · exact Or.inl made
    · exact Or.inr (Or.inl isNull)
    · exact Or.inr (Or.inr (Or.inl isUnbound))
    · exact Or.inr (Or.inr (Or.inr (Or.inl owns)))
  rcases List.mem_append.mp member with ofBody | ofAttributes
  · apply offered
    have body : (heap.get ref).body = (after.get ref).body := bodies ref above below
    rw [body] at ofBody
    exact List.mem_append_left _ ofBody
  · by_cases kept : ref ≠ received ∨ sending.origin.attributes sent = none ∨
        ¬acceptsAttributes after received = true
    · apply offered
      have attributes : (heap.get ref).attributes = (after.get ref).attributes :=
        others ref above below kept
      rw [attributes] at ofAttributes
      exact List.mem_append_right _ ofAttributes
    · have given := not_or.mp kept
      have given' := not_or.mp given.2
      have same : ref = received := not_not.mp given.1
      rw [same] at ofAttributes
      have linked := (furnished given'.1 (not_not.mp given'.2)).linked ofAttributes
      exact Or.inr (Or.inr (Or.inr (Or.inr linked)))

theorem Sealed.stands {first last : Nat} {ref child : Ref} (spares : Spares sending heap)
    (meets : Meets sending context) (complete : Sealed sending context heap table first last)
    (room : sending.final.size ≤ first) (above : first ≤ ref.index) (below : ref.index < last)
    (member : child ∈ (heap.get ref).children) : Stands sending context heap table child := by
  rcases complete ref above below child member with made | isNull | isUnbound | owns | linked
  · exact .made room made.1 made.2 complete
  · exact .shared (spares.singleton meets.sound meets.bare (Or.inl isNull))
  · exact .shared (spares.singleton meets.sound meets.bare (Or.inr isUnbound))
  · exact .owned owns
  · obtain ⟨source, linked⟩ := linked
    exact .linked linked

theorem stands_right {sents receiveds : List Ref} {child : Ref}
    (parts : List.Forall₂ (Linked sending context heap table) sents receiveds)
    (member : child ∈ receiveds) : Stands sending context heap table child := by
  obtain ⟨source, _, linked⟩ := forall₂_right parts member
  exact .linked linked

theorem Mirrors.stands {sent received child : Ref} (spares : Spares sending heap)
    (meets : Meets sending context)
    (mirrors : Mirrors sending context heap table sent received)
    (enters : ¬context.environments.Owns received)
    (member : child ∈ (heap.get received).children) : Stands sending context heap table child := by
  have fromAttributes (furnished : Furnished sending context heap table sent received)
      (held : child ∈ (attributeEntries (heap.attributes received)).map Prod.snd) :
      Stands sending context heap table child := by
    obtain ⟨source, linked⟩ := furnished.linked held
    exact .linked linked
  have apart := List.mem_append.mp member
  -- What was handed over whole is shared in depth. Everything else was built here, and a child of
  -- it comes from a part of the message or from an attribute.
  cases mirrors with
  | same inside deep => exact .shared ((spares.deep meets.sound inside deep).child member)
  | list body new copied parts furnished =>
      have here : (heap.get received).body = _ := copied
      rw [here] at apart
      rcases apart with element | held
      · exact stands_right parts element
      · exact fromAttributes furnished held
  | environment body isLocal met housed new copied bound around furnished =>
      have here : (heap.get received).body = _ := copied
      rw [here] at apart
      rcases apart with inFrame | held
      · rcases List.mem_append.mp inFrame with defined | enclosing
        · obtain ⟨entry, zipped, same⟩ := List.mem_map.mp defined
          have content := (List.of_mem_zip zipped).2
          rw [same] at content
          exact stands_right bound content
        · rw [Option.mem_toList, Option.some.injEq] at enclosing
          rename_i parent _
          cases parent with
          | none =>
              rw [← enclosing]
              exact .owned ⟨.empty, rfl⟩
          | some parent =>
              rw [← enclosing]
              exact stands_right around List.mem_cons_self
      · exact fromAttributes furnished held
  | promise body new copied written rebuilt value around =>
      rw [copied, Heap.children_fresh] at member
      rcases List.mem_append.mp member with enclosing | content
      · exact stands_right around enclosing
      · exact stands_right value content
  | encoded isEncoded taken written room read place bodies others parts furnished =>
      have complete := sealed_encoded meets read bodies others furnished
      rcases (Ends.ok (meets.codec.reads _ _ _) read).result with made | isNull | isUnbound | owns
      · exact complete.stands spares meets room made.1 made.2 member
      · exact .shared ((spares.singleton meets.sound meets.bare (Or.inl isNull)).child member)
      · exact .shared ((spares.singleton meets.sound meets.bare (Or.inr isUnbound)).child member)
      · exact absurd owns enters
  | attributed body new copied furnished =>
      have here : (heap.get received).body = _ := copied
      rw [here] at apart
      rcases apart with element | held
      · cases element
      · exact fromAttributes furnished held

namespace Stands

variable {ref part : Ref}

/-- Whatever a received value leads to stands as it does, short of the inside of the environments
that its context owns. -/
theorem child (spares : Spares sending heap) (meets : Meets sending context)
    (stands : Stands sending context heap table ref) (enters : ¬context.environments.Owns ref)
    (member : part ∈ (heap.get ref).children) : Stands sending context heap table part := by
  cases stands with
  | shared deep => exact .shared (deep.child member)
  | owned owns => exact absurd owns enters
  | linked linked =>
      obtain ⟨source, mirrors, _⟩ := linked.mirrors meets
      exact mirrors.stands spares meets enters member
  | made room above below complete =>
      exact complete.stands spares meets room above below member

theorem reaches (spares : Spares sending heap) (meets : Meets sending context)
    (stands : Stands sending context heap table ref) {found : Ref}
    (reached : heap.Reaches context.environments.Owns ref found) :
    Stands sending context heap table found := by
  induction reached with
  | start => exact stands
  | step _ enters member ih => exact ih.child spares meets enters member

theorem deep (spares : Spares sending heap) (meets : Meets sending context)
    (stands : Stands sending context heap table ref) (old : ref.index < sending.origin.size)
    (outside : ¬context.environments.Owns ref) : heap.Deep ref := by
  have larger := spares.marked.size
  cases stands with
  | shared deep => exact deep
  | owned owns => exact absurd owns outside
  | linked linked =>
      obtain ⟨source, mirrors, _⟩ := linked.mirrors meets
      cases mirrors with
      | same inside deep => exact spares.deep meets.sound inside deep
      | list body new copied parts furnished => exact absurd new (Nat.not_le_of_lt old)
      | environment body isLocal met housed new copied bound around furnished => omega
      | promise body new copied written rebuilt value around => omega
      | encoded isEncoded taken written room read place bodies others parts furnished =>
          rcases (Ends.ok (meets.codec.reads _ _ _) read).result with
            made | isNull | isUnbound | owns
          · omega
          · exact spares.singleton meets.sound meets.bare (Or.inl isNull)
          · exact spares.singleton meets.sound meets.bare (Or.inr isUnbound)
          · exact absurd owns outside
      | attributed body new copied furnished => exact absurd new (Nat.not_le_of_lt old)
  | made room above below complete => omega

end Stands

/-! ### Both sides of a transfer -/

/-- What the sender of a value starts from: the value, and the environments of its context. -/
def Roots (sender : Context) (value root : Ref) : Prop :=
  root = value ∨ sender.environments.Owns root

theorem Roots.inside {sender : Context} {value root : Ref} {origin : Heap}
    (roots : Roots sender value root) (environments : sender.environments.Sound origin)
    (inside : value.index < origin.size) :
    root.index < origin.size := by
  rcases roots with same | ⟨kind, owned⟩
  · rw [same]
    exact inside
  · exact environments.inside owned

/-- A message is rebuilt without a change to anything that the sender reaches. When it gives a
value, then whatever both sides reach is data, shared for good with all that it leads to; the
environments that the receiver had before are not entered. -/
structure Isolated (sender receiver : Context) (value : Ref) (message : Message) (sent : Heap) :
    Prop where
  unchanged : ∀ root found, Roots sender value root → sent.ReachesAll root found →
    (toValue receiver sent message).2.get found = sent.get found
  common : ∀ result after, toValue receiver sent message = (.ok result, after) →
    ∀ root found, Roots sender value root → after.ReachesAll root found →
      after.Reaches receiver.environments.Owns result found →
        ¬receiver.environments.Owns found → after.Deep found

/-- No mutable object crosses from one context to another. -/
theorem isolated_transfer {sender receiver : Context} {heap sent : Heap} {value : Ref}
    {message : Message} (sound : heap.Sound)
    (bare : heap.attributes Ref.null = none ∧ heap.attributes Ref.unbound = none)
    (inside : value.index < heap.size) (senders : sender.environments.Sound heap)
    (receivers : receiver.environments.Sound heap)
    (codecs : sender.codec.Restores receiver.codec)
    (prepared : ofValue sender heap value = (.ok message, sent)) :
    Isolated sender receiver value message sent := by
  have global : sender.environments.global.index < heap.size :=
    senders.inside (show sender.environments.find? .global = some _ from rfl)
  obtain ⟨known, converted⟩ := sent_ofValue sound global inside prepared
  let sending : Sending := { context := sender, origin := heap, final := sent, known }
  have meets : Meets sending receiver := ⟨sound, bare, converted.marked, receivers, codecs⟩
  have unchanged : Spares sending (toValue receiver sent message).2 :=
    ⟨converted.marked, fun _ old => unchanged_toValue meets converted.whole old⟩
  constructor
  · intro root found roots reached
    have start := roots.inside senders inside
    have old := (reached.within (unchanged.inner sound) (fun _ _ => rfl) start).1
    exact unchanged.same found old
  · intro result after ended root found roots reached received outside
    obtain ⟨table, built⟩ := received_toValue meets converted.whole ended
    have spares : Spares sending after := by
      rw [ended] at unchanged
      exact unchanged
    have start := roots.inside senders inside
    have old := (reached.within (spares.inner sound) spares.same start).1
    have stands : Stands sending receiver after table found :=
      (Stands.linked (built.linked converted.whole)).reaches spares meets received
    exact stands.deep spares meets old outside

/-- Two new contexts in one heap, and a local environment of the first that encloses itself and
binds a vector. -/
def sampleSender : Context :=
  (Context.create Heap.initial "a" .packed).1

def sampleReceiver : Context :=
  (Context.create (Context.create Heap.initial "a" .packed).2 "b" .packed).1

def sampleHeap : Heap :=
  let heap := (Context.create (Context.create Heap.initial "a" .packed).2 "b" .packed).2
  let (vector, heap) := heap.alloc (.vector (.integer [7]))
  let (env, heap) := heap.allocLocal sampleSender.environments.global
  (heap.define env "x" vector).setParent env env

theorem sound_sampleHeap : sampleHeap.Sound := by
  have contexts := Environments.heap_create (Environments.heap_create Heap.sound_initial)
  have vector := contexts.allocVector (.integer [7])
  have env := vector.allocLocal (show sampleSender.environments.global.index < _ by decide)
  exact (env.define "x" (by decide) (by decide)).setParent (by decide) (by decide)

theorem sound_sampleSender : sampleSender.environments.Sound sampleHeap :=
  Environments.sound_fixed ⟨rfl, rfl⟩ ⟨_, rfl, rfl⟩ ⟨_, rfl, rfl⟩ ⟨_, rfl, rfl⟩ ⟨_, rfl, rfl⟩

theorem sound_sampleReceiver : sampleReceiver.environments.Sound sampleHeap :=
  Environments.sound_fixed ⟨rfl, rfl⟩ ⟨_, rfl, rfl⟩ ⟨_, rfl, rfl⟩ ⟨_, rfl, rfl⟩ ⟨_, rfl, rfl⟩

def sampleMessage : Message :=
  .environment 0 [("x", .plain ⟨10⟩)] (some (.environmentRef 0)) none

theorem isolated_environment :
    Isolated sampleSender sampleReceiver ⟨11⟩ sampleMessage
        (ofValue sampleSender sampleHeap ⟨11⟩).2 ∧
      (toValue sampleReceiver (ofValue sampleSender sampleHeap ⟨11⟩).2 sampleMessage).1 =
        .ok ⟨12⟩ := by
  constructor
  · refine isolated_transfer sound_sampleHeap ⟨rfl, rfl⟩ ?_ sound_sampleSender
      sound_sampleReceiver Codec.restores_packed ?_
    · decide
    · rfl
  · rfl

end ValueChannels.Message
