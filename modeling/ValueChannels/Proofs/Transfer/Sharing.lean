import ValueChannels.Proofs.Graph.Reproduction
import ValueChannels.Proofs.Transfer.Resemblance

/-!
Which environments of a received value are the same. Two ways to one local environment of the value
that was sent are two ways to one environment of the received value, as long as neither leads
through a closure: a closure is encoded by itself, with environments of its own. Main statements:
`shared_transfer`, and `apart_function` for a closure.
-/

namespace ValueChannels.Message

open Codec

/-- A value of a sound heap goes from one context to another. Both use the packed codec and own
environments of that heap, and there are numbers for all local environments on the way. -/
structure Transit (sender receiver : Context) (heap : Heap) (value : Ref) : Prop where
  clean : heap.Clean
  inside : value.index < heap.size
  senders : sender.environments.Sound heap
  receivers : receiver.environments.Sound heap
  codecs : sender.codec = .packed ∧ receiver.codec = .packed
  few : ∀ envs : List Ref, envs.Nodup →
    (∀ env ∈ envs, Leads (heap.carried sender.environments.global) value env ∧
      (heap.body env).isLocal = true) → envs.length ≤ UInt32.size

namespace Transit

variable {sender receiver : Context} {heap sent after : Heap} {value copy : Ref} {message : Message}

theorem global (transit : Transit sender receiver heap value) :
    sender.environments.global.index < heap.size :=
  transit.senders.inside (show sender.environments.find? .global = some _ from rfl)

theorem meets (transit : Transit sender receiver heap value) (known : List Ref)
    (marked : Heap.Marked heap.size heap sent) :
    Meets { context := sender, origin := heap, final := sent, known } receiver := by
  refine ⟨transit.clean.sound, ⟨transit.clean.null, transit.clean.unbound⟩, marked,
    transit.receivers, ?_⟩
  show sender.codec.Restores receiver.codec
  rw [transit.codecs.1, transit.codecs.2]
  exact Codec.restores_packed

theorem onward (transit : Transit sender receiver heap value) {ref child : Ref}
    (leads : Leads (heap.carried sender.environments.global) value ref)
    (member : child ∈ heap.conveyed sender.environments.global ref) :
    Leads (heap.carried sender.environments.global) value child :=
  leads.step (transit.clean.sound.nodup_carried _
    (transit.clean.sound.leads_carried transit.global transit.inside leads)) member

/-- A value that was received belongs to the one that was sent. -/
theorem arrives (transit : Transit sender receiver heap value)
    (prepared : ofValue sender heap value = (.ok message, sent))
    (ended : toValue receiver sent message = (.ok copy, after)) :
    ∃ known table,
      Arrival { context := sender, origin := heap, final := sent, known } receiver after table ∧
        Mirrors { context := sender, origin := heap, final := sent, known } receiver after table
          value copy := by
  obtain ⟨known, converted⟩ :=
    sent_ofValue transit.clean.sound transit.global transit.inside prepared
  let sending : Sending := { context := sender, origin := heap, final := sent, known }
  have meets : Meets sending receiver := transit.meets known converted.marked
  obtain ⟨table, built⟩ := received_toValue meets converted.whole ended
  have closed : ∀ ref, Leads (heap.carried sender.environments.global) value ref →
      ∀ child ∈ sending.converted ref, Leads (heap.carried sender.environments.global) value child :=
    fun _ leads _ member => transit.onward leads (Sending.conveyed_of_converted member)
  have few : known.length ≤ UInt32.size := by
    apply transit.few known converted.distinct
    exact converted.among closed (.refl _ _)
  have arrival : Arrival sending receiver after table := by
    refine ⟨meets, transit.codecs.1, transit.codecs.2, ⟨converted.marked, ?_⟩, converted.distinct,
      few, built.distinct⟩
    intro old inside
    have unchanged := unchanged_toValue meets converted.whole inside
    rw [ended] at unchanged
    exact unchanged
  exact ⟨known, table, arrival, (built.linked converted.whole).mirrored arrival⟩

end Transit

/-- Local environments are shared among the ways that a message describes just as they were. -/
theorem shared_transfer {sender receiver : Context} {heap sent after : Heap} {value copy : Ref}
    {message : Message} (transit : Transit sender receiver heap value)
    (prepared : ofValue sender heap value = (.ok message, sent))
    (ended : toValue receiver sent message = (.ok copy, after)) (path path' : List Edge)
    (env env' : Ref)
    (walked : follow? (heap.described sender.environments.global) value path = some env)
    (walked' : follow? (heap.described sender.environments.global) value path' = some env')
    (isLocal : (heap.body env).isLocal = true) :
    ∃ found found',
      follow? (after.described receiver.environments.global) copy path = some found ∧
      follow? (after.described receiver.environments.global) copy path' = some found' ∧
      (after.body found).isLocal = true ∧ (env = env' ↔ found = found') := by
  obtain ⟨known, table, arrival, mirrors⟩ := transit.arrives prepared ended
  have step := fun first second edge next
    (related : Mirrors _ receiver after table first second) => related.finds arrival edge next
  obtain ⟨found, there, first⟩ := follow?_forward step path mirrors walked
  obtain ⟨found', there', second⟩ := follow?_forward step path' mirrors walked'
  refine ⟨found, found', there, there', ?_, first.same_iff arrival second isLocal⟩
  rw [first.isLocal arrival]
  exact isLocal

/-- An environment of the first of two contexts that is bound in itself, a function of the global
environment, and a list that holds the environment twice. -/
def twiceHeap : Heap :=
  let (env, heap) := twoContexts.allocLocal sampleSender.environments.global
  let (function, heap) := heap.alloc
    (.closure { formals := ["x"], body := .symbol "x", env := sampleSender.environments.global })
  let (_, heap) := heap.alloc (.list [env, function, env])
  heap.define env "self" env

theorem sound_twiceHeap : twiceHeap.Sound := by
  have contexts := Environments.heap_create (Environments.heap_create Heap.sound_initial)
  have env := contexts.allocLocal (show sampleSender.environments.global.index < _ by decide)
  have function : (Heap.alloc _ (.closure
      { formals := ["x"], body := .symbol "x", env := sampleSender.environments.global })).2.Sound :=
    env.alloc (fun impossible => nomatch impossible) (fun impossible => nomatch impossible)
      (fun _ impossible => nomatch impossible) (by decide)
  have list : (Heap.alloc _ (.list [⟨10⟩, ⟨11⟩, ⟨10⟩])).2.Sound :=
    function.alloc (fun impossible => nomatch impossible) (fun impossible => nomatch impossible)
      (fun _ impossible => nomatch impossible) (by decide)
  exact list.define "self" (by decide) (by decide)

theorem sound_twiceSender : sampleSender.environments.Sound twiceHeap :=
  Environments.sound_fixed ⟨rfl, rfl⟩ ⟨_, rfl, rfl⟩ ⟨_, rfl, rfl⟩ ⟨_, rfl, rfl⟩ ⟨_, rfl, rfl⟩

theorem sound_twiceReceiver : sampleReceiver.environments.Sound twiceHeap :=
  Environments.sound_fixed ⟨rfl, rfl⟩ ⟨_, rfl, rfl⟩ ⟨_, rfl, rfl⟩ ⟨_, rfl, rfl⟩ ⟨_, rfl, rfl⟩

theorem transit_twice : Transit sampleSender sampleReceiver twiceHeap ⟨12⟩ where
  clean := ⟨sound_twiceHeap, rfl, rfl⟩
  inside := by decide
  senders := sound_twiceSender
  receivers := sound_twiceReceiver
  codecs := ⟨rfl, rfl⟩
  few := by
    intro envs distinct each
    have most := Heap.locals_le_size distinct fun env member => (each env member).2
    exact Nat.le_trans most (by decide)

def twiceMessage : Message :=
  .list ⟨13⟩
    [.environment 0 [("self", .environmentRef 0)]
        (some (.encoded .environment (Node.bare (.named .global)).toItem.write none)) none,
      .encoded .closure
        (Node.bare (.closure ["x"] (.symbol "x") (.bare (.named .global)))).toItem.write none,
      .environmentRef 0]
    none

/-- Where the list that is received refers to the environment, it refers to one. -/
theorem shared_twice : ∃ sent after found found',
    ofValue sampleSender twiceHeap ⟨12⟩ = (.ok twiceMessage, sent) ∧
      toValue sampleReceiver sent twiceMessage = (.ok ⟨13⟩, after) ∧
      follow? (after.described sampleReceiver.environments.global) ⟨13⟩ [.element 0] = some found ∧
      follow? (after.described sampleReceiver.environments.global) ⟨13⟩
        [.element 2, .binding "self"] = some found' ∧
      (after.body found).isLocal = true ∧ found = found' := by
  have built : (toValue sampleReceiver (ofValue sampleSender twiceHeap ⟨12⟩).2
      twiceMessage).1.toOption = some ⟨13⟩ := by decide +kernel
  cases ended : toValue sampleReceiver (ofValue sampleSender twiceHeap ⟨12⟩).2 twiceMessage with
  | mk outcome after =>
      rw [ended] at built
      cases outcome with
      | error reason => cases built
      | ok copy =>
          cases built
          obtain ⟨found, found', there, there', isLocal, same⟩ :=
            shared_transfer transit_twice rfl ended [.element 0] [.element 2, .binding "self"]
              ⟨10⟩ ⟨10⟩ rfl rfl rfl
          exact ⟨_, after, found, found', rfl, ended, there, there', isLocal, same.mp rfl⟩

/-- The message for the environment of a function that is bound in it. -/
def functionMessage : Message :=
  .environment 0
    [("f", .encoded .closure (Node.bare (.closure ["x"] (.symbol "x") (.bare (.environment 0
        [("f", .bare (.closure ["x"] (.symbol "x") (.bare (.environmentRef 0))))]
        (some (.bare (.named .global))))))).toItem.write none)]
    (some (.encoded .environment (Node.bare (.named .global)).toItem.write none)) none

/-- The environment that a function was made in and is bound in becomes two environments. -/
theorem apart_function : ∃ message sent copy after other,
    ofValue sampleSender functionHeap ⟨10⟩ = (.ok message, sent) ∧
      toValue sampleReceiver sent message = (.ok copy, after) ∧
      (functionHeap.body ⟨10⟩).isLocal = true ∧
      follow? functionHeap.links ⟨10⟩ [.binding "f", .environment] = some ⟨10⟩ ∧
      follow? after.links copy [.binding "f", .environment] = some other ∧ other ≠ copy := by
  have built : (toValue sampleReceiver (ofValue sampleSender functionHeap ⟨10⟩).2
      functionMessage).1.toOption = some ⟨12⟩ := by decide +kernel
  have other : follow? (toValue sampleReceiver (ofValue sampleSender functionHeap ⟨10⟩).2
      functionMessage).2.links ⟨12⟩ [.binding "f", .environment] = some ⟨13⟩ := by decide +kernel
  cases ended : toValue sampleReceiver (ofValue sampleSender functionHeap ⟨10⟩).2
      functionMessage with
  | mk outcome after =>
      rw [ended] at built other
      cases outcome with
      | error reason => cases built
      | ok copy =>
          cases built
          exact ⟨functionMessage, _, ⟨12⟩, after, ⟨13⟩, rfl, ended, rfl, rfl, other, by decide⟩

end ValueChannels.Message
