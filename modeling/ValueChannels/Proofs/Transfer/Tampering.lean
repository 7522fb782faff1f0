import ValueChannels.Exchange.Basic
import ValueChannels.Proofs.Graph.Reading
import ValueChannels.Proofs.Transfer.Attachments
import ValueChannels.Proofs.Transfer.Keeping

/-!
What a message cannot touch. A receiver writes to environments that it has just made, to lists, and
to whatever accepts attributes; none of these is an environment that a context owns. Nothing is
assumed of the message, of the bytes in it or of the heap. Main statements: `Message.tenable_spares`
for the steps of the building, `receiving_spares_named` for a context with its own codec.
-/

namespace ValueChannels

/-! ### Heaps that differ in other objects -/

/-- Every non-local environment of the earlier heap is the same object in the later one, with the
bindings, the parent and the attributes that it had. -/
structure Heap.Spares (before after : Heap) : Prop where
  size : before.size ≤ after.size
  named : ∀ env, (before.body env).isNamed = true → after.get env = before.get env

namespace Heap.Spares

variable {base before middle after : Heap} {ref : Ref}

theorem refl (heap : Heap) : heap.Spares heap :=
  ⟨Nat.le_refl _, fun _ _ => rfl⟩

theorem trans (first : before.Spares middle) (second : middle.Spares after) :
    before.Spares after := by
  constructor
  · exact Nat.le_trans first.size second.size
  · intro env isNamed
    have here := first.named env isNamed
    have still : (middle.body env).isNamed = true := by
      rw [Heap.body, here]
      exact isNamed
    exact (second.named env still).trans here

theorem of_extends (extend : before.Extends after) : before.Spares after := by
  constructor
  · exact extend.size
  · intro env isNamed
    apply extend.same
    apply before.inside_of_body
    intro null
    rw [null] at isNamed
    cases isNamed

theorem alloc (heap : Heap) (body : Body) : heap.Spares (heap.alloc body).2 :=
  of_extends (.alloc heap body)

theorem write (size : after.size = before.size)
    (other : ∀ env, env ≠ ref → after.get env = before.get env)
    (unnamed : (before.body ref).isNamed = false) : before.Spares after := by
  constructor
  · exact Nat.le_of_eq size.symm
  · intro env isNamed
    apply other
    intro same
    rw [same, unnamed] at isNamed
    cases isNamed

theorem writeNew (spares : base.Spares before) (size : after.size = before.size)
    (other : ∀ env, env ≠ ref → after.get env = before.get env)
    (new : base.size ≤ ref.index) : base.Spares after := by
  constructor
  · rw [size]
    exact spares.size
  · intro env isNamed
    have different : env ≠ ref := by
      intro same
      have outside := base.get_outside (same ▸ new : base.size ≤ env.index)
      rw [Heap.body, outside] at isNamed
      cases isNamed
    rw [other env different]
    exact spares.named env isNamed

theorem makePrivate (heap : Heap) (handle : Ref) :
    heap.Spares (heap.makePrivate handle).2 := by
  rcases heap.makePrivate_cases handle with ⟨stays, _⟩ | ⟨_, moves⟩
  · rw [stays]
    exact refl heap
  · rw [moves]
    apply (alloc heap (heap.body handle)).writeNew (Heap.size_replaceAttributes _ _ _)
    · exact fun env different => Heap.get_replaceAttributes_other _ _ different
    · exact Nat.le_refl _

theorem setElement (heap : Heap) (handle : Ref) (index : Nat) (value : Ref) :
    heap.Spares (heap.setElement handle index value).heap := by
  unfold Heap.setElement
  split
  · rename_i items list
    have own := makePrivate heap handle
    have moved := Heap.body_makePrivate heap handle
    dsimp only
    split
    · apply own.trans
      apply write (Heap.size_setBody _ _ _)
      · exact fun env different => Heap.get_setBody_other _ _ different
      · rw [moved, list]
        rfl
    · exact own
  · exact refl heap

theorem install (heap : Heap) (ref : Ref) (entries : List (String × Ref)) :
    heap.Spares (Message.install heap ref entries) := by
  unfold Message.install
  split
  · rename_i accepts
    apply write (heap.size_replaceAttributes ref _)
    · exact fun env different => heap.get_replaceAttributes_other _ different
    · cases body : heap.body ref with
      | environment frame =>
          have framed := heap.frame?_eq_some.mpr body
          rw [Message.acceptsAttributes, framed] at accepts
          simp only [Body.isNamed, accepts, Bool.not_true]
      | _ => rfl
  · exact refl heap

end Heap.Spares

namespace Codec

/-- Whatever bytes the codec is given, it leaves every non-local environment as it is. -/
def Sparing (codec : Codec) : Prop :=
  ∀ environments bytes before, Ends (codec.unserialize environments bytes) before
    (fun _ after => before.Spares after) fun _ after => before.Spares after

theorem sparing_packed : packed.Sparing := by
  intro environments bytes before
  apply (reads_packed environments bytes before).mono
  · intro ref after reads
    exact .of_extends reads.extend
  · intro reason after extend
    exact .of_extends extend

end Codec

namespace Message

variable {context : Context}

/-- Definitions and parents go to environments that the base does not have, and nothing else is
written to an environment unless it is a local one. -/
theorem tenable_spares (sparing : context.codec.Sparing) (base : Heap) :
    Tenable context base.Spares (fun ref => base.size ≤ ref.index) fun _ => True where
  alloc := fun heap body spares => spares.trans (.alloc heap body)
  made := fun _ _ spares => spares.size
  define := fun heap env name value spares new => spares.writeNew (heap.size_define env name value)
    (fun _ different => heap.get_define_other name value different) new
  setParent := fun heap env parent spares new => spares.writeNew (heap.size_setParent env parent)
    (fun _ different => heap.get_setParent_other parent different) new
  setElement := fun heap shell index value spares =>
    spares.trans (.setElement heap shell index value)
  install := fun heap ref entries spares => spares.trans (.install heap ref entries)
  unserialize := fun heap blob spares =>
    (sparing context.environments blob heap).mono (fun _ _ further => spares.trans further)
      fun _ _ further => spares.trans further
  uncaptured := fun _ => trivial
  misfit := fun _ => trivial
  decoding := fun _ _ => trivial

theorem spares_toValue (sparing : context.codec.Sparing) (heap : Heap) (message : Message) :
    heap.Spares (message.toValue context heap).2 :=
  (kept_toValue (tenable_spares sparing heap) (.refl heap) message).1

end Message

/-- A context with its own codec leaves every non-local environment as it is, its own and those of
the others: when it builds any message whatsoever or reads any bytes whatsoever, whether that
succeeds or fails on the way. What it owns stays what it was, too. -/
theorem receiving_spares_named (context : Context) (default : context.codec = Codec.packed)
    (heap : Heap) :
    (∀ message : Message, heap.Spares (message.toValue context heap).2) ∧
    (∀ bytes, Ends (context.codec.unserialize context.environments bytes) heap
      (fun _ after => heap.Spares after) fun _ after => heap.Spares after) ∧
    (∀ (exchange : Exchange) (index : Nat), exchange.heap = heap →
      exchange.contexts[index]? = some context → ∀ handle operation message,
        heap.Spares (exchange.finishTake index handle operation message).2.heap ∧
        (exchange.finishTake index handle operation message).2.contexts = exchange.contexts) := by
  have sparing : context.codec.Sparing := by
    rw [default]
    exact Codec.sparing_packed
  refine ⟨Message.spares_toValue sparing heap, ?_, ?_⟩
  · intro bytes
    exact sparing context.environments bytes heap
  · intro exchange index same found handle operation message
    have spares := Message.spares_toValue sparing heap message
    simp only [Exchange.finishTake, found, same]
    cases built : message.toValue context heap with
    | mk result after =>
        rw [built] at spares
        cases result with
        | ok value => exact ⟨spares, rfl⟩
        | error err => exact ⟨spares, rfl⟩

/-- A message that gives the receiver's global environment an attribute arrives, and the environment
does not get it. -/
theorem receiving_spares_global :
    let created := Context.create Heap.initial "receiver" Codec.packed
    let global := created.1.environments.global
    let exchange : Exchange :=
      { heap := created.2, contexts := #[created.1], channels := #[]
        registry := .ofConfig .standard }
    let received := exchange.finishTake 0 ⟨1, .worker⟩ .receive
      (.attributed (.plain global) [("note", .plain Ref.unbound)])
    received.1.toOption = some (some global) ∧ (created.2.body global).isNamed = true ∧
      received.2.heap.get global = created.2.get global ∧
      received.2.contexts = exchange.contexts := by
  intro created global exchange received
  have spared := (receiving_spares_named created.1 rfl created.2).2.2 exchange 0 rfl rfl
    ⟨1, .worker⟩ .receive (.attributed (.plain global) [("note", .plain Ref.unbound)])
  exact ⟨rfl, rfl, spared.1.named global rfl, spared.2⟩

end ValueChannels
