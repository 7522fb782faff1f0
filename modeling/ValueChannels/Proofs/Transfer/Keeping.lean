import ValueChannels.Proofs.Transfer.Composition
import ValueChannels.Proofs.Transfer.Steps

/-!
Conditions that the building of a value keeps. Building is a sequence of a few kinds of steps: making
an object, filling an environment that was made for the message, entering an element, installing
attributes, and reading bytes. What all of these keep is kept by every message, whatever it is made of
and whether it can be built or not. Main statement: `Message.keeps_build`.
-/

namespace ValueChannels.Message

variable {context : Context} {kept : Heap → Prop} {own : Ref → Prop}
  {allowed : ChannelError → Prop} {α β : Type}

/-- Every step of the building keeps a condition on the heap, and stops with an allowed error if it
stops. Bindings and parents are only written to what the building owns. -/
structure Tenable (context : Context) (kept : Heap → Prop) (own : Ref → Prop)
    (allowed : ChannelError → Prop) : Prop where
  alloc : ∀ heap body, kept heap → kept (heap.alloc body).2
  made : ∀ heap body, kept heap → own (heap.alloc body).1
  define : ∀ heap env name value, kept heap → own env → kept (heap.define env name value)
  setParent : ∀ heap env parent, kept heap → own env → kept (heap.setParent env parent)
  setElement : ∀ heap shell index value, kept heap → kept (heap.setElement shell index value).heap
  install : ∀ heap ref entries, kept heap → kept (install heap ref entries)
  unserialize : ∀ heap blob, kept heap →
    Ends (context.codec.unserialize context.environments blob) heap (fun _ => kept) fun _ => kept
  uncaptured : ∀ id, allowed (.transfer (.uncapturedEnvironment id))
  misfit : ∀ reason, allowed (.transfer (.misfit reason))
  decoding : ∀ part reason, allowed (.ofDecoding part reason)

/-- From a heap with the condition to one with it, and to an allowed error or to a result. -/
def Keeps (kept : Heap → Prop) (allowed : ChannelError → Prop) (action : Building α) : Prop :=
  ∀ before : Rebuild, kept before.heap →
    Ends action before (fun _ after => kept after.heap) fun err after =>
      kept after.heap ∧ allowed err

namespace Keeps

theorem pure (result : α) : Keeps kept allowed (Pure.pure result : Building α) :=
  fun _ holds => Ends.pure holds

theorem throw {err : ChannelError} (raises : allowed err) :
    Keeps kept allowed (MonadExcept.throw err : Building α) :=
  fun _ holds => Ends.throw ⟨holds, raises⟩

theorem bind {action : Building α} {next : α → Building β} (first : Keeps kept allowed action)
    (second : ∀ result, Keeps kept allowed (next result)) :
    Keeps kept allowed (action >>= next) := by
  intro before holds
  apply Ends.bind
  apply (first before holds).mono
  · intro result middle still
    exact second result middle still
  · intro _ _ failed
    exact failed

theorem onHeap {step : Heap → α × Heap} (still : ∀ heap, kept heap → kept (step heap).2) :
    Keeps kept allowed (Rebuilding.onHeap step : Building α) :=
  fun before holds => Ends.modifyGet (still before.heap holds)

theorem resolve (uncaptured : ∀ id, allowed (.transfer (.uncapturedEnvironment id))) (id : UInt32) :
    Keeps kept allowed (Rebuilding.resolve (fun id => .transfer (.uncapturedEnvironment id)) id :
      Building Ref) := by
  intro before holds
  unfold Rebuilding.resolve
  apply Ends.bind
  apply Ends.get
  split
  · exact Ends.pure holds
  · exact Ends.throw ⟨holds, uncaptured id⟩

theorem unserialize (tenable : Tenable context kept own allowed) (blob : Bytes) :
    Keeps kept allowed (Building.unserialize context blob) := by
  intro before holds
  have reads := tenable.unserialize before.heap blob holds
  unfold Ends Building.unserialize
  unfold Ends at reads
  cases ended : context.codec.unserialize context.environments blob before.heap with
  | ok ref heap =>
      rw [ended] at reads
      exact reads
  | error reason heap =>
      rw [ended] at reads
      exact ⟨reads, tenable.decoding .encodedValue reason⟩

/-- All writing to the environment that is made here goes to one that the building owns, and that is
all that the rest of the building has to know of it. -/
theorem capture (tenable : Tenable context kept own allowed) (id : UInt32) {next : Ref → Building α}
    (rest : ∀ env, own env → Keeps kept allowed (next env)) :
    Keeps kept allowed (do
      let env ← Rebuilding.onHeap fun heap => heap.allocLocal context.environments.empty
      Rebuilding.register id env
      next env) := by
  intro before holds
  apply Ends.bind
  apply Ends.modifyGet
  apply Ends.bind
  apply Ends.modifyGet
  let body := Body.environment
    { kind := .localEnv, bindings := Mapping.empty, parent := some context.environments.empty }
  have owned := tenable.made before.heap body holds
  exact rest (before.heap.alloc body).1 owned _ (tenable.alloc before.heap body holds)

end Keeps

theorem composes_keeps (tenable : Tenable context kept own allowed) :
    Composes context (fun _ => True) own fun _ _ => Keeps kept allowed where
  pure := .pure
  bind := .bind
  inner := fun _ keeps => keeps
  capture := .capture tenable _
  resolve := .resolve tenable.uncaptured
  define := fun name value owned => .onHeap fun heap holds =>
    tenable.define heap _ name value holds owned
  setParent := fun parent owned => .onHeap fun heap holds =>
    tenable.setParent heap _ parent holds owned
  setElement := fun shell index element => .onHeap fun heap holds =>
    tenable.setElement heap shell index element holds
  misfit := fun reason => .throw (tenable.misfit reason)
  install := fun ref entries => .onHeap fun heap holds => tenable.install heap ref entries holds
  alloc := fun body => .onHeap fun heap holds => tenable.alloc heap body holds
  unserialize := fun _ => .unserialize tenable _
  broken := fun _ _ => .throw (tenable.decoding .promiseExpression _)
  part := fun _ _ => trivial

/-- What every step of the building keeps is kept by every message. -/
theorem keeps_build (tenable : Tenable context kept own allowed) (message : Message) :
    Keeps kept allowed (message.build context) :=
  (composes_keeps tenable).build message trivial

/-- What every step keeps is there when the building ends, and an error that it ends with is one that
a step allows. -/
theorem kept_toValue (tenable : Tenable context kept own allowed) {heap : Heap} (holds : kept heap)
    (message : Message) : kept (message.toValue context heap).2 ∧
      ∀ err, (message.toValue context heap).1 = .error err → allowed err := by
  have ends := keeps_build tenable message { heap, environments := [] } holds
  unfold Ends at ends
  unfold toValue
  cases built : message.build context { heap, environments := [] } with
  | ok ref state =>
      rw [built] at ends
      exact ⟨ends, fun _ impossible => nomatch impossible⟩
  | error reason state =>
      rw [built] at ends
      refine ⟨ends.1, ?_⟩
      intro err same
      cases same
      exact ends.2

end ValueChannels.Message
