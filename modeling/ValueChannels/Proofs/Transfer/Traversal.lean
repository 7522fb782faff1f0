import ValueChannels.Proofs.Transfer.Conversion

/-!
What the conversion of a value does to the heap, and what it fails with, by the few steps that it is
made of. A relation between heaps that each of these steps respects is respected by every
conversion, to its end or to its error. Main statement: `Steps.ofValue`.
-/

namespace ValueChannels.Message

variable {context : Context} {related : Heap → Heap → Prop} {refuses : ChannelError → Prop}

/-- Whatever the action ends with, the heaps before and after it are related, and an error is one of
the given ones. -/
def Respects (related : Heap → Heap → Prop) (refuses : ChannelError → Prop) {α : Type}
    (action : Converting α) : Prop :=
  ∀ before, Ends action before (fun _ after => related before.heap after.heap)
    fun err after => refuses err ∧ related before.heap after.heap

/-- The steps that conversions are made of, and the errors that they are given up with. -/
structure Steps (context : Context) (related : Heap → Heap → Prop)
    (refuses : ChannelError → Prop) : Prop where
  refl : ∀ heap, related heap heap
  trans : ∀ {before middle after}, related before middle → related middle after →
    related before after
  mark : ∀ heap ref, related heap (heap.makeShared ref).2
  copy : ∀ heap ref, related heap (heap.bareCopy ref).2
  encode : ∀ heap ref, related heap (blobOf context.codec heap ref).2
  endless : refuses .endless
  unwritten : ∀ kind reason, refuses (.serialization kind reason)

theorem Respects.map {α β : Type} {action : Converting α} {change : α → β}
    (first : Respects related refuses action) : Respects related refuses (change <$> action) :=
  fun before => Ends.map ((first before).mono (fun _ _ here => here) fun _ _ failed => failed)

theorem Respects.onHeap {α : Type} {step : Heap → α × Heap}
    (taken : ∀ heap, related heap (step heap).2) :
    Respects related refuses (Converting.onHeap step) :=
  fun before => ends_onHeap (taken before.heap)

namespace Steps

variable (steps : Steps context related refuses)

include steps

section Combinators

variable {α β : Type} {action : Converting α} {next : α → Converting β}

theorem pure (result : α) : Respects related refuses (Pure.pure result) :=
  fun before => steps.refl before.heap

theorem get : Respects related refuses MonadState.get :=
  fun before => steps.refl before.heap

theorem heap : Respects related refuses Converting.heap :=
  fun before => steps.refl before.heap

theorem enter (environments : List Ref) :
    Respects related refuses
      (modify fun state => { state with environments } : Converting PUnit) :=
  fun before => steps.refl before.heap

theorem throw {err : ChannelError} (refused : refuses err) :
    Respects related refuses (MonadExcept.throw err : Converting α) :=
  fun before => ⟨refused, steps.refl before.heap⟩

theorem bind (first : Respects related refuses action)
    (second : ∀ result, Respects related refuses (next result)) :
    Respects related refuses (action >>= next) := by
  intro before
  refine Ends.bind ((first before).mono ?_ fun _ _ failed => failed)
  intro result middle here
  apply (second result middle).mono
  · exact fun _ _ there => steps.trans here there
  · exact fun _ _ failed => ⟨failed.1, steps.trans here failed.2⟩

end Combinators

section Parts

variable {convert : Ref → Converting Message} (each : ∀ ref, Respects related refuses (convert ref))

include each

theorem entries (entries : List (String × Ref)) :
    Respects related refuses (convertEntries convert entries) := by
  induction entries with
  | nil => exact steps.pure _
  | cons entry rest ih =>
      exact steps.bind (each entry.2) fun _ => steps.bind ih fun _ => steps.pure _

theorem all (refs : List Ref) : Respects related refuses (convertAll convert refs) := by
  induction refs with
  | nil => exact steps.pure _
  | cons ref rest ih => exact steps.bind (each ref) fun _ => steps.bind ih fun _ => steps.pure _

theorem optional (optional : Option Ref) :
    Respects related refuses (convertOptional convert optional) := by
  cases optional with
  | none => exact steps.pure _
  | some ref => exact (each ref).map

theorem attributes (attributes : Option Attributes) :
    Respects related refuses (convertAttributes convert attributes) := by
  cases attributes with
  | none => exact steps.pure _
  | some mapping => exact steps.bind (steps.entries each mapping.entries) fun _ => steps.pure _

theorem list (list : Ref) (items : List Ref) :
    Respects related refuses (convertList convert list items) := by
  refine steps.bind (steps.all each items) fun messages => steps.bind steps.heap fun heap =>
    steps.bind (steps.attributes each _) fun converted => ?_
  split
  · exact steps.bind (.onHeap fun heap => steps.mark heap list) fun _ => steps.pure _
  · exact steps.bind (.onHeap fun heap => steps.copy heap list) fun _ => steps.pure _

theorem environment (env : Ref) (frame : Frame) :
    Respects related refuses (convertEnvironment convert env frame) := by
  unfold convertEnvironment
  refine steps.bind steps.get fun state => ?_
  dsimp only
  split
  · exact steps.pure _
  · exact steps.bind (steps.enter _) fun _ => steps.bind (steps.entries each _) fun _ =>
      steps.bind (steps.optional each _) fun _ => steps.bind steps.heap fun _ =>
        steps.bind (steps.attributes each _) fun _ => steps.pure _

theorem promise (delayed : Promise) :
    Respects related refuses (convertPromise context convert delayed) := by
  unfold convertPromise
  split
  · exact steps.throw (steps.unwritten _ _)
  · split
    · exact steps.bind (each _) fun _ => steps.pure _
    · exact steps.bind (each _) fun _ => steps.pure _

theorem encoded (ref : Ref) :
    Respects related refuses (convertEncoded context convert ref) := by
  refine steps.bind steps.heap fun before =>
    steps.bind (.onHeap fun heap => steps.encode heap ref) fun written => ?_
  split
  · exact steps.throw steps.endless
  · exact steps.throw (steps.unwritten _ _)
  · exact steps.bind (steps.attributes each _) fun _ => steps.pure _

theorem plain (ref : Ref) : Respects related refuses (convertPlain convert ref) := by
  refine steps.bind (.onHeap fun heap => steps.mark heap ref) fun _ =>
    steps.bind steps.heap fun heap => steps.bind (steps.attributes each _) fun converted => ?_
  split
  · exact steps.pure _
  · split
    · exact steps.pure _
    · exact steps.bind (.onHeap fun heap => steps.copy heap ref) fun _ => steps.pure _

end Parts

/-- Every conversion respects what its steps respect, however deep it goes. -/
theorem within (depth : Nat) (ref : Ref) :
    Respects related refuses (convertWithin context depth ref) := by
  induction depth generalizing ref with
  | zero => exact steps.throw steps.endless
  | succ depth ih =>
      rw [convertWithin]
      refine steps.bind steps.heap fun heap => ?_
      split
      · exact steps.list ih ref _
      · split
        · exact steps.environment ih ref _
        · exact steps.encoded ih ref
      · exact steps.promise ih _
      · exact steps.encoded ih ref
      · exact steps.encoded ih ref
      · exact steps.encoded ih ref
      · exact steps.plain ih ref
      · exact steps.plain ih ref
      · exact steps.plain ih ref

theorem ofValue (heap : Heap) (ref : Ref) : related heap (ofValue context heap ref).2 ∧
    ∀ err, (ofValue context heap ref).1 = .error err → refuses err := by
  have ends := steps.within (Node.depthBound heap) ref { heap, environments := [] }
  unfold Message.ofValue
  unfold Ends at ends
  split at ends
  · rename_i message state ended
    rw [ended]
    exact ⟨ends, nofun⟩
  · rename_i err state ended
    rw [ended]
    refine ⟨ends.2, fun reason same => ?_⟩
    cases same
    exact ends.1

end Steps

end ValueChannels.Message
