import ValueChannels.Proofs.Heap.Mappings
import ValueChannels.Proofs.Heap.Soundness
import ValueChannels.Proofs.Heap.Updates

/-!
Edits through a handle. An edit that is made changes one object, as requested: the one behind the
handle, or its private copy when it is shared. Main statements: `value_semantics` for edits that are
made, and `spared_of_refused` for edits that are refused, which change no object but may have moved
the handle to a copy.
-/

namespace ValueChannels

/-- What is requested of the object behind a handle. -/
inductive Edit where
  | setAttribute (name : String) (value : Ref)
  | setElement (index : Nat) (value : Ref)
  | pushElement (value : Ref)
  | updateVector (change : AtomicVector → AtomicVector)

/-- Whether the object cannot be edited in this way at all. -/
def UpdateError.isWrongKind : UpdateError → Bool
  | .expectedList _ | .expectedVector _ => true
  | .indexOutOfBounds _ _ | .typeChanged _ _ => false

namespace Edit

def perform (heap : Heap) (handle : Ref) : Edit → Update
  | .setAttribute name value =>
      let (target, after) := heap.setAttribute handle name value
      { handle := target, heap := after, outcome := .ok () }
  | .setElement index value => heap.setElement handle index value
  | .pushElement value => heap.pushElement handle value
  | .updateVector change => heap.updateVector handle change

/-- The later object is the earlier one with exactly the requested change. -/
def Changes (before after : Object) : Edit → Prop
  | .setAttribute name value =>
      after.body = before.body ∧ Attributes.Sets before.attributes name value after.attributes
  | .setElement index value =>
      after.attributes = before.attributes ∧ ∃ items others, before.body = .list items ∧
        after.body = .list others ∧ index < items.length ∧ others.length = items.length ∧
        others[index]? = some value ∧ ∀ other ≠ index, others[other]? = items[other]?
  | .pushElement value =>
      after.attributes = before.attributes ∧ ∃ items, before.body = .list items ∧
        after.body = .list (items ++ [value])
  | .updateVector change =>
      after.attributes = before.attributes ∧ ∃ data, before.body = .vector data ∧
        after.body = .vector (change data) ∧ (change data).kind = data.kind

end Edit

theorem Body.copies_of_isShareable {body : Body} (shareable : body.isShareable = true)
    (proper : body.isSingleton = false) : body.copiesToItself = false := by
  cases body <;> simp_all [isShareable, isSingleton, copiesToItself]

namespace Heap

variable {heap after : Heap} {handle target : Ref} {edit : Edit}

/-! ### Handles of their own -/

/-- A handle has come to an object that may be written to: its own, or a new copy of the one that
it had. -/
structure Owns (heap : Heap) (handle target : Ref) (after : Heap) : Prop where
  content : after.get target = { heap.get handle with shared := false }
  inside : target.index < after.size
  shared : heap.isShared handle = true → target.index = heap.size ∧ after.size = heap.size + 1
  unshared : heap.isShared handle = false → target = handle ∧ after.size = heap.size
  others : ∀ other, other.index < heap.size → other ≠ target → after.get other = heap.get other

theorem Sound.proper (sound : heap.Sound) (ref : Ref) :
    Attributes.Proper ((heap.attributes ref).getD Mapping.empty) := by
  cases has : heap.attributes ref with
  | none => exact ⟨List.nodup_nil, List.forall_mem_nil _⟩
  | some mapping =>
      exact ((sound.object ref (heap.inside_of_attributes has)).attributes mapping has).2

theorem makePrivate_unshared (unshared : heap.isShared handle = false) :
    heap.makePrivate handle = (handle, heap) := by
  simp [makePrivate, unshared]

theorem owns_makePrivate (sound : heap.Sound) (inside : handle.index < heap.size)
    (proper : (heap.body handle).isSingleton = false) :
    heap.Owns handle (heap.makePrivate handle).1 (heap.makePrivate handle).2 := by
  -- A handle stays on an object that nobody else has, and moves to a new copy of a shared one.
  rcases heap.makePrivate_cases handle with ⟨stays, free⟩ | ⟨copies, moves⟩
  · rw [stays]
    have unshared : heap.isShared handle = false := by
      rcases free with unshared | itself
      · exact unshared
      · refine Bool.eq_false_iff.mpr fun shared => ?_
        have shareable : (heap.body handle).isShareable = true :=
          (sound.object handle inside).shared shared
        rw [Body.copies_of_isShareable shareable proper] at itself
        cases itself
    constructor
    · exact Object.ext rfl rfl unshared
    · exact inside
    · intro shared
      rw [unshared] at shared
      cases shared
    · exact fun _ => ⟨rfl, rfl⟩
    · exact fun _ _ _ => rfl
  · have shared : heap.isShared handle = true := by
      cases mark : heap.isShared handle with
      | true => rfl
      | false =>
          have index := congrArg (fun moved => moved.1.index)
            ((makePrivate_unshared mark).symm.trans moves)
          exact absurd index (Nat.ne_of_lt inside)
    rw [moves]
    constructor
    · rw [get_copied, sound.normal inside]
      rfl
    · rw [size_replaceAttributes]
      exact heap.inside_alloc _
    · intro _
      rw [size_replaceAttributes, heap.size_alloc]
      exact ⟨rfl, rfl⟩
    · intro unshared
      rw [shared] at unshared
      cases unshared
    · intro other there _
      exact heap.get_copied_old handle _ there

/-! ### Edits that are made -/

/-- The edit was made. The handle leads to an unshared object of the same kind with exactly the
requested change. That is a new object when the one before was shared, which is as it was for all
others, and otherwise it is the object itself; no other object is changed. -/
structure Edited (heap : Heap) (handle : Ref) (edit : Edit) (made : Update) : Prop where
  change : edit.Changes (heap.get handle) (made.heap.get made.handle)
  kind : made.heap.kind made.handle = heap.kind handle
  unmarked : made.heap.isShared made.handle = false
  shared : heap.isShared handle = true →
    made.handle.index = heap.size ∧ made.heap.size = heap.size + 1 ∧
      made.heap.get handle = heap.get handle
  unshared : heap.isShared handle = false → made.handle = handle ∧ made.heap.size = heap.size
  others : ∀ third, third.index < heap.size → third ≠ made.handle →
    made.heap.get third = heap.get third

/-- What is written to the object that the handle has come to is all that an edit changes. -/
theorem Owns.edited {made : Update} (owns : heap.Owns handle target after)
    (place : made.handle = target) (size : made.heap.size = after.size)
    (others : ∀ other, other ≠ target → made.heap.get other = after.get other)
    (unmarked : made.heap.isShared target = after.isShared target)
    (kind : made.heap.kind target = after.kind target)
    (change : edit.Changes (heap.get handle) (made.heap.get target)) :
    heap.Edited handle edit made := by
  have content := owns.content
  constructor
  · rw [place]
    exact change
  · rw [place, kind]
    exact congrArg (fun object => object.body.kind) content
  · rw [place, unmarked]
    exact congrArg Object.shared content
  · intro shared
    have there := owns.shared shared
    have apart : handle ≠ target := by
      intro same
      have inside := inside_of_shared shared
      rw [same, there.1] at inside
      exact Nat.lt_irrefl _ inside
    refine ⟨place ▸ there.1, size.trans there.2, ?_⟩
    rw [others handle apart]
    exact owns.others handle (inside_of_shared shared) apart
  · intro unshared
    have there := owns.unshared unshared
    exact ⟨place.trans there.1, size.trans there.2⟩
  · intro third inside apart
    rw [place] at apart
    rw [others third apart]
    exact owns.others third inside apart

theorem Owns.edited_setBody (owns : heap.Owns handle target after) {body : Body}
    (kind : body.kind = heap.kind handle)
    (change : edit.Changes (heap.get handle) { heap.get handle with body, shared := false }) :
    heap.Edited handle edit
      { handle := target, heap := after.setBody target body, outcome := .ok () } := by
  have written : (after.setBody target body).get target =
      { heap.get handle with body, shared := false } := by
    rw [after.get_setBody_same body owns.inside, owns.content]
  apply owns.edited rfl (after.size_setBody target body)
  · exact fun other apart => after.get_setBody_other body apart
  · rw [isShared, written, isShared, owns.content]
  · rw [Heap.kind, Heap.body, written, kind, Heap.kind, Heap.kind, Heap.body, Heap.body,
      owns.content]
  · rw [written]
    exact change

/-- An edit that is made has value semantics: the handle leads to an object with exactly the
requested change, which no handle to a shared object sees but this one, and every handle to an
unshared one. -/
theorem value_semantics (sound : heap.Sound) (inside : handle.index < heap.size)
    (proper : (heap.body handle).isSingleton = false)
    (made : (edit.perform heap handle).outcome = .ok ()) :
    heap.Edited handle edit (edit.perform heap handle) := by
  have owns := owns_makePrivate sound inside proper
  -- Whatever the edit, the handle is first moved off an object that is shared, and only its own
  -- object is written then.
  cases edit with
  | setAttribute name value =>
      clear made
      simp only [Edit.perform, setAttribute]
      generalize heap.makePrivate handle = moved at owns ⊢
      obtain ⟨target, after⟩ := moved
      have written := after.get_replaceAttributes_same
        (some (Attributes.set ((after.attributes target).getD Mapping.empty) name value))
        owns.inside
      have attributes : after.attributes target = heap.attributes handle := by
        rw [Heap.attributes, owns.content]
        rfl
      apply owns.edited rfl (after.size_replaceAttributes target _)
      · exact fun other apart => after.get_replaceAttributes_other _ apart
      · rw [isShared, written, isShared]
      · exact after.kind_replaceAttributes target target _
      · dsimp only
        rw [written, attributes, owns.content]
        exact ⟨rfl, Attributes.setting (sound.proper handle).1 name value⟩
  | setElement index value =>
      simp only [Edit.perform, setElement] at made ⊢
      cases content : heap.body handle with
      | list items =>
          have kind : (Body.list (items.set index value)).kind = heap.kind handle := by
            rw [Heap.kind, content]
            rfl
          simp only [content] at made ⊢
          split at made
          · rename_i there
            simp only [there, if_true]
            refine owns.edited_setBody kind ⟨rfl, items, _, content, rfl, there, ?_, ?_, ?_⟩
            · exact List.length_set
            · exact List.getElem?_set_self there
            · exact fun other apart => List.getElem?_set_ne (Ne.symm apart)
          · cases made
      | _ =>
          rw [content] at made
          cases made
  | pushElement value =>
      simp only [Edit.perform, pushElement] at made ⊢
      cases content : heap.body handle with
      | list items =>
          have kind : (Body.list (items ++ [value])).kind = heap.kind handle := by
            rw [Heap.kind, content]
            rfl
          exact owns.edited_setBody kind ⟨rfl, items, content, rfl⟩
      | _ =>
          rw [content] at made
          cases made
  | updateVector change =>
      simp only [Edit.perform, updateVector] at made ⊢
      cases content : heap.body handle with
      | vector data =>
          simp only [content] at made ⊢
          split at made
          · rename_i same
            have kind : (Body.vector (change data)).kind = heap.kind handle := by
              rw [Heap.kind, content]
              exact same
            simp only [same, if_true]
            exact owns.edited_setBody kind ⟨rfl, data, content, rfl, same⟩
          · cases made
      | _ =>
          rw [content] at made
          cases made

/-- A shared list of one number. -/
def sharedListHeap : Heap :=
  let (number, heap) := Heap.initial.alloc (.vector (.integer [7]))
  let (list, heap) := heap.alloc (.list [number])
  (heap.makeShared list).2

theorem sound_sharedListHeap : sharedListHeap.Sound := by
  refine Sound.makeShared (Sound.alloc (sound_initial.allocVector _) ?_ ?_ ?_ ?_) ⟨3⟩
  · exact fun impossible => nomatch impossible
  · exact fun impossible => nomatch impossible
  · exact fun _ impossible => nomatch impossible
  · decide

/-- The element is replaced in a copy, and the shared list keeps it. -/
theorem value_semantics_sharedList :
    let edit := Edit.setElement 0 Ref.null
    (sharedListHeap.Sound ∧ 3 < sharedListHeap.size ∧ sharedListHeap.isShared ⟨3⟩ = true ∧
      (sharedListHeap.body ⟨3⟩).isSingleton = false) ∧
      (edit.perform sharedListHeap ⟨3⟩).outcome = .ok () ∧
      sharedListHeap.Edited ⟨3⟩ edit (edit.perform sharedListHeap ⟨3⟩) :=
  ⟨⟨sound_sharedListHeap, by decide, rfl, rfl⟩, rfl,
    value_semantics sound_sharedListHeap (by decide) rfl rfl⟩

/-! ### Edits that are refused -/

/-- The edit was refused and no object is changed. The handle stays where it is when the object is
not of the kind that can be edited in this way, or is not shared. Otherwise it has moved to a copy,
which is not shared. -/
structure Refused (heap : Heap) (handle : Ref) (reason : UpdateError) (made : Update) : Prop where
  objects : ∀ found, found.index < heap.size → made.heap.get found = heap.get found
  stays : reason.isWrongKind = true ∨ heap.isShared handle = false →
    made.handle = handle ∧ made.heap = heap
  moves : reason.isWrongKind = false → heap.isShared handle = true →
    made.handle.index = heap.size ∧ made.heap.size = heap.size + 1 ∧
      made.heap.get made.handle =
        { body := heap.body handle, attributes := Attributes.normalize (heap.attributes handle)
          shared := false }

variable {reason : UpdateError}

/-- The kind is looked at before the handle is moved. -/
theorem refused_wrongKind (heap : Heap) (handle : Ref) (wrong : reason.isWrongKind = true) :
    heap.Refused handle reason { handle, heap, outcome := .error reason } := by
  constructor
  · exact fun _ _ => rfl
  · exact fun _ => ⟨rfl, rfl⟩
  · intro right
    rw [wrong] at right
    cases right

/-- Everything else is looked at only after the handle has moved off a shared object. -/
theorem refused_makePrivate (copies : (heap.body handle).copiesToItself = false)
    (right : reason.isWrongKind = false) :
    heap.Refused handle reason
      { handle := (heap.makePrivate handle).1, heap := (heap.makePrivate handle).2
        outcome := .error reason } := by
  rcases heap.makePrivate_cases handle with ⟨stays, unshared | itself⟩ | ⟨_, moves⟩
  · rw [stays]
    constructor
    · exact fun _ _ => rfl
    · exact fun _ => ⟨rfl, rfl⟩
    · intro _ shared
      rw [unshared] at shared
      cases shared
  · rw [copies] at itself
    cases itself
  · constructor
    · intro other inside
      rw [moves]
      exact heap.get_copied_old handle _ inside
    · rintro (wrong | unshared)
      · rw [right] at wrong
        cases wrong
      · rw [makePrivate_unshared unshared]
        exact ⟨rfl, rfl⟩
    · intro _ _
      rw [moves]
      refine ⟨rfl, ?_, heap.get_copied handle _⟩
      rw [size_replaceAttributes, heap.size_alloc]

/-- An edit that is refused changes no object, whatever the heap, the handle and the edit. -/
theorem spared_of_refused (refused : (edit.perform heap handle).outcome = .error reason) :
    heap.Refused handle reason (edit.perform heap handle) := by
  cases edit with
  | setAttribute name value => cases refused
  | setElement index value =>
      simp only [Edit.perform, setElement] at refused ⊢
      cases content : heap.body handle with
      | list items =>
          simp only [content] at refused ⊢
          split at refused
          · cases refused
          · rename_i beyond
            cases refused
            simp only [beyond, if_false]
            exact refused_makePrivate (by rw [content]; rfl) rfl
      | _ =>
          rw [content] at refused
          cases refused
          exact refused_wrongKind heap handle rfl
  | pushElement value =>
      simp only [Edit.perform, pushElement] at refused ⊢
      cases content : heap.body handle with
      | list items =>
          rw [content] at refused
          cases refused
      | _ =>
          rw [content] at refused
          cases refused
          exact refused_wrongKind heap handle rfl
  | updateVector change =>
      simp only [Edit.perform, updateVector] at refused ⊢
      cases content : heap.body handle with
      | vector data =>
          simp only [content] at refused ⊢
          split at refused
          · cases refused
          · rename_i other
            cases refused
            simp only [other, if_false]
            exact refused_makePrivate (by rw [content]; rfl) rfl
      | _ =>
          rw [content] at refused
          cases refused
          exact refused_wrongKind heap handle rfl

/-- There is no second element to replace. -/
theorem spared_sharedList :
    let edit := Edit.setElement 1 Ref.null
    (edit.perform sharedListHeap ⟨3⟩).outcome = .error (.indexOutOfBounds 1 1) ∧
      sharedListHeap.Refused ⟨3⟩ (.indexOutOfBounds 1 1) (edit.perform sharedListHeap ⟨3⟩) :=
  ⟨rfl, spared_of_refused rfl⟩

/-- The handle that this edit was to go through leads to another object afterwards, which is not
shared, although the edit was refused. -/
theorem strays_sharedList :
    let made := (Edit.setElement 1 Ref.null).perform sharedListHeap ⟨3⟩
    sharedListHeap.Sound ∧ sharedListHeap.isShared ⟨3⟩ = true ∧
      made.outcome = .error (.indexOutOfBounds 1 1) ∧ made.handle ≠ ⟨3⟩ ∧
      made.heap.isShared made.handle = false :=
  ⟨sound_sharedListHeap, rfl, rfl, by decide, rfl⟩

end Heap

end ValueChannels
