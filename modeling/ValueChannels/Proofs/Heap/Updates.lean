import ValueChannels.Proofs.Heap.Reach

/-!
What programs can do to the objects that their contexts share. Vectors and lists that are marked
as shared are never written to: an update through a handle moves to a copy first. Some objects are
hidden, which means that no object refers to them. Main statements: `Upholds.extend` and
`Upholds.write` for new objects and for writes to one object, and what each kind of update leaves
alone.
-/

namespace ValueChannels

namespace Body

/-- Whether the body is that of NULL or of the unbound value. -/
def isSingleton : Body → Bool
  | .null | .unbound => true
  | _ => false

theorem isSingleton_of_isData {body : Body} (data : body.isData = true)
    (itself : body.copiesToItself = true) : body.isSingleton = true := by
  cases body <;> simp_all [isData, copiesToItself, isSingleton]

theorem copiesToItself_of_isSingleton {body : Body} (singleton : body.isSingleton = true) :
    body.copiesToItself = true := by
  cases body <;> first | rfl | cases singleton

theorem isData_of_isSingleton {body : Body} (singleton : body.isSingleton = true) :
    body.isData = true := by
  cases body <;> first | rfl | cases singleton

end Body

/-- The object is as it was, and shared. The attributes of a singleton are left open. -/
structure Object.Stays (before after : Object) : Prop where
  body : after.body = before.body
  shared : after.shared = true
  attributes : after.attributes = before.attributes ∨ before.body.isSingleton = true

namespace Heap

variable {hidden mine : Ref → Prop} {heap before middle after : Heap} {handle target value : Ref}

/-- The reference may stand in an object: its address was handed out, and it is not hidden. -/
def Public (hidden : Ref → Prop) (heap : Heap) (ref : Ref) : Prop :=
  ref.index < heap.size ∧ ¬hidden ref

/-- No object refers to a hidden one. -/
def Closed (hidden : Ref → Prop) (heap : Heap) : Prop :=
  ∀ ref, ∀ child ∈ (heap.get ref).children, heap.Public hidden child

/-- NULL and the unbound value have no attributes. -/
def Bare (heap : Heap) : Prop :=
  ∀ ref, (heap.body ref).isSingleton = true → heap.attributes ref = none

theorem bare_of_all (all : ∀ object ∈ heap.objects.toList,
    object.body.isSingleton = true → object.attributes.isNone = true) : heap.Bare := by
  intro ref singleton
  by_cases inside : ref.index < heap.objects.size
  · have here : heap.get ref = heap.objects[ref.index] := by
      simp [get, inside]
    have member : heap.get ref ∈ heap.objects.toList := by
      rw [here]
      exact Array.getElem_mem_toList inside
    exact Option.isNone_iff_eq_none.mp (all _ member singleton)
  · rw [attributes, heap.get_outside (Nat.le_of_not_lt inside)]
    rfl

theorem Bare.alloc (bare : heap.Bare) (body : Body) : (heap.alloc body).2.Bare := by
  intro ref singleton
  by_cases inside : ref.index < (heap.alloc body).2.size
  · rcases heap.inside_alloc_cases body inside with there | new
    · have old := heap.get_alloc_old body there
      rw [Heap.body, old] at singleton
      rw [attributes, old]
      exact bare ref singleton
    · rw [new, attributes, heap.get_alloc_new]
      rfl
  · rw [attributes, get_outside _ (Nat.le_of_not_lt inside)]
    rfl

/-- The object is data and marked as shared. -/
def SharedData (heap : Heap) (ref : Ref) : Prop :=
  heap.isShared ref = true ∧ (heap.body ref).isData = true

/-- What every step upholds. Shared data stays as it is, except for the objects that are `mine`,
which somebody else does not know. Hidden objects keep their bodies, environments their kinds. -/
structure Upholds (hidden mine : Ref → Prop) (before after : Heap) : Prop where
  size : before.size ≤ after.size
  same : ∀ ref, before.SharedData ref → ¬mine ref → (before.get ref).Stays (after.get ref)
  covered : ∀ ref, ref.index < before.size → hidden ref → after.body ref = before.body ref
  frame : ∀ ref frame, ¬mine ref → before.body ref = .environment frame →
    ∃ frame', after.body ref = .environment frame' ∧ frame'.kind = frame.kind
  closed : before.Closed hidden → after.Closed hidden

theorem inside_of_shared {ref : Ref} (shared : heap.isShared ref = true) :
    ref.index < heap.size := by
  refine Nat.lt_of_not_le ?_
  intro outside
  rw [isShared, heap.get_outside outside] at shared
  cases shared

theorem children_outside {ref child : Ref} (outside : heap.size ≤ ref.index)
    (member : child ∈ (heap.get ref).children) : False := by
  rw [heap.get_outside outside] at member
  cases member

theorem Public.later (isPublic : heap.Public hidden target) (size : heap.size ≤ after.size) :
    after.Public hidden target :=
  ⟨Nat.lt_of_lt_of_le isPublic.1 size, isPublic.2⟩

theorem Closed.later (closed : heap.Closed hidden) :
    heap.Closed fun ref => hidden ref ∨ heap.size ≤ ref.index := by
  intro ref child member
  have isPublic := closed ref child member
  refine ⟨isPublic.1, ?_⟩
  intro isHidden
  rcases isHidden with early | new
  · exact isPublic.2 early
  · exact Nat.not_le_of_lt isPublic.1 new

theorem Closed.attributes (closed : heap.Closed hidden) (ref : Ref) {child : Ref}
    (member : child ∈ (attributeEntries (heap.attributes ref)).map Prod.snd) :
    heap.Public hidden child :=
  closed ref child (List.mem_append_right _ member)

theorem Closed.body (closed : heap.Closed hidden) (ref : Ref) {child : Ref}
    (member : child ∈ (heap.body ref).children) : heap.Public hidden child :=
  closed ref child (List.mem_append_left _ member)

theorem Stays.get_eq {ref : Ref} (stays : (before.get ref).Stays (after.get ref))
    (shared : before.isShared ref = true) (bare : before.Bare) (bare' : after.Bare) :
    after.get ref = before.get ref := by
  refine Object.ext stays.body ?_ (stays.shared.trans shared.symm)
  rcases stays.attributes with same | singleton
  · exact same
  · have singleton' : (after.body ref).isSingleton = true := by
      rw [body, stays.body]
      exact singleton
    exact (bare' ref singleton').trans (bare ref singleton).symm

namespace Upholds

theorem refl (hidden mine : Ref → Prop) (heap : Heap) : Upholds hidden mine heap heap := by
  refine ⟨Nat.le_refl _, ?_, fun _ _ _ => rfl, ?_, id⟩
  · intro ref shared _
    exact ⟨rfl, shared.1, Or.inl rfl⟩
  · intro ref frame _ body
    exact ⟨frame, body, rfl⟩

theorem sharedData (upholds : Upholds hidden mine before after) {ref : Ref}
    (shared : before.SharedData ref) (other : ¬mine ref) : after.SharedData ref := by
  have stays := upholds.same ref shared other
  refine ⟨stays.shared, ?_⟩
  rw [body, stays.body]
  exact shared.2

theorem trans (first : Upholds hidden mine before middle)
    (second : Upholds hidden mine middle after) : Upholds hidden mine before after := by
  refine ⟨Nat.le_trans first.size second.size, ?_, ?_, ?_, second.closed ∘ first.closed⟩
  · intro ref shared other
    have one := first.same ref shared other
    have two := second.same ref (first.sharedData shared other) other
    refine ⟨two.body.trans one.body, two.shared, ?_⟩
    rcases two.attributes with kept | singleton
    · rcases one.attributes with kept' | singleton
      · exact Or.inl (kept.trans kept')
      · exact Or.inr singleton
    · rw [one.body] at singleton
      exact Or.inr singleton
  · intro ref inside isHidden
    have later : ref.index < middle.size := Nat.lt_of_lt_of_le inside first.size
    rw [second.covered ref later isHidden, first.covered ref inside isHidden]
  · intro ref frame other body
    obtain ⟨frame', body', kind⟩ := first.frame ref frame other body
    obtain ⟨frame'', body'', kind'⟩ := second.frame ref frame' other body'
    exact ⟨frame'', body'', kind'.trans kind⟩

theorem of_later (upholds : Upholds (fun ref => hidden ref ∨ before.size ≤ ref.index) mine before
    after) : Upholds hidden mine before after := by
  constructor
  · exact upholds.size
  · exact upholds.same
  · intro ref inside isHidden
    exact upholds.covered ref inside (Or.inl isHidden)
  · exact upholds.frame
  · intro earlier ref child member
    have closed := upholds.closed earlier.later ref child member
    exact ⟨closed.1, fun isHidden => closed.2 (Or.inl isHidden)⟩

/-- New objects, which refer to what is public, leave everything else alone. -/
theorem extend (size : before.size ≤ after.size)
    (same : ∀ ref, ref.index < before.size → after.get ref = before.get ref)
    (closed : before.Closed hidden → ∀ ref, before.size ≤ ref.index →
      ∀ child ∈ (after.get ref).children, after.Public hidden child) :
    Upholds hidden mine before after := by
  refine ⟨size, ?_, ?_, ?_, ?_⟩
  · intro ref shared _
    rw [same ref (inside_of_shared shared.1)]
    exact ⟨rfl, shared.1, Or.inl rfl⟩
  · intro ref inside _
    exact congrArg Object.body (same ref inside)
  · intro ref frame _ body
    have inside : ref.index < before.size := by
      apply before.inside_of_body
      rw [body]
      exact fun impossible => nomatch impossible
    exact ⟨frame, (congrArg Object.body (same ref inside)).trans body, rfl⟩
  · intro earlier ref child member
    by_cases inside : ref.index < before.size
    · rw [same ref inside] at member
      exact (earlier ref child member).later size
    · exact closed earlier ref (Nat.le_of_not_lt inside) child member

theorem alloc {body : Body}
    (closed : heap.Closed hidden → ∀ child ∈ body.children, heap.Public hidden child) :
    Upholds hidden mine heap (heap.alloc body).2 := by
  have size := heap.size_le_alloc body
  refine extend size (fun _ inside => heap.get_alloc_old body inside) ?_
  intro earlier ref outside child member
  have inside : ref.index < (heap.alloc body).2.size :=
    Nat.lt_of_not_le fun beyond => children_outside beyond member
  have new := (heap.inside_alloc_cases body inside).resolve_left (Nat.not_lt_of_le outside)
  rw [new, heap.get_alloc_new, children_fresh] at member
  exact (closed earlier child member).later size

/-- A write to one object. -/
theorem write (size : after.size = before.size)
    (others : ∀ ref, ref ≠ target → after.get ref = before.get ref)
    (stays : before.SharedData target → ¬mine target →
      (before.get target).Stays (after.get target))
    (covered : hidden target → after.body target = before.body target)
    (frame : ¬mine target → ∀ frame, before.body target = .environment frame →
      ∃ frame', after.body target = .environment frame' ∧ frame'.kind = frame.kind)
    (closed : before.Closed hidden → ∀ child ∈ (after.get target).children,
      before.Public hidden child) : Upholds hidden mine before after := by
  have grown : before.size ≤ after.size := Nat.le_of_eq size.symm
  refine ⟨grown, ?_, ?_, ?_, ?_⟩
  · intro ref shared other
    by_cases here : ref = target
    · rw [here] at shared other ⊢
      exact stays shared other
    · rw [others ref here]
      exact ⟨rfl, shared.1, Or.inl rfl⟩
  · intro ref _ isHidden
    by_cases here : ref = target
    · rw [here] at isHidden ⊢
      exact covered isHidden
    · exact congrArg Object.body (others ref here)
  · intro ref content other body
    by_cases here : ref = target
    · rw [here] at body other ⊢
      exact frame other content body
    · exact ⟨content, (congrArg Object.body (others ref here)).trans body, rfl⟩
  · intro earlier ref child member
    by_cases here : ref = target
    · rw [here] at member
      exact (closed earlier child member).later grown
    · rw [others ref here] at member
      exact (earlier ref child member).later grown

theorem modifyFrame {change : Frame → Frame} (uncovered : ¬hidden target)
    (kind : ∀ frame, (change frame).kind = frame.kind)
    (closed : heap.Closed hidden → ∀ child ∈ ((heap.modifyFrame target change).get target).children,
      heap.Public hidden child) : Upholds hidden mine heap (heap.modifyFrame target change) := by
  by_cases framed : ∃ frame, heap.body target = .environment frame
  · obtain ⟨frame, content⟩ := framed
    have written := congrArg Object.body (heap.get_modifyFrame_same change content)
    refine write (heap.size_modifyFrame target change)
      (fun ref different => heap.get_modifyFrame_other change different) ?_
      (fun isHidden => absurd isHidden uncovered) ?_ closed
    · intro shared
      have data := shared.2
      rw [content] at data
      cases data
    · intro _ frame' content'
      rw [content] at content'
      cases content'
      exact ⟨_, written, kind frame⟩
  · rw [modifyFrame_other change fun frame body => framed ⟨frame, body⟩]
    exact refl hidden mine heap

theorem define (name : String) (uncovered : ¬hidden target) (isPublic : heap.Public hidden value) :
    Upholds hidden mine heap (heap.define target name value) := by
  refine modifyFrame uncovered (fun _ => rfl) ?_
  intro closed child member
  rcases children_define member with same | old
  · rw [same]
    exact isPublic
  · exact closed target child old

theorem setParent (uncovered : ¬hidden target) (isPublic : heap.Public hidden value) :
    Upholds hidden mine heap (heap.setParent target value) := by
  refine modifyFrame uncovered (fun _ => rfl) ?_
  intro closed child member
  rcases children_setParent member with same | old
  · rw [same]
    exact isPublic
  · exact closed target child old

theorem replaceAttributes {attributes : Option Attributes}
    (free : mine target ∨ (heap.SharedData target → (heap.body target).isSingleton = true))
    (closed : heap.Closed hidden → ∀ child ∈ (attributeEntries attributes).map Prod.snd,
      heap.Public hidden child) :
    Upholds hidden mine heap (heap.replaceAttributes target attributes) := by
  by_cases inside : target.index < heap.size
  · have written := heap.get_replaceAttributes_same attributes inside
    refine write (heap.size_replaceAttributes target attributes)
      (fun ref different => heap.get_replaceAttributes_other attributes different) ?_
      (fun _ => heap.body_replaceAttributes target target attributes) ?_ ?_
    · intro shared other
      rcases free with own | singleton
      · exact absurd own other
      · rw [written]
        exact ⟨rfl, shared.1, Or.inr (singleton shared)⟩
    · intro _ frame body
      exact ⟨frame, (heap.body_replaceAttributes target target attributes).trans body, rfl⟩
    · intro earlier child member
      rcases children_replaceAttributes inside member with old | added
      · exact earlier target child old
      · exact closed earlier child added
  · rw [Heap.replaceAttributes, modify, heap.put_outside _ (Nat.le_of_not_lt inside)]
    exact refl hidden mine heap

theorem fulfil (uncovered : ¬hidden target) (isPublic : heap.Public hidden value) :
    Upholds hidden mine heap (heap.fulfil target value).2 := by
  unfold Heap.fulfil
  split
  · rename_i expr env found
    have content : heap.body target = .promise { expr, env, value := none } := by
      unfold promise? at found
      split at found
      · rename_i delayed body
        rw [body, Option.some.inj found]
      · cases found
    have inside : target.index < heap.size := by
      apply heap.inside_of_body
      rw [content]
      exact fun impossible => nomatch impossible
    have written := heap.get_setBody_same (.promise { expr, env, value := some value }) inside
    refine write (heap.size_setBody target _)
      (fun ref different => heap.get_setBody_other _ different) ?_
      (fun isHidden => absurd isHidden uncovered) ?_ ?_
    · intro shared
      have data := shared.2
      rw [content] at data
      cases data
    · intro _ frame body
      rw [content] at body
      cases body
    · intro closed child member
      rw [written] at member
      rcases List.mem_append.mp member with part | attached
      · rcases List.mem_append.mp part with around | delivered
        · apply closed.body target
          rw [content]
          exact List.mem_append_left _ around
        · rw [List.mem_singleton.mp delivered]
          exact isPublic
      · exact closed.attributes target attached
  · exact refl hidden mine heap

end Upholds

/-! ### Updates through a handle -/

/-- A handle moved to an object of its own: the one it had, or a new one. -/
structure Moves (hidden mine : Ref → Prop) (before : Heap) (handle target : Ref) (after : Heap) :
    Prop where
  upholds : Upholds hidden mine before after
  place : target = handle ∨ before.size ≤ target.index
  inside : handle.index < before.size → target.index < after.size

theorem Moves.refl (hidden mine : Ref → Prop) (heap : Heap) (handle : Ref) :
    Moves hidden mine heap handle handle heap :=
  ⟨.refl hidden mine heap, Or.inl rfl, id⟩

theorem Moves.isPublic (moves : Moves hidden mine before handle target after)
    (room : ∀ ref, hidden ref → ref.index < before.size)
    (isPublic : before.Public hidden handle) : after.Public hidden target := by
  refine ⟨moves.inside isPublic.1, ?_⟩
  intro isHidden
  rcases moves.place with same | new
  · rw [same] at isHidden
    exact isPublic.2 isHidden
  · exact Nat.not_le_of_lt (room target isHidden) new

/-- A handle to an unshared object stays; so does one to an object that has no copies. Any other
moves to a new object with the body and the attributes. -/
theorem makePrivate_cases (heap : Heap) (handle : Ref) :
    (heap.makePrivate handle = (handle, heap) ∧
        (heap.isShared handle = false ∨ (heap.body handle).copiesToItself = true)) ∨
      ((heap.body handle).copiesToItself = false ∧ heap.makePrivate handle =
        ((heap.alloc (heap.body handle)).1, (heap.alloc (heap.body handle)).2.replaceAttributes
          (heap.alloc (heap.body handle)).1 (heap.attributes handle))) := by
  cases shared : heap.isShared handle with
  | false =>
      left
      exact ⟨by simp [makePrivate, shared], Or.inl rfl⟩
  | true =>
      cases itself : (heap.body handle).copiesToItself with
      | true =>
          left
          exact ⟨by simp [makePrivate, shared, shallowCopy, bareCopy, itself], Or.inr rfl⟩
      | false =>
          right
          have inside := inside_of_shared shared
          have different := (heap.ne_alloc (heap.body handle) inside).symm
          exact ⟨rfl, by simp [makePrivate, shared, shallowCopy, bareCopy, itself, different]⟩

theorem Upholds.copy (hidden mine : Ref → Prop) (heap : Heap) (handle : Ref) :
    Upholds hidden mine heap ((heap.alloc (heap.body handle)).2.replaceAttributes
      (heap.alloc (heap.body handle)).1 (heap.attributes handle)) := by
  have size := size_replaceAttributes (heap.alloc (heap.body handle)).2
    (heap.alloc (heap.body handle)).1 (heap.attributes handle)
  have grown := Nat.le_trans (heap.size_le_alloc (heap.body handle)) (Nat.le_of_eq size.symm)
  refine extend grown (fun _ inside => heap.get_copied_old handle _ inside) ?_
  intro closed ref outside child member
  have inside : ref.index < (heap.alloc (heap.body handle)).2.size := by
    rw [← size]
    exact Nat.lt_of_not_le fun beyond => children_outside beyond member
  have new := (heap.inside_alloc_cases _ inside).resolve_left (Nat.not_lt_of_le outside)
  rw [← new] at member
  rcases children_replaceAttributes inside member with part | attached
  · rw [new, heap.get_alloc_new, children_fresh] at part
    exact (closed.body handle part).later grown
  · exact (closed.attributes handle attached).later grown

theorem moves_makePrivate (hidden mine : Ref → Prop) (heap : Heap) (handle : Ref) :
    Moves hidden mine heap handle (heap.makePrivate handle).1 (heap.makePrivate handle).2 := by
  rcases heap.makePrivate_cases handle with ⟨same, _⟩ | ⟨_, copied⟩
  · rw [same]
    exact .refl hidden mine heap handle
  · rw [copied]
    refine ⟨.copy hidden mine heap handle, Or.inr (Nat.le_refl _), ?_⟩
    intro _
    rw [size_replaceAttributes]
    exact heap.inside_alloc _

theorem body_makePrivate (heap : Heap) (handle : Ref) :
    (heap.makePrivate handle).2.body (heap.makePrivate handle).1 = heap.body handle := by
  rcases heap.makePrivate_cases handle with ⟨same, _⟩ | ⟨_, copied⟩
  · rw [same]
  · rw [copied, body_replaceAttributes, body, heap.get_alloc_new]
    rfl

theorem unshared_makePrivate {heap : Heap} {handle : Ref}
    (copies : (heap.body handle).copiesToItself = false) :
    (heap.makePrivate handle).2.isShared (heap.makePrivate handle).1 = false := by
  rcases heap.makePrivate_cases handle with ⟨same, unshared | itself⟩ | ⟨_, copied⟩
  · rw [same]
    exact unshared
  · rw [copies] at itself
    cases itself
  · rw [copied, isShared, heap.get_copied]

section Handles

variable (mine) (room : ∀ ref, hidden ref → ref.index < heap.size)
  (owned : heap.Public hidden handle)

include room owned

theorem moves_setBody {body : Body} (copies : (heap.body handle).copiesToItself = false)
    (closed : ∀ child ∈ body.children,
      child ∈ (heap.body handle).children ∨ heap.Public hidden child) :
    Moves hidden mine heap handle (heap.makePrivate handle).1
      ((heap.makePrivate handle).2.setBody (heap.makePrivate handle).1 body) := by
  have moves := moves_makePrivate hidden mine heap handle
  have content := body_makePrivate heap handle
  have unshared := unshared_makePrivate copies
  have there := moves.isPublic room owned
  generalize heap.makePrivate handle = moved at moves content unshared there ⊢
  obtain ⟨target, after⟩ := moved
  have written := after.get_setBody_same body there.1
  refine ⟨moves.upholds.trans (.write (after.size_setBody target body)
    (fun ref different => after.get_setBody_other body different) ?_
    (fun isHidden => absurd isHidden there.2) ?_ ?_), moves.place, ?_⟩
  · intro shared
    have impossible := shared.1
    rw [unshared] at impossible
    cases impossible
  · intro _ frame environment
    rw [content] at environment
    rw [environment] at copies
    cases copies
  · intro earlier child member
    rw [written] at member
    rcases List.mem_append.mp member with part | attached
    · rcases closed child part with old | isPublic
      · apply earlier.body target
        rw [content]
        exact old
      · exact isPublic.later moves.upholds.size
    · exact earlier.attributes target attached
  · intro inside
    rw [after.size_setBody]
    exact moves.inside inside

/-- Setting an attribute never writes to shared data, singletons apart. -/
theorem moves_setAttribute (name : String) (isPublic : heap.Public hidden value) :
    Moves hidden mine heap handle (heap.setAttribute handle name value).1
      (heap.setAttribute handle name value).2 := by
  have moves := moves_makePrivate hidden mine heap handle
  have content := body_makePrivate heap handle
  have unshared := @unshared_makePrivate heap handle
  have there := moves.isPublic room owned
  unfold setAttribute
  generalize heap.makePrivate handle = moved at moves content unshared there ⊢
  obtain ⟨target, after⟩ := moved
  refine ⟨moves.upholds.trans (.replaceAttributes (Or.inr ?_) ?_), moves.place, ?_⟩
  · intro shared
    cases itself : (heap.body handle).copiesToItself with
    | true =>
        have data := shared.2
        rw [content] at data ⊢
        exact Body.isSingleton_of_isData data itself
    | false =>
        have impossible := shared.1
        rw [unshared itself] at impossible
        cases impossible
  · intro closed child member
    obtain ⟨entry, present, same⟩ := List.mem_map.mp member
    rw [← same]
    rcases @Attributes.mem_foldl_set [(name, value)] _ _ present with old | new
    · exact closed.attributes target old
    · rw [List.mem_singleton.mp new]
      exact isPublic.later moves.upholds.size
  · intro inside
    rw [after.size_replaceAttributes]
    exact moves.inside inside

theorem moves_setElement (index : Nat) (isPublic : heap.Public hidden value) :
    Moves hidden mine heap handle (heap.setElement handle index value).handle
      (heap.setElement handle index value).heap := by
  unfold setElement
  split
  · rename_i items content
    dsimp only
    split
    · refine moves_setBody mine room owned (by rw [content]; rfl) ?_
      intro child member
      rw [content]
      rcases List.mem_or_eq_of_mem_set member with old | same
      · exact Or.inl old
      · rw [same]
        exact Or.inr isPublic
    · exact moves_makePrivate hidden mine heap handle
  · exact .refl hidden mine heap handle

theorem moves_pushElement (isPublic : heap.Public hidden value) :
    Moves hidden mine heap handle (heap.pushElement handle value).handle
      (heap.pushElement handle value).heap := by
  unfold pushElement
  split
  · rename_i items content
    refine moves_setBody mine room owned (by rw [content]; rfl) ?_
    intro child member
    rw [content]
    rcases List.mem_append.mp member with old | new
    · exact Or.inl old
    · rw [List.mem_singleton.mp new]
      exact Or.inr isPublic
  · exact .refl hidden mine heap handle

theorem moves_updateVector (change : AtomicVector → AtomicVector) :
    Moves hidden mine heap handle (heap.updateVector handle change).handle
      (heap.updateVector handle change).heap := by
  unfold updateVector
  split
  · rename_i data content
    dsimp only
    split
    · exact moves_setBody mine room owned (by rw [content]; rfl) fun _ member => nomatch member
    · exact moves_makePrivate hidden mine heap handle
  · exact .refl hidden mine heap handle

end Handles

end Heap

end ValueChannels
