import ValueChannels.Proofs.Heap.Frozen

/-!
What work elsewhere does to an object. Objects keep their attributes and their marks, and their
bodies as well, but for lists that nobody shares: elements may be entered into those. Main
statements: `Retains` for work that enters no elements, and `Ages` for all work.
-/

namespace ValueChannels.Heap

variable {heap before middle after : Heap} {ref : Ref} {body : Body}
  {attributes : Option Attributes}

/-! ### Objects with a known content -/

/-- An object with this body and these attributes. -/
structure Holds (heap : Heap) (ref : Ref) (body : Body) (attributes : Option Attributes) :
    Prop where
  inside : ref.index < heap.size
  body : heap.body ref = body
  attributes : heap.attributes ref = attributes

/-- A shared object with this body and these attributes. -/
structure Fixes (heap : Heap) (ref : Ref) (body : Body) (attributes : Option Attributes) : Prop
    extends heap.Holds ref body attributes where
  shared : heap.isShared ref = true

theorem Holds.congr (holds : before.Holds ref body attributes) (size : before.size ≤ after.size)
    (same : after.get ref = before.get ref) : after.Holds ref body attributes := by
  constructor
  · exact Nat.lt_of_lt_of_le holds.inside size
  · exact (congrArg Object.body same).trans holds.body
  · exact (congrArg Object.attributes same).trans holds.attributes

/-! ### Objects that stay -/

/-- Every object has the content that it had, and is shared if it was. -/
structure Retains (before after : Heap) : Prop where
  size : before.size ≤ after.size
  body : ∀ ref, ref.index < before.size → after.body ref = before.body ref
  attributes : ∀ ref, ref.index < before.size → after.attributes ref = before.attributes ref
  shared : ∀ ref, before.isShared ref = true → after.isShared ref = true

namespace Retains

theorem refl (heap : Heap) : heap.Retains heap :=
  ⟨Nat.le_refl _, fun _ _ => rfl, fun _ _ => rfl, fun _ shared => shared⟩

theorem trans (first : before.Retains middle) (second : middle.Retains after) :
    before.Retains after := by
  have later {ref : Ref} (inside : ref.index < before.size) : ref.index < middle.size :=
    Nat.lt_of_lt_of_le inside first.size
  constructor
  · exact Nat.le_trans first.size second.size
  · intro ref inside
    exact (second.body ref (later inside)).trans (first.body ref inside)
  · intro ref inside
    exact (second.attributes ref (later inside)).trans (first.attributes ref inside)
  · intro ref shared
    exact second.shared ref (first.shared ref shared)

theorem of_get (size : before.size ≤ after.size)
    (same : ∀ ref, ref.index < before.size → after.get ref = before.get ref) :
    before.Retains after := by
  constructor
  · exact size
  · intro ref inside
    exact congrArg Object.body (same ref inside)
  · intro ref inside
    exact congrArg Object.attributes (same ref inside)
  · intro ref shared
    have stays := congrArg Object.shared (same ref (inside_of_shared shared))
    exact stays.trans shared

theorem alloc (heap : Heap) (body : Body) : heap.Retains (heap.alloc body).2 := by
  apply of_get
  · exact heap.size_le_alloc body
  · intro ref inside
    exact heap.get_alloc_old body inside

theorem makeShared (heap : Heap) (ref : Ref) : heap.Retains (heap.makeShared ref).2 := by
  have marked : Marked (ref.index + 1) heap (heap.makeShared ref).2 :=
    .makeShared (Nat.lt_succ_self _) heap
  exact ⟨marked.size, marked.body, marked.attributes,
    fun found shared => marked.shared found (inside_of_shared shared) shared⟩

theorem writeNew (retains : before.Retains middle) (size : after.size = middle.size)
    (others : ∀ other, other ≠ ref → after.get other = middle.get other)
    (new : before.size ≤ ref.index) : before.Retains after := by
  have same {found : Ref} (inside : found.index < before.size) :
      after.get found = middle.get found := by
    apply others
    intro here
    rw [here] at inside
    exact Nat.lt_irrefl _ (Nat.lt_of_lt_of_le inside new)
  constructor
  · rw [size]
    exact retains.size
  · intro found inside
    exact (congrArg Object.body (same inside)).trans (retains.body found inside)
  · intro found inside
    exact (congrArg Object.attributes (same inside)).trans (retains.attributes found inside)
  · intro found shared
    have stays := congrArg Object.shared (same (inside_of_shared shared))
    exact stays.trans (retains.shared found shared)

theorem define (retains : before.Retains middle) (name : String) (value : Ref)
    (new : before.size ≤ ref.index) : before.Retains (middle.define ref name value) :=
  retains.writeNew (middle.size_define ref name value)
    (fun _ different => middle.get_define_other name value different) new

theorem setParent (retains : before.Retains middle) (parent : Ref)
    (new : before.size ≤ ref.index) : before.Retains (middle.setParent ref parent) :=
  retains.writeNew (middle.size_setParent ref parent)
    (fun _ different => middle.get_setParent_other parent different) new

theorem replaceAttributes (retains : before.Retains middle) (attributes : Option Attributes)
    (new : before.size ≤ ref.index) : before.Retains (middle.replaceAttributes ref attributes) :=
  retains.writeNew (middle.size_replaceAttributes ref attributes)
    (fun _ different => middle.get_replaceAttributes_other attributes different) new

theorem holds (retains : before.Retains after) (holds : before.Holds ref body attributes) :
    after.Holds ref body attributes := by
  constructor
  · exact Nat.lt_of_lt_of_le holds.inside retains.size
  · exact (retains.body ref holds.inside).trans holds.body
  · exact (retains.attributes ref holds.inside).trans holds.attributes

end Retains

/-- Every object is shared if it was, and has its content, except for lists that were not shared:
those are lists of the same length. -/
structure Ages (before after : Heap) : Prop where
  size : before.size ≤ after.size
  attributes : ∀ ref, ref.index < before.size → after.attributes ref = before.attributes ref
  shared : ∀ ref, before.isShared ref = true → after.isShared ref = true
  body : ∀ ref, ref.index < before.size →
    before.isShared ref = true ∨ (∀ items, before.body ref ≠ .list items) →
      after.body ref = before.body ref
  list : ∀ ref items, before.body ref = .list items →
    ∃ others, after.body ref = .list others ∧ others.length = items.length

theorem Retains.ages (retains : before.Retains after) : before.Ages after := by
  constructor
  · exact retains.size
  · exact retains.attributes
  · exact retains.shared
  · intro ref inside _
    exact retains.body ref inside
  · intro ref items content
    have inside : ref.index < before.size := by
      apply before.inside_of_body
      rw [content]
      simp
    exact ⟨items, (retains.body ref inside).trans content, rfl⟩

namespace Ages

theorem trans (first : before.Ages middle) (second : middle.Ages after) : before.Ages after := by
  have later {ref : Ref} (inside : ref.index < before.size) : ref.index < middle.size :=
    Nat.lt_of_lt_of_le inside first.size
  constructor
  · exact Nat.le_trans first.size second.size
  · intro ref inside
    exact (second.attributes ref (later inside)).trans (first.attributes ref inside)
  · intro ref shared
    exact second.shared ref (first.shared ref shared)
  · intro ref inside keeps
    have stays := first.body ref inside keeps
    rw [← stays]
    apply second.body ref (later inside)
    rcases keeps with shared | other
    · exact Or.inl (first.shared ref shared)
    · rw [stays]
      exact Or.inr other
  · intro ref items content
    obtain ⟨between, there, same⟩ := first.list ref items content
    obtain ⟨others, there', same'⟩ := second.list ref between there
    exact ⟨others, there', same'.trans same⟩

theorem setBody {items : List Ref} (list : heap.body ref = .list items)
    (unshared : heap.isShared ref = false) {others : List Ref}
    (length : others.length = items.length) : heap.Ages (heap.setBody ref (.list others)) := by
  have inside : ref.index < heap.size := by
    apply heap.inside_of_body
    rw [list]
    simp
  have here := heap.get_setBody_same (.list others) inside
  have there {found : Ref} (different : found ≠ ref) :=
    heap.get_setBody_other (.list others) different
  constructor
  · exact Nat.le_of_eq (heap.size_setBody ref _).symm
  · intro found _
    by_cases same : found = ref
    · have stays := congrArg Object.attributes here
      rw [same]
      exact stays
    · exact congrArg Object.attributes (there same)
  · intro found shared
    by_cases same : found = ref
    · have stays := congrArg Object.shared here
      rw [same] at shared ⊢
      exact stays.trans shared
    · exact (congrArg Object.shared (there same)).trans shared
  · intro found _ keeps
    have different : found ≠ ref := by
      intro same
      rw [same, unshared] at keeps
      rcases keeps with shared | other
      · cases shared
      · exact other items list
    exact congrArg Object.body (there different)
  · intro found before content
    by_cases same : found = ref
    · rw [same, list] at content
      cases content
      rw [same]
      exact ⟨others, congrArg Object.body here, length⟩
    · exact ⟨before, (congrArg Object.body (there same)).trans content, rfl⟩

theorem fixes (ages : before.Ages after) (fixes : before.Fixes ref body attributes) :
    after.Fixes ref body attributes := by
  constructor
  · constructor
    · exact Nat.lt_of_lt_of_le fixes.inside ages.size
    · exact (ages.body ref fixes.inside (Or.inl fixes.shared)).trans fixes.body
    · exact (ages.attributes ref fixes.inside).trans fixes.attributes
  · exact ages.shared ref fixes.shared

theorem holds (ages : before.Ages after) (holds : before.Holds ref body attributes)
    (other : ∀ items, body ≠ .list items) : after.Holds ref body attributes := by
  constructor
  · exact Nat.lt_of_lt_of_le holds.inside ages.size
  · have stays := ages.body ref holds.inside (Or.inr (holds.body ▸ other))
    exact stays.trans holds.body
  · exact (ages.attributes ref holds.inside).trans holds.attributes

end Ages

/-! ### Objects that were just made, and marks -/

theorem holds_alloc (heap : Heap) (body : Body) :
    (heap.alloc body).2.Holds (heap.alloc body).1 body none := by
  have new := heap.get_alloc_new body
  constructor
  · exact heap.inside_alloc body
  · exact congrArg Object.body new
  · exact congrArg Object.attributes new

theorem replaceAttributes_none (bare : heap.attributes ref = none) :
    heap.replaceAttributes ref none = heap := by
  have same : { heap.get ref with attributes := Attributes.normalize none } = heap.get ref := by
    apply Object.ext
    · rfl
    · exact bare.symm
    · rfl
  rw [replaceAttributes, modify, same]
  exact heap.put_get ref

theorem fixes_makeShared (holds : heap.Holds ref body attributes)
    (shareable : body.isShareable = true) :
    (heap.makeShared ref).2.Fixes ref body attributes := by
  have marked := heap.get_makeShared_same holds.inside (holds.body ▸ shareable)
  constructor
  · exact (Retains.makeShared heap ref).holds holds
  · exact congrArg Object.shared marked

end ValueChannels.Heap
