import ValueChannels.Value.Update

/-!
What the operations on the heap read and write. Every write goes to one address; the others
read as before. Main statements: for each operation, what the address it writes reads as, and
that the others are left alone.
-/

namespace ValueChannels

/-- The entries of an attribute mapping, none when there is no mapping. -/
def attributeEntries (attributes : Option Attributes) : List (String × Ref) :=
  (attributes.getD Mapping.empty).entries

@[simp] theorem attributeEntries_none : attributeEntries none = [] := rfl

@[simp] theorem attributeEntries_some (attributes : Attributes) :
    attributeEntries (some attributes) = attributes.entries := rfl

namespace Heap

variable (heap : Heap)

theorem ref_ext {first second : Ref} (same : first.index = second.index) : first = second := by
  cases first
  cases second
  cases same
  rfl

theorem eq_of_get {first second : Heap} (size : first.size = second.size)
    (same : ∀ ref, first.get ref = second.get ref) : first = second := by
  obtain ⟨objects⟩ := first
  obtain ⟨others⟩ := second
  congr 1
  apply Array.ext size
  intro index inside inside'
  have here := same ⟨index⟩
  simpa only [get, Array.getElem?_eq_getElem inside, Array.getElem?_eq_getElem inside',
    Option.getD_some] using here

theorem get_outside {ref : Ref} (outside : heap.size ≤ ref.index) :
    heap.get ref = Object.fresh .null := by
  have bound : heap.objects.size ≤ ref.index := outside
  simp [get, bound]

theorem inside_of_body {ref : Ref} (something : heap.body ref ≠ .null) :
    ref.index < heap.size := by
  refine Nat.lt_of_not_le ?_
  intro outside
  apply something
  unfold body
  rw [heap.get_outside outside]
  rfl

theorem inside_of_attributes {ref : Ref} {mapping : Attributes}
    (has : heap.attributes ref = some mapping) : ref.index < heap.size := by
  refine Nat.lt_of_not_le fun outside => ?_
  rw [attributes, heap.get_outside outside] at has
  cases has

theorem put_outside {ref : Ref} (object : Object) (outside : heap.size ≤ ref.index) :
    heap.put ref object = heap := by
  have apart : ¬ref.index < heap.objects.size := Nat.not_lt_of_le outside
  simp [put, Array.setIfInBounds, apart]

/-! ### Sizes -/

@[simp] theorem size_modify (ref : Ref) (change : Object → Object) :
    (heap.modify ref change).size = heap.size :=
  heap.size_put ref _

@[simp] theorem size_setBody (ref : Ref) (body : Body) :
    (heap.setBody ref body).size = heap.size :=
  heap.size_put ref _

@[simp] theorem size_replaceAttributes (ref : Ref) (attributes : Option Attributes) :
    (heap.replaceAttributes ref attributes).size = heap.size :=
  heap.size_put ref _

@[simp] theorem size_makeShared (ref : Ref) : (heap.makeShared ref).2.size = heap.size := by
  simp only [makeShared]
  split
  · exact heap.size_put ref _
  · rfl

@[simp] theorem size_modifyFrame (ref : Ref) (change : Frame → Frame) :
    (heap.modifyFrame ref change).size = heap.size := by
  unfold modifyFrame
  split
  · exact heap.size_setBody ref _
  · rfl

@[simp] theorem size_define (env : Ref) (name : String) (value : Ref) :
    (heap.define env name value).size = heap.size :=
  heap.size_modifyFrame env _

@[simp] theorem size_setParent (env parent : Ref) :
    (heap.setParent env parent).size = heap.size :=
  heap.size_modifyFrame env _

@[simp] theorem index_alloc (body : Body) : (heap.alloc body).1.index = heap.size := rfl

theorem inside_alloc (body : Body) : (heap.alloc body).1.index < (heap.alloc body).2.size :=
  Nat.lt_of_lt_of_eq (Nat.lt_succ_self _) (heap.size_alloc body).symm

theorem size_le_alloc (body : Body) : heap.size ≤ (heap.alloc body).2.size := by
  rw [size_alloc]
  exact Nat.le_succ _

theorem inside_alloc_cases (body : Body) {ref : Ref}
    (inside : ref.index < (heap.alloc body).2.size) :
    ref.index < heap.size ∨ ref = (heap.alloc body).1 := by
  rw [size_alloc] at inside
  rcases Nat.lt_succ_iff_lt_or_eq.mp inside with old | last
  · exact Or.inl old
  · exact Or.inr (ref_ext last)

theorem ne_alloc (body : Body) {ref : Ref} (inside : ref.index < heap.size) :
    ref ≠ (heap.alloc body).1 := by
  intro same
  rw [same, index_alloc] at inside
  exact Nat.lt_irrefl _ inside

/-! ### Reading after a write -/

theorem get_modify_same {ref : Ref} (change : Object → Object) (inside : ref.index < heap.size) :
    (heap.modify ref change).get ref = change (heap.get ref) :=
  heap.get_put_same _ inside

theorem get_modify_other {ref other : Ref} (change : Object → Object) (different : other ≠ ref) :
    (heap.modify ref change).get other = heap.get other :=
  heap.get_put_other _ different

theorem get_setBody_same {ref : Ref} (body : Body) (inside : ref.index < heap.size) :
    (heap.setBody ref body).get ref = { heap.get ref with body } :=
  heap.get_modify_same _ inside

theorem get_setBody_other {ref other : Ref} (body : Body) (different : other ≠ ref) :
    (heap.setBody ref body).get other = heap.get other :=
  heap.get_modify_other _ different

theorem get_replaceAttributes_same {ref : Ref} (attributes : Option Attributes)
    (inside : ref.index < heap.size) :
    (heap.replaceAttributes ref attributes).get ref =
      { heap.get ref with attributes := Attributes.normalize attributes } :=
  heap.get_modify_same _ inside

theorem get_replaceAttributes_other {ref other : Ref} (attributes : Option Attributes)
    (different : other ≠ ref) :
    (heap.replaceAttributes ref attributes).get other = heap.get other :=
  heap.get_modify_other _ different

theorem body_replaceAttributes (ref other : Ref) (attributes : Option Attributes) :
    (heap.replaceAttributes ref attributes).body other = heap.body other := by
  unfold body
  by_cases same : other = ref
  · subst same
    by_cases inside : other.index < heap.size
    · rw [heap.get_replaceAttributes_same attributes inside]
    · have outside : heap.size ≤ other.index := Nat.le_of_not_lt inside
      rw [replaceAttributes, modify, heap.put_outside _ outside]
  · rw [heap.get_replaceAttributes_other attributes same]

theorem get_modifyFrame_other {ref other : Ref} (change : Frame → Frame)
    (different : other ≠ ref) : (heap.modifyFrame ref change).get other = heap.get other := by
  unfold modifyFrame
  split
  · exact heap.get_setBody_other _ different
  · rfl

theorem frame?_eq_some {ref : Ref} {frame : Frame} :
    heap.frame? ref = some frame ↔ heap.body ref = .environment frame := by
  unfold frame?
  cases heap.body ref <;> simp

theorem get_modifyFrame_same {ref : Ref} {frame : Frame} (change : Frame → Frame)
    (found : heap.body ref = .environment frame) :
    (heap.modifyFrame ref change).get ref =
      { heap.get ref with body := .environment (change frame) } := by
  have inside : ref.index < heap.size := by
    apply heap.inside_of_body
    rw [found]
    intro impossible
    cases impossible
  have frame? := heap.frame?_eq_some.mpr found
  unfold modifyFrame
  rw [frame?]
  exact heap.get_setBody_same _ inside

theorem get_define_other {env other : Ref} (name : String) (value : Ref)
    (different : other ≠ env) : (heap.define env name value).get other = heap.get other :=
  heap.get_modifyFrame_other _ different

theorem get_define_same {env : Ref} {frame : Frame} (name : String) (value : Ref)
    (found : heap.body env = .environment frame) :
    (heap.define env name value).get env =
      { heap.get env with
        body := .environment { frame with bindings := frame.bindings.insert name value } } :=
  heap.get_modifyFrame_same _ found

theorem get_setParent_other {env other : Ref} (parent : Ref) (different : other ≠ env) :
    (heap.setParent env parent).get other = heap.get other :=
  heap.get_modifyFrame_other _ different

theorem get_setParent_same {env : Ref} {frame : Frame} (parent : Ref)
    (found : heap.body env = .environment frame) :
    (heap.setParent env parent).get env =
      { heap.get env with body := .environment { frame with parent := some parent } } :=
  heap.get_modifyFrame_same _ found

theorem kind_modifyFrame (ref other : Ref) (change : Frame → Frame) :
    (heap.modifyFrame ref change).kind other = heap.kind other := by
  by_cases same : other = ref
  · subst same
    cases found : heap.frame? other with
    | none => simp only [modifyFrame, found]
    | some frame =>
        have body := heap.frame?_eq_some.mp found
        have here := congrArg Object.body (heap.get_modifyFrame_same change body)
        have body' : (heap.modifyFrame other change).body other = .environment (change frame) := here
        rw [kind, kind, body', body]
        rfl
  · exact congrArg (fun object => object.body.kind) (heap.get_modifyFrame_other change same)

theorem kind_replaceAttributes (ref other : Ref) (attributes : Option Attributes) :
    (heap.replaceAttributes ref attributes).kind other = heap.kind other :=
  congrArg Body.kind (heap.body_replaceAttributes ref other attributes)

/-- Attributes that are taken off and put back are as they were. -/
theorem reattached {ref : Ref}
    (normal : Attributes.normalize (heap.attributes ref) = heap.attributes ref) :
    (heap.replaceAttributes ref none).replaceAttributes ref (heap.attributes ref) = heap := by
  by_cases inside : ref.index < heap.size
  · apply eq_of_get
    · rw [size_replaceAttributes, size_replaceAttributes]
    · intro other
      by_cases same : other = ref
      · have inside' : ref.index < (heap.replaceAttributes ref none).size := by
          rw [size_replaceAttributes]
          exact inside
        rw [same, get_replaceAttributes_same _ _ inside', get_replaceAttributes_same _ _ inside,
          normal]
        rfl
      · rw [get_replaceAttributes_other _ _ same, get_replaceAttributes_other _ _ same]
  · have unchanged (attributes : Option Attributes) : heap.replaceAttributes ref attributes = heap :=
      heap.put_outside _ (Nat.le_of_not_lt inside)
    rw [unchanged, unchanged]

/-! ### Copies with attributes -/

theorem get_copied (handle : Ref) (attributes : Option Attributes) :
    ((heap.alloc (heap.body handle)).2.replaceAttributes
        (heap.alloc (heap.body handle)).1 attributes).get (heap.alloc (heap.body handle)).1 =
      { body := heap.body handle, attributes := Attributes.normalize attributes
        shared := false } := by
  rw [get_replaceAttributes_same _ _ (heap.inside_alloc _), heap.get_alloc_new]
  rfl

theorem get_copied_old (handle : Ref) (attributes : Option Attributes) {other : Ref}
    (inside : other.index < heap.size) :
    ((heap.alloc (heap.body handle)).2.replaceAttributes
        (heap.alloc (heap.body handle)).1 attributes).get other = heap.get other := by
  rw [get_replaceAttributes_other _ _ (heap.ne_alloc _ inside)]
  exact heap.get_alloc_old _ inside

/-! ### Marks -/

theorem get_makeShared_other {ref other : Ref} (different : other ≠ ref) :
    (heap.makeShared ref).2.get other = heap.get other := by
  simp only [makeShared]
  split
  · exact heap.get_put_other _ different
  · rfl

theorem get_makeShared_same {ref : Ref} (inside : ref.index < heap.size)
    (shareable : (heap.body ref).isShareable = true) :
    (heap.makeShared ref).2.get ref = { heap.get ref with shared := true } := by
  have allowed : (heap.get ref).body.isShareable = true := shareable
  simp only [makeShared, allowed, if_true]
  exact heap.get_put_same _ inside

theorem makeShared_refused {ref : Ref}
    (refused : ¬(ref.index < heap.size ∧ (heap.body ref).isShareable = true)) :
    (heap.makeShared ref).2 = heap := by
  simp only [makeShared]
  split
  · rename_i shareable
    refine heap.put_outside _ (Nat.le_of_not_lt ?_)
    intro inside
    exact refused ⟨inside, shareable⟩
  · rfl

/-- All that an object can gain is the mark, and only one that may be shared gains it. -/
theorem get_makeShared_cases (ref other : Ref) :
    (heap.makeShared ref).2.get other = heap.get other ∨
      (heap.body other).isShareable = true ∧
        (heap.makeShared ref).2.get other = { heap.get other with shared := true } := by
  by_cases same : other = ref
  · subst same
    by_cases marked : other.index < heap.size ∧ (heap.body other).isShareable = true
    · exact Or.inr ⟨marked.2, heap.get_makeShared_same marked.1 marked.2⟩
    · rw [heap.makeShared_refused marked]
      exact Or.inl rfl
  · exact Or.inl (heap.get_makeShared_other same)

theorem body_makeShared (ref other : Ref) :
    (heap.makeShared ref).2.body other = heap.body other := by
  rcases heap.get_makeShared_cases ref other with same | ⟨_, marked⟩
  · exact congrArg Object.body same
  · rw [body, marked]
    rfl

theorem attributes_makeShared (ref other : Ref) :
    (heap.makeShared ref).2.attributes other = heap.attributes other := by
  rcases heap.get_makeShared_cases ref other with same | ⟨_, marked⟩
  · exact congrArg Object.attributes same
  · rw [attributes, marked]
    rfl

/-! ### Copies -/

theorem bareCopy_itself {ref : Ref} (itself : (heap.body ref).copiesToItself = true) :
    heap.bareCopy ref = (ref, heap) := by
  simp only [bareCopy, itself, if_true]

theorem bareCopy_alloc {ref : Ref} (copied : (heap.body ref).copiesToItself = false) :
    heap.bareCopy ref = heap.alloc (heap.body ref) := by
  simp [bareCopy, copied]

theorem size_le_bareCopy (ref : Ref) : heap.size ≤ (heap.bareCopy ref).2.size := by
  simp only [bareCopy]
  split
  · exact Nat.le_refl _
  · exact heap.size_le_alloc _

theorem get_bareCopy_old (ref : Ref) {other : Ref} (inside : other.index < heap.size) :
    (heap.bareCopy ref).2.get other = heap.get other := by
  simp only [bareCopy]
  split
  · rfl
  · exact heap.get_alloc_old _ inside

theorem setElement_unshared {shell : Ref} {items : List Ref} {index : Nat} (value : Ref)
    (list : heap.body shell = .list items) (unshared : heap.isShared shell = false)
    (inside : index < items.length) :
    heap.setElement shell index value =
      { handle := shell, heap := heap.setBody shell (.list (items.set index value))
        outcome := .ok () } := by
  simp [setElement, list, makePrivate, unshared, inside]

end Heap

namespace Attributes

theorem normalize_some {attributes : Attributes} (something : attributes.entries ≠ []) :
    normalize (some attributes) = some attributes := by
  have full : attributes.isEmpty = false := by
    simp [Mapping.isEmpty, something]
  simp [normalize, full]

theorem eq_of_normalize {attributes : Option Attributes} {mapping : Attributes}
    (normal : normalize attributes = some mapping) :
    attributes = some mapping ∧ mapping.entries ≠ [] := by
  cases attributes with
  | none => cases normal
  | some held =>
      simp only [normalize, Option.filter_eq_some_iff, Option.some.injEq, Mapping.isEmpty,
        Bool.not_eq_true', List.isEmpty_eq_false_iff] at normal
      rw [normal.1]
      exact ⟨rfl, normal.2⟩

theorem entries_normalize_some (attributes : Attributes) :
    attributeEntries (normalize (some attributes)) = attributes.entries := by
  obtain ⟨entries⟩ := attributes
  cases entries <;> rfl

/-- Setting entries under new names adds them at the end, as long as none of them is NULL. -/
theorem entries_foldl_set (entries : List (String × Ref)) (start : Attributes)
    (distinct : ((start.entries ++ entries).map Prod.fst).Nodup)
    (present : ∀ entry ∈ entries, entry.2 ≠ Ref.null) :
    (entries.foldl (fun attributes entry => set attributes entry.1 entry.2) start).entries =
      start.entries ++ entries := by
  induction entries generalizing start with
  | nil => simp
  | cons entry rest ih =>
      obtain ⟨name, value⟩ := entry
      have notNull : value ≠ Ref.null := present (name, value) List.mem_cons_self
      have fresh : name ∉ start.entries.map Prod.fst := by
        rw [List.map_append, List.nodup_append] at distinct
        intro member
        exact distinct.2.2 name member name (by simp) rfl
      have inserted : (start.insert name value).entries = start.entries ++ [(name, value)] :=
        Mapping.insertEntry_new fresh value
      have step : set start name value = start.insert name value := if_neg notNull
      have distinctRest :
          ((((start.insert name value).entries ++ rest).map Prod.fst)).Nodup := by
        rw [inserted, List.append_assoc]
        exact distinct
      rw [List.foldl_cons, step, ih (start.insert name value) distinctRest, inserted,
        List.append_assoc]
      · rfl
      · intro other member
        exact present other (List.mem_cons_of_mem _ member)

theorem entries_ofList {entries : List (String × Ref)} (distinct : (entries.map Prod.fst).Nodup)
    (present : ∀ entry ∈ entries, entry.2 ≠ Ref.null) : (ofList entries).entries = entries :=
  entries_foldl_set entries Mapping.empty distinct present

theorem entries_ofList_zip {names : List String} {values : List Ref}
    (length : names.length = values.length) (distinct : names.Nodup)
    (present : ∀ value ∈ values, value ≠ Ref.null) :
    (ofList (names.zip values)).entries = names.zip values := by
  apply entries_ofList
  · rw [List.map_fst_zip (Nat.le_of_eq length)]
    exact distinct
  · exact fun entry member => present entry.2 (List.of_mem_zip member).2

theorem mem_foldl_set {entries : List (String × Ref)} {start : Attributes} {entry : String × Ref}
    (member : entry ∈
      (entries.foldl (fun attributes entry => set attributes entry.1 entry.2) start).entries) :
    entry.2 ∈ start.entries.map Prod.snd ∨ entry.2 ∈ entries.map Prod.snd := by
  induction entries generalizing start with
  | nil => exact Or.inl (List.mem_map_of_mem member)
  | cons head rest ih =>
      obtain ⟨name, value⟩ := head
      rcases ih member with before | after
      · have inside : entry.2 ∈ (set start name value).entries.map Prod.snd := before
        unfold set at inside
        split at inside
        · obtain ⟨kept, left, same⟩ := List.mem_map.mp inside
          rw [← same]
          exact Or.inl (List.mem_map_of_mem ((Mapping.eraseEntry_sublist _ _).subset left))
        · rcases Mapping.mem_insertEntry inside with same | old
          · rw [same]
            exact Or.inr List.mem_cons_self
          · exact Or.inl old
      · exact Or.inr (List.mem_cons_of_mem _ after)

theorem mem_ofList {entries : List (String × Ref)} {entry : String × Ref}
    (member : entry ∈ (ofList entries).entries) : entry.2 ∈ entries.map Prod.snd := by
  rcases mem_foldl_set member with impossible | present
  · cases impossible
  · exact present

end Attributes

end ValueChannels
