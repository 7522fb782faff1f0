import ValueChannels.Context.Environments
import ValueChannels.Proofs.Heap.Access

/-!
Which objects a value consists of, and when all of them may be shared. Main statements: the
heaps that keep the objects of another one, up to marks, keep what its values reach, and with
it what is shared in depth.
-/

namespace ValueChannels

namespace Body

def children : Body → List Ref
  | .list items => items
  | .environment frame => frame.bindings.entries.map Prod.snd ++ frame.parent.toList
  | .promise delayed => delayed.env.toList ++ delayed.value.toList
  | .closure function => [function.env]
  | _ => []

/-- Whether the body is data alone: a vector, a list or one of the two singletons. -/
def isData : Body → Bool
  | .null | .unbound | .vector _ | .list _ => true
  | _ => false

/-- Whether the body is that of a local environment. -/
def isLocal : Body → Bool
  | .environment frame => frame.kind.isLocal
  | _ => false

/-- Whether the body is that of an environment that a context owns. -/
def isNamed : Body → Bool
  | .environment frame => !frame.kind.isLocal
  | _ => false

/-- Whether values with this body travel in encoded form. -/
def isEncoded : Body → Bool
  | .closure _ | .language _ | .connection _ => true
  | .environment frame => !frame.kind.isLocal
  | _ => false

theorem kind_of_isEncoded {body : Body} (encoded : body.isEncoded = true) :
    body.kind ≠ .null ∧ body.kind ≠ .unbound := by
  cases body <;> simp_all [isEncoded, kind]

theorem isLocal_of_isEncoded {body : Body} (encoded : body.isEncoded = true) :
    body.isLocal = false := by
  cases body <;> simp_all [isEncoded, isLocal]

theorem isData_of_isEncoded {body : Body} (encoded : body.isEncoded = true) :
    body.isData = false := by
  cases body <;> first | rfl | cases encoded

theorem isData_of_isNamed {body : Body} (named : body.isNamed = true) : body.isData = false := by
  cases body <;> first | rfl | cases named

theorem isData_of_isLocal {body : Body} (environment : body.isLocal = true) :
    body.isData = false := by
  cases body <;> first | rfl | cases environment

theorem isNamed_of_isEncoded {body : Body} (encoded : body.isEncoded = true)
    (environment : body.kind = .environment) : body.isNamed = true := by
  cases body <;> simp_all [isEncoded, isNamed, kind]

theorem kind_of_isLocal {body : Body} (environment : body.isLocal = true) :
    body.kind = .environment := by
  cases body <;> first | rfl | cases environment

theorem isNamed_of_isLocal {body : Body} (environment : body.isLocal = true) :
    body.isNamed = false := by
  cases body <;> simp_all [isLocal, isNamed]

end Body

theorem EnvironmentKind.eq_localEnv {kind : EnvironmentKind} (isLocal : kind.isLocal = true) :
    kind = .localEnv := by
  cases kind with
  | localEnv => rfl
  | _ => cases isLocal

namespace Object

def children (object : Object) : List Ref :=
  object.body.children ++ (attributeEntries object.attributes).map Prod.snd

/-- What holds of an object by itself: mappings have distinct names, an attribute mapping is
neither empty nor holds NULL, a local environment has one around it, and only what is
shareable is shared. -/
structure Sound (object : Object) : Prop where
  attributes : ∀ mapping, object.attributes = some mapping →
    mapping.entries ≠ [] ∧ mapping.names.Nodup ∧ ∀ entry ∈ mapping.entries, entry.2 ≠ Ref.null
  frame : ∀ frame, object.body = .environment frame →
    frame.bindings.names.Nodup ∧ (frame.kind.isLocal = true → frame.parent ≠ none)
  shared : object.shared = true → object.body.isShareable = true

end Object

namespace Heap

/-- A heap as its operations leave it: the singletons at their places and nowhere else, both
shared, sound objects, and no reference to an address that was not handed out. -/
structure Sound (heap : Heap) : Prop where
  null : ∀ ref, ref.index < heap.size → (heap.body ref = .null ↔ ref = Ref.null)
  unbound : ∀ ref, heap.body ref = .unbound ↔ ref = Ref.unbound
  singletons : heap.isShared Ref.null = true ∧ heap.isShared Ref.unbound = true
  room : 2 ≤ heap.size
  object : ∀ ref, ref.index < heap.size → (heap.get ref).Sound
  closed : ∀ ref, ref.index < heap.size → ∀ child ∈ (heap.get ref).children,
    child.index < heap.size

theorem Sound.attributes {heap : Heap} (sound : heap.Sound) {ref : Ref} {mapping : Attributes}
    (has : heap.attributes ref = some mapping) :
    mapping.entries ≠ [] ∧ mapping.names.Nodup ∧
      ∀ value ∈ mapping.entries.map Prod.snd, value.index < heap.size ∧ value ≠ Ref.null := by
  have inside := heap.inside_of_attributes has
  obtain ⟨something, distinct, present⟩ := (sound.object ref inside).attributes mapping has
  refine ⟨something, distinct, ?_⟩
  intro value member
  obtain ⟨entry, held, same⟩ := List.mem_map.mp member
  refine ⟨sound.closed ref inside value (List.mem_append_right _ ?_), same ▸ present entry held⟩
  have here : (heap.get ref).attributes = some mapping := has
  rw [here]
  exact member

/-- What a value reaches without leaving the objects of a set that is closed to it. -/
inductive Reaches (heap : Heap) (closed : Ref → Prop) (start : Ref) : Ref → Prop where
  | start : Reaches heap closed start start
  | step {ref child : Ref} (reached : Reaches heap closed start ref) (enters : ¬closed ref)
      (member : child ∈ (heap.get ref).children) : Reaches heap closed start child

/-- Everything that a value reaches. -/
abbrev ReachesAll (heap : Heap) : Ref → Ref → Prop :=
  heap.Reaches fun _ => False

/-- All that the value reaches is data, and marked as shared for good. -/
def Deep (heap : Heap) (ref : Ref) : Prop :=
  ∀ found, heap.ReachesAll ref found →
    heap.isShared found = true ∧ (heap.body found).isData = true

/-- The later heap has all objects of the earlier one, with the same content. Marks have only been
added, and none to the objects from `base` on. -/
structure Marked (base : Nat) (before after : Heap) : Prop where
  size : before.size ≤ after.size
  body : ∀ ref, ref.index < before.size → after.body ref = before.body ref
  attributes : ∀ ref, ref.index < before.size → after.attributes ref = before.attributes ref
  shared : ∀ ref, ref.index < before.size → before.isShared ref = true →
    after.isShared ref = true
  unshared : ∀ ref, base ≤ ref.index → ref.index < before.size →
    after.isShared ref = before.isShared ref
  added : ∀ ref, ref.index < before.size → after.isShared ref = true →
    before.isShared ref = true ∨ (before.body ref).isShareable = true

variable {heap after : Heap}

/-! ### References after a write -/

theorem children_fresh (body : Body) : (Object.fresh body).children = body.children := by
  simp [Object.children, Object.fresh]

theorem children_makeShared (heap : Heap) (ref other : Ref) :
    ((heap.makeShared ref).2.get other).children = (heap.get other).children := by
  rcases heap.get_makeShared_cases ref other with same | ⟨_, marked⟩
  · rw [same]
  · rw [marked]
    rfl

theorem modifyFrame_other {ref : Ref} (change : Frame → Frame)
    (other : ∀ frame, heap.body ref ≠ .environment frame) : heap.modifyFrame ref change = heap := by
  have none : heap.frame? ref = none := by
    cases found : heap.frame? ref with
    | none => rfl
    | some frame => exact absurd (heap.frame?_eq_some.mp found) (other frame)
  simp only [modifyFrame, none]

theorem children_define {env value child : Ref} {name : String}
    (member : child ∈ ((heap.define env name value).get env).children) :
    child = value ∨ child ∈ (heap.get env).children := by
  by_cases framed : ∃ frame, heap.body env = .environment frame
  · obtain ⟨frame, body⟩ := framed
    rw [heap.get_define_same name value body] at member
    have body' : (heap.get env).body = .environment frame := body
    simp only [Object.children, Body.children, List.mem_append, body'] at member ⊢
    rcases member with (bound | parent) | held
    · rcases Mapping.mem_insertEntry bound with same | old
      · exact Or.inl same
      · exact Or.inr (Or.inl (Or.inl old))
    · exact Or.inr (Or.inl (Or.inr parent))
    · exact Or.inr (Or.inr held)
  · rw [define, modifyFrame_other _ fun frame body => framed ⟨frame, body⟩] at member
    exact Or.inr member

theorem children_setParent {env parent child : Ref}
    (member : child ∈ ((heap.setParent env parent).get env).children) :
    child = parent ∨ child ∈ (heap.get env).children := by
  by_cases framed : ∃ frame, heap.body env = .environment frame
  · obtain ⟨frame, body⟩ := framed
    rw [heap.get_setParent_same parent body] at member
    have body' : (heap.get env).body = .environment frame := body
    simp only [Object.children, Body.children, List.mem_append, body', Option.mem_toList,
      Option.some.injEq] at member ⊢
    rcases member with (bound | enclosing) | held
    · exact Or.inr (Or.inl (Or.inl bound))
    · exact Or.inl enclosing.symm
    · exact Or.inr (Or.inr held)
  · rw [setParent, modifyFrame_other _ fun frame body => framed ⟨frame, body⟩] at member
    exact Or.inr member

theorem entries_normalize {attributes : Option Attributes} {entry : String × Ref}
    (member : entry ∈ attributeEntries (Attributes.normalize attributes)) :
    entry ∈ attributeEntries attributes := by
  cases attributes with
  | none => exact member
  | some mapping =>
      by_cases something : mapping.entries = []
      · have gone : Attributes.normalize (some mapping) = none := by
          simp [Attributes.normalize, Mapping.isEmpty, something]
        rw [gone] at member
        cases member
      · rw [Attributes.normalize_some something] at member
        exact member

theorem children_replaceAttributes {ref child : Ref} {attributes : Option Attributes}
    (inside : ref.index < heap.size)
    (member : child ∈ ((heap.replaceAttributes ref attributes).get ref).children) :
    child ∈ (heap.get ref).children ∨ child ∈ (attributeEntries attributes).map Prod.snd := by
  rw [heap.get_replaceAttributes_same attributes inside] at member
  simp only [Object.children, List.mem_append] at member ⊢
  rcases member with body | held
  · exact Or.inl (Or.inl body)
  · obtain ⟨entry, present, same⟩ := List.mem_map.mp held
    rw [← same]
    exact Or.inr (List.mem_map_of_mem (entries_normalize present))

/-! ### Reaching -/

theorem Reaches.trans {closed : Ref → Prop} {first second third : Ref}
    (here : heap.Reaches closed first second) (there : heap.Reaches closed second third) :
    heap.Reaches closed first third := by
  induction there with
  | start => exact here
  | step reached enters member ih => exact .step ih enters member

theorem Reaches.head {closed : Ref → Prop} {first second third : Ref} (enters : ¬closed first)
    (member : second ∈ (heap.get first).children) (there : heap.Reaches closed second third) :
    heap.Reaches closed first third :=
  (Reaches.step .start enters member).trans there

theorem Reaches.cases_head {closed : Ref → Prop} {first last : Ref}
    (reached : heap.Reaches closed first last) :
    last = first ∨ ∃ second ∈ (heap.get first).children, heap.Reaches closed second last := by
  induction reached with
  | start => exact Or.inl rfl
  | step _ enters member ih =>
      right
      rcases ih with same | ⟨second, inside, there⟩
      · subst same
        exact ⟨_, member, .start⟩
      · exact ⟨second, inside, .step there enters member⟩

/-- Objects that refer to one another only, and are the same in two heaps, reach the same. -/
theorem Reaches.within {bound : Nat} {closed : Ref → Prop}
    (inner : ∀ ref, ref.index < bound → ∀ child ∈ (heap.get ref).children, child.index < bound)
    (same : ∀ ref, ref.index < bound → after.get ref = heap.get ref) {start found : Ref}
    (inside : start.index < bound) (reached : after.Reaches closed start found) :
    found.index < bound ∧ heap.Reaches closed start found := by
  induction reached with
  | start => exact ⟨inside, .start⟩
  | step _ enters member ih =>
      rw [same _ ih.1] at member
      exact ⟨inner _ ih.1 _ member, .step ih.2 enters member⟩

/-! ### Data that is shared in depth -/

theorem Deep.self {ref : Ref} (deep : heap.Deep ref) :
    heap.isShared ref = true ∧ (heap.body ref).isData = true :=
  deep ref .start

theorem Deep.child {ref child : Ref} (deep : heap.Deep ref)
    (member : child ∈ (heap.get ref).children) : heap.Deep child := by
  intro found reached
  exact deep found (reached.head id member)

theorem Deep.intro {ref : Ref} (shared : heap.isShared ref = true)
    (data : (heap.body ref).isData = true)
    (children : ∀ child ∈ (heap.get ref).children, heap.Deep child) : heap.Deep ref := by
  intro found reached
  rcases reached.cases_head with same | ⟨second, member, there⟩
  · subst same
    exact ⟨shared, data⟩
  · exact children second member found there

theorem Deep.within {bound : Nat}
    (inner : ∀ ref, ref.index < bound → ∀ child ∈ (heap.get ref).children, child.index < bound)
    (same : ∀ ref, ref.index < bound → after.get ref = heap.get ref) {ref : Ref}
    (inside : ref.index < bound) (deep : heap.Deep ref) : after.Deep ref := by
  intro found reached
  have there := reached.within inner same inside
  have shared := deep found there.2
  unfold isShared body at shared ⊢
  rw [same found there.1]
  exact shared

/-! ### Heaps that differ in marks -/

namespace Marked

variable {base : Nat}

theorem refl (base : Nat) (heap : Heap) : Marked base heap heap :=
  ⟨Nat.le_refl _, fun _ _ => rfl, fun _ _ => rfl, fun _ _ shared => shared, fun _ _ _ => rfl,
    fun _ _ shared => Or.inl shared⟩

theorem trans {first second third : Heap} (left : Marked base first second)
    (right : Marked base second third) : Marked base first third := by
  have later {ref : Ref} (inside : ref.index < first.size) : ref.index < second.size :=
    Nat.lt_of_lt_of_le inside left.size
  refine ⟨Nat.le_trans left.size right.size, ?_, ?_, ?_, ?_, ?_⟩
  · intro ref inside
    exact (right.body ref (later inside)).trans (left.body ref inside)
  · intro ref inside
    exact (right.attributes ref (later inside)).trans (left.attributes ref inside)
  · intro ref inside shared
    exact right.shared ref (later inside) (left.shared ref inside shared)
  · intro ref new inside
    exact (right.unshared ref new (later inside)).trans (left.unshared ref new inside)
  · intro ref inside shared
    rcases right.added ref (later inside) shared with before | shareable
    · exact left.added ref inside before
    · rw [left.body ref inside] at shareable
      exact Or.inr shareable

theorem children (marked : Marked base heap after) {ref : Ref} (inside : ref.index < heap.size) :
    (after.get ref).children = (heap.get ref).children := by
  have body := marked.body ref inside
  have attributes := marked.attributes ref inside
  unfold Heap.body at body
  unfold Heap.attributes at attributes
  simp only [Object.children, body, attributes]

theorem isData_of_deep (marked : Marked base heap after) {ref : Ref}
    (inside : ref.index < heap.size) (deep : after.Deep ref) : (heap.body ref).isData = true := by
  rw [← marked.body ref inside]
  exact deep.self.2

theorem get_new (marked : Marked base heap after) {ref : Ref} (new : base ≤ ref.index)
    (inside : ref.index < heap.size) : after.get ref = heap.get ref :=
  Object.ext (marked.body ref inside) (marked.attributes ref inside)
    (marked.unshared ref new inside)

theorem of_get {before after : Heap} (size : before.size ≤ after.size)
    (same : ∀ ref, ref.index < before.size → after.get ref = before.get ref) :
    Marked base before after := by
  refine ⟨size, ?_, ?_, ?_, ?_, ?_⟩
  · intro ref inside
    exact congrArg Object.body (same ref inside)
  · intro ref inside
    exact congrArg Object.attributes (same ref inside)
  · intro ref inside shared
    unfold isShared at shared ⊢
    rw [same ref inside]
    exact shared
  · intro ref _ inside
    exact congrArg Object.shared (same ref inside)
  · intro ref inside shared
    unfold isShared at shared ⊢
    rw [same ref inside] at shared
    exact Or.inl shared

theorem makeShared {ref : Ref} (old : ref.index < base) (heap : Heap) :
    Marked base heap (heap.makeShared ref).2 := by
  refine ⟨Nat.le_of_eq (heap.size_makeShared ref).symm,
    fun found _ => heap.body_makeShared ref found,
    fun found _ => heap.attributes_makeShared ref found, ?_, ?_, ?_⟩
  · intro found _ shared
    rcases heap.get_makeShared_cases ref found with same | ⟨_, marked⟩
    · exact (congrArg Object.shared same).trans shared
    · exact congrArg Object.shared marked
  · intro found new _
    have different : found ≠ ref := by
      intro same
      rw [same] at new
      exact Nat.not_lt_of_le new old
    exact congrArg Object.shared (heap.get_makeShared_other different)
  · intro found _ shared
    rcases heap.get_makeShared_cases ref found with same | ⟨shareable, _⟩
    · exact Or.inl ((congrArg Object.shared same).symm.trans shared)
    · exact Or.inr shareable

theorem bareCopy (base : Nat) (heap : Heap) (ref : Ref) :
    Marked base heap (heap.bareCopy ref).2 :=
  of_get (heap.size_le_bareCopy ref) fun _ inside => heap.get_bareCopy_old ref inside

end Marked

end Heap

/-- The environments that a context owns are in the heap, each of its own kind. -/
def Environments.Sound (environments : Environments) (heap : Heap) : Prop :=
  ∀ kind ref, environments.find? kind = some ref →
    ∃ frame, heap.body ref = .environment frame ∧ frame.kind = kind

namespace Environments

variable {environments : Environments} {heap : Heap}

theorem isLocal_of_find? {kind : EnvironmentKind} {ref : Ref}
    (found : environments.find? kind = some ref) : kind.isLocal = false := by
  cases kind with
  | localEnv => cases found
  | _ => rfl

theorem Sound.isNamed (sound : environments.Sound heap) {kind : EnvironmentKind} {ref : Ref}
    (found : environments.find? kind = some ref) : (heap.body ref).isNamed = true := by
  obtain ⟨frame, body, same⟩ := sound kind ref found
  rw [body]
  simp [Body.isNamed, same, isLocal_of_find? found]

theorem Sound.inside (sound : environments.Sound heap) {kind : EnvironmentKind} {ref : Ref}
    (found : environments.find? kind = some ref) : ref.index < heap.size := by
  obtain ⟨frame, body, _⟩ := sound kind ref found
  apply heap.inside_of_body
  rw [body]
  intro impossible
  cases impossible

end Environments

end ValueChannels
