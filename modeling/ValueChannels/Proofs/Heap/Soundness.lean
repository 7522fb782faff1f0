import ValueChannels.Context.Basic
import ValueChannels.Proofs.Heap.Reach

/-!
Heaps stay sound under the operations that make them. Main statements: the first heap is sound,
and so is every heap after an allocation, a definition or a change of an enclosing environment.
-/

namespace ValueChannels

namespace Heap

variable {heap : Heap}

theorem sound_initial : initial.Sound := by
  have objects : ∀ ref : Ref, ref.index < initial.size → ref = Ref.null ∨ ref = Ref.unbound := by
    intro ref inside
    have small : ref.index < 2 := inside
    rcases Nat.lt_succ_iff_lt_or_eq.mp small with zero | one
    · exact Or.inl (ref_ext (Nat.lt_one_iff.mp zero))
    · exact Or.inr (ref_ext one)
  constructor
  · intro ref inside
    rcases objects ref inside with same | same
    · rw [same]
      exact iff_of_true rfl rfl
    · rw [same]
      constructor
      · intro impossible
        cases impossible
      · intro impossible
        cases impossible
  · intro ref
    constructor
    · intro unbound
      by_cases inside : ref.index < initial.size
      · rcases objects ref inside with same | same
        · rw [same] at unbound
          cases unbound
        · exact same
      · rw [body, get_outside initial (Nat.le_of_not_lt inside)] at unbound
        cases unbound
    · intro same
      rw [same]
      rfl
  · exact ⟨rfl, rfl⟩
  · exact Nat.le_refl 2
  · intro ref inside
    rcases objects ref inside with same | same
    · rw [same]
      constructor
      · intro mapping none
        cases none
      · intro frame other
        cases other
      · intro _
        rfl
    · rw [same]
      constructor
      · intro mapping none
        cases none
      · intro frame other
        cases other
      · intro _
        rfl
  · intro ref inside child member
    rcases objects ref inside with same | same
    · rw [same] at member
      cases member
    · rw [same] at member
      cases member

namespace Sound

theorem put (sound : heap.Sound) {ref : Ref} {object : Object} (inside : ref.index < heap.size)
    (isNull : object.body = .null ↔ ref = Ref.null)
    (isUnbound : object.body = .unbound ↔ ref = Ref.unbound)
    (stays : (heap.get ref).shared = true → object.shared = true) (good : object.Sound)
    (closed : ∀ child ∈ object.children, child.index < heap.size) :
    (heap.put ref object).Sound := by
  have here := heap.get_put_same object inside
  have other {found : Ref} (different : found ≠ ref) : (heap.put ref object).get found =
      heap.get found := heap.get_put_other object different
  have singleton {found : Ref} (shared : heap.isShared found = true) :
      (heap.put ref object).isShared found = true := by
    unfold isShared at shared ⊢
    by_cases same : found = ref
    · rw [same, here]
      rw [same] at shared
      exact stays shared
    · rw [other same]
      exact shared
  constructor
  · intro found there
    rw [size_put] at there
    by_cases same : found = ref
    · rw [same, body, here]
      exact isNull
    · rw [body, other same]
      exact sound.null found there
  · intro found
    by_cases same : found = ref
    · rw [same, body, here]
      exact isUnbound
    · rw [body, other same]
      exact sound.unbound found
  · exact ⟨singleton sound.singletons.1, singleton sound.singletons.2⟩
  · rw [size_put]
    exact sound.room
  · intro found there
    rw [size_put] at there
    by_cases same : found = ref
    · rw [same, here]
      exact good
    · rw [other same]
      exact sound.object found there
  · intro found there child member
    rw [size_put] at there ⊢
    by_cases same : found = ref
    · rw [same, here] at member
      exact closed child member
    · rw [other same] at member
      exact sound.closed found there child member

theorem alloc (sound : heap.Sound) {body : Body} (notNull : body ≠ .null)
    (notUnbound : body ≠ .unbound)
    (frame : ∀ frame, body = .environment frame →
      frame.bindings.names.Nodup ∧ (frame.kind.isLocal = true → frame.parent ≠ none))
    (closed : ∀ child ∈ body.children, child.index < heap.size) : (heap.alloc body).2.Sound := by
  have size := heap.size_alloc body
  have room := sound.room
  have new := heap.get_alloc_new body
  have old {found : Ref} (inside : found.index < heap.size) :
      (heap.alloc body).2.get found = heap.get found := heap.get_alloc_old body inside
  have apart {found : Ref} (small : found.index < 2) : (heap.alloc body).1 ≠ found := by
    intro same
    have index : heap.size = found.index := congrArg Ref.index same
    omega
  -- The objects there before are as they were; of the new one each condition is about its body.
  constructor
  · intro found there
    rcases heap.inside_alloc_cases body there with inside | same
    · rw [Heap.body, old inside]
      exact sound.null found inside
    · rw [same, Heap.body, new]
      exact iff_of_false notNull (apart Nat.zero_lt_two)
  · intro found
    by_cases there : found.index < (heap.alloc body).2.size
    · rcases heap.inside_alloc_cases body there with inside | same
      · rw [Heap.body, old inside]
        exact sound.unbound found
      · rw [same, Heap.body, new]
        exact iff_of_false notUnbound (apart Nat.one_lt_two)
    · have outside := Nat.le_of_not_lt there
      rw [Heap.body, get_outside _ outside]
      constructor
      · intro impossible
        cases impossible
      · intro same
        rw [same, size] at outside
        have one : Ref.unbound.index = 1 := rfl
        omega
  · have first : Ref.null.index < heap.size := Nat.lt_of_lt_of_le Nat.zero_lt_two room
    have second : Ref.unbound.index < heap.size := Nat.lt_of_lt_of_le Nat.one_lt_two room
    unfold isShared
    rw [old first, old second]
    exact sound.singletons
  · omega
  · intro found there
    rcases heap.inside_alloc_cases body there with inside | same
    · rw [old inside]
      exact sound.object found inside
    · rw [same, new]
      constructor
      · intro mapping none
        cases none
      · exact frame
      · intro impossible
        cases impossible
  · intro found there child member
    rw [size]
    rcases heap.inside_alloc_cases body there with inside | same
    · rw [old inside] at member
      exact Nat.lt_succ_of_lt (sound.closed found inside child member)
    · rw [same, new, children_fresh] at member
      exact Nat.lt_succ_of_lt (closed child member)

theorem makeShared (sound : heap.Sound) (ref : Ref) : (heap.makeShared ref).2.Sound := by
  simp only [Heap.makeShared]
  split
  · rename_i shareable
    by_cases inside : ref.index < heap.size
    · have good := sound.object ref inside
      exact sound.put inside (sound.null ref inside) (sound.unbound ref) (fun _ => rfl)
        ⟨good.attributes, good.frame, fun _ => shareable⟩ (sound.closed ref inside)
    · rw [heap.put_outside _ (Nat.le_of_not_lt inside)]
      exact sound
  · exact sound

theorem replaceAttributes (sound : heap.Sound) (ref : Ref) {attributes : Option Attributes}
    (good : ∀ mapping, attributes = some mapping →
      mapping.names.Nodup ∧ ∀ entry ∈ mapping.entries, entry.2 ≠ Ref.null)
    (closed : ∀ child ∈ (attributeEntries attributes).map Prod.snd, child.index < heap.size) :
    (heap.replaceAttributes ref attributes).Sound := by
  by_cases inside : ref.index < heap.size
  · refine sound.put inside (sound.null ref inside) (sound.unbound ref) id ⟨?_, ?_, ?_⟩ ?_
    · intro mapping normal
      obtain ⟨same, something⟩ := Attributes.eq_of_normalize normal
      exact ⟨something, good mapping same⟩
    · exact (sound.object ref inside).frame
    · exact (sound.object ref inside).shared
    · intro child member
      rcases List.mem_append.mp member with part | held
      · exact sound.closed ref inside child (List.mem_append_left _ part)
      · obtain ⟨entry, present, same⟩ := List.mem_map.mp held
        rw [← same]
        exact closed _ (List.mem_map_of_mem (entries_normalize present))
  · have unchanged : heap.replaceAttributes ref attributes = heap :=
      heap.put_outside _ (Nat.le_of_not_lt inside)
    rw [unchanged]
    exact sound

/-- The attributes of a sound object are kept as they are when they are put in place again. -/
theorem normal (sound : heap.Sound) {ref : Ref} (inside : ref.index < heap.size) :
    Attributes.normalize (heap.attributes ref) = heap.attributes ref := by
  cases has : heap.attributes ref with
  | none => rfl
  | some mapping =>
      exact Attributes.normalize_some ((sound.object ref inside).attributes mapping has).1

theorem bareCopy (sound : heap.Sound) (ref : Ref) : (heap.bareCopy ref).2.Sound := by
  cases itself : (heap.body ref).copiesToItself with
  | true =>
      rw [heap.bareCopy_itself itself]
      exact sound
  | false =>
      have notNull : heap.body ref ≠ .null := by
        intro isNull
        rw [isNull] at itself
        cases itself
      have inside := heap.inside_of_body notNull
      rw [heap.bareCopy_alloc itself]
      refine sound.alloc notNull ?_ (sound.object ref inside).frame ?_
      · intro isUnbound
        rw [isUnbound] at itself
        cases itself
      · intro child member
        exact sound.closed ref inside child (List.mem_append_left _ member)

theorem allocVector (sound : heap.Sound) (data : AtomicVector) :
    (heap.alloc (.vector data)).2.Sound := by
  apply sound.alloc
  · intro impossible
    cases impossible
  · intro impossible
    cases impossible
  · intro frame impossible
    cases impossible
  · intro child impossible
    cases impossible

theorem allocEnvironment (sound : heap.Sound) {kind : EnvironmentKind} {parent : Option Ref}
    (enclosed : kind.isLocal = true → parent ≠ none)
    (closed : ∀ env ∈ parent, env.index < heap.size) :
    (heap.allocEnvironment kind parent).2.Sound := by
  apply sound.alloc
  · intro impossible
    cases impossible
  · intro impossible
    cases impossible
  · intro frame same
    cases same
    exact ⟨List.nodup_nil, enclosed⟩
  · intro child member
    rw [Body.children, Mapping.empty, List.map_nil, List.nil_append, Option.mem_toList] at member
    exact closed child member

theorem allocLocal (sound : heap.Sound) {parent : Ref} (inside : parent.index < heap.size) :
    (heap.allocLocal parent).2.Sound := by
  apply sound.allocEnvironment
  · intro _ impossible
    cases impossible
  · intro env same
    cases same
    exact inside

theorem modifyFrame (sound : heap.Sound) {env : Ref} {change : Frame → Frame}
    (names : ∀ frame, heap.body env = .environment frame → (change frame).bindings.names.Nodup)
    (enclosed : ∀ frame, heap.body env = .environment frame →
      (change frame).kind.isLocal = true → (change frame).parent ≠ none)
    (closed : ∀ child ∈ ((heap.modifyFrame env change).get env).children,
      child.index < heap.size) : (heap.modifyFrame env change).Sound := by
  by_cases framed : ∃ frame, heap.body env = .environment frame
  · obtain ⟨frame, body⟩ := framed
    have inside : env.index < heap.size := by
      apply heap.inside_of_body
      rw [body]
      exact fun impossible => nomatch impossible
    have written : heap.modifyFrame env change =
        heap.put env { heap.get env with body := .environment (change frame) } := by
      unfold Heap.modifyFrame
      rw [heap.frame?_eq_some.mpr body]
      rfl
    rw [heap.get_modifyFrame_same change body] at closed
    rw [written]
    refine sound.put inside ?_ ?_ id ?_ closed
    · rw [← sound.null env inside, body]
      exact iff_of_false (fun impossible => nomatch impossible) fun impossible => nomatch impossible
    · rw [← sound.unbound env, body]
      exact iff_of_false (fun impossible => nomatch impossible) fun impossible => nomatch impossible
    · have good := sound.object env inside
      constructor
      · exact good.attributes
      · intro other same
        cases same
        exact ⟨names frame body, enclosed frame body⟩
      · intro shared
        have shareable := good.shared shared
        have body' : (heap.get env).body = .environment frame := body
        rw [body'] at shareable
        cases shareable
  · rw [modifyFrame_other change fun frame body => framed ⟨frame, body⟩]
    exact sound

theorem define (sound : heap.Sound) {env value : Ref} (name : String) (there : env.index < heap.size)
    (inside : value.index < heap.size) : (heap.define env name value).Sound := by
  apply sound.modifyFrame
  · intro frame body
    exact Mapping.nodup_names_insert name value ((sound.object env there).frame frame body).1
  · intro frame body
    exact ((sound.object env there).frame frame body).2
  · intro child member
    rcases children_define member with same | old
    · rw [same]
      exact inside
    · exact sound.closed env there child old

theorem setParent (sound : heap.Sound) {env parent : Ref} (there : env.index < heap.size)
    (inside : parent.index < heap.size) : (heap.setParent env parent).Sound := by
  apply sound.modifyFrame
  · intro frame body
    exact ((sound.object env there).frame frame body).1
  · intro frame _ _
    exact fun impossible => nomatch impossible
  · intro child member
    rcases children_setParent member with same | old
    · rw [same]
      exact inside
    · exact sound.closed env there child old

end Sound

end Heap

namespace Environments

variable {heap after : Heap} {environments : Environments}

theorem Sound.later (sound : environments.Sound heap)
    (kept : ∀ ref frame, heap.body ref = .environment frame →
      ∃ frame', after.body ref = .environment frame' ∧ frame'.kind = frame.kind) :
    environments.Sound after := by
  intro kind ref found
  obtain ⟨frame, body, same⟩ := sound kind ref found
  obtain ⟨frame', body', same'⟩ := kept ref frame body
  exact ⟨frame', body', same'.trans same⟩

/-- An environment of a kind is in the heap. -/
def Holds (heap : Heap) (kind : EnvironmentKind) (ref : Ref) : Prop :=
  ∃ frame, heap.body ref = .environment frame ∧ frame.kind = kind

theorem holds_new (heap : Heap) (kind : EnvironmentKind) (parent : Option Ref) :
    Holds (heap.allocEnvironment kind parent).2 kind (heap.allocEnvironment kind parent).1 := by
  have new := heap.get_alloc_new (.environment { kind, bindings := Mapping.empty, parent })
  exact ⟨_, congrArg Object.body new, rfl⟩

theorem Holds.later {kind : EnvironmentKind} {ref : Ref} (holds : Holds heap kind ref)
    (other : EnvironmentKind) (parent : Option Ref) :
    Holds (heap.allocEnvironment other parent).2 kind ref := by
  obtain ⟨frame, body, same⟩ := holds
  refine ⟨frame, ?_, same⟩
  have inside : ref.index < heap.size := by
    apply heap.inside_of_body
    rw [body]
    exact fun impossible => nomatch impossible
  exact (congrArg Object.body (heap.get_alloc_old _ inside)).trans body

theorem sound_fixed
    (bare : environments.packages = Mapping.empty ∧ environments.namespaces = Mapping.empty)
    (empty : Holds heap .empty environments.empty) (base : Holds heap .base environments.base)
    (baseNamespace : Holds heap .baseNamespace environments.baseNamespace)
    (global : Holds heap .global environments.global) : environments.Sound heap := by
  intro kind ref found
  cases kind with
  | empty =>
      cases found
      exact empty
  | base =>
      cases found
      exact base
  | baseNamespace =>
      cases found
      exact baseNamespace
  | global =>
      cases found
      exact global
  | packageEnv name =>
      rw [find?, bare.1] at found
      cases found
  | namespaceEnv name =>
      rw [find?, bare.2] at found
      cases found
  | localEnv => cases found

theorem sound_create (heap : Heap) : (create heap).1.Sound (create heap).2 :=
  sound_fixed ⟨rfl, rfl⟩ ((((holds_new _ _ _).later _ _).later _ _).later _ _)
    (((holds_new _ _ _).later _ _).later _ _) (holds_new _ _ _) ((holds_new _ _ _).later _ _)

/-- The heap is as sound with the environments of a new context as without them. -/
theorem heap_create (sound : heap.Sound) : (create heap).2.Sound := by
  have inside (heap : Heap) (kind : EnvironmentKind) (parent : Option Ref) :
      ∀ env ∈ some (heap.allocEnvironment kind parent).1,
        env.index < (heap.allocEnvironment kind parent).2.size := by
    intro env same
    cases same
    exact heap.inside_alloc _
  have named {kind : EnvironmentKind} {parent : Option Ref} (other : kind.isLocal = false) :
      kind.isLocal = true → parent ≠ none := by
    intro isLocal
    rw [other] at isLocal
    cases isLocal
  have empty : (heap.allocEnvironment .empty none).2.Sound := by
    apply sound.allocEnvironment (named rfl)
    intro env impossible
    cases impossible
  have base := empty.allocEnvironment (named rfl : EnvironmentKind.base.isLocal = true → _)
    (inside _ _ _)
  have global := base.allocEnvironment (named rfl : EnvironmentKind.global.isLocal = true → _)
    (inside _ _ _)
  exact global.allocEnvironment (named rfl : EnvironmentKind.baseNamespace.isLocal = true → _)
    (inside _ _ _)

end Environments

end ValueChannels
