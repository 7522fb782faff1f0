import Mathlib.Data.List.Induction
import ValueChannels.Proofs.Heap.Editing

/-!
The operations that programs have on the heap, and the courses that heaps take under them. Along
with every course goes the list of the names that were defined, and where, in the order in which
they were. Main statements: `Operation.defines` for what one operation leaves as it was,
`Course.defines` for a course, and `Course.names`, that the names in a frame stand in the order of
their first definitions.
-/

namespace ValueChannels

/-! ### Names in the order of their definitions -/

/-- A name that is defined comes after all others, unless it was defined before. -/
def addName (names : List String) (name : String) : List String :=
  if name ∈ names then names else names ++ [name]

/-- The names that were defined in an environment, as often as they were. -/
def definedIn (definitions : List (Ref × String)) (env : Ref) : List String :=
  (definitions.filter fun definition => definition.1 = env).map Prod.snd

theorem definedIn_append (first second : List (Ref × String)) (env : Ref) :
    definedIn (first ++ second) env = definedIn first env ++ definedIn second env := by
  rw [definedIn, List.filter_append, List.map_append]
  rfl

theorem foldl_addName (names : List String) : names.foldl addName [] = names.eraseDups := by
  induction names using List.reverseRecOn with
  | nil => rfl
  | append_singleton names name ih =>
      rw [List.foldl_append, ih, List.eraseDups_append, List.foldl_cons, List.foldl_nil, addName]
      by_cases known : name ∈ names
      · simp [List.removeAll, known]
      · simp [List.removeAll, known, List.eraseDups_cons]

theorem prefix_foldl_addName (names more : List String) :
    names <+: more.foldl addName names := by
  induction more generalizing names with
  | nil => exact List.prefix_refl names
  | cons name rest ih =>
      refine List.IsPrefix.trans ?_ (ih (addName names name))
      rw [addName]
      split
      · exact List.prefix_refl names
      · exact List.prefix_append names [name]

namespace Body

variable {body other : Body}

theorem isShareable_of_kind (same : body.kind = other.kind) :
    body.isShareable = other.isShareable := by
  have depends (body : Body) : body.isShareable = match body.kind with
      | .environment | .promise | .closure | .connection => false
      | _ => true := by
    cases body with
    | vector data => cases data <;> rfl
    | _ => rfl
  rw [depends, depends other, same]

theorem kind_of_copies (copies : body.copiesToItself = false) :
    body.kind ≠ .null ∧ body.kind ≠ .unbound ∧ body.kind ≠ .environment := by
  cases body with
  | vector data => cases data <;> exact ⟨nofun, nofun, nofun⟩
  | null => cases copies
  | unbound => cases copies
  | environment frame => cases copies
  | _ => exact ⟨nofun, nofun, nofun⟩

end Body

namespace Heap

variable {heap before middle after : Heap} {handle env value : Ref} {body : Body} {name : String}
  {made more : List (Ref × String)}

/-! ### What operations leave as it was -/

/-- The later heap has all environments of the earlier one, each of the kind that it was, and names
were defined in them in the given order. -/
structure Defines (made : List (Ref × String)) (before after : Heap) : Prop where
  size : before.size ≤ after.size
  frames : ∀ ref frame, before.body ref = .environment frame →
    ∃ frame', after.body ref = .environment frame' ∧ frame'.kind = frame.kind
  names : ∀ env, (after.bindings env).names =
    (definedIn made env).foldl addName (before.bindings env).names

theorem bindings_of_body {ref : Ref} (same : after.body ref = before.body ref) :
    after.bindings ref = before.bindings ref := by
  rw [bindings, bindings, frame?, frame?, same]

theorem bindings_of_frame {frame : Frame} (body : heap.body env = .environment frame) :
    heap.bindings env = frame.bindings := by
  rw [bindings, heap.frame?_eq_some.mpr body]

theorem frame_of_kind (environment : heap.kind env = .environment) :
    ∃ frame, heap.body env = .environment frame := by
  rw [kind] at environment
  cases content : heap.body env with
  | environment frame => exact ⟨frame, rfl⟩
  | vector data =>
      rw [content] at environment
      cases data <;> cases environment
  | _ =>
      rw [content] at environment
      cases environment

theorem bindings_of_kind {ref : Ref} (other : heap.kind ref ≠ .environment) :
    heap.bindings ref = Mapping.empty := by
  rw [bindings]
  cases found : heap.frame? ref with
  | none => rfl
  | some frame =>
      rw [kind, heap.frame?_eq_some.mp found] at other
      exact absurd rfl other

theorem inside_of_kind {ref : Ref} {kind : ValueKind} (found : heap.kind ref = kind)
    (something : kind ≠ .null) : ref.index < heap.size := by
  apply heap.inside_of_body
  intro null
  rw [Heap.kind, null] at found
  exact something found.symm

theorem bindings_outside {ref : Ref} (outside : heap.size ≤ ref.index) :
    heap.bindings ref = Mapping.empty :=
  bindings_of_kind fun environment =>
    Nat.not_lt_of_le outside (inside_of_kind environment nofun)

theorem promise?_eq_some {ref : Ref} {delayed : Promise} :
    heap.promise? ref = some delayed ↔ heap.body ref = .promise delayed := by
  unfold promise?
  cases heap.body ref <;> simp

namespace Defines

theorem refl (heap : Heap) : heap.Defines [] heap :=
  ⟨Nat.le_refl _, fun _ frame body => ⟨frame, body, rfl⟩, fun _ => rfl⟩

theorem trans (first : Defines made before middle) (second : Defines more middle after) :
    Defines (made ++ more) before after := by
  constructor
  · exact Nat.le_trans first.size second.size
  · intro ref frame body
    obtain ⟨frame', body', same⟩ := first.frames ref frame body
    obtain ⟨frame'', body'', same'⟩ := second.frames ref frame' body'
    exact ⟨frame'', body'', same'.trans same⟩
  · intro env
    rw [second.names, first.names, definedIn_append, List.foldl_append]

theorem of_bodies (size : after.size = before.size)
    (same : ∀ ref, after.body ref = before.body ref) : Defines [] before after := by
  constructor
  · exact Nat.le_of_eq size.symm
  · exact fun ref frame body => ⟨frame, (same ref).trans body, rfl⟩
  · exact fun env => congrArg Mapping.names (bindings_of_body (same env))

theorem replaceAttributes (handle : Ref) (attributes : Option Attributes) :
    heap.Defines [] (heap.replaceAttributes handle attributes) :=
  of_bodies (heap.size_replaceAttributes handle attributes)
    fun ref => heap.body_replaceAttributes handle ref attributes

theorem makeShared (handle : Ref) : heap.Defines [] (heap.makeShared handle).2 :=
  of_bodies (heap.size_makeShared handle) (heap.body_makeShared handle)

theorem alloc (bare : ∀ frame, body = .environment frame → frame.bindings = Mapping.empty) :
    heap.Defines [] (heap.alloc body).2 := by
  have old {ref : Ref} (inside : ref.index < heap.size) :
      (heap.alloc body).2.body ref = heap.body ref :=
    congrArg Object.body (heap.get_alloc_old body inside)
  constructor
  · exact heap.size_le_alloc body
  · intro ref frame content
    have inside := inside_of_kind (congrArg Body.kind content) nofun
    exact ⟨frame, (old inside).trans content, rfl⟩
  · intro env
    refine congrArg Mapping.names ?_
    by_cases inside : env.index < heap.size
    · exact bindings_of_body (old inside)
    · have outside := Nat.le_of_not_lt inside
      rw [bindings_outside outside]
      by_cases new : env = (heap.alloc body).1
      · have content : (heap.alloc body).2.body env = body := by
          rw [new]
          exact congrArg Object.body (heap.get_alloc_new body)
        by_cases environment : (heap.alloc body).2.kind env = .environment
        · obtain ⟨frame, found⟩ := frame_of_kind environment
          rw [bindings_of_frame found]
          exact bare frame (content.symm.trans found)
        · exact bindings_of_kind environment
      · apply bindings_outside
        refine Nat.le_of_not_lt fun there => new ?_
        exact (heap.inside_alloc_cases body there).resolve_left inside

theorem setBody (same : body.kind = heap.kind handle) (copies : body.copiesToItself = false) :
    heap.Defines [] (heap.setBody handle body) := by
  obtain ⟨notNull, _, notFrame⟩ := Body.kind_of_copies copies
  have here := heap.get_setBody_same body (inside_of_kind same.symm notNull)
  have other {ref : Ref} (apart : ref ≠ handle) :
      (heap.setBody handle body).body ref = heap.body ref :=
    congrArg Object.body (heap.get_setBody_other body apart)
  have kinds (ref : Ref) : (heap.setBody handle body).kind ref = heap.kind ref := by
    by_cases there : ref = handle
    · rw [there, Heap.kind, Heap.body, here]
      exact same
    · exact congrArg Body.kind (other there)
  constructor
  · exact Nat.le_of_eq (heap.size_setBody handle body).symm
  · intro ref frame content
    refine ⟨frame, (other fun there => notFrame ?_).trans content, rfl⟩
    rw [there] at content
    exact same.trans (congrArg Body.kind content)
  · intro env
    refine congrArg Mapping.names ?_
    by_cases there : env = handle
    · rw [there, bindings_of_kind, bindings_of_kind]
      · rw [← same]
        exact notFrame
      · rw [kinds, ← same]
        exact notFrame
    · exact bindings_of_body (other there)

theorem bareCopy (handle : Ref) : heap.Defines [] (heap.bareCopy handle).2 := by
  cases copies : (heap.body handle).copiesToItself with
  | true =>
      rw [heap.bareCopy_itself copies]
      exact refl heap
  | false =>
      rw [heap.bareCopy_alloc copies]
      refine alloc fun frame environment => ?_
      rw [environment] at copies
      cases copies

theorem shallowCopy (handle : Ref) : heap.Defines [] (heap.shallowCopy handle).2 := by
  unfold Heap.shallowCopy
  dsimp only
  split
  · exact bareCopy handle
  · exact (bareCopy handle).trans (replaceAttributes _ _)

theorem makePrivate (handle : Ref) : heap.Defines [] (heap.makePrivate handle).2 := by
  unfold Heap.makePrivate
  split
  · exact shallowCopy handle
  · exact refl heap

theorem setPrivate (same : body.kind = heap.kind handle) (copies : body.copiesToItself = false) :
    heap.Defines []
      ((heap.makePrivate handle).2.setBody (heap.makePrivate handle).1 body) := by
  refine (makePrivate handle).trans (setBody ?_ copies)
  rw [Heap.kind, body_makePrivate]
  exact same

theorem perform (edit : Edit) (handle : Ref) :
    heap.Defines [] (edit.perform heap handle).heap := by
  cases edit with
  | setAttribute name value => exact (makePrivate handle).trans (replaceAttributes _ _)
  | setElement index value =>
      unfold Edit.perform setElement
      dsimp only
      split
      · rename_i items content
        split
        · refine setPrivate ?_ rfl
          rw [Heap.kind, content]
          rfl
        · exact makePrivate handle
      · exact refl heap
  | pushElement value =>
      unfold Edit.perform pushElement
      dsimp only
      split
      · rename_i items content
        refine setPrivate ?_ rfl
        rw [Heap.kind, content]
        rfl
      · exact refl heap
  | updateVector change =>
      unfold Edit.perform updateVector
      dsimp only
      split
      · rename_i data content
        split
        · rename_i same
          refine setPrivate ?_ rfl
          rw [Heap.kind, content]
          exact same
        · exact makePrivate handle
      · exact refl heap

theorem fulfil (handle value : Ref) : heap.Defines [] (heap.fulfil handle value).2 := by
  unfold Heap.fulfil
  split
  · rename_i expr env found
    refine setBody ?_ rfl
    rw [Heap.kind, promise?_eq_some.mp found]
    rfl
  · exact refl heap

theorem modifyFrame {change : Frame → Frame} (environment : heap.kind env = .environment)
    (kind : ∀ frame, (change frame).kind = frame.kind)
    (names : ∀ frame, (change frame).bindings.names =
      (definedIn made env).foldl addName frame.bindings.names)
    (nowhere : ∀ other, other ≠ env → definedIn made other = []) :
    heap.Defines made (heap.modifyFrame env change) := by
  obtain ⟨frame, content⟩ := frame_of_kind environment
  constructor
  · exact Nat.le_of_eq (heap.size_modifyFrame env change).symm
  · intro ref frame' content'
    by_cases here : ref = env
    · rw [here] at content' ⊢
      exact ⟨_, congrArg Object.body (heap.get_modifyFrame_same change content'), kind frame'⟩
    · exact ⟨frame', (congrArg Object.body (heap.get_modifyFrame_other change here)).trans content',
        rfl⟩
  · intro other
    by_cases here : other = env
    · have written := congrArg Object.body (heap.get_modifyFrame_same change content)
      rw [here, bindings_of_frame content, bindings_of_frame written]
      exact names frame
    · rw [nowhere other here]
      refine congrArg Mapping.names (bindings_of_body ?_)
      exact congrArg Object.body (heap.get_modifyFrame_other change here)

theorem define (environment : heap.kind env = .environment) (name : String) (value : Ref) :
    heap.Defines [(env, name)] (heap.define env name value) := by
  refine modifyFrame environment (fun _ => rfl) (fun frame => ?_) fun other apart => ?_
  · have here : definedIn [(env, name)] env = [name] := by simp [definedIn]
    rw [here]
    exact Mapping.names_insert frame.bindings name value
  · simp [definedIn, Ne.symm apart]

theorem setParent (environment : heap.kind env = .environment) (parent : Ref) :
    heap.Defines [] (heap.setParent env parent) :=
  modifyFrame environment (fun _ => rfl) (fun _ => rfl) fun _ _ => rfl

end Defines

/-! ### Sound heaps -/

namespace Sound

theorem setBody (sound : heap.Sound) (same : body.kind = heap.kind handle)
    (copies : body.copiesToItself = false)
    (closed : ∀ child ∈ body.children, child.index < heap.size) :
    (heap.setBody handle body).Sound := by
  obtain ⟨notNull, notUnbound, notFrame⟩ := Body.kind_of_copies copies
  have inside := inside_of_kind same.symm notNull
  have object := sound.object handle inside
  have apart {found other : Body} (differs : body.kind ≠ other.kind)
      (is : body.kind = found.kind) : found ≠ other :=
    fun equal => differs (is.trans (congrArg Body.kind equal))
  refine sound.put inside ?_ ?_ id ⟨object.attributes, ?_, ?_⟩ ?_
  · rw [← sound.null handle inside]
    exact iff_of_false (apart notNull rfl) (apart notNull same)
  · rw [← sound.unbound handle]
    exact iff_of_false (apart notUnbound rfl) (apart notUnbound same)
  · exact fun frame environment => absurd environment (apart notFrame rfl)
  · intro shared
    exact (Body.isShareable_of_kind same).trans (object.shared shared)
  · intro child member
    rcases List.mem_append.mp member with part | attached
    · exact closed child part
    · exact sound.closed handle inside child (List.mem_append_right _ attached)

theorem body_inside (sound : heap.Sound) {ref child : Ref} (content : heap.body ref = body)
    (member : child ∈ body.children) : child.index < heap.size := by
  have inside : ref.index < heap.size := by
    apply heap.inside_of_body
    rw [content]
    intro null
    rw [null] at member
    cases member
  refine sound.closed ref inside child (List.mem_append_left _ ?_)
  change child ∈ (heap.body ref).children
  rw [content]
  exact member

theorem attached_inside (sound : heap.Sound) {ref child : Ref}
    (member : child ∈ (attributeEntries (heap.attributes ref)).map Prod.snd) :
    child.index < heap.size := by
  by_cases inside : ref.index < heap.size
  · exact sound.closed ref inside child (List.mem_append_right _ member)
  · rw [Heap.attributes, heap.get_outside (Nat.le_of_not_lt inside)] at member
    cases member

theorem shallowCopy (sound : heap.Sound) (handle : Ref) : (heap.shallowCopy handle).2.Sound := by
  unfold Heap.shallowCopy
  dsimp only
  split
  · exact sound.bareCopy handle
  · refine (sound.bareCopy handle).replaceAttributes _ ?_ ?_
    · intro mapping has
      exact ((sound.object handle (heap.inside_of_attributes has)).attributes mapping has).2
    · exact fun child member =>
        Nat.lt_of_lt_of_le (sound.attached_inside member) (heap.size_le_bareCopy handle)

theorem makePrivate (sound : heap.Sound) (handle : Ref) : (heap.makePrivate handle).2.Sound := by
  unfold Heap.makePrivate
  split
  · exact sound.shallowCopy handle
  · exact sound

theorem setPrivate (sound : heap.Sound) (same : body.kind = heap.kind handle)
    (copies : body.copiesToItself = false)
    (closed : ∀ child ∈ body.children, child.index < heap.size) :
    ((heap.makePrivate handle).2.setBody (heap.makePrivate handle).1 body).Sound := by
  refine (sound.makePrivate handle).setBody ?_ copies ?_
  · rw [Heap.kind, body_makePrivate]
    exact same
  · exact fun child member =>
      Nat.lt_of_lt_of_le (closed child member) (Defines.makePrivate handle).size

end Sound

end Heap

/-- The references that an edit writes are in the heap. -/
def Edit.Known (heap : Heap) : Edit → Prop
  | .setAttribute _ value | .setElement _ value | .pushElement value => value.index < heap.size
  | .updateVector _ => True

namespace Heap

variable {heap : Heap}

theorem Sound.perform (sound : heap.Sound) {edit : Edit} (known : edit.Known heap) (handle : Ref) :
    (edit.perform heap handle).heap.Sound := by
  have grown := (Defines.makePrivate handle : heap.Defines [] _).size
  cases edit with
  | setAttribute name value =>
      have moved := sound.makePrivate handle
      refine moved.replaceAttributes _ ?_ ?_
      · intro mapping same
        cases same
        exact (moved.proper _).set name value
      · intro child member
        obtain ⟨entry, present, same⟩ := List.mem_map.mp member
        rw [← same]
        rcases @Attributes.mem_foldl_set [(name, value)] _ _ present with old | new
        · exact moved.attached_inside old
        · rw [List.mem_singleton.mp new]
          exact Nat.lt_of_lt_of_le known grown
  | setElement index value =>
      unfold Edit.perform setElement
      dsimp only
      split
      · rename_i items content
        split
        · refine sound.setPrivate ?_ rfl fun child member => ?_
          · rw [Heap.kind, content]
            rfl
          · rcases List.mem_or_eq_of_mem_set member with old | same
            · exact sound.body_inside content old
            · rw [same]
              exact known
        · exact sound.makePrivate handle
      · exact sound
  | pushElement value =>
      unfold Edit.perform pushElement
      dsimp only
      split
      · rename_i items content
        refine sound.setPrivate ?_ rfl fun child member => ?_
        · rw [Heap.kind, content]
          rfl
        · rcases List.mem_append.mp member with old | new
          · exact sound.body_inside content old
          · rw [List.mem_singleton.mp new]
            exact known
      · exact sound
  | updateVector change =>
      unfold Edit.perform updateVector
      dsimp only
      split
      · rename_i data content
        split
        · rename_i same
          refine sound.setPrivate ?_ rfl (List.forall_mem_nil _)
          rw [Heap.kind, content]
          exact same
        · exact sound.makePrivate handle
      · exact sound

theorem Sound.fulfil (sound : heap.Sound) {handle value : Ref} (inside : value.index < heap.size) :
    (heap.fulfil handle value).2.Sound := by
  unfold Heap.fulfil
  split
  · rename_i expr env found
    have content := promise?_eq_some.mp found
    refine sound.setBody ?_ rfl fun child member => ?_
    · rw [Heap.kind, content]
      rfl
    · rcases List.mem_append.mp member with around | held
      · exact sound.body_inside content (List.mem_append_left _ around)
      · rw [List.mem_singleton.mp held]
        exact inside
  · exact sound

/-! ### Operations and courses -/

/-- One operation on a heap, with the names that it defines. What it refers to is in the heap, a
local environment is made with one around it, and no environment is made with bindings. -/
inductive Operation (heap : Heap) : List (Ref × String) → Heap → Prop where
  | alloc {body : Body} (proper : body.isSingleton = false)
      (frame : ∀ frame, body = .environment frame →
        frame.bindings = Mapping.empty ∧ (frame.kind.isLocal = true → frame.parent ≠ none))
      (known : ∀ child ∈ body.children, child.index < heap.size) :
      Operation heap [] (heap.alloc body).2
  | bareCopy (handle : Ref) : Operation heap [] (heap.bareCopy handle).2
  | shallowCopy (handle : Ref) : Operation heap [] (heap.shallowCopy handle).2
  | makeShared (handle : Ref) : Operation heap [] (heap.makeShared handle).2
  | perform {edit : Edit} (known : edit.Known heap) (handle : Ref) :
      Operation heap [] (edit.perform heap handle).heap
  | attach (handle : Ref) {entries : List (String × Ref)}
      (known : ∀ value ∈ entries.map Prod.snd, value.index < heap.size) :
      Operation heap [] (heap.replaceAttributes handle (some (Attributes.ofList entries)))
  | define {env : Ref} (environment : heap.kind env = .environment) (name : String) {value : Ref}
      (known : value.index < heap.size) : Operation heap [(env, name)] (heap.define env name value)
  | setParent {env : Ref} (environment : heap.kind env = .environment) {parent : Ref}
      (known : parent.index < heap.size) : Operation heap [] (heap.setParent env parent)
  | fulfil (handle : Ref) {value : Ref} (known : value.index < heap.size) :
      Operation heap [] (heap.fulfil handle value).2

/-- Operations one after the other, with the names that they define. -/
inductive Course (start : Heap) : List (Ref × String) → Heap → Prop where
  | refl : Course start [] start
  | step {made more : List (Ref × String)} {middle last : Heap} (before : Course start made middle)
      (taken : middle.Operation more last) : Course start (made ++ more) last

/-- The later heap comes of the earlier one by operations. -/
def Develops (before after : Heap) : Prop :=
  ∃ made, before.Course made after

/-- The name that is defined where there is an environment to define it in. -/
def definition (heap : Heap) (env : Ref) (name : String) : List (Ref × String) :=
  if heap.kind env = .environment then [(env, name)] else []

variable {before middle after : Heap} {made more : List (Ref × String)}

theorem Operation.defines (taken : heap.Operation made after) : heap.Defines made after := by
  cases taken with
  | alloc _ frame _ => exact .alloc fun content same => (frame content same).1
  | bareCopy handle => exact .bareCopy handle
  | shallowCopy handle => exact .shallowCopy handle
  | makeShared handle => exact .makeShared handle
  | perform _ handle => exact .perform _ handle
  | attach handle _ => exact .replaceAttributes handle _
  | define environment name _ => exact .define environment name _
  | setParent environment _ => exact .setParent environment _
  | fulfil handle _ => exact .fulfil handle _

theorem Operation.sound (taken : heap.Operation made after) (sound : heap.Sound) :
    after.Sound := by
  cases taken with
  | @alloc body proper frame known =>
      refine sound.alloc ?_ ?_ ?_ known
      · intro null
        rw [null] at proper
        cases proper
      · intro unbound
        rw [unbound] at proper
        cases proper
      · intro content same
        obtain ⟨bare, enclosed⟩ := frame content same
        rw [bare]
        exact ⟨List.nodup_nil, enclosed⟩
  | bareCopy handle => exact sound.bareCopy handle
  | shallowCopy handle => exact sound.shallowCopy handle
  | makeShared handle => exact sound.makeShared handle
  | perform known handle => exact sound.perform known handle
  | @attach handle entries known =>
      refine sound.replaceAttributes handle ?_ ?_
      · intro mapping same
        cases same
        exact Attributes.proper_ofList entries
      · intro child member
        obtain ⟨entry, present, same⟩ := List.mem_map.mp member
        rw [← same]
        exact known _ (Attributes.mem_ofList present)
  | define environment name known =>
      exact sound.define name (inside_of_kind environment nofun) known
  | setParent environment known => exact sound.setParent (inside_of_kind environment nofun) known
  | fulfil handle known => exact sound.fulfil known

namespace Course

theorem defines (course : before.Course made after) : before.Defines made after := by
  induction course with
  | refl => exact .refl before
  | step _ taken ih => exact ih.trans taken.defines

theorem sound (course : before.Course made after) (sound : before.Sound) : after.Sound := by
  induction course with
  | refl => exact sound
  | step _ taken ih => exact taken.sound ih

theorem trans (first : before.Course made middle) (second : middle.Course more after) :
    before.Course (made ++ more) after := by
  induction second with
  | refl =>
      rw [List.append_nil]
      exact first
  | step _ taken ih =>
      rw [← List.append_assoc]
      exact ih.step taken

theorem develops (course : before.Course made after) : before.Develops after :=
  ⟨made, course⟩

theorem single (taken : before.Operation made after) : before.Course made after :=
  Course.step .refl taken

theorem alloc {body : Body} (copies : body.copiesToItself = false)
    (known : ∀ child ∈ body.children, child.index < heap.size) :
    heap.Course [] (heap.alloc body).2 := by
  refine .single (.alloc ?_ (fun frame environment => ?_) known)
  · cases singleton : body.isSingleton with
    | true =>
        rw [Body.copiesToItself_of_isSingleton singleton] at copies
        cases copies
    | false => rfl
  · rw [environment] at copies
    cases copies

theorem allocEnvironment {kind : EnvironmentKind} {parent : Option Ref}
    (enclosed : kind.isLocal = true → parent ≠ none)
    (known : ∀ ref ∈ parent, ref.index < heap.size) :
    heap.Course [] (heap.allocEnvironment kind parent).2 := by
  refine .single (.alloc rfl (fun frame same => ?_) fun child member => ?_)
  · cases same
    exact ⟨rfl, enclosed⟩
  · exact known child (Option.mem_toList.mp member)

theorem allocLocal {parent : Ref} (known : parent.index < heap.size) :
    heap.Course [] (heap.allocLocal parent).2 := by
  refine .allocEnvironment (fun _ => nofun) fun ref same => ?_
  cases same
  exact known

theorem define (env : Ref) (name : String) (known : value.index < heap.size) :
    heap.Course (heap.definition env name) (heap.define env name value) := by
  by_cases environment : heap.kind env = .environment
  · rw [definition, if_pos environment]
    exact .single (.define environment name known)
  · rw [definition, if_neg environment, Heap.define,
      modifyFrame_other _ fun _ content => environment (congrArg Body.kind content)]
    exact .refl

theorem setParent (env : Ref) {parent : Ref} (known : parent.index < heap.size) :
    heap.Course [] (heap.setParent env parent) := by
  by_cases environment : heap.kind env = .environment
  · exact .single (.setParent environment known)
  · rw [Heap.setParent,
      modifyFrame_other _ fun _ content => environment (congrArg Body.kind content)]
    exact .refl

/-- The names in a frame stand in the order of their first definitions. -/
theorem names (course : initial.Course made heap) (env : Ref) :
    (heap.bindings env).names = (definedIn made env).eraseDups := by
  have bare : initial.bindings env = Mapping.empty := by
    refine bindings_of_kind fun environment => ?_
    obtain ⟨index⟩ := env
    match index with
    | 0 => cases environment
    | 1 => cases environment
    | index + 2 =>
        have inside := inside_of_kind environment nofun
        exact absurd (show index + 2 < 2 from inside) (by omega)
  rw [course.defines.names, bare, ← foldl_addName]
  rfl

end Course

namespace Develops

theorem refl (heap : Heap) : heap.Develops heap :=
  ⟨[], .refl⟩

theorem trans (first : before.Develops middle) (second : middle.Develops after) :
    before.Develops after := by
  obtain ⟨made, course⟩ := first
  obtain ⟨more, course'⟩ := second
  exact ⟨made ++ more, course.trans course'⟩

theorem single (taken : before.Operation made after) : before.Develops after :=
  Course.develops (.single taken)

theorem sound (develops : before.Develops after) (sound : before.Sound) : after.Sound := by
  obtain ⟨_, course⟩ := develops
  exact course.sound sound

theorem size (develops : before.Develops after) : before.size ≤ after.size := by
  obtain ⟨_, course⟩ := develops
  exact course.defines.size

theorem inside (develops : before.Develops after) {ref : Ref} (inside : ref.index < before.size) :
    ref.index < after.size :=
  Nat.lt_of_lt_of_le inside develops.size

theorem frames (develops : before.Develops after) (ref : Ref) (frame : Frame)
    (content : before.body ref = .environment frame) :
    ∃ frame', after.body ref = .environment frame' ∧ frame'.kind = frame.kind := by
  obtain ⟨_, course⟩ := develops
  exact course.defines.frames ref frame content

theorem environments {environments : Environments} (develops : before.Develops after)
    (owned : environments.Sound before) : environments.Sound after :=
  owned.later develops.frames

/-- The names that an environment has stay in front of those that it is going to have. -/
theorem names (develops : before.Develops after) (env : Ref) :
    (before.bindings env).names <+: (after.bindings env).names := by
  obtain ⟨made, course⟩ := develops
  rw [course.defines.names]
  exact prefix_foldl_addName _ _

end Develops

end Heap

end ValueChannels
