import Mathlib.Data.List.Basic
import Mathlib.Data.List.Nodup
import ValueChannels.Proofs.Transfer.Reachable

/-!
Chains of environments. From an environment the parents lead outward until one has no parent, unless
they run in a circle. Main statements: `lookup_of_chain`, that a name is looked up along the chain,
and `lookup_attach` and `lookup_loadNamespace`, that a new package or namespace is not noticed there.
-/

namespace ValueChannels

namespace Heap

/-- An environment with all those around it, from the inside out. -/
inductive Chain (heap : Heap) : Ref → List Ref → Prop where
  | last {env : Ref} (outermost : heap.parent? env = none) : Chain heap env [env]
  | next {env outer : Ref} {links : List Ref} (encloses : heap.parent? env = some outer)
      (rest : Chain heap outer links) : Chain heap env (env :: links)

variable {heap after : Heap} {env outer : Ref} {links others : List Ref}

namespace Chain

theorem unique (chain : heap.Chain env links) (other : heap.Chain env others) : links = others := by
  induction chain generalizing others with
  | last outermost =>
      cases other with
      | last => rfl
      | next encloses => cases outermost.symm.trans encloses
  | next encloses rest ih =>
      cases other with
      | last outermost => cases outermost.symm.trans encloses
      | next encloses' rest' =>
          cases encloses.symm.trans encloses'
          rw [ih rest']

theorem behind (chain : heap.Chain env links) {link : Ref} (member : link ∈ links) :
    ∃ front rest, links = front ++ rest ∧ heap.Chain link rest := by
  induction chain with
  | @last env outermost =>
      rw [List.mem_singleton.mp member]
      exact ⟨[], [env], rfl, .last outermost⟩
  | @next env outer links encloses chain ih =>
      rcases List.mem_cons.mp member with same | later
      · rw [same]
        exact ⟨[], env :: links, rfl, .next encloses chain⟩
      · obtain ⟨front, rest, whole, inner⟩ := ih later
        exact ⟨env :: front, rest, congrArg _ whole, inner⟩

/-- What leads outward to an end does not come back. -/
theorem nodup (chain : heap.Chain env links) : links.Nodup := by
  induction chain with
  | last => exact List.nodup_singleton _
  | @next env outer links encloses chain ih =>
      refine List.nodup_cons.mpr ⟨fun again => ?_, ih⟩
      obtain ⟨front, rest, whole, inner⟩ := chain.behind again
      have same := congrArg List.length ((Chain.next encloses chain).unique inner)
      have length := congrArg List.length whole
      rw [List.length_cons] at same
      rw [List.length_append] at length
      omega

theorem congr (chain : heap.Chain env links)
    (same : ∀ link ∈ links, after.parent? link = heap.parent? link) : after.Chain env links := by
  induction chain with
  | last outermost => exact .last ((same _ List.mem_cons_self).trans outermost)
  | next encloses rest ih =>
      refine .next ((same _ List.mem_cons_self).trans encloses) (ih fun link member => ?_)
      exact same link (List.mem_cons_of_mem _ member)

end Chain

/-! ### Chains of a sound heap -/

theorem frame_of_parent (encloses : heap.parent? env = some outer) :
    ∃ frame, heap.body env = .environment frame ∧ frame.parent = some outer := by
  obtain ⟨frame, framed, same⟩ := Option.bind_eq_some_iff.mp encloses
  exact ⟨frame, heap.frame?_eq_some.mp framed, same⟩

theorem Sound.parent_inside (sound : heap.Sound) (encloses : heap.parent? env = some outer) :
    outer.index < heap.size := by
  obtain ⟨frame, content, same⟩ := frame_of_parent encloses
  exact sound.body_inside content (List.mem_append_right _ (Option.mem_toList.mpr same))

theorem Chain.inside (chain : heap.Chain env links) (sound : heap.Sound)
    (there : env.index < heap.size) : ∀ link ∈ links, link.index < heap.size := by
  induction chain with
  | last => exact List.forall_mem_singleton.mpr there
  | next encloses rest ih =>
      exact List.forall_mem_cons.mpr ⟨there, ih (sound.parent_inside encloses)⟩

theorem Chain.length_le (chain : heap.Chain env links) (sound : heap.Sound)
    (there : env.index < heap.size) : links.length ≤ heap.size := by
  have distinct : (links.map Ref.index).Nodup :=
    chain.nodup.map fun first second same => ref_ext same
  have bound : links.map Ref.index ⊆ List.range heap.size := by
    intro index member
    obtain ⟨link, present, same⟩ := List.mem_map.mp member
    rw [← same]
    exact List.mem_range.mpr (chain.inside sound there link present)
  have length := (distinct.subperm bound).length_le
  rw [List.length_map, List.length_range] at length
  exact length

/-! ### Lookup -/

/-- The value that a name has in the first of the environments that bind it. -/
def firstBinding (heap : Heap) (name : String) (links : List Ref) : Option Ref :=
  links.findSome? fun link => heap.binding? link name

theorem firstBinding_congr (name : String)
    (same : ∀ link ∈ links, after.bindings link = heap.bindings link) :
    after.firstBinding name links = heap.firstBinding name links := by
  unfold firstBinding
  induction links with
  | nil => rfl
  | cons link links ih =>
      obtain ⟨here, others⟩ := List.forall_mem_cons.mp same
      rw [List.findSome?_cons, List.findSome?_cons, ih others, binding?, binding?, here]

theorem lookupWithin_of_chain (chain : heap.Chain env links) (name : String) {steps : Nat}
    (enough : links.length ≤ steps + 1) :
    heap.lookupWithin name steps env = heap.firstBinding name links := by
  induction chain generalizing steps with
  | @last env outermost =>
      rw [lookupWithin, firstBinding, List.findSome?_singleton, binding?, bindings]
      cases framed : heap.frame? env with
      | none => rfl
      | some frame =>
          rw [parent?, framed, Option.bind_some] at outermost
          simp only [outermost]
          cases frame.bindings.get? name <;> rfl
  | @next env outer links encloses rest ih =>
      obtain ⟨frame, content, around⟩ := frame_of_parent encloses
      have framed := heap.frame?_eq_some.mpr content
      rw [lookupWithin, firstBinding, List.findSome?_cons, binding?, bindings, framed]
      cases steps with
      | zero =>
          rw [List.length_cons] at enough
          cases rest <;> simp at enough
      | succ steps =>
          simp only [around]
          cases frame.bindings.get? name with
          | some value => rfl
          | none => exact ih (Nat.le_of_succ_le_succ enough)

/-- A name is looked up from the inside out. -/
theorem lookup_of_chain (chain : heap.Chain env links) (sound : heap.Sound)
    (there : env.index < heap.size) (name : String) :
    heap.lookup env name = heap.firstBinding name links :=
  lookupWithin_of_chain chain name (Nat.le_succ_of_le (chain.length_le sound there))

/-! ### An environment that is put into chains -/

theorem parent?_new (heap : Heap) (kind : EnvironmentKind) (parent : Option Ref) :
    (heap.allocEnvironment kind parent).2.parent? (heap.allocEnvironment kind parent).1 =
      parent := by
  let created : Frame := { kind, bindings := Mapping.empty, parent }
  have content := congrArg Object.body (heap.get_alloc_new (.environment created))
  have framed : (heap.allocEnvironment kind parent).2.frame? (heap.allocEnvironment kind parent).1 =
      some created := (frame?_eq_some _).mpr content
  rw [parent?, framed, Option.bind_some]

/-- One heap is the other with a new environment, empty and put directly around a given one. -/
structure Spliced (before after : Heap) (around new : Ref) : Prop where
  holds : after.parent? around = some new
  encloses : after.parent? new = before.parent? around
  parents : ∀ ref, ref.index < before.size → ref ≠ around → after.parent? ref = before.parent? ref
  bindings : ∀ ref, ref.index < before.size → after.bindings ref = before.bindings ref
  empty : after.bindings new = Mapping.empty

/-- A chain with a new link directly around one of its environments. -/
def splice (around new : Ref) (links : List Ref) : List Ref :=
  links.flatMap fun link => if link = around then [around, new] else [link]

theorem splice_absent {around new : Ref} (absent : around ∉ links) :
    splice around new links = links := by
  induction links with
  | nil => rfl
  | cons link links ih =>
      have other : link ≠ around := fun same => absent (same ▸ List.mem_cons_self)
      rw [splice, List.flatMap_cons, if_neg other, ← splice,
        ih fun later => absent (List.mem_cons_of_mem _ later)]
      rfl

theorem splice_head {around new : Ref} (absent : around ∉ links) :
    splice around new (around :: links) = around :: new :: links := by
  rw [splice, List.flatMap_cons, if_pos rfl, ← splice, splice_absent absent]
  rfl

theorem Spliced.chain {around new : Ref} (spliced : heap.Spliced after around new)
    (chain : heap.Chain env links) (inside : ∀ link ∈ links, link.index < heap.size) :
    after.Chain env (splice around new links) := by
  induction chain with
  | @last env outermost =>
      rw [splice, List.flatMap_singleton]
      by_cases here : env = around
      · rw [if_pos here, here]
        rw [here, ← spliced.encloses] at outermost
        exact .next spliced.holds (.last outermost)
      · rw [if_neg here]
        exact .last ((spliced.parents env (inside env List.mem_cons_self) here).trans outermost)
  | @next env outer links encloses rest ih =>
      obtain ⟨there, others⟩ := List.forall_mem_cons.mp inside
      have outward := ih others
      rw [splice, List.flatMap_cons]
      by_cases here : env = around
      · rw [if_pos here, here]
        rw [here, ← spliced.encloses] at encloses
        exact .next spliced.holds (.next encloses outward)
      · rw [if_neg here]
        exact .next ((spliced.parents env there here).trans encloses) outward

theorem Spliced.firstBinding {around new : Ref} (spliced : heap.Spliced after around new)
    (name : String) (inside : ∀ link ∈ links, link.index < heap.size) :
    after.firstBinding name (splice around new links) = heap.firstBinding name links := by
  have old {link : Ref} (there : link.index < heap.size) :
      after.binding? link name = heap.binding? link name := by
    rw [binding?, binding?, spliced.bindings link there]
  have bare : after.binding? new name = none := by
    rw [binding?, spliced.empty]
    rfl
  unfold Heap.firstBinding
  induction links with
  | nil => rfl
  | cons link links ih =>
      obtain ⟨there, others⟩ := List.forall_mem_cons.mp inside
      rw [splice, List.flatMap_cons, List.findSome?_append, ← splice, ih others,
        List.findSome?_cons]
      by_cases here : link = around
      · rw [if_pos here, List.findSome?_cons, List.findSome?_cons, bare, ← here, old there]
        cases heap.binding? link name <;> rfl
      · rw [if_neg here, List.findSome?_cons, old there]
        cases heap.binding? link name <;> rfl

theorem Spliced.lookup {around new : Ref} (spliced : heap.Spliced after around new)
    (sound : heap.Sound) (sound' : after.Sound) (size : heap.size ≤ after.size)
    (chain : heap.Chain env links) (there : env.index < heap.size) (name : String) :
    after.lookup env name = heap.lookup env name := by
  have inside := chain.inside sound there
  rw [lookup_of_chain (spliced.chain chain inside) sound' (Nat.lt_of_lt_of_le there size),
    lookup_of_chain chain sound there, spliced.firstBinding name inside]

theorem Extends.frame? (extend : heap.Extends after) {ref : Ref} (there : ref.index < heap.size) :
    after.frame? ref = heap.frame? ref := by
  rw [Heap.frame?, Heap.frame?, body, body, extend.same ref there]

theorem Extends.parent? (extend : heap.Extends after) {ref : Ref} (there : ref.index < heap.size) :
    after.parent? ref = heap.parent? ref := by
  rw [Heap.parent?, Heap.parent?, extend.frame? there]

theorem Extends.lookup (extend : heap.Extends after) (sound : heap.Sound) (sound' : after.Sound)
    (chain : heap.Chain env links) (there : env.index < heap.size) (name : String) :
    after.lookup env name = heap.lookup env name := by
  have inside := chain.inside sound there
  have chain' : after.Chain env links :=
    chain.congr fun link member => extend.parent? (inside link member)
  rw [lookup_of_chain chain' sound' (Nat.lt_of_lt_of_le there extend.size),
    lookup_of_chain chain sound there]
  refine firstBinding_congr name fun link member => ?_
  rw [bindings, bindings, extend.frame? (inside link member)]

end Heap

namespace Environments

open Heap (Chain Spliced Extends)

variable {environments : Environments} {heap : Heap} {name : String} {env : Ref} {links : List Ref}

theorem attach_unknown (unknown : environments.packages.get? name = none) :
    environments.attach heap name =
      (⟨heap.size⟩, { environments with packages := environments.packages.insert name ⟨heap.size⟩ },
        (heap.allocEnvironment (.packageEnv name) (heap.parent? environments.global)).2.setParent
          environments.global ⟨heap.size⟩) := by
  simp only [attach, unknown]
  rfl

/-- A package that is attached stands directly around the global environment. -/
theorem spliced_attach (owned : environments.Sound heap)
    (unknown : environments.packages.get? name = none) :
    heap.Spliced (environments.attach heap name).2.2 environments.global ⟨heap.size⟩ := by
  obtain ⟨frame, content, _⟩ := owned .global environments.global rfl
  have inside := owned.inside (show environments.find? .global = _ from rfl)
  let created : Frame :=
    { kind := .packageEnv name, bindings := Mapping.empty,
      parent := heap.parent? environments.global }
  let middle := (heap.alloc (.environment created)).2
  have still : middle.body environments.global = .environment frame :=
    (congrArg Object.body (heap.get_alloc_old _ inside)).trans content
  have apart : (⟨heap.size⟩ : Ref) ≠ environments.global := by
    intro same
    rw [← same] at inside
    exact Nat.lt_irrefl _ inside
  have made : (middle.setParent environments.global ⟨heap.size⟩).frame? ⟨heap.size⟩ =
      some created := by
    rw [Heap.frame?_eq_some, Heap.body, middle.get_setParent_other _ apart]
    exact congrArg Object.body (heap.get_alloc_new _)
  have changed : (middle.setParent environments.global ⟨heap.size⟩).frame? environments.global =
      some { frame with parent := some ⟨heap.size⟩ } := by
    rw [Heap.frame?_eq_some, Heap.body, middle.get_setParent_same _ still]
  have others {ref : Ref} (there : ref.index < heap.size) (other : ref ≠ environments.global) :
      (middle.setParent environments.global ⟨heap.size⟩).frame? ref = heap.frame? ref := by
    rw [Heap.frame?, Heap.frame?, Heap.body, Heap.body, middle.get_setParent_other _ other,
      heap.get_alloc_old _ there]
  rw [attach_unknown unknown]
  change heap.Spliced (middle.setParent environments.global ⟨heap.size⟩) environments.global
    ⟨heap.size⟩
  constructor
  · rw [Heap.parent?, changed, Option.bind_some]
  · rw [Heap.parent?, made, Option.bind_some]
  · intro ref there other
    rw [Heap.parent?, Heap.parent?, others there other]
  · intro ref there
    by_cases same : ref = environments.global
    · rw [same, Heap.bindings, Heap.bindings, changed, heap.frame?_eq_some.mpr content]
    · rw [Heap.bindings, Heap.bindings, others there same]
  · rw [Heap.bindings, made]

theorem attach_known (known : environments.packages.get? name = some env) :
    environments.attach heap name = (env, environments, heap) := by
  rw [attach, known]

theorem loadNamespace_known (known : environments.namespaces.get? name = some env) :
    environments.loadNamespace heap name = (env, environments, heap) := by
  rw [loadNamespace, known]

/-- Attaching a package changes no value that a name has in an environment. -/
theorem lookup_attach (owned : environments.Sound heap) (sound : heap.Sound)
    (chain : heap.Chain env links) (there : env.index < heap.size) (name sought : String) :
    (environments.attach heap name).2.2.lookup env sought = heap.lookup env sought := by
  have develops := (owned.attach sound name).1.develops
  cases unknown : environments.packages.get? name with
  | some env => rw [attach_known unknown]
  | none =>
      exact (spliced_attach owned unknown).lookup sound (develops.sound sound) develops.size chain
        there sought

theorem loadNamespace_unknown (unknown : environments.namespaces.get? name = none) :
    environments.loadNamespace heap name = (⟨heap.size⟩,
      { environments with namespaces := environments.namespaces.insert name ⟨heap.size⟩ },
        (heap.allocEnvironment (.namespaceEnv name) (some environments.baseNamespace)).2) := by
  simp only [loadNamespace, unknown]
  rfl

theorem extends_loadNamespace (environments : Environments) (heap : Heap) (name : String) :
    heap.Extends (environments.loadNamespace heap name).2.2 := by
  unfold loadNamespace
  split
  · exact .refl heap
  · exact .alloc heap _

/-- Nor does loading a namespace. -/
theorem lookup_loadNamespace (owned : environments.Sound heap) (sound : heap.Sound)
    (chain : heap.Chain env links) (there : env.index < heap.size) (name sought : String) :
    (environments.loadNamespace heap name).2.2.lookup env sought = heap.lookup env sought :=
  (extends_loadNamespace environments heap name).lookup sound
    ((owned.loadNamespace name).1.sound sound) chain there sought

end Environments

end ValueChannels
