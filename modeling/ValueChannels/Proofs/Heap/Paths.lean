import Mathlib.Data.List.Forall2
import Mathlib.Data.List.Nodup
import Mathlib.Data.Option.Basic
import ValueChannels.Proofs.Heap.Reach

/-!
Paths through the graph of a value, from the elements, bindings and attributes of one object to the
next. Environments that a context owns are leaves. There are two graphs: the links are all that an
object refers to, and the edges what a value takes along when it travels. Main statements: that
the ways out of an object are told apart by what they are called, and `follow?_rel`, that objects
whose ways out belong together are walked in step.
-/

namespace ValueChannels

/-- A way from an object to one of those that it refers to. -/
inductive Edge where
  | element (index : Nat)
  | binding (name : String)
  | parent
  | value
  | environment
  | attached (name : String)
  deriving DecidableEq

namespace Edge

variable {α : Type}

def elements (items : List α) : List (Edge × α) :=
  items.zipIdx.map fun (item, index) => (.element index, item)

/-- The ways to named values. -/
def named (label : String → Edge) (entries : List (String × α)) : List (Edge × α) :=
  entries.map fun (name, held) => (label name, held)

def optional (label : Edge) (held : Option α) : List (Edge × α) :=
  held.toList.map fun inner => (label, inner)

@[simp] theorem targets_elements (items : List α) : (elements items).map Prod.snd = items := by
  rw [elements, List.map_map]
  exact List.zipIdx_map_fst 0 items

@[simp] theorem targets_named (label : String → Edge) (entries : List (String × α)) :
    (named label entries).map Prod.snd = entries.map Prod.snd := by
  rw [named, List.map_map]
  rfl

@[simp] theorem targets_optional (label : Edge) (held : Option α) :
    (optional label held).map Prod.snd = held.toList := by
  cases held <;> rfl

@[simp] theorem labels_elements (items : List α) :
    (elements items).map Prod.fst = (List.range items.length).map .element := by
  rw [List.range_eq_range', ← List.zipIdx_map_snd 0 items]
  simp only [elements, List.map_map]
  rfl

@[simp] theorem labels_named (label : String → Edge) (entries : List (String × α)) :
    (named label entries).map Prod.fst = (entries.map Prod.fst).map label := by
  simp only [named, List.map_map]
  rfl

@[simp] theorem labels_optional (label : Edge) (held : Option α) :
    (optional label held).map Prod.fst = held.toList.map fun _ => label := by
  cases held <;> rfl

end Edge

def Frame.links (frame : Frame) : List (Edge × Ref) :=
  if frame.kind.isLocal then
    Edge.named .binding frame.bindings.entries ++ Edge.optional .parent frame.parent
  else []

/-- The ways out of an object into what its body holds. -/
def Body.links : Body → List (Edge × Ref)
  | .list items => Edge.elements items
  | .environment frame => frame.links
  | .promise delayed => Edge.optional .environment delayed.env ++ Edge.optional .value delayed.value
  | .closure function => [(.environment, function.env)]
  | _ => []

/-- The ways out of an object into what its body takes along. A promise leads to its value, or else to
the environment that it is to be evaluated in, and what a closure holds travels inside it. -/
def Body.edges (global : Ref) : Body → List (Edge × Ref)
  | .list items => Edge.elements items
  | .environment frame => frame.links
  | .promise { expr := _, env := _, value := some value } => [(.value, value)]
  | .promise { expr := _, env, value := none } => [(.environment, env.getD global)]
  | _ => []

def Body.isPromise : Body → Bool
  | .promise _ => true
  | _ => false

/-- The ways into the attributes of an object, in their order. -/
def attributeLinks (attributes : Option Attributes) : List (Edge × Ref) :=
  Edge.named .attached (attributeEntries attributes)

/-- What an object is, short of the objects that it leads to. -/
inductive Content where
  | null
  | unbound
  | vector (data : AtomicVector)
  | list
  | environment (kind : EnvironmentKind)
  | promise (expr : Expr)
  | closure (formals : List String) (body : Expr)
  | language (expr : Expr)
  | connection (connection : Connection)

def Body.content : Body → Content
  | .null => .null
  | .unbound => .unbound
  | .vector data => .vector data
  | .list _ => .list
  | .environment frame => .environment frame.kind
  | .promise delayed => .promise delayed.expr
  | .closure function => .closure function.formals function.body
  | .language expr => .language expr
  | .connection details => .connection details

/-! ### Paths -/

section Follow

/-- Where a path leads from an object, when the objects have these ways out. -/
def follow? (ways : Ref → List (Edge × Ref)) : Ref → List Edge → Option Ref
  | ref, [] => some ref
  | ref, edge :: path =>
      match (ways ref).lookup edge with
      | some next => follow? ways next path
      | none => none

/-- Some path leads from one object to another. -/
def Leads (ways : Ref → List (Edge × Ref)) (start ref : Ref) : Prop :=
  ∃ path, follow? ways start path = some ref

variable {ways others : Ref → List (Edge × Ref)} {start ref child : Ref}

theorem lookup_of_mem {α β : Type} [BEq α] [LawfulBEq α] {entries : List (α × β)}
    (distinct : (entries.map Prod.fst).Nodup) {key : α} {value : β}
    (member : (key, value) ∈ entries) : entries.lookup key = some value := by
  obtain ⟨sooner, later, whole⟩ := List.append_of_mem member
  rw [List.lookup_eq_some_iff]
  refine ⟨sooner, later, whole, ?_⟩
  intro entry earlier
  rw [whole, List.map_append, List.map_cons, List.nodup_append] at distinct
  have apart := distinct.2.2 entry.1 (List.mem_map_of_mem earlier) key List.mem_cons_self
  simpa using fun same => apart same.symm

theorem mem_of_lookup {α β : Type} [BEq α] [LawfulBEq α] {entries : List (α × β)} {key : α}
    {value : β} (found : entries.lookup key = some value) : (key, value) ∈ entries := by
  obtain ⟨sooner, later, whole, _⟩ := List.lookup_eq_some_iff.mp found
  rw [whole]
  exact List.mem_append_right _ List.mem_cons_self

theorem Leads.refl (ways : Ref → List (Edge × Ref)) (ref : Ref) : Leads ways ref ref :=
  ⟨[], rfl⟩

theorem follow?_append (first second : List Edge) :
    follow? ways start (first ++ second) =
      (follow? ways start first).bind fun middle => follow? ways middle second := by
  induction first generalizing start with
  | nil => rfl
  | cons edge path ih =>
      rw [List.cons_append, follow?, follow?]
      cases (ways start).lookup edge with
      | none => rfl
      | some next => exact ih

theorem Leads.step (leads : Leads ways start ref) (distinct : ((ways ref).map Prod.fst).Nodup)
    (member : child ∈ (ways ref).map Prod.snd) : Leads ways start child := by
  obtain ⟨path, walked⟩ := leads
  obtain ⟨⟨edge, target⟩, way, rfl⟩ := List.mem_map.mp member
  refine ⟨path ++ [edge], ?_⟩
  have found := lookup_of_mem distinct way
  rw [follow?_append, walked, Option.bind_some, follow?, found]
  rfl

/-- What holds where a path starts and is handed on along every way holds where the path ends. -/
theorem Leads.induct {motive : Ref → Prop} (leads : Leads ways start ref) (first : motive start)
    (next : ∀ ref, motive ref → ∀ child ∈ (ways ref).map Prod.snd, motive child) : motive ref := by
  obtain ⟨path, walked⟩ := leads
  induction path generalizing start with
  | nil =>
      cases walked
      exact first
  | cons edge path ih =>
      rw [follow?] at walked
      split at walked
      · rename_i child found
        exact ih (next start first child (List.mem_map_of_mem (mem_of_lookup found))) walked
      · cases walked

/-- Two rows of ways out belong together: they have the same labels in the same order, and the
objects that they lead to are related. -/
abbrev Parallel (relation : Ref → Ref → Prop) : List (Edge × Ref) → List (Edge × Ref) → Prop :=
  List.Forall₂ fun first second => first.1 = second.1 ∧ relation first.2 second.2

theorem Parallel.lookup {relation : Ref → Ref → Prop} {firsts seconds : List (Edge × Ref)}
    (parallel : Parallel relation firsts seconds) (edge : Edge) :
    Option.Rel relation (firsts.lookup edge) (seconds.lookup edge) := by
  induction parallel with
  | nil => exact .none
  | cons head tail ih =>
      rename_i first second _ _
      obtain ⟨label, object⟩ := first
      obtain ⟨label', object'⟩ := second
      obtain ⟨same, related⟩ := head
      dsimp only at same related
      subst same
      rw [List.lookup_cons, List.lookup_cons]
      cases edge == label with
      | true => exact .some related
      | false => exact ih

theorem Parallel.labels {relation : Ref → Ref → Prop} {firsts seconds : List (Edge × Ref)}
    (parallel : Parallel relation firsts seconds) :
    firsts.map Prod.fst = seconds.map Prod.fst := by
  induction parallel with
  | nil => rfl
  | cons head tail ih => rw [List.map_cons, List.map_cons, head.1, ih]

theorem parallel_of_targets {relation : Ref → Ref → Prop} {firsts seconds : List (Edge × Ref)}
    (labels : firsts.map Prod.fst = seconds.map Prod.fst)
    (targets : List.Forall₂ relation (firsts.map Prod.snd) (seconds.map Prod.snd)) :
    Parallel relation firsts seconds := by
  induction firsts generalizing seconds with
  | nil =>
      cases seconds with
      | nil => exact .nil
      | cons _ _ => cases labels
  | cons first firsts ih =>
      cases seconds with
      | nil => cases labels
      | cons second seconds =>
          cases targets with
          | cons head tail =>
              rw [List.map_cons, List.map_cons, List.cons.injEq] at labels
              exact .cons ⟨labels.1, head⟩ (ih labels.2 tail)

/-- Objects whose ways out belong together are walked in step. -/
theorem follow?_rel {relation : Ref → Ref → Prop}
    (step : ∀ first second, relation first second → Parallel relation (ways first) (others second))
    (path : List Edge) {first second : Ref} (related : relation first second) :
    Option.Rel relation (follow? ways first path) (follow? others second path) := by
  induction path generalizing first second with
  | nil => exact .some related
  | cons edge path ih =>
      have next := (step first second related).lookup edge
      rw [follow?, follow?]
      cases here : (ways first).lookup edge with
      | none =>
          rw [here] at next
          cases there : (others second).lookup edge with
          | none => exact .none
          | some _ =>
              rw [there] at next
              cases next
      | some _ =>
          rw [here] at next
          cases there : (others second).lookup edge with
          | none =>
              rw [there] at next
              cases next
          | some _ =>
              rw [there] at next
              cases next with
              | some related => exact ih related

/-- What is reached along a path is reached along it from a related object too, as long as every way
out of an object has a counterpart. -/
theorem follow?_forward {relation : Ref → Ref → Prop}
    (step : ∀ first second edge next, relation first second → (ways first).lookup edge = some next →
      ∃ other, (others second).lookup edge = some other ∧ relation next other)
    (path : List Edge) {first second last : Ref} (related : relation first second)
    (walked : follow? ways first path = some last) :
    ∃ other, follow? others second path = some other ∧ relation last other := by
  induction path generalizing first second with
  | nil =>
      cases walked
      exact ⟨second, rfl, related⟩
  | cons edge path ih =>
      rw [follow?] at walked
      split at walked
      · rename_i next found
        obtain ⟨other, found', related'⟩ := step _ _ edge next related found
        obtain ⟨other', walked', related''⟩ := ih related' walked
        refine ⟨other', ?_, related''⟩
        rw [follow?, found']
        exact walked'
      · cases walked

end Follow

namespace Heap

def content (heap : Heap) (ref : Ref) : Content :=
  (heap.body ref).content

/-- All that an object refers to, in order. -/
def links (heap : Heap) (ref : Ref) : List (Edge × Ref) :=
  if (heap.body ref).isNamed then []
  else (heap.body ref).links ++ attributeLinks (heap.attributes ref)

/-- All that is converted along with an object, in order: what its body takes along, and its
attributes. -/
def carried (heap : Heap) (global ref : Ref) : List (Edge × Ref) :=
  (heap.body ref).edges global ++ attributeLinks (heap.attributes ref)

/-- All that an object takes along, in order. An environment that a context owns is a leaf. -/
def edges (heap : Heap) (global ref : Ref) : List (Edge × Ref) :=
  if (heap.body ref).isNamed then [] else heap.carried global ref

/-- All that the conversion of an object goes on to, in order. The attributes of a promise stay
behind. -/
def converted (heap : Heap) (global ref : Ref) : List (Edge × Ref) :=
  if (heap.body ref).isPromise then (heap.body ref).edges global else heap.carried global ref

/-- The objects that travel along with an object. -/
def conveyed (heap : Heap) (global ref : Ref) : List Ref :=
  (heap.carried global ref).map Prod.snd

variable {heap : Heap} {global ref child : Ref}

theorem frame_of_content {kind : EnvironmentKind} (content : heap.content ref = .environment kind) :
    ∃ frame, heap.body ref = .environment frame ∧ frame.kind = kind := by
  unfold Heap.content at content
  cases body : heap.body ref with
  | environment frame =>
      rw [body] at content
      exact ⟨frame, rfl, Content.environment.inj content⟩
  | _ =>
      rw [body] at content
      cases content

theorem null_of_content (content : heap.content ref = .null) : heap.body ref = .null := by
  unfold Heap.content at content
  cases body : heap.body ref with
  | null => rfl
  | _ =>
      rw [body] at content
      cases content

theorem unbound_of_content (content : heap.content ref = .unbound) : heap.body ref = .unbound := by
  unfold Heap.content at content
  cases body : heap.body ref with
  | unbound => rfl
  | _ =>
      rw [body] at content
      cases content

/-! ### Ways out -/

theorem links_named (named : (heap.body ref).isNamed = true) : heap.links ref = [] := by
  rw [links, if_pos named]

theorem links_other (other : (heap.body ref).isNamed = false) :
    heap.links ref = (heap.body ref).links ++ attributeLinks (heap.attributes ref) := by
  rw [links, if_neg (Bool.eq_false_iff.mp other)]

theorem edges_named (named : (heap.body ref).isNamed = true) : heap.edges global ref = [] := by
  rw [edges, if_pos named]

theorem edges_other (other : (heap.body ref).isNamed = false) :
    heap.edges global ref = heap.carried global ref := by
  rw [edges, if_neg (Bool.eq_false_iff.mp other)]

/-- Labels of ways into a body are told apart, and none is one of an attribute. -/
def Distinct (labels : List Edge) : Prop :=
  labels.Nodup ∧ ∀ name, Edge.attached name ∉ labels

theorem distinct_elements {α : Type} (items : List α) :
    Distinct ((Edge.elements items).map Prod.fst) := by
  rw [Edge.labels_elements]
  constructor
  · exact List.nodup_range.map fun _ _ same => Edge.element.inj same
  · intro name member
    obtain ⟨_, _, impossible⟩ := List.mem_map.mp member
    cases impossible

theorem distinct_frame {frame : Frame} (names : frame.bindings.names.Nodup) :
    Distinct (frame.links.map Prod.fst) := by
  rw [Frame.links]
  split
  · rw [List.map_append, Edge.labels_named, Edge.labels_optional]
    constructor
    · rw [List.nodup_append]
      refine ⟨names.map fun _ _ same => Edge.binding.inj same, ?_, ?_⟩
      · cases frame.parent with
        | none => exact List.nodup_nil
        | some _ => exact List.nodup_singleton _
      · intro first left second right same
        obtain ⟨_, _, isBinding⟩ := List.mem_map.mp left
        obtain ⟨_, _, isParent⟩ := List.mem_map.mp right
        rw [← isBinding, ← isParent] at same
        cases same
    · intro name member
      rcases List.mem_append.mp member with left | right
      · obtain ⟨_, _, impossible⟩ := List.mem_map.mp left
        cases impossible
      · obtain ⟨_, _, impossible⟩ := List.mem_map.mp right
        cases impossible
  · exact ⟨List.nodup_nil, fun _ member => nomatch member⟩

theorem distinct_links {body : Body}
    (names : ∀ frame, body = .environment frame → frame.bindings.names.Nodup) :
    Distinct (body.links.map Prod.fst) := by
  cases body with
  | list items => exact distinct_elements items
  | environment frame => exact distinct_frame (names frame rfl)
  | promise delayed =>
      obtain ⟨expr, env, value⟩ := delayed
      cases env <;> cases value <;> simp [Body.links, Distinct, Edge.optional]
  | closure function => simp [Body.links, Distinct]
  | _ => exact ⟨List.nodup_nil, fun _ member => nomatch member⟩

theorem distinct_edges (global : Ref) {body : Body}
    (names : ∀ frame, body = .environment frame → frame.bindings.names.Nodup) :
    Distinct ((body.edges global).map Prod.fst) := by
  cases body with
  | list items => exact distinct_elements items
  | environment frame => exact distinct_frame (names frame rfl)
  | promise delayed =>
      obtain ⟨expr, env, value⟩ := delayed
      cases value <;> simp [Body.edges, Distinct]
  | _ => exact ⟨List.nodup_nil, fun _ member => nomatch member⟩

theorem nodup_attributeLinks {object : Object} (sound : object.Sound) {ways : List (Edge × Ref)}
    (distinct : Distinct (ways.map Prod.fst)) :
    ((ways ++ attributeLinks object.attributes).map Prod.fst).Nodup := by
  rw [List.map_append, List.nodup_append, attributeLinks, Edge.labels_named]
  refine ⟨distinct.1, ?_, ?_⟩
  · have names : ((attributeEntries object.attributes).map Prod.fst).Nodup := by
      cases has : object.attributes with
      | none => exact List.nodup_nil
      | some mapping => exact (sound.attributes mapping has).2.1
    exact names.map fun _ _ same => Edge.attached.inj same
  · intro first left second right same
    obtain ⟨name, _, attached⟩ := List.mem_map.mp right
    rw [same, ← attached] at left
    exact distinct.2 name left

/-- The ways out of an object of a sound heap are told apart by their labels. -/
theorem Sound.nodup_links (sound : heap.Sound) (inside : ref.index < heap.size) :
    ((heap.links ref).map Prod.fst).Nodup := by
  have object := sound.object ref inside
  rw [links]
  split
  · exact List.nodup_nil
  · exact nodup_attributeLinks object (distinct_links fun frame body => (object.frame frame body).1)

theorem Sound.nodup_carried (sound : heap.Sound) (global : Ref) (inside : ref.index < heap.size) :
    ((heap.carried global ref).map Prod.fst).Nodup :=
  nodup_attributeLinks (sound.object ref inside)
    (distinct_edges global fun frame body => ((sound.object ref inside).frame frame body).1)

theorem Sound.nodup_converted (sound : heap.Sound) (global : Ref) (inside : ref.index < heap.size) :
    ((heap.converted global ref).map Prod.fst).Nodup := by
  have carried := sound.nodup_carried global inside
  rw [converted]
  split
  · rw [Heap.carried, List.map_append] at carried
    exact (List.nodup_append.mp carried).1
  · exact carried

theorem Sound.nodup_edges (sound : heap.Sound) (global : Ref) (inside : ref.index < heap.size) :
    ((heap.edges global ref).map Prod.fst).Nodup := by
  rw [edges]
  split
  · exact List.nodup_nil
  · exact sound.nodup_carried global inside

theorem Sound.attached_ne_null (sound : heap.Sound) (inside : ref.index < heap.size) {name : String}
    (way : (Edge.attached name, child) ∈ heap.links ref) : child ≠ Ref.null := by
  have object := sound.object ref inside
  rw [links] at way
  split at way
  · cases way
  · rcases List.mem_append.mp way with part | held
    · have distinct : Distinct ((heap.body ref).links.map Prod.fst) :=
        distinct_links fun frame body => (object.frame frame body).1
      exact absurd (List.mem_map_of_mem part) (distinct.2 name)
    · obtain ⟨entry, present, same⟩ := List.mem_map.mp held
      cases same
      cases has : heap.attributes ref with
      | none =>
          rw [has] at present
          cases present
      | some mapping =>
          rw [has] at present
          exact (object.attributes mapping has).2.2 entry present

/-! ### Staying in the heap -/

theorem targets_attributeLinks (attributes : Option Attributes) :
    (attributeLinks attributes).map Prod.snd = (attributeEntries attributes).map Prod.snd :=
  Edge.targets_named _ _

theorem targets_frame {frame : Frame} (isLocal : frame.kind.isLocal = true) :
    frame.links.map Prod.snd = frame.bindings.entries.map Prod.snd ++ frame.parent.toList := by
  rw [Frame.links, if_pos isLocal, List.map_append, Edge.targets_named, Edge.targets_optional]

theorem children_of_body {body : Body} (member : child ∈ body.links.map Prod.snd) :
    child ∈ body.children := by
  cases body with
  | list items =>
      rw [Body.links, Edge.targets_elements] at member
      exact member
  | environment frame =>
      rw [Body.links] at member
      by_cases isLocal : frame.kind.isLocal = true
      · rw [targets_frame isLocal] at member
        exact member
      · rw [Frame.links, if_neg isLocal] at member
        cases member
  | promise delayed =>
      rw [Body.links, List.map_append, Edge.targets_optional, Edge.targets_optional] at member
      exact member
  | closure function => exact member
  | _ => cases member

theorem children_of_links (member : child ∈ (heap.links ref).map Prod.snd) :
    child ∈ (heap.get ref).children := by
  rw [links] at member
  split at member
  · cases member
  · rw [List.map_append, targets_attributeLinks] at member
    rw [Object.children]
    exact List.mem_append.mpr ((List.mem_append.mp member).imp_left children_of_body)

theorem Sound.leads_links (sound : heap.Sound) {start : Ref} (inside : start.index < heap.size)
    (leads : Leads heap.links start ref) : ref.index < heap.size := by
  refine leads.induct (motive := fun ref => ref.index < heap.size) inside ?_
  intro found there child member
  exact sound.closed found there child (children_of_links member)

/-! ### What travels along -/

section Conveyed

theorem conveyed_attributes
    (member : child ∈ (attributeEntries (heap.attributes ref)).map Prod.snd) :
    child ∈ heap.conveyed global ref := by
  rw [conveyed, carried, List.map_append, targets_attributeLinks]
  exact List.mem_append_right _ member

theorem conveyed_body (member : child ∈ ((heap.body ref).edges global).map Prod.snd) :
    child ∈ heap.conveyed global ref := by
  rw [conveyed, carried, List.map_append]
  exact List.mem_append_left _ member

theorem targets_list (global : Ref) (items : List Ref) :
    ((Body.list items).edges global).map Prod.snd = items :=
  Edge.targets_elements items

theorem targets_environment (global : Ref) {frame : Frame} (isLocal : frame.kind.isLocal = true) :
    ((Body.environment frame).edges global).map Prod.snd =
      frame.bindings.entries.map Prod.snd ++ frame.parent.toList :=
  targets_frame isLocal

theorem targets_promise (global : Ref) (delayed : Promise) :
    ((Body.promise delayed).edges global).map Prod.snd =
      [delayed.value.getD (delayed.env.getD global)] := by
  obtain ⟨expr, env, value⟩ := delayed
  cases value with
  | none => rfl
  | some value => rfl

theorem Sound.conveyed_inside (sound : heap.Sound) (there : global.index < heap.size)
    (inside : ref.index < heap.size) (member : child ∈ heap.conveyed global ref) :
    child.index < heap.size := by
  have closed := sound.closed ref inside child
  rw [conveyed, carried, List.map_append, targets_attributeLinks] at member
  rcases List.mem_append.mp member with part | held
  · cases body : heap.body ref with
    | list items =>
        rw [body, targets_list] at part
        have body' : (heap.get ref).body = .list items := body
        rw [Object.children, body'] at closed
        exact closed (List.mem_append_left _ part)
    | environment frame =>
        have body' : (heap.get ref).body = .environment frame := body
        rw [Object.children, body'] at closed
        rw [body] at part
        by_cases isLocal : frame.kind.isLocal = true
        · rw [targets_environment global isLocal] at part
          exact closed (List.mem_append_left _ part)
        · rw [Body.edges, Frame.links, if_neg isLocal] at part
          cases part
    | promise delayed =>
        have body' : (heap.get ref).body = .promise delayed := body
        rw [Object.children, body'] at closed
        rw [body, targets_promise, List.mem_singleton] at part
        -- A promise conveys its value; without one the environment it waits in, or the global one.
        obtain ⟨expr, env, value⟩ := delayed
        cases value with
        | some value =>
            rw [part]
            refine sound.closed ref inside value (List.mem_append_left _ ?_)
            rw [body']
            exact List.mem_append_right _ List.mem_cons_self
        | none =>
            cases env with
            | none =>
                rw [part]
                exact there
            | some env =>
                rw [part]
                refine sound.closed ref inside env (List.mem_append_left _ ?_)
                rw [body']
                exact List.mem_append_left _ List.mem_cons_self
    | _ =>
        rw [body] at part
        cases part
  · exact closed (List.mem_append_right _ held)

theorem conveyed_of_edges (member : child ∈ (heap.edges global ref).map Prod.snd) :
    child ∈ heap.conveyed global ref := by
  rw [edges] at member
  split at member
  · cases member
  · exact member

theorem converted_promise {delayed : Promise} (body : heap.body ref = .promise delayed) :
    heap.converted global ref = (Body.promise delayed).edges global := by
  rw [converted, body]
  rfl

theorem converted_other (other : (heap.body ref).isPromise = false) :
    heap.converted global ref = heap.carried global ref := by
  rw [converted, other]
  rfl

theorem conveyed_of_converted (member : child ∈ (heap.converted global ref).map Prod.snd) :
    child ∈ heap.conveyed global ref := by
  rw [converted] at member
  split at member
  · exact conveyed_body member
  · exact member

theorem Sound.leads_carried (sound : heap.Sound) (there : global.index < heap.size) {start : Ref}
    (inside : start.index < heap.size) (leads : Leads (heap.carried global) start ref) :
    ref.index < heap.size :=
  leads.induct inside fun _ within _ member => sound.conveyed_inside there within member

theorem Sound.leads_edges (sound : heap.Sound) (there : global.index < heap.size) {start : Ref}
    (inside : start.index < heap.size) (leads : Leads (heap.edges global) start ref) :
    ref.index < heap.size :=
  leads.induct inside fun _ within _ member =>
    sound.conveyed_inside there within (conveyed_of_edges member)

end Conveyed

/-! ### Bare singletons -/

/-- A sound heap whose singletons have no attributes. -/
structure Clean (heap : Heap) : Prop where
  sound : heap.Sound
  null : heap.attributes Ref.null = none
  unbound : heap.attributes Ref.unbound = none

namespace Clean

theorem links_of_null (clean : heap.Clean) (body : heap.body ref = .null)
    (inside : ref.index < heap.size) : heap.links ref = [] := by
  have attributes : heap.attributes ref = none := by
    rw [(clean.sound.null ref inside).mp body, clean.null]
  rw [links_other (by rw [body]; rfl), body, attributes]
  rfl

theorem links_of_unbound (clean : heap.Clean) (body : heap.body ref = .unbound) :
    heap.links ref = [] := by
  have attributes : heap.attributes ref = none := by
    rw [(clean.sound.unbound ref).mp body, clean.unbound]
  rw [links_other (by rw [body]; rfl), body, attributes]
  rfl

end Clean

end Heap

end ValueChannels
