import Mathlib.Logic.Relation
import ValueChannels.Proofs.Transfer.Courses

/-!
The heaps that programs come to. Contexts are created, attach packages and load namespaces; values
are made, copied, marked and changed; and values are prepared for sending, built from messages and
read from bytes, whatever these say. Main statements: `Step.course` and `Step.settled` for one call
of a program, `Settled.course` for a run of calls with what they define, and `wellFormed_of_leads`,
that all mappings are well formed wherever calls lead.
-/

namespace ValueChannels

/-! ### Contexts -/

namespace Environments

variable {environments added : Environments} {heap after : Heap} {kind : EnvironmentKind}
  {env : Ref}

theorem course_create (heap : Heap) : heap.Course [] (create heap).2 := by
  have enclosed {before : Heap} {outer : EnvironmentKind} {parent : Option Ref}
      (course : heap.Course [] (before.allocEnvironment outer parent).2)
      (kind : EnvironmentKind) (named : kind.isLocal = false) :
      heap.Course [] ((before.allocEnvironment outer parent).2.allocEnvironment kind
        (some (before.allocEnvironment outer parent).1)).2 := by
    refine course.trans (.allocEnvironment (fun _ => nofun) ?_)
    intro ref same
    cases same
    exact before.inside_alloc _
  have empty : heap.Course [] (heap.allocEnvironment .empty none).2 :=
    .allocEnvironment nofun nofun
  exact enclosed (enclosed (enclosed empty .base rfl) .global rfl) .baseNamespace rfl

theorem Sound.add (owned : environments.Sound heap) (develops : heap.Develops after)
    (holds : Holds after kind env)
    (found : ∀ other ref, added.find? other = some ref →
      other = kind ∧ env = ref ∨ environments.find? other = some ref) : added.Sound after := by
  intro other ref here
  rcases found other ref here with ⟨same, same'⟩ | old
  · rw [same, ← same']
    exact holds
  · exact develops.environments owned other ref old

theorem Sound.attach (owned : environments.Sound heap) (sound : heap.Sound) (name : String) :
    heap.Course [] (environments.attach heap name).2.2 ∧
      (environments.attach heap name).2.1.Sound (environments.attach heap name).2.2 := by
  unfold Environments.attach
  split
  · exact ⟨.refl, owned⟩
  · have around : ∀ ref ∈ heap.parent? environments.global, ref.index < heap.size := by
      intro ref same
      obtain ⟨frame, content, _⟩ := owned .global environments.global rfl
      rw [Heap.parent?, heap.frame?_eq_some.mpr content] at same
      exact sound.body_inside content (List.mem_append_right _ (Option.mem_toList.mpr same))
    have first : heap.Course []
        (heap.allocEnvironment (.packageEnv name) (heap.parent? environments.global)).2 :=
      .allocEnvironment nofun around
    have second := Heap.Course.setParent environments.global (heap.inside_alloc
      (.environment { kind := .packageEnv name, bindings := Mapping.empty,
                      parent := heap.parent? environments.global }))
    have course := first.trans second
    obtain ⟨frame, content, same⟩ := holds_new heap (.packageEnv name)
      (heap.parent? environments.global)
    obtain ⟨frame', content', same'⟩ := second.develops.frames _ frame content
    refine ⟨course, owned.add course.develops ⟨frame', content', same'.trans same⟩ ?_⟩
    intro other ref here
    cases other with
    | packageEnv other =>
        rw [find?, Mapping.get?_insert] at here
        split at here
        · rename_i equal
          exact Or.inl ⟨congrArg _ equal, Option.some.inj here⟩
        · exact Or.inr here
    | _ => exact Or.inr here

theorem Sound.loadNamespace (owned : environments.Sound heap) (name : String) :
    heap.Course [] (environments.loadNamespace heap name).2.2 ∧
      (environments.loadNamespace heap name).2.1.Sound
        (environments.loadNamespace heap name).2.2 := by
  unfold Environments.loadNamespace
  split
  · exact ⟨.refl, owned⟩
  · have course : heap.Course []
        (heap.allocEnvironment (.namespaceEnv name) (some environments.baseNamespace)).2 := by
      refine .allocEnvironment nofun fun ref same => ?_
      cases same
      exact owned.inside (show environments.find? .baseNamespace = _ from rfl)
    refine ⟨course, owned.add course.develops (holds_new heap _ _) ?_⟩
    intro other ref here
    cases other with
    | namespaceEnv other =>
        rw [find?, Mapping.get?_insert] at here
        split at here
        · rename_i equal
          exact Or.inl ⟨congrArg _ equal, Option.some.inj here⟩
        · exact Or.inr here
    | _ => exact Or.inr here

end Environments

/-! ### Mappings -/

namespace Heap

variable {heap : Heap}

/-- Mappings as they are read: one of attributes has some, each of its own name and none of them
NULL; no name is bound twice in an environment; and local environments are in others. -/
structure WellFormed (heap : Heap) : Prop where
  attributes : ∀ ref mapping, heap.attributes ref = some mapping →
    mapping.entries ≠ [] ∧ mapping.names.Nodup ∧
      ∀ value ∈ mapping.entries.map Prod.snd, heap.isNull value = false
  bindings : ∀ env, (heap.bindings env).names.Nodup
  enclosed : ∀ env frame, heap.frame? env = some frame → frame.kind.isLocal = true →
    heap.parent? env ≠ none

theorem Sound.wellFormed (sound : heap.Sound) : heap.WellFormed := by
  constructor
  · intro ref mapping has
    obtain ⟨something, distinct, present⟩ := sound.attributes has
    refine ⟨something, distinct, fun value member => ?_⟩
    obtain ⟨inside, notNull⟩ := present value member
    unfold isNull
    split
    · rename_i null
      exact absurd ((sound.null value inside).mp null) notNull
    · rfl
  · intro env
    by_cases environment : heap.kind env = .environment
    · obtain ⟨frame, content⟩ := frame_of_kind environment
      rw [bindings_of_frame content]
      exact ((sound.object env (inside_of_kind environment nofun)).frame frame content).1
    · rw [bindings_of_kind environment]
      exact List.nodup_nil
  · intro env frame found isLocal
    have content := heap.frame?_eq_some.mp found
    have inside := inside_of_kind (congrArg Body.kind content) nofun
    rw [parent?, found]
    exact ((sound.object env inside).frame frame content).2 isLocal

end Heap

/-! ### What a program does -/

/-- A heap, and the contexts that have been created on it. -/
structure Site where
  heap : Heap
  contexts : List Context

namespace Site

def initial : Site :=
  { heap := Heap.initial, contexts := [] }

/-- The context, in its place among the others, comes to own other environments. -/
def withContext (heap : Heap) (front : List Context) (context : Context)
    (environments : Environments) (behind : List Context) : Site :=
  { heap, contexts := front ++ { context with environments } :: behind }

/-- What a call has to do with names: it defines one, it builds values that may have environments
among them, or neither. -/
inductive Call where
  | define (env : Ref) (name : String)
  | build
  | other

/-- What a program may call next, with values that there are. A codec may be any that only calls the
same operations, and messages and bytes may come from anywhere. -/
inductive Step : Site → Call → Site → Prop
  | create {site : Site} (name : String) {codec : Codec} (lawful : codec.Lawful) :
      Step site .other
        { heap := (Context.create site.heap name codec).2
          contexts := (Context.create site.heap name codec).1 :: site.contexts }
  | attach {site : Site} (name : String) {front behind : List Context} {context : Context}
      (there : site.contexts = front ++ context :: behind) :
      Step site .other (withContext (context.environments.attach site.heap name).2.2 front context
        (context.environments.attach site.heap name).2.1 behind)
  | loadNamespace {site : Site} (name : String) {front behind : List Context} {context : Context}
      (there : site.contexts = front ++ context :: behind) :
      Step site .other
        (withContext (context.environments.loadNamespace site.heap name).2.2 front context
          (context.environments.loadNamespace site.heap name).2.1 behind)
  /-- A new value that is neither a singleton nor an environment. -/
  | make {site : Site} {body : Body} (copies : body.copiesToItself = false)
      (known : ∀ child ∈ body.children, child.index < site.heap.size) :
      Step site .other { site with heap := (site.heap.alloc body).2 }
  /-- A new local environment. -/
  | enclose {site : Site} {parent : Ref} (known : parent.index < site.heap.size) :
      Step site .other { site with heap := (site.heap.allocLocal parent).2 }
  | copy {site : Site} (handle : Ref) :
      Step site .other { site with heap := (site.heap.shallowCopy handle).2 }
  | share {site : Site} (handle : Ref) :
      Step site .other { site with heap := (site.heap.makeShared handle).2 }
  | edit {site : Site} (handle : Ref) {edit : Edit} (known : edit.Known site.heap) :
      Step site .other { site with heap := (edit.perform site.heap handle).heap }
  | define {site : Site} (env : Ref) (name : String) {value : Ref}
      (known : value.index < site.heap.size) :
      Step site (.define env name) { site with heap := site.heap.define env name value }
  | setParent {site : Site} (env : Ref) {parent : Ref} (known : parent.index < site.heap.size) :
      Step site .other { site with heap := site.heap.setParent env parent }
  | fulfil {site : Site} (handle : Ref) {value : Ref} (known : value.index < site.heap.size) :
      Step site .other { site with heap := (site.heap.fulfil handle value).2 }
  /-- A value is prepared, whether it can be sent or not. -/
  | prepare {site : Site} (context : Context) (value : Ref) :
      Step site .other { site with heap := (Message.ofValue context site.heap value).2 }
  /-- A message is materialized as far as it can be. -/
  | materialize {site : Site} {context : Context} (member : context ∈ site.contexts)
      {message : Message} (known : message.Known site.heap) :
      Step site .build { site with heap := (message.toValue context site.heap).2 }
  | unserialize {site : Site} {context : Context} (member : context ∈ site.contexts) {blob : Bytes}
      {value : Ref} {heap : Heap}
      (read : context.codec.unserialize context.environments blob site.heap = .ok value heap) :
      Step site .build { site with heap }
  /-- Bytes that are refused have been read to some point. -/
  | misread {site : Site} {context : Context} (member : context ∈ site.contexts) {blob : Bytes}
      {reason : CodecError} {heap : Heap}
      (read : context.codec.unserialize context.environments blob site.heap = .error reason heap) :
      Step site .build { site with heap }

/-- What a call defines, in this order: a definition its own name, if there is an environment for it;
a call that builds values what the operations define that it takes; and any other call nothing. -/
def Call.Defines (site : Site) (call : Call) (made : List (Ref × String)) (next : Site) : Prop :=
  match call with
  | .define env name => made = site.heap.definition env name
  | .build => site.heap.Course made next.heap
  | .other => made = []

/-- What any number of calls lead to. -/
def Leads (site later : Site) : Prop :=
  Relation.ReflTransGen (fun before after => ∃ call, Step before call after) site later

/-- Calls one after the other, with what each of them defines. -/
inductive Runs (start : Site) : List (Ref × String) → Site → Prop
  | start : Runs start [] start
  | call {made more : List (Ref × String)} {middle last : Site} {call : Call}
      (before : Runs start made middle) (step : Step middle call last)
      (defines : call.Defines middle more last) : Runs start (made ++ more) last

/-- The heap is sound, and the contexts have codecs that keep it so, and environments in it. -/
structure Settled (site : Site) : Prop where
  sound : site.heap.Sound
  contexts : ∀ context ∈ site.contexts,
    context.codec.Lawful ∧ context.environments.Sound site.heap

variable {site next later : Site} {context : Context} {call : Call}
  {made : List (Ref × String)}

theorem settled_initial : initial.Settled :=
  ⟨Heap.sound_initial, List.forall_mem_nil _⟩

namespace Settled

theorem onward {heap : Heap} (settled : site.Settled) (develops : site.heap.Develops heap) :
    Settled { site with heap } :=
  ⟨develops.sound settled.sound, fun context member =>
    (settled.contexts context member).imp_right develops.environments⟩

theorem withContext {front behind : List Context} {environments : Environments} {heap : Heap}
    (settled : site.Settled) (there : site.contexts = front ++ context :: behind)
    (develops : site.heap.Develops heap) (owned : environments.Sound heap) :
    (Site.withContext heap front context environments behind).Settled := by
  have others := (settled.onward develops).contexts
  rw [there] at others
  refine ⟨develops.sound settled.sound, fun other member => ?_⟩
  rcases List.mem_append.mp member with before | here
  · exact others other (List.mem_append_left _ before)
  · rcases List.mem_cons.mp here with same | after
    · have self := others context (List.mem_append_right _ List.mem_cons_self)
      rw [same]
      exact ⟨self.1, owned⟩
    · exact others other (List.mem_append_right _ (List.mem_cons_of_mem _ after))

end Settled

theorem mem_of_contexts {front behind : List Context}
    (there : site.contexts = front ++ context :: behind) : context ∈ site.contexts := by
  rw [there]
  exact List.mem_append_right _ List.mem_cons_self

/-- Whatever is called takes a course of operations on the heap, which defines what the call does. -/
theorem Step.course (step : Step site call next) (settled : site.Settled) :
    ∃ made, call.Defines site made next ∧ site.heap.Course made next.heap := by
  have room := settled.sound.room
  cases step with
  | create name lawful => exact ⟨[], rfl, Environments.course_create site.heap⟩
  | attach name there =>
      have owned := (settled.contexts _ (mem_of_contexts there)).2
      exact ⟨[], rfl, (owned.attach settled.sound name).1⟩
  | loadNamespace name there =>
      have owned := (settled.contexts _ (mem_of_contexts there)).2
      exact ⟨[], rfl, (owned.loadNamespace name).1⟩
  | make copies known => exact ⟨[], rfl, .alloc copies known⟩
  | enclose known => exact ⟨[], rfl, .allocLocal known⟩
  | copy handle => exact ⟨[], rfl, .single (.shallowCopy handle)⟩
  | share handle => exact ⟨[], rfl, .single (.makeShared handle)⟩
  | edit handle known => exact ⟨[], rfl, .single (.perform known handle)⟩
  | define env name known => exact ⟨_, rfl, .define env name known⟩
  | setParent env known => exact ⟨[], rfl, .setParent env known⟩
  | fulfil handle known => exact ⟨[], rfl, .single (.fulfil handle known)⟩
  | prepare context value => exact ⟨[], rfl, Message.course_ofValue settled.sound context value⟩
  | materialize member known =>
      obtain ⟨lawful, owned⟩ := settled.contexts _ member
      obtain ⟨made, course⟩ := Message.develops_toValue lawful room owned known
      exact ⟨made, course, course⟩
  | @unserialize context member blob value heap read =>
      obtain ⟨lawful, owned⟩ := settled.contexts _ member
      obtain ⟨made, course⟩ := ((lawful _ blob _ owned room).ok read).1
      exact ⟨made, course, course⟩
  | @misread context member blob reason heap read =>
      obtain ⟨lawful, owned⟩ := settled.contexts _ member
      obtain ⟨made, course⟩ := (lawful _ blob _ owned room).error read
      exact ⟨made, course, course⟩

theorem Step.develops (step : Step site call next) (settled : site.Settled) :
    site.heap.Develops next.heap := by
  obtain ⟨made, _, course⟩ := step.course settled
  exact ⟨made, course⟩

theorem Step.course_of_defines (step : Step site call next) (settled : site.Settled)
    (defines : call.Defines site made next) : site.heap.Course made next.heap := by
  obtain ⟨others, defines', course⟩ := step.course settled
  -- Only what a call that builds values defines is not said by the call itself.
  cases call with
  | build => exact defines
  | _ =>
      rw [show made = others from Eq.trans defines (Eq.symm defines')]
      exact course

theorem Step.settled (step : Step site call next) (settled : site.Settled) : next.Settled := by
  have develops := step.develops settled
  cases step with
  | create name lawful =>
      refine ⟨develops.sound settled.sound, fun context member => ?_⟩
      rcases List.mem_cons.mp member with new | old
      · rw [new]
        exact ⟨lawful, Environments.sound_create site.heap⟩
      · exact (settled.onward develops).contexts context old
  | attach name there =>
      have owned := (settled.contexts _ (mem_of_contexts there)).2
      exact settled.withContext there develops (owned.attach settled.sound name).2
  | loadNamespace name there =>
      have owned := (settled.contexts _ (mem_of_contexts there)).2
      exact settled.withContext there develops (owned.loadNamespace name).2
  | _ => exact settled.onward develops

namespace Settled

theorem leads (settled : site.Settled) (leads : site.Leads later) :
    later.Settled ∧ site.heap.Develops later.heap := by
  induction leads with
  | refl => exact ⟨settled, .refl _⟩
  | tail _ called ih =>
      obtain ⟨call, step⟩ := called
      exact ⟨step.settled ih.1, ih.2.trans (step.develops ih.1)⟩

/-- Wherever calls lead, a run of them does that defines what each of them does. -/
theorem runs (settled : site.Settled) (leads : site.Leads later) :
    ∃ made, site.Runs made later := by
  induction leads with
  | refl => exact ⟨[], .start⟩
  | tail before called ih =>
      obtain ⟨made, runs⟩ := ih
      obtain ⟨call, step⟩ := called
      obtain ⟨more, defines, _⟩ := step.course (settled.leads before).1
      exact ⟨made ++ more, runs.call step defines⟩

/-- A run is a course of operations that defines the same names in the same order. -/
theorem course (settled : site.Settled) (runs : site.Runs made later) :
    later.Settled ∧ site.heap.Course made later.heap := by
  induction runs with
  | start => exact ⟨settled, .refl⟩
  | call _ step defines ih =>
      exact ⟨step.settled ih.1, ih.2.trans (step.course_of_defines ih.1 defines)⟩

end Settled

/-- Wherever the calls of a program lead, whatever codecs, messages and bytes it was given: mappings
are well formed; names stand in the order of their first definitions by these calls; and those that
an environment has stay in front wherever the program goes on to. -/
theorem wellFormed_of_leads (leads : initial.Leads site) :
    site.heap.WellFormed ∧
      ((∃ definitions, initial.Runs definitions site) ∧
        ∀ definitions, initial.Runs definitions site →
          Heap.initial.Course definitions site.heap ∧
            ∀ env, (site.heap.bindings env).names = (definedIn definitions env).eraseDups) ∧
      ∀ later, site.Leads later → ∀ env,
        (site.heap.bindings env).names <+: (later.heap.bindings env).names := by
  have settled := (settled_initial.leads leads).1
  refine ⟨settled.sound.wellFormed, ⟨settled_initial.runs leads, fun definitions runs => ?_⟩, ?_⟩
  · have course := (settled_initial.course runs).2
    exact ⟨course, course.names⟩
  · intro later onward env
    exact (settled.leads onward).2.names env

/-! ### A message with repeated names -/

/-- An environment that names one value twice, and a value with an attribute that is set twice, with
one that is NULL and with one of no attributes at all. -/
def repeating : Message :=
  .environment 0
    [("x", .attributed (.plain ⟨6⟩) [("a", .plain ⟨7⟩), ("b", .plain Ref.null), ("a", .plain ⟨8⟩)]),
      ("y", .attributed (.plain ⟨7⟩) []), ("x", .plain ⟨8⟩)] none (some [])

theorem known_repeating {heap : Heap} (room : 9 ≤ heap.size) : repeating.Known heap := by
  have plain {index : Nat} (inside : index < 9) : (Message.plain ⟨index⟩).Known heap := by
    intro ref mentions
    rw [Message.mentions_plain mentions]
    exact Nat.lt_of_lt_of_le inside room
  have attributed {base : Nat} (inside : base < 9) {attributes : List (String × Message)}
      (each : ∀ part ∈ attributes.map Prod.snd, part.Known heap) :
      (Message.attributed (.plain ⟨base⟩) attributes).Known heap :=
    .of_parts (List.forall_mem_nil _) (List.forall_mem_cons.mpr ⟨plain inside, each⟩)
  apply Message.Known.of_parts (List.forall_mem_nil _)
  refine List.forall_mem_cons.mpr ⟨attributed (by decide) ?_, List.forall_mem_cons.mpr
    ⟨attributed (by decide) (List.forall_mem_nil _),
      List.forall_mem_singleton.mpr (plain (by decide))⟩⟩
  exact List.forall_mem_cons.mpr ⟨plain (by decide), List.forall_mem_cons.mpr
    ⟨plain (by decide), List.forall_mem_singleton.mpr (plain (by decide))⟩⟩

theorem wellFormed_repeating : ∃ site, initial.Leads site ∧
    site.heap.attributes ⟨6⟩ = some ⟨[("a", ⟨8⟩)]⟩ ∧ site.heap.attributes ⟨7⟩ = none ∧
    (site.heap.bindings ⟨9⟩).names = ["x", "y"] ∧ site.heap.WellFormed := by
  have start : initial.Leads initial := .refl
  have created := start.tail ⟨_, Step.create "main" Codec.lawful_packed⟩
  have first := created.tail ⟨_, @Step.make _ (.vector (.integer [1])) rfl (List.forall_mem_nil _)⟩
  have second := first.tail ⟨_, @Step.make _ (.vector (.integer [2])) rfl (List.forall_mem_nil _)⟩
  have third := second.tail ⟨_, @Step.make _ (.vector (.integer [3])) rfl (List.forall_mem_nil _)⟩
  have built := third.tail
    ⟨_, @Step.materialize _ _ List.mem_cons_self repeating (known_repeating (by decide))⟩
  exact ⟨_, built, rfl, rfl, rfl, (wellFormed_of_leads built).1⟩

end Site

end ValueChannels
