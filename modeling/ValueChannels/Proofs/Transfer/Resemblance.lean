import ValueChannels.Proofs.Heap.Likeness
import ValueChannels.Proofs.Transfer.Isolation

/-!
How a received value looks beside the sent one. What belongs together is of the same kind, its ways
out belong together in the same order, and so do the local environments, one by one. The attributes
of a promise stay behind, and what a closure holds goes its own way. Main statements:
`Mirrors.parallel` and `Mirrors.same_iff`.
-/

namespace ValueChannels

namespace Body

theorem isPromise_iff_kind {body : Body} : body.isPromise = true ↔ body.kind = .promise := by
  cases body with
  | vector data => cases data <;> simp [isPromise, kind, AtomicVector.kind]
  | _ => simp [isPromise, kind]

theorem isPromise_of_isData {body : Body} (data : body.isData = true) : body.isPromise = false := by
  cases body <;> first | rfl | cases data

theorem isPromise_of_isEncoded {body : Body} (encoded : body.isEncoded = true) :
    body.isPromise = false := by
  cases body <;> first | rfl | cases encoded

theorem sealed_of_kind {body copy : Body} (encoded : body.isEncoded = true)
    (other : body.isNamed = false) (global : Ref) (same : copy.kind = body.kind) :
    copy.edges global = [] ∧ copy.isPromise = false ∧ copy.isNamed = false := by
  have sort : body.kind = .closure ∨ body.kind = .language ∨ body.kind = .connection := by
    cases body with
    | environment frame => simp_all [isEncoded, isNamed]
    | closure | language | connection => simp [kind]
    | _ => cases encoded
  rw [← same] at sort
  cases copy with
  | vector data => cases data <;> simp [kind, AtomicVector.kind] at sort
  | closure | language | connection => exact ⟨rfl, rfl, rfl⟩
  | _ => simp [kind] at sort

end Body

namespace Heap

/-- All that a message describes of an object, in order. The attributes of a promise stay behind. -/
def described (heap : Heap) (global ref : Ref) : List (Edge × Ref) :=
  if (heap.body ref).isPromise then (heap.body ref).edges global else heap.edges global ref

variable {heap : Heap} {global ref : Ref}

theorem described_promise {delayed : Promise} (body : heap.body ref = .promise delayed) :
    heap.described global ref = (Body.promise delayed).edges global := by
  rw [described, body]
  rfl

theorem described_named (isNamed : (heap.body ref).isNamed = true) :
    heap.described global ref = [] := by
  have other : (heap.body ref).isPromise = false := by
    cases body : heap.body ref <;> rw [body] at isNamed <;> first | rfl | cases isNamed
  rw [described, other, edges_named isNamed]
  rfl

theorem described_other (other : (heap.body ref).isPromise = false)
    (isOther : (heap.body ref).isNamed = false) :
    heap.described global ref = heap.carried global ref := by
  rw [described, other, edges_other isOther]
  rfl

theorem described_eq_edges
    (bare : (heap.body ref).isPromise = true → heap.attributes ref = none) :
    heap.described global ref = heap.edges global ref := by
  rw [described]
  split
  · rename_i isPromise
    have other : (heap.body ref).isNamed = false := by
      cases body : heap.body ref <;> rw [body] at isPromise <;> first | rfl | cases isPromise
    rw [edges_other other, carried, bare isPromise]
    exact (List.append_nil _).symm
  · rfl

end Heap

namespace Message

variable {sending : Sending} {context : Context} {heap : Heap} {table : List (UInt32 × Ref)}

namespace Spares

variable {ref : Ref}

theorem body (spares : Spares sending heap) (inside : ref.index < sending.origin.size) :
    heap.body ref = sending.origin.body ref :=
  (congrArg Object.body (spares.same ref inside)).trans (spares.marked.body ref inside)

theorem attributes (spares : Spares sending heap) (inside : ref.index < sending.origin.size) :
    heap.attributes ref = sending.origin.attributes ref :=
  (congrArg Object.attributes (spares.same ref inside)).trans (spares.marked.attributes ref inside)

end Spares

theorem acceptsAttributes_of_kind {heap : Heap} {ref : Ref} (other : heap.kind ref ≠ .environment) :
    acceptsAttributes heap ref = true := by
  rw [acceptsAttributes_eq]
  unfold Heap.kind at other
  cases body : heap.body ref with
  | environment frame =>
      rw [body] at other
      exact absurd rfl other
  | _ => rfl

/-- A value has come to a context whose codec is the packed one, like that of its sender: what the
sender had is as it was, and there are numbers for all local environments that were met. -/
structure Arrival (sending : Sending) (context : Context) (heap : Heap)
    (table : List (UInt32 × Ref)) : Prop where
  meets : Meets sending context
  written : sending.context.codec = .packed
  read : context.codec = .packed
  spares : Spares sending heap
  distinct : sending.known.Nodup
  few : sending.known.length ≤ UInt32.size
  apart : (table.map Prod.snd).Nodup

variable {sent received : Ref}

theorem Arrival.environments (arrival : Arrival sending context heap table) :
    context.environments.Sound heap := by
  intro kind ref found
  rw [arrival.spares.body (arrival.meets.environments.inside found)]
  exact arrival.meets.environments kind ref found

theorem Arrival.isNamed (arrival : Arrival sending context heap table)
    (owns : context.environments.Owns received) : (heap.body received).isNamed = true := by
  obtain ⟨kind, found⟩ := owns
  exact arrival.environments.isNamed found

theorem Arrival.isData (arrival : Arrival sending context heap table)
    (inside : sent.index < sending.origin.size) (deep : sending.final.Deep sent) :
    (sending.origin.body sent).isData = true :=
  arrival.spares.marked.isData_of_deep inside deep

theorem Linked.mirrored (arrival : Arrival sending context heap table)
    (linked : Linked sending context heap table sent received) :
    Mirrors sending context heap table sent received := by
  obtain ⟨source, mirrors, only⟩ := linked.mirrors arrival.meets
  rw [← only arrival.few]
  exact mirrors

theorem mirrored_all (arrival : Arrival sending context heap table) {sents receiveds : List Ref}
    (linked : List.Forall₂ (Linked sending context heap table) sents receiveds) :
    List.Forall₂ (Mirrors sending context heap table) sents receiveds :=
  linked.imp fun _ _ => Linked.mirrored arrival

namespace Mirrors

variable {sent' received' : Ref}

theorem inside (mirrors : Mirrors sending context heap table sent received) :
    sent.index < sending.origin.size := by
  cases mirrors with
  | same inside deep => exact inside
  | encoded isEncoded =>
      apply sending.origin.inside_of_body
      intro null
      rw [null] at isEncoded
      cases isEncoded
  | list body | environment body | promise body | attributed body =>
      apply sending.origin.inside_of_body
      rw [body]
      exact fun impossible => nomatch impossible

theorem owned (arrival : Arrival sending context heap table)
    (mirrors : Mirrors sending context heap table sent received)
    (isNamed : (sending.origin.body sent).isNamed = true) :
    context.environments.Owns received := by
  cases mirrors with
  | same inside deep =>
      have data := arrival.isData inside deep
      rw [Body.isData_of_isNamed isNamed] at data
      cases data
  | encoded isEncoded taken written room read place bodies others parts furnished =>
      rw [arrival.written] at written
      rw [arrival.read] at read
      rw [← taken.body] at isNamed
      exact Codec.owned_packed isNamed written read
  | environment body isLocal => simp [body, Body.isNamed, isLocal] at isNamed
  | list body | promise body | attributed body =>
      rw [body] at isNamed
      cases isNamed

theorem kind (arrival : Arrival sending context heap table)
    (mirrors : Mirrors sending context heap table sent received) :
    heap.kind received = sending.origin.kind sent := by
  unfold Heap.kind
  cases mirrors with
  | same inside deep => rw [arrival.spares.body inside]
  | list body new copied | environment body _ _ _ new copied =>
      rw [body, copied]
      rfl
  | attributed body new copied => rw [body, copied]
  | promise body new copied =>
      have copied' := congrArg Object.body copied
      rw [body, show heap.body received = _ from copied']
      rfl
  | encoded isEncoded taken written room read place bodies others parts furnished =>
      rcases place with ⟨owns, kind⟩ | ⟨above, below, kind⟩
      · obtain ⟨kind', found⟩ := owns
        obtain ⟨frame, body, _⟩ := arrival.environments kind' received found
        rw [body]
        exact kind.symm
      · rw [bodies received above below]
        exact kind

theorem ne_null (arrival : Arrival sending context heap table)
    (mirrors : Mirrors sending context heap table sent received) (something : sent ≠ Ref.null) :
    received ≠ Ref.null := by
  rintro rfl
  have room := arrival.meets.sound.room
  have there : Ref.null.index < sending.origin.size := Nat.lt_of_lt_of_le Nat.zero_lt_two room
  have isNull := (arrival.meets.sound.null Ref.null there).mpr rfl
  have kind := mirrors.kind arrival
  rw [Heap.kind, arrival.spares.body there, isNull, Heap.kind] at kind
  apply something
  apply (arrival.meets.sound.null sent mirrors.inside).mp
  cases body : sending.origin.body sent with
  | null => rfl
  | vector data =>
      rw [body] at kind
      cases data <;> cases kind
  | _ =>
      rw [body] at kind
      cases kind

theorem isLocal (arrival : Arrival sending context heap table)
    (mirrors : Mirrors sending context heap table sent received) :
    (heap.body received).isLocal = (sending.origin.body sent).isLocal := by
  have kind := mirrors.kind arrival
  have owned := mirrors.owned arrival
  cases mirrors with
  | same inside deep => rw [arrival.spares.body inside]
  | list body new copied =>
      rw [body, copied]
      rfl
  | attributed body new copied => rw [body, copied]
  | environment body isLocal _ _ new copied =>
      rw [body, copied]
      exact isLocal.symm
  | promise body new copied =>
      have copied' := congrArg Object.body copied
      rw [body, show heap.body received = _ from copied']
      rfl
  | encoded isEncoded =>
      rw [Body.isLocal_of_isEncoded isEncoded, Bool.eq_false_iff]
      intro isLocal
      have environment : sending.origin.kind sent = .environment :=
        kind.symm.trans (Body.kind_of_isLocal isLocal)
      have isNamed := arrival.isNamed (owned (Body.isNamed_of_isEncoded isEncoded environment))
      rw [Body.isNamed_of_isLocal isLocal] at isNamed
      cases isNamed

/-- A local environment and the received one have the same place in the tables of both sides. -/
theorem numbered (mirrors : Mirrors sending context heap table sent received)
    (arrival : Arrival sending context heap table)
    (isLocal : (sending.origin.body sent).isLocal = true) :
    ∃ index, sending.known[index]? = some sent ∧
      table.reverse[index]? = some (UInt32.ofNat index, received) := by
  cases mirrors with
  | environment body _ met housed => exact ⟨_, met, housed⟩
  | same inside deep =>
      have data := arrival.isData inside deep
      rw [Body.isData_of_isLocal isLocal] at data
      cases data
  | encoded isEncoded =>
      rw [Body.isLocal_of_isEncoded isEncoded] at isLocal
      cases isLocal
  | list body | promise body | attributed body =>
      rw [body] at isLocal
      cases isLocal

/-- One local environment becomes one, and two become two. -/
theorem same_iff (arrival : Arrival sending context heap table)
    (first : Mirrors sending context heap table sent received)
    (second : Mirrors sending context heap table sent' received')
    (isLocal : (sending.origin.body sent).isLocal = true) :
    sent = sent' ↔ received = received' := by
  obtain ⟨index, met, housed⟩ := first.numbered arrival isLocal
  have values : (table.reverse.map Prod.snd).Nodup := by
    rw [List.map_reverse, List.nodup_reverse]
    exact arrival.apart
  have valueAt {index : Nat} {entry : UInt32 × Ref} (place : table.reverse[index]? = some entry) :
      (table.reverse.map Prod.snd)[index]? = some entry.2 := by
    rw [List.getElem?_map, place, Option.map_some]
  -- No environment is twice in either table, so equality of places decides both sides.
  constructor
  · rintro rfl
    obtain ⟨index', met', housed'⟩ := second.numbered arrival isLocal
    have same : index = index' :=
      (List.getElem?_inj (List.getElem?_eq_some_iff.mp met).1 arrival.distinct).mp
        (met.trans met'.symm)
    rw [same, housed'] at housed
    cases housed
    rfl
  · rintro rfl
    have isLocal' : (sending.origin.body sent').isLocal = true := by
      rw [← second.isLocal arrival, first.isLocal arrival]
      exact isLocal
    obtain ⟨index', met', housed'⟩ := second.numbered arrival isLocal'
    have place := valueAt housed
    have place' := valueAt housed'
    have same : index = index' :=
      (List.getElem?_inj (List.getElem?_eq_some_iff.mp place).1 values).mp
        (place.trans place'.symm)
    rw [same, met'] at met
    exact (Option.some.inj met).symm

/-! ### Ways out -/

theorem attached (arrival : Arrival sending context heap table)
    (furnished : Furnished sending context heap table sent received)
    (inside : sent.index < sending.origin.size) :
    Parallel (Mirrors sending context heap table)
      (attributeLinks (sending.origin.attributes sent))
      (attributeLinks (heap.attributes received)) := by
  obtain ⟨values, parts, installed⟩ := furnished
  have mirrored := mirrored_all arrival parts
  rw [installed]
  cases has : sending.origin.attributes sent with
  | none => exact .nil
  | some mapping =>
      rw [has] at mirrored
      have object := arrival.meets.sound.object sent inside
      obtain ⟨_, distinct, present⟩ := object.attributes mapping has
      have length : mapping.names.length = values.length := by
        simpa [Mapping.names] using mirrored.length_eq
      have others : ∀ value ∈ values, value ≠ Ref.null := by
        intro value member
        obtain ⟨source, held, mirrors⟩ := forall₂_right mirrored member
        obtain ⟨entry, there, same⟩ := List.mem_map.mp held
        exact mirrors.ne_null arrival (same ▸ present entry there)
      have entries : attributeEntries (Attributes.normalize (some
          (Attributes.ofList (mapping.names.zip values)))) = mapping.names.zip values := by
        rw [Attributes.entries_normalize_some, Attributes.entries_ofList_zip length distinct others]
      rw [Option.map_some, attributeLinks, attributeLinks, entries]
      apply parallel_of_targets
      · rw [Edge.labels_named, Edge.labels_named, List.map_fst_zip (Nat.le_of_eq length)]
        rfl
      · rw [Edge.targets_named, Edge.targets_named, List.map_snd_zip (Nat.le_of_eq length.symm)]
        exact mirrored

theorem parallel_carried {body copy : Body} (sentBody : sending.origin.body sent = body)
    (copied : heap.body received = copy) (plain : body.isPromise = false ∧ body.isNamed = false)
    (plain' : copy.isPromise = false ∧ copy.isNamed = false)
    (edges : Parallel (Mirrors sending context heap table)
      (body.edges sending.context.environments.global) (copy.edges context.environments.global))
    (held : Parallel (Mirrors sending context heap table)
      (attributeLinks (sending.origin.attributes sent))
      (attributeLinks (heap.attributes received))) :
    Parallel (Mirrors sending context heap table)
      (sending.origin.described sending.context.environments.global sent)
      (heap.described context.environments.global received) := by
  subst sentBody copied
  rw [Heap.described_other plain.1 plain.2, Heap.described_other plain'.1 plain'.2]
  exact List.rel_append edges held

theorem parallel_same (arrival : Arrival sending context heap table)
    (inside : sent.index < sending.origin.size) (deep : sending.final.Deep sent) :
    Parallel (Mirrors sending context heap table)
      (sending.origin.described sending.context.environments.global sent)
      (heap.described context.environments.global sent) := by
  have data := arrival.isData inside deep
  have ways {other : Heap} (global : Ref) (body : other.body sent = sending.origin.body sent)
      (attributes : other.attributes sent = sending.origin.attributes sent) :
      other.described global sent = sending.origin.links sent := by
    rw [Heap.described, Heap.edges, Heap.carried, Heap.links, body, attributes]
    cases content : sending.origin.body sent <;> rw [content] at data <;>
      first | rfl | cases data
  rw [ways _ rfl rfl, ways _ (arrival.spares.body inside) (arrival.spares.attributes inside),
    Parallel, List.forall₂_same]
  intro way member
  have child := Heap.children_of_links (List.mem_map_of_mem member)
  refine ⟨rfl, .same (arrival.meets.sound.closed sent inside _ child) (deep.child ?_)⟩
  rw [arrival.spares.marked.children inside]
  exact child

theorem parallel_frame (arrival : Arrival sending context heap table) {frame : Frame}
    {contents : List Ref} {enclosing : Option Ref} (isLocal : frame.kind.isLocal = true)
    (encloses : frame.parent ≠ none)
    (bound : List.Forall₂ (Linked sending context heap table)
      (frame.bindings.entries.map Prod.snd) contents)
    (around : List.Forall₂ (Linked sending context heap table) frame.parent.toList
      enclosing.toList) :
    Parallel (Mirrors sending context heap table) frame.links
      (Frame.links { kind := .localEnv, bindings := ⟨frame.bindings.names.zip contents⟩
                     parent := some (enclosing.getD context.environments.empty) }) := by
  obtain ⟨outer, hasParent⟩ := Option.ne_none_iff_exists'.mp encloses
  have values := mirrored_all arrival bound
  have length : frame.bindings.names.length = contents.length := by
    simpa [Mapping.names] using values.length_eq
  rw [Frame.links, if_pos isLocal]
  show Parallel _ _ (Edge.named .binding (frame.bindings.names.zip contents) ++
    Edge.optional .parent (some (enclosing.getD context.environments.empty)))
  refine List.rel_append (parallel_of_targets ?_ ?_) ?_
  · rw [Edge.labels_named, Edge.labels_named, List.map_fst_zip (Nat.le_of_eq length)]
    rfl
  · rw [Edge.targets_named, Edge.targets_named, List.map_snd_zip (Nat.le_of_eq length.symm)]
    exact values
  · rw [hasParent] at around ⊢
    cases enclosing with
    | none => cases around
    | some outer' =>
        cases around with
        | cons head _ => exact .cons ⟨rfl, head.mirrored arrival⟩ .nil

theorem parallel_promise (arrival : Arrival sending context heap table) {delayed copy : Promise}
    (value : List.Forall₂ (Linked sending context heap table) delayed.value.toList
      copy.value.toList)
    (around : List.Forall₂ (Linked sending context heap table)
      (if delayed.value.isSome then []
        else [delayed.env.getD sending.context.environments.global]) copy.env.toList) :
    Parallel (Mirrors sending context heap table)
      ((Body.promise delayed).edges sending.context.environments.global)
      ((Body.promise copy).edges context.environments.global) := by
  obtain ⟨_, env, _ | held⟩ := delayed
  · obtain ⟨_, _ | env', _ | held'⟩ := copy
    · cases around
    · cases value
    · cases around with
      | cons head _ => exact .cons ⟨rfl, head.mirrored arrival⟩ .nil
    · cases value
  · obtain ⟨_, env', _ | held'⟩ := copy
    · cases value
    · cases value with
      | cons head _ => exact .cons ⟨rfl, head.mirrored arrival⟩ .nil

/-- The ways out of what belongs together belong together in their order. -/
theorem parallel (arrival : Arrival sending context heap table)
    (mirrors : Mirrors sending context heap table sent received)
    (bare : (sending.origin.body sent).isEncoded = true →
      (sending.origin.body sent).isNamed = false → sending.origin.attributes sent = none →
        heap.attributes received = none) :
    Parallel (Mirrors sending context heap table)
      (sending.origin.described sending.context.environments.global sent)
      (heap.described context.environments.global received) := by
  have within := mirrors.inside
  have kind := mirrors.kind arrival
  have owned := mirrors.owned arrival
  cases mirrors with
  | same inside deep => exact parallel_same arrival inside deep
  | list body new copied parts furnished =>
      have elements := mirrored_all arrival parts
      refine parallel_carried body copied ⟨rfl, rfl⟩ ⟨rfl, rfl⟩ (parallel_of_targets ?_ ?_)
        (attached arrival furnished within)
      · rw [Body.edges, Body.edges, Edge.labels_elements, Edge.labels_elements, elements.length_eq]
      · rw [Heap.targets_list, Heap.targets_list]
        exact elements
  | environment body isLocal met housed new copied bound around furnished =>
      have encloses := ((arrival.meets.sound.object sent within).frame _ body).2 isLocal
      refine parallel_carried body copied ⟨rfl, ?_⟩ ⟨rfl, rfl⟩
        (parallel_frame arrival isLocal encloses bound around) (attached arrival furnished within)
      rw [Body.isNamed, isLocal]
      rfl
  | promise body new copied written rebuilt value around =>
      rw [Heap.described_promise body, Heap.described_promise (congrArg Object.body copied)]
      exact parallel_promise arrival value around
  | encoded isEncoded taken written room read place bodies others parts furnished =>
      rename_i after _ _
      by_cases isNamed : (sending.origin.body sent).isNamed = true
      · rw [Heap.described_named isNamed, Heap.described_named (arrival.isNamed (owned isNamed))]
        exact .nil
      · have other := Bool.eq_false_iff.mpr isNamed
        have sealed := Body.sealed_of_kind isEncoded other sending.context.environments.global rfl
        have sealed' := Body.sealed_of_kind isEncoded other context.environments.global kind
        refine parallel_carried rfl rfl sealed.2 sealed'.2 ?_ ?_
        · rw [sealed.1, sealed'.1]
          exact .nil
        -- What had no attributes may have gained those the codec read with it; the assumption rules
        -- that out.
        · by_cases nothing : sending.origin.attributes sent = none
          · rw [nothing, bare isEncoded other nothing]
            exact .nil
          · apply attached arrival (furnished nothing ?_) within
            have sort : after.kind received ≠ .environment := by
              intro environment
              rcases place with ⟨_, same⟩ | ⟨_, _, same⟩
              · exact isNamed (Body.isNamed_of_isEncoded isEncoded same)
              · exact isNamed (Body.isNamed_of_isEncoded isEncoded (same.symm.trans environment))
            exact acceptsAttributes_of_kind sort
  | attributed body new copied furnished =>
      exact parallel_carried body copied ⟨rfl, rfl⟩ ⟨rfl, rfl⟩ .nil
        (attached arrival furnished within)

/-- Every way out of a sent value has a counterpart. -/
theorem finds (arrival : Arrival sending context heap table)
    (mirrors : Mirrors sending context heap table sent received) (edge : Edge) (child : Ref)
    (found : (sending.origin.described sending.context.environments.global sent).lookup edge =
      some child) :
    ∃ other, (heap.described context.environments.global received).lookup edge = some other ∧
      Mirrors sending context heap table child other := by
  by_cases bare : (sending.origin.body sent).isEncoded = true →
      (sending.origin.body sent).isNamed = false → sending.origin.attributes sent = none →
        heap.attributes received = none
  · have related := (mirrors.parallel arrival bare).lookup edge
    rw [found] at related
    cases there : (heap.described context.environments.global received).lookup edge with
    | none =>
        rw [there] at related
        cases related
    | some other =>
        rw [there] at related
        cases related with
        | some mirrors => exact ⟨other, rfl, mirrors⟩
  · -- What was sent has no way out at all.
    simp only [Classical.not_imp] at bare
    obtain ⟨isEncoded, other, nothing, _⟩ := bare
    have sealed := Body.sealed_of_kind isEncoded other sending.context.environments.global rfl
    rw [Heap.described_other sealed.2.1 other, Heap.carried, sealed.1, nothing] at found
    cases found

end Mirrors

end Message

end ValueChannels
