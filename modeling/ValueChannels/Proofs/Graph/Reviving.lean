import ValueChannels.Context.Codec
import ValueChannels.Proofs.Graph.Depiction
import ValueChannels.Proofs.Heap.Soundness
import ValueChannels.Proofs.Transfer.Rebuilding

/-!
Reading the node of a value. A context that has the environments which the value names makes a value
of the node that the node depicts as well. While an environment is being filled its parts already
refer to it, so what a part depicts is said of the heap that is left in the end, which holds all that
was built on the way. Main statement: `Node.revives`.
-/

namespace ValueChannels

open Rebuilding

/-- The stage at which so many environments are known; reading makes no copies in advance. -/
def Stage.knowing (count : Nat) : Stage := { known := count, size := 0 }

/-- The scene that a reader leaves: the environments by the numbers of its table, and those that its
context owns. -/
def Scene.revived (environments : Environments) (heap : Heap) (table : List (UInt32 × Ref)) :
    Scene :=
  { heap, numbered := table.reverse.map Prod.snd
    owns := fun kind env => environments.find? kind = some env }

/-- A value is taken to a context that has the environments which the value names. -/
structure Passage (source : Heap) (value : Ref) (target : Heap) (environments : Environments) :
    Prop where
  written : source.Clean
  inside : value.index < source.size
  read : target.Clean
  owned : environments.Sound target
  available : ∀ ref frame, Leads source.links value ref → source.body ref = .environment frame →
    frame.kind.isLocal = false → ∃ env, environments.find? frame.kind = some env

/-- What is left after reading into a heap: all that it held, and new environments. -/
structure Aftermath (target final : Heap) (table : List (UInt32 × Ref)) : Prop where
  extend : target.Extends final
  new : ∀ entry ∈ table, target.size ≤ entry.2.index

/-! ### Parts -/

namespace Node

/-- A node that depicts a value of one scene is read as a value that it depicts in another one, once
that is complete. -/
def Revives (first : Scene) (value : Ref) (environments : Environments) (final : Heap)
    (table : List (UInt32 × Ref)) (node : Node) : Prop :=
  ∀ start stop ref before, first.Depicts start node ref stop → Leads first.heap.links value ref →
    stop ≤ UInt32.size → Keyed start before →
      Constructs final (fun _ => False) (.knowing start) (.knowing stop) before
        (node.decode environments)
        (fun _ after => before.environments <:+ after.environments)
        (fun copy after => after.environments <:+ table →
          (Scene.revived environments final table).Depicts start node copy stop)
        (fun _ => False)

variable {first : Scene} {value ref env owner : Ref} {environments : Environments}
  {target final : Heap} {table : List (UInt32 × Ref)} {owners : Ref → Prop}
  {start middle stop : Nat} {before : Rebuild}

theorem upTo_knowing (le : start ≤ stop) : (Stage.knowing start).UpTo (.knowing stop) :=
  ⟨le, Nat.le_refl 0⟩

theorem le_threads {nodes : List Node} {refs : List Ref}
    (threads : Threads first.Depicts start nodes refs stop) : start ≤ stop :=
  threads.monotone fun _ _ _ _ _ depicts => Scene.Depicts.le depicts

section Parts

theorem constructs_all {nodes : List Node} {refs : List Ref}
    (each : ∀ part ∈ nodes, Revives first value environments final table part)
    (threads : Threads first.Depicts start nodes refs stop)
    (leads : ∀ ref ∈ refs, Leads first.heap.links value ref) (few : stop ≤ UInt32.size)
    (keyed : Keyed start before) (apart : Apart owners (.knowing stop) before) :
    Constructs final owners (.knowing start) (.knowing stop) before
      (decodeAll environments nodes)
      (fun copies after => copies.length = nodes.length ∧
        before.environments <:+ after.environments ∧ Untouched owners before after)
      (fun copies after => after.environments <:+ table →
        Threads (Scene.revived environments final table).Depicts start nodes copies stop)
      (fun _ => False) := by
  -- On the nodes. What the first one has put in place is still there in the end, since the rest
  -- writes to new objects only.
  induction nodes generalizing start refs before with
  | nil =>
      cases threads
      rw [decodeAll]
      exact .pure keyed ⟨rfl, List.suffix_rfl, fun _ _ => rfl⟩ fun _ => .nil _
  | cons node rest ih =>
      cases threads with
      | cons head tail =>
          have forward := upTo_knowing head.le
          have onward := upTo_knowing (le_threads tail)
          have here := each node List.mem_cons_self _ _ _ before head
            (leads _ List.mem_cons_self) (Nat.le_trans (le_threads tail) few) keyed
          rw [decodeAll]
          refine Constructs.bind (Nat.zero_le _) apart forward onward
            (here.among (apart.first onward)) ?_
          rintro copy state ⟨known, same⟩ keyed' advances
          have others := ih (fun part member => each part (List.mem_cons_of_mem _ member)) tail
            (fun ref member => leads ref (List.mem_cons_of_mem _ member)) keyed'
            (apart.later advances.size)
          refine Constructs.bind (Nat.zero_le _) (apart.later advances.size) onward (.refl _)
            others ?_
          rintro copies after ⟨length, known', same'⟩ keyed'' _
          refine .pure keyed'' ⟨by simp [length], known.trans known', ?_⟩ ?_
          · intro ref own
            rw [same' ref own, same ref own]
          · exact fun values value more => .cons (value (known'.trans more)) (values more)

theorem decodeEntries_eq (entries : List (String × Node)) :
    decodeEntries environments entries = (do
      let refs ← decodeAll environments (entries.map Prod.snd)
      pure ((entries.map Prod.fst).zip refs)) := by
  induction entries with
  | nil => simp [decodeEntries, decodeAll]
  | cons entry rest ih => simp [decodeEntries, decodeAll, ih]

theorem constructs_optional {optional : Option Node} {refs : List Ref}
    (each : ∀ part ∈ optional.toList, Revives first value environments final table part)
    (threads : Threads first.Depicts start optional.toList refs stop)
    (leads : ∀ ref ∈ refs, Leads first.heap.links value ref) (few : stop ≤ UInt32.size)
    (keyed : Keyed start before) (apart : Apart owners (.knowing stop) before) :
    Constructs final owners (.knowing start) (.knowing stop) before
      (decodeOptional environments optional)
      (fun copy after => copy.isSome = optional.isSome ∧
        before.environments <:+ after.environments ∧ Untouched owners before after)
      (fun copy after => after.environments <:+ table →
        Threads (Scene.revived environments final table).Depicts start optional.toList copy.toList
          stop)
      (fun _ => False) := by
  cases optional with
  | none =>
      cases threads
      rw [decodeOptional]
      exact .pure keyed ⟨rfl, List.suffix_rfl, fun _ _ => rfl⟩ fun _ => .nil _
  | some node =>
      cases threads with
      | cons head tail =>
          cases tail
          have here := each node List.mem_cons_self _ _ _ before head
            (leads _ List.mem_cons_self) few keyed
          rw [decodeOptional]
          refine Constructs.bind (Nat.zero_le _) apart (upTo_knowing head.le) (.refl _)
            (here.among apart) ?_
          rintro copy state ⟨known, same⟩ keyed' _
          exact .pure keyed' ⟨rfl, known, same⟩ fun value more => .cons (value more) (.nil _)

theorem constructs_bindings {bindings : List (String × Node)} {refs : List Ref} {frame : Frame}
    (each : ∀ part ∈ bindings.map Prod.snd, Revives first value environments final table part)
    (threads : Threads first.Depicts start (bindings.map Prod.snd) refs stop)
    (leads : ∀ ref ∈ refs, Leads first.heap.links value ref) (few : stop ≤ UInt32.size)
    (keyed : Keyed start before) (apart : Apart (· = env) (.knowing stop) before)
    (content : before.heap.get env = Object.fresh (.environment frame))
    (distinct : (frame.bindings.names ++ bindings.map Prod.fst).Nodup) :
    Constructs final (· = env) (.knowing start) (.knowing stop) before
      (decodeBindings environments env bindings)
      (fun _ after => before.environments <:+ after.environments ∧
        ∃ contents, contents.length = bindings.length ∧
          after.heap.get env = withBindings frame (bindings.map Prod.fst) contents)
      (fun _ after => after.environments <:+ table →
        ∀ contents, contents.length = bindings.length →
          after.heap.get env = withBindings frame (bindings.map Prod.fst) contents →
            Threads (Scene.revived environments final table).Depicts start
              (bindings.map Prod.snd) contents stop)
      (fun _ => False) := by
  induction bindings generalizing start refs before frame with
  | nil =>
      cases threads
      rw [decodeBindings]
      refine .pure keyed ⟨List.suffix_rfl, [], rfl, ?_⟩ ?_
      · rw [content, List.map_nil, withBindings_nil]
      · intro _ contents none _
        rw [List.length_eq_zero_iff.mp none]
        exact .nil _
  | cons entry rest ih =>
      obtain ⟨name, node⟩ := entry
      rw [List.map_cons] at threads each distinct
      cases threads with
      | cons head tail =>
          have forward := upTo_knowing head.le
          have onward := upTo_knowing (le_threads tail)
          have here := each node List.mem_cons_self _ _ _ before head
            (leads _ List.mem_cons_self) (Nat.le_trans (le_threads tail) few) keyed
          have fresh : name ∉ frame.bindings.names := by
            intro member
            exact (List.nodup_append.mp distinct).2.2 name member name List.mem_cons_self rfl
          rw [decodeBindings]
          refine Constructs.bind (Nat.zero_le _) apart forward onward
            (here.among (apart.first onward)) ?_
          rintro copy state ⟨known, same⟩ keyed' advances
          have still := apart.later advances.size
          have content' := (same env rfl).trans content
          have known' : Keyed (Stage.knowing _).known state := keyed'
          refine Constructs.bind (Nat.zero_le _) still (.refl _) onward
            (constructs_define known' content' fresh) ?_
          rintro _ defined ⟨size, content''⟩ keyed'' advances'
          have table' : defined.environments = state.environments := congrArg Progress.known size
          have distinct' : ((frame.bindings.entries ++ [(name, copy)]).map Prod.fst ++
              rest.map Prod.fst).Nodup := by
            simpa [Mapping.names] using distinct
          -- The frame has one binding more from here on, and the rest is bound behind it.
          refine (ih (fun part member => each part (List.mem_cons_of_mem _ member)) tail
            (fun ref member => leads ref (List.mem_cons_of_mem _ member)) keyed''
            (still.later advances'.size) content'' distinct').mono ?_ ?_ fun _ => id
          · rintro _ after ⟨known', contents, length, last⟩
            rw [table'] at known'
            refine ⟨known.trans known', copy :: contents, congrArg Nat.succ length, ?_⟩
            rw [last, withBindings_cons, List.map_cons]
          · rintro _ after ⟨known', others, length, found⟩ values _ built more contents length' last
            rw [table'] at known'
            rw [withBindings_cons] at found
            have same' : contents = copy :: others := by
              apply withBindings_inj _ _ (last.symm.trans found)
              · rw [length', List.length_map]
              · rw [List.length_cons, length, List.length_map, List.length_cons]
            rw [same']
            exact .cons (built (known'.trans more))
              (values more others length (found.trans (withBindings_cons ..).symm))

end Parts

/-! ### Attributes -/

theorem present_revived (aftermath : Aftermath target final table) (read : target.Clean)
    {part : Node} (something : part.item ≠ .null)
    (depicts : (Scene.revived environments final table).Depicts start part ref stop) :
    ref ≠ Ref.null := by
  intro same
  subst same
  have room : Ref.null.index < target.size := Nat.lt_of_lt_of_le Nat.zero_lt_two read.sound.room
  have null : final.content Ref.null = .null := by
    have body : final.body Ref.null = .null :=
      (congrArg Object.body (aftermath.extend.same Ref.null room)).trans
        ((read.sound.null Ref.null room).mpr rfl)
    rw [Heap.content, body, Body.content]
  cases depicts with
  | object other content labels parts =>
      rename_i item attributes
      have nothing : item.content = .null := content.symm.trans null
      cases item with
      | null => exact something rfl
      | _ => cases nothing
  | environment met content labels parts => cases content.symm.trans null
  | reference earlier met =>
      have member := List.mem_iff_getElem?.mpr ⟨_, met⟩
      obtain ⟨entry, known, same⟩ := List.mem_map.mp member
      have new := aftermath.new entry (List.mem_reverse.mp known)
      rw [same] at new
      exact Nat.not_lt_of_le new room
  | named isNamed content owned => cases content.symm.trans null

/-- What is done about the attributes of a node once its item has been read. -/
def furnish (environments : Environments) (item : NodeItem) (attributes : List (String × Node))
    (ref : Ref) : Decoding Ref := do
  if item.keepsAttributes && !attributes.isEmpty then
    let entries ← decodeEntries environments attributes
    Rebuilding.changeHeap fun heap =>
      heap.replaceAttributes ref (some (Attributes.ofList entries))
    pure ref
  else
    pure ref

theorem decode_eq (item : NodeItem) (attributes : List (String × Node)) :
    (Node.mk item attributes).decode environments =
      item.decode environments >>= furnish environments item attributes := by
  rw [decode]
  rfl

/-- An object that was made with a body, once its attributes have been added. -/
def furnished (body : Body) (attributes : Attributes) : Object :=
  { body, attributes := Attributes.normalize (some attributes), shared := false }

variable {item : NodeItem} {attributes : List (String × Node)} {refs : List Ref} {body : Body}

theorem constructs_furnish (keeps : item.keepsAttributes = true)
    (each : ∀ part ∈ attributes.map Prod.snd,
      Revives first value environments final table part)
    (threads : Threads first.Depicts start (attributes.map Prod.snd) refs stop)
    (leads : ∀ ref ∈ refs, Leads first.heap.links value ref) (few : stop ≤ UInt32.size)
    (keyed : Keyed start before) (apart : Apart (· = owner) (.knowing stop) before)
    (content : before.heap.get owner = Object.fresh body)
    (names : (attributes.map Prod.fst).Nodup)
    (present : ∀ part ∈ attributes.map Prod.snd, part.item ≠ .null)
    (aftermath : Aftermath target final table) (read : target.Clean) :
    Constructs final (· = owner) (.knowing start) (.knowing stop) before
      (furnish environments item attributes owner)
      (fun result after => result = owner ∧ before.environments <:+ after.environments)
      (fun _ after => after.environments <:+ table → ∃ values,
        Threads (Scene.revived environments final table).Depicts start (attributes.map Prod.snd)
          values stop ∧ after.heap.get owner =
            furnished body ⟨(attributes.map Prod.fst).zip values⟩)
      (fun _ => False) := by
  unfold furnish
  cases nothing : attributes.isEmpty with
  | true =>
      rw [List.isEmpty_iff.mp nothing] at threads ⊢
      cases threads
      rw [Bool.not_true, Bool.and_false, if_neg Bool.false_ne_true]
      refine .pure keyed ⟨rfl, List.suffix_rfl⟩ fun _ => ⟨[], .nil _, ?_⟩
      rw [content]
      rfl
  | false =>
      rw [keeps, Bool.not_false, Bool.and_true, if_pos rfl, decodeEntries_eq, bind_assoc]
      refine Constructs.bind (Nat.zero_le _) apart (upTo_knowing (le_threads threads)) (.refl _)
        (constructs_all each threads leads few keyed apart) ?_
      rintro values state ⟨length, known, same⟩ keyed' advances
      have content' := (same owner rfl).trans content
      have still := apart.later advances.size
      have written (entries : List (String × Ref)) :
          Constructs final (· = owner) (.knowing stop) (.knowing stop) state
            (Rebuilding.changeHeap fun heap =>
              heap.replaceAttributes owner (some (Attributes.ofList entries)) : Decoding Unit)
            (fun _ after => after.environments = state.environments)
            (fun _ after => after.heap.get owner = furnished body (Attributes.ofList entries))
            (fun _ => False) := by
        refine Constructs.write keyed' (changeHeap_eq _ state)
          (state.heap.size_replaceAttributes owner _) ?_ rfl ?_
        · intro ref other
          exact state.heap.get_replaceAttributes_other _ other
        · show (state.heap.replaceAttributes owner _).get owner = _
          rw [state.heap.get_replaceAttributes_same _ (still owner rfl).2, content']
          rfl
      rw [pure_bind]
      refine Constructs.bind (Nat.zero_le _) still (.refl _) (.refl _) (written _) ?_
      intro _ after table' keyed'' _
      refine .pure keyed'' ⟨rfl, ?_⟩ ?_
      · rw [table']
        exact known
      · intro object depicted more
        rw [table'] at more
        refine ⟨values, depicted more, ?_⟩
        have related := (depicted more).forall₂ fun _ part inside ref _ depicts =>
          present_revived aftermath read (present part inside) depicts
        -- Setting an attribute to NULL would drop it, but nothing that depicts one of these parts
        -- is NULL.
        have others : ∀ value ∈ values, value ≠ Ref.null := by
          intro value member
          obtain ⟨_, _, something⟩ := forall₂_right related member
          exact something
        have length' : (attributes.map Prod.fst).length = values.length := by
          simpa using length.symm
        have whole := congrArg Mapping.mk (Attributes.entries_ofList_zip length' names others)
        exact object.trans (congrArg (furnished body) whole)

/-! ### What a node says about its object -/

section Labels

variable {scene : Scene} {begin finish : Nat}

theorem zip_threads {ways : List (Edge × Node)} {others : List (Edge × Ref)} {edge : Edge}
    {part : Node} (labels : ways.map Prod.fst = others.map Prod.fst)
    (threads : Threads scene.Depicts begin (ways.map Prod.snd) (others.map Prod.snd) finish)
    (member : (edge, part) ∈ ways) :
    ∃ child start stop, (edge, child) ∈ others ∧ scene.Depicts start part child stop := by
  induction ways generalizing begin others with
  | nil => cases member
  | cons way ways ih =>
      cases others with
      | nil => cases labels
      | cons other others =>
          obtain ⟨label, child⟩ := other
          rw [List.map_cons, List.map_cons, List.cons.injEq] at labels
          cases threads with
          | cons head tail =>
              rcases List.mem_cons.mp member with same | later
              · subst same
                obtain ⟨same, _⟩ := labels
                dsimp only at same
                subst same
                exact ⟨child, _, _, List.mem_cons_self, head⟩
              · obtain ⟨child', start, stop, inside, depicts⟩ := ih labels.2 tail later
                exact ⟨child', start, stop, List.mem_cons_of_mem _ inside, depicts⟩

theorem distinct_of_labels (sound : scene.heap.Sound) (inside : ref.index < scene.heap.size)
    (labels : (Node.mk item attributes).links.map Prod.fst = (scene.heap.links ref).map Prod.fst) :
    (item.links.map Prod.fst).Nodup ∧ (attributes.map Prod.fst).Nodup := by
  have distinct := sound.nodup_links inside
  rw [← labels, links, List.map_append, List.nodup_append, Edge.labels_named] at distinct
  exact ⟨distinct.1, distinct.2.1.of_map _⟩

theorem present_of_labels (sound : scene.heap.Sound) (inside : ref.index < scene.heap.size)
    (labels : (Node.mk item attributes).links.map Prod.fst = (scene.heap.links ref).map Prod.fst)
    (parts : Threads scene.Depicts begin ((Node.mk item attributes).links.map Prod.snd)
      ((scene.heap.links ref).map Prod.snd) finish) :
    ∀ part ∈ attributes.map Prod.snd, part.item ≠ .null := by
  intro part member nothing
  obtain ⟨⟨name, node⟩, present, same⟩ := List.mem_map.mp member
  cases same
  have way : (Edge.attached name, node) ∈ (Node.mk item attributes).links :=
    List.mem_append_right _ (List.mem_map.mpr ⟨_, present, rfl⟩)
  obtain ⟨child, start, stop, way', depicts⟩ := zip_threads labels parts way
  have there := sound.closed ref inside child (Heap.children_of_links (List.mem_map_of_mem way'))
  cases depicts with
  | object other content labels parts =>
      rename_i item attributes
      have isNull : item = .null := nothing
      rw [isNull] at content
      have body := Heap.null_of_content content
      exact sound.attached_ne_null inside way' ((sound.null child there).mp body)
  | environment _ _ _ _ => cases nothing
  | reference _ _ => cases nothing
  | named _ _ _ => cases nothing

theorem enclosed_of_labels {id : UInt32} {bindings : List (String × Node)} {parent : Option Node}
    (sound : scene.heap.Sound) (inside : ref.index < scene.heap.size)
    (content : scene.heap.content ref = .environment .localEnv)
    (labels : (Node.mk (.environment id bindings parent) attributes).links.map Prod.fst =
      (scene.heap.links ref).map Prod.fst) : ∃ around, parent = some around := by
  obtain ⟨frame, body, kind⟩ := Heap.frame_of_content content
  have isLocal : frame.kind.isLocal = true := by
    rw [kind]
    rfl
  have unnamed : (scene.heap.body ref).isNamed = false := by
    simp [body, Body.isNamed, isLocal]
  obtain ⟨outer, encloses⟩ := Option.ne_none_iff_exists'.mp
    (((sound.object ref inside).frame frame body).2 isLocal)
  have member : Edge.parent ∈ (scene.heap.links ref).map Prod.fst := by
    rw [Heap.links_other unnamed, body, Body.links, Frame.links, if_pos isLocal, encloses]
    simp
  rw [← labels] at member
  cases parent with
  | some around => exact ⟨around, rfl⟩
  | none =>
      simp [links, NodeItem.links] at member

end Labels

/-! ### Objects -/

theorem links_furnished {mapping : Attributes} (content : final.get ref = furnished body mapping)
    (unnamed : body.isNamed = false) :
    final.links ref = body.links ++ Edge.named .attached mapping.entries := by
  have body' : final.body ref = body := congrArg Object.body content
  have attributes : final.attributes ref = Attributes.normalize (some mapping) :=
    congrArg Object.attributes content
  rw [Heap.links_other (by rw [body', unnamed]), body', attributes, attributeLinks,
    Attributes.entries_normalize_some]

/-- An object that keeps attributes and is no environment is made of its parts. -/
theorem decode_object (other : item.isEnvironment = false) (keeps : item.keepsAttributes = true) :
    ∃ make : List Ref → Body,
      item.decode environments = (do
        let refs ← decodeAll environments item.parts
        Rebuilding.alloc (make refs)) ∧
      ∀ refs, refs.length = item.parts.length → (make refs).isNamed = false ∧
        (make refs).content = item.content ∧
        (make refs).links.map Prod.fst = item.links.map Prod.fst ∧
        (make refs).links.map Prod.snd = refs := by
  cases item with
  | null | unbound => cases keeps
  | environment _ _ _ | environmentRef _ | named _ => cases other
  | vector data =>
      refine ⟨fun _ => .vector data, by simp [NodeItem.decode, NodeItem.parts, decodeAll], ?_⟩
      intro refs length
      exact ⟨rfl, rfl, rfl, (List.length_eq_zero_iff.mp length).symm⟩
  | language expr =>
      refine ⟨fun _ => .language expr, by simp [NodeItem.decode, NodeItem.parts, decodeAll], ?_⟩
      intro refs length
      exact ⟨rfl, rfl, rfl, (List.length_eq_zero_iff.mp length).symm⟩
  | connection details =>
      refine ⟨fun _ => .connection details, by simp [NodeItem.decode, NodeItem.parts, decodeAll], ?_⟩
      intro refs length
      exact ⟨rfl, rfl, rfl, (List.length_eq_zero_iff.mp length).symm⟩
  | list items =>
      refine ⟨.list, by rw [NodeItem.decode]; rfl, ?_⟩
      intro refs length
      refine ⟨rfl, rfl, ?_, Edge.targets_elements refs⟩
      rw [Body.links, NodeItem.links, Edge.labels_elements, Edge.labels_elements, length]
      rfl
  | closure formals function env =>
      refine ⟨fun refs => .closure { formals, body := function, env := refs.headD Ref.null },
        by simp [NodeItem.decode, NodeItem.parts, decodeAll], ?_⟩
      intro refs length
      obtain ⟨env', rfl⟩ := List.length_eq_one_iff.mp length
      exact ⟨rfl, rfl, rfl, rfl⟩
  | promise expr env held =>
      refine ⟨fun refs => .promise
        { expr, env := if env.isSome then refs.head? else none
          value := if held.isSome then refs.getLast? else none }, ?_, ?_⟩
      · cases env <;> cases held <;>
          simp [NodeItem.decode, NodeItem.parts, decodeAll, decodeOptional]
      · intro refs length
        -- The parts are handed over in one row, so which of them is the environment and which the
        -- value depends on which of the two are there.
        cases env with
        | none =>
            cases held with
            | none =>
                rw [List.length_eq_zero_iff.mp length]
                exact ⟨rfl, rfl, rfl, rfl⟩
            | some held =>
                obtain ⟨one, rfl⟩ := List.length_eq_one_iff.mp length
                exact ⟨rfl, rfl, rfl, rfl⟩
        | some env =>
            cases held with
            | none =>
                obtain ⟨one, rfl⟩ := List.length_eq_one_iff.mp length
                exact ⟨rfl, rfl, rfl, rfl⟩
            | some held =>
                obtain ⟨one, two, rfl⟩ := List.length_eq_two.mp length
                exact ⟨rfl, rfl, rfl, rfl⟩

theorem map_fst_zip_values {nodes : List (String × Node)} {values : List Ref}
    (length : (nodes.map Prod.snd).length = values.length) :
    ((nodes.map Prod.fst).zip values).map Prod.fst = nodes.map Prod.fst :=
  List.map_fst_zip (by simpa using Nat.le_of_eq length)

theorem map_snd_zip_values {nodes : List (String × Node)} {values : List Ref}
    (length : (nodes.map Prod.snd).length = values.length) :
    ((nodes.map Prod.fst).zip values).map Prod.snd = values :=
  List.map_snd_zip (by simpa using Nat.le_of_eq length.symm)

theorem constructs_new (keeps : item.keepsAttributes = true)
    (each : ∀ part ∈ attributes.map Prod.snd,
      Revives first value environments final table part)
    (threads : Threads first.Depicts start (attributes.map Prod.snd) refs stop)
    (leads : ∀ ref ∈ refs, Leads first.heap.links value ref) (few : stop ≤ UInt32.size)
    (keyed : Keyed start before) (names : (attributes.map Prod.fst).Nodup)
    (present : ∀ part ∈ attributes.map Prod.snd, part.item ≠ .null)
    (aftermath : Aftermath target final table) (read : target.Clean) :
    Constructs final (fun _ => False) (.knowing start) (.knowing stop) before
      (Rebuilding.alloc body >>= furnish environments item attributes)
      (fun _ after => before.environments <:+ after.environments)
      (fun copy after => after.environments <:+ table → ∃ values,
        Threads (Scene.revived environments final table).Depicts start (attributes.map Prod.snd)
          values stop ∧ final.get copy = furnished body ⟨(attributes.map Prod.fst).zip values⟩)
      (fun _ => False) := by
  let owner : Ref := ⟨before.heap.size⟩
  let state : Rebuild := { before with heap := (before.heap.alloc body).2 }
  have size : state.heap.size = before.heap.size + 1 := before.heap.size_alloc body
  have there : owner.index < state.heap.size := Nat.lt_of_lt_of_eq (Nat.lt_succ_self _) size.symm
  have begun : Advances (fun _ => False) before state :=
    ⟨Nat.le_of_lt there, fun _ inside _ => before.heap.get_alloc_old body inside⟩
  have apart : Apart (· = owner) (.knowing stop) state := by
    rintro _ rfl
    exact ⟨Nat.zero_le _, there⟩
  have inner := constructs_furnish keeps each threads leads few (keyed.grow (Nat.le_of_lt there))
    apart (before.heap.get_alloc_new body) names present aftermath read
  refine Ends.bind (Ends.modifyGet ?_)
  refine inner.enclose (fun _ after => before.environments <:+ after.environments) begun (.refl _)
    (.refl _) rfl (fun ref same => ?_) (fun _ _ ended => ended.2) ?_
  · rw [same]
    exact Or.inr (Nat.le_refl _)
  · rintro copy after ⟨same, _⟩ advances kept depicted more
    obtain ⟨values, parts, object⟩ := depicted more
    rw [same]
    refine ⟨values, parts, ?_⟩
    exact (kept owner (Or.inr ⟨Nat.le_refl _, Nat.lt_of_lt_of_le there advances.size⟩)).trans object

theorem revives_object (passage : Passage first.heap value target environments)
    (aftermath : Aftermath target final table) (other : item.isEnvironment = false)
    (keeps : item.keepsAttributes = true)
    (ofParts : ∀ part ∈ item.parts, Revives first value environments final table part)
    (ofAttributes : ∀ part ∈ attributes.map Prod.snd,
      Revives first value environments final table part) :
    Revives first value environments final table (.mk item attributes) := by
  intro start stop ref before depicts leads few keyed
  have sound := passage.written.sound
  have inside := sound.leads_links passage.inside leads
  cases depicts with
  | environment _ _ _ _ => cases other
  | reference _ _ => cases other
  | named _ _ _ => cases other
  | object _ content labels parts =>
      have whole := parts
      rw [targets_links] at whole
      obtain ⟨bodies, values, middle, row, ofBody, ofHeld⟩ := whole.split
      have onward : ∀ child ∈ bodies ++ values, Leads first.heap.links value child := by
        rw [← row]
        exact fun child member => leads.step (sound.nodup_links inside) member
      have names := (distinct_of_labels sound inside labels).2
      have present := present_of_labels sound inside labels parts
      obtain ⟨make, steps, makes⟩ := decode_object other keeps
      rw [decode_eq, steps, bind_assoc]
      refine Constructs.bind (Nat.zero_le _) (fun _ impossible => impossible.elim)
        (upTo_knowing (le_threads ofBody)) (upTo_knowing (le_threads ofHeld))
        (constructs_all ofParts ofBody
          (fun child member => onward child (List.mem_append_left _ member))
          (Nat.le_trans (le_threads ofHeld) few) keyed fun _ impossible => impossible.elim) ?_
      rintro refs filled ⟨length, known, _⟩ keyed' _
      obtain ⟨unnamed, content', labels', targets⟩ := makes refs length
      refine (constructs_new keeps ofAttributes ofHeld
        (fun child member => onward child (List.mem_append_right _ member)) few keyed' names present
        aftermath passage.read).mono (fun _ _ known' => known.trans known') ?_ fun _ => id
      intro copy after known' depicted built more
      obtain ⟨copies, held, object⟩ := depicted more
      have links := links_furnished object unnamed
      have body : final.body copy = make refs := congrArg Object.body object
      -- The object as it is in the end, and not as it is made, is what has to depict the node.
      refine .object other ?_ ?_ ?_
      · show (final.body copy).content = _
        rw [body, content']
      · show _ = (final.links copy).map Prod.fst
        rw [links, Node.links, List.map_append, List.map_append, labels', Edge.labels_named,
          Edge.labels_named, map_fst_zip_values held.length]
      · show Threads _ _ _ ((final.links copy).map Prod.snd) _
        rw [links, targets_links, List.map_append, targets, Edge.targets_named,
          map_snd_zip_values held.length]
        exact (built (known'.trans more)).append held

theorem numbered_known {index : Nat} {state : Rebuild}
    (more : state.environments <:+ table) {entry : UInt32 × Ref}
    (place : state.environments.reverse[index]? = some entry) :
    (Scene.revived environments final table).numbered[index]? = some entry.2 := by
  obtain ⟨later, whole⟩ := more
  have inside := (List.getElem?_eq_some_iff.mp place).1
  show (table.reverse.map Prod.snd)[index]? = _
  rw [← whole, List.reverse_append, List.map_append, List.getElem?_append_left (by simpa using inside),
    List.getElem?_map, place, Option.map_some]

/-! ### Environments -/

/-- What has become of a new environment when all that belongs to it has been entered. -/
structure Settled (scene : Scene) (start stop : Nat) (bindings : List (String × Node))
    (around : Node) (attributes : List (String × Node)) (object : Object)
    (contents : List Ref) (enclosing : Ref) (values : List Ref) : Prop where
  bound : contents.length = bindings.length
  held : values.length = attributes.length
  parts : Threads scene.Depicts start (bindings.map Prod.snd ++ (around :: attributes.map Prod.snd))
    (contents ++ (enclosing :: values)) stop
  object : object = furnished (.environment
      { kind := .localEnv, bindings := ⟨(bindings.map Prod.fst).zip contents⟩
        parent := some enclosing })
    ⟨(attributes.map Prod.fst).zip values⟩

section Environments

variable {bindings : List (String × Node)} {around : Node} {number : UInt32}

theorem constructs_settled (number : UInt32) {contents values : List Ref} {outer : Ref}
    {bound enclosed : Nat}
    (ofBindings : ∀ part ∈ bindings.map Prod.snd,
      Revives first value environments final table part)
    (ofParent : Revives first value environments final table around)
    (ofAttributes : ∀ part ∈ attributes.map Prod.snd,
      Revives first value environments final table part)
    (defined : Threads first.Depicts start (bindings.map Prod.snd) contents bound)
    (within : first.Depicts bound around outer enclosed)
    (held : Threads first.Depicts enclosed (attributes.map Prod.snd) values stop)
    (leads : ∀ child ∈ contents ++ outer :: values, Leads first.heap.links value child)
    (few : stop ≤ UInt32.size) (keyed : Keyed start before)
    (apart : Apart (· = env) (.knowing stop) before)
    (content : before.heap.get env = Object.fresh (.environment
      { kind := .localEnv, bindings := Mapping.empty, parent := some environments.empty }))
    (distinct : (bindings.map Prod.fst).Nodup) (names : (attributes.map Prod.fst).Nodup)
    (present : ∀ part ∈ attributes.map Prod.snd, part.item ≠ .null)
    (aftermath : Aftermath target final table) (read : target.Clean) :
    Constructs final (· = env) (.knowing start) (.knowing stop) before
      (decodeBindings environments env bindings >>= fun _ =>
        decodeOptional environments (some around) >>= fun found =>
          (match found with
            | some parent => do
              Rebuilding.changeHeap fun heap => heap.setParent env parent
              pure env
            | none => pure env) >>=
          furnish environments (.environment number bindings (some around)) attributes)
      (fun result after => result = env ∧ before.environments <:+ after.environments)
      (fun _ after => after.environments <:+ table → ∃ contents enclosing values,
        Settled (Scene.revived environments final table) start stop bindings around attributes
          (after.heap.get env) contents enclosing values)
      (fun _ => False) := by
  have last := le_threads held
  have onward : bound ≤ stop := Nat.le_trans within.le last
  -- Bindings, parent and attributes are read in turn. Each turn leaves alone what the turns before
  -- it have made of the environment, so all three can be said of the heap in the end.
  refine Constructs.bind (Nat.zero_le _) apart (upTo_knowing (le_threads defined))
    (upTo_knowing onward)
    (constructs_bindings ofBindings defined
      (fun child member => leads child (List.mem_append_left _ member))
      (Nat.le_trans onward few) keyed (apart.first (upTo_knowing onward)) content distinct) ?_
  rintro _ state ⟨known, contents', length, content'⟩ keyed' advances
  have still := apart.later advances.size
  have parent :
      ∀ part ∈ (some around).toList, Revives first value environments final table part := by
    intro part member
    rw [List.mem_singleton.mp member]
    exact ofParent
  have outside : ∀ child ∈ [outer], Leads first.heap.links value child := by
    intro child member
    rw [List.mem_singleton.mp member]
    exact leads outer (List.mem_append_right _ List.mem_cons_self)
  refine Constructs.bind (Nat.zero_le _) still (upTo_knowing within.le) (upTo_knowing last)
    (constructs_optional parent (.cons within (.nil _)) outside (Nat.le_trans last few) keyed'
      (still.first (upTo_knowing last))) ?_
  rintro found state' ⟨isSome, known', same⟩ keyed'' advances'
  obtain ⟨enclosing, rfl⟩ := Option.isSome_iff_exists.mp isSome
  have still' := still.later advances'.size
  have content'' := (same env rfl).trans content'
  simp only [bind_assoc, pure_bind]
  have ready : Keyed (Stage.knowing enclosed).known state' := keyed''
  refine Constructs.bind (Nat.zero_le _) still' (.refl _) (upTo_knowing last)
    (constructs_setParent ready content'') ?_
  rintro _ state'' ⟨size, content'''⟩ keyed''' advances''
  have table' : state''.environments = state'.environments := congrArg Progress.known size
  refine (constructs_furnish rfl ofAttributes held
    (fun child member => leads child
      (List.mem_append_right _ (List.mem_cons_of_mem _ member))) few keyed'''
    (still'.later advances''.size) content''' names present aftermath read).mono ?_ ?_ fun _ => id
  · rintro result after ⟨same', known''⟩
    rw [table'] at known''
    exact ⟨same', (known.trans known').trans known''⟩
  · rintro result after ⟨_, known''⟩ furnishes _ encloses defines more
    rw [table'] at known''
    obtain ⟨values', ofHeld, object⟩ := furnishes more
    have bound' := defines ((known'.trans known'').trans more) contents' length content'
    have enclosed' := encloses (known''.trans more)
    refine ⟨contents', enclosing, values', length, ?_, ?_, object⟩
    · simpa using ofHeld.length.symm
    · exact bound'.append (enclosed'.append ofHeld)

theorem Settled.depicts {scene : Scene} {object : Object} {contents values : List Ref}
    {enclosing : Ref}
    (settled : Settled scene (start + 1) stop bindings around attributes object contents enclosing
      values)
    (same : scene.heap.get env = object) (met : scene.numbered[start]? = some env) :
    scene.Depicts start
      (.mk (.environment (UInt32.ofNat start) bindings (some around)) attributes) env stop := by
  have content := same.trans settled.object
  have body := congrArg Object.body content
  have bound : (bindings.map Prod.snd).length = contents.length := by
    simpa using settled.bound.symm
  have held : (attributes.map Prod.snd).length = values.length := by
    simpa using settled.held.symm
  have links := links_furnished content rfl
  simp only [Body.links, Frame.links, EnvironmentKind.isLocal, if_true] at links
  refine .environment met (congrArg Body.content body) ?_ ?_
  · rw [links, Node.links, NodeItem.links]
    simp only [List.map_append, Edge.labels_named, map_fst_zip_values bound,
      map_fst_zip_values held]
    rfl
  · rw [links, targets_links, NodeItem.parts, List.append_assoc]
    simp only [List.map_append, Edge.targets_named, map_snd_zip_values bound,
      map_snd_zip_values held]
    rw [List.append_assoc]
    exact settled.parts

theorem revives_environment {parent : Option Node}
    (passage : Passage first.heap value target environments)
    (aftermath : Aftermath target final table)
    (ofParts : ∀ part ∈ (NodeItem.environment number bindings parent).parts,
      Revives first value environments final table part)
    (ofAttributes : ∀ part ∈ attributes.map Prod.snd,
      Revives first value environments final table part) :
    Revives first value environments final table
      (.mk (.environment number bindings parent) attributes) := by
  intro start stop ref before depicts leads few keyed
  have sound := passage.written.sound
  have inside := sound.leads_links passage.inside leads
  cases depicts with
  | object other content labels parts => cases other
  | environment met content labels parts =>
      obtain ⟨around, rfl⟩ := enclosed_of_labels sound inside content labels
      have distinct := distinct_of_labels sound inside labels
      have names : (bindings.map Prod.fst).Nodup := by
        have bound := distinct.1
        rw [NodeItem.links, List.map_append, Edge.labels_named, List.nodup_append] at bound
        exact bound.1.of_map _
      have present := present_of_labels sound inside labels parts
      have whole := parts
      rw [targets_links, NodeItem.parts, List.append_assoc] at whole
      obtain ⟨contents, others, bound, row, defined, rest⟩ := whole.split
      have onward : ∀ child ∈ contents ++ others, Leads first.heap.links value child := by
        rw [← row]
        exact fun child member => leads.step (sound.nodup_links inside) member
      cases rest with
      | cons within held =>
          rename_i enclosed outer values
          let env : Ref := ⟨before.heap.size⟩
          let begun := entered environments.empty (UInt32.ofNat start) before
          have size : begun.heap.size = before.heap.size + 1 := size_entered _ _ before
          have there : env.index < begun.heap.size :=
            Nat.lt_of_lt_of_eq (Nat.lt_succ_self _) size.symm
          have apart : Apart (· = env) (.knowing stop) begun := by
            rintro _ rfl
            exact ⟨Nat.zero_le _, there⟩
          -- The environment has its number before its parts are read, since they may refer to it.
          have inner := constructs_settled (UInt32.ofNat start)
            (fun part member => ofParts part (List.mem_append_left _ member))
            (ofParts around (List.mem_append_right _ List.mem_cons_self)) ofAttributes defined within
            held onward few (keyed_entered keyed _) apart (get_entered_new _ _ before) names
            distinct.2 present aftermath passage.read
          rw [decode_eq, NodeItem.decode]
          simp only [bind_assoc]
          refine Ends.bind (Ends.modifyGet (Ends.bind (Ends.modifyGet ?_)))
          refine inner.enclose (fun _ after => before.environments <:+ after.environments)
            (advances_entered _ _ before) (upTo_knowing (Nat.le_succ start)) (.refl _) rfl
            (fun ref same => ?_) (fun _ _ ended => (List.suffix_cons _ _).trans ended.2) ?_
          · rw [same]
            exact Or.inr (Nat.le_refl _)
          · rintro copy after ⟨same, known⟩ advances kept settles more
            obtain ⟨copies, enclosing, others, settled⟩ := settles more
            have object : final.get env = after.heap.get env :=
              kept env (Or.inr ⟨Nat.le_refl _, Nat.lt_of_lt_of_le there advances.size⟩)
            have place : begun.environments.reverse[start]? = some (UInt32.ofNat start, env) := by
              show ((UInt32.ofNat start, env) :: before.environments).reverse[start]? = _
              rw [List.reverse_cons, List.getElem?_append_right (by simp [keyed.length])]
              simp [keyed.length]
            rw [same]
            exact settled.depicts object (numbered_known (known.trans more) place)

end Environments

/-! ### Values that are there already -/

theorem decode_passed (passes : item.keepsAttributes = false) :
    (Node.mk item attributes).decode environments = item.decode environments := by
  have unchanged (ref : Ref) : furnish environments item attributes ref = pure ref := by
    unfold furnish
    rw [passes, Bool.false_and, if_neg Bool.false_ne_true]
  rw [decode_eq, funext unchanged, bind_pure]

theorem same_links {heap later : Heap} (extend : heap.Extends later)
    (inside : ref.index < heap.size) :
    later.content ref = heap.content ref ∧ later.links ref = heap.links ref := by
  have same := extend.same ref inside
  have body : later.body ref = heap.body ref := congrArg Object.body same
  have attributes : later.attributes ref = heap.attributes ref := congrArg Object.attributes same
  refine ⟨congrArg Body.content body, ?_⟩
  rw [Heap.links, Heap.links, body, attributes]

theorem revives_singleton {singleton : Ref}
    (passage : Passage first.heap value target environments)
    (aftermath : Aftermath target final table) (passes : item.keepsAttributes = false)
    (other : item.isEnvironment = false) (decodes : item.decode environments = pure singleton)
    (bare : ∀ ref, ref.index < first.heap.size → first.heap.content ref = item.content →
      first.heap.links ref = [])
    (there : singleton.index < target.size) (content : target.content singleton = item.content)
    (nothing : target.links singleton = []) :
    Revives first value environments final table (.mk item attributes) := by
  intro start stop ref before depicts leads few keyed
  have inside := passage.written.sound.leads_links passage.inside leads
  obtain ⟨same, links⟩ := same_links aftermath.extend there
  rw [decode_passed passes, decodes]
  cases depicts with
  | environment _ _ _ _ => cases other
  | reference _ _ => cases other
  | named _ _ _ => cases other
  | object _ content' labels parts =>
      rw [bare ref inside content'] at labels parts
      have empty : (Node.mk item attributes).links = [] := List.map_eq_nil_iff.mp labels
      rw [empty] at parts
      cases parts
      refine .pure keyed List.suffix_rfl fun _ => .object other (same.trans content) ?_ ?_
      · show _ = (final.links singleton).map Prod.fst
        rw [links, nothing, empty]
        rfl
      · show Threads _ _ _ ((final.links singleton).map Prod.snd) _
        rw [links, nothing, empty]
        exact .nil _

theorem revives_reference {number : UInt32} :
    Revives first value environments final table (.mk (.environmentRef number) attributes) := by
  intro start stop ref before depicts leads few keyed
  rw [decode_passed rfl, NodeItem.decode]
  cases depicts with
  | object other content labels parts => cases other
  | reference earlier met =>
      rename_i index
      have known : Keyed (Stage.knowing start).known before := keyed
      refine (constructs_resolve known earlier).mono ?_ ?_ fun _ => id
      · rintro env after same
        exact same.symm ▸ List.suffix_rfl
      · rintro env after same found more
        rw [same] at more
        obtain ⟨index', inside, number, place⟩ := Keyed.of_lookup keyed.ids found
        have same' : index' = index := number_inj (by omega) (by omega) number
        rw [same'] at place
        exact .reference earlier (numbered_known more place)

theorem revives_named {kind : EnvironmentKind}
    (passage : Passage first.heap value target environments)
    (aftermath : Aftermath target final table) :
    Revives first value environments final table (.mk (.named kind) attributes) := by
  intro start stop ref before depicts leads few keyed
  rw [decode_passed rfl, NodeItem.decode]
  cases depicts with
  | object other content labels parts => cases other
  | named isNamed content owned =>
      obtain ⟨frame, body, same⟩ := Heap.frame_of_content content
      obtain ⟨env, found⟩ := passage.available ref frame leads body (by rw [same, isNamed])
      rw [same] at found
      rw [found]
      refine .pure keyed List.suffix_rfl fun _ => .named isNamed ?_ found
      obtain ⟨frame', body', same'⟩ := passage.owned kind env found
      have content' : target.content env = .environment kind := by
        rw [Heap.content, body', Body.content, same']
      exact (same_links aftermath.extend (passage.owned.inside found)).1.trans content'

/-- Every node that depicts a value is read as a value that it depicts. -/
theorem revives (passage : Passage first.heap value target environments)
    (aftermath : Aftermath target final table) (node : Node) :
    Revives first value environments final table node := by
  have room := passage.read.sound.room
  induction node using Node.induct with
  | step item attributes ofParts ofAttributes =>
      cases item with
      | null =>
          have there : Ref.null.index < target.size := Nat.lt_of_lt_of_le Nat.zero_lt_two room
          have body := (passage.read.sound.null Ref.null there).mpr rfl
          refine revives_singleton passage aftermath rfl rfl (by rw [NodeItem.decode]) ?_ there
            (congrArg Body.content body) (passage.read.links_of_null body there)
          exact fun ref inside content =>
            passage.written.links_of_null (Heap.null_of_content content) inside
      | unbound =>
          have there : Ref.unbound.index < target.size := Nat.lt_of_lt_of_le Nat.one_lt_two room
          have body := (passage.read.sound.unbound Ref.unbound).mpr rfl
          refine revives_singleton passage aftermath rfl rfl (by rw [NodeItem.decode]) ?_ there
            (congrArg Body.content body) (passage.read.links_of_unbound body)
          exact fun ref _ content =>
            passage.written.links_of_unbound (Heap.unbound_of_content content)
      | environment number bindings parent =>
          exact revives_environment passage aftermath ofParts ofAttributes
      | environmentRef number => exact revives_reference
      | named kind => exact revives_named passage aftermath
      | vector _ | list _ | promise _ _ _ | closure _ _ _ | language _ | connection _ =>
          exact revives_object passage aftermath rfl rfl ofParts ofAttributes

end Node

end ValueChannels
