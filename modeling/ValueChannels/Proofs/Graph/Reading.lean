import ValueChannels.Context.Codec
import ValueChannels.Proofs.Heap.Reach
import ValueChannels.Proofs.Transfer.Steps

/-!
What reading a node can do to the heap, whatever the node says. Only objects that the reader made
itself are written to, and they refer to one another, to the singletons and to the environments of
the context. Main statements: `Node.unpacks` for all nodes; `Codec.reads_packed` for bytes.
-/

namespace ValueChannels

/-! ### What reading adds -/

/-- The later heap has all objects of the earlier one, as they were. -/
structure Heap.Extends (before after : Heap) : Prop where
  size : before.size ≤ after.size
  same : ∀ ref, ref.index < before.size → after.get ref = before.get ref

namespace Heap.Extends

theorem refl (heap : Heap) : heap.Extends heap :=
  ⟨Nat.le_refl _, fun _ _ => rfl⟩

theorem trans {before middle after : Heap} (first : before.Extends middle)
    (second : middle.Extends after) : before.Extends after := by
  constructor
  · exact Nat.le_trans first.size second.size
  · intro ref inside
    exact (second.same ref (Nat.lt_of_lt_of_le inside first.size)).trans (first.same ref inside)

theorem alloc (heap : Heap) (body : Body) : heap.Extends (heap.alloc body).2 := by
  constructor
  · exact heap.size_le_alloc body
  · intro ref inside
    exact heap.get_alloc_old body inside

end Heap.Extends

namespace Environments

/-- The context has this environment from before. -/
def Owns (environments : Environments) (ref : Ref) : Prop :=
  ∃ kind, environments.find? kind = some ref

/-- What a value that is read in a context may consist of: the objects made for it, the
singletons, and the environments of the context. -/
def Offers (environments : Environments) (before after : Heap) (ref : Ref) : Prop :=
  (before.size ≤ ref.index ∧ ref.index < after.size) ∨ ref = Ref.null ∨ ref = Ref.unbound ∨
    environments.Owns ref

/-- New objects were added and nothing else, and they refer to nothing that was there but the
singletons and the environments of the context. -/
structure Adds (environments : Environments) (before after : Heap) : Prop where
  extend : before.Extends after
  closed : ∀ new, before.size ≤ new.index → new.index < after.size →
    ∀ child ∈ (after.get new).children, environments.Offers before after child

/-- Reading a value added new objects and nothing else, and they refer to nothing that was there
but the singletons and the environments of the context. -/
structure Reads (environments : Environments) (before : Heap) (ref : Ref) (after : Heap) :
    Prop where
  extend : before.Extends after
  result : environments.Offers before after ref
  closed : ∀ new, before.size ≤ new.index → new.index < after.size →
    ∀ child ∈ (after.get new).children, environments.Offers before after child

variable {environments : Environments} {base before after : Heap} {ref : Ref}

theorem Offers.later (offers : environments.Offers base before ref)
    (size : before.size ≤ after.size) : environments.Offers base after ref := by
  rcases offers with made | other
  · exact Or.inl ⟨made.1, Nat.lt_of_lt_of_le made.2 size⟩
  · exact Or.inr other

end Environments

/-! ### Induction over nodes -/

/-- The nodes in an item. -/
def NodeItem.parts : NodeItem → List Node
  | .list items => items
  | .environment _ bindings parent => bindings.map Prod.snd ++ parent.toList
  | .promise _ env value => env.toList ++ value.toList
  | .closure _ _ env => [env]
  | _ => []

namespace Node

section Induct

set_option linter.unusedSectionVars false

variable {motive : Node → Prop}
  (step : ∀ item attributes, (∀ part ∈ item.parts, motive part) →
    (∀ part ∈ attributes.map Prod.snd, motive part) → motive (.mk item attributes))

include step

mutual

/-- What holds of a node when it holds of the nodes in it holds of every node. -/
theorem induct : ∀ node : Node, motive node
  | .mk item attributes => step item attributes (inductItem item) (inductEntries attributes)

theorem inductItem : ∀ (item : NodeItem), ∀ part ∈ item.parts, motive part
  | .list items => inductAll items
  | .environment _ bindings parent => by
      intro part member
      rcases List.mem_append.mp member with bound | enclosing
      · exact inductEntries bindings part bound
      · exact inductOptional parent part enclosing
  | .promise _ env value => by
      intro part member
      rcases List.mem_append.mp member with ofEnv | ofValue
      · exact inductOptional env part ofEnv
      · exact inductOptional value part ofValue
  | .closure _ _ env => by
      intro part member
      rw [List.mem_singleton.mp member]
      exact induct env
  | .null | .unbound | .vector _ | .environmentRef _ | .named _ | .language _ | .connection _ =>
      fun _ member => nomatch member

theorem inductAll : ∀ (items : List Node), ∀ part ∈ items, motive part
  | [] => fun _ member => nomatch member
  | first :: rest => by
      intro part member
      rcases List.mem_cons.mp member with same | later
      · rw [same]
        exact induct first
      · exact inductAll rest part later

theorem inductEntries : ∀ (entries : List (String × Node)), ∀ part ∈ entries.map Prod.snd,
    motive part
  | [] => fun _ member => nomatch member
  | (name, node) :: rest => by
      intro part member
      rcases List.mem_cons.mp member with same | later
      · rw [same]
        exact induct node
      · exact inductEntries rest part later

theorem inductOptional : ∀ (optional : Option Node), ∀ part ∈ optional.toList, motive part
  | none => fun _ member => nomatch member
  | some held => by
      intro part member
      rw [List.mem_singleton.mp member]
      exact induct held

end

end Induct

/-! ### States of a reader -/

/-- A state in which every new object holds what may be offered, and only new environments are
known. -/
structure Unpacking (environments : Environments) (base : Heap) (state : Rebuild) : Prop where
  extend : base.Extends state.heap
  closed : ∀ new, base.size ≤ new.index → new.index < state.heap.size →
    ∀ child ∈ (state.heap.get new).children, environments.Offers base state.heap child
  known : ∀ entry ∈ state.environments,
    base.size ≤ entry.2.index ∧ entry.2.index < state.heap.size

/-- A step of the reader comes from one such state to another, and every value stays of its kind. -/
structure Unpacked (environments : Environments) (base : Heap) (before after : Rebuild) : Prop where
  unpacking : Unpacking environments base after
  size : before.heap.size ≤ after.heap.size
  kind : ∀ ref, ref.index < before.heap.size → after.heap.kind ref = before.heap.kind ref

/-- A node is read into something that may be offered. -/
def Unpacks (environments : Environments) (node : Node) : Prop :=
  ∀ base before, Unpacking environments base before →
    Ends (node.decode environments) before
      (fun ref after => Unpacked environments base before after ∧
        environments.Offers base after.heap ref)
      (fun _ after => Unpacking environments base after)

variable {environments : Environments} {base : Heap} {before middle after : Rebuild}

theorem Unpacking.start (environments : Environments) (base : Heap) :
    Unpacking environments base { heap := base, environments := [] } := by
  constructor
  · exact .refl base
  · intro new above inside
    exact absurd inside (Nat.not_lt_of_le above)
  · intro entry member
    cases member

theorem Unpacked.refl (unpacking : Unpacking environments base before) :
    Unpacked environments base before before :=
  ⟨unpacking, Nat.le_refl _, fun _ _ => rfl⟩

theorem Unpacked.trans (first : Unpacked environments base before middle)
    (second : Unpacked environments base middle after) :
    Unpacked environments base before after := by
  refine ⟨second.unpacking, Nat.le_trans first.size second.size, ?_⟩
  intro ref inside
  have later : ref.index < middle.heap.size := Nat.lt_of_lt_of_le inside first.size
  rw [second.kind ref later, first.kind ref inside]

theorem Unpacking.alloc (unpacking : Unpacking environments base before) {body : Body}
    (children : ∀ child ∈ body.children, environments.Offers base before.heap child) :
    Unpacked environments base before { before with heap := (before.heap.alloc body).2 } := by
  have size := before.heap.size_le_alloc body
  have old {ref : Ref} (inside : ref.index < before.heap.size) :
      (before.heap.alloc body).2.get ref = before.heap.get ref :=
    before.heap.get_alloc_old body inside
  constructor
  · constructor
    · constructor
      · exact Nat.le_trans unpacking.extend.size size
      · intro ref inside
        have there : ref.index < before.heap.size :=
          Nat.lt_of_lt_of_le inside unpacking.extend.size
        exact (old there).trans (unpacking.extend.same ref inside)
    · intro new above inside child member
      rcases before.heap.inside_alloc_cases body inside with there | here
      · rw [old there] at member
        exact (unpacking.closed new above there child member).later size
      · rw [here, before.heap.get_alloc_new, Heap.children_fresh] at member
        exact (children child member).later size
    · intro entry member
      have bounds := unpacking.known entry member
      exact ⟨bounds.1, Nat.lt_of_lt_of_le bounds.2 size⟩
  · exact size
  · intro ref inside
    exact congrArg (fun object => object.body.kind) (old inside)

theorem Unpacking.write (unpacking : Unpacking environments base before) {target : Ref}
    {written : Heap} (new : base.size ≤ target.index) (size : written.size = before.heap.size)
    (others : ∀ ref, ref ≠ target → written.get ref = before.heap.get ref)
    (kind : written.kind target = before.heap.kind target)
    (children : ∀ child ∈ (written.get target).children,
      environments.Offers base before.heap child) :
    Unpacked environments base before { before with heap := written } := by
  have grown : before.heap.size ≤ written.size := Nat.le_of_eq size.symm
  constructor
  · constructor
    · constructor
      · exact Nat.le_trans unpacking.extend.size grown
      · intro ref inside
        have apart : ref ≠ target := by
          intro same
          rw [same] at inside
          omega
        exact (others ref apart).trans (unpacking.extend.same ref inside)
    · intro ref above inside child member
      by_cases here : ref = target
      · rw [here] at member
        exact (children child member).later grown
      · have member' : child ∈ (written.get ref).children := member
        rw [others ref here] at member'
        have there : ref.index < before.heap.size := by
          rw [← size]
          exact inside
        exact (unpacking.closed ref above there child member').later grown
    · intro entry member
      have bounds := unpacking.known entry member
      exact ⟨bounds.1, Nat.lt_of_lt_of_le bounds.2 grown⟩
  · exact grown
  · intro ref _
    by_cases here : ref = target
    · rw [here]
      exact kind
    · exact congrArg (fun object => object.body.kind) (others ref here)

theorem Unpacking.enter (unpacking : Unpacking environments base before) (id : UInt32) :
    Unpacked environments base before
      { heap := (before.heap.allocLocal environments.empty).2
        environments := (id, ⟨before.heap.size⟩) :: before.environments } := by
  have empty : environments.Offers base before.heap environments.empty :=
    Or.inr (Or.inr (Or.inr ⟨.empty, rfl⟩))
  have allocated : Unpacked environments base before
      { before with heap := (before.heap.allocLocal environments.empty).2 } := by
    apply unpacking.alloc
    intro child member
    rw [List.mem_singleton.mp member]
    exact empty
  constructor
  · constructor
    · exact allocated.unpacking.extend
    · exact allocated.unpacking.closed
    · intro entry member
      rcases List.mem_cons.mp member with same | known
      · rw [same]
        exact ⟨unpacking.extend.size, before.heap.inside_alloc _⟩
      · exact allocated.unpacking.known entry known
  · exact allocated.size
  · exact allocated.kind

/-! ### Parts of a node -/

section Parts

theorem ends_decodeAll (nodes : List Node) (each : ∀ part ∈ nodes, Unpacks environments part)
    (before : Rebuild) (unpacking : Unpacking environments base before) :
    Ends (decodeAll environments nodes) before
      (fun refs after => Unpacked environments base before after ∧
        ∀ ref ∈ refs, environments.Offers base after.heap ref)
      (fun _ after => Unpacking environments base after) := by
  induction nodes generalizing before with
  | nil =>
      rw [decodeAll]
      exact Ends.pure ⟨.refl unpacking, fun _ member => nomatch member⟩
  | cons node rest ih =>
      rw [decodeAll]
      apply Ends.bind
      apply (each node List.mem_cons_self base before unpacking).mono _ fun _ _ spoiled => spoiled
      intro ref middle first
      apply Ends.bind
      apply (ih (fun part member => each part (List.mem_cons_of_mem _ member)) middle
        first.1.unpacking).mono _ fun _ _ spoiled => spoiled
      intro refs after second
      apply Ends.pure
      constructor
      · exact first.1.trans second.1
      · intro other member
        rcases List.mem_cons.mp member with same | later
        · rw [same]
          exact first.2.later second.1.size
        · exact second.2 other later

theorem ends_decodeEntries (entries : List (String × Node))
    (each : ∀ part ∈ entries.map Prod.snd, Unpacks environments part) (before : Rebuild)
    (unpacking : Unpacking environments base before) :
    Ends (decodeEntries environments entries) before
      (fun decoded after => Unpacked environments base before after ∧
        ∀ ref ∈ decoded.map Prod.snd, environments.Offers base after.heap ref)
      (fun _ after => Unpacking environments base after) := by
  induction entries generalizing before with
  | nil =>
      rw [decodeEntries]
      exact Ends.pure ⟨.refl unpacking, fun _ member => nomatch member⟩
  | cons entry rest ih =>
      obtain ⟨name, node⟩ := entry
      rw [decodeEntries]
      apply Ends.bind
      apply (each node List.mem_cons_self base before unpacking).mono _ fun _ _ spoiled => spoiled
      intro ref middle first
      apply Ends.bind
      apply (ih (fun part member => each part (List.mem_cons_of_mem _ member)) middle
        first.1.unpacking).mono _ fun _ _ spoiled => spoiled
      intro decoded after second
      apply Ends.pure
      constructor
      · exact first.1.trans second.1
      · intro other member
        rcases List.mem_cons.mp member with same | later
        · rw [same]
          exact first.2.later second.1.size
        · exact second.2 other later

theorem ends_decodeOptional (optional : Option Node)
    (each : ∀ part ∈ optional.toList, Unpacks environments part)
    (unpacking : Unpacking environments base before) :
    Ends (decodeOptional environments optional) before
      (fun decoded after => Unpacked environments base before after ∧
        ∀ ref ∈ decoded.toList, environments.Offers base after.heap ref)
      (fun _ after => Unpacking environments base after) := by
  cases optional with
  | none =>
      rw [decodeOptional]
      exact Ends.pure ⟨.refl unpacking, fun _ member => nomatch member⟩
  | some node =>
      rw [decodeOptional]
      apply Ends.bind
      apply (each node List.mem_cons_self base before unpacking).mono _ fun _ _ spoiled => spoiled
      intro ref after first
      apply Ends.pure
      constructor
      · exact first.1
      · intro other member
        rw [List.mem_singleton.mp member]
        exact first.2

theorem ends_decodeBindings {env : Ref} (bindings : List (String × Node))
    (each : ∀ part ∈ bindings.map Prod.snd, Unpacks environments part) (before : Rebuild)
    (unpacking : Unpacking environments base before) (new : base.size ≤ env.index)
    (inside : env.index < before.heap.size) :
    Ends (decodeBindings environments env bindings) before
      (fun _ after => Unpacked environments base before after)
      (fun _ after => Unpacking environments base after) := by
  induction bindings generalizing before with
  | nil =>
      rw [decodeBindings]
      exact Ends.pure (.refl unpacking)
  | cons entry rest ih =>
      obtain ⟨name, node⟩ := entry
      rw [decodeBindings]
      apply Ends.bind
      apply (each node List.mem_cons_self base before unpacking).mono _ fun _ _ spoiled => spoiled
      intro ref middle first
      have there : env.index < middle.heap.size := Nat.lt_of_lt_of_le inside first.1.size
      have defined := first.1.unpacking.write new (middle.heap.size_define env name ref)
        (fun _ apart => middle.heap.get_define_other name ref apart)
        (middle.heap.kind_modifyFrame env env _) (by
          intro child member
          rcases Heap.children_define member with same | old
          · rw [same]
            exact first.2
          · exact first.1.unpacking.closed env new there child old)
      apply Ends.bind
      apply Ends.modifyGet
      apply (ih (fun part member => each part (List.mem_cons_of_mem _ member)) _
        defined.unpacking (Nat.lt_of_lt_of_le there defined.size)).mono _ fun _ _ spoiled => spoiled
      intro _ after second
      exact (first.1.trans defined).trans second

/-- What an item is read into: something that may be offered, and a new object where attributes
are going to be added to it. -/
def Made (environments : Environments) (base : Heap) (item : NodeItem) (before : Rebuild)
    (ref : Ref) (after : Rebuild) : Prop :=
  Unpacked environments base before after ∧ environments.Offers base after.heap ref ∧
    (item.keepsAttributes = true → base.size ≤ ref.index ∧ ref.index < after.heap.size)

theorem ends_alloc {item : NodeItem} (body : Body) (first : Unpacked environments base before middle)
    (children : ∀ child ∈ body.children, environments.Offers base middle.heap child) :
    Ends (Rebuilding.alloc body : Decoding Ref) middle (Made environments base item before)
      (fun _ after => Unpacking environments base after) := by
  have made := first.unpacking.alloc children
  have place : base.size ≤ (middle.heap.alloc body).1.index ∧
      (middle.heap.alloc body).1.index < (middle.heap.alloc body).2.size :=
    ⟨first.unpacking.extend.size, middle.heap.inside_alloc body⟩
  apply Ends.modifyGet
  exact ⟨first.trans made, Or.inl place, fun _ => place⟩

theorem ends_environment {id : UInt32} {bindings : List (String × Node)} {parent : Option Node}
    (ofParts : ∀ part ∈ (NodeItem.environment id bindings parent).parts,
      Unpacks environments part) (unpacking : Unpacking environments base before) :
    Ends ((NodeItem.environment id bindings parent).decode environments) before
      (Made environments base (.environment id bindings parent) before)
      (fun _ after => Unpacking environments base after) := by
  have entered := unpacking.enter id
  have new : base.size ≤ before.heap.size := unpacking.extend.size
  rw [NodeItem.decode]
  apply Ends.bind
  apply Ends.modifyGet
  apply Ends.bind
  apply Ends.modifyGet
  apply Ends.bind
  apply (ends_decodeBindings bindings
    (fun part member => ofParts part (List.mem_append_left _ member)) _ entered.unpacking new
    (before.heap.inside_alloc _)).mono _
    fun _ _ spoiled => spoiled
  intro _ bound first
  have there : before.heap.size < bound.heap.size :=
    Nat.lt_of_lt_of_le (before.heap.inside_alloc _) first.size
  apply Ends.bind
  apply (ends_decodeOptional parent (fun part member =>
    ofParts part (List.mem_append_right _ member)) first.unpacking).mono _
    fun _ _ spoiled => spoiled
  intro enclosing enclosed second
  have before' := (entered.trans first).trans second.1
  have there' : before.heap.size < enclosed.heap.size := Nat.lt_of_lt_of_le there second.1.size
  cases enclosing with
  | none =>
      apply Ends.pure
      exact ⟨before', Or.inl ⟨new, there'⟩, fun _ => ⟨new, there'⟩⟩
  | some parent =>
      have settled : Unpacked environments base enclosed
          { enclosed with heap := enclosed.heap.setParent ⟨before.heap.size⟩ parent } := by
        apply second.1.unpacking.write new (enclosed.heap.size_setParent _ parent)
          (fun _ apart => enclosed.heap.get_setParent_other parent apart)
          (enclosed.heap.kind_modifyFrame _ _ _)
        intro child member
        rcases Heap.children_setParent member with same | old
        · rw [same]
          exact second.2 parent List.mem_cons_self
        · exact second.1.unpacking.closed _ new there' child old
      have last : before.heap.size < (enclosed.heap.setParent ⟨before.heap.size⟩ parent).size :=
        Nat.lt_of_lt_of_le there' settled.size
      apply Ends.bind
      apply Ends.modifyGet
      apply Ends.pure
      exact ⟨before'.trans settled, Or.inl ⟨new, last⟩, fun _ => ⟨new, last⟩⟩

theorem ends_item (item : NodeItem) (ofParts : ∀ part ∈ item.parts, Unpacks environments part)
    (unpacking : Unpacking environments base before) :
    Ends (item.decode environments) before (Made environments base item before)
      (fun _ after => Unpacking environments base after) := by
  cases item with
  | null =>
      rw [NodeItem.decode]
      apply Ends.pure
      exact ⟨.refl unpacking, Or.inr (Or.inl rfl), fun impossible => nomatch impossible⟩
  | unbound =>
      rw [NodeItem.decode]
      apply Ends.pure
      exact ⟨.refl unpacking, Or.inr (Or.inr (Or.inl rfl)), fun impossible => nomatch impossible⟩
  | vector data =>
      rw [NodeItem.decode]
      exact ends_alloc _ (.refl unpacking) fun _ member => nomatch member
  | list items =>
      rw [NodeItem.decode]
      apply Ends.bind
      apply (ends_decodeAll items ofParts before unpacking).mono _ fun _ _ spoiled => spoiled
      intro refs middle first
      exact ends_alloc (.list refs) first.1 first.2
  | environment id bindings parent => exact ends_environment ofParts unpacking
  | environmentRef id =>
      rw [NodeItem.decode]
      unfold Rebuilding.resolve
      apply Ends.bind
      apply Ends.get
      cases found : before.environments.lookup id with
      | none => exact Ends.throw unpacking
      | some env =>
          obtain ⟨front, back, split, _⟩ := List.lookup_eq_some_iff.mp found
          have member : (id, env) ∈ before.environments := by
            rw [split]
            exact List.mem_append_right _ List.mem_cons_self
          apply Ends.pure
          exact ⟨.refl unpacking, Or.inl (unpacking.known _ member),
            fun impossible => nomatch impossible⟩
  | named kind =>
      rw [NodeItem.decode]
      cases found : environments.find? kind with
      | none => exact Ends.throw unpacking
      | some env =>
          apply Ends.pure
          exact ⟨.refl unpacking, Or.inr (Or.inr (Or.inr ⟨kind, found⟩)),
            fun impossible => nomatch impossible⟩
  | promise expr env value =>
      rw [NodeItem.decode]
      apply Ends.bind
      apply (ends_decodeOptional env (fun part member =>
        ofParts part (List.mem_append_left _ member)) unpacking).mono _ fun _ _ spoiled => spoiled
      intro env' middle first
      apply Ends.bind
      apply (ends_decodeOptional value (fun part member =>
        ofParts part (List.mem_append_right _ member)) first.1.unpacking).mono _
        fun _ _ spoiled => spoiled
      intro value' later second
      apply ends_alloc _ (first.1.trans second.1)
      intro child member
      rcases List.mem_append.mp member with ofEnv | ofValue
      · exact (first.2 child ofEnv).later second.1.size
      · exact second.2 child ofValue
  | closure formals body env =>
      rw [NodeItem.decode]
      apply Ends.bind
      apply (ofParts env List.mem_cons_self base before unpacking).mono _
        fun _ _ spoiled => spoiled
      intro env' middle first
      apply ends_alloc _ first.1
      intro child member
      rw [List.mem_singleton.mp member]
      exact first.2
  | language expr =>
      rw [NodeItem.decode]
      exact ends_alloc _ (.refl unpacking) fun _ member => nomatch member
  | connection connection =>
      rw [NodeItem.decode]
      exact ends_alloc _ (.refl unpacking) fun _ member => nomatch member

end Parts

/-- Every node is read into something that may be offered. -/
theorem unpacks (environments : Environments) (node : Node) : Unpacks environments node := by
  induction node using Node.induct with
  | step item attributes ofParts ofAttributes =>
      intro base before unpacking
      rw [decode]
      apply Ends.bind
      apply (ends_item item ofParts unpacking).mono _ fun _ _ spoiled => spoiled
      intro ref middle made
      split
      · rename_i keeps
        have kept : item.keepsAttributes = true := (Bool.and_eq_true_iff.mp keeps).1
        obtain ⟨new, inside⟩ := made.2.2 kept
        apply Ends.bind
        apply (ends_decodeEntries attributes ofAttributes middle made.1.unpacking).mono _
          fun _ _ spoiled => spoiled
        intro entries later decoded
        have there : ref.index < later.heap.size := Nat.lt_of_lt_of_le inside decoded.1.size
        have furnished : Unpacked environments base later { later with
            heap := later.heap.replaceAttributes ref (some (Attributes.ofList entries)) } := by
          apply decoded.1.unpacking.write new (later.heap.size_replaceAttributes ref _)
            (fun _ apart => later.heap.get_replaceAttributes_other _ apart)
            (later.heap.kind_replaceAttributes ref ref _)
          intro child member
          rcases Heap.children_replaceAttributes there member with old | added
          · exact decoded.1.unpacking.closed ref new there child old
          · obtain ⟨entry, present, same⟩ := List.mem_map.mp added
            rw [← same]
            exact decoded.2 _ (Attributes.mem_ofList present)
        apply Ends.bind
        apply Ends.modifyGet
        apply Ends.pure
        constructor
        · exact (made.1.trans decoded.1).trans furnished
        · exact Or.inl ⟨new, Nat.lt_of_lt_of_le there furnished.size⟩
      · apply Ends.pure
        exact ⟨made.1, made.2.1⟩

end Node

namespace Codec

/-- Whatever bytes the codec is given, it writes to new objects alone, which refer to nothing that
was there but what the context offers. -/
def Secluded (codec : Codec) : Prop :=
  ∀ environments blob before, Ends (codec.unserialize environments blob) before
    (environments.Reads before) (fun _ => environments.Adds before)

theorem secluded_packed : packed.Secluded := by
  intro environments blob before
  unfold Ends packed unserializePacked
  dsimp only
  cases readPacked Node.decoder blob with
  | error reason =>
      have start := Node.Unpacking.start environments before
      exact ⟨start.extend, start.closed⟩
  | ok node =>
      have ends := Node.unpacks environments node before _ (.start environments before)
      unfold Ends at ends
      dsimp only
      split at ends
      · rename_i ref after ended
        rw [ended]
        obtain ⟨unpacked, offered⟩ := ends
        exact ⟨unpacked.unpacking.extend, offered, unpacked.unpacking.closed⟩
      · rename_i reason after ended
        rw [ended]
        exact ⟨ends.extend, ends.closed⟩

/-- Whatever bytes are read, only new objects are written to. -/
theorem reads_packed (environments : Environments) (blob : Bytes) (before : Heap) :
    Ends (packed.unserialize environments blob) before (environments.Reads before)
      (fun _ => before.Extends) :=
  (secluded_packed environments blob before).mono (fun _ _ reads => reads)
    fun _ _ adds => adds.extend

end Codec

end ValueChannels
