import ValueChannels.Message.ToValue
import ValueChannels.Proofs.Graph.Reading
import ValueChannels.Proofs.Transfer.Handing

/-!
What building a value writes to, whenever that is done and whatever the heap has become. A message
writes to its own private copies and to what is made while it is built; of all other objects only
the singletons may get attributes. Main statements: `receives` for all messages, `upholds_toValue`
for whole ones.
-/

namespace ValueChannels.Message

variable {hidden mine : Ref → Prop} {base : Nat} {context : Context}
  {before middle after : Rebuild} {ref : Ref} {message : Message}

/-- What a message meets that is built in a heap of the given size: every later object is its own,
and what is hidden belongs to others. -/
structure Ground (hidden mine : Ref → Prop) (base : Nat) (context : Context) : Prop where
  fresh : ∀ ref, base ≤ ref.index → mine ref
  apart : ∀ ref, mine ref → ¬hidden ref
  singleton : ∀ ref, ref = Ref.null ∨ ref = Ref.unbound → ¬mine ref ∧ ¬hidden ref
  owned : ∀ ref, context.environments.Owns ref → ¬mine ref ∧ ¬hidden ref
  codec : context.codec.Secluded

/-- A state on the way, in which only new environments are known. -/
structure Fitting (hidden : Ref → Prop) (base : Nat) (context : Context) (state : Rebuild) :
    Prop where
  size : base ≤ state.heap.size
  closed : state.heap.Closed hidden
  singleton : ∀ ref, ref = Ref.null ∨ ref = Ref.unbound → state.heap.isShared ref = true ∧
    (state.heap.body ref).isSingleton = true
  environments : context.environments.Sound state.heap
  known : ∀ entry ∈ state.environments,
    base ≤ entry.2.index ∧ entry.2.index < state.heap.size

/-- What attributes may be installed on. -/
def Attachable (mine : Ref → Prop) (context : Context) (ref : Ref) : Prop :=
  mine ref ∨ (ref = Ref.null ∨ ref = Ref.unbound) ∨ context.environments.Owns ref

/-- A step of the building that ends with something to go on with. -/
structure Proceeds (hidden mine : Ref → Prop) (base : Nat) (context : Context)
    (before after : Rebuild) : Prop where
  upholds : Heap.Upholds hidden mine before.heap after.heap
  fitting : Fitting hidden base context after

/-- The message can be built: it mentions what is public, and writes to what is its own. -/
structure Suits (hidden mine : Ref → Prop) (base : Nat) (message : Message) : Prop where
  mentions : ∀ ref, message.Mentions ref → ref.index < base ∧ ¬hidden ref
  writes : ∀ ref, message.Writes ref → mine ref

/-- The message is built to a public value, on which attributes may be installed unless the value
was handed over. -/
def Receives (hidden mine : Ref → Prop) (base : Nat) (context : Context) (message : Message) :
    Prop :=
  ∀ before, Fitting hidden base context before →
    Ends (message.build context) before
      (fun result after => Proceeds hidden mine base context before after ∧
        after.heap.Public hidden result ∧
          (message = .plain result ∨ Attachable mine context result))
      (fun _ after => Heap.Upholds hidden mine before.heap after.heap)

theorem Suits.part {part : Message} (suits : Suits hidden mine base message)
    (member : part ∈ message.parts) : Suits hidden mine base part :=
  ⟨fun ref mentions => suits.mentions ref (.part member mentions),
    fun ref writes => suits.writes ref (.part member writes)⟩

theorem Proceeds.refl (fitting : Fitting hidden base context before) :
    Proceeds hidden mine base context before before :=
  ⟨.refl _ _ _, fitting⟩

theorem Proceeds.trans (first : Proceeds hidden mine base context before middle)
    (second : Proceeds hidden mine base context middle after) :
    Proceeds hidden mine base context before after :=
  ⟨first.upholds.trans second.upholds, second.fitting⟩

theorem Proceeds.andThen {build : Building Ref}
    (first : Proceeds hidden mine base context before middle)
    (rest : Ends build middle
      (fun result after => Proceeds hidden mine base context middle after ∧
        after.heap.Public hidden result ∧ Attachable mine context result)
      (fun _ after => Heap.Upholds hidden mine middle.heap after.heap)) :
    Ends build middle
      (fun result after => Proceeds hidden mine base context before after ∧
        after.heap.Public hidden result ∧
          (message = .plain result ∨ Attachable mine context result))
      (fun _ after => Heap.Upholds hidden mine before.heap after.heap) := by
  apply rest.mono
  · intro result after last
    exact ⟨first.trans last.1, last.2.1, Or.inr last.2.2⟩
  · intro _ after upholds
    exact first.upholds.trans upholds

namespace Fitting

theorem room (fitting : Fitting hidden base context before)
    (ground : Ground hidden mine base context) (ref : Ref) (isHidden : hidden ref) :
    ref.index < before.heap.size := by
  refine Nat.lt_of_not_le ?_
  intro new
  exact ground.apart ref (ground.fresh ref (Nat.le_trans fitting.size new)) isHidden

theorem isPublic_singleton (fitting : Fitting hidden base context before)
    (ground : Ground hidden mine base context) (singleton : ref = Ref.null ∨ ref = Ref.unbound) :
    before.heap.Public hidden ref :=
  ⟨Heap.inside_of_shared (fitting.singleton ref singleton).1, (ground.singleton ref singleton).2⟩

theorem isPublic_owned (fitting : Fitting hidden base context before)
    (ground : Ground hidden mine base context) (owns : context.environments.Owns ref) :
    before.heap.Public hidden ref := by
  obtain ⟨kind, found⟩ := owns
  exact ⟨fitting.environments.inside found, (ground.owned ref ⟨kind, found⟩).2⟩

theorem isPublic_fresh (fitting : Fitting hidden base context before)
    (ground : Ground hidden mine base context) {heap : Heap} (new : before.heap.size ≤ ref.index)
    (inside : ref.index < heap.size) : heap.Public hidden ref :=
  ⟨inside, ground.apart ref (ground.fresh ref (Nat.le_trans fitting.size new))⟩

theorem isPublic_offered (fitting : Fitting hidden base context before)
    (ground : Ground hidden mine base context) {heap : Heap}
    (size : before.heap.size ≤ heap.size)
    (offers : context.environments.Offers before.heap heap ref) :
    heap.Public hidden ref := by
  rcases offers with made | isNull | isUnbound | owns
  · exact fitting.isPublic_fresh ground made.1 made.2
  · exact (fitting.isPublic_singleton ground (Or.inl isNull)).later size
  · exact (fitting.isPublic_singleton ground (Or.inr isUnbound)).later size
  · exact (fitting.isPublic_owned ground owns).later size

theorem attachable_offered (fitting : Fitting hidden base context before)
    (ground : Ground hidden mine base context) {heap : Heap}
    (offers : context.environments.Offers before.heap heap ref) :
    Attachable mine context ref := by
  rcases offers with made | isNull | isUnbound | owns
  · exact Or.inl (ground.fresh ref (Nat.le_trans fitting.size made.1))
  · exact Or.inr (Or.inl (Or.inl isNull))
  · exact Or.inr (Or.inl (Or.inr isUnbound))
  · exact Or.inr (Or.inr owns)

/-- A step that upholds the heap leads from one such state to another. -/
theorem next (fitting : Fitting hidden base context before)
    (ground : Ground hidden mine base context)
    (upholds : Heap.Upholds hidden mine before.heap after.heap)
    (known : ∀ entry ∈ after.environments,
      entry ∈ before.environments ∨
        (before.heap.size ≤ entry.2.index ∧ entry.2.index < after.heap.size)) :
    Proceeds hidden mine base context before after := by
  refine ⟨upholds, Nat.le_trans fitting.size upholds.size, upholds.closed fitting.closed,
    ?_, ?_, ?_⟩
  · intro ref singleton
    have here := fitting.singleton ref singleton
    have stays := upholds.same ref ⟨here.1, Body.isData_of_isSingleton here.2⟩
      (ground.singleton ref singleton).1
    refine ⟨stays.shared, ?_⟩
    rw [Heap.body, stays.body]
    exact here.2
  · intro kind ref found
    obtain ⟨frame, body, same⟩ := fitting.environments kind ref found
    obtain ⟨frame', body', same'⟩ := upholds.frame ref frame (ground.owned ref ⟨kind, found⟩).1 body
    exact ⟨frame', body', same'.trans same⟩
  · intro entry member
    rcases known entry member with old | new
    · have bounds := fitting.known entry old
      exact ⟨bounds.1, Nat.lt_of_lt_of_le bounds.2 upholds.size⟩
    · exact ⟨Nat.le_trans fitting.size new.1, new.2⟩

theorem withHeap (fitting : Fitting hidden base context before)
    (ground : Ground hidden mine base context) {heap : Heap}
    (upholds : Heap.Upholds hidden mine before.heap heap) :
    Proceeds hidden mine base context before { before with heap } :=
  fitting.next ground upholds fun _ member => Or.inl member

end Fitting

theorem upholds_install {entries : List (String × Ref)}
    (fitting : Fitting hidden base context before) (attachable : Attachable mine context ref)
    (isPublic : ∀ value ∈ entries.map Prod.snd, before.heap.Public hidden value) :
    Heap.Upholds hidden mine before.heap (install before.heap ref entries) := by
  unfold install
  split
  · rename_i accepts
    apply Heap.Upholds.replaceAttributes
    · rcases attachable with own | singleton | ⟨kind, found⟩
      · exact Or.inl own
      · exact Or.inr fun _ => (fitting.singleton ref singleton).2
      · obtain ⟨frame, body, same⟩ := fitting.environments kind ref found
        have framed := before.heap.frame?_eq_some.mpr body
        have isLocal : frame.kind.isLocal = true := by
          simpa only [acceptsAttributes, framed] using accepts
        rw [same, Environments.isLocal_of_find? found] at isLocal
        cases isLocal
    · intro _ child member
      obtain ⟨entry, present, same⟩ := List.mem_map.mp member
      rw [← same]
      exact isPublic _ (Attributes.mem_ofList present)
  · exact .refl _ _ _

section Steps

variable (ground : Ground hidden mine base context)
  (fitting : Fitting hidden base context before)

include ground fitting

theorem upholds_adds {heap : Heap}
    (adds : context.environments.Adds before.heap heap) :
    Heap.Upholds hidden mine before.heap heap := by
  apply Heap.Upholds.extend adds.extend.size adds.extend.same
  intro _ ref new child member
  by_cases inside : ref.index < heap.size
  · exact fitting.isPublic_offered ground adds.extend.size
      (adds.closed ref new inside child member)
  · exact (Heap.children_outside (Nat.le_of_not_lt inside) member).elim

theorem receives_unserialize (blob : Bytes) :
    Ends (Building.unserialize context blob) before
      (fun result after => Proceeds hidden mine base context before after ∧
        after.heap.Public hidden result ∧ Attachable mine context result)
      (fun _ after => Heap.Upholds hidden mine before.heap after.heap) := by
  have ends := ground.codec context.environments blob before.heap
  unfold Ends at ends ⊢
  unfold Building.unserialize
  cases read : context.codec.unserialize context.environments blob before.heap with
  | error reason heap =>
      rw [read] at ends
      exact upholds_adds ground fitting ends
  | ok result heap =>
      rw [read] at ends
      have proceeds := fitting.withHeap ground
        (upholds_adds ground fitting ⟨ends.extend, ends.closed⟩)
      exact ⟨proceeds, fitting.isPublic_offered ground ends.extend.size ends.result,
        fitting.attachable_offered ground ends.result⟩

theorem receives_enterElement {shell element : Ref} (index : Nat) (own : mine shell)
    (owned : before.heap.Public hidden shell) (isPublic : before.heap.Public hidden element) :
    Ends (Building.enterElement shell index element) before
      (fun result after => Proceeds hidden mine base context before after ∧
        after.heap.Public hidden result ∧ mine result)
      (fun _ after => Heap.Upholds hidden mine before.heap after.heap) := by
  have moves := Heap.moves_setElement mine (fitting.room ground) owned index isPublic
  unfold Building.enterElement
  apply Ends.bind
  apply Ends.modifyGet
  dsimp only
  split
  · apply Ends.pure
    refine ⟨fitting.withHeap ground moves.upholds,
      moves.isPublic (fitting.room ground) owned, ?_⟩
    rcases moves.place with same | new
    · rw [same]
      exact own
    · exact ground.fresh _ (Nat.le_trans fitting.size new)
  · exact Ends.throw moves.upholds

theorem receives_alloc {body : Body}
    (closed : ∀ child ∈ body.children, before.heap.Public hidden child) :
    Ends (Rebuilding.alloc body : Building Ref) before
      (fun result after => Proceeds hidden mine base context before after ∧
        after.heap.Public hidden result ∧ Attachable mine context result)
      (fun _ after => Heap.Upholds hidden mine before.heap after.heap) := by
  apply Ends.modifyGet
  have index : (before.heap.alloc body).1.index = before.heap.size := before.heap.index_alloc body
  have inside := before.heap.inside_alloc body
  refine ⟨fitting.withHeap ground (.alloc fun _ => closed),
    fitting.isPublic_fresh ground (Nat.le_of_eq index.symm) inside, Or.inl ?_⟩
  apply ground.fresh
  rw [index]
  exact fitting.size

end Steps

/-! ### Parts -/

section Parts

theorem receives_buildEntries (entries : List (String × Message))
    (each : ∀ part ∈ entries.map Prod.snd, Receives hidden mine base context part) (before : Rebuild)
    (fitting : Fitting hidden base context before) :
    Ends (buildEntries context entries) before
      (fun built after => Proceeds hidden mine base context before after ∧
        ∀ value ∈ built.map Prod.snd, after.heap.Public hidden value)
      (fun _ after => Heap.Upholds hidden mine before.heap after.heap) := by
  induction entries generalizing before with
  | nil =>
      rw [buildEntries]
      exact Ends.pure ⟨.refl fitting, fun _ member => nomatch member⟩
  | cons entry rest ih =>
      obtain ⟨name, message⟩ := entry
      rw [buildEntries]
      apply Ends.bind
      apply (each message List.mem_cons_self before fitting).mono _ fun _ _ upholds => upholds
      intro ref middle first
      apply Ends.bind
      apply (ih (fun part member => each part (List.mem_cons_of_mem _ member)) middle
        first.1.fitting).mono _ fun _ _ upholds => first.1.upholds.trans upholds
      intro built after second
      apply Ends.pure
      constructor
      · exact first.1.trans second.1
      · intro value member
        rcases List.mem_cons.mp member with same | later
        · rw [same]
          exact first.2.1.later second.1.upholds.size
        · exact second.2 value later

theorem receives_buildOptional (optional : Option Message)
    (each : ∀ part ∈ optional.toList, Receives hidden mine base context part)
    (fitting : Fitting hidden base context before) :
    Ends (buildOptional context optional) before
      (fun built after => Proceeds hidden mine base context before after ∧
        ∀ value ∈ built.toList, after.heap.Public hidden value)
      (fun _ after => Heap.Upholds hidden mine before.heap after.heap) := by
  cases optional with
  | none =>
      rw [buildOptional]
      exact Ends.pure ⟨.refl fitting, fun _ member => nomatch member⟩
  | some message =>
      rw [buildOptional]
      apply Ends.bind
      apply (each message List.mem_cons_self before fitting).mono _ fun _ _ upholds => upholds
      intro ref after first
      apply Ends.pure
      constructor
      · exact first.1
      · intro value member
        rw [List.mem_singleton.mp member]
        exact first.2.1

variable (ground : Ground hidden mine base context)

include ground

theorem receives_buildBindings {env : Ref} (new : base ≤ env.index)
    (bindings : List (String × Message))
    (each : ∀ part ∈ bindings.map Prod.snd, Receives hidden mine base context part) (before : Rebuild)
    (fitting : Fitting hidden base context before) :
    Ends (buildBindings context env bindings) before
      (fun _ after => Proceeds hidden mine base context before after)
      (fun _ after => Heap.Upholds hidden mine before.heap after.heap) := by
  have uncovered : ¬hidden env := ground.apart env (ground.fresh env new)
  induction bindings generalizing before with
  | nil =>
      rw [buildBindings]
      exact Ends.pure (.refl fitting)
  | cons entry rest ih =>
      obtain ⟨name, message⟩ := entry
      rw [buildBindings]
      apply Ends.bind
      apply (each message List.mem_cons_self before fitting).mono _ fun _ _ upholds => upholds
      intro ref middle first
      apply Ends.bind
      apply Ends.modifyGet
      have defined := first.1.trans (first.1.fitting.withHeap ground
        (.define name uncovered first.2.1))
      apply (ih (fun part member => each part (List.mem_cons_of_mem _ member)) _ defined.fitting).mono _
        fun _ _ upholds => defined.upholds.trans upholds
      intro _ after second
      exact defined.trans second

/-- The elements of a list are entered into its private copy, or into what has taken its place. -/
theorem receives_fillList (items : List Message)
    (each : ∀ part ∈ items, Receives hidden mine base context part) (shell : Ref) (index : Nat)
    (before : Rebuild) (fitting : Fitting hidden base context before) (own : mine shell)
    (owned : before.heap.Public hidden shell) :
    Ends (fillList context shell index items) before
      (fun result after => Proceeds hidden mine base context before after ∧
        after.heap.Public hidden result ∧ mine result)
      (fun _ after => Heap.Upholds hidden mine before.heap after.heap) := by
  induction items generalizing before shell index with
  | nil =>
      rw [fillList]
      exact Ends.pure ⟨.refl fitting, owned, own⟩
  | cons item rest ih =>
      rw [fillList]
      apply Ends.bind
      apply (each item List.mem_cons_self before fitting).mono _
        fun _ _ upholds => upholds
      intro element middle first
      apply Ends.bind
      apply (receives_enterElement ground first.1.fitting index own
        (owned.later first.1.upholds.size) first.2.1).mono _
        fun _ _ upholds => first.1.upholds.trans upholds
      intro shell' entered second
      have both := first.1.trans second.1
      apply (ih (fun part member => each part (List.mem_cons_of_mem _ member)) shell' (index + 1) entered
        second.1.fitting second.2.2 second.2.1).mono _ fun _ _ upholds => both.upholds.trans upholds
      intro result after third
      exact ⟨both.trans third.1, third.2⟩

theorem receives_attach (attributes : Option (List (String × Message)))
    (each : ∀ part ∈ (attributes.getD []).map Prod.snd, Receives hidden mine base context part)
    (fitting : Fitting hidden base context before) (isPublic : before.heap.Public hidden ref)
    (attachable : Attachable mine context ref) :
    Ends (attach context ref attributes) before
      (fun result after => Proceeds hidden mine base context before after ∧
        after.heap.Public hidden result ∧ Attachable mine context result)
      (fun _ after => Heap.Upholds hidden mine before.heap after.heap) := by
  cases attributes with
  | none =>
      rw [attach]
      exact Ends.pure ⟨.refl fitting, isPublic, attachable⟩
  | some attributes =>
      rw [attach]
      apply Ends.bind
      apply (receives_buildEntries attributes each before fitting).mono _
        fun _ _ upholds => upholds
      intro entries middle first
      apply Ends.bind
      apply Ends.modifyGet
      apply Ends.pure
      have installed := upholds_install first.1.fitting attachable first.2
      have proceeds := first.1.trans (first.1.fitting.withHeap ground installed)
      exact ⟨proceeds, isPublic.later proceeds.upholds.size, attachable⟩

end Parts

theorem receives_environment (ground : Ground hidden mine base context) {id : UInt32}
    {bindings : List (String × Message)} {parent : Option Message}
    {attributes : Option (List (String × Message))}
    (each : ∀ part ∈ (Message.environment id bindings parent attributes).parts,
      Receives hidden mine base context part) :
    Receives hidden mine base context (.environment id bindings parent attributes) := by
  intro before fitting
  have ofBindings := fun part member => each part (List.mem_append_left _ member)
  have ofParent := fun part member =>
    each part (List.mem_append_right _ (List.mem_append_left _ member))
  have ofValues := fun part member =>
    each part (List.mem_append_right _ (List.mem_append_right _ member))
  -- The environment is known under its id before its parts are built, since they may refer to it.
  let entered : Rebuild :=
    { heap := (before.heap.allocLocal context.environments.empty).2
      environments := (id, ⟨before.heap.size⟩) :: before.environments }
  have size : entered.heap.size = before.heap.size + 1 := before.heap.size_alloc _
  have made : Proceeds hidden mine base context before entered := by
    apply fitting.next ground
    · apply Heap.Upholds.alloc
      intro _ child member
      rw [List.mem_singleton.mp member]
      exact fitting.isPublic_owned ground ⟨.empty, rfl⟩
    · intro entry member
      rcases List.mem_cons.mp member with same | old
      · rw [same, size]
        exact Or.inr ⟨Nat.le_refl _, Nat.lt_succ_self _⟩
      · exact Or.inl old
  have new : base ≤ before.heap.size := fitting.size
  have own : mine ⟨before.heap.size⟩ := ground.fresh _ new
  have isPublic : entered.heap.Public hidden ⟨before.heap.size⟩ := by
    refine ⟨?_, ground.apart _ own⟩
    rw [size]
    exact Nat.lt_succ_self _
  rw [build]
  apply Ends.bind
  apply Ends.modifyGet
  apply Ends.bind
  apply Ends.modifyGet
  apply Ends.bind
  apply (receives_buildBindings ground new bindings ofBindings entered made.fitting).mono _
    fun _ _ upholds => made.upholds.trans upholds
  intro _ bound defined
  have first := made.trans defined
  apply Ends.bind
  apply (receives_buildOptional parent ofParent defined.fitting).mono _
    fun _ _ upholds => first.upholds.trans upholds
  intro enclosing enclosed around
  have second := first.trans around.1
  have there := isPublic.later (defined.upholds.trans around.1.upholds).size
  cases enclosing with
  | none =>
      exact second.andThen
        (receives_attach ground attributes ofValues second.fitting there (Or.inl own))
  | some parent =>
      have settled := second.trans (second.fitting.withHeap ground
        (.setParent (ground.apart _ own) (around.2 parent List.mem_cons_self)))
      apply Ends.bind
      apply Ends.modifyGet
      have size := Heap.size_setParent enclosed.heap ⟨before.heap.size⟩ parent
      exact settled.andThen (receives_attach ground attributes ofValues settled.fitting
        (there.later (Nat.le_of_eq size.symm)) (Or.inl own))

theorem receives_promise (ground : Ground hidden mine base context) {env value : Option Message}
    {expr : Bytes}
    (each : ∀ part ∈ (Message.promise env value expr).parts,
      Receives hidden mine base context part) :
    Receives hidden mine base context (.promise env value expr) := by
  intro before fitting
  rw [build]
  split
  · exact Ends.throw (.refl _ _ _)
  · apply Ends.bind
    apply (receives_buildOptional env (fun part member =>
      each part (List.mem_append_left _ member)) fitting).mono _ fun _ _ upholds => upholds
    intro env' middle first
    apply Ends.bind
    apply (receives_buildOptional value (fun part member =>
      each part (List.mem_append_right _ member)) first.1.fitting).mono _
      fun _ _ upholds => first.1.upholds.trans upholds
    intro value' later second
    have both := first.1.trans second.1
    apply both.andThen
    apply receives_alloc ground second.1.fitting
    intro child member
    rcases List.mem_append.mp member with around | content
    · exact (first.2 child around).later second.1.upholds.size
    · exact second.2 child content

theorem receives_plain (suits : Suits hidden mine base (.plain ref)) :
    Receives hidden mine base context (.plain ref) := by
  intro before fitting
  have mentioned := suits.mentions ref (.own List.mem_cons_self)
  rw [build]
  exact Ends.pure ⟨.refl fitting,
    ⟨Nat.lt_of_lt_of_le mentioned.1 fitting.size, mentioned.2⟩, Or.inl rfl⟩

theorem receives_list (ground : Ground hidden mine base context) {shell : Ref}
    {items : List Message} {attributes : Option (List (String × Message))}
    (suits : Suits hidden mine base (.list shell items attributes))
    (each : ∀ part ∈ (Message.list shell items attributes).parts,
      Receives hidden mine base context part) :
    Receives hidden mine base context (.list shell items attributes) := by
  intro before fitting
  have mentioned := suits.mentions shell (.own List.mem_cons_self)
  have own := suits.writes shell (.own List.mem_cons_self)
  have owned : before.heap.Public hidden shell :=
    ⟨Nat.lt_of_lt_of_le mentioned.1 fitting.size, mentioned.2⟩
  have ofItems := fun part member => each part (List.mem_append_left _ member)
  have ofValues := fun part member => each part (List.mem_append_right _ member)
  rw [build]
  apply Ends.bind
  apply (receives_fillList ground items ofItems shell 0 before fitting own owned).mono _
    fun _ _ upholds => upholds
  intro filled middle first
  exact first.1.andThen
    (receives_attach ground attributes ofValues first.1.fitting first.2.1 (Or.inl first.2.2))

theorem receives_environmentRef (ground : Ground hidden mine base context) (id : UInt32) :
    Receives hidden mine base context (.environmentRef id) := by
  intro before fitting
  rw [build]
  unfold Rebuilding.resolve
  apply Ends.bind
  apply Ends.get
  split
  · rename_i env found
    obtain ⟨front, back, split, _⟩ := List.lookup_eq_some_iff.mp found
    have member : (id, env) ∈ before.environments := by
      rw [split]
      exact List.mem_append_right _ List.mem_cons_self
    have bounds := fitting.known _ member
    have own := ground.fresh env bounds.1
    exact Ends.pure ⟨.refl fitting, ⟨bounds.2, ground.apart env own⟩, Or.inr (Or.inl own)⟩
  · exact Ends.throw (.refl _ _ _)

theorem receives_encoded (ground : Ground hidden mine base context) {kind : ValueKind}
    {blob : Bytes} {attributes : Option (List (String × Message))}
    (each : ∀ part ∈ (Message.encoded kind blob attributes).parts,
      Receives hidden mine base context part) :
    Receives hidden mine base context (.encoded kind blob attributes) := by
  intro before fitting
  rw [build]
  apply Ends.bind
  apply (receives_unserialize ground fitting blob).mono _ fun _ _ upholds => upholds
  intro ref middle first
  exact first.1.andThen
    (receives_attach ground attributes each first.1.fitting first.2.1 first.2.2)

theorem receives_attributed (ground : Ground hidden mine base context) {bare : Message}
    {attributes : List (String × Message)}
    (suits : Suits hidden mine base (.attributed bare attributes))
    (each : ∀ part ∈ (Message.attributed bare attributes).parts,
      Receives hidden mine base context part) :
    Receives hidden mine base context (.attributed bare attributes) := by
  intro before fitting
  have ofValues := fun part member => each part (List.mem_cons_of_mem _ member)
  rw [build]
  apply Ends.bind
  apply (each bare List.mem_cons_self before fitting).mono _ fun _ _ upholds => upholds
  intro ref middle first
  -- A value that is handed over bare is a private copy of the message.
  have attachable : Attachable mine context ref := by
    rcases first.2.2 with same | attachable
    · subst same
      exact Or.inl (suits.writes ref (.own List.mem_cons_self))
    · exact attachable
  apply Ends.bind
  apply (receives_buildEntries attributes ofValues middle first.1.fitting).mono _
    fun _ _ upholds => first.1.upholds.trans upholds
  intro entries later second
  apply Ends.bind
  apply Ends.modifyGet
  apply Ends.pure
  have both := first.1.trans second.1
  have installed : Heap.Upholds hidden mine later.heap (install later.heap ref entries) :=
    upholds_install second.1.fitting attachable second.2
  have there := first.2.1.later second.1.upholds.size
  exact ⟨both.trans (second.1.fitting.withHeap ground installed), there.later installed.size,
    Or.inr attachable⟩

/-- Every message that suits is received, or fails without harm. -/
theorem receives (ground : Ground hidden mine base context) (message : Message)
    (suits : Suits hidden mine base message) : Receives hidden mine base context message := by
  induction message using Message.induct with
  | step message ofParts =>
      have each : ∀ part ∈ message.parts, Receives hidden mine base context part :=
        fun part member => ofParts part member (suits.part member)
      cases message with
      | plain value => exact receives_plain suits
      | list shell items attributes => exact receives_list ground suits each
      | environment id bindings parent attributes => exact receives_environment ground each
      | environmentRef id => exact receives_environmentRef ground id
      | promise env value expr => exact receives_promise ground each
      | encoded kind blob attributes => exact receives_encoded ground each
      | attributed bare attributes => exact receives_attributed ground suits each

/-- What building a value as a whole comes to. -/
theorem upholds_toValue {heap built : Heap} {outcome : Except ChannelError Ref}
    (ground : Ground hidden mine base context) (suits : Suits hidden mine base message)
    (fitting : Fitting hidden base context { heap, environments := [] })
    (ended : toValue context heap message = (outcome, built)) :
    Heap.Upholds hidden mine heap built ∧
      ∀ result, outcome = .ok result → built.Public hidden result := by
  have receives := receives ground message suits { heap, environments := [] } fitting
  unfold toValue at ended
  unfold Ends at receives
  split at ended
  · rename_i ref state found
    rw [found] at receives
    cases ended
    refine ⟨receives.1.upholds, ?_⟩
    intro result same
    cases same
    exact receives.2.1
  · rename_i reason state found
    rw [found] at receives
    cases ended
    exact ⟨receives, fun _ impossible => nomatch impossible⟩

theorem toValue_encoded {heap built : Heap} (blob : Bytes)
    (read : context.codec.unserialize context.environments blob heap = .ok ref built) :
    toValue context heap (.encoded .language blob none) = (.ok ref, built) := by
  simp only [toValue, build, attach, bind, EStateM.bind, Building.unserialize, read]
  rfl

theorem toValue_unreadable {heap built : Heap} {reason : CodecError} (blob : Bytes)
    (read : context.codec.unserialize context.environments blob heap = .error reason built) :
    toValue context heap (.encoded .language blob none) =
      (.error (.ofDecoding .encodedValue reason), built) := by
  simp only [toValue, build, bind, EStateM.bind, Building.unserialize, read]

end ValueChannels.Message
