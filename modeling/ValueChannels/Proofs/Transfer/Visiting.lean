import ValueChannels.Proofs.Transfer.Composition

/-!
What the order in which a receiver comes by the parts of a message has to be like. Environments are
entered under their numbers as they come, and a reference is good if its number has been entered
before. Main statement: `walks_build`, which holds of every message, whoever made it.
-/

namespace ValueChannels.Message

/-! ### Scopes -/

/-- The numbers that environments are entered under, in the order in which they are. -/
def captures (nodes : List Message) : List UInt32 :=
  nodes.filterMap number?

/-- Where these numbers are known from the start, every reference has been captured before it is
come by. -/
def Scoped (known : List UInt32) : List Message → Prop
  | [] => True
  | node :: rest =>
      (∀ id, node.refers? = some id → id ∈ known) ∧ Scoped (node.number?.toList ++ known) rest

theorem captures_cons (node : Message) (rest : List Message) :
    captures (node :: rest) = node.number?.toList ++ captures rest := by
  rw [captures, List.filterMap_cons]
  cases node.number? with
  | none => rfl
  | some id => rfl

theorem captures_append (first second : List Message) :
    captures (first ++ second) = captures first ++ captures second :=
  List.filterMap_append

theorem reverse_captures_cons (node : Message) (rest : List Message) (known : List UInt32) :
    (captures (node :: rest)).reverse ++ known =
      (captures rest).reverse ++ (node.number?.toList ++ known) := by
  rw [captures_cons, List.reverse_append, List.append_assoc]
  cases node.number? with
  | none => rfl
  | some id => rfl

theorem scoped_append {known : List UInt32} {first second : List Message} :
    Scoped known (first ++ second) ↔
      Scoped known first ∧ Scoped ((captures first).reverse ++ known) second := by
  induction first generalizing known with
  | nil => exact (true_and _).symm ▸ Iff.rfl
  | cons node rest ih =>
      rw [List.cons_append, Scoped, Scoped, ih, reverse_captures_cons, and_assoc]

theorem Scoped.captured {known : List UInt32} {sooner later : List Message} {id : UInt32}
    (good : Scoped known (sooner ++ .environmentRef id :: later)) :
    id ∈ captures sooner ∨ id ∈ known := by
  have here := (scoped_append.mp good).2.1 id rfl
  rcases List.mem_append.mp here with new | old
  · exact Or.inl (List.mem_reverse.mp new)
  · exact Or.inr old

/-! ### What a receiver does on its way -/

section Walks

variable {α β : Type} {first second nodes : List Message} {action : Building α}

/-- The numbers that are known, the latest first. -/
def numbers (state : Rebuild) : List UInt32 :=
  state.environments.map Prod.fst

/-- A computation comes by these nodes, in this order: it enters what they capture, all references
among them are good when it ends with a result, and none is missed when they are. -/
def Walks (nodes : List Message) (action : Building α) : Prop :=
  ∀ state, Ends action state
    (fun _ after => numbers after = (captures nodes).reverse ++ numbers state ∧
      Scoped (numbers state) nodes)
    (fun err _ => ∀ id, err = .transfer (.uncapturedEnvironment id) →
      ¬Scoped (numbers state) nodes)

theorem Walks.pure (result : α) : Walks [] (Pure.pure result : Building α) := by
  intro state
  exact Ends.pure ⟨rfl, trivial⟩

theorem Walks.throw {err : ChannelError}
    (other : ∀ id, err ≠ .transfer (.uncapturedEnvironment id)) :
    Walks nodes (MonadExcept.throw err : Building α) := by
  intro state
  exact Ends.throw fun id same => absurd same (other id)

theorem Walks.onHeap (step : Heap → α × Heap) :
    Walks [] (Rebuilding.onHeap step : Building α) := by
  intro state
  exact Ends.modifyGet ⟨rfl, trivial⟩

theorem Walks.bind {next : α → Building β} (left : Walks first action)
    (right : ∀ result, Walks second (next result)) : Walks (first ++ second) (action >>= next) := by
  intro state
  apply Ends.bind
  apply (left state).mono
  · rintro result middle ⟨entered, good⟩
    apply (right result middle).mono
    · rintro found after ⟨entered', good'⟩
      rw [entered] at entered' good'
      constructor
      · rw [entered', captures_append, List.reverse_append, List.append_assoc]
      · exact scoped_append.mpr ⟨good, good'⟩
    · intro err after stopped id same within
      apply stopped id same
      rw [entered]
      exact (scoped_append.mp within).2
  · intro err after stopped id same within
    exact stopped id same (scoped_append.mp within).1

/-- A node that neither captures nor refers makes no difference. -/
theorem Walks.node {message : Message} (free : message.number? = none)
    (settled : message.refers? = none) (walks : Walks nodes action) :
    Walks (message :: nodes) action := by
  intro state
  apply (walks state).mono
  · rintro result after ⟨entered, good⟩
    constructor
    · rw [entered, reverse_captures_cons, free]
      rfl
    · rw [Scoped, free, settled]
      exact ⟨(fun id impossible => nomatch impossible), good⟩
  · intro err after stopped id same within
    apply stopped id same
    rw [Scoped, free] at within
    exact within.2

theorem Walks.register {id : UInt32} {bindings : List (String × Message)}
    {parent : Option Message} {attributes : Option (List (String × Message))} (env : Ref) :
    Walks [.environment id bindings parent attributes]
      (Rebuilding.register id env : Building Unit) := by
  intro state
  apply Ends.modifyGet
  constructor
  · rfl
  · exact ⟨(fun id impossible => nomatch impossible), trivial⟩

theorem Walks.resolve (id : UInt32) :
    Walks [.environmentRef id]
      (Rebuilding.resolve (fun id => .transfer (.uncapturedEnvironment id)) id : Building Ref) := by
  intro state
  unfold Rebuilding.resolve
  apply Ends.bind
  apply Ends.get
  cases found : state.environments.lookup id with
  | some env =>
      apply Ends.pure
      constructor
      · rfl
      · refine ⟨?_, trivial⟩
        rintro other same
        cases same
        exact List.mem_map_of_mem (mem_of_lookup found)
  | none =>
      apply Ends.throw
      intro other _ within
      have known := within.1 id rfl
      obtain ⟨entry, member, same⟩ := List.mem_map.mp known
      have missing := List.lookup_eq_none_iff.mp found entry member
      rw [same] at missing
      simp at missing

theorem ofDecoding_ne_transfer (part : EncodedPart) (reason : CodecError) (fault : TransferFault) :
    ChannelError.ofDecoding part reason ≠ .transfer fault := by
  cases reason <;> exact nofun

theorem Walks.unserialize (blob : Bytes) : Walks [] (Building.unserialize context blob) := by
  intro state
  unfold Ends Building.unserialize
  cases context.codec.unserialize context.environments blob state.heap with
  | ok ref heap => exact ⟨rfl, trivial⟩
  | error reason heap =>
      intro id same
      exact absurd same (ofDecoding_ne_transfer _ _ _)

theorem composes_walks (context : Context) :
    Composes context (fun _ => True) (fun _ => True) fun _ => Walks where
  pure := .pure
  bind := .bind
  inner := by
    intro node nodes action inner walks
    apply walks.node
    · cases node <;> first | rfl | cases inner
    · cases node <;> first | rfl | cases inner
  capture := by
    intro id bindings parent attributes nodes next walks
    exact (Walks.onHeap _).bind fun env => (Walks.register env).bind fun _ => walks env trivial
  resolve := .resolve
  define := fun _ _ _ => .onHeap _
  setParent := fun _ _ => .onHeap _
  setElement := fun _ _ _ => .onHeap _
  misfit := fun _ => .throw fun _ => nofun
  install := fun _ _ => .onHeap _
  alloc := fun _ => .onHeap _
  unserialize := fun _ => (Walks.unserialize _).node rfl rfl
  broken := fun _ _ => .throw fun _ => ofDecoding_ne_transfer _ _ _
  part := fun _ _ => trivial

/-- Every receiver comes by the parts of a message in the order of `visits`. -/
theorem walks_build (context : Context) (message : Message) :
    Walks message.visits (message.build context) :=
  (composes_walks context).build message trivial

end Walks

end ValueChannels.Message
