import ValueChannels.Proofs.Graph.Reading

/-!
The environments that a node names, and the numbers it gives to those that it writes out. A node that
was made from a value refers back only to environments that it has written out before. So its reader
stops at the first environment that its context lacks, and at nothing else. Main statements:
`Node.scope_ofValue` for the writer and `Node.follows` for the reader.
-/

namespace ValueChannels

/-! ### Computations that stop at what is lacking -/

section Visits

/-- What a reader may lack, the error that is, and the errors that it may end with otherwise. -/
structure Search (ε : Type) where
  lacks : EnvironmentKind → Bool
  missing : EnvironmentKind → ε
  other : ε → Prop

variable {ε σ α β : Type} {search : Search ε} {kinds kinds' : List EnvironmentKind}
  {before middle after : σ → Prop} {action : EStateM ε σ α}

/-- A computation comes by environments of these kinds, in this order: it ends with a result if none
of them is lacking, and with the error of the first that is, unless it ends otherwise. -/
def Search.Visits (search : Search ε) (kinds : List EnvironmentKind) (before : σ → Prop)
    (action : EStateM ε σ α) (after : σ → Prop) : Prop :=
  ∀ state, before state → Ends action state
    (fun _ next => kinds.find? search.lacks = none ∧ after next)
    (fun err _ => (∃ kind, kinds.find? search.lacks = some kind ∧ kind.isLocal = false ∧
      err = search.missing kind) ∨ search.other err)

namespace Search.Visits

theorem pure {result : α} (holds : ∀ state, before state → after state) :
    search.Visits [] before (Pure.pure result : EStateM ε σ α) after :=
  fun state ready => Ends.pure ⟨rfl, holds state ready⟩

theorem modifyGet {step : σ → α × σ} (holds : ∀ state, before state → after (step state).2) :
    search.Visits [] before (MonadState.modifyGet step : EStateM ε σ α) after :=
  fun state ready => Ends.modifyGet ⟨rfl, holds state ready⟩

theorem bind {next : α → EStateM ε σ β} (first : search.Visits kinds before action middle)
    (second : ∀ result, search.Visits kinds' middle (next result) after) :
    search.Visits (kinds ++ kinds') before (action >>= next) after := by
  intro state ready
  refine Ends.bind ((first state ready).mono (fun result state ⟨found, reached⟩ => ?_)
    (fun err _ stopped => ?_))
  · rw [List.find?_append, found, Option.none_or]
    exact second result state reached
  · rcases stopped with ⟨kind, lacking, stop⟩ | other
    · refine Or.inl ⟨kind, ?_, stop⟩
      rw [List.find?_append, lacking, Option.some_or]
    · exact Or.inr other

theorem step {next : α → EStateM ε σ β} (first : search.Visits [] before action middle)
    (second : ∀ result, search.Visits kinds middle (next result) after) :
    search.Visits kinds before (action >>= next) after :=
  first.bind second

theorem andThen {next : α → EStateM ε σ β} (first : search.Visits kinds before action middle)
    (second : ∀ result, search.Visits [] middle (next result) after) :
    search.Visits kinds before (action >>= next) after := by
  have both := first.bind second
  rwa [List.append_nil] at both

end Search.Visits

end Visits

/-! ### Names -/

mutual

/-- The kinds of the environments that a node names, in the order in which it is read. -/
def Node.kinds : Node → List EnvironmentKind
  | .mk item attributes => item.kinds ++ Node.entryKinds attributes

def NodeItem.kinds : NodeItem → List EnvironmentKind
  | .named kind => [kind]
  | .list items => Node.allKinds items
  | .environment _ bindings parent => Node.entryKinds bindings ++ Node.optionalKinds parent
  | .promise _ env value => Node.optionalKinds env ++ Node.optionalKinds value
  | .closure _ _ env => env.kinds
  | _ => []

def Node.optionalKinds : Option Node → List EnvironmentKind
  | none => []
  | some node => node.kinds

def Node.allKinds : List Node → List EnvironmentKind
  | [] => []
  | node :: rest => node.kinds ++ Node.allKinds rest

def Node.entryKinds : List (String × Node) → List EnvironmentKind
  | [] => []
  | (_, node) :: rest => node.kinds ++ Node.entryKinds rest

end

/-- A context does not have an environment of its own of this kind. -/
def Environments.lacks (environments : Environments) (kind : EnvironmentKind) : Bool :=
  (environments.find? kind).isNone

/-! ### Numbers -/

mutual

/-- How many environments have been written out when a node has, after so many before it; nothing if
a reference goes to none of them, if a local environment goes by its kind, or if there are attributes
which are not read. -/
def Node.scope : Node → Nat → Option Nat
  | .mk item attributes, count =>
      if item.keepsAttributes || attributes.isEmpty then
        (item.scope count).bind fun count => Node.scopeEntries attributes count
      else none

def NodeItem.scope : NodeItem → Nat → Option Nat
  | .list items, count => Node.scopeAll items count
  | .environment id bindings parent, count =>
      if id = UInt32.ofNat count then
        (Node.scopeEntries bindings (count + 1)).bind fun count => Node.scopeOptional parent count
      else none
  | .environmentRef id, count =>
      if ∃ index < count, id = UInt32.ofNat index then some count else none
  | .named kind, count => if kind.isLocal then none else some count
  | .promise _ env value, count =>
      (Node.scopeOptional env count).bind fun count => Node.scopeOptional value count
  | .closure _ _ env, count => env.scope count
  | _, count => some count

def Node.scopeOptional : Option Node → Nat → Option Nat
  | none, count => some count
  | some node, count => node.scope count

def Node.scopeAll : List Node → Nat → Option Nat
  | [], count => some count
  | node :: rest, count => (node.scope count).bind fun count => Node.scopeAll rest count

def Node.scopeEntries : List (String × Node) → Nat → Option Nat
  | [], count => some count
  | (_, node) :: rest, count => (node.scope count).bind fun count => Node.scopeEntries rest count

end

namespace Node

/-! ### The writer -/

section Writing

variable {α β : Type}

/-- What an encoder writes is in scope, with as many environments as it knows before and after. -/
def Traces (scope : α → Nat → Option Nat) (action : Encoding α) : Prop :=
  ∀ known result after, action known = .ok (result, after) →
    scope result known.length = some after.length

variable {heap : Heap} {encode : Ref → Encoding Node} {ref : Ref}

theorem traces_all {refs : List Ref} (each : ∀ ref ∈ refs, Traces scope (encode ref)) :
    Traces scopeAll (refs.mapM encode) := by
  induction refs with
  | nil =>
      intro known result after ran
      rw [List.mapM_nil] at ran
      obtain ⟨rfl, rfl⟩ := stateT_pure_ok ran
      rfl
  | cons ref rest ih =>
      intro known result after ran
      rw [List.mapM_cons] at ran
      obtain ⟨node, middle, first, ran⟩ := stateT_bind_ok ran
      obtain ⟨nodes, last, second, ran⟩ := stateT_bind_ok ran
      obtain ⟨rfl, rfl⟩ := stateT_pure_ok ran
      have here := each ref List.mem_cons_self known node middle first
      have others := ih (fun other member => each other (List.mem_cons_of_mem ref member))
        middle nodes _ second
      rw [scopeAll, here, Option.bind_some, others]

theorem traces_entries {entries : List (String × Ref)}
    (each : ∀ ref ∈ entries.map Prod.snd, Traces scope (encode ref)) :
    Traces scopeEntries (encodeEntries encode entries) := by
  unfold encodeEntries
  induction entries with
  | nil =>
      intro known result after ran
      rw [List.mapM_nil] at ran
      obtain ⟨rfl, rfl⟩ := stateT_pure_ok ran
      rfl
  | cons entry rest ih =>
      intro known result after ran
      rw [List.mapM_cons] at ran
      obtain ⟨named, middle, first, ran⟩ := stateT_bind_ok ran
      obtain ⟨nodes, last, second, ran⟩ := stateT_bind_ok ran
      obtain ⟨rfl, rfl⟩ := stateT_pure_ok ran
      obtain ⟨node, _, encoded, first⟩ := stateT_bind_ok first
      obtain ⟨rfl, rfl⟩ := stateT_pure_ok first
      have here := each entry.2 List.mem_cons_self known node _ encoded
      have others := ih (fun other member => each other (List.mem_cons_of_mem _ member))
        _ nodes _ second
      rw [scopeEntries, here, Option.bind_some, others]

theorem traces_optional {optional : Option Ref}
    (each : ∀ ref ∈ optional.toList, Traces scope (encode ref)) :
    Traces scopeOptional (encodeOptional encode optional) := by
  intro known result after ran
  cases optional with
  | none =>
      obtain ⟨rfl, rfl⟩ := stateT_pure_ok ran
      rfl
  | some ref =>
      rw [encodeOptional, map_eq_pure_bind] at ran
      obtain ⟨node, middle, encoded, ran⟩ := stateT_bind_ok ran
      obtain ⟨rfl, rfl⟩ := stateT_pure_ok ran
      exact each ref List.mem_cons_self known node _ encoded

theorem traces_frame {frame : Frame} {known after : List Ref} {item : NodeItem}
    (each : ∀ child ∈ (Body.environment frame).children, Traces scope (encode child))
    (ran : encodeFrame encode ref frame known = .ok (item, after)) :
    item.scope known.length = some after.length ∧
      (item.isReference = true ∨ item.keepsAttributes = true) := by
  obtain ⟨_, _, same, ran⟩ := stateT_bind_ok ran
  cases same
  cases found : known.idxOf? ref with
  | some index =>
      simp only [found] at ran
      obtain ⟨rfl, rfl⟩ := stateT_pure_ok ran
      obtain ⟨early, _, _⟩ := List.idxOf?_eq_some_iff.mp found
      exact ⟨if_pos ⟨index, early, rfl⟩, Or.inl rfl⟩
  | none =>
      simp only [found] at ran
      obtain ⟨_, _, set, ran⟩ := stateT_bind_ok ran
      cases set
      obtain ⟨bindings, middle, defined, ran⟩ := stateT_bind_ok ran
      obtain ⟨parent, last, enclosed, ran⟩ := stateT_bind_ok ran
      obtain ⟨rfl, rfl⟩ := stateT_pure_ok ran
      have first := traces_entries (fun child member => each child (List.mem_append_left _ member))
        _ _ _ defined
      have second := traces_optional
        (fun child member => each child (List.mem_append_right _ member)) _ _ _ enclosed
      rw [List.length_append, List.length_singleton] at first
      refine ⟨?_, Or.inr rfl⟩
      rw [NodeItem.scope, if_pos rfl, first, Option.bind_some, second]

theorem traces_body {body : Body} {known after : List Ref} {item : NodeItem}
    (each : ∀ child ∈ body.children, Traces scope (encode child))
    (ran : encodeBody encode ref body known = .ok (item, after)) :
    item.scope known.length = some after.length ∧
      ((item.isReference = true ∨ item.keepsAttributes = true) ∨ body = .null ∨
        body = .unbound) := by
  cases body with
  | null =>
      obtain ⟨rfl, rfl⟩ := stateT_pure_ok ran
      exact ⟨rfl, Or.inr (Or.inl rfl)⟩
  | unbound =>
      obtain ⟨rfl, rfl⟩ := stateT_pure_ok ran
      exact ⟨rfl, Or.inr (Or.inr rfl)⟩
  | vector _ | language _ | connection _ =>
      obtain ⟨rfl, rfl⟩ := stateT_pure_ok ran
      exact ⟨rfl, Or.inl (Or.inr rfl)⟩
  | list items =>
      rw [encodeBody, map_eq_pure_bind] at ran
      obtain ⟨nodes, middle, first, ran⟩ := stateT_bind_ok ran
      obtain ⟨rfl, rfl⟩ := stateT_pure_ok ran
      exact ⟨traces_all each _ _ _ first, Or.inl (Or.inr rfl)⟩
  | environment frame =>
      rw [encodeBody] at ran
      split at ran
      · have traced := traces_frame each ran
        exact ⟨traced.1, Or.inl traced.2⟩
      · rename_i isNamed
        obtain ⟨rfl, rfl⟩ := stateT_pure_ok ran
        exact ⟨if_neg isNamed, Or.inl (Or.inl rfl)⟩
  | promise delayed =>
      rw [encodeBody] at ran
      obtain ⟨env, middle, around, ran⟩ := stateT_bind_ok ran
      obtain ⟨value, last, content, ran⟩ := stateT_bind_ok ran
      obtain ⟨rfl, rfl⟩ := stateT_pure_ok ran
      have first := traces_optional (fun child member => each child (List.mem_append_left _ member))
        _ _ _ around
      have second := traces_optional
        (fun child member => each child (List.mem_append_right _ member)) _ _ _ content
      refine ⟨?_, Or.inl (Or.inr rfl)⟩
      rw [NodeItem.scope, first, Option.bind_some, second]
  | closure function =>
      rw [encodeBody] at ran
      obtain ⟨env, middle, around, ran⟩ := stateT_bind_ok ran
      obtain ⟨rfl, rfl⟩ := stateT_pure_ok ran
      exact ⟨each function.env List.mem_cons_self _ _ _ around, Or.inl (Or.inr rfl)⟩

/-- Objects that lead to each other only, with no attributes on the singletons among them. -/
structure Tidy (heap : Heap) (among : Ref → Prop) : Prop where
  closed : ∀ ref, among ref → ∀ child ∈ (heap.get ref).children, among child
  bare : ∀ ref, among ref → heap.body ref = .null ∨ heap.body ref = .unbound →
    heap.attributes ref = none

theorem traces_within {among : Ref → Prop} (tidy : Tidy heap among) (depth : Nat) :
    ∀ ref, among ref → Traces scope (encodeWithin heap depth ref) := by
  induction depth with
  | zero =>
      intro ref _ known node after ran
      cases ran
  | succ depth ih =>
      intro ref member known node after ran
      have onward (child : Ref) (held : child ∈ (heap.get ref).children) :=
        ih child (tidy.closed ref member child held)
      rw [encodeWithin] at ran
      obtain ⟨item, middle, written, ran⟩ := stateT_bind_ok ran
      obtain ⟨first, keeps⟩ :=
        traces_body (fun child held => onward child (List.mem_append_left _ held)) written
      split at ran
      · obtain ⟨rfl, rfl⟩ := stateT_pure_ok ran
        rw [bare, scope, List.isEmpty_nil, Bool.or_true, if_pos rfl, first, Option.bind_some]
        rfl
      · rename_i noReference
        obtain ⟨attributes, last, furnished, ran⟩ := stateT_bind_ok ran
        obtain ⟨rfl, rfl⟩ := stateT_pure_ok ran
        have second := traces_entries
          (fun child held => onward child (List.mem_append_right _ held)) _ _ _ furnished
        have read : (item.keepsAttributes || attributes.isEmpty) = true := by
          rcases keeps with (reference | keeps) | singleton
          · exact absurd reference noReference
          · rw [keeps, Bool.true_or]
          · have none : (heap.get ref).attributes = none := tidy.bare ref member singleton
            rw [none] at furnished
            obtain ⟨rfl, rfl⟩ := stateT_pure_ok furnished
            exact Bool.or_true _
        rw [scope, if_pos read, first, Option.bind_some, second]

/-- All references in the node of a value go back to environments in it. -/
theorem scope_ofValue {among : Ref → Prop} {node : Node} (tidy : Tidy heap among)
    (member : among ref) (ran : ofValue heap ref = .ok node) :
    ∃ count, node.scope 0 = some count := by
  unfold ofValue at ran
  cases encoded : encodeWithin heap (depthBound heap) ref [] with
  | error reason =>
      rw [encoded] at ran
      cases ran
  | ok pair =>
      rw [encoded] at ran
      cases ran
      exact ⟨pair.2.length, traces_within tidy _ ref member [] pair.1 pair.2 encoded⟩

end Writing

/-! ### The reader -/

section Reading

variable {environments : Environments} {start stop : Nat}

/-- What may stop a reader: an environment that its context lacks. -/
def search (environments : Environments) : Search CodecError :=
  { lacks := environments.lacks
    missing := .unknownEnvironment
    other := fun _ => False }

/-- A reader knows an environment under each of the first numbers. -/
def Knows (count : Nat) (state : Rebuild) : Prop :=
  ∀ index < count, ∃ env, state.environments.lookup (UInt32.ofNat index) = some env

theorem Knows.enter {count : Nat} {state : Rebuild} (knows : Knows count state) (env : Ref)
    (heap : Heap) :
    Knows (count + 1) { heap, environments := (UInt32.ofNat count, env) :: state.environments } := by
  intro index early
  rw [List.lookup_cons]
  cases same : UInt32.ofNat index == UInt32.ofNat count with
  | true => exact ⟨env, rfl⟩
  | false =>
      apply knows index
      have different : index ≠ count := by
        intro equal
        rw [equal, beq_self_eq_true] at same
        cases same
      omega

theorem visits_register {count : Nat} (env : Ref) :
    (search environments).Visits [] (Knows count)
      (Rebuilding.register (UInt32.ofNat count) env : Decoding Unit) (Knows (count + 1)) :=
  .modifyGet fun state knows => knows.enter env state.heap

/-- A reader of something stops at the first environment that its context lacks. -/
def Follows (environments : Environments) {α β : Type} (scope : α → Nat → Option Nat)
    (kinds : α → List EnvironmentKind) (decode : α → Decoding β) (tree : α) : Prop :=
  ∀ start stop, scope tree start = some stop →
    (search environments).Visits (kinds tree) (Knows start) (decode tree) (Knows stop)

theorem visits_heap {α : Type} {count : Nat} (step : Heap → α × Heap) :
    (search environments).Visits [] (Knows count) (Rebuilding.onHeap step : Decoding α)
      (Knows count) :=
  .modifyGet fun _ knows => knows

theorem follows_all {nodes : List Node}
    (each : ∀ node ∈ nodes, Follows environments scope kinds (decode environments) node) :
    Follows environments scopeAll allKinds (decodeAll environments) nodes := by
  induction nodes with
  | nil =>
      intro start stop within
      cases within
      rw [decodeAll]
      exact .pure fun _ knows => knows
  | cons node rest ih =>
      intro start stop within
      obtain ⟨middle, first, second⟩ := Option.bind_eq_some_iff.mp within
      have others := ih fun other member => each other (List.mem_cons_of_mem node member)
      rw [decodeAll]
      refine (each node List.mem_cons_self start middle first).bind fun ref => ?_
      exact (others middle stop second).andThen fun refs => .pure fun _ knows => knows

theorem follows_entries {entries : List (String × Node)}
    (each : ∀ node ∈ entries.map Prod.snd,
      Follows environments scope kinds (decode environments) node) :
    Follows environments scopeEntries entryKinds (decodeEntries environments) entries := by
  induction entries with
  | nil =>
      intro start stop within
      cases within
      rw [decodeEntries]
      exact .pure fun _ knows => knows
  | cons entry rest ih =>
      intro start stop within
      obtain ⟨middle, first, second⟩ := Option.bind_eq_some_iff.mp within
      have others := ih fun other member => each other (List.mem_cons_of_mem _ member)
      rw [decodeEntries]
      refine (each entry.2 List.mem_cons_self start middle first).bind fun ref => ?_
      exact (others middle stop second).andThen fun refs => .pure fun _ knows => knows

theorem follows_bindings {entries : List (String × Node)} (env : Ref)
    (each : ∀ node ∈ entries.map Prod.snd,
      Follows environments scope kinds (decode environments) node) :
    Follows environments scopeEntries entryKinds (decodeBindings environments env) entries := by
  induction entries with
  | nil =>
      intro start stop within
      cases within
      rw [decodeBindings]
      exact .pure fun _ knows => knows
  | cons entry rest ih =>
      intro start stop within
      obtain ⟨middle, first, second⟩ := Option.bind_eq_some_iff.mp within
      have others := ih fun other member => each other (List.mem_cons_of_mem _ member)
      rw [decodeBindings]
      refine (each entry.2 List.mem_cons_self start middle first).bind fun ref => ?_
      exact (visits_heap _).step fun _ => others middle stop second

theorem follows_optional {optional : Option Node}
    (each : ∀ node ∈ optional.toList,
      Follows environments scope kinds (decode environments) node) :
    Follows environments scopeOptional optionalKinds (decodeOptional environments) optional := by
  intro start stop within
  cases optional with
  | none =>
      cases within
      rw [decodeOptional]
      exact .pure fun _ knows => knows
  | some node =>
      rw [decodeOptional]
      exact (each node List.mem_cons_self start stop within).andThen fun ref =>
        .pure fun _ knows => knows

theorem visits_resolve {index : Nat} (early : index < start) :
    (search environments).Visits [] (Knows start)
      (Rebuilding.resolve .danglingReference (UInt32.ofNat index) : Decoding Ref) (Knows start) := by
  intro state knows
  obtain ⟨env, found⟩ := knows index early
  unfold Rebuilding.resolve
  refine Ends.bind (Ends.get ?_)
  rw [found]
  exact Ends.pure ⟨rfl, knows⟩

theorem follows_item {item : NodeItem}
    (each : ∀ node ∈ item.parts, Follows environments scope kinds (decode environments) node) :
    Follows environments NodeItem.scope NodeItem.kinds (NodeItem.decode environments) item := by
  intro start stop within
  cases item with
  | null | unbound =>
      cases within
      rw [NodeItem.decode]
      exact .pure fun _ knows => knows
  | vector _ | language _ | connection _ =>
      cases within
      rw [NodeItem.decode]
      exact visits_heap _
  | list items =>
      rw [NodeItem.decode]
      exact (follows_all each start stop within).andThen fun refs => visits_heap _
  | environment id bindings parent =>
      rw [NodeItem.scope] at within
      split at within
      · rename_i number
        obtain ⟨middle, first, second⟩ := Option.bind_eq_some_iff.mp within
        have defined := fun env => follows_bindings env
          (fun node member => each node (List.mem_append_left _ member)) _ _ first
        have enclosed := follows_optional
          (fun node member => each node (List.mem_append_right _ member)) _ _ second
        rw [NodeItem.decode, number]
        refine (visits_heap _).step fun env => (visits_register env).step fun _ => ?_
        refine (defined env).bind fun _ => enclosed.andThen fun parent => ?_
        cases parent with
        | none => exact .pure fun _ knows => knows
        | some parent => exact (visits_heap _).andThen fun _ => .pure fun _ knows => knows
      · cases within
  | environmentRef id =>
      rw [NodeItem.scope] at within
      split at within
      · rename_i earlier
        obtain ⟨index, early, number⟩ := earlier
        cases within
        rw [NodeItem.decode, number]
        exact visits_resolve early
      · cases within
  | named kind =>
      rw [NodeItem.scope] at within
      split at within
      · cases within
      rename_i isNamed
      cases within
      rw [NodeItem.decode]
      intro state knows
      cases found : environments.find? kind with
      | none =>
          -- The reading ends here, with the first name that this context has no environment for.
          have lacks : (search environments).lacks kind = true :=
            congrArg Option.isNone found
          refine Ends.throw (Or.inl ⟨kind, ?_, Bool.eq_false_iff.mpr isNamed, rfl⟩)
          rw [NodeItem.kinds, List.find?_singleton, if_pos lacks]
      | some env =>
          have has : (search environments).lacks kind = false := congrArg Option.isNone found
          refine Ends.pure ⟨?_, knows⟩
          rw [NodeItem.kinds, List.find?_singleton, if_neg (Bool.eq_false_iff.mp has)]
  | promise expr env value =>
      obtain ⟨middle, first, second⟩ := Option.bind_eq_some_iff.mp within
      have around := follows_optional
        (fun node member => each node (List.mem_append_left _ member)) _ _ first
      have content := follows_optional
        (fun node member => each node (List.mem_append_right _ member)) _ _ second
      rw [NodeItem.decode]
      exact around.bind fun env => content.andThen fun value => visits_heap _
  | closure formals body env =>
      rw [NodeItem.decode]
      exact (each env List.mem_cons_self start stop within).andThen fun env => visits_heap _

/-- The reader of a node whose references are in scope stops at the first environment that its context
lacks; it reads the node if there is none. -/
theorem follows (environments : Environments) (node : Node) :
    Follows environments scope kinds (decode environments) node := by
  induction node using Node.induct with
  | step item attributes ofParts ofAttributes =>
      intro start stop within
      rw [scope] at within
      split at within
      · rename_i read
        obtain ⟨middle, first, second⟩ := Option.bind_eq_some_iff.mp within
        rw [decode, kinds]
        refine (follows_item ofParts start middle first).bind fun ref => ?_
        split
        · refine (follows_entries ofAttributes middle stop second).andThen fun entries => ?_
          exact (visits_heap _).andThen fun _ => .pure fun _ knows => knows
        · rename_i unread
          have none : attributes = [] := by
            cases attributes with
            | nil => rfl
            | cons entry rest =>
                rw [List.isEmpty_cons, Bool.or_false] at read
                rw [read] at unread
                exact absurd rfl unread
          subst none
          cases second
          exact .pure fun _ knows => knows
      · cases within

end Reading

end Node

end ValueChannels
