import ValueChannels.Message.OfValue
import ValueChannels.Message.ToValue
import ValueChannels.Proofs.Demo.Samples
import ValueChannels.Proofs.Graph.Lossless
import ValueChannels.Proofs.Graph.Leaves

/-!
The messages of the demonstration on their way. What is sent for a worker and a round has one of a
few forms, which say what is built from it wherever it is received, so that the worker gets a copy
of the message and the master a copy of that copy. Main statements: `travels_ofValue`,
`shows_toValue` for messages, `returns_ofValue` and `shows_returned` for answers.
-/

namespace ValueChannels

/-- A context that can send and receive: it has the codec that all have, and its global environment
is in the heap. -/
structure Context.Equipped (context : Context) (heap : Heap) : Prop where
  codec : context.codec = .packed
  global : Sample.Global heap.Holds context.environments.global

namespace Sample

open Message

variable {context : Context} {heap : Heap} {worker round depth : Nat} {ref : Ref}
  {known : List Ref}

/-! ### Sending -/

def globalMessage : Message :=
  .encoded .environment (Node.bare (.named .global)).toItem.write none

def scalingNode (round : Nat) : Node :=
  .bare (.closure ["x"] scaled (.bare (.environment 0
    [("scale", .bare (.vector (.double [Double.ofInt round])))] (some (.bare (.named .global))))))

def nestedMessage (one two number : Ref) : Message :=
  .environment 0 [("depth", .plain two), ("round", .plain number)]
    (some (.environment 1 [("depth", .plain one)] (some globalMessage) none)) none

/-- The message for a worker and a round on its way. -/
def Travels (holds : Holding) (worker round : Nat) (message : Message) : Prop :=
  match round % 6 with
  | 0 | 1 | 2 => ∃ ref, message = .plain ref ∧ Shows holds worker round ref
  | 3 => message = .encoded .closure (scalingNode round).toItem.write none
  | 4 => ∃ one two number, message = nestedMessage one two number ∧
      Data holds one (.integer [int32 1]) ∧ Data holds two (.integer [int32 2]) ∧
      Data holds number (.integer [int32 round])
  | _ => message = .promise (some globalMessage) none successor.toItem.write

theorem read_heap (state : ConvertState) : Converting.heap state = .ok state.heap state := rfl

theorem read_mark (state : ConvertState) (ref : Ref) :
    Converting.onHeap (fun heap => heap.makeShared ref) state =
      .ok (state.heap.makeShared ref).1 { state with heap := (state.heap.makeShared ref).2 } :=
  rfl

theorem convert_data {data : AtomicVector} (context : Context) (depth : Nat)
    (here : Data heap.Holds ref data) (known : List Ref) :
    convertWithin context (depth + 1) ref { heap, environments := known } =
      .ok (.plain ref) { heap := (heap.makeShared ref).2, environments := known } := by
  have bare := ((Heap.Retains.makeShared heap ref).holds here).attributes
  simp only [convertWithin, bind, EStateM.bind, read_heap, here.body, convertPlain, read_mark, bare]
  rfl

theorem convert_named {data content : AtomicVector} {names : Ref} {name : String}
    (here : heap.Holds ref (.vector data) (some ⟨[(name, names)]⟩))
    (there : Data heap.Holds names content) (known : List Ref) :
    convertWithin context (depth + 2) ref { heap, environments := known } =
      .ok (.plain ref)
        { heap := ((heap.makeShared ref).2.makeShared names).2, environments := known } := by
  have marked := (Heap.Retains.makeShared heap ref).holds here
  have inner := convert_data context depth
    ((Heap.Retains.makeShared heap ref).holds there) known
  rw [convertWithin]
  simp only [bind, EStateM.bind, read_heap, here.body, convertPlain, read_mark, marked.attributes,
    convertAttributes, convertEntries, inner, pure, EStateM.pure, attributesPlain, List.map_cons,
    List.map_nil, allPlain, List.zipWith_cons_cons, isPlain, BEq.rfl, List.zipWith_nil_left,
    List.all_cons, List.all_nil, id_eq, Bool.and_self, if_true]

section Pairs

variable {middle last : Heap} {first second : Ref} {known' : List Ref} {message : Message}
  (here : Listed heap.Holds ref [first, second])
  (one : convertWithin context depth first { heap, environments := known } =
    .ok (.plain first) { heap := middle, environments := known })
  (retains : heap.Retains last)

include here one retains

theorem convert_whole
    (other : convertWithin context depth second { heap := middle, environments := known } =
      .ok (.plain second) { heap := last, environments := known' }) :
    convertWithin context (depth + 1) ref { heap, environments := known } =
      .ok (.plain ref) { heap := (last.makeShared ref).2, environments := known' } := by
  have bare := (retains.holds here).attributes
  rw [convertWithin]
  simp only [bind, EStateM.bind, read_heap, here.body, convertList, convertAll, one, other, pure,
    EStateM.pure, bare, convertAttributes, allPlain, List.zipWith_cons_cons, isPlain, BEq.rfl,
    List.zipWith_nil_left, List.all_cons, List.all_nil, id_eq, Bool.and_self, attributesPlain,
    if_true, read_mark]

/-- A list whose second element is converted goes as a copy that the receiver fills. -/
theorem convert_split
    (other : convertWithin context depth second { heap := middle, environments := known } =
      .ok message { heap := last, environments := known' })
    (converted : message.isPlain second = false) :
    convertWithin context (depth + 1) ref { heap, environments := known } =
      .ok (.list ⟨last.size⟩ [.plain first, message] none)
        { heap := (last.alloc (.list [first, second])).2, environments := known' } := by
  have still := retains.holds here
  have copied : last.bareCopy ref = last.alloc (.list [first, second]) := by
    rw [last.bareCopy_alloc (by rw [still.body]; rfl), still.body]
  have copy (state : ConvertState) : Converting.onHeap (fun heap => heap.bareCopy ref) state =
      .ok (state.heap.bareCopy ref).1 { state with heap := (state.heap.bareCopy ref).2 } := rfl
  have plain : Message.isPlain (.plain first) first = true := BEq.rfl
  rw [convertWithin]
  simp only [bind, EStateM.bind, read_heap, here.body, convertList, convertAll, one, other, pure,
    EStateM.pure, still.attributes, convertAttributes, allPlain, List.zipWith_cons_cons, converted,
    plain, List.zipWith_nil_left, List.all_cons, List.all_nil, id_eq, Bool.and_false,
    Bool.false_and, Bool.and_true, Bool.false_eq_true, if_false, copy, copied]
  rfl

end Pairs

theorem blobOf_bare {body : Body} {bytes : Bytes} (codec : context.codec = .packed)
    (here : heap.Holds ref body none)
    (written : ∀ after place, heap.Retains after → after.Holds place body none →
      Codec.packed.serialize after place = .ok bytes) :
    blobOf context.codec heap ref =
      (.ok bytes, if heap.isShared ref then (heap.bareCopy ref).2 else heap) := by
  rw [blobOf, codec]
  split
  · cases itself : (heap.body ref).copiesToItself with
    | true =>
        rw [heap.bareCopy_itself itself]
        simp only [written heap ref (.refl heap) here]
    | false =>
        rw [heap.bareCopy_alloc itself, here.body]
        simp only [written _ _ (.alloc heap body) (heap.holds_alloc body)]
  · simp only [Heap.replaceAttributes_none here.attributes, here.attributes,
      written heap ref (.refl heap) here]

theorem convert_encoded {bytes : Bytes} {after : Heap} (convert : Ref → Converting Message)
    (blob : blobOf context.codec heap ref = (.ok bytes, after)) (bare : heap.attributes ref = none)
    (known : List Ref) :
    convertEncoded context convert ref { heap, environments := known } =
      .ok (.encoded (heap.kind ref) bytes none) { heap := after, environments := known } := by
  have encode : Converting.onHeap (fun heap => blobOf context.codec heap ref)
      { heap, environments := known } =
        .ok (.ok bytes) { heap := after, environments := known } := by
    show EStateM.Result.ok (blobOf context.codec heap ref).1
      ({ heap := (blobOf context.codec heap ref).2, environments := known } : ConvertState) = _
    rw [blob]
  simp only [convertEncoded, bind, EStateM.bind, read_heap, encode, bare, convertAttributes, pure,
    EStateM.pure]

theorem namedKind?_global {bindings : Mapping Ref} {parent : Option Ref}
    (here : heap.Holds ref (.environment { kind := .global, bindings, parent }) none) :
    heap.namedKind? ref = some .global := by
  simp only [Heap.namedKind?, here.body, EnvironmentKind.isLocal, Bool.false_eq_true, if_false]

theorem convert_global (depth : Nat) (codec : context.codec = .packed) {env : Ref}
    (isGlobal : Global heap.Holds env) (known : List Ref) :
    convertWithin context (depth + 1) env { heap, environments := known } =
      .ok globalMessage { heap, environments := known } := by
  obtain ⟨bindings, parent, here⟩ := isGlobal
  have blob := blobOf_bare codec here fun after place _ there => by
    have leaf : after.leaf? place = some (.named .global) := by
      simp only [Heap.leaf?, there.body, namedKind?_global there, Option.map_some]
    exact Codec.serialize_leaf leaf there.attributes (Nat.zero_lt_of_lt there.inside)
  have itself : heap.bareCopy env = (env, heap) :=
    heap.bareCopy_itself (by rw [here.body]; rfl)
  have kind : heap.kind env = .environment := by
    rw [Heap.kind, here.body]
    rfl
  rw [itself, ite_self] at blob
  have encoded := convert_encoded (convertWithin context depth) blob here.attributes known
  rw [kind] at encoded
  rw [convertWithin]
  simp only [bind, EStateM.bind, read_heap, here.body]
  exact encoded

section Closures

variable {data : AtomicVector} {env scale global : Ref}

theorem encode_data (depth : Nat) (here : Data heap.Holds ref data) (known : List Ref) :
    Node.encodeWithin heap (depth + 1) ref known = .ok (.bare (.vector data), known) := by
  have content : (heap.get ref).body = .vector data := here.body
  have bare : (heap.get ref).attributes = none := here.attributes
  rw [Node.encodeWithin]
  simp only [content, Node.encodeBody, bare]
  rfl

theorem encoding_bind {α β : Type} {first : Node.Encoding α} {next : α → Node.Encoding β}
    {middle : List Ref} {value : α} (ran : first known = .ok (value, middle)) :
    (first >>= next) known = next value middle := by
  simp only [bind, StateT.bind, Except.bind, ran]

/-- Nothing in a message of the demonstration, or in an answer to it, lies deeper. -/
theorem le_depthBound (inside : ref.index < heap.size) : 4 ≤ Node.depthBound heap := by
  have square : 2 * 2 ≤ (heap.size + 1) * (heap.size + 1) :=
    Nat.mul_le_mul (by omega) (by omega)
  rw [Node.depthBound]
  omega

theorem encode_around (depth : Nat) (around : Local heap.Holds env [("scale", scale)] global)
    (here : Data heap.Holds scale data) (isGlobal : Global heap.Holds global) :
    Node.encodeWithin heap (depth + 2) env [] =
      .ok (.bare (.environment 0 [("scale", .bare (.vector data))] (some (.bare (.named .global)))),
        [env]) := by
  obtain ⟨bindings, parent, last⟩ := isGlobal
  have content : (heap.get env).body = _ := around.body
  have bare : (heap.get env).attributes = none := around.attributes
  have inner := encode_data depth here [env]
  have outer := Node.encode_named (namedKind?_global last) depth [env]
  have item : Node.encodeFrame (Node.encodeWithin heap (depth + 1)) env
      { kind := .localEnv, bindings := ⟨[("scale", scale)]⟩, parent := some global } [] =
        .ok (.environment 0 [("scale", .bare (.vector data))] (some (.bare (.named .global))),
          [env]) := by
    have asked : (get : Node.Encoding (List Ref)) [] = .ok ([], []) := rfl
    have opened : (set [env] : Node.Encoding PUnit) [] = .ok (⟨⟩, [env]) := rfl
    have named : Node.encodeEntries (Node.encodeWithin heap (depth + 1)) [("scale", scale)] [env] =
        .ok ([("scale", .bare (.vector data))], [env]) := by
      rw [Node.encodeEntries, List.mapM_cons, encoding_bind (encoding_bind inner)]
      rfl
    have behind : Node.encodeOptional (Node.encodeWithin heap (depth + 1)) (some global) [env] =
        .ok (some (.bare (.named .global)), [env]) := by
      simp only [Node.encodeOptional, Functor.map, StateT.map, bind, Except.bind, outer]
      rfl
    rw [Node.encodeFrame, encoding_bind asked]
    simp only [List.idxOf?_nil, List.nil_append]
    rw [encoding_bind opened, encoding_bind named, encoding_bind behind]
    rfl
  have isLocal : EnvironmentKind.isLocal .localEnv = true := rfl
  rw [Node.encodeWithin]
  simp only [content, bare, Node.encodeBody, isLocal, reduceIte, item, bind, StateT.bind,
    Except.bind]
  rfl

variable (around : Local heap.Holds env [("scale", scale)] global)
  (inner : Data heap.Holds scale (.double [Double.ofInt round]))
  (isGlobal : Global heap.Holds global)

include around inner isGlobal

theorem serialize_scaling
    (here : heap.Holds ref (.closure { formals := ["x"], body := scaled, env }) none) :
    Codec.packed.serialize heap ref = .ok (scalingNode round).toItem.write := by
  have content : (heap.get ref).body = _ := here.body
  have bare : (heap.get ref).attributes = none := here.attributes
  have deep : 3 ≤ Node.depthBound heap := Nat.le_of_succ_le (le_depthBound here.inside)
  obtain ⟨depth, bound⟩ := Nat.exists_eq_add_of_le' deep
  have behind := encode_around depth around inner isGlobal
  have written : Node.encodeWithin heap (depth + 3) ref [] = .ok (scalingNode round, [env]) := by
    rw [Node.encodeWithin]
    simp only [content, bare, Node.encodeBody, behind, bind, StateT.bind, Except.bind]
    rfl
  have node : Node.ofValue heap ref = .ok (scalingNode round) := by
    rw [Node.ofValue, bound, written]
    rfl
  show (do
    let node ← Node.ofValue heap ref
    pure node.toItem.write) = _
  rw [node]
  rfl

theorem convert_scaling (codec : context.codec = .packed)
    (here : heap.Holds ref (.closure { formals := ["x"], body := scaled, env }) none) :
    ∃ after, (∀ depth known, convertWithin context (depth + 1) ref { heap, environments := known } =
        .ok (.encoded .closure (scalingNode round).toItem.write none)
          { heap := after, environments := known }) ∧
      heap.Retains after := by
  have blob := blobOf_bare codec here fun after place retains there =>
    serialize_scaling (retains.holds around) (retains.holds inner)
      (isGlobal.retained retains) there
  have kind : heap.kind ref = .closure := by
    rw [Heap.kind, here.body]
    rfl
  generalize copied : (if heap.isShared ref then (heap.bareCopy ref).2 else heap) = after at blob
  refine ⟨after, ?_, ?_⟩
  · intro depth known
    have encoded := convert_encoded (convertWithin context depth) blob here.attributes known
    rw [kind] at encoded
    rw [convertWithin]
    simp only [bind, EStateM.bind, read_heap, here.body]
    exact encoded
  · rw [← copied]
    split
    · simp only [Heap.bareCopy]
      split
      · exact .refl heap
      · exact .alloc heap _
    · exact .refl heap

end Closures

section Environments

variable {outer one two number global : Ref}

theorem read_environments (state : ConvertState) :
    (get : Converting ConvertState) state = .ok state state := rfl

theorem read_modify (change : ConvertState → ConvertState) (state : ConvertState) :
    (modify change : Converting Unit) state = .ok () (change state) := rfl

theorem convert_outer (depth : Nat) (codec : context.codec = .packed)
    (around : Local heap.Holds outer [("depth", one)] global)
    (shallow : Data heap.Holds one (.integer [int32 1])) (isGlobal : Global heap.Holds global)
    (new : outer ∉ known) :
    convertWithin context (depth + 2) outer { heap, environments := known } =
      .ok (.environment (UInt32.ofNat known.length) [("depth", .plain one)] (some globalMessage)
          none)
        { heap := (heap.makeShared one).2, environments := known ++ [outer] } := by
  have retains := Heap.Retains.makeShared heap one
  have isLocal : EnvironmentKind.isLocal .localEnv = true := rfl
  have unmet := List.idxOf?_eq_none_iff.mpr new
  have binding := convert_data context depth shallow (known ++ [outer])
  have parent := convert_global depth codec
    (isGlobal.retained retains) (known ++ [outer])
  have bare := (retains.holds around).attributes
  rw [convertWithin]
  simp only [bind, EStateM.bind, read_heap, around.body, isLocal, reduceIte, convertEnvironment,
    read_environments, unmet, read_modify, convertEntries, binding, pure, EStateM.pure,
    convertOptional, parent, Functor.map, EStateM.map, bare, convertAttributes]

theorem convert_nested (codec : context.codec = .packed)
    (here : Local heap.Holds ref [("depth", two), ("round", number)] outer)
    (around : Local heap.Holds outer [("depth", one)] global)
    (shallow : Data heap.Holds one (.integer [int32 1]))
    (deep : Data heap.Holds two (.integer [int32 2]))
    (last : Data heap.Holds number (.integer [int32 round])) (isGlobal : Global heap.Holds global) :
    convertWithin context (depth + 3) ref { heap, environments := [] } =
      .ok (nestedMessage one two number)
        { heap := (((heap.makeShared two).2.makeShared number).2.makeShared one).2
          environments := [ref, outer] } := by
  have first := Heap.Retains.makeShared heap two
  have second := first.trans (.makeShared (heap.makeShared two).2 number)
  have third := second.trans (.makeShared ((heap.makeShared two).2.makeShared number).2 one)
  have isLocal : EnvironmentKind.isLocal .localEnv = true := rfl
  have apart : ref ≠ outer := ne_of_holds here around fun same => by cases same
  have new : outer ∉ [ref] := fun member => apart (List.mem_singleton.mp member).symm
  have binding := convert_data context (depth + 1) deep [ref]
  have another := convert_data context (depth + 1) (first.holds last) [ref]
  have parent := convert_outer depth codec (second.holds around) (second.holds shallow)
    (isGlobal.retained second) new
  have bare := (third.holds here).attributes
  rw [convertWithin]
  simp only [bind, EStateM.bind, read_heap, here.body, isLocal, reduceIte, convertEnvironment,
    read_environments, List.idxOf?_nil, read_modify, List.nil_append, convertEntries, binding,
    another, pure, EStateM.pure, convertOptional, parent, Functor.map, EStateM.map, bare,
    convertAttributes]
  rfl

theorem convert_delayed (codec : context.codec = .packed) {env : Option Ref}
    (here : heap.Holds ref (.promise { expr := successor, env, value := none }) none)
    (isGlobal : Global heap.Holds (env.getD context.environments.global)) (known : List Ref) :
    convertWithin context (depth + 2) ref { heap, environments := known } =
      .ok (.promise (some globalMessage) none successor.toItem.write)
        { heap, environments := known } := by
  have parent := convert_global depth codec isGlobal known
  have expr : Codec.packed.serializeExpr successor = .ok successor.toItem.write := rfl
  rw [convertWithin]
  simp only [bind, EStateM.bind, read_heap, here.body, convertPromise, codec, expr, parent, pure,
    EStateM.pure]

end Environments

/-- What is known of the conversion of a message for a worker and a round. -/
structure Converted (context : Context) (heap : Heap) (worker round : Nat) (ref : Ref)
    (message : Message) (after : Heap) (known : List Ref) : Prop where
  converts : ∀ depth, convertWithin context (depth + 3) ref { heap, environments := [] } =
    .ok message { heap := after, environments := known }
  travels : Travels after.Fixes worker round message
  retains : heap.Retains after
  whole : message.isPlain ref = decide (round % 6 < 3)

theorem converted_named {names : Ref} (kind : round % 6 = 1)
    (here : heap.Holds ref (.vector (point worker round)) (some ⟨[("names", names)]⟩))
    (there : Data heap.Holds names (.character ["worker", "round"])) :
    Converted context heap worker round ref (.plain ref)
      ((heap.makeShared ref).2.makeShared names).2 [] := by
  have first := Heap.Retains.makeShared heap ref
  have second := Heap.Retains.makeShared (heap.makeShared ref).2 names
  constructor
  · intro depth
    exact convert_named here there []
  · simp only [Travels, kind]
    refine ⟨ref, rfl, ?_⟩
    simp only [Shows, kind]
    exact ⟨names, second.ages.fixes (Heap.fixes_makeShared here rfl),
      Heap.fixes_makeShared (first.holds there) rfl⟩
  · exact first.trans second
  · simp only [isPlain, BEq.rfl, kind]
    rfl

theorem converted_task {label inner number even : Ref} (kind : round % 6 = 2)
    (here : Listed heap.Holds ref [label, inner])
    (first : Data heap.Holds label (.character ["task"]))
    (within : Listed heap.Holds inner [number, even])
    (second : Data heap.Holds number (.integer [int32 worker]))
    (third : Data heap.Holds even (.logical [round % 2 == 0])) :
    ∃ after, Converted context heap worker round ref (.plain ref) after [] := by
  -- Every part is marked in its turn, and what was marked before stays as it is.
  let labelled := (heap.makeShared label).2
  let numbered := (labelled.makeShared number).2
  let evened := (numbered.makeShared even).2
  let filled := (evened.makeShared inner).2
  let after := (filled.makeShared ref).2
  have labels : heap.Retains labelled := .makeShared heap label
  have numbers : labelled.Retains numbered := .makeShared labelled number
  have evens : numbered.Retains evened := .makeShared numbered even
  have inners : evened.Retains filled := .makeShared evened inner
  have lasts : filled.Retains after := .makeShared filled ref
  have upToNumber := labels.trans numbers
  have upToEven := upToNumber.trans evens
  have upToInner := upToEven.trans inners
  refine ⟨after, ?_, ?_, ?_, ?_⟩
  · intro depth
    have one := convert_data context (depth + 1) first []
    have two := convert_data context depth (labels.holds second) []
    have three := convert_data context depth (upToNumber.holds third) []
    have list := convert_whole (labels.holds within) two (numbers.trans evens) three
    exact convert_whole here one upToInner list
  · simp only [Travels, kind]
    refine ⟨ref, rfl, ?_⟩
    simp only [Shows, kind]
    refine ⟨label, inner, number, even, ?_, ?_, ?_, ?_, ?_⟩
    · exact Heap.fixes_makeShared (upToInner.holds here) rfl
    · exact ((numbers.trans evens).trans (inners.trans lasts)).ages.fixes
        (Heap.fixes_makeShared first rfl)
    · exact lasts.ages.fixes (Heap.fixes_makeShared (upToEven.holds within) rfl)
    · exact (evens.trans (inners.trans lasts)).ages.fixes
        (Heap.fixes_makeShared (labels.holds second) rfl)
    · exact (inners.trans lasts).ages.fixes (Heap.fixes_makeShared (upToNumber.holds third) rfl)
  · exact upToInner.trans lasts
  · simp only [isPlain, BEq.rfl, kind]
    rfl

theorem converted_nested {outer one two number global : Ref} (kind : round % 6 = 4)
    (codec : context.codec = .packed)
    (here : Local heap.Holds ref [("depth", two), ("round", number)] outer)
    (around : Local heap.Holds outer [("depth", one)] global)
    (shallow : Data heap.Holds one (.integer [int32 1]))
    (deep : Data heap.Holds two (.integer [int32 2]))
    (last : Data heap.Holds number (.integer [int32 round])) (isGlobal : Global heap.Holds global) :
    Converted context heap worker round ref (nestedMessage one two number)
      (((heap.makeShared two).2.makeShared number).2.makeShared one).2 [ref, outer] := by
  let first := (heap.makeShared two).2
  let second := (first.makeShared number).2
  let after := (second.makeShared one).2
  have firsts : heap.Retains first := .makeShared heap two
  have seconds : first.Retains second := .makeShared first number
  have thirds : second.Retains after := .makeShared second one
  constructor
  · intro depth
    exact convert_nested codec here around shallow deep last isGlobal
  · simp only [Travels, kind]
    refine ⟨one, two, number, rfl, ?_, ?_, ?_⟩
    · exact Heap.fixes_makeShared ((firsts.trans seconds).holds shallow) rfl
    · exact (seconds.trans thirds).ages.fixes (Heap.fixes_makeShared deep rfl)
    · exact thirds.ages.fixes (Heap.fixes_makeShared (firsts.holds last) rfl)
  · exact (firsts.trans seconds).trans thirds
  · simp only [isPlain, kind]
    rfl

/-- Every message for a worker and a round is converted. -/
theorem converted_shown (equipped : context.Equipped heap)
    (shows_ : Shows heap.Holds worker round ref) :
    ∃ message after known, Converted context heap worker round ref message after known := by
  have codec := equipped.codec
  rcases round_cases round with kind | kind | kind | kind | kind | kind
  all_goals simp only [Shows, kind] at shows_
  · refine ⟨.plain ref, (heap.makeShared ref).2, [], ?_, ?_, .makeShared heap ref, ?_⟩
    · intro depth
      exact convert_data context (depth + 2) shows_ []
    · simp only [Travels, kind]
      refine ⟨ref, rfl, ?_⟩
      simp only [Shows, kind]
      exact Heap.fixes_makeShared shows_ rfl
    · simp only [isPlain, BEq.rfl, kind]
      rfl
  · obtain ⟨names, here, there⟩ := shows_
    exact ⟨_, _, _, converted_named kind here there⟩
  · obtain ⟨label, inner, number, even, here, first, within, second, third⟩ := shows_
    obtain ⟨after, converted⟩ := converted_task kind here first within second third
    exact ⟨_, after, _, converted⟩
  · obtain ⟨env, scale, global, here, around, inner, isGlobal⟩ := shows_
    obtain ⟨after, converts, retains⟩ := convert_scaling around inner isGlobal codec here
    refine ⟨_, after, [], fun depth => converts (depth + 2) [], ?_, retains, ?_⟩
    · simp only [Travels, kind]
    · simp only [isPlain, kind]
      rfl
  · obtain ⟨outer, one, two, number, global, here, around, shallow, deep, last, isGlobal⟩ := shows_
    exact ⟨_, _, _, converted_nested kind codec here around shallow deep last isGlobal⟩
  · obtain ⟨env, here, isGlobal⟩ := shows_
    have behind : Global heap.Holds (env.getD context.environments.global) := by
      cases env with
      | none => exact equipped.global
      | some place => exact isGlobal place rfl
    refine ⟨_, heap, [], fun depth => convert_delayed codec here behind [], ?_, .refl heap, ?_⟩
    · simp only [Travels, kind]
    · simp only [isPlain, kind]
      rfl

end Sample

end ValueChannels
