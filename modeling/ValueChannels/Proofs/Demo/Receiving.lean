import ValueChannels.Proofs.Demo.Passing
import ValueChannels.Proofs.Expr.RoundTrip
import ValueChannels.Proofs.Transfer.Conversion

/-!
What comes of the messages of the demonstration where they are received. A worker builds a copy of
the message and answers with it; the master gets a copy of that copy, and both copies show what the
message showed. Main statements: `travels_ofValue` and `shows_toValue` for messages,
`returns_ofValue` and `shows_returned` for answers, `form_travels` and `form_returns` for the forms
in which they are observed.
-/

namespace ValueChannels.Sample

open Message Pack

variable {context : Context} {heap : Heap} {worker round : Nat} {ref : Ref}
  {table : List (UInt32 × Ref)}

/-! ### Receiving -/

theorem fits_global : (Node.bare (.named .global)).toItem.Fits := by
  decide +kernel

theorem fits_successor : successor.toItem.Fits := by
  decide +kernel

theorem fits_scaling (round : Nat) : (scalingNode round).toItem.Fits := by
  have levels : (scalingNode round).toItem.levels = (scalingNode 0).toItem.levels := by
    simp only [scalingNode, Node.bare, Node.toItem, NodeItem.toItem, Node.entryItems,
      Node.optionalItem, Node.vectorItem, List.map_cons, List.map_nil, Item.tagged, Item.levels,
      Item.levelsAll, Item.levelsEntries]
  have longest : (scalingNode round).toItem.longest = (scalingNode 0).toItem.longest := by
    simp only [scalingNode, Node.bare, Node.toItem, NodeItem.toItem, Node.entryItems,
      Node.optionalItem, Node.vectorItem, List.map_cons, List.map_nil, Item.tagged, Item.longest,
      Item.longestAll, Item.longestEntries, List.length_cons, List.length_nil]
  rw [Item.Fits, longest, levels]
  decide +kernel

theorem reread_successor : successor.reread = successor := by
  rw [Expr.reread_eq]
  rfl

theorem build_encoded (codec : context.codec = .packed) {node : Node} (fits : node.toItem.Fits)
    {after : Heap} {known : List (UInt32 × Ref)}
    (decoded : node.decode context.environments { heap, environments := [] } =
      .ok ref { heap := after, environments := known })
    (kind : ValueKind) (table : List (UInt32 × Ref)) :
    (Message.encoded kind node.toItem.write none).build context { heap, environments := table } =
      .ok ref { heap := after, environments := table } := by
  have read : Codec.readPacked Node.decoder node.toItem.write = .ok node :=
    Codec.readPacked_write (node.packable fits) (Node.decodes _ node)
  have unserialized : context.codec.unserialize context.environments node.toItem.write heap =
      .ok ref after := by
    rw [codec]
    simp only [Codec.packed, Codec.unserializePacked, read, decoded]
  have built : Building.unserialize context node.toItem.write { heap, environments := table } =
      .ok ref { heap := after, environments := table } := by
    simp only [Building.unserialize, unserialized]
  simp only [build, bind, EStateM.bind, built, attach]
  rfl

theorem build_global (codec : context.codec = .packed) (heap : Heap)
    (table : List (UInt32 × Ref)) :
    globalMessage.build context { heap, environments := table } =
      .ok context.environments.global { heap, environments := table } :=
  build_encoded codec fits_global rfl .environment table

theorem local_setParent {env parent : Ref} {entries : List (String × Ref)}
    (isLocal : Local heap.Holds env entries parent) (enclosing : Ref) :
    Local (heap.setParent env enclosing).Holds env entries enclosing := by
  have written := heap.get_setParent_same enclosing isLocal.body
  constructor
  · rw [heap.size_setParent]
    exact isLocal.inside
  · exact congrArg Object.body written
  · exact (congrArg Object.attributes written).trans isLocal.attributes

theorem holds_setParent {env enclosing : Ref} {body : Body} {attributes : Option Attributes}
    (here : heap.Holds ref body attributes) (different : ref ≠ env) :
    (heap.setParent env enclosing).Holds ref body attributes :=
  here.congr (Nat.le_of_eq (heap.size_setParent env enclosing).symm)
    (heap.get_setParent_other enclosing different)

theorem built_scaling (equipped : context.Equipped heap) (round : Nat)
    (table : List (UInt32 × Ref)) :
    ∃ value after, (Message.encoded .closure (scalingNode round).toItem.write none).build context
        { heap, environments := table } = .ok value { heap := after, environments := table } ∧
      (∃ env scale global, after.Holds value (.closure { formals := ["x"], body := scaled, env })
          none ∧ Local after.Holds env [("scale", scale)] global ∧
        Data after.Holds scale (.double [Double.ofInt round]) ∧ Global after.Holds global) ∧
      heap.Retains after := by
  let env : Ref := ⟨heap.size⟩
  let start := (heap.allocLocal context.environments.empty).2
  let bound := bindData start env "scale" (.double [Double.ofInt round])
  let placed := bound.setParent env context.environments.global
  let closure := placed.alloc (.closure { formals := ["x"], body := scaled, env })
  have made : heap.Retains start := .alloc heap _
  have isLocal : Local start.Holds env [] context.environments.empty := local_alloc heap _
  have filled : Local bound.Holds env [("scale", ⟨start.size⟩)] context.environments.empty :=
    local_bindData isLocal (.double [Double.ofInt round]) "scale" List.not_mem_nil
  have scale : Data bound.Holds ⟨start.size⟩ (.double [Double.ofInt round]) :=
    data_bindData isLocal (.double [Double.ofInt round]) "scale"
  have apart := ne_of_holds scale filled (by simp)
  have binds : heap.Retains bound := retains_bindData made env (Nat.le_refl _) _ _
  have places : heap.Retains placed := binds.setParent _ (Nat.le_refl _)
  have closes : placed.Retains closure.2 := .alloc placed _
  have decoded : (scalingNode round).decode context.environments { heap, environments := [] } =
      .ok closure.1 { heap := closure.2, environments := [(0, env)] } := rfl
  refine ⟨closure.1, closure.2, build_encoded equipped.codec (fits_scaling round) decoded _ _,
    ?_, places.trans closes⟩
  refine ⟨env, ⟨start.size⟩, context.environments.global, placed.holds_alloc _, ?_, ?_, ?_⟩
  · exact closes.holds (local_setParent filled _)
  · exact closes.holds (holds_setParent scale apart)
  · exact equipped.global.retained (places.trans closes)

theorem built_outer (equipped : context.Equipped heap) (one : Ref) (id : UInt32)
    (table : List (UInt32 × Ref)) :
    ∃ env after, (Message.environment id [("depth", .plain one)] (some globalMessage) none).build
        context { heap, environments := table } =
          .ok env { heap := after, environments := (id, env) :: table } ∧
      Local after.Holds env [("depth", one)] context.environments.global ∧ heap.Retains after := by
  let env : Ref := ⟨heap.size⟩
  let start := (heap.allocLocal context.environments.empty).2
  let bound := start.define env "depth" one
  have made : heap.Retains start := .alloc heap _
  have isLocal : Local start.Holds env [] context.environments.empty := local_alloc heap _
  have filled : Local bound.Holds env [("depth", one)] context.environments.empty :=
    local_define isLocal List.not_mem_nil one
  have binds : heap.Retains bound := made.define "depth" one (Nat.le_refl _)
  have parent := build_global equipped.codec bound ((id, env) :: table)
  refine ⟨env, bound.setParent env context.environments.global, ?_, local_setParent filled _,
    binds.setParent _ (Nat.le_refl _)⟩
  rw [build]
  show EStateM.bind (buildOptional context (some globalMessage)) _
    { heap := bound, environments := (id, env) :: table } = _
  simp only [EStateM.bind, buildOptional, bind, parent, pure, EStateM.pure]
  rfl

theorem equipped_retained {after : Heap} (retains : heap.Retains after)
    (equipped : context.Equipped heap) : context.Equipped after :=
  ⟨equipped.codec, equipped.global.retained retains⟩

theorem built_nested (equipped : context.Equipped heap) (one two number : Ref)
    (table : List (UInt32 × Ref)) :
    ∃ value outer after known, (nestedMessage one two number).build context
        { heap, environments := table } = .ok value { heap := after, environments := known } ∧
      Local after.Holds value [("depth", two), ("round", number)] outer ∧
      Local after.Holds outer [("depth", one)] context.environments.global ∧
      heap.Retains after := by
  let env : Ref := ⟨heap.size⟩
  let start := (heap.allocLocal context.environments.empty).2
  let first := start.define env "depth" two
  let second := first.define env "round" number
  have made : heap.Retains start := .alloc heap _
  have isLocal : Local start.Holds env [] context.environments.empty := local_alloc heap _
  have once : Local first.Holds env [("depth", two)] context.environments.empty :=
    local_define isLocal List.not_mem_nil two
  have absent : "round" ∉ ["depth"] := by decide
  have twice : Local second.Holds env [("depth", two), ("round", number)]
      context.environments.empty := local_define once absent number
  have binds : heap.Retains second :=
    (made.define "depth" two (Nat.le_refl _)).define "round" number (Nat.le_refl _)
  obtain ⟨outer, after, built, around, retains⟩ :=
    built_outer (equipped_retained binds equipped) one 1 ((0, env) :: table)
  have here := retains.holds twice
  have apart : outer ≠ env := ne_of_holds around here fun same => by cases same
  refine ⟨env, outer, after.setParent env outer, (1, outer) :: (0, env) :: table, ?_,
    local_setParent here outer, holds_setParent around apart, ?_⟩
  · rw [nestedMessage, build]
    show EStateM.bind (buildOptional context (some (.environment 1 [("depth", .plain one)]
      (some globalMessage) none))) _ { heap := second, environments := (0, env) :: table } = _
    simp only [EStateM.bind, buildOptional, bind, built, pure, EStateM.pure]
    rfl
  · exact (binds.trans retains).setParent outer (Nat.le_refl _)

/-- What is built from the message for a worker and a round is a copy of the message. -/
theorem built_travels {message : Message} (equipped : context.Equipped heap)
    (travels : Travels heap.Fixes worker round message) :
    ∃ value after known, message.build context { heap, environments := [] } =
        .ok value { heap := after, environments := known } ∧
      Shows after.Holds worker round value ∧ heap.Retains after := by
  have whole (shown : ∃ ref, message = .plain ref ∧ Shows heap.Fixes worker round ref) :
      ∃ value after known, message.build context { heap, environments := [] } =
          .ok value { heap := after, environments := known } ∧
        Shows after.Holds worker round value ∧ heap.Retains after := by
    obtain ⟨ref, same, shown⟩ := shown
    rw [same]
    exact ⟨ref, heap, [], rfl, shown.mono fun _ _ _ fixed => fixed.toHolds, .refl heap⟩
  rcases round_cases round with kind | kind | kind | kind | kind | kind
  all_goals simp only [Travels, kind] at travels
  · exact whole travels
  · exact whole travels
  · exact whole travels
  · obtain ⟨value, after, built, copy, retains⟩ := built_scaling equipped round []
    rw [travels]
    refine ⟨value, after, [], built, ?_, retains⟩
    simp only [Shows, kind]
    exact copy
  · obtain ⟨one, two, number, same, shallow, deep, last⟩ := travels
    obtain ⟨value, outer, after, known, built, here, around, retains⟩ :=
      built_nested equipped one two number []
    rw [same]
    refine ⟨value, after, known, built, ?_, retains⟩
    simp only [Shows, kind]
    exact ⟨outer, one, two, number, _, here, around, retains.holds shallow.toHolds,
      retains.holds deep.toHolds, retains.holds last.toHolds,
      equipped.global.retained retains⟩
  · have global := build_global equipped.codec heap []
    have expr : rebuildExpr context.codec successor.toItem.write = .ok successor := by
      rw [equipped.codec, rebuildExpr_packed (successor.packable fits_successor), reread_successor]
    let promise : Promise :=
      { expr := successor, env := some context.environments.global, value := none }
    rw [travels]
    refine ⟨(heap.alloc (.promise promise)).1, (heap.alloc (.promise promise)).2, [], ?_, ?_,
      .alloc heap _⟩
    · rw [build]
      simp only [expr, bind, EStateM.bind, buildOptional, global, pure, EStateM.pure]
      rfl
    · simp only [Shows, kind]
      refine ⟨_, heap.holds_alloc _, ?_⟩
      intro place same
      cases same
      exact equipped.global.retained (.alloc heap _)

/-- A message for a worker and a round is converted to what travels. -/
theorem travels_ofValue (equipped : context.Equipped heap)
    (shows_ : Shows heap.Holds worker round ref) :
    ∃ message after, ofValue context heap ref = (.ok message, after) ∧
      Travels after.Fixes worker round message ∧ heap.Retains after := by
  obtain ⟨_, _, here⟩ := equipped.global
  have deep : 3 ≤ Node.depthBound heap := Nat.le_of_succ_le (le_depthBound here.inside)
  obtain ⟨depth, bound⟩ := Nat.exists_eq_add_of_le' deep
  obtain ⟨message, after, known, converted⟩ := converted_shown equipped shows_
  refine ⟨message, after, ?_, converted.travels, converted.retains⟩
  rw [ofValue, bound, converted.converts depth]

/-- What travels is received as a copy of the message. -/
theorem shows_toValue {message : Message} (equipped : context.Equipped heap)
    (travels : Travels heap.Fixes worker round message) :
    ∃ value after, message.toValue context heap = (.ok value, after) ∧
      Shows after.Holds worker round value ∧ heap.Retains after := by
  obtain ⟨value, after, known, built, shown, retains⟩ := built_travels equipped travels
  refine ⟨value, after, ?_, shown, retains⟩
  rw [toValue, built]

/-! ### Answers -/

/-- The answer to the message for a worker and a round on its way: a list of a text and a copy of
the message, handed over whole or in parts. -/
inductive Returns (heap : Heap) (worker round : Nat) : Message → Prop where
  | whole {list label copy : Ref} (listed : Listed heap.Fixes list [label, copy])
      (labelled : Data heap.Fixes label (.character [(shape round).name]))
      (shown : Shows heap.Fixes worker round copy) (flat : round % 6 < 3) :
      Returns heap worker round (.plain list)
  | split {shell label first second : Ref} {message : Message}
      (listed : Listed heap.Holds shell [first, second])
      (labelled : Data heap.Fixes label (.character [(shape round).name]))
      (travels : Travels heap.Fixes worker round message) (deep : 3 ≤ round % 6) :
      Returns heap worker round (.list shell [.plain label, message] none)

/-- A message on its way stays what it is, whatever goes on elsewhere. -/
theorem Shows.fixed {after : Heap} (ages : heap.Ages after)
    (shown : Shows heap.Fixes worker round ref) : Shows after.Fixes worker round ref :=
  shown.mono fun _ _ _ fixed => ages.fixes fixed

theorem Travels.aged {after : Heap} {message : Message} (ages : heap.Ages after)
    (travels : Travels heap.Fixes worker round message) :
    Travels after.Fixes worker round message := by
  rcases round_cases round with kind | kind | kind | kind | kind | kind
  all_goals simp only [Travels, kind] at travels ⊢
  · obtain ⟨ref, same, shown⟩ := travels
    exact ⟨ref, same, shown.fixed ages⟩
  · obtain ⟨ref, same, shown⟩ := travels
    exact ⟨ref, same, shown.fixed ages⟩
  · obtain ⟨ref, same, shown⟩ := travels
    exact ⟨ref, same, shown.fixed ages⟩
  · exact travels
  · obtain ⟨one, two, number, same, shallow, deep, last⟩ := travels
    exact ⟨one, two, number, same, ages.fixes shallow, ages.fixes deep, ages.fixes last⟩
  · exact travels

theorem Returns.aged {after : Heap} {message : Message} (ages : heap.Ages after)
    (returns : Returns heap worker round message) : Returns after worker round message := by
  cases returns with
  | whole listed labelled shown flat =>
      exact .whole (ages.fixes listed) (ages.fixes labelled) (shown.fixed ages) flat
  | split listed labelled travels deep =>
      obtain ⟨others, content, length⟩ := ages.list _ _ listed.body
      obtain ⟨first, second, pair⟩ := List.length_eq_two.mp length
      rw [pair] at content
      have still : Listed after.Holds _ [first, second] :=
        ⟨Nat.lt_of_lt_of_le listed.inside ages.size, content,
          (ages.attributes _ listed.inside).trans listed.attributes⟩
      exact .split still (ages.fixes labelled) (travels.aged ages) deep

theorem Travels.plain {holds : Holding} (travels : Travels holds worker round (.plain ref)) :
    Shows holds worker round ref := by
  rcases round_cases round with kind | kind | kind | kind | kind | kind
  all_goals simp only [Travels, kind] at travels
  · obtain ⟨_, same, shown⟩ := travels
    cases same
    exact shown
  · obtain ⟨_, same, shown⟩ := travels
    cases same
    exact shown
  · obtain ⟨_, same, shown⟩ := travels
    cases same
    exact shown
  · cases travels
  · obtain ⟨_, _, _, same, _⟩ := travels
    cases same
  · cases travels

/-- The answer to a message is converted. -/
theorem returns_ofValue {label copy answer : Ref} (equipped : context.Equipped heap)
    (shows_ : Shows heap.Holds worker round copy)
    (labelled : Data heap.Holds label (.character [(shape round).name]))
    (listed : Listed heap.Holds answer [label, copy]) :
    ∃ message after, ofValue context heap answer = (.ok message, after) ∧
      Returns after worker round message ∧ heap.Retains after := by
  obtain ⟨depth, bound⟩ := Nat.exists_eq_add_of_le' (le_depthBound listed.inside)
  let marked := (heap.makeShared label).2
  have marks : heap.Retains marked := .makeShared heap label
  have one := convert_data context (depth + 2) labelled []
  obtain ⟨message, middle, known, converted⟩ := converted_shown (equipped_retained marks equipped)
    (shows_.retained marks)
  have upToCopy := marks.trans converted.retains
  have fixed : Data middle.Fixes label (.character [(shape round).name]) :=
    converted.retains.ages.fixes (Heap.fixes_makeShared labelled rfl)
  by_cases flat : round % 6 < 3
  · have isPlain := converted.whole.trans (decide_eq_true flat)
    have same : message = .plain copy := isPlain_iff.mp isPlain
    have converts := converted.converts depth
    rw [same] at converts
    have whole := convert_whole listed one upToCopy converts
    have lasts := Heap.Retains.makeShared middle answer
    refine ⟨.plain answer, (middle.makeShared answer).2, ?_, ?_, upToCopy.trans lasts⟩
    · rw [ofValue, bound, whole]
    · have travels := converted.travels
      rw [same] at travels
      exact .whole (Heap.fixes_makeShared (upToCopy.holds listed) rfl) (lasts.ages.fixes fixed)
        (travels.plain.fixed lasts.ages) flat
  · have isPlain := converted.whole.trans (decide_eq_false flat)
    have split := convert_split listed one upToCopy (converted.converts depth) isPlain
    have lasts := Heap.Retains.alloc middle (.list [label, copy])
    refine ⟨.list ⟨middle.size⟩ [.plain label, message] none,
      (middle.alloc (.list [label, copy])).2, ?_, ?_, upToCopy.trans lasts⟩
    · rw [ofValue, bound, split]
    · exact .split (middle.holds_alloc _) (lasts.ages.fixes fixed)
        (converted.travels.aged lasts.ages) (Nat.le_of_not_lt flat)

theorem entered_element {shell : Ref} {items : List Ref} (element : Ref) (index : Nat)
    (listed : Listed heap.Holds shell items) (room : index < items.length)
    (table : List (UInt32 × Ref)) :
    ∃ filled after, Building.enterElement shell index element { heap, environments := table } =
        .ok filled { heap := after, environments := table } ∧
      Listed after.Holds filled (items.set index element) ∧ heap.Ages after := by
  have copies : (heap.body shell).copiesToItself = false := by
    rw [listed.body]
    rfl
  have unshared := Heap.unshared_makePrivate copies
  have moved : Listed (heap.makePrivate shell).2.Holds (heap.makePrivate shell).1 items ∧
      heap.Retains (heap.makePrivate shell).2 := by
    rcases heap.makePrivate_cases shell with ⟨stays, _⟩ | ⟨_, moves⟩
    · rw [stays]
      exact ⟨listed, .refl heap⟩
    · rw [moves, listed.attributes, listed.body,
        Heap.replaceAttributes_none (heap.holds_alloc _).attributes]
      exact ⟨heap.holds_alloc _, .alloc heap _⟩
  generalize owned : heap.makePrivate shell = target at unshared moved
  obtain ⟨listed', retains⟩ := moved
  have written := target.2.get_setBody_same (.list (items.set index element)) listed'.inside
  have entered : heap.setElement shell index element =
      { handle := target.1, heap := target.2.setBody target.1 (.list (items.set index element))
        outcome := .ok () } := by
    simp only [Heap.setElement, listed.body, owned, room, if_true]
  refine ⟨target.1, target.2.setBody target.1 (.list (items.set index element)), ?_, ?_, ?_⟩
  · simp only [Building.enterElement, bind, EStateM.bind, Rebuilding.onHeap_eq, entered]
    rfl
  · constructor
    · rw [target.2.size_setBody]
      exact listed'.inside
    · exact congrArg Object.body written
    · exact (congrArg Object.attributes written).trans listed'.attributes
  · exact retains.ages.trans (Heap.Ages.setBody listed'.body unshared (List.length_set ..))

theorem Global.aged {after : Heap} {env : Ref} (ages : heap.Ages after)
    (isGlobal : Global heap.Holds env) : Global after.Holds env := by
  obtain ⟨bindings, parent, here⟩ := isGlobal
  exact ⟨bindings, parent, ages.holds here (by simp)⟩

theorem Shows.aged {after : Heap} (ages : heap.Ages after) (deep : 3 ≤ round % 6)
    (shows_ : Shows heap.Holds worker round ref) : Shows after.Holds worker round ref := by
  have frame {env : Ref} {frame : Frame} (here : heap.Holds env (.environment frame) none) :=
    ages.holds here (by simp)
  have vector {place : Ref} {data : AtomicVector} (here : Data heap.Holds place data) :=
    ages.holds here (by simp)
  have kinds : round % 6 = 3 ∨ round % 6 = 4 ∨ round % 6 = 5 := by omega
  rcases kinds with kind | kind | kind
  all_goals simp only [Shows, kind] at shows_ ⊢
  · obtain ⟨env, scale, global, here, around, inner, isGlobal⟩ := shows_
    exact ⟨env, scale, global, ages.holds here (by simp),
      frame around, vector inner, isGlobal.aged ages⟩
  · obtain ⟨outer, one, two, number, global, here, around, shallow, below, last, isGlobal⟩ := shows_
    exact ⟨outer, one, two, number, global, frame here, frame around, vector shallow, vector below,
      vector last, isGlobal.aged ages⟩
  · obtain ⟨env, here, isGlobal⟩ := shows_
    exact ⟨env, ages.holds here (by simp),
      fun place same => (isGlobal place same).aged ages⟩

/-- The list that is received as an answer. -/
theorem shows_returned {message : Message} (equipped : context.Equipped heap)
    (returns : Returns heap worker round message) :
    ∃ answer after label copy, message.toValue context heap = (.ok answer, after) ∧
      Listed after.Holds answer [label, copy] ∧
      Data after.Holds label (.character [(shape round).name]) ∧
      Shows after.Holds worker round copy ∧ heap.Ages after := by
  cases returns with
  | whole listed labelled shown =>
      exact ⟨_, heap, _, _, rfl, listed.toHolds, labelled.toHolds,
        shown.mono fun _ _ _ fixed => fixed.toHolds, (Heap.Retains.refl heap).ages⟩
  | @split shell label first second message listed labelled travels deep =>
      obtain ⟨once, heap', entered, listed', ages⟩ :=
        entered_element label 0 listed (Nat.zero_lt_succ _) []
      obtain ⟨copy, heap'', known, built, shown, retains⟩ :=
        built_travels ⟨equipped.codec, equipped.global.aged ages⟩ (travels.aged ages)
      obtain ⟨twice, after, entered', listed'', ages'⟩ :=
        entered_element copy 1 (retains.holds listed') (Nat.lt_succ_self _) known
      have whole := (ages.trans retains.ages).trans ages'
      refine ⟨twice, after, label, copy, ?_, listed'', (whole.fixes labelled).toHolds,
        shown.aged ages' deep, whole⟩
      have plain : (Message.plain label).build context { heap, environments := [] } =
          .ok label { heap, environments := [] } := rfl
      rw [toValue, build]
      simp only [fillList, bind, EStateM.bind, plain, entered, built, entered', attach, pure,
        EStateM.pure]

/-! ### The forms of messages -/

def form (round : Nat) : String :=
  match round % 6 with
  | 0 | 1 | 2 => "plain"
  | 3 => "opaque"
  | 4 => "env"
  | _ => "promise"

def answerForm (round : Nat) : String :=
  if round % 6 < 3 then "plain" else "list"

theorem form_travels {holds : Holding} {message : Message}
    (travels : Travels holds worker round message) : message.form = form round := by
  rcases round_cases round with kind | kind | kind | kind | kind | kind
  all_goals simp only [Travels, kind] at travels
  · obtain ⟨ref, same, _⟩ := travels
    simp only [same, Message.form, form, kind]
  · obtain ⟨ref, same, _⟩ := travels
    simp only [same, Message.form, form, kind]
  · obtain ⟨ref, same, _⟩ := travels
    simp only [same, Message.form, form, kind]
  · simp only [travels, Message.form, form, kind]
  · obtain ⟨one, two, number, same, _⟩ := travels
    simp only [same, nestedMessage, Message.form, form, kind]
  · simp only [travels, Message.form, form, kind]

theorem form_returns {message : Message} (returns : Returns heap worker round message) :
    message.form = answerForm round := by
  cases returns with
  | whole _ _ _ flat => simp only [Message.form, answerForm, flat, if_true]
  | split _ _ _ deep => simp only [Message.form, answerForm, Nat.not_lt_of_le deep, if_false]

end ValueChannels.Sample
