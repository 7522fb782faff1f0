import ValueChannels.Context.Codec
import ValueChannels.Proofs.Graph.Lossless
import ValueChannels.Proofs.Graph.Names
import ValueChannels.Proofs.Heap.Updates

/-!
References that the reader of a value can resolve. The writer numbers every local environment that it
meets, but those that it first meets under an attribute of NULL or of the unbound value are not read,
and a later reference to one of them leads nowhere. When no attribute of these two leads to a local
environment, the value is read just as it would be without those attributes, and every reference in
it is resolved. Main statements: `echoes_within` for the attributes that are not read,
`references_resolve` for values; `dangles` is a value that is written and cannot be read.
-/

namespace ValueChannels

/-! ### Attributes that are not read -/

/-- The object without its attributes if it is NULL or the unbound value. -/
def Object.bared (object : Object) : Object :=
  if object.body.isSingleton then { object with attributes := none } else object

namespace Heap

/-- What a value leads to when the environments that contexts own are not entered. -/
abbrev LeadsTo (heap : Heap) : Ref → Ref → Prop :=
  heap.Reaches fun ref => (heap.body ref).isNamed = true

/-- No local environment is among what the value leads to. -/
def Quiet (heap : Heap) (ref : Ref) : Prop :=
  ∀ env, heap.LeadsTo ref env → (heap.body env).isLocal = false

/-- Wherever the value leads to NULL or to the unbound value, the attributes of these lead to no
local environment. -/
def Unburdened (heap : Heap) (value : Ref) : Prop :=
  ∀ singleton, heap.LeadsTo value singleton → (heap.body singleton).isSingleton = true →
    ∀ entry ∈ attributeEntries (heap.attributes singleton), heap.Quiet entry.2

/-- The heap without the attributes of NULL and of the unbound value. -/
def bared (heap : Heap) : Heap :=
  ⟨heap.objects.map Object.bared⟩

variable (heap : Heap) {ref : Ref}

theorem size_bared : heap.bared.size = heap.size := by
  simp [bared, size]

theorem get_bared (ref : Ref) : heap.bared.get ref = (heap.get ref).bared := by
  simp only [bared, get, Array.getElem?_map]
  cases heap.objects[ref.index]? <;> rfl

theorem body_bared (ref : Ref) : heap.bared.body ref = heap.body ref := by
  simp only [body, get_bared, Object.bared]
  split <;> rfl

theorem attributes_bared_singleton (singleton : (heap.body ref).isSingleton = true) :
    heap.bared.attributes ref = none := by
  have allowed : (heap.get ref).body.isSingleton = true := singleton
  rw [attributes, get_bared, Object.bared, if_pos allowed]

theorem attributes_bared_other (other : (heap.body ref).isSingleton = false) :
    heap.bared.attributes ref = heap.attributes ref := by
  have refused : ¬(heap.get ref).body.isSingleton = true := Bool.eq_false_iff.mp other
  rw [attributes, get_bared, Object.bared, if_neg refused, attributes]

theorem tidy_bared : Node.Tidy heap.bared fun _ => True := by
  constructor
  · intro _ _ _ _
    trivial
  · intro ref _ singleton
    apply heap.attributes_bared_singleton
    rw [← heap.body_bared]
    rcases singleton with null | unbound
    · rw [null]
      rfl
    · rw [unbound]
      rfl

variable {heap} {child : Ref}

theorem Quiet.part (quiet : heap.Quiet ref) (enters : (heap.body ref).isNamed = false)
    (member : child ∈ (heap.get ref).children) : heap.Quiet child := by
  intro env leads
  exact quiet env (.head (Bool.eq_false_iff.mp enters) member leads)

theorem Unburdened.part (unburdened : heap.Unburdened ref)
    (enters : (heap.body ref).isNamed = false) (member : child ∈ (heap.get ref).children) :
    heap.Unburdened child := by
  intro singleton leads
  exact unburdened singleton (.head (Bool.eq_false_iff.mp enters) member leads)

end Heap

namespace Node

/-! ### Nodes that are read alike -/

/-- Every reader does the same with both nodes. -/
def Alike (first second : Node) : Prop :=
  ∀ environments, first.decode environments = second.decode environments

/-- Every reader does the same with both items, and with attributes beside them. -/
structure ItemsAlike (first second : NodeItem) : Prop where
  reference : first.isReference = second.isReference
  keeps : first.keepsAttributes = second.keepsAttributes
  decode : ∀ environments, first.decode environments = second.decode environments

def AllAlike (firsts seconds : List Node) : Prop :=
  ∀ environments, decodeAll environments firsts = decodeAll environments seconds

/-- Entries that are read alike, be they attributes or bindings. -/
structure EntriesAlike (firsts seconds : List (String × Node)) : Prop where
  empty : firsts.isEmpty = seconds.isEmpty
  entries : ∀ environments,
    decodeEntries environments firsts = decodeEntries environments seconds
  bindings : ∀ environments env,
    decodeBindings environments env firsts = decodeBindings environments env seconds

def OptionsAlike (first second : Option Node) : Prop :=
  ∀ environments, decodeOptional environments first = decodeOptional environments second

theorem EntriesAlike.refl (entries : List (String × Node)) : EntriesAlike entries entries :=
  ⟨rfl, fun _ => rfl, fun _ _ => rfl⟩

theorem ItemsAlike.refl (item : NodeItem) : ItemsAlike item item :=
  ⟨rfl, rfl, fun _ => rfl⟩

/-! ### Writers that write alike -/

section Echoes

variable {α β : Type} {alike : α → α → Prop} {alike' : β → β → Prop} {quiet quiet' : Prop}

/-- Where the first writer ends well, the second does too: it knows the same environments then, and
what it has written is read alike. If all is quiet, no environment has become known. -/
def Echoes (alike : α → α → Prop) (quiet : Prop) (first second : Encoding α) : Prop :=
  ∀ known result after, first known = .ok (result, after) →
    (quiet → after = known) ∧ ∃ echo, second known = .ok (echo, after) ∧ alike result echo

theorem Echoes.mono {first second : Encoding α} (echoes : Echoes alike quiet first second)
    (less : quiet' → quiet) : Echoes alike quiet' first second := by
  intro known result after ran
  obtain ⟨silent, echoed⟩ := echoes known result after ran
  exact ⟨fun still => silent (less still), echoed⟩

theorem Echoes.knowing {property : α → Prop} {first second : Encoding α}
    (echoes : Echoes alike quiet first second)
    (holds : ∀ known result after, first known = .ok (result, after) → property result) :
    Echoes (fun result echo => alike result echo ∧ property result) quiet first second := by
  intro known result after ran
  obtain ⟨silent, echo, ran', same⟩ := echoes known result after ran
  exact ⟨silent, echo, ran', same, holds known result after ran⟩

theorem Echoes.pure {result echo : α} (same : alike result echo) :
    Echoes alike quiet (Pure.pure result) (Pure.pure echo) := by
  intro known written after ran
  obtain ⟨rfl, rfl⟩ := stateT_pure_ok ran
  exact ⟨fun _ => rfl, echo, rfl, same⟩

theorem Echoes.bind {first second : Encoding α} {next next' : α → Encoding β}
    (start : Echoes alike quiet first second)
    (rest : ∀ result echo, alike result echo → Echoes alike' quiet (next result) (next' echo)) :
    Echoes alike' quiet (first >>= next) (second >>= next') := by
  intro known result after ran
  obtain ⟨value, middle, began, went⟩ := stateT_bind_ok ran
  obtain ⟨silent, echo, began', same⟩ := start known value middle began
  obtain ⟨silent', echo', went', same'⟩ := rest value echo same middle result after went
  refine ⟨?_, echo', ?_, same'⟩
  · intro still
    rw [silent' still, silent still]
  · simp only [Bind.bind, StateT.bind, Except.bind, began']
    exact went'

variable {heap : Heap} {encode encode' : Ref → Encoding Node}

theorem echoes_all {refs : List Ref}
    (each : ∀ ref ∈ refs, Echoes Alike quiet (encode ref) (encode' ref)) :
    Echoes AllAlike quiet (refs.mapM encode) (refs.mapM encode') := by
  induction refs with
  | nil =>
      rw [List.mapM_nil, List.mapM_nil]
      exact .pure fun _ => rfl
  | cons ref rest ih =>
      rw [List.mapM_cons, List.mapM_cons]
      apply (each ref List.mem_cons_self).bind
      intro node node' head
      apply (ih fun other member => each other (List.mem_cons_of_mem ref member)).bind
      intro nodes nodes' tail
      apply Echoes.pure
      intro environments
      rw [decodeAll, decodeAll, head environments, tail environments]

theorem echoes_entries {entries : List (String × Ref)}
    (each : ∀ ref ∈ entries.map Prod.snd, Echoes Alike quiet (encode ref) (encode' ref)) :
    Echoes EntriesAlike quiet (encodeEntries encode entries) (encodeEntries encode' entries) := by
  unfold encodeEntries
  induction entries with
  | nil =>
      rw [List.mapM_nil, List.mapM_nil]
      exact .pure (.refl [])
  | cons entry rest ih =>
      obtain ⟨name, ref⟩ := entry
      rw [List.mapM_cons, List.mapM_cons]
      have here : Echoes (fun first second => first.1 = second.1 ∧ Alike first.2 second.2) quiet
          (do let node ← encode ref; Pure.pure (name, node))
          (do let node ← encode' ref; Pure.pure (name, node)) := by
        apply (each ref List.mem_cons_self).bind
        intro node node' same
        exact .pure ⟨rfl, same⟩
      apply here.bind
      intro ⟨label, node⟩ ⟨label', node'⟩ ⟨named, head⟩
      cases named
      apply (ih fun other member => each other (List.mem_cons_of_mem _ member)).bind
      intro nodes nodes' tail
      apply Echoes.pure
      constructor
      · rfl
      · intro environments
        rw [decodeEntries, decodeEntries, head environments, tail.entries environments]
      · intro environments env
        rw [decodeBindings, decodeBindings, head environments, tail.bindings environments env]

theorem echoes_optional {optional : Option Ref}
    (each : ∀ ref ∈ optional.toList, Echoes Alike quiet (encode ref) (encode' ref)) :
    Echoes OptionsAlike quiet (encodeOptional encode optional)
      (encodeOptional encode' optional) := by
  cases optional with
  | none => exact .pure fun _ => rfl
  | some ref =>
      rw [encodeOptional, encodeOptional, map_eq_pure_bind, map_eq_pure_bind]
      apply (each ref List.mem_cons_self).bind
      intro node node' same
      apply Echoes.pure
      intro environments
      rw [decodeOptional, decodeOptional, same environments]

/-- A local environment becomes known where it is first met, so nothing is quiet about it. -/
theorem echoes_frame {ref : Ref} {frame : Frame} (loud : ¬quiet)
    (each : ∀ child ∈ (Body.environment frame).children,
      Echoes Alike quiet (encode child) (encode' child)) :
    Echoes ItemsAlike quiet (encodeFrame encode ref frame) (encodeFrame encode' ref frame) := by
  have known : Echoes Eq quiet (get : Encoding (List Ref)) get := by
    intro known result after ran
    cases ran
    exact ⟨fun _ => rfl, known, rfl, rfl⟩
  apply known.bind
  intro known _ same
  cases same
  cases known.idxOf? ref with
  | some index => exact .pure (.refl _)
  | none =>
      have enter : Echoes Eq quiet (set (known ++ [ref]) : Encoding PUnit)
          (set (known ++ [ref])) := by
        intro _ _ after ran
        cases ran
        exact ⟨fun silent => absurd silent loud, _, rfl, rfl⟩
      apply enter.bind
      intro _ _ _
      have defined := echoes_entries fun child member => each child (List.mem_append_left _ member)
      apply defined.bind
      intro bindings bindings' bound
      have enclosed :=
        echoes_optional fun child member => each child (List.mem_append_right _ member)
      apply enclosed.bind
      intro parent parent' around
      apply Echoes.pure
      refine ⟨rfl, rfl, ?_⟩
      intro environments
      simp only [NodeItem.decode, bound.bindings environments, around environments]

theorem echoes_body {ref : Ref} {body : Body} (loud : body.isLocal = true → ¬quiet)
    (each : body.isNamed = false → ∀ child ∈ body.children,
      Echoes Alike quiet (encode child) (encode' child)) :
    Echoes ItemsAlike quiet (encodeBody encode ref body) (encodeBody encode' ref body) := by
  cases body with
  | null | unbound | vector _ | language _ | connection _ => exact .pure (.refl _)
  | list items =>
      rw [encodeBody, encodeBody, map_eq_pure_bind, map_eq_pure_bind]
      apply (echoes_all (each rfl)).bind
      intro nodes nodes' same
      apply Echoes.pure
      refine ⟨rfl, rfl, ?_⟩
      intro environments
      rw [NodeItem.decode, NodeItem.decode, same environments]
  | environment frame =>
      rw [encodeBody, encodeBody]
      split
      · rename_i isLocal
        apply echoes_frame (loud isLocal)
        apply each
        rw [Body.isNamed, isLocal]
        rfl
      · exact .pure (.refl _)
  | promise delayed =>
      rw [encodeBody, encodeBody]
      have around := echoes_optional fun child member => each rfl child (List.mem_append_left _ member)
      apply around.bind
      intro env env' sameEnv
      have content :=
        echoes_optional fun child member => each rfl child (List.mem_append_right _ member)
      apply content.bind
      intro value value' sameValue
      apply Echoes.pure
      refine ⟨rfl, rfl, ?_⟩
      intro environments
      rw [NodeItem.decode, NodeItem.decode, sameEnv environments, sameValue environments]
  | closure function =>
      rw [encodeBody, encodeBody]
      apply (each rfl function.env List.mem_cons_self).bind
      intro env env' same
      apply Echoes.pure
      refine ⟨rfl, rfl, ?_⟩
      intro environments
      rw [NodeItem.decode, NodeItem.decode, same environments]

theorem alike_mk {item item' : NodeItem} {attributes attributes' : List (String × Node)}
    (items : ItemsAlike item item') (entries : EntriesAlike attributes attributes') :
    Alike (.mk item attributes) (.mk item' attributes') := by
  intro environments
  rw [decode, decode, items.decode environments, items.keeps, entries.empty,
    entries.entries environments]

theorem unread_of_body {ref : Ref} {body : Body} {known after : List Ref} {item : NodeItem}
    (ran : encodeBody encode ref body known = .ok (item, after)) :
    (body.isSingleton = true → item.keepsAttributes = false) ∧
      (body.isNamed = true → item.isReference = true) := by
  cases body with
  | null | unbound =>
      obtain ⟨rfl, rfl⟩ := stateT_pure_ok ran
      exact ⟨fun _ => rfl, Bool.false_ne_true.elim⟩
  | environment frame =>
      refine ⟨Bool.false_ne_true.elim, ?_⟩
      intro named
      have refused : frame.kind.isLocal = false := by
        simpa only [Body.isNamed, Bool.not_eq_true'] using named
      rw [encodeBody, if_neg (Bool.eq_false_iff.mp refused)] at ran
      obtain ⟨rfl, rfl⟩ := stateT_pure_ok ran
      rfl
  | _ => exact ⟨Bool.false_ne_true.elim, Bool.false_ne_true.elim⟩

/-- Attributes that are written beside a singleton are not read. When nothing becomes known on the
way, they might as well not be there. -/
theorem echoes_unread {entries : List (String × Ref)} {item item' : NodeItem}
    (items : ItemsAlike item item') (unread : item.keepsAttributes = false)
    (each : ∀ ref ∈ entries.map Prod.snd, Echoes Alike True (encode ref) (encode' ref)) :
    Echoes Alike quiet (do
        let attributes ← encodeEntries encode entries
        Pure.pure (.mk item attributes))
      (do
        let attributes ← encodeEntries encode' []
        Pure.pure (.mk item' attributes)) := by
  intro known node after ran
  obtain ⟨attributes, last, furnished, ran⟩ := stateT_bind_ok ran
  obtain ⟨rfl, rfl⟩ := stateT_pure_ok ran
  have unmoved := (echoes_entries each known attributes _ furnished).1 trivial
  refine ⟨fun _ => unmoved, .mk item' [], ?_, ?_⟩
  · rw [unmoved]
    rfl
  · intro environments
    rw [decode, decode, items.decode environments, ← items.keeps, unread]
    rfl

/-- Attributes of NULL and the unbound value make no difference to the reader, and none to the
numbers of the environments, when they lead to no local environment. -/
theorem echoes_within (depth : Nat) : ∀ ref, heap.Unburdened ref →
    Echoes Alike (heap.Quiet ref) (encodeWithin heap depth ref)
      (encodeWithin heap.bared depth ref) := by
  -- On the depth. The two heaps differ in the attributes of the singletons alone, and these lead to
  -- no local environment, so leaving them out changes no number.
  induction depth with
  | zero =>
      intro ref _ known node after ran
      cases ran
  | succ depth ih =>
      intro ref unburdened
      have onward (part : Ref) (enters : (heap.body ref).isNamed = false)
          (member : part ∈ (heap.get ref).children) :
          Echoes Alike (heap.Quiet ref) (encodeWithin heap depth part)
            (encodeWithin heap.bared depth part) :=
        (ih part (unburdened.part enters member)).mono fun quiet => quiet.part enters member
      have content : Echoes ItemsAlike (heap.Quiet ref)
          (encodeBody (encodeWithin heap depth) ref (heap.body ref))
          (encodeBody (encodeWithin heap.bared depth) ref (heap.body ref)) := by
        apply echoes_body
        · intro isLocal quiet
          have here := quiet ref .start
          rw [isLocal] at here
          cases here
        · intro enters part member
          exact onward part enters (List.mem_append_left _ member)
      have body : (heap.bared.get ref).body = heap.body ref := heap.body_bared ref
      rw [encodeWithin, encodeWithin, body]
      apply (content.knowing fun _ _ _ => unread_of_body).bind
      intro item item' known
      obtain ⟨items, unread, referred⟩ := known
      rw [← items.reference]
      split
      · exact .pure (alike_mk items (.refl []))
      rename_i described
      have enters : (heap.body ref).isNamed = false := by
        cases named : (heap.body ref).isNamed with
        | false => rfl
        | true => exact absurd (referred named) described
      cases singleton : (heap.body ref).isSingleton with
      | true =>
          have bare : (heap.bared.get ref).attributes = none :=
            heap.attributes_bared_singleton singleton
          rw [bare]
          apply echoes_unread items (unread singleton)
          intro part member
          obtain ⟨entry, held, rfl⟩ := List.mem_map.mp member
          apply (ih entry.2 (unburdened.part enters (List.mem_append_right _ member))).mono
          intro _
          exact unburdened ref .start singleton entry held
      | false =>
          have same : (heap.bared.get ref).attributes = (heap.get ref).attributes :=
            heap.attributes_bared_other singleton
          rw [same]
          have attached := echoes_entries fun part member =>
            onward part enters (List.mem_append_right _ member)
          apply attached.bind
          intro attributes attributes' entries
          exact .pure (alike_mk items entries)

theorem echo_ofValue {value : Ref} {node : Node} (unburdened : heap.Unburdened value)
    (written : ofValue heap value = .ok node) :
    ∃ echo, ofValue heap.bared value = .ok echo ∧ Alike node echo := by
  unfold ofValue at written
  cases ran : encodeWithin heap (depthBound heap) value [] with
  | error reason =>
      rw [ran] at written
      cases written
  | ok pair =>
      rw [ran] at written
      cases written
      obtain ⟨_, echo, ran', same⟩ := echoes_within _ value unburdened [] pair.1 pair.2 ran
      refine ⟨echo, ?_, same⟩
      have bound : depthBound heap.bared = depthBound heap := by
        rw [depthBound, depthBound, heap.size_bared]
      rw [ofValue, bound, ran']
      rfl

end Echoes

theorem resolved_decode {heap : Heap} {value : Ref} {node : Node}
    (unburdened : heap.Unburdened value) (written : ofValue heap value = .ok node)
    (environments : Environments) (target : Heap) :
    Ends (node.decode environments) { heap := target, environments := [] } (fun _ _ => True)
      fun err _ => ∀ id, err ≠ .danglingReference id := by
  obtain ⟨echo, written', same⟩ := echo_ofValue unburdened written
  obtain ⟨count, inScope⟩ := scope_ofValue heap.tidy_bared trivial written'
  rw [same environments]
  have visits := follows environments echo 0 count inScope
  have start : Knows 0 { heap := target, environments := [] } :=
    fun index below => absurd below (Nat.not_lt_zero index)
  apply (visits _ start).mono
  · intro _ _ _
    trivial
  · intro err _ stopped id
    rcases stopped with ⟨kind, _, _, missing⟩ | impossible
    · rw [missing]
      intro equal
      cases equal
    · exact impossible.elim

end Node

namespace Codec

/-- Every reference that is written with a value is resolved where the value is read, whatever the
reader has, as long as the attributes of NULL and of the unbound value lead to no local environment
and no length is too great for its header. Attributes may be anywhere. -/
theorem references_resolve {heap : Heap} {value : Ref} {bytes : Bytes}
    (unburdened : heap.Unburdened value) (written : packed.serialize heap value = .ok bytes)
    (short : ∀ node, Node.ofValue heap value = .ok node →
      node.toItem.longest < Pack.capacity 4) (environments : Environments) (target after : Heap)
    (id : UInt32) :
    packed.unserialize environments bytes target ≠ .error (.danglingReference id) after := by
  cases ran : Node.ofValue heap value with
  | error reason =>
      simp only [packed, ran] at written
      cases written
  | ok node =>
      simp only [packed, ran] at written
      cases written
      have read := lossless.1.rereads node [] (short node ran)
      rw [List.append_nil] at read
      simp only [packed, unserializePacked]
      rw [read]
      split
      · rename_i reason unread
        split at unread
        · cases unread
        · cases unread
          intro impossible
          cases impossible
      · rename_i found reread
        split at reread
        · cases reread
          have ends := Node.resolved_decode unburdened ran environments target
          unfold Ends at ends
          intro dangling
          split at dangling
          · cases dangling
          · rename_i err state failed
            rw [failed] at ends
            cases dangling
            exact ends id rfl
        · cases reread

/-- A list of NULL and twice of a local environment, after NULL was given an attribute. The value of
the attribute may be the environment or something made for it. -/
def noted (note : Ref → Heap → Ref × Heap) : Ref × Heap :=
  let (context, heap) := Context.create Heap.initial "sender" packed
  let (env, heap) := heap.allocLocal context.environments.global
  let (value, heap) := note env heap
  (heap.setAttribute Ref.null "note" value).2.alloc (.list [Ref.null, env, env])

theorem unburdened_noted :
    (noted fun _ heap => heap.alloc (.vector (.integer [1]))).2.Unburdened ⟨8⟩ := by
  intro singleton _ isSingleton entry held
  have onNull : singleton = Ref.null := by
    obtain ⟨index⟩ := singleton
    match index with
    | 0 => rfl
    | 1 => cases held
    | 2 | 3 | 4 | 5 | 6 | 7 | 8 => cases isSingleton
    | index + 9 =>
        have outside : (noted fun _ heap => heap.alloc (.vector (.integer [1]))).2.size ≤
            Ref.index ⟨index + 9⟩ := Nat.le_add_left 9 index
        rw [Heap.attributes, Heap.get_outside _ outside] at held
        cases held
  rw [onNull] at held
  have same : entry = ("note", ⟨7⟩) := List.mem_singleton.mp held
  rw [same]
  intro env leads
  have stays : env = ⟨7⟩ := by
    induction leads with
    | start => rfl
    | step _ _ member ih =>
        rw [ih] at member
        cases member
  rw [stays]
  rfl

/-- The integer is written and not read; the environment is read where it is first met, and once
more. -/
theorem references_resolve_noted :
    let (value, heap) := noted fun _ heap => heap.alloc (.vector (.integer [1]))
    let node : Node := .bare (.list [.mk .null [("note", .bare (.vector (.integer [1])))],
      .bare (.environment 0 [] (some (.bare (.named .global)))), .bare (.environmentRef 0)])
    Node.ofValue heap value = .ok node ∧ heap.Unburdened value ∧
      ∀ environments target after id, packed.unserialize environments node.toItem.write target ≠
        .error (.danglingReference id) after := by
  refine ⟨rfl, unburdened_noted, ?_⟩
  intro environments target after id
  refine references_resolve unburdened_noted rfl ?_ environments target after id
  intro node written
  cases written
  decide +kernel

/-- The list as it is written when the attribute is the environment. -/
def danglingNode : Node :=
  .bare (.list
    [.mk .null [("note", .bare (.environment 0 [] (some (.bare (.named .global)))))],
      .bare (.environmentRef 0), .bare (.environmentRef 0)])

/-- The environment is written under the attribute of NULL, where no reader looks for it, and by its
number from then on. So the value is written, and a reader that has every environment which is named
in it stops at the number. -/
theorem dangles :
    let (value, heap) := noted fun env heap => (env, heap)
    let (receiver, target) := Context.create heap "receiver" packed
    packed.serialize heap value = .ok danglingNode.toItem.write ∧
      (∀ kind ∈ danglingNode.kinds, (receiver.environments.find? kind).isSome) ∧
      ∃ after, packed.unserialize receiver.environments danglingNode.toItem.write target =
        .error (.danglingReference 0) after := by
  have short : danglingNode.toItem.longest < Pack.capacity 4 := by
    decide +kernel
  have shallow : danglingNode.toItem.levels ≤ Pack.nestingLimit := by
    decide +kernel
  have read := lossless.1.rereads danglingNode [] short
  rw [List.append_nil, if_pos shallow] at read
  refine ⟨rfl, ?_, ?_⟩
  · intro kind named
    rw [List.mem_singleton.mp named]
    rfl
  · simp only [packed, unserializePacked, read]
    exact ⟨_, rfl⟩

end Codec

end ValueChannels
