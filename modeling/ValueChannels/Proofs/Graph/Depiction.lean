import ValueChannels.Graph.Node
import ValueChannels.Proofs.Graph.Reading
import ValueChannels.Proofs.Heap.Likeness

/-!
Nodes as pictures of values. A node depicts a value of a heap when it has the value's content and
its parts depict, in their order, what the value leads to; the local environments stand under
numbers in the order in which they are met. Main statement: `Depicts.reproduced`, that two values
which one node depicts are the same graph.
-/

namespace ValueChannels

/-! ### The graph of a node -/

namespace NodeItem

/-- What an item says of its object, short of what the object leads to. -/
def content : NodeItem → Content
  | .null => .null
  | .unbound => .unbound
  | .vector data => .vector data
  | .list _ => .list
  | .environment _ _ _ | .environmentRef _ => .environment .localEnv
  | .named kind => .environment kind
  | .promise expr _ _ => .promise expr
  | .closure formals body _ => .closure formals body
  | .language expr => .language expr
  | .connection details => .connection details

def links : NodeItem → List (Edge × Node)
  | .list items => Edge.elements items
  | .environment _ bindings parent =>
      Edge.named .binding bindings ++ Edge.optional .parent parent
  | .promise _ env value => Edge.optional .environment env ++ Edge.optional .value value
  | .closure _ _ env => [(.environment, env)]
  | _ => []

def isEnvironment : NodeItem → Bool
  | .environment _ _ _ | .environmentRef _ | .named _ => true
  | _ => false

theorem content_other {item : NodeItem} (other : item.isEnvironment = false)
    (kind : EnvironmentKind) : item.content ≠ .environment kind := by
  intro same
  cases item with
  | environment _ _ _ | environmentRef _ | named _ => cases other
  | _ => cases same

theorem targets_links (item : NodeItem) : item.links.map Prod.snd = item.parts := by
  cases item <;> simp [links, parts]

end NodeItem

namespace Node

/-- The ways out of a node into its item and into its attributes. -/
def links : Node → List (Edge × Node)
  | .mk item attributes => item.links ++ Edge.named .attached attributes

theorem targets_links (item : NodeItem) (attributes : List (String × Node)) :
    (Node.mk item attributes).links.map Prod.snd = item.parts ++ attributes.map Prod.snd := by
  rw [links, List.map_append, NodeItem.targets_links, Edge.targets_named]

/-- A node occurs in another one. -/
inductive Holds (root : Node) : Node → Prop where
  | self : Holds root root
  | part {node part : Node} (holds : Holds root node) (member : part ∈ node.links.map Prod.snd) :
      Holds root part

theorem Holds.trans {first second third : Node} (outer : first.Holds second)
    (inner : second.Holds third) : first.Holds third := by
  induction inner with
  | self => exact outer
  | part _ member ih => exact .part ih member

theorem inductLinks {motive : Node → Prop}
    (step : ∀ node : Node, (∀ part ∈ node.links.map Prod.snd, motive part) → motive node)
    (node : Node) : motive node := by
  induction node using Node.induct with
  | step item attributes ofParts ofAttributes =>
      apply step
      intro part member
      rw [targets_links] at member
      rcases List.mem_append.mp member with inside | beside
      · exact ofParts part inside
      · exact ofAttributes part beside

end Node

/-! ### Depictions -/

/-- A heap with the local environments that have numbers, in their order, and what counts as the
environment of a kind. -/
structure Scene where
  heap : Heap
  numbered : List Ref
  owns : EnvironmentKind → Ref → Prop

namespace Scene

/-- A node depicts a value; so many local environments have been met before it, and so many after. -/
inductive Depicts (scene : Scene) : Nat → Node → Ref → Nat → Prop where
  | object {start stop : Nat} {item : NodeItem} {attributes : List (String × Node)} {ref : Ref}
      (other : item.isEnvironment = false) (content : scene.heap.content ref = item.content)
      (labels : (Node.mk item attributes).links.map Prod.fst = (scene.heap.links ref).map Prod.fst)
      (parts : Threads (Depicts scene) start ((Node.mk item attributes).links.map Prod.snd)
        ((scene.heap.links ref).map Prod.snd) stop) :
      Depicts scene start (.mk item attributes) ref stop
  | environment {start stop : Nat} {bindings : List (String × Node)} {parent : Option Node}
      {attributes : List (String × Node)} {ref : Ref}
      (met : scene.numbered[start]? = some ref)
      (content : scene.heap.content ref = .environment .localEnv)
      (labels : (Node.mk (.environment (UInt32.ofNat start) bindings parent) attributes).links.map
        Prod.fst = (scene.heap.links ref).map Prod.fst)
      (parts : Threads (Depicts scene) (start + 1)
        ((Node.mk (.environment (UInt32.ofNat start) bindings parent) attributes).links.map Prod.snd)
        ((scene.heap.links ref).map Prod.snd) stop) :
      Depicts scene start (.mk (.environment (UInt32.ofNat start) bindings parent) attributes) ref
        stop
  | reference {start index : Nat} {ref : Ref} (earlier : index < start)
      (met : scene.numbered[index]? = some ref) :
      Depicts scene start (.bare (.environmentRef (UInt32.ofNat index))) ref start
  | named {start : Nat} {kind : EnvironmentKind} {ref : Ref} (isNamed : kind.isLocal = false)
      (content : scene.heap.content ref = .environment kind) (owned : scene.owns kind ref) :
      Depicts scene start (.bare (.named kind)) ref start

variable {scene first second : Scene} {start stop : Nat} {node root : Node} {ref : Ref}

theorem Depicts.le (depicts : scene.Depicts start node ref stop) : start ≤ stop := by
  induction node using Node.inductLinks generalizing start ref stop with
  | step node ofParts =>
      have grows {first last : Nat} {refs : List Ref}
          (parts : Threads scene.Depicts first (node.links.map Prod.snd) refs last) :
          first ≤ last :=
        parts.monotone fun _ part member _ _ depicts => ofParts part member depicts
      cases depicts with
      | object other content labels parts => exact grows parts
      | environment met content labels parts => exact Nat.le_of_succ_le (grows parts)
      | reference earlier met => exact Nat.le_refl _
      | named isNamed content owned => exact Nat.le_refl _

theorem Depicts.threads_mem {nodes : List Node} {refs : List Ref}
    (parts : Threads scene.Depicts start nodes refs stop) (member : node ∈ nodes) :
    ∃ begin found finish, scene.Depicts begin node found finish ∧ start ≤ begin ∧ finish ≤ stop := by
  induction parts with
  | nil => cases member
  | cons head tail ih =>
      have before := head.le
      have after := tail.monotone fun _ _ _ _ _ depicts => Depicts.le depicts
      rcases List.mem_cons.mp member with same | later
      · subst same
        exact ⟨_, _, _, head, Nat.le_refl _, after⟩
      · obtain ⟨begin, found, finish, depicts, above, below⟩ := ih later
        exact ⟨begin, found, finish, depicts, Nat.le_trans before above, below⟩

theorem Depicts.holds (depicts : scene.Depicts start root ref stop) (holds : root.Holds node) :
    ∃ begin found finish, scene.Depicts begin node found finish ∧ start ≤ begin ∧ finish ≤ stop := by
  induction holds with
  | self => exact ⟨start, ref, stop, depicts, Nat.le_refl _, Nat.le_refl _⟩
  | part _ member ih =>
      obtain ⟨begin, found, finish, depicts, above, below⟩ := ih
      cases depicts with
      | object other content labels parts =>
          obtain ⟨begin', found', finish', inner, above', below'⟩ := threads_mem parts member
          exact ⟨begin', found', finish', inner, Nat.le_trans above above',
            Nat.le_trans below' below⟩
      | environment met content labels parts =>
          obtain ⟨begin', found', finish', inner, above', below'⟩ := threads_mem parts member
          exact ⟨begin', found', finish', inner, by omega, Nat.le_trans below' below⟩
      | reference earlier met => cases member
      | named isNamed content owned => cases member

/-- Every number that is given out within a node stands for an environment that the node contains. -/
theorem Depicts.defines (depicts : scene.Depicts start node ref stop) {index : Nat}
    (above : start ≤ index) (below : index < stop) :
    ∃ bindings parent attributes,
      node.Holds (.mk (.environment (UInt32.ofNat index) bindings parent) attributes) := by
  induction node using Node.inductLinks generalizing start ref stop with
  | step node ofParts =>
      have inParts {first last : Nat} {nodes : List Node} {refs : List Ref}
          (parts : Threads scene.Depicts first nodes refs last)
          (among : ∀ part ∈ nodes, part ∈ node.links.map Prod.snd) (behind : first ≤ index)
          (before : index < last) :
          ∃ bindings parent attributes,
            node.Holds (.mk (.environment (UInt32.ofNat index) bindings parent) attributes) := by
        have passed : ∃ part ∈ nodes, ∃ found ∈ refs, ∃ begin finish,
            scene.Depicts begin part found finish ∧ begin ≤ index ∧ index < finish :=
          parts.passes behind before
        obtain ⟨part, member, found, _, begin, finish, depicts, behind', before'⟩ := passed
        have here := among part member
        obtain ⟨bindings, parent, attributes, inner⟩ := ofParts part here depicts behind' before'
        exact ⟨bindings, parent, attributes, (Node.Holds.part .self here).trans inner⟩
      cases depicts with
      | object other content labels parts =>
          exact inParts parts (fun _ member => member) above below
      | environment met content labels parts =>
          by_cases here : index = start
          · rw [here]
            exact ⟨_, _, _, .self⟩
          · exact inParts parts (fun _ member => member) (by omega) below
      | reference earlier met => omega
      | named isNamed content owned => omega

/-! ### Two pictures by one node -/

/-- Two objects are depicted by one node somewhere in the root. -/
def Twins (first second : Scene) (root : Node) (sent received : Ref) : Prop :=
  ∃ node start stop start' stop', root.Holds node ∧ first.Depicts start node sent stop ∧
    second.Depicts start' node received stop'

/-- A scene has no more local environments than there are numbers, and each has one number. -/
structure Orderly (scene : Scene) : Prop where
  distinct : scene.numbered.Nodup
  few : scene.numbered.length ≤ UInt32.size

theorem Orderly.small (orderly : scene.Orderly) {index : Nat}
    (met : scene.numbered[index]? = some ref) : index < UInt32.size :=
  Nat.lt_of_lt_of_le (List.getElem?_eq_some_iff.mp met).1 orderly.few

theorem twins_threads {nodes : List Node} {sents receiveds : List Ref} {begin finish : Nat}
    (parts : Threads first.Depicts start nodes sents stop)
    (parts' : Threads second.Depicts begin nodes receiveds finish)
    (among : ∀ part ∈ nodes, root.Holds part) :
    List.Forall₂ (Twins first second root) sents receiveds := by
  induction parts generalizing receiveds begin with
  | nil =>
      cases parts'
      exact .nil
  | cons head tail ih =>
      cases parts' with
      | cons head' tail' =>
          refine .cons ⟨_, _, _, _, _, among _ List.mem_cons_self, head, head'⟩ ?_
          exact ih tail' fun part member => among part (List.mem_cons_of_mem _ member)

section Twins

variable {sent received value copy : Ref} {last last' : Nat}

theorem links_of_named {kind : EnvironmentKind} (isNamed : kind.isLocal = false)
    (content : scene.heap.content ref = .environment kind) : scene.heap.links ref = [] := by
  obtain ⟨frame, body, same⟩ := Heap.frame_of_content content
  apply Heap.links_named
  simp [body, Body.isNamed, same, isNamed]

theorem Depicts.written {id : UInt32} {bindings : List (String × Node)} {parent : Option Node}
    {attributes : List (String × Node)}
    (depicts : scene.Depicts start (.mk (.environment id bindings parent) attributes) ref stop) :
    id = UInt32.ofNat start ∧ scene.numbered[start]? = some ref ∧
      scene.heap.content ref = .environment .localEnv ∧
      (Node.mk (.environment id bindings parent) attributes).links.map Prod.fst =
        (scene.heap.links ref).map Prod.fst ∧
      Threads scene.Depicts (start + 1)
        ((Node.mk (.environment id bindings parent) attributes).links.map Prod.snd)
        ((scene.heap.links ref).map Prod.snd) stop := by
  cases depicts with
  | object other content labels parts => cases other
  | environment met content labels parts => exact ⟨rfl, met, content, labels, parts⟩

theorem Depicts.referred {id : UInt32} {attributes : List (String × Node)}
    (depicts : scene.Depicts start (.mk (.environmentRef id) attributes) ref stop) :
    start = stop ∧ ∃ index < start, id = UInt32.ofNat index ∧ scene.numbered[index]? = some ref := by
  cases depicts with
  | object other content labels parts => cases other
  | reference earlier met => exact ⟨rfl, _, earlier, rfl, met⟩

/-- A node that refers to an environment refers to one that is written out in the root. -/
theorem Depicts.definition (whole : scene.Depicts 0 root value last) (orderly : scene.Orderly)
    {index : Nat} {attributes : List (String × Node)} (small : index < UInt32.size)
    (holds : root.Holds (.mk (.environmentRef (UInt32.ofNat index)) attributes)) :
    ∃ bindings parent attributes,
      root.Holds (.mk (.environment (UInt32.ofNat index) bindings parent) attributes) := by
  obtain ⟨begin, found, finish, depicts, _, below⟩ := whole.holds holds
  obtain ⟨same, other, earlier, number, met⟩ := depicts.referred
  have here := number_inj small (orderly.small met) number
  exact whole.defines (Nat.zero_le index) (by omega)

theorem Depicts.written_at (whole : scene.Depicts 0 root value last) (orderly : scene.Orderly)
    {index : Nat} {bindings : List (String × Node)} {parent : Option Node}
    {attributes : List (String × Node)}
    (holds : root.Holds (.mk (.environment (UInt32.ofNat index) bindings parent) attributes))
    (met : scene.numbered[index]? = some ref) :
    ∃ begin finish, scene.Depicts begin
      (.mk (.environment (UInt32.ofNat index) bindings parent) attributes) ref finish := by
  obtain ⟨begin, found, finish, depicts, _, _⟩ := whole.holds holds
  obtain ⟨number, entered, _⟩ := depicts.written
  have here := number_inj (orderly.small met) (orderly.small entered) number
  rw [here, entered] at met
  cases met
  exact ⟨begin, finish, depicts⟩

theorem Depicts.content (whole : scene.Depicts 0 root value last) (orderly : scene.Orderly)
    (holds : root.Holds node) (depicts : scene.Depicts start node ref stop) :
    scene.heap.content ref = node.item.content := by
  cases depicts with
  | object other content labels parts => exact content
  | environment met content labels parts => exact content
  | reference earlier met =>
      obtain ⟨_, _, _, inner⟩ := whole.definition orderly (orderly.small met) holds
      obtain ⟨_, _, written⟩ := whole.written_at orderly inner met
      obtain ⟨_, _, content, _⟩ := written.written
      exact content
  | named isNamed content owned => exact content

theorem Twins.content (whole : first.Depicts 0 root value last)
    (whole' : second.Depicts 0 root copy last') (orderly : first.Orderly)
    (orderly' : second.Orderly) (twins : Twins first second root sent received) :
    first.heap.content sent = second.heap.content received := by
  obtain ⟨node, start, stop, start', stop', holds, one, other⟩ := twins
  rw [whole.content orderly holds one, whole'.content orderly' holds other]

theorem parallel_of_parts {node : Node} {begin begin' finish finish' : Nat}
    (holds : root.Holds node)
    (labels : node.links.map Prod.fst = (first.heap.links sent).map Prod.fst)
    (labels' : node.links.map Prod.fst = (second.heap.links received).map Prod.fst)
    (parts : Threads first.Depicts begin (node.links.map Prod.snd)
      ((first.heap.links sent).map Prod.snd) finish)
    (parts' : Threads second.Depicts begin' (node.links.map Prod.snd)
      ((second.heap.links received).map Prod.snd) finish') :
    Parallel (Twins first second root) (first.heap.links sent) (second.heap.links received) := by
  apply parallel_of_targets
  · rw [← labels, labels']
  · exact twins_threads parts parts' fun part member => holds.part member

/-- Twins lead to twins, in the same order: a number leads to the node that is written out under
it. -/
theorem Twins.parallel (whole : first.Depicts 0 root value last)
    (whole' : second.Depicts 0 root copy last') (orderly : first.Orderly)
    (orderly' : second.Orderly) (twins : Twins first second root sent received) :
    Parallel (Twins first second root) (first.heap.links sent) (second.heap.links received) := by
  obtain ⟨node, start, stop, start', stop', holds, one, other⟩ := twins
  cases one with
  | object outside content labels parts =>
      cases other with
      | object _ content' labels' parts' => exact parallel_of_parts holds labels labels' parts parts'
      | environment _ _ _ _ => cases outside
      | reference _ _ => cases outside
      | named _ _ _ => cases outside
  | environment met content labels parts =>
      obtain ⟨_, _, _, labels', parts'⟩ := other.written
      exact parallel_of_parts holds labels labels' parts parts'
  | reference earlier met =>
      -- The number is written out somewhere in the root, and what stands there depicts both.
      have small := orderly.small met
      obtain ⟨_, index', _, number, met'⟩ := other.referred
      have same := number_inj small (orderly'.small met') number
      rw [← same] at met'
      obtain ⟨bindings, parent, attributes, inner⟩ := whole.definition orderly small holds
      obtain ⟨_, _, written⟩ := whole.written_at orderly inner met
      obtain ⟨_, _, written'⟩ := whole'.written_at orderly' inner met'
      obtain ⟨_, _, _, labels, parts⟩ := written.written
      obtain ⟨_, _, _, labels', parts'⟩ := written'.written
      exact parallel_of_parts inner labels labels' parts parts'
  | named isNamed content owned =>
      have content' := whole'.content orderly' holds other
      rw [links_of_named isNamed content, links_of_named isNamed content']
      exact .nil

theorem Twins.number (orderly : first.Orderly) (orderly' : second.Orderly)
    (twins : Twins first second root sent received)
    (isLocal : first.heap.content sent = .environment .localEnv) :
    ∃ index : Nat, first.numbered[index]? = some sent ∧ second.numbered[index]? = some received := by
  obtain ⟨node, start, stop, start', stop', _, one, other⟩ := twins
  cases one with
  | object outside content labels parts =>
      rw [content] at isLocal
      exact absurd isLocal (NodeItem.content_other outside _)
  | environment met content labels parts =>
      obtain ⟨number, met', _⟩ := other.written
      have same := number_inj (orderly.small met) (orderly'.small met') number
      rw [← same] at met'
      exact ⟨start, met, met'⟩
  | reference earlier met =>
      obtain ⟨_, index', _, number, met'⟩ := other.referred
      have same := number_inj (orderly.small met) (orderly'.small met') number
      rw [← same] at met'
      exact ⟨_, met, met'⟩
  | named isNamed content owned =>
      rw [content] at isLocal
      cases isLocal
      cases isNamed

end Twins

theorem content_of_isLocal {heap : Heap} (isLocal : (heap.body ref).isLocal = true) :
    heap.content ref = .environment .localEnv := by
  unfold Heap.content
  cases body : heap.body ref with
  | environment frame =>
      rw [body] at isLocal
      rw [Body.content, EnvironmentKind.eq_localEnv isLocal]
  | _ =>
      rw [body] at isLocal
      cases isLocal

/-- Two values that one node depicts are the same graph. -/
theorem Depicts.reproduced {environments : Environments} {value copy : Ref} {last last' : Nat}
    (whole : first.Depicts 0 root value last) (whole' : second.Depicts 0 root copy last')
    (orderly : first.Orderly) (orderly' : second.Orderly)
    (owner : ∀ kind env, second.owns kind env → environments.find? kind = some env) :
    Reproduced Eq environments first.heap second.heap first.heap.links second.heap.links value
      copy := by
  have twins : Twins first second root value copy :=
    ⟨root, _, _, _, _, .self, whole, whole'⟩
  refine reproduced_of_rel twins ?_ ?_ ?_ ?_
  · exact fun _ _ related => related.content whole whole' orderly orderly'
  · exact fun _ _ related => related.parallel whole whole' orderly orderly'
  · intro one one' other other' related related' isLocal
    have content := content_of_isLocal isLocal
    -- Local environments are numbered in the order they are met, and no two have one number, so
    -- equal numbers stand for one environment on either side.
    obtain ⟨index, here, there⟩ := related.number orderly orderly' content
    constructor
    · intro same
      subst same
      obtain ⟨index', here', there'⟩ := related'.number orderly orderly' content
      have inside := (List.getElem?_eq_some_iff.mp here).1
      have number := (List.getElem?_inj inside orderly.distinct).mp (here.trans here'.symm)
      subst number
      rw [there] at there'
      exact Option.some.inj there'
    · intro same
      subst same
      have content' : first.heap.content one' = .environment .localEnv := by
        rw [related'.content whole whole' orderly orderly',
          ← related.content whole whole' orderly orderly', content]
      obtain ⟨index', here', there'⟩ := related'.number orderly orderly' content'
      have inside := (List.getElem?_eq_some_iff.mp there).1
      have number := (List.getElem?_inj inside orderly'.distinct).mp (there.trans there'.symm)
      subst number
      rw [here] at here'
      exact Option.some.inj here'
  · intro one other frame related body isNamed
    obtain ⟨node, start, stop, start', stop', holds, depicts, depicts'⟩ := related
    have content : first.heap.content one = .environment frame.kind := by
      rw [Heap.content, body, Body.content]
    have same := whole.content orderly holds depicts
    cases depicts with
    | object outside same labels parts =>
        exact absurd (same.symm.trans content) (NodeItem.content_other outside _)
    | environment met same labels parts =>
        rw [same] at content
        injection content with kind
        rw [← kind] at isNamed
        cases isNamed
    | reference earlier met =>
        rw [same] at content
        injection content with kind
        rw [← kind] at isNamed
        cases isNamed
    | named other same owned =>
        rw [same] at content
        injection content with kind
        cases depicts' with
        | object outside _ _ _ => cases outside
        | named _ _ owned' =>
            rw [← kind]
            exact owner _ _ owned'

end Scene

end ValueChannels
