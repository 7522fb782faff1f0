import ValueChannels.Proofs.Graph.Depiction
import ValueChannels.Proofs.Heap.Cycles

/-!
Writing values as nodes. A value whose cycles all pass through local environments has a node, and
the node depicts it, with the local environments in the order in which they are met. Main
statement: `Node.depicts_ofValue`.
-/

namespace ValueChannels

/-- The local environments that were met on the way through a value. -/
structure Met (heap : Heap) (value : Ref) (known : List Ref) : Prop where
  distinct : known.Nodup
  among : ∀ env ∈ known, Leads heap.links value env ∧ env.index < heap.size ∧
    (heap.body env).isLocal = true

/-- Nodes were drawn of objects, one after the other, and the environments met in between were added
to those that were known. -/
structure Drawn (heap : Heap) (value : Ref) (known : List Ref) (nodes : List Node)
    (refs : List Ref) (after : List Ref) : Prop where
  grows : known <+: after
  met : Met heap value after
  depicted : ∀ numbered, after <+: numbered →
    Threads (Scene.Depicts { heap, numbered, owns := fun _ _ => True }) known.length nodes refs
      after.length

variable {heap : Heap} {value ref : Ref} {known middle after : List Ref}

theorem Met.enter (met : Met heap value known) (leads : Leads heap.links value ref)
    (inside : ref.index < heap.size) (isLocal : (heap.body ref).isLocal = true)
    (new : ref ∉ known) : Met heap value (known ++ [ref]) := by
  constructor
  · rw [List.nodup_append]
    refine ⟨met.distinct, List.nodup_singleton ref, ?_⟩
    intro one before other last same
    rw [List.mem_singleton.mp last] at same
    rw [same] at before
    exact new before
  · intro env member
    rcases List.mem_append.mp member with before | last
    · exact met.among env before
    · rw [List.mem_singleton.mp last]
      exact ⟨leads, inside, isLocal⟩

namespace Drawn

theorem none (met : Met heap value known) : Drawn heap value known [] [] known :=
  ⟨List.prefix_rfl, met, fun _ _ => .nil _⟩

theorem append {nodes others : List Node} {refs objects : List Ref}
    (first : Drawn heap value known nodes refs middle)
    (second : Drawn heap value middle others objects after) :
    Drawn heap value known (nodes ++ others) (refs ++ objects) after where
  grows := first.grows.trans second.grows
  met := second.met
  depicted numbered more :=
    (first.depicted numbered (second.grows.trans more)).append (second.depicted numbered more)

theorem single {node : Node} (grows : known <+: after) (met : Met heap value after)
    (depicted : ∀ numbered, after <+: numbered →
      Scene.Depicts { heap, numbered, owns := fun _ _ => True } known.length node ref
        after.length) :
    Drawn heap value known [node] [ref] after :=
  ⟨grows, met, fun numbered more => .cons (depicted numbered more) (.nil _)⟩

end Drawn

namespace Node

/-- Whatever has been met before, the object is written as a node that depicts it. -/
def Draws (heap : Heap) (value : Ref) (encode : Ref → Encoding Node) (known : List Ref)
    (ref : Ref) : Prop :=
  ∀ later, known <+: later → Met heap value later →
    Succeeds (encode ref) later fun node after => Drawn heap value later [node] [ref] after

theorem Draws.later {encode : Ref → Encoding Node} (draws : Draws heap value encode known ref)
    (more : known <+: middle) : Draws heap value encode middle ref :=
  fun later grows => draws later (more.trans grows)

section Parts

variable {encode : Ref → Encoding Node}

theorem draws_all {refs : List Ref} (each : ∀ ref ∈ refs, Draws heap value encode known ref)
    (met : Met heap value known) :
    Succeeds (refs.mapM encode) known fun nodes after =>
      Drawn heap value known nodes refs after := by
  induction refs generalizing known with
  | nil => exact Succeeds.pure (.none met)
  | cons ref rest ih =>
      rw [List.mapM_cons]
      refine Succeeds.bind (each ref List.mem_cons_self known List.prefix_rfl met) ?_
      intro node middle first
      have others := ih (fun other member =>
        (each other (List.mem_cons_of_mem _ member)).later first.grows) first.met
      refine Succeeds.bind others ?_
      intro nodes after second
      exact Succeeds.pure (first.append second)

theorem draws_entries {entries : List (String × Ref)}
    (each : ∀ ref ∈ entries.map Prod.snd, Draws heap value encode known ref)
    (met : Met heap value known) :
    Succeeds (encodeEntries encode entries) known fun nodes after =>
      nodes.map Prod.fst = entries.map Prod.fst ∧
        Drawn heap value known (nodes.map Prod.snd) (entries.map Prod.snd) after := by
  rw [encodeEntries]
  induction entries generalizing known with
  | nil => exact Succeeds.pure ⟨rfl, .none met⟩
  | cons entry rest ih =>
      rw [List.mapM_cons]
      have first : Succeeds (do
          let node ← encode entry.2
          pure (entry.1, node)) known fun named after =>
            named.1 = entry.1 ∧ Drawn heap value known [named.2] [entry.2] after := by
        refine Succeeds.bind (each entry.2 List.mem_cons_self known List.prefix_rfl met) ?_
        intro node middle drawn
        exact Succeeds.pure ⟨rfl, drawn⟩
      refine Succeeds.bind first ?_
      intro named middle ⟨name, drawn⟩
      have others := ih (fun other member =>
        (each other (List.mem_cons_of_mem _ member)).later drawn.grows) drawn.met
      refine Succeeds.bind others ?_
      intro nodes after ⟨names, second⟩
      refine Succeeds.pure ⟨?_, drawn.append second⟩
      rw [List.map_cons, List.map_cons, name, names]

theorem draws_optional {optional : Option Ref}
    (each : ∀ ref ∈ optional.toList, Draws heap value encode known ref)
    (met : Met heap value known) :
    Succeeds (encodeOptional encode optional) known fun node after =>
      node.isSome = optional.isSome ∧
        Drawn heap value known node.toList optional.toList after := by
  cases optional with
  | none => exact Succeeds.pure ⟨rfl, .none met⟩
  | some ref =>
      refine Succeeds.map (each ref List.mem_cons_self known List.prefix_rfl met) ?_
      exact fun node after drawn => ⟨rfl, drawn⟩

/-- The item of an object that is no environment. -/
structure Itemized (heap : Heap) (value : Ref) (known : List Ref) (body : Body) (item : NodeItem)
    (after : List Ref) : Prop where
  other : item.isEnvironment = false
  content : body.content = item.content
  labels : item.links.map Prod.fst = body.links.map Prod.fst
  drawn : Drawn heap value known (item.links.map Prod.snd) (body.links.map Prod.snd) after

theorem labels_optional_congr {α β : Type} (label : Edge) {first : Option α} {second : Option β}
    (same : first.isSome = second.isSome) :
    (Edge.optional label first).map Prod.fst = (Edge.optional label second).map Prod.fst := by
  cases first <;> cases second <;> first | rfl | cases same

theorem draws_body {body : Body} (noEnvironment : ∀ frame, body ≠ .environment frame)
    (each : ∀ child ∈ body.links.map Prod.snd, Draws heap value encode known child)
    (met : Met heap value known) :
    Succeeds (encodeBody encode ref body) known (Itemized heap value known body) := by
  cases body with
  | null => exact Succeeds.pure ⟨rfl, rfl, rfl, .none met⟩
  | unbound => exact Succeeds.pure ⟨rfl, rfl, rfl, .none met⟩
  | vector data => exact Succeeds.pure ⟨rfl, rfl, rfl, .none met⟩
  | language expr => exact Succeeds.pure ⟨rfl, rfl, rfl, .none met⟩
  | connection details => exact Succeeds.pure ⟨rfl, rfl, rfl, .none met⟩
  | environment frame => exact absurd rfl (noEnvironment frame)
  | list items =>
      rw [Body.links, Edge.targets_elements] at each
      refine Succeeds.map (draws_all each met) ?_
      intro nodes after drawn
      refine ⟨rfl, rfl, ?_, ?_⟩
      · have length := (drawn.depicted after List.prefix_rfl).length
        rw [NodeItem.links, Body.links, Edge.labels_elements, Edge.labels_elements, length]
      · rw [NodeItem.links, Body.links, Edge.targets_elements, Edge.targets_elements]
        exact drawn
  | closure function =>
      have behind := each function.env List.mem_cons_self
      refine Succeeds.bind (behind known List.prefix_rfl met) ?_
      intro node after drawn
      exact Succeeds.pure ⟨rfl, rfl, rfl, drawn⟩
  | promise delayed =>
      simp only [Body.links, List.map_append, Edge.targets_optional, List.mem_append] at each
      refine Succeeds.bind (draws_optional (fun child member => each child (Or.inl member)) met) ?_
      rintro env middle ⟨isSome, around⟩
      refine Succeeds.bind (draws_optional (fun child member =>
        (each child (Or.inr member)).later around.grows) around.met) ?_
      rintro held after ⟨isSome', content⟩
      refine Succeeds.pure ⟨rfl, rfl, ?_, ?_⟩
      · rw [NodeItem.links, Body.links, List.map_append, List.map_append,
          labels_optional_congr _ isSome, labels_optional_congr _ isSome']
      · simp only [NodeItem.links, Body.links, List.map_append, Edge.targets_optional]
        exact around.append content

end Parts

theorem isReference_other {item : NodeItem} (other : item.isEnvironment = false) :
    item.isReference = false := by
  cases item <;> first | rfl | cases other

variable {depth : Nat}

theorem draws_object (noEnvironment : ∀ frame, heap.body ref ≠ .environment frame)
    (each : ∀ child ∈ (heap.links ref).map Prod.snd,
      Draws heap value (encodeWithin heap depth) known child)
    (met : Met heap value known) :
    Succeeds (encodeWithin heap (depth + 1) ref) known fun node after =>
      Drawn heap value known [node] [ref] after := by
  have open_ : (heap.body ref).isNamed = false := by
    cases body : heap.body ref with
    | environment frame => exact absurd body (noEnvironment frame)
    | _ => rfl
  have links := Heap.links_other open_
  simp only [links, List.map_append, Heap.targets_attributeLinks, List.mem_append] at each
  rw [encodeWithin]
  refine Succeeds.bind (draws_body noEnvironment (fun child member => each child (Or.inl member))
    met) ?_
  intro item middle itemized
  rw [if_neg (Bool.eq_false_iff.mp (isReference_other itemized.other))]
  refine Succeeds.bind (draws_entries (fun child member =>
    (each child (Or.inr member)).later itemized.drawn.grows) itemized.drawn.met) ?_
  rintro attributes after ⟨names, drawn⟩
  have whole := itemized.drawn.append drawn
  refine Succeeds.pure (.single whole.grows whole.met ?_)
  intro numbered more
  refine .object itemized.other itemized.content ?_ ?_
  · show _ = ((heap.links ref).map Prod.fst)
    rw [links, Node.links, List.map_append, List.map_append, itemized.labels, attributeLinks,
      Edge.labels_named, Edge.labels_named, names]
    rfl
  · show Threads _ _ _ ((heap.links ref).map Prod.snd) _
    rw [links, Node.links, List.map_append, List.map_append, Edge.targets_named,
      Heap.targets_attributeLinks]
    exact whole.depicted numbered more

theorem draws_named {frame : Frame} (body : heap.body ref = .environment frame)
    (isNamed : frame.kind.isLocal = false) (met : Met heap value known) :
    Succeeds (encodeWithin heap (depth + 1) ref) known fun node after =>
      Drawn heap value known [node] [ref] after := by
  have content : (heap.get ref).body = .environment frame := body
  rw [encodeWithin]
  simp only [content, encodeBody, if_neg (Bool.eq_false_iff.mp isNamed)]
  refine Succeeds.pure (.single List.prefix_rfl met ?_)
  intro numbered _
  refine .named isNamed ?_ trivial
  rw [Heap.content, body, Body.content]

/-- What is written for a local environment, before its attributes. -/
inductive Entered (heap : Heap) (value ref : Ref) (frame : Frame) (known : List Ref) :
    NodeItem → List Ref → Prop where
  | again {index : Nat} (met : known[index]? = some ref) :
      Entered heap value ref frame known (.environmentRef (UInt32.ofNat index)) known
  | first {bindings : List (String × Node)} {parent : Option Node} {after : List Ref}
      (new : ref ∉ known) (names : bindings.map Prod.fst = frame.bindings.entries.map Prod.fst)
      (isSome : parent.isSome = frame.parent.isSome)
      (drawn : Drawn heap value (known ++ [ref]) (bindings.map Prod.snd ++ parent.toList)
        (frame.bindings.entries.map Prod.snd ++ frame.parent.toList) after) :
      Entered heap value ref frame known
        (.environment (UInt32.ofNat known.length) bindings parent) after

theorem enters_frame {encode : Ref → Encoding Node} {frame : Frame}
    (entered : ref ∉ known → Met heap value (known ++ [ref]))
    (each : ref ∉ known → ∀ child ∈ frame.bindings.entries.map Prod.snd ++ frame.parent.toList,
      Draws heap value encode (known ++ [ref]) child) :
    Succeeds (encodeFrame encode ref frame) known (Entered heap value ref frame known) := by
  have read : Succeeds (get : Encoding (List Ref)) known
      fun result state => result = known ∧ state = known := Succeeds.get ⟨rfl, rfl⟩
  refine Succeeds.bind read ?_
  rintro found state ⟨isKnown, same⟩
  rw [isKnown, same]
  cases place : known.idxOf? ref with
  | some index =>
      obtain ⟨bound, found, _⟩ := List.idxOf?_eq_some_iff.mp place
      refine Succeeds.pure (.again ?_)
      rw [List.getElem?_eq_getElem bound, found]
  | none =>
      have new : ref ∉ known := List.idxOf?_eq_none_iff.mp place
      have parts := each new
      simp only [List.mem_append] at parts
      have wrote : Succeeds (set (known ++ [ref]) : Encoding PUnit) known
          fun _ state => state = known ++ [ref] := Succeeds.set rfl
      refine Succeeds.bind wrote ?_
      rintro _ _ rfl
      refine Succeeds.bind (draws_entries (fun child member => parts child (Or.inl member))
        (entered new)) ?_
      intro bindings bound ⟨names, defined⟩
      refine Succeeds.bind (draws_optional (fun child member =>
        (parts child (Or.inr member)).later defined.grows) defined.met) ?_
      intro parent after ⟨isSome, around⟩
      exact Succeeds.pure (.first new names isSome (defined.append around))

/-- A local environment is written once, with its bindings, its parent and its attributes, and by
its number from then on. -/
theorem draws_environment {frame : Frame} (body : heap.body ref = .environment frame)
    (isLocal : frame.kind.isLocal = true)
    (entered : ref ∉ known → Met heap value (known ++ [ref]))
    (each : ref ∉ known → ∀ child ∈ (heap.links ref).map Prod.snd,
      Draws heap value (encodeWithin heap depth) (known ++ [ref]) child)
    (met : Met heap value known) :
    Succeeds (encodeWithin heap (depth + 1) ref) known fun node after =>
      Drawn heap value known [node] [ref] after := by
  have object : (heap.get ref).body = .environment frame := body
  have content : heap.content ref = .environment .localEnv := by
    apply Scene.content_of_isLocal
    rw [body]
    exact isLocal
  have open_ : (heap.body ref).isNamed = false := by
    rw [body, Body.isNamed, isLocal]
    rfl
  have links := Heap.links_other open_
  rw [body] at links
  simp only [links, Body.links, List.map_append, Heap.targets_frame isLocal,
    Heap.targets_attributeLinks, List.mem_append] at each
  rw [encodeWithin]
  simp only [object, encodeBody, if_pos isLocal]
  refine Succeeds.bind (enters_frame entered fun new child member =>
    each new child (Or.inl (List.mem_append.mp member))) ?_
  intro item middle written
  -- Met again, the environment is a reference to its number; met first, it takes the next one.
  cases written with
  | again found =>
      refine Succeeds.pure (.single List.prefix_rfl met ?_)
      intro numbered more
      have bound := (List.getElem?_eq_some_iff.mp found).1
      refine .reference bound ?_
      rw [List.prefix_iff_getElem?.mp more _ bound, ← found, List.getElem?_eq_getElem bound]
  | first new names isSome drawn =>
      rename_i bindings parent
      refine Succeeds.bind (draws_entries (fun child member =>
        (each new child (Or.inr member)).later drawn.grows) drawn.met) ?_
      rintro attributes after ⟨attributeNames, beside⟩
      have whole := drawn.append beside
      have grows : known <+: after := (List.prefix_append known [ref]).trans whole.grows
      refine Succeeds.pure (.single grows whole.met ?_)
      intro numbered more
      have place : numbered[known.length]? = some ref := by
        have inside := whole.grows.trans more
        rw [List.prefix_iff_getElem?.mp inside known.length (by simp)]
        simp
      refine .environment place content ?_ ?_
      · show _ = ((heap.links ref).map Prod.fst)
        rw [links, Body.links, Frame.links, if_pos isLocal, Node.links, NodeItem.links]
        simp only [List.map_append, Edge.labels_named, attributeLinks, names, attributeNames,
          labels_optional_congr _ isSome]
        rfl
      · show Threads _ _ _ ((heap.links ref).map Prod.snd) _
        have depicted := whole.depicted numbered more
        rw [List.length_append, List.length_singleton] at depicted
        rw [links, Body.links, Node.targets_links, NodeItem.parts, List.map_append,
          Heap.targets_frame isLocal, Heap.targets_attributeLinks]
        exact depicted

/-- Every object of the value is written, as long as the depth is enough for it. -/
theorem draws_within (walkable : heap.Walkable heap.links value)
    (grounded : heap.Grounded heap.links value) (leads : Leads heap.links value ref)
    (met : Met heap value known) (enough : heap.budget heap.links known.length ref ≤ depth) :
    Succeeds (encodeWithin heap depth ref) known fun node after =>
      Drawn heap value known [node] [ref] after := by
  -- On the way down the budget shrinks: by the rank of an object, or by one more environment.
  induction depth generalizing ref known with
  | zero =>
      have needed := Heap.budget_pos heap.links known.length (walkable.inside ref leads)
      omega
  | succ depth ih =>
      have inside := walkable.inside ref leads
      have onward {child : Ref} (member : child ∈ (heap.links ref).map Prod.snd) :
          Leads heap.links value child :=
        walkable.step leads member
      by_cases environment : ∃ frame, heap.body ref = .environment frame
      · obtain ⟨frame, body⟩ := environment
        by_cases isLocal : frame.kind.isLocal = true
        · have localBody : (heap.body ref).isLocal = true := by
            rw [body]
            exact isLocal
          have entered (new : ref ∉ known) := met.enter leads inside localBody new
          refine draws_environment body isLocal entered ?_ met
          -- One more environment is known from here on, so its content starts anew.
          intro new child member later more met'
          apply ih (onward member) met'
          have room := Heap.locals_le_size (entered new).distinct fun env member =>
            ((entered new).among env member).2.2
          have length := more.length_le
          rw [List.length_append, List.length_singleton] at room length
          have less := Heap.budget_enter heap.links child room inside
          have least := heap.budget_later heap.links child length
          omega
        · exact draws_named body (Bool.eq_false_iff.mpr isLocal) met
      · have noEnvironment (frame : Frame) : heap.body ref ≠ .environment frame :=
          fun body => environment ⟨frame, body⟩
        have notLocal : (heap.body ref).isLocal = false := by
          cases body : heap.body ref with
          | environment frame => exact absurd body (noEnvironment frame)
          | _ => rfl
        refine draws_object noEnvironment ?_ met
        intro child member later more met'
        apply ih (onward member) met'
        have less := Heap.budget_onward known.length inside ⟨notLocal, member⟩
          (grounded ref leads)
        have least := heap.budget_later heap.links child more.length_le
        omega

/-- A value whose cycles all pass through local environments has a node that depicts it. -/
theorem depicts_walkable (walkable : heap.Walkable heap.links value)
    (grounded : heap.Grounded heap.links value) :
    ∃ node known, ofValue heap value = .ok node ∧ Met heap value known ∧
      Scene.Depicts { heap, numbered := known, owns := fun _ _ => True } 0 node value
        known.length := by
  have nothing : Met heap value [] := ⟨List.nodup_nil, fun _ member => nomatch member⟩
  obtain ⟨node, known, ran, drawn⟩ := draws_within walkable grounded (.refl _ _) nothing
    (heap.budget_start heap.links value)
  refine ⟨node, known, ?_, drawn.met, ?_⟩
  · rw [ofValue, ran]
    rfl
  · cases drawn.depicted known List.prefix_rfl with
    | cons head tail =>
        cases tail
        exact head

theorem depicts_ofValue (sound : heap.Sound) (inside : value.index < heap.size)
    (grounded : heap.Grounded heap.links value) :
    ∃ node known, ofValue heap value = .ok node ∧ Met heap value known ∧
      Scene.Depicts { heap, numbered := known, owns := fun _ _ => True } 0 node value
        known.length :=
  depicts_walkable (sound.walkable_links inside) grounded

end Node

end ValueChannels
