import ValueChannels.Message.ToValue
import ValueChannels.Proofs.Transfer.Description

/-!
The order in which a receiver comes by the parts of a message, and what holds of all that it does
with them. Building is a sequence of a few kinds of steps, and each of them is about the messages
that are come by in it. A property that these steps have, and that one step after another has, is a
property of the whole building. Main statement: `Composes.build`.
-/

namespace ValueChannels.Message

mutual

/-- The message and all that it holds, in the order in which a receiver comes by it. -/
def visits : Message → List Message
  | .plain value => [.plain value]
  | .list shell items attributes =>
      .list shell items attributes :: (allVisits items ++ attributeVisits attributes)
  | .environment id bindings parent attributes =>
      .environment id bindings parent attributes ::
        (entryVisits bindings ++ (optionalVisits parent ++ attributeVisits attributes))
  | .environmentRef id => [.environmentRef id]
  | .promise env value expr =>
      .promise env value expr :: (optionalVisits env ++ optionalVisits value)
  | .encoded kind blob attributes => .encoded kind blob attributes :: attributeVisits attributes
  | .attributed base attributes =>
      .attributed base attributes :: (base.visits ++ entryVisits attributes)

def allVisits : List Message → List Message
  | [] => []
  | message :: rest => message.visits ++ allVisits rest

def entryVisits : List (String × Message) → List Message
  | [] => []
  | (_, message) :: rest => message.visits ++ entryVisits rest

def optionalVisits : Option Message → List Message
  | none => []
  | some message => message.visits

def attributeVisits : Option (List (String × Message)) → List Message
  | none => []
  | some entries => entryVisits entries

end

theorem allVisits_eq (items : List Message) : allVisits items = items.flatMap visits := by
  induction items with
  | nil => rfl
  | cons message rest ih => rw [allVisits, ih, List.flatMap_cons]

theorem entryVisits_eq (entries : List (String × Message)) :
    entryVisits entries = (entries.map Prod.snd).flatMap visits := by
  induction entries with
  | nil => rfl
  | cons entry rest ih => rw [entryVisits, ih, List.map_cons, List.flatMap_cons]

theorem optionalVisits_eq (optional : Option Message) :
    optionalVisits optional = optional.toList.flatMap visits := by
  cases optional with
  | none => rfl
  | some message => exact (List.append_nil _).symm

theorem attributeVisits_eq (attributes : Option (List (String × Message))) :
    attributeVisits attributes = ((attributes.getD []).map Prod.snd).flatMap visits := by
  cases attributes with
  | none => rfl
  | some entries => exact entryVisits_eq entries

/-- A receiver comes by a message first and then by its parts in their order. -/
theorem visits_eq (message : Message) :
    message.visits = message :: message.parts.flatMap visits := by
  cases message with
  | plain value => rfl
  | list shell items attributes =>
      rw [visits, parts, List.flatMap_append, allVisits_eq, attributeVisits_eq]
  | environment id bindings parent attributes =>
      rw [visits, parts, List.flatMap_append, List.flatMap_append, entryVisits_eq,
        optionalVisits_eq, attributeVisits_eq]
  | environmentRef id => rfl
  | promise env value expr =>
      rw [visits, parts, List.flatMap_append, optionalVisits_eq, optionalVisits_eq]
  | encoded kind blob attributes => rw [visits, parts, attributeVisits_eq]
  | attributed base attributes => rw [visits, parts, List.flatMap_cons, entryVisits_eq]

theorem mem_visits_self (message : Message) : message ∈ message.visits := by
  rw [visits_eq]
  exact List.mem_cons_self

theorem mem_visits_part {message part node : Message} (member : part ∈ message.parts)
    (inside : node ∈ part.visits) : node ∈ message.visits := by
  rw [visits_eq]
  exact List.mem_cons_of_mem _ (List.mem_flatMap_of_mem member inside)

theorem mem_visits_trans {root message node : Message} (outer : message ∈ root.visits)
    (inner : node ∈ message.visits) : node ∈ root.visits := by
  induction root using Message.induct with
  | step root ofParts =>
      rw [visits_eq] at outer
      rcases List.mem_cons.mp outer with same | later
      · rw [← same]
        exact inner
      · obtain ⟨part, member, inside⟩ := List.mem_flatMap.mp later
        exact mem_visits_part member (ofParts part member inside)

/-! ### Properties of the building -/

/-- Whether a message is taken apart without being entered, looked up or read itself. -/
def isInner : Message → Bool
  | .plain _ | .list _ _ _ | .promise _ _ _ | .attributed _ _ => true
  | .environment _ _ _ _ | .environmentRef _ | .encoded _ _ _ => false

/-- A property of actions, and of the messages that they come by, composes: every step of the
building has it, and so has one step after another. Only good messages are built, and only the
environments that the building owns are defined in. -/
structure Composes (context : Context) (good : Message → Prop) (own : Ref → Prop)
    (holds : (α : Type) → List Message → Building α → Prop) : Prop where
  pure {α : Type} (result : α) : holds α [] (Pure.pure result)
  bind {α β : Type} {first second : List Message} {action : Building α} {next : α → Building β} :
    holds α first action → (∀ result, holds β second (next result)) →
      holds β (first ++ second) (action >>= next)
  inner {node : Message} {nodes : List Message} {action : Building Ref} : node.isInner = true →
    holds Ref nodes action → holds Ref (node :: nodes) action
  /-- The environment is known under its number before its content is built. -/
  capture {id : UInt32} {bindings : List (String × Message)} {parent : Option Message}
    {attributes : Option MessageAttributes} {nodes : List Message} {next : Ref → Building Ref} :
    (∀ env, own env → holds Ref nodes (next env)) →
      holds Ref (.environment id bindings parent attributes :: nodes) (do
        let env ← Rebuilding.onHeap fun heap => heap.allocLocal context.environments.empty
        Rebuilding.register id env
        next env)
  resolve (id : UInt32) : holds Ref [.environmentRef id]
    (Rebuilding.resolve (fun id => .transfer (.uncapturedEnvironment id)) id)
  define {env : Ref} (name : String) (value : Ref) : own env →
    holds Unit [] (Rebuilding.changeHeap fun heap => heap.define env name value)
  setParent {env : Ref} (parent : Ref) : own env →
    holds Unit [] (Rebuilding.changeHeap fun heap => heap.setParent env parent)
  setElement (shell : Ref) (index : Nat) (element : Ref) :
    holds Update [] (Rebuilding.onHeap fun heap =>
      let update := heap.setElement shell index element
      (update, update.heap))
  misfit (reason : UpdateError) : holds Ref [] (throw (.transfer (.misfit reason)))
  install (ref : Ref) (entries : List (String × Ref)) :
    holds Unit [] (Rebuilding.changeHeap fun heap => Message.install heap ref entries)
  alloc (body : Body) : holds Ref [] (Rebuilding.alloc body)
  unserialize {kind : ValueKind} {blob : Bytes} {attributes : Option MessageAttributes} :
    good (.encoded kind blob attributes) →
      holds Ref [.encoded kind blob attributes] (Building.unserialize context blob)
  broken {env value : Option Message} {expr : Bytes} {reason : CodecError} {nodes : List Message} :
    good (.promise env value expr) → rebuildExpr context.codec expr = .error reason →
      holds Ref nodes (throw (.ofDecoding .promiseExpression reason))
  part {message part : Message} : good message → part ∈ message.parts → good part

namespace Composes

variable {context : Context} {good : Message → Prop} {own : Ref → Prop}
  {holds : (α : Type) → List Message → Building α → Prop}
  (composes : Composes context good own holds)

include composes

section Combinators

variable {α β : Type} {nodes : List Message} {action : Building α} {next : α → Building β}

theorem step (left : holds α [] action) (right : ∀ result, holds β nodes (next result)) :
    holds β nodes (action >>= next) :=
  composes.bind left right

theorem andThen (left : holds α nodes action) (right : ∀ result, holds β [] (next result)) :
    holds β nodes (action >>= next) := by
  have both := composes.bind left right
  rwa [List.append_nil] at both

end Combinators

theorem entries {entries : List (String × Message)}
    (each : ∀ part ∈ entries.map Prod.snd, holds Ref part.visits (part.build context)) :
    holds _ (entryVisits entries) (buildEntries context entries) := by
  induction entries with
  | nil => exact composes.pure _
  | cons entry rest ih =>
      have others := ih fun part member => each part (List.mem_cons_of_mem _ member)
      rw [entryVisits, buildEntries]
      apply composes.bind (each entry.2 List.mem_cons_self)
      intro ref
      apply composes.andThen others
      intro entries
      exact composes.pure _

theorem bindings {entries : List (String × Message)} {env : Ref} (owned : own env)
    (each : ∀ part ∈ entries.map Prod.snd, holds Ref part.visits (part.build context)) :
    holds _ (entryVisits entries) (buildBindings context env entries) := by
  induction entries with
  | nil => exact composes.pure _
  | cons entry rest ih =>
      have others := ih fun part member => each part (List.mem_cons_of_mem _ member)
      rw [entryVisits, buildBindings]
      apply composes.bind (each entry.2 List.mem_cons_self)
      intro ref
      exact composes.step (composes.define entry.1 ref owned) fun _ => others

theorem optional {optional : Option Message}
    (each : ∀ part ∈ optional.toList, holds Ref part.visits (part.build context)) :
    holds _ (optionalVisits optional) (buildOptional context optional) := by
  cases optional with
  | none => exact composes.pure _
  | some message =>
      rw [optionalVisits, buildOptional]
      apply composes.andThen (each message List.mem_cons_self)
      intro ref
      exact composes.pure _

theorem attach {attributes : Option MessageAttributes} (ref : Ref)
    (each : ∀ part ∈ (attributes.getD []).map Prod.snd,
      holds Ref part.visits (part.build context)) :
    holds _ (attributeVisits attributes) (attach context ref attributes) := by
  cases attributes with
  | none => exact composes.pure _
  | some entries =>
      rw [attributeVisits, Message.attach]
      apply composes.andThen (composes.entries each)
      intro refs
      exact composes.step (composes.install ref refs) fun _ => composes.pure _

theorem enter (shell : Ref) (index : Nat) (element : Ref) :
    holds _ [] (Building.enterElement shell index element) := by
  unfold Building.enterElement
  apply composes.step (composes.setElement shell index element)
  intro update
  cases update.outcome with
  | ok _ => exact composes.pure _
  | error reason => exact composes.misfit reason

theorem fill {items : List Message} (shell : Ref) (index : Nat)
    (each : ∀ part ∈ items, holds Ref part.visits (part.build context)) :
    holds _ (allVisits items) (fillList context shell index items) := by
  induction items generalizing shell index with
  | nil => exact composes.pure _
  | cons item rest ih =>
      rw [allVisits, fillList]
      apply composes.bind (each item List.mem_cons_self)
      intro element
      apply composes.step (composes.enter shell index element)
      intro shell
      exact ih shell (index + 1) fun part member => each part (List.mem_cons_of_mem item member)

theorem environment {id : UInt32} {bindings : List (String × Message)} {parent : Option Message}
    {attributes : Option MessageAttributes}
    (each : ∀ part ∈ (Message.environment id bindings parent attributes).parts,
      holds Ref part.visits (part.build context)) :
    holds _ (Message.environment id bindings parent attributes).visits
      ((Message.environment id bindings parent attributes).build context) := by
  rw [visits, Message.build]
  apply composes.capture
  intro env owned
  apply composes.bind
  · exact composes.bindings owned fun part member => each part (List.mem_append_left _ member)
  intro _
  apply composes.bind
  · exact composes.optional fun part member =>
      each part (List.mem_append_right _ (List.mem_append_left _ member))
  intro enclosing
  have attached := composes.attach env fun part member =>
    each part (List.mem_append_right _ (List.mem_append_right _ member))
  cases enclosing with
  | none => exact attached
  | some parent => exact composes.step (composes.setParent parent owned) fun _ => attached

/-- What every step has, and one step after another, the building of every good message has. -/
theorem build (message : Message) (fine : good message) :
    holds Ref message.visits (message.build context) := by
  induction message using Message.induct with
  | step message ofParts =>
      have each (part : Message) (member : part ∈ message.parts) :
          holds Ref part.visits (part.build context) :=
        ofParts part member (composes.part fine member)
      cases message with
      | plain value =>
          rw [visits, Message.build]
          exact composes.inner rfl (composes.pure value)
      | list shell items attributes =>
          rw [visits, Message.build]
          apply composes.inner rfl
          apply composes.bind
          · exact composes.fill shell 0 fun part member =>
              each part (List.mem_append_left _ member)
          intro filled
          exact composes.attach filled fun part member =>
            each part (List.mem_append_right _ member)
      | environment id bindings parent attributes => exact composes.environment each
      | environmentRef id =>
          rw [visits, Message.build]
          exact composes.resolve id
      | promise env value expr =>
          rw [visits, Message.build]
          apply composes.inner rfl
          cases rebuilt : rebuildExpr context.codec expr with
          | error reason => exact composes.broken fine rebuilt
          | ok expr =>
              apply composes.bind
              · exact composes.optional fun part member =>
                  each part (List.mem_append_left _ member)
              intro env
              apply composes.andThen
              · exact composes.optional fun part member =>
                  each part (List.mem_append_right _ member)
              intro value
              exact composes.alloc _
      | encoded kind blob attributes =>
          rw [visits, Message.build]
          apply composes.bind (composes.unserialize fine)
          intro ref
          exact composes.attach ref each
      | attributed base attributes =>
          rw [visits, Message.build]
          apply composes.inner rfl
          apply composes.bind (each base List.mem_cons_self)
          intro ref
          apply composes.andThen
          · exact composes.entries fun part member => each part (List.mem_cons_of_mem base member)
          intro entries
          exact composes.step (composes.install ref entries) fun _ => composes.pure ref

end Composes

end ValueChannels.Message
