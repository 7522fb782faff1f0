import ValueChannels.Message.ToValue
import ValueChannels.Proofs.Graph.Reading
import ValueChannels.Proofs.Heap.Operations
import ValueChannels.Proofs.Transfer.Footprint
import ValueChannels.Proofs.Transfer.Handing
import ValueChannels.Proofs.Transfer.Traversal

/-!
Everything that contexts do with values is a course of operations on the heap: reading a node and
building a message, whatever they say, and converting a value, whatever the codec answers. Main
statements: `Node.makes_decode` for nodes, `Codec.lawful_packed` for bytes, `Message.makes_build`
for messages, and `Message.course_ofValue` for the values that are sent.
-/

namespace ValueChannels

theorem Environments.find?_empty (environments : Environments) :
    environments.find? .empty = some environments.empty := rfl

/-! ### Values that are rebuilt -/

namespace Rebuilding

variable {ε α β : Type} {environments : Environments} {start : Heap}

/-- The value that was built is in the heap. -/
def Inside (ref : Ref) (heap : Heap) : Prop :=
  ref.index < heap.size

def AllInside (refs : List Ref) (heap : Heap) : Prop :=
  ∀ ref ∈ refs, ref.index < heap.size

/-- What the reader knows is in its heap: the singletons, the environments of the context, and those
that it has registered. -/
structure Ready (environments : Environments) (state : Rebuild) : Prop where
  room : 2 ≤ state.heap.size
  owned : environments.Sound state.heap
  known : ∀ entry ∈ state.environments, entry.2.index < state.heap.size

/-- In whatever heap that has come of this one, the action takes a course of operations, to a result
that is right if there is one. -/
def Makes (environments : Environments) (start : Heap) (action : Rebuilding ε α)
    (right : α → Heap → Prop) : Prop :=
  ∀ before, Ready environments before → start.Develops before.heap →
    Ends action before
      (fun result after => (Ready environments after ∧ before.heap.Develops after.heap) ∧
        right result after.heap)
      (fun _ after => Ready environments after ∧ before.heap.Develops after.heap)

theorem Ready.withHeap {state : Rebuild} {heap : Heap} (ready : Ready environments state)
    (develops : state.heap.Develops heap) : Ready environments { state with heap } :=
  ⟨Nat.le_trans ready.room develops.size, develops.environments ready.owned,
    fun entry member => develops.inside (ready.known entry member)⟩

theorem AllInside.later {refs : List Ref} {heap after : Heap} (inside : AllInside refs heap)
    (develops : heap.Develops after) : AllInside refs after :=
  fun ref member => develops.inside (inside ref member)

theorem AllInside.cons {ref : Ref} {refs : List Ref} {heap : Heap} (first : Inside ref heap)
    (rest : AllInside refs heap) : AllInside (ref :: refs) heap :=
  List.forall_mem_cons.mpr ⟨first, rest⟩

namespace Makes

variable {action : Rebuilding ε α} {right : α → Heap → Prop}

theorem ready {result : α} (holds : ∀ state, Ready environments state → right result state.heap) :
    Makes environments start (Pure.pure result : Rebuilding ε α) right :=
  fun before ready _ => Ends.pure ⟨⟨ready, .refl _⟩, holds before ready⟩

theorem pure {result : α} (holds : ∀ heap, start.Develops heap → right result heap) :
    Makes environments start (Pure.pure result : Rebuilding ε α) right :=
  fun before ready develops => Ends.pure ⟨⟨ready, .refl _⟩, holds before.heap develops⟩

theorem inside {ref : Ref} (known : Inside ref start) :
    Makes environments start (Pure.pure ref : Rebuilding ε Ref) Inside :=
  pure fun _ develops => develops.inside known

theorem throw {err : ε} :
    Makes environments start (MonadExcept.throw err : Rebuilding ε α) right :=
  fun _ ready _ => Ends.throw ⟨ready, .refl _⟩

theorem bind {next : α → Rebuilding ε β} {right' : β → Heap → Prop}
    (first : Makes environments start action right)
    (second : ∀ result middle, start.Develops middle → right result middle →
      Makes environments middle (next result) right') :
    Makes environments start (action >>= next) right' := by
  intro before ready develops
  refine Ends.bind ((first before ready develops).mono ?_ fun _ _ failed => failed)
  rintro result middle ⟨⟨ready', onward⟩, holds⟩
  apply (second result middle.heap (develops.trans onward) holds middle ready' (.refl _)).mono
  · exact fun _ _ done => ⟨⟨done.1.1, onward.trans done.1.2⟩, done.2⟩
  · exact fun _ _ failed => ⟨failed.1, onward.trans failed.2⟩

theorem onHeap {step : Heap → α × Heap}
    (takes : ∀ heap, start.Develops heap → environments.Sound heap →
      heap.Develops (step heap).2 ∧ right (step heap).1 (step heap).2) :
    Makes environments start (Rebuilding.onHeap step : Rebuilding ε α) right := by
  intro before ready develops
  obtain ⟨onward, holds⟩ := takes before.heap develops ready.owned
  exact Ends.modifyGet ⟨⟨ready.withHeap onward, onward⟩, holds⟩

theorem changeHeap {change : Heap → Heap}
    (takes : ∀ heap, start.Develops heap → heap.Develops (change heap)) :
    Makes environments start (Rebuilding.changeHeap change : Rebuilding ε Unit)
      fun _ _ => True :=
  onHeap fun heap develops _ => ⟨takes heap develops, trivial⟩

theorem alloc {body : Body} (copies : body.copiesToItself = false)
    (known : AllInside body.children start) :
    Makes environments start (Rebuilding.alloc body : Rebuilding ε Ref) Inside :=
  onHeap fun heap develops _ =>
    ⟨(Heap.Course.alloc copies (known.later develops)).develops, heap.inside_alloc body⟩

theorem allocLocal {kind : EnvironmentKind} {parent : Ref}
    (owned : environments.find? kind = some parent) :
    Makes environments start
      (Rebuilding.onHeap fun heap => heap.allocLocal parent : Rebuilding ε Ref) Inside := by
  exact onHeap fun heap _ sound =>
    ⟨(Heap.Course.allocLocal (sound.inside owned)).develops, heap.inside_alloc _⟩

theorem register {id : UInt32} {env : Ref} (inside : Inside env start) :
    Makes environments start (Rebuilding.register id env : Rebuilding ε Unit)
      fun _ _ => True := by
  intro before ready develops
  refine Ends.modifyGet ⟨⟨⟨ready.room, ready.owned, fun entry member => ?_⟩, .refl _⟩, trivial⟩
  rcases List.mem_cons.mp member with same | old
  · rw [same]
    exact develops.inside inside
  · exact ready.known entry old

theorem resolve {unknown : UInt32 → ε} {id : UInt32} :
    Makes environments start (Rebuilding.resolve unknown id) Inside := by
  intro before ready develops
  unfold Rebuilding.resolve
  apply Ends.bind
  apply Ends.get
  cases found : before.environments.lookup id with
  | none => exact Ends.throw ⟨ready, .refl _⟩
  | some env => exact Ends.pure ⟨⟨ready, .refl _⟩, ready.known _ (mem_of_lookup found)⟩

theorem define {env value : Ref} {name : String} (known : Inside value start) :
    Makes environments start
      (Rebuilding.changeHeap fun heap => heap.define env name value : Rebuilding ε Unit)
      fun _ _ => True :=
  changeHeap fun _ develops => (Heap.Course.define env name (develops.inside known)).develops

theorem setParent {env parent : Ref} (known : Inside parent start) :
    Makes environments start
      (Rebuilding.changeHeap fun heap => heap.setParent env parent : Rebuilding ε Unit)
      fun _ _ => True :=
  changeHeap fun _ develops => (Heap.Course.setParent env (develops.inside known)).develops

end Makes

end Rebuilding

namespace Node

open Rebuilding

variable {environments : Environments} {start : Heap}

/-- The node is read by a course of operations. -/
def Advances (environments : Environments) (node : Node) : Prop :=
  ∀ start, Makes environments start (node.decode environments) Inside

theorem makes_decodeAll {items : List Node} (each : ∀ part ∈ items, Advances environments part) :
    Makes environments start (decodeAll environments items) AllInside := by
  induction items generalizing start with
  | nil =>
      rw [decodeAll]
      exact .pure fun _ _ => List.forall_mem_nil _
  | cons node rest ih =>
      rw [decodeAll]
      refine (each node List.mem_cons_self start).bind fun ref middle _ here => ?_
      refine (ih fun part member => each part (List.mem_cons_of_mem _ member)).bind
        fun refs after onward later => ?_
      exact .pure fun heap develops =>
        AllInside.cons (develops.inside (onward.inside here)) (later.later develops)

theorem makes_decodeEntries {entries : List (String × Node)}
    (each : ∀ part ∈ entries.map Prod.snd, Advances environments part) :
    Makes environments start (decodeEntries environments entries)
      fun decoded => AllInside (decoded.map Prod.snd) := by
  induction entries generalizing start with
  | nil =>
      rw [decodeEntries]
      exact .pure fun _ _ => List.forall_mem_nil _
  | cons entry rest ih =>
      obtain ⟨name, node⟩ := entry
      rw [decodeEntries]
      refine (each node List.mem_cons_self start).bind fun ref middle _ here => ?_
      refine (ih fun part member => each part (List.mem_cons_of_mem _ member)).bind
        fun decoded after onward later => ?_
      exact .pure fun heap develops =>
        AllInside.cons (develops.inside (onward.inside here)) (later.later develops)

theorem makes_decodeOptional {optional : Option Node}
    (each : ∀ part ∈ optional.toList, Advances environments part) :
    Makes environments start (decodeOptional environments optional)
      fun decoded => AllInside decoded.toList := by
  cases optional with
  | none =>
      rw [decodeOptional]
      exact .pure fun _ _ => List.forall_mem_nil _
  | some node =>
      rw [decodeOptional]
      refine (each node List.mem_cons_self start).bind fun ref middle _ here => ?_
      exact .pure fun heap develops =>
        AllInside.cons (develops.inside here) (List.forall_mem_nil _)

theorem makes_decodeBindings {env : Ref} {bindings : List (String × Node)}
    (each : ∀ part ∈ bindings.map Prod.snd, Advances environments part) :
    Makes environments start (decodeBindings environments env bindings) fun _ _ => True := by
  induction bindings generalizing start with
  | nil =>
      rw [decodeBindings]
      exact .pure fun _ _ => trivial
  | cons entry rest ih =>
      obtain ⟨name, node⟩ := entry
      rw [decodeBindings]
      refine (each node List.mem_cons_self start).bind fun ref middle _ here => ?_
      refine (Makes.define here).bind fun _ after _ _ => ?_
      exact ih fun part member => each part (List.mem_cons_of_mem _ member)

theorem makes_item (item : NodeItem) (ofParts : ∀ part ∈ item.parts, Advances environments part) :
    Makes environments start (item.decode environments) Inside := by
  cases item with
  | null =>
      rw [NodeItem.decode]
      exact .ready fun _ ready => Nat.lt_of_lt_of_le Nat.zero_lt_two ready.room
  | unbound =>
      rw [NodeItem.decode]
      exact .ready fun _ ready => Nat.lt_of_lt_of_le Nat.one_lt_two ready.room
  | vector data =>
      rw [NodeItem.decode]
      exact .alloc rfl (List.forall_mem_nil _)
  | list items =>
      rw [NodeItem.decode]
      exact (makes_decodeAll ofParts).bind fun refs middle _ inside => .alloc rfl inside
  | environment id bindings parent =>
      rw [NodeItem.decode]
      refine (Makes.allocLocal environments.find?_empty).bind fun env created _ new => ?_
      refine (Makes.register new).bind fun _ entered first _ => ?_
      refine (makes_decodeBindings fun part member =>
        ofParts part (List.mem_append_left _ member)).bind fun _ bound second _ => ?_
      refine (makes_decodeOptional fun part member =>
        ofParts part (List.mem_append_right _ member)).bind fun enclosing enclosed third held => ?_
      have inside := third.inside (second.inside (first.inside new))
      cases enclosing with
      | none => exact .inside inside
      | some parent =>
          exact (Makes.setParent (held parent List.mem_cons_self)).bind
            fun _ settled onward _ => .inside (onward.inside inside)
  | environmentRef id =>
      rw [NodeItem.decode]
      exact .resolve
  | named kind =>
      rw [NodeItem.decode]
      cases found : environments.find? kind with
      | none => exact .throw
      | some env => exact .ready fun _ ready => ready.owned.inside found
  | promise expr env value =>
      rw [NodeItem.decode]
      refine (makes_decodeOptional fun part member =>
        ofParts part (List.mem_append_left _ member)).bind fun env' middle _ ofEnv => ?_
      refine (makes_decodeOptional fun part member =>
        ofParts part (List.mem_append_right _ member)).bind fun value' later onward ofValue => ?_
      refine .alloc rfl fun child member => ?_
      rcases List.mem_append.mp member with around | held
      · exact onward.inside (ofEnv child around)
      · exact ofValue child held
  | closure formals body env =>
      rw [NodeItem.decode]
      refine (ofParts env List.mem_cons_self start).bind fun env' middle _ inside => ?_
      refine .alloc rfl fun child member => ?_
      rw [List.mem_singleton.mp member]
      exact inside
  | language expr =>
      rw [NodeItem.decode]
      exact .alloc rfl (List.forall_mem_nil _)
  | connection connection =>
      rw [NodeItem.decode]
      exact .alloc rfl (List.forall_mem_nil _)

/-- Whatever a node says, it is read by a course of operations. -/
theorem makes_decode (environments : Environments) (node : Node) : Advances environments node := by
  induction node using Node.induct with
  | step item attributes ofParts ofAttributes =>
      intro start
      rw [decode]
      refine (makes_item item ofParts).bind fun ref middle _ here => ?_
      split
      · refine (makes_decodeEntries ofAttributes).bind fun entries later onward known => ?_
        refine (Makes.changeHeap fun heap develops => ?_).bind fun _ last onward' _ => ?_
        · exact .single (.attach ref (known.later develops))
        · exact .inside (onward'.inside (onward.inside here))
      · exact .inside here

end Node

namespace Codec

/-- Whatever bytes the codec is given, it reads them by a course of operations, to a value of the
heap if to any. -/
def Lawful (codec : Codec) : Prop :=
  ∀ environments blob before, environments.Sound before → 2 ≤ before.size →
    Ends (codec.unserialize environments blob) before
      (fun ref after => before.Develops after ∧ ref.index < after.size)
      (fun _ after => before.Develops after)

theorem lawful_packed : packed.Lawful := by
  intro environments blob before owned room
  unfold Ends packed unserializePacked
  dsimp only
  cases readPacked Node.decoder blob with
  | error reason => exact .refl before
  | ok node =>
      have ready : Rebuilding.Ready environments { heap := before, environments := [] } :=
        ⟨room, owned, List.forall_mem_nil _⟩
      have ends := Node.makes_decode environments node before _ ready (.refl before)
      unfold Ends at ends
      dsimp only
      split at ends
      · rename_i ref after ended
        rw [ended]
        exact ⟨ends.1.2, ends.2⟩
      · rename_i reason after ended
        rw [ended]
        exact ends.2

end Codec

namespace Message

open Rebuilding

variable {context : Context} {start : Heap} {ref : Ref}

/-! ### Messages that are built -/

/-- The message mentions what is in the heap alone. -/
def Known (heap : Heap) (message : Message) : Prop :=
  ∀ ref, message.Mentions ref → ref.index < heap.size

/-- Where the message mentions what is in the heap alone, it is built by a course of operations. -/
def Advances (context : Context) (message : Message) : Prop :=
  ∀ start, message.Known start → Makes context.environments start (build context message) Inside

theorem Known.part {message part : Message} {heap : Heap} (known : message.Known heap)
    (member : part ∈ message.parts) : part.Known heap :=
  fun ref mentions => known ref (.part member mentions)

theorem Known.of_parts {message : Message} {heap : Heap}
    (own : ∀ ref ∈ message.own, ref.index < heap.size)
    (parts : ∀ part ∈ message.parts, part.Known heap) : message.Known heap := by
  intro ref mentions
  cases mentions with
  | own member => exact own ref member
  | part member inner => exact parts _ member ref inner

theorem Known.later {message : Message} {heap after : Heap} (known : message.Known heap)
    (develops : heap.Develops after) : message.Known after :=
  fun ref mentions => develops.inside (known ref mentions)

theorem makes_install {entries : List (String × Ref)} (inside : Inside ref start)
    (known : AllInside (entries.map Prod.snd) start) :
    Makes context.environments start
      (do
        Rebuilding.changeHeap fun heap => install heap ref entries
        pure ref : Building Ref) Inside := by
  refine (Makes.changeHeap fun heap develops => ?_).bind fun _ after onward _ =>
    .inside (onward.inside inside)
  unfold install
  split
  · exact .single (.attach ref (known.later develops))
  · exact .refl heap

section Parts

variable {messages : List Message}

theorem makes_buildEntries {entries : List (String × Message)}
    (each : ∀ part ∈ entries.map Prod.snd, Advances context part ∧ part.Known start) :
    Makes context.environments start (buildEntries context entries)
      fun built => AllInside (built.map Prod.snd) := by
  induction entries generalizing start with
  | nil =>
      rw [buildEntries]
      exact .pure fun _ _ => List.forall_mem_nil _
  | cons entry rest ih =>
      obtain ⟨name, message⟩ := entry
      rw [buildEntries]
      obtain ⟨advances, known⟩ := each message List.mem_cons_self
      refine (advances start known).bind fun ref middle onward here => ?_
      refine (ih fun part member => ?_).bind fun built after onward' later => ?_
      · exact (each part (List.mem_cons_of_mem _ member)).imp_right fun known => known.later onward
      · exact .pure fun heap develops =>
          AllInside.cons (develops.inside (onward'.inside here)) (later.later develops)

theorem makes_buildOptional {optional : Option Message}
    (each : ∀ part ∈ optional.toList, Advances context part ∧ part.Known start) :
    Makes context.environments start (buildOptional context optional)
      fun built => AllInside built.toList := by
  cases optional with
  | none =>
      rw [buildOptional]
      exact .pure fun _ _ => List.forall_mem_nil _
  | some message =>
      rw [buildOptional]
      obtain ⟨advances, known⟩ := each message List.mem_cons_self
      refine (advances start known).bind fun ref middle _ here => ?_
      exact .pure fun heap develops =>
        AllInside.cons (develops.inside here) (List.forall_mem_nil _)

theorem makes_buildBindings {env : Ref} {bindings : List (String × Message)}
    (each : ∀ part ∈ bindings.map Prod.snd, Advances context part ∧ part.Known start) :
    Makes context.environments start (buildBindings context env bindings) fun _ _ => True := by
  induction bindings generalizing start with
  | nil =>
      rw [buildBindings]
      exact .pure fun _ _ => trivial
  | cons entry rest ih =>
      obtain ⟨name, message⟩ := entry
      rw [buildBindings]
      obtain ⟨advances, known⟩ := each message List.mem_cons_self
      refine (advances start known).bind fun ref middle onward here => ?_
      refine (Makes.define here).bind fun _ after onward' _ => ?_
      refine ih fun part member => ?_
      exact (each part (List.mem_cons_of_mem _ member)).imp_right fun known =>
        known.later (onward.trans onward')

theorem makes_attach {attributes : Option (List (String × Message))}
    (each : ∀ part ∈ (attributes.getD []).map Prod.snd, Advances context part ∧ part.Known start)
    (inside : Inside ref start) :
    Makes context.environments start (attach context ref attributes) Inside := by
  cases attributes with
  | none =>
      rw [attach]
      exact .inside inside
  | some entries =>
      rw [attach]
      exact (makes_buildEntries each).bind fun built middle onward known =>
        makes_install (onward.inside inside) known

theorem makes_enterElement {shell element : Ref} {index : Nat} (inside : Inside shell start)
    (known : Inside element start) :
    Makes context.environments start (Building.enterElement shell index element) Inside := by
  have entered : Makes context.environments start
      (Rebuilding.onHeap fun heap =>
        let update := heap.setElement shell index element
        (update, update.heap) : Building Update)
      fun update heap => Inside update.handle heap := by
    refine .onHeap fun heap develops _ => ?_
    have there := develops.inside inside
    have here := develops.inside known
    have room : ∀ ref, (fun _ : Ref => False) ref → ref.index < heap.size :=
      fun _ impossible => False.elim impossible
    have moves := Heap.moves_setElement (fun _ => False) room ⟨there, id⟩ index ⟨here, id⟩
    exact ⟨.single (@Heap.Operation.perform heap (.setElement index element) here shell),
      moves.inside there⟩
  unfold Building.enterElement
  refine entered.bind fun update middle _ there => ?_
  cases update.outcome with
  | ok made => exact .inside there
  | error reason => exact .throw

theorem makes_fillList {shell : Ref} {index : Nat} {items : List Message}
    (each : ∀ part ∈ items, Advances context part ∧ part.Known start)
    (inside : Inside shell start) :
    Makes context.environments start (fillList context shell index items) Inside := by
  induction items generalizing start shell index with
  | nil =>
      rw [fillList]
      exact .inside inside
  | cons message rest ih =>
      rw [fillList]
      obtain ⟨advances, known⟩ := each message List.mem_cons_self
      refine (advances start known).bind fun element middle onward here => ?_
      refine (makes_enterElement (onward.inside inside) here).bind
        fun filled after onward' there => ?_
      refine ih (fun part member => ?_) there
      exact (each part (List.mem_cons_of_mem _ member)).imp_right fun known =>
        known.later (onward.trans onward')

end Parts

theorem makes_unserialize (lawful : context.codec.Lawful) (blob : Bytes) :
    Makes context.environments start (Building.unserialize context blob) Inside := by
  intro before ready develops
  have ends := lawful context.environments blob before.heap ready.owned ready.room
  unfold Ends at ends ⊢
  unfold Building.unserialize
  cases read : context.codec.unserialize context.environments blob before.heap with
  | ok ref heap =>
      rw [read] at ends
      exact ⟨⟨ready.withHeap ends.1, ends.1⟩, ends.2⟩
  | error reason heap =>
      rw [read] at ends
      exact ⟨ready.withHeap ends, ends⟩

/-- Every message that mentions what is in the heap alone is built by a course of operations. -/
theorem makes_build (lawful : context.codec.Lawful) (message : Message) :
    Advances context message := by
  induction message using Message.induct with
  | step message ofParts =>
      intro start known
      have each {part : Message} (member : part ∈ message.parts) {heap : Heap}
          (develops : start.Develops heap) : Advances context part ∧ part.Known heap :=
        ⟨ofParts part member, (known.part member).later develops⟩
      cases message with
      | plain value =>
          rw [build]
          exact .inside (known value (.own List.mem_cons_self))
      | list shell items attributes =>
          rw [build]
          have inside : Inside shell start := known shell (.own List.mem_cons_self)
          refine (makes_fillList (fun part member => each (List.mem_append_left _ member) (.refl _))
            inside).bind fun filled middle onward there => ?_
          exact makes_attach (fun part member => each (List.mem_append_right _ member) onward) there
      | environment id bindings parent attributes =>
          rw [build]
          refine (Makes.allocLocal context.environments.find?_empty).bind
            fun env created first new => ?_
          refine (Makes.register new).bind fun _ entered second _ => ?_
          have onward := first.trans second
          refine (makes_buildBindings fun part member =>
            each (List.mem_append_left _ member) onward).bind fun _ bound third _ => ?_
          have onward := onward.trans third
          refine (makes_buildOptional fun part member =>
            each (List.mem_append_right _ (List.mem_append_left _ member)) onward).bind
              fun enclosing enclosed fourth held => ?_
          have onward := onward.trans fourth
          have inside := fourth.inside (third.inside (second.inside new))
          have ofAttributes {heap : Heap} (develops : start.Develops heap) :
              ∀ part ∈ (attributes.getD []).map Prod.snd, Advances context part ∧ part.Known heap :=
            fun part member =>
              each (List.mem_append_right _ (List.mem_append_right _ member)) develops
          cases enclosing with
          | none => exact makes_attach (ofAttributes onward) inside
          | some parent =>
              exact (Makes.setParent (held parent List.mem_cons_self)).bind
                fun _ settled fifth _ =>
                  makes_attach (ofAttributes (onward.trans fifth)) (fifth.inside inside)
      | environmentRef id =>
          rw [build]
          exact .resolve
      | promise env value expr =>
          rw [build]
          cases rebuildExpr context.codec expr with
          | error reason => exact .throw
          | ok expr =>
              refine (makes_buildOptional fun part member =>
                each (List.mem_append_left _ member) (.refl _)).bind
                  fun env' middle first ofEnv => ?_
              refine (makes_buildOptional fun part member =>
                each (List.mem_append_right _ member) first).bind
                  fun value' later second ofValue => ?_
              refine .alloc rfl fun child member => ?_
              rcases List.mem_append.mp member with around | held
              · exact second.inside (ofEnv child around)
              · exact ofValue child held
      | encoded kind blob attributes =>
          rw [build]
          refine (makes_unserialize lawful blob).bind fun ref middle onward there => ?_
          exact makes_attach (fun part member => each member onward) there
      | attributed base attributes =>
          rw [build]
          obtain ⟨advances, known⟩ := each List.mem_cons_self (.refl start)
          refine (advances start known).bind fun ref middle first here => ?_
          refine (makes_buildEntries fun part member =>
            each (List.mem_cons_of_mem _ member) first).bind fun built later second inside => ?_
          exact makes_install (second.inside here) inside

/-- What is built of a message that mentions what is in the heap alone comes of it by operations,
whether the building succeeds or not. -/
theorem develops_toValue {heap : Heap} {message : Message} (lawful : context.codec.Lawful)
    (room : 2 ≤ heap.size) (owned : context.environments.Sound heap)
    (known : message.Known heap) : heap.Develops (toValue context heap message).2 := by
  have ready : Rebuilding.Ready context.environments { heap, environments := [] } :=
    ⟨room, owned, List.forall_mem_nil _⟩
  have ends := makes_build lawful message heap known _ ready (.refl heap)
  unfold toValue
  unfold Ends at ends
  split at ends
  · rename_i ref state ended
    rw [ended]
    exact ends.1.2
  · rename_i err state ended
    rw [ended]
    exact ends.2

/-! ### Values that are converted -/

theorem steps_course (context : Context) :
    Steps context (fun before after => before.Sound → before.Course [] after)
      fun _ => True where
  refl _ _ := .refl
  trans first second sound := (first sound).trans (second ((first sound).sound sound))
  mark _ ref _ := .single (.makeShared ref)
  copy _ ref _ := .single (.bareCopy ref)
  encode heap ref sound := by
    -- The attributes of a value that is not shared are put back as they were.
    unfold blobOf
    split
    · exact .single (.bareCopy ref)
    · simp only [sound.reattached ref]
      exact .refl
  endless := trivial
  unwritten _ _ := trivial

/-- Whatever a value is converted into, and however its conversion fails, it takes a course of
operations none of which defines a name. -/
theorem course_ofValue {heap : Heap} (sound : heap.Sound) (context : Context) (ref : Ref) :
    heap.Course [] (ofValue context heap ref).2 :=
  ((steps_course context).ofValue heap ref).1 sound

end Message

end ValueChannels
