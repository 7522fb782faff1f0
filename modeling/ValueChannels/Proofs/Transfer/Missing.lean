import ValueChannels.Proofs.Graph.Lossless
import ValueChannels.Proofs.Graph.Names
import ValueChannels.Proofs.Transfer.Composition
import ValueChannels.Proofs.Transfer.Isolation

/-!
Messages that cannot be built. What a sender has made of a value, with parts that fit the format, is
built by every context that has the packages and namespaces which the message names; any other
context stops at the first that it lacks. Main statement: `hinges_transfer`.
-/

namespace ValueChannels

/-! ### Names -/

/-- The kinds of the environments that encoded bytes name. -/
def Codec.blobKinds (blob : Bytes) : List EnvironmentKind :=
  match readPacked Node.decoder blob with
  | .ok node => node.kinds
  | .error _ => []

namespace Message

mutual

/-- The kinds of the environments that a message names, in the order in which it is built. -/
def kinds : Message → List EnvironmentKind
  | .plain _ | .environmentRef _ => []
  | .list _ items attributes => allKinds items ++ attributeKinds attributes
  | .environment _ bindings parent attributes =>
      entryKinds bindings ++ (optionalKinds parent ++ attributeKinds attributes)
  | .promise env value _ => optionalKinds env ++ optionalKinds value
  | .encoded _ blob attributes => Codec.blobKinds blob ++ attributeKinds attributes
  | .attributed base attributes => base.kinds ++ entryKinds attributes

def allKinds : List Message → List EnvironmentKind
  | [] => []
  | message :: rest => message.kinds ++ allKinds rest

def entryKinds : List (String × Message) → List EnvironmentKind
  | [] => []
  | (_, message) :: rest => message.kinds ++ entryKinds rest

def optionalKinds : Option Message → List EnvironmentKind
  | none => []
  | some message => message.kinds

def attributeKinds : Option (List (String × Message)) → List EnvironmentKind
  | none => []
  | some entries => entryKinds entries

end

/-- The kinds of the environments that a message names itself. -/
def named : Message → List EnvironmentKind
  | .encoded _ blob _ => Codec.blobKinds blob
  | _ => []

mutual

/-- What a message names is named by the messages that a receiver comes by, in their order. -/
theorem kinds_eq : ∀ message : Message, message.kinds = message.visits.flatMap named
  | .plain _ | .environmentRef _ => rfl
  | .list _ items attributes => by
      rw [kinds, visits, List.flatMap_cons, List.flatMap_append, allKinds_eq items,
        attributeKinds_eq attributes]
      rfl
  | .environment _ bindings parent attributes => by
      rw [kinds, visits, List.flatMap_cons, List.flatMap_append, List.flatMap_append,
        entryKinds_eq bindings, optionalKinds_eq parent, attributeKinds_eq attributes]
      rfl
  | .promise env value _ => by
      rw [kinds, visits, List.flatMap_cons, List.flatMap_append, optionalKinds_eq env,
        optionalKinds_eq value]
      rfl
  | .encoded _ blob attributes => by
      rw [kinds, visits, List.flatMap_cons, attributeKinds_eq attributes]
      rfl
  | .attributed base attributes => by
      rw [kinds, visits, List.flatMap_cons, List.flatMap_append, kinds_eq base,
        entryKinds_eq attributes]
      rfl

theorem allKinds_eq : ∀ items : List Message, allKinds items = (allVisits items).flatMap named
  | [] => rfl
  | message :: rest => by
      rw [allKinds, allVisits, List.flatMap_append, kinds_eq message, allKinds_eq rest]

theorem entryKinds_eq : ∀ entries : List (String × Message),
    entryKinds entries = (entryVisits entries).flatMap named
  | [] => rfl
  | (_, message) :: rest => by
      rw [entryKinds, entryVisits, List.flatMap_append, kinds_eq message, entryKinds_eq rest]

theorem optionalKinds_eq : ∀ optional : Option Message,
    optionalKinds optional = (optionalVisits optional).flatMap named
  | none => rfl
  | some message => kinds_eq message

theorem attributeKinds_eq : ∀ attributes : Option (List (String × Message)),
    attributeKinds attributes = (attributeVisits attributes).flatMap named
  | none => rfl
  | some entries => entryKinds_eq entries

end

/-! ### Sizes -/

/-- A message occurs in another one. -/
inductive Holds (root : Message) : Message → Prop where
  | self : Holds root root
  | part {message part : Message} (holds : Holds root message) (member : part ∈ message.parts) :
      Holds root part

theorem Holds.trans {first second third : Message} (outer : first.Holds second)
    (inner : second.Holds third) : first.Holds third := by
  induction inner with
  | self => exact outer
  | part _ member ih => exact .part ih member

/-- What was written into the bytes of a message itself is within the limits of the format. -/
def Sized : Message → Prop
  | .encoded _ blob _ => ∀ node : Node, node.toItem.write = blob → node.toItem.Fits
  | .promise _ _ bytes => ∀ expr : Expr, expr.toItem.write = bytes → expr.toItem.Fits
  | _ => True

/-- Every encoded value and every expression in a message is within the limits of the format. -/
def WellSized (message : Message) : Prop :=
  ∀ part, message.Holds part → part.Sized

theorem WellSized.part {message part : Message} (sized : message.WellSized)
    (member : part ∈ message.parts) : part.WellSized :=
  fun _ inner => sized _ ((Holds.self.part member).trans inner)

theorem wellSized_of_sized {message : Message} (bare : message.parts = [])
    (sized : message.Sized) : message.WellSized := by
  have only (part : Message) (holds : message.Holds part) : part = message := by
    induction holds with
    | self => rfl
    | part _ member same =>
        rw [same, bare] at member
        cases member
  intro part holds
  rw [only part holds]
  exact sized

/-! ### The order of the receiver -/

section Building

variable {context : Context} {message : Message}

/-- What may stop a receiver: an environment that it lacks, or a message that does not hold together. -/
def search (environments : Environments) : Search ChannelError :=
  { lacks := environments.lacks
    missing := .passByReference
    other := fun err => ∃ fault, err = .transfer fault }

/-- A receiver stops at the first environment that it lacks, if the message holds together. -/
def Follows {α β : Type} (context : Context) (kinds : α → List EnvironmentKind)
    (build : α → Building β) (tree : α) : Prop :=
  (search context.environments).Visits (kinds tree) (fun _ => True) (build tree) fun _ => True

theorem visits_heap {α : Type} (environments : Environments) (step : Heap → α × Heap) :
    (search environments).Visits [] (fun _ => True) (Rebuilding.onHeap step : Building α)
      fun _ => True :=
  .modifyGet fun _ _ => trivial

theorem visits_register (environments : Environments) (id : UInt32) (env : Ref) :
    (search environments).Visits [] (fun _ => True) (Rebuilding.register id env : Building Unit)
      fun _ => True :=
  .modifyGet fun _ _ => trivial

theorem visits_resolve (environments : Environments) (id : UInt32) :
    (search environments).Visits [] (fun _ => True)
      (Rebuilding.resolve (fun id => .transfer (.uncapturedEnvironment id)) id : Building Ref)
      fun _ => True := by
  intro state _
  unfold Rebuilding.resolve
  refine Ends.bind (Ends.get ?_)
  split
  · exact Ends.pure ⟨rfl, trivial⟩
  · exact Ends.throw (Or.inr ⟨_, rfl⟩)

/-- Bytes of a node that fits are read up to the first environment that the context lacks. -/
theorem visits_unserialize {node : Node} {count : Nat} (codec : context.codec = .packed)
    (fits : node.toItem.Fits) (within : node.scope 0 = some count) :
    (search context.environments).Visits (Codec.blobKinds node.toItem.write) (fun _ => True)
      (Building.unserialize context node.toItem.write) fun _ => True := by
  have read : Codec.readPacked Node.decoder node.toItem.write = .ok node :=
    Codec.readPacked_write (node.packable fits) (Node.decodes _ _)
  have knows (heap : Heap) : Node.Knows 0 { heap, environments := [] } :=
    fun _ none => absurd none (Nat.not_lt_zero _)
  intro state _
  have ends := Node.follows context.environments node 0 count within
    { heap := state.heap, environments := [] } (knows state.heap)
  unfold Ends at ends ⊢
  unfold Building.unserialize Codec.blobKinds
  rw [codec, read]
  simp only [Codec.packed, Codec.unserializePacked, read]
  cases decoded : node.decode context.environments { heap := state.heap, environments := [] } with
  | ok ref after =>
      rw [decoded] at ends
      exact ⟨ends.1, trivial⟩
  | error err after =>
      rw [decoded] at ends
      rcases ends with ⟨kind, lacking, isNamed, same⟩ | impossible
      · exact Or.inl ⟨kind, lacking, isNamed, congrArg (ChannelError.ofDecoding _) same⟩
      · exact impossible.elim

/-- What an encoder may come to from a value that was taken apart: that value, and what was there. -/
theorem tidy_detached {heap detached : Heap} {ref bare : Ref} (clean : heap.Clean)
    (inside : ref.index < heap.size) (taken : heap.Detached ref detached bare) :
    Node.Tidy detached fun other => other = bare ∨ other.index < heap.size := by
  constructor
  · intro other among child member
    refine Or.inr ?_
    by_cases same : other = bare
    · subst same
      rw [Object.children, List.mem_append] at member
      rcases member with held | held
      · have body : (detached.get other).body = (heap.get ref).body := taken.body
        rw [body] at held
        exact clean.sound.closed ref inside child (List.mem_append_left _ held)
      · have nothing : (detached.get other).attributes = none := taken.attributes
        rw [nothing] at held
        cases held
    · have old := among.resolve_left same
      have body : (detached.get other).body = (heap.get other).body := taken.bodies other old
      have attributes : (detached.get other).attributes = (heap.get other).attributes :=
        taken.others other old same
      rw [Object.children, body, attributes] at member
      exact clean.sound.closed other old child member
  · intro other among singleton
    by_cases same : other = bare
    · rw [same, taken.attributes]
    · have old := among.resolve_left same
      rw [taken.others other old same]
      rw [taken.bodies other old] at singleton
      rcases singleton with null | unbound
      · rw [(clean.sound.null other old).mp null, clean.null]
      · rw [(clean.sound.unbound other).mp unbound, clean.unbound]

theorem visits_encoded {sending : Sending} {heap : Heap} {ref bare : Ref} {blob : Bytes}
    (clean : sending.origin.Clean) (codecs : sending.context.codec = .packed ∧ context.codec = .packed)
    (inside : ref.index < sending.origin.size) (taken : sending.origin.Detached ref heap bare)
    (written : sending.context.codec.serialize heap bare = .ok blob)
    (sized : ∀ node : Node, node.toItem.write = blob → node.toItem.Fits) :
    (search context.environments).Visits (Codec.blobKinds blob) (fun _ => True)
      (Building.unserialize context blob) fun _ => True := by
  rw [codecs.1] at written
  cases encoded : Node.ofValue heap bare with
  | error reason =>
      simp only [Codec.packed, encoded] at written
      cases written
  | ok node =>
      simp only [Codec.packed, encoded] at written
      cases written
      obtain ⟨count, within⟩ :=
        Node.scope_ofValue (tidy_detached clean inside taken) (Or.inl rfl) encoded
      exact visits_unserialize codecs.2 (sized node rfl) within

theorem rebuilds_described {sending : Sending} {start stop : Stage} {ref : Ref}
    {env value : Option Message} {bytes : Bytes}
    (codecs : sending.context.codec = .packed ∧ context.codec = .packed)
    (describes : sending.Describes start (.promise env value bytes) ref stop)
    (sized : ∀ expr : Expr, expr.toItem.write = bytes → expr.toItem.Fits) :
    ∃ expr, rebuildExpr context.codec bytes = .ok expr := by
  have packed {expr : Expr} (written : sending.context.codec.serializeExpr expr = .ok bytes) :
      rebuildExpr context.codec bytes = .ok expr.reread := by
    rw [codecs.1] at written
    cases written
    rw [codecs.2]
    exact rebuildExpr_packed (expr.packable (sized expr rfl))
  cases describes with
  | evaluated body written has content => exact ⟨_, packed written⟩
  | delayed body written has content => exact ⟨_, packed written⟩

/-- Whatever the sender has described, with parts that fit the format, or has handed over. -/
def Sendable (sending : Sending) (message : Message) : Prop :=
  (∃ copy, message = .plain copy) ∨
    message.WellSized ∧ ∃ start ref stop, sending.Describes start message ref stop

theorem Sendable.part {sending : Sending} {message part : Message}
    (sendable : Sendable sending message) (member : part ∈ message.parts) :
    Sendable sending part := by
  rcases sendable with ⟨copy, plain⟩ | ⟨sized, start, ref, stop, describes⟩
  · rw [plain] at member
    cases member
  · obtain ⟨parts, children, first, last, comprises⟩ := describes.comprises
    rcases comprises.all part member with described | handed
    · obtain ⟨child, _, begin, finish, inner⟩ := comprises.part described
      exact Or.inr ⟨sized.part member, begin, child, finish, inner⟩
    · exact Or.inl handed

theorem composes_follows {sending : Sending} (clean : sending.origin.Clean)
    (codecs : sending.context.codec = .packed ∧ context.codec = .packed) :
    Composes context (Sendable sending) (fun _ => True) fun _ nodes action =>
      (search context.environments).Visits (nodes.flatMap named) (fun _ => True) action
        fun _ => True where
  pure := fun _ => .pure fun _ _ => trivial
  bind := by
    intro α β first second action next left right
    rw [List.flatMap_append]
    exact left.bind right
  inner := by
    intro node nodes action inner visits
    have silent : named node = [] := by
      cases node <;> first | rfl | cases inner
    rw [List.flatMap_cons, silent]
    exact visits
  capture := by
    intro id bindings parent attributes nodes next visits
    exact (visits_heap _ _).step fun env => (visits_register _ id env).step fun _ =>
      visits env trivial
  resolve := visits_resolve context.environments
  define := fun _ _ _ => visits_heap _ _
  setParent := fun _ _ => visits_heap _ _
  setElement := fun _ _ _ => visits_heap _ _
  misfit := fun _ _ _ => Ends.throw (Or.inr ⟨_, rfl⟩)
  install := fun _ _ => visits_heap _ _
  alloc := fun _ => visits_heap _ _
  unserialize := by
    rintro kind blob attributes (⟨copy, impossible⟩ | ⟨sized, start, ref, stop, describes⟩)
    · cases impossible
    · cases describes with
      | encoded isEncoded taken written copies present names values =>
          have inside : ref.index < sending.origin.size := by
            apply sending.origin.inside_of_body
            intro null
            rw [null] at isEncoded
            cases isEncoded
          rw [List.flatMap_singleton]
          exact visits_encoded clean codecs inside taken written (sized _ .self)
  broken := by
    rintro env value expr reason nodes (⟨copy, impossible⟩ | ⟨sized, start, ref, stop, describes⟩)
      failed
    · cases impossible
    · obtain ⟨held, rebuilt⟩ := rebuilds_described codecs describes (sized _ .self)
      rw [rebuilt] at failed
      cases failed
  part := .part

/-- A receiver stops at the first environment that it lacks, at whatever stage a message of the sender
is built. -/
theorem follows {sending : Sending} (clean : sending.origin.Clean)
    (codecs : sending.context.codec = .packed ∧ context.codec = .packed) {start stop : Stage}
    {ref : Ref} (describes : sending.Describes start message ref stop) (sized : message.WellSized) :
    Follows context kinds (build context) message := by
  rw [Follows, kinds_eq]
  exact (composes_follows clean codecs).build message (Or.inr ⟨sized, start, ref, stop, describes⟩)

end Building

/-! ### Whole messages -/

/-- Whether a message is built depends on the packages and namespaces of the receiver alone. -/
structure Hinges (environments : Environments) (message : Message)
    (outcome : Except ChannelError Ref) : Prop where
  succeeds : (∃ copy, outcome = .ok copy) ↔
    (∀ name, .packageEnv name ∈ message.kinds →
      ∃ env, environments.packages.get? name = some env) ∧
    ∀ name, .namespaceEnv name ∈ message.kinds →
      ∃ env, environments.namespaces.get? name = some env
  stops : ∀ err, outcome = .error err →
    ∃ kind, message.kinds.find? environments.lacks = some kind ∧
      (∃ name, kind = .packageEnv name ∨ kind = .namespaceEnv name) ∧
      err = .passByReference kind

theorem optional_of_lacks {environments : Environments} {kind : EnvironmentKind}
    (lacks : environments.lacks kind = true) (isNamed : kind.isLocal = false) :
    ∃ name, kind = .packageEnv name ∧ environments.packages.get? name = none ∨
      kind = .namespaceEnv name ∧ environments.namespaces.get? name = none := by
  cases kind with
  | packageEnv name => exact ⟨name, Or.inl ⟨rfl, Option.isNone_iff_eq_none.mp lacks⟩⟩
  | namespaceEnv name => exact ⟨name, Or.inr ⟨rfl, Option.isNone_iff_eq_none.mp lacks⟩⟩
  | localEnv => cases isNamed
  | empty | base | baseNamespace | global => cases lacks

theorem hinges_of_visits {environments : Environments} {message : Message}
    {outcome : Except ChannelError Ref}
    (ok : ∀ copy, outcome = .ok copy → message.kinds.find? environments.lacks = none)
    (error : ∀ err, outcome = .error err → ∃ kind,
      message.kinds.find? environments.lacks = some kind ∧ kind.isLocal = false ∧
        err = .passByReference kind) : Hinges environments message outcome := by
  have optional {kind : EnvironmentKind}
      (found : message.kinds.find? environments.lacks = some kind) (isNamed : kind.isLocal = false) :=
    optional_of_lacks (List.find?_some found) isNamed
  refine ⟨⟨?_, ?_⟩, ?_⟩
  · rintro ⟨copy, same⟩
    have present {kind : EnvironmentKind} (member : kind ∈ message.kinds) :
        ∃ env, environments.find? kind = some env := by
      have has := List.find?_eq_none.mp (ok copy same) kind member
      exact Option.isSome_iff_exists.mp (Option.isNone_eq_false_iff.mp (Bool.eq_false_iff.mpr has))
    exact ⟨fun name member => present member, fun name member => present member⟩
  · rintro ⟨packages, namespaces⟩
    cases same : outcome with
    | ok copy => exact ⟨copy, rfl⟩
    | error err =>
        obtain ⟨kind, found, isNamed, _⟩ := error err same
        have member := List.mem_of_find?_eq_some found
        obtain ⟨name, ⟨isPackage, absent⟩ | ⟨isNamespace, absent⟩⟩ := optional found isNamed
        · rw [isPackage] at member
          obtain ⟨env, present⟩ := packages name member
          exact nomatch absent.symm.trans present
        · rw [isNamespace] at member
          obtain ⟨env, present⟩ := namespaces name member
          exact nomatch absent.symm.trans present
  · intro err same
    obtain ⟨kind, found, isNamed, reason⟩ := error err same
    obtain ⟨name, optional⟩ := optional found isNamed
    exact ⟨kind, found, ⟨name, optional.imp And.left And.left⟩, reason⟩

theorem Broken.readable {context : Context} {message : Message} {err : ChannelError}
    (broken : Broken context message err) (fault : TransferFault) : err ≠ .transfer fault := by
  induction broken with
  | blob failed =>
      rename_i reason
      cases reason <;> exact nofun
  | expr failed =>
      rename_i reason
      cases reason <;> exact nofun
  | part member broken ih => exact ih

/-- A message that a context has made of a value, with parts that fit the format, is built by every
context that has the packages and the namespaces which the message names. Any other context stops at
the first that it lacks, in the order of the message; there is no other error. -/
theorem hinges_transfer {sender receiver : Context} {heap sent : Heap} {value : Ref}
    {message : Message} (clean : heap.Clean) (inside : value.index < heap.size)
    (senders : sender.environments.Sound heap) (receivers : receiver.environments.Sound heap)
    (codecs : sender.codec = .packed ∧ receiver.codec = .packed)
    (prepared : ofValue sender heap value = (.ok message, sent)) (sized : message.WellSized) :
    Hinges receiver.environments message (toValue receiver sent message).1 := by
  have global : sender.environments.global.index < heap.size :=
    senders.inside (show sender.environments.find? .global = some _ from rfl)
  obtain ⟨known, converted⟩ := sent_ofValue clean.sound global inside prepared
  let sending : Sending := { context := sender, origin := heap, final := sent, known }
  have restores : sender.codec.Restores receiver.codec := by
    rw [codecs.1, codecs.2]
    exact Codec.restores_packed
  have meets : Meets sending receiver :=
    ⟨clean.sound, ⟨clean.null, clean.unbound⟩, converted.marked, receivers, restores⟩
  have ends : Ends (message.build receiver) { heap := sent, environments := [] } _ _ :=
    @follows _ message sending clean codecs _ _ _ converted.whole sized _ trivial
  refine hinges_of_visits (fun copy same => ?_) (fun err same => ?_)
  · unfold toValue at same
    split at same
    · rename_i result state built
      exact (ends.ok built).1
    · cases same
  · have broken := broken_toValue meets converted.whole same
    unfold toValue at same
    split at same
    · cases same
    · rename_i reason state failed
      cases same
      rcases ends.error failed with stopped | ⟨fault, impossible⟩
      · exact stopped
      · exact absurd impossible (broken.readable fault)

/-- The first of two contexts has attached a package, and made a function inside of it. -/
def stocked : Environments × Heap :=
  let heap := (Context.create (Context.create Heap.initial "a" .packed).2 "b" .packed).2
  let (package, environments, heap) := sampleSender.environments.attach heap "stats"
  let (env, heap) := heap.allocLocal package
  (environments, (heap.alloc (.closure { formals := ["x"], body := .symbol "x", env })).2)

theorem sound_stocked : stocked.2.Sound := by
  have contexts := Environments.heap_create (Environments.heap_create Heap.sound_initial)
  have package : (Heap.allocEnvironment _ (.packageEnv "stats") (some ⟨3⟩)).2.Sound :=
    contexts.allocEnvironment (fun impossible => nomatch impossible) (by decide)
  have attached : (Heap.setParent _ sampleSender.environments.global ⟨10⟩).Sound :=
    package.setParent (by decide) (by decide)
  have env : (Heap.allocLocal _ ⟨10⟩).2.Sound := attached.allocLocal (by decide)
  exact env.alloc (fun impossible => nomatch impossible) (fun impossible => nomatch impossible)
    (fun _ impossible => nomatch impossible) (by decide)

theorem sound_stockedSender : stocked.1.Sound stocked.2 := by
  intro kind ref found
  cases kind with
  | packageEnv name =>
      change ((Mapping.empty : Mapping Ref).insert "stats" ⟨10⟩).get? name = some ref at found
      rw [Mapping.get?_insert] at found
      split at found
      · rename_i same
        cases found
        rw [same]
        exact ⟨_, rfl, rfl⟩
      · cases found
  | namespaceEnv name => cases found
  | localEnv => cases found
  | empty => cases found; exact ⟨_, rfl, rfl⟩
  | base => cases found; exact ⟨_, rfl, rfl⟩
  | baseNamespace => cases found; exact ⟨_, rfl, rfl⟩
  | global => cases found; exact ⟨_, rfl, rfl⟩

theorem sound_stockedReceiver : sampleReceiver.environments.Sound stocked.2 :=
  Environments.sound_fixed ⟨rfl, rfl⟩ ⟨_, rfl, rfl⟩ ⟨_, rfl, rfl⟩ ⟨_, rfl, rfl⟩ ⟨_, rfl, rfl⟩

def stockedNode : Node :=
  .bare (.closure ["x"] (.symbol "x")
    (.bare (.environment 0 [] (some (.bare (.named (.packageEnv "stats")))))))

def stockedMessage : Message :=
  .encoded .closure stockedNode.toItem.write none

theorem wellSized_stocked : stockedMessage.WellSized := by
  apply wellSized_of_sized rfl
  intro node same
  apply Pack.Item.fits_of_short
  rw [same]
  decide +kernel

/-- The second context stops at the package that it has not attached. -/
theorem hinges_stocked : ∃ sent,
    ofValue { sampleSender with environments := stocked.1 } stocked.2 ⟨12⟩ =
        (.ok stockedMessage, sent) ∧
      stockedMessage.kinds = [.packageEnv "stats"] ∧
      (toValue sampleReceiver sent stockedMessage).1 =
        .error (.passByReference (.packageEnv "stats")) ∧
      Hinges sampleReceiver.environments stockedMessage
        (toValue sampleReceiver sent stockedMessage).1 := by
  let sender : Context := { sampleSender with environments := stocked.1 }
  have senders : sender.environments.Sound stocked.2 := sound_stockedSender
  have prepared : ofValue sender stocked.2 ⟨12⟩ = (.ok stockedMessage, _) := rfl
  refine ⟨_, prepared, by decide +kernel, by decide +kernel, ?_⟩
  exact hinges_transfer ⟨sound_stocked, rfl, rfl⟩ (by decide) senders sound_stockedReceiver
    ⟨rfl, rfl⟩ prepared wellSized_stocked

end Message

end ValueChannels
