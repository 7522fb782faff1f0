import ValueChannels.Proofs.Transfer.Building

/-!
What a sent value and the received one have to do with each other. The message describes the one
and the other is built from it, so that their parts belong together in the same order; the local
environments belong together by their numbers. Main statements: `Ledger.kept`, that the numbers
stay in step through every message, and `Linked.mirrors`, what values that belong together consist
of.
-/

namespace ValueChannels.Message

variable {sending : Sending} {context : Context} {heap : Heap} {table : List (UInt32 × Ref)}

theorem known_threads {messages : List Message} {refs : List Ref} {first last : Progress}
    (threads : Threads (Built context sending.final heap) first messages refs last)
    (each : ∀ message ∈ messages, ∀ start ref stop,
      Built context sending.final heap start message ref stop → start.known <:+ stop.known) :
    first.known <:+ last.known := by
  induction threads with
  | nil => exact List.suffix_rfl
  | cons head tail ih =>
      have next := each _ List.mem_cons_self _ _ _ head
      exact next.trans (ih fun message member => each message (List.mem_cons_of_mem _ member))

theorem Built.known {message : Message} {first last : Progress} {ref : Ref}
    (built : Built context sending.final heap first message ref last) :
    first.known <:+ last.known := by
  induction message using Message.induct generalizing first ref last with
  | step message ofParts =>
      cases built with
      | plain => exact List.suffix_rfl
      | list body elements furnished installed =>
          have filled := known_threads elements fun part member _ _ _ =>
            ofParts part (List.mem_append_left _ member)
          exact filled.trans (known_threads furnished fun part member _ _ _ =>
            ofParts part (List.mem_append_right _ member))
      | environment new body defined around furnished installed =>
          have bound := known_threads defined fun part member _ _ _ =>
            ofParts part (List.mem_append_left _ member)
          have enclosed := known_threads around fun part member _ _ _ =>
            ofParts part (List.mem_append_right _ (List.mem_append_left _ member))
          have held := known_threads furnished fun part member _ _ _ =>
            ofParts part (List.mem_append_right _ (List.mem_append_right _ member))
          exact (((List.suffix_cons _ first.known).trans bound).trans enclosed).trans held
      | reference => exact List.suffix_rfl
      | promise new object rebuilt around content =>
          have enclosed := known_threads around fun part member _ _ _ =>
            ofParts part (List.mem_append_left _ member)
          have held := known_threads content fun part member _ _ _ =>
            ofParts part (List.mem_append_right _ member)
          exact enclosed.trans held
      | encoded read place kept others furnished installed =>
          have held := known_threads furnished fun part member _ _ _ => ofParts part member
          exact held
      | attributed bare body furnished installed =>
          have first := ofParts _ List.mem_cons_self bare
          exact first.trans (known_threads furnished fun part member _ _ _ =>
            ofParts part (List.mem_cons_of_mem _ member))

theorem Threads.known {messages : List Message} {refs : List Ref} {first last : Progress}
    (threads : Threads (Built context sending.final heap) first messages refs last) :
    first.known <:+ last.known :=
  known_threads threads fun _ _ _ _ _ => Built.known

/-- A received value belongs to a sent one: it is built from the message that describes the other,
and the environments known by then belong together in the same way. -/
inductive Linked (sending : Sending) (context : Context) (heap : Heap)
    (table : List (UInt32 × Ref)) : Ref → Ref → Prop where
  | intro {start stop : Stage} {first last : Progress} {message : Message} {sent received : Ref}
      (above : sending.origin.size ≤ start.size) (room : sending.final.size ≤ first.size)
      (ids : first.known.map Prod.fst = ((List.range start.known).map UInt32.ofNat).reverse)
      (met : ∀ index < start.known, ∃ env, sending.known[index]? = some env)
      (houses : ∀ (index : Nat) entry env, first.known.reverse[index]? = some entry →
        sending.known[index]? = some env → Linked sending context heap table env entry.2)
      (describes : sending.Describes start message sent stop)
      (built : Built context sending.final heap first message received last)
      (kept : last.known <:+ table) :
      Linked sending context heap table sent received

/-- The attributes of a received value belong to those of the sent one. -/
def Furnished (sending : Sending) (context : Context) (heap : Heap) (table : List (UInt32 × Ref))
    (sent received : Ref) : Prop :=
  ∃ values, List.Forall₂ (Linked sending context heap table)
      ((attributeEntries (sending.origin.attributes sent)).map Prod.snd) values ∧
    heap.attributes received = Attributes.normalize
      ((sending.origin.attributes sent).map fun mapping =>
        Attributes.ofList (mapping.names.zip values))

/-- What a sent value and the received one consist of, and which of their parts belong together. -/
inductive Mirrors (sending : Sending) (context : Context) (heap : Heap)
    (table : List (UInt32 × Ref)) : Ref → Ref → Prop where
  | same {ref : Ref} (inside : ref.index < sending.origin.size) (deep : sending.final.Deep ref) :
      Mirrors sending context heap table ref ref
  | list {sent received : Ref} {refs elements : List Ref}
      (body : sending.origin.body sent = .list refs)
      (new : sending.origin.size ≤ received.index) (copied : heap.body received = .list elements)
      (parts : List.Forall₂ (Linked sending context heap table) refs elements)
      (furnished : Furnished sending context heap table sent received) :
      Mirrors sending context heap table sent received
  | environment {sent received : Ref} {frame : Frame} {contents : List Ref}
      {enclosing : Option Ref} {index : Nat}
      (body : sending.origin.body sent = .environment frame)
      (isLocal : frame.kind.isLocal = true)
      (met : sending.known[index]? = some sent)
      (housed : table.reverse[index]? = some (UInt32.ofNat index, received))
      (new : sending.final.size ≤ received.index)
      (copied : heap.body received = .environment
        { kind := .localEnv, bindings := ⟨frame.bindings.names.zip contents⟩
          parent := some (enclosing.getD context.environments.empty) })
      (bound : List.Forall₂ (Linked sending context heap table)
        (frame.bindings.entries.map Prod.snd) contents)
      (around : List.Forall₂ (Linked sending context heap table) frame.parent.toList
        enclosing.toList)
      (furnished : Furnished sending context heap table sent received) :
      Mirrors sending context heap table sent received
  | promise {sent received : Ref} {delayed copy : Promise} {expr : Bytes}
      (body : sending.origin.body sent = .promise delayed)
      (new : sending.final.size ≤ received.index)
      (copied : heap.get received = Object.fresh (.promise copy))
      (written : sending.context.codec.serializeExpr delayed.expr = .ok expr)
      (rebuilt : rebuildExpr context.codec expr = .ok copy.expr)
      (value : List.Forall₂ (Linked sending context heap table) delayed.value.toList
        copy.value.toList)
      (around : List.Forall₂ (Linked sending context heap table)
        (if delayed.value.isSome then []
          else [delayed.env.getD sending.context.environments.global]) copy.env.toList) :
      Mirrors sending context heap table sent received
  | encoded {sent received bare : Ref} {detached before after : Heap} {blob : Bytes}
      {values : List Ref}
      (isEncoded : (sending.origin.body sent).isEncoded = true)
      (taken : sending.origin.Detached sent detached bare)
      (written : sending.context.codec.serialize detached bare = .ok blob)
      (room : sending.final.size ≤ before.size)
      (read : context.codec.unserialize context.environments blob before = .ok received after)
      (place : Placed context before after (sending.origin.kind sent) received)
      (bodies : ∀ other, before.size ≤ other.index → other.index < after.size →
        heap.body other = after.body other)
      (others : ∀ other, before.size ≤ other.index → other.index < after.size →
        (other ≠ received ∨ sending.origin.attributes sent = none ∨
          ¬acceptsAttributes after received = true) →
            heap.attributes other = after.attributes other)
      (parts : List.Forall₂ (Linked sending context heap table)
        ((attributeEntries (sending.origin.attributes sent)).map Prod.snd) values)
      (furnished : sending.origin.attributes sent ≠ none → acceptsAttributes after received = true →
        Furnished sending context heap table sent received) :
      Mirrors sending context heap table sent received
  | attributed {sent received : Ref} {data : AtomicVector}
      (body : sending.origin.body sent = .vector data)
      (new : sending.origin.size ≤ received.index) (copied : heap.body received = .vector data)
      (furnished : Furnished sending context heap table sent received) :
      Mirrors sending context heap table sent received

theorem furnished {attributes : Option (List (String × Message))} {sent received : Ref}
    {values : List Ref} (present : attributes.isSome = (sending.origin.attributes sent).isSome)
    (names : (attributes.getD []).map Prod.fst =
      (attributeEntries (sending.origin.attributes sent)).map Prod.fst)
    (parts : List.Forall₂ (Linked sending context heap table)
      ((attributeEntries (sending.origin.attributes sent)).map Prod.snd) values)
    (installed : Installed heap received attributes values) :
    Furnished sending context heap table sent received := by
  refine ⟨values, parts, installed.trans ?_⟩
  cases has : sending.origin.attributes sent with
  | none =>
      rw [has] at present
      cases attributes with
      | none => rfl
      | some _ => cases present
  | some mapping =>
      rw [has] at present names
      cases attributes with
      | none => cases present
      | some entries =>
          have same : entries.map Prod.fst = mapping.names := names
          rw [Option.map_some, Option.map_some, same]

/-- The environments that the sender has met and those that the receiver has built are in step. -/
structure Ledger (sending : Sending) (context : Context) (heap : Heap)
    (table : List (UInt32 × Ref)) (stage : Stage) (progress : Progress) : Prop where
  above : sending.origin.size ≤ stage.size
  room : sending.final.size ≤ progress.size
  ids : progress.known.map Prod.fst = ((List.range stage.known).map UInt32.ofNat).reverse
  met : ∀ index < stage.known, ∃ env, sending.known[index]? = some env
  houses : ∀ (index : Nat) entry env, progress.known.reverse[index]? = some entry →
    sending.known[index]? = some env → Linked sending context heap table env entry.2

namespace Ledger

variable {start middle stop : Stage} {first second last : Progress} {message : Message}
  {sent received : Ref}

theorem linked (ledger : Ledger sending context heap table start first)
    (describes : sending.Describes start message sent stop)
    (built : Built context sending.final heap first message received last)
    (kept : last.known <:+ table) : Linked sending context heap table sent received :=
  .intro ledger.above ledger.room ledger.ids ledger.met ledger.houses describes built kept

theorem length (ledger : Ledger sending context heap table start first) :
    first.known.length = start.known := by
  have lengths := congrArg List.length ledger.ids
  simpa using lengths

/-- A message keeps the ledger, and what is built from it mirrors the value that it describes. A
reference to an environment is no more than a number. -/
def Kept (sending : Sending) (context : Context) (heap : Heap) (table : List (UInt32 × Ref))
    (message : Message) : Prop :=
  ∀ start stop first last sent received, Ledger sending context heap table start first →
    sending.Describes start message sent stop →
      Built context sending.final heap first message received last → last.known <:+ table →
        Ledger sending context heap table stop last ∧
          ((∃ id, message = .environmentRef id) ∨ Mirrors sending context heap table sent received)

theorem threads {messages : List Message} {sents receiveds : List Ref}
    (each : ∀ message ∈ messages, Kept sending context heap table message)
    (ledger : Ledger sending context heap table start first)
    (describes : Threads sending.Describes start messages sents stop)
    (built : Threads (Built context sending.final heap) first messages receiveds last)
    (kept : last.known <:+ table) :
    List.Forall₂ (Linked sending context heap table) sents receiveds ∧
      Ledger sending context heap table stop last := by
  induction describes generalizing first receiveds with
  | nil state =>
      cases built
      exact ⟨.nil, ledger⟩
  | cons head tail ih =>
      cases built with
      | cons head' tail' =>
          have here := (Threads.known tail').trans kept
          have next := (each _ List.mem_cons_self _ _ _ _ _ _ ledger head head' here).1
          have others := ih (fun message member => each message (List.mem_cons_of_mem _ member))
            next tail'
          exact ⟨.cons (ledger.linked head head' here) others.1, others.2⟩

theorem enter (ledger : Ledger sending context heap table start first) {env env' : Ref}
    (met : sending.known[start.known]? = some env) (linked : Linked sending context heap table env env') :
    Ledger sending context heap table { start with known := start.known + 1 }
      (first.enter (UInt32.ofNat start.known) env') := by
  constructor
  · exact ledger.above
  · exact Nat.le_succ_of_le ledger.room
  · simp [Progress.enter, ledger.ids, List.range_succ]
  · intro index earlier
    rcases Nat.lt_succ_iff_lt_or_eq.mp earlier with before | here
    · exact ledger.met index before
    · rw [here]
      exact ⟨env, met⟩
  · intro index entry env'' place found
    have length := ledger.length
    rw [Progress.enter, List.reverse_cons] at place
    by_cases old : index < start.known
    · rw [List.getElem?_append_left (by rw [List.length_reverse]; omega)] at place
      exact ledger.houses index entry env'' place found
    · by_cases here : index = start.known
      · rw [List.getElem?_append_right (by rw [List.length_reverse]; omega), here] at place
        rw [here, met] at found
        rw [List.length_reverse, length, Nat.sub_self] at place
        cases place
        cases found
        exact linked
      · rw [List.getElem?_append_right (by rw [List.length_reverse]; omega)] at place
        rw [List.length_reverse, length, List.getElem?_singleton, if_neg (by omega)] at place
        cases place

theorem move (ledger : Ledger sending context heap table start first) (known : stop.known = start.known)
    (size : start.size ≤ stop.size) (same : last.known = first.known)
    (room : first.size ≤ last.size) : Ledger sending context heap table stop last := by
  constructor
  · exact Nat.le_trans ledger.above size
  · exact Nat.le_trans ledger.room room
  · rw [same, known]
    exact ledger.ids
  · rw [known]
    exact ledger.met
  · rw [same]
    exact ledger.houses

theorem copied (ledger : Ledger sending context heap table start first) {ref copy : Ref}
    (copies : sending.Copies start ref copy stop) : Ledger sending context heap table stop first := by
  rcases copies with ⟨_, _, same⟩ | ⟨above, below, known, _⟩
  · rw [same]
    exact ledger
  · exact ledger.move known (by omega) rfl (Nat.le_refl _)

theorem housed (ledger : Ledger sending context heap table start first) {id : UInt32} {env : Ref}
    (kept : (first.enter id env).known <:+ table) :
    table.reverse[start.known]? = some (id, env) := by
  have earlier := List.reverse_prefix.mpr kept
  have here : (first.enter id env).known.reverse[start.known]? = some (id, env) := by
    rw [Progress.enter, List.reverse_cons, ← ledger.length, ← List.length_reverse]
    exact List.getElem?_concat_length
  obtain ⟨later, whole⟩ := earlier
  rw [← whole, List.getElem?_append_left (List.getElem?_eq_some_iff.mp here).1]
  exact here

theorem kept_list {shell : Ref} {items : List Message}
    {attributes : Option (List (String × Message))}
    (ofParts : ∀ part ∈ (Message.list shell items attributes).parts,
      Kept sending context heap table part) :
    Kept sending context heap table (.list shell items attributes) := by
  intro start stop first last sent received ledger describes built kept
  cases describes with
  | list body elements present names values copy =>
      cases built with
      | list body' elements' furnished' installed =>
          have items := ledger.threads (fun part member =>
            ofParts part (List.mem_append_left _ member)) elements elements'
            ((Threads.known furnished').trans kept)
          have attributes := items.2.threads (fun part member =>
            ofParts part (List.mem_append_right _ member)) values furnished' kept
          refine ⟨attributes.2.copied copy, Or.inr ?_⟩
          refine .list body ?_ body' items.1 (furnished present names attributes.1 installed)
          rcases copy with ⟨itself, _⟩ | ⟨above, _⟩
          · rw [body] at itself
            cases itself
          · exact Nat.le_trans attributes.2.above above

theorem kept_environment {id : UInt32} {bindings : List (String × Message)}
    {parent : Option Message} {attributes : Option (List (String × Message))}
    (ofParts : ∀ part ∈ (Message.environment id bindings parent attributes).parts,
      Kept sending context heap table part) :
    Kept sending context heap table (.environment id bindings parent attributes) := by
  intro start stop first last sent received ledger describes built kept
  have linked := ledger.linked describes built kept
  cases describes with
  | environment body isLocal met bindingNames bindingValues enclosing present names values =>
      cases built with
      | environment new body' defined around furnished' installed =>
          have within := (Threads.known furnished').trans kept
          have inside := (Threads.known around).trans within
          -- It is entered before its parts are built, so that they may refer back to it.
          have bound := (ledger.enter met linked).threads (fun part member =>
            ofParts part (List.mem_append_left _ member)) bindingValues defined inside
          have enclosed := bound.2.threads (fun part member =>
            ofParts part (List.mem_append_right _ (List.mem_append_left _ member)))
            enclosing around within
          have attributes := enclosed.2.threads (fun part member =>
            ofParts part (List.mem_append_right _ (List.mem_append_right _ member)))
            values furnished' kept
          refine ⟨attributes.2, Or.inr ?_⟩
          rw [bindingNames] at body'
          refine .environment body isLocal met (ledger.housed ((Threads.known defined).trans inside))
            ?_ body' bound.1 enclosed.1 (furnished present names attributes.1 installed)
          rw [new]
          exact ledger.room

theorem kept_promise {env value : Option Message} {expr : Bytes}
    (ofParts : ∀ part ∈ (Message.promise env value expr).parts,
      Kept sending context heap table part) :
    Kept sending context heap table (.promise env value expr) := by
  intro start stop first last sent received ledger describes built kept
  cases built with
  | promise new object rebuilt around content =>
      have within : _ <:+ table := (Threads.known content).trans kept
      cases describes with
      | evaluated body written has content' =>
          have single := Threads.cons content' (.nil stop)
          have nothing := around.of_nil
          rw [nothing.2] at content
          have held := ledger.threads (fun part member => ofParts part member) single content kept
          refine ⟨held.2.move rfl (Nat.le_refl _) rfl (Nat.le_succ _), Or.inr ?_⟩
          refine .promise body ?_ object written rebuilt ?_ ?_
          · rw [new]
            exact held.2.room
          · rw [has]
            exact held.1
          · rw [has, nothing.1]
            exact .nil
      | delayed body written has content' =>
          have single := Threads.cons content' (.nil stop)
          have nothing := content.of_nil
          rw [← nothing.2] at around
          have held := ledger.threads (fun part member =>
            ofParts part (List.mem_append_left _ member)) single around kept
          refine ⟨held.2.move rfl (Nat.le_refl _) rfl (Nat.le_succ _), Or.inr ?_⟩
          refine .promise body ?_ object written rebuilt ?_ ?_
          · rw [new]
            exact held.2.room
          · rw [has, nothing.1]
            exact .nil
          · rw [has]
            exact held.1

theorem kept_encoded {kind : ValueKind} {blob : Bytes}
    {attributes : Option (List (String × Message))} (meets : Meets sending context)
    (ofParts : ∀ part ∈ (Message.encoded kind blob attributes).parts,
      Kept sending context heap table part) :
    Kept sending context heap table (.encoded kind blob attributes) := by
  intro start stop first last sent received ledger describes built kept
  cases describes with
  | encoded isEncoded detached written copies present names values =>
      cases built with
      | encoded read place bodies others furnished' installed =>
          rename_i known _ after _
          have extended := (Ends.ok (meets.codec.reads _ _ _) read).1
          have moved : Ledger sending context heap table _ { size := after.size, known } :=
            ledger.move copies.2 copies.1 rfl extended.size
          have held := moved.threads (fun part member => ofParts part member) values furnished' kept
          have absent : sending.origin.attributes sent = none ↔ attributes = none := by
            rw [← Option.isNone_iff_eq_none, ← Option.isNone_iff_eq_none, ← Option.not_isSome,
              ← Option.not_isSome, present]
          refine ⟨held.2, Or.inr ?_⟩
          refine .encoded isEncoded detached written ledger.room read place bodies ?_ held.1 ?_
          · intro other new inside cause
            exact others other new inside (cause.imp_right (Or.imp_left absent.mp))
          · intro something accepts
            exact furnished present names held.1
              (installed (fun none => something (absent.mpr none)) accepts)

theorem kept_attributed {base : Message} {attributes : List (String × Message)}
    (meets : Meets sending context)
    (ofParts : ∀ part ∈ (Message.attributed base attributes).parts,
      Kept sending context heap table part) :
    Kept sending context heap table (.attributed base attributes) := by
  intro start stop first last sent received ledger describes built kept
  cases describes with
  | attributed isPlain has names values copy =>
      rename_i mapping
      cases built with
      | attributed bare body furnished' installed =>
          rename_i contents
          cases bare
          have held := ledger.threads (fun part member =>
            ofParts part (List.mem_cons_of_mem _ member)) values furnished' kept
          refine ⟨held.2.copied copy, Or.inr ?_⟩
          obtain ⟨data, vector⟩ := meets.vector isPlain has
          rcases copy with ⟨itself, _⟩ | ⟨above, _, _, fresh⟩
          · rw [vector] at itself
            cases itself
          · have parts : List.Forall₂ (Linked sending context heap table)
                ((attributeEntries (sending.origin.attributes sent)).map Prod.snd) contents := by
              rw [has]
              exact held.1
            have present : (some attributes).isSome = (sending.origin.attributes sent).isSome := by
              rw [has]
              rfl
            have names' : ((some attributes).getD []).map Prod.fst =
                (attributeEntries (sending.origin.attributes sent)).map Prod.fst := by
              rw [has]
              exact names
            have copied := (body.trans (congrArg Object.body fresh)).trans vector
            exact .attributed vector (Nat.le_trans held.2.above above) copied
              (furnished present names' parts installed)

theorem kept (meets : Meets sending context) (message : Message) :
    Kept sending context heap table message := by
  induction message using Message.induct with
  | step message ofParts =>
      cases message with
      | plain value =>
          intro start stop first last sent received ledger describes built _
          cases describes with
          | plain _ inside deep =>
              cases built
              exact ⟨ledger, Or.inr (.same inside deep)⟩
      | list shell items attributes => exact kept_list ofParts
      | environment id bindings parent attributes => exact kept_environment ofParts
      | environmentRef id =>
          intro start stop first last sent received ledger describes built _
          cases describes
          cases built
          exact ⟨ledger, Or.inl ⟨_, rfl⟩⟩
      | promise env value expr => exact kept_promise ofParts
      | encoded kind blob attributes => exact kept_encoded meets ofParts
      | attributed base attributes => exact kept_attributed meets ofParts

end Ledger

/-- Every received value mirrors a sent one, the one that it belongs to as long as the numbers tell
all environments apart. -/
theorem Linked.mirrors (meets : Meets sending context) {sent received : Ref}
    (linked : Linked sending context heap table sent received) :
    ∃ source, Mirrors sending context heap table source received ∧
      (sending.known.length ≤ UInt32.size → source = sent) := by
  induction linked with
  | intro above room ids met houses describes built kept ofHouses =>
      have ledger : Ledger sending context heap table _ _ := ⟨above, room, ids, met, houses⟩
      rcases (ledger.kept meets _ _ _ _ _ _ _ describes built kept).2 with ⟨id, same⟩ | mirrors
      · subst same
        cases describes with
        | reference isLocal met' earlier =>
            cases built with
            | reference found =>
                rename_i sent received start first index
                obtain ⟨index', inside, same, place⟩ := Rebuilding.Keyed.of_lookup ids found
                obtain ⟨env, met''⟩ := met index' inside
                obtain ⟨source, mirrors, only⟩ := ofHouses index' _ env place met''
                refine ⟨source, mirrors, fun few => (only few).trans ?_⟩
                have bound := (List.getElem?_eq_some_iff.mp met').1
                have bound' := (List.getElem?_eq_some_iff.mp met'').1
                -- A number says which environment is meant, as long as none is given out twice.
                have index_eq : index' = index := number_inj (by omega) (by omega) same
                rw [index_eq, met'] at met''
                exact Option.some.inj met''.symm
      · exact ⟨_, mirrors, fun _ => rfl⟩

/-- The value of a whole message belongs to the value that was sent. -/
theorem Received.linked {message : Message} {ref result : Ref}
    (received : Received context sending message result heap table)
    (whole : sending.Whole message ref) : Linked sending context heap table ref result := by
  have ledger : Ledger sending context heap table
      { known := 0, size := sending.origin.size } { size := sending.final.size, known := [] } := by
    constructor
    · exact Nat.le_refl _
    · exact Nat.le_refl _
    · rfl
    · intro index impossible
      cases impossible
    · intro index entry env place
      cases place
  exact ledger.linked whole received.built List.suffix_rfl

end ValueChannels.Message
