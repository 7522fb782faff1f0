import ValueChannels.Proofs.Heap.Cycles
import ValueChannels.Proofs.Heap.Soundness
import ValueChannels.Proofs.Transfer.Description

/-!
The conversion of a value into a message. It leaves all objects as they are but for marks, keeps
its copies to itself, and ends with a message that describes the value. Main statements:
`converts_within`, for every depth; `sent_ofValue` for whole values.
-/

namespace ValueChannels.Message

/-- The stage of a conversion in this state. -/
def ConvertState.stage (state : ConvertState) : Stage :=
  { known := state.environments.length, size := state.heap.size }

/-- A state of the conversion of a value of the given heap: its objects are there, with more marks
at the most, and no local environment has been met twice. -/
structure Ready (origin : Heap) (state : ConvertState) : Prop where
  marked : Heap.Marked origin.size origin state.heap
  distinct : state.environments.Nodup
  locals : ∀ env ∈ state.environments, (origin.body env).isLocal = true

/-- One state of a conversion comes from another one. -/
structure Continues (origin : Heap) (before after : ConvertState) : Prop where
  ready : Ready origin after
  marked : Heap.Marked origin.size before.heap after.heap
  known : before.environments <+: after.environments

/-- Whatever the conversion goes on to do, the messages describe the values. -/
def DescribedBy (context : Context) (origin : Heap) (after : ConvertState)
    (describes : Sending → Prop) : Prop :=
  ∀ final known, Heap.Marked origin.size after.heap final → after.environments <+: known →
    describes { context, origin, final, known }

/-- How a conversion that failed left the heap. -/
def Spoiled (origin : Heap) (_ : ChannelError) (after : ConvertState) : Prop :=
  Heap.Marked origin.size origin after.heap

/-- The result of a conversion that a state has come to. -/
def Result (context : Context) (origin : Heap) (before : ConvertState) (ref : Ref)
    (message : Message) (after : ConvertState) : Prop :=
  Continues origin before after ∧
    DescribedBy context origin after fun sending =>
      sending.Describes before.stage message ref after.stage

/-- A function converts the values that are admitted: what it ends with describes the value, and it
fails in certain ways only. -/
def Converts (context : Context) (origin : Heap) (admits : ConvertState → Ref → Prop)
    (failed : ChannelError → ConvertState → Prop) (convert : Ref → Converting Message) : Prop :=
  ∀ before ref, Ready origin before → admits before ref →
    Ends (convert ref) before (Result context origin before ref) failed

/-- These values are admitted from a state on. -/
def Admits (origin : Heap) (admits : ConvertState → Ref → Prop) (before : ConvertState)
    (refs : List Ref) : Prop :=
  ∀ after, Continues origin before after → ∀ ref ∈ refs, admits after ref

variable {context : Context} {origin : Heap} {before middle after : ConvertState}
  {admits : ConvertState → Ref → Prop} {failed : ChannelError → ConvertState → Prop}

theorem Continues.refl (ready : Ready origin before) : Continues origin before before :=
  ⟨ready, .refl _ _, List.prefix_refl _⟩

theorem Continues.trans (first : Continues origin before middle)
    (second : Continues origin middle after) : Continues origin before after :=
  ⟨second.ready, first.marked.trans second.marked, first.known.trans second.known⟩

theorem DescribedBy.later {describes : Sending → Prop}
    (described : DescribedBy context origin middle describes)
    (continues : Continues origin middle after) : DescribedBy context origin after describes := by
  intro final known marked isPrefix
  exact described final known (continues.marked.trans marked) (continues.known.trans isPrefix)

theorem Admits.later {refs : List Ref} (admitted : Admits origin admits before refs)
    (continues : Continues origin before after) : Admits origin admits after refs :=
  fun last more => admitted last (continues.trans more)

theorem Admits.mono {refs others : List Ref} (admitted : Admits origin admits before refs)
    (fewer : ∀ ref ∈ others, ref ∈ refs) : Admits origin admits before others :=
  fun last continues ref member => admitted last continues ref (fewer ref member)

theorem Ready.withHeap (ready : Ready origin before) {heap : Heap}
    (marked : Heap.Marked origin.size before.heap heap) :
    Continues origin before { before with heap } :=
  ⟨⟨ready.marked.trans marked, ready.distinct, ready.locals⟩, marked, List.prefix_refl _⟩

theorem ends_heap {done : Heap → ConvertState → Prop} (holds : done before.heap before) :
    Ends Converting.heap before done failed :=
  Ends.map (Ends.get holds)

theorem ends_onHeap {α : Type} {step : Heap → α × Heap} {done : α → ConvertState → Prop}
    (holds : done (step before.heap).1 { before with heap := (step before.heap).2 }) :
    Ends (Converting.onHeap step) before done failed :=
  Ends.modifyGet holds

/-! ### Lists of values -/

section Lists

variable {convert : Ref → Converting Message}

theorem ends_convertAll (converts : Converts context origin admits failed convert)
    (refs : List Ref) (before : ConvertState) (ready : Ready origin before)
    (admitted : Admits origin admits before refs) :
    Ends (convertAll convert refs) before
      (fun messages after => Continues origin before after ∧
        DescribedBy context origin after fun sending =>
          Threads sending.Describes before.stage messages refs after.stage)
      failed := by
  induction refs generalizing before with
  | nil =>
      refine Ends.pure ⟨.refl ready, ?_⟩
      intro final known _ _
      exact .nil _
  | cons ref rest ih =>
      have here := admitted before (.refl ready) ref List.mem_cons_self
      refine Ends.bind ((converts before ref ready here).mono ?_ fun _ _ spoiled => spoiled)
      rintro message middle ⟨first, head⟩
      have others : Admits origin admits middle rest :=
        (admitted.later first).mono fun ref member => List.mem_cons_of_mem _ member
      refine Ends.bind ((ih middle first.ready others).mono ?_ fun _ _ spoiled => spoiled)
      rintro messages after ⟨second, tail⟩
      refine Ends.pure ⟨first.trans second, ?_⟩
      intro final known marked isPrefix
      exact .cons (head.later second final known marked isPrefix) (tail final known marked isPrefix)

theorem ends_convertEntries (converts : Converts context origin admits failed convert)
    (entries : List (String × Ref)) (before : ConvertState) (ready : Ready origin before)
    (admitted : Admits origin admits before (entries.map Prod.snd)) :
    Ends (convertEntries convert entries) before
      (fun messages after => Continues origin before after ∧
        messages.map Prod.fst = entries.map Prod.fst ∧
        DescribedBy context origin after fun sending =>
          Threads sending.Describes before.stage (messages.map Prod.snd) (entries.map Prod.snd)
            after.stage)
      failed := by
  induction entries generalizing before with
  | nil =>
      refine Ends.pure ⟨.refl ready, rfl, ?_⟩
      intro final known _ _
      exact .nil _
  | cons entry rest ih =>
      obtain ⟨name, ref⟩ := entry
      have here := admitted before (.refl ready) ref List.mem_cons_self
      refine Ends.bind ((converts before ref ready here).mono ?_ fun _ _ spoiled => spoiled)
      rintro message middle ⟨first, head⟩
      have others : Admits origin admits middle (rest.map Prod.snd) :=
        (admitted.later first).mono fun ref member => List.mem_cons_of_mem _ member
      refine Ends.bind ((ih middle first.ready others).mono ?_ fun _ _ spoiled => spoiled)
      rintro messages after ⟨second, names, tail⟩
      refine Ends.pure ⟨first.trans second, ?_, ?_⟩
      · simp only [List.map_cons, names]
      · intro final known marked isPrefix
        exact .cons (head.later second final known marked isPrefix)
          (tail final known marked isPrefix)

theorem ends_convertAttributes (converts : Converts context origin admits failed convert)
    (attributes : Option Attributes) (before : ConvertState) (ready : Ready origin before)
    (admitted : Admits origin admits before ((attributeEntries attributes).map Prod.snd)) :
    Ends (convertAttributes convert attributes) before
      (fun messages after => Continues origin before after ∧
        messages.isSome = attributes.isSome ∧
        (messages.getD []).map Prod.fst = (attributeEntries attributes).map Prod.fst ∧
        DescribedBy context origin after fun sending =>
          Threads sending.Describes before.stage ((messages.getD []).map Prod.snd)
            ((attributeEntries attributes).map Prod.snd) after.stage)
      failed := by
  cases attributes with
  | none =>
      refine Ends.pure ⟨.refl ready, rfl, rfl, ?_⟩
      intro final known _ _
      exact .nil _
  | some mapping =>
      refine Ends.bind ((ends_convertEntries converts mapping.entries before ready
        admitted).mono ?_
        fun _ _ spoiled => spoiled)
      rintro messages after ⟨continues, names, described⟩
      exact Ends.pure ⟨continues, rfl, names, described⟩

theorem ends_convertOptional (converts : Converts context origin admits failed convert)
    (optional : Option Ref) (before : ConvertState) (ready : Ready origin before)
    (admitted : Admits origin admits before optional.toList) :
    Ends (convertOptional convert optional) before
      (fun message after => Continues origin before after ∧
        DescribedBy context origin after fun sending =>
          Threads sending.Describes before.stage message.toList optional.toList after.stage)
      failed := by
  cases optional with
  | none =>
      refine Ends.pure ⟨.refl ready, ?_⟩
      intro final known _ _
      exact .nil _
  | some ref =>
      have here := admitted before (.refl ready) ref List.mem_cons_self
      refine Ends.map ((converts before ref ready here).mono ?_ fun _ _ spoiled => spoiled)
      rintro message after ⟨continues, described⟩
      refine ⟨continues, ?_⟩
      intro final known marked isPrefix
      exact .cons (described final known marked isPrefix) (.nil _)

end Lists

/-! ### Values that are handed over -/

theorem isPlain_iff {message : Message} {ref : Ref} :
    isPlain message ref = true ↔ message = .plain ref := by
  cases message <;> simp [isPlain]

theorem allPlain_iff {messages : List Message} {refs : List Ref}
    (length : messages.length = refs.length) :
    allPlain messages refs = true ↔ messages = refs.map .plain := by
  induction messages generalizing refs with
  | nil =>
      cases refs with
      | nil => simp [allPlain]
      | cons => cases length
  | cons message rest ih =>
      cases refs with
      | nil => cases length
      | cons ref others =>
          have tail := ih (Nat.succ.inj length)
          simp only [allPlain] at tail
          simp only [allPlain, List.zipWith_cons_cons, List.all_cons, id_eq, Bool.and_eq_true,
            tail, isPlain_iff, List.map_cons, List.cons.injEq]

theorem threads_plain {sending : Sending} {start stop : Stage} {refs : List Ref}
    (threads : Threads sending.Describes start (refs.map .plain) refs stop) :
    stop = start ∧ ∀ ref ∈ refs, sending.final.Deep ref := by
  induction refs generalizing start with
  | nil =>
      cases threads
      exact ⟨rfl, fun _ member => nomatch member⟩
  | cons ref rest ih =>
      cases threads with
      | cons head tail =>
          cases head with
          | plain _ inside deep =>
              obtain ⟨same, others⟩ := ih tail
              refine ⟨same, ?_⟩
              intro other member
              rcases List.mem_cons.mp member with here | later
              · rw [here]
                exact deep
              · exact others other later

theorem deep_values {sending : Sending} {start stop : Stage}
    {messages : Option MessageAttributes} {attributes : Option Attributes}
    (present : messages.isSome = attributes.isSome)
    (threads : Threads sending.Describes start ((messages.getD []).map Prod.snd)
      ((attributeEntries attributes).map Prod.snd) stop)
    (plain : attributesPlain messages attributes = true) :
    stop = start ∧ ∀ ref ∈ (attributeEntries attributes).map Prod.snd, sending.final.Deep ref := by
  cases attributes with
  | none =>
      cases messages with
      | none =>
          cases threads
          exact ⟨rfl, fun _ member => nomatch member⟩
      | some => cases present
  | some mapping =>
      cases messages with
      | none => cases present
      | some entries =>
          have same := (allPlain_iff threads.length).mp plain
          rw [same] at threads
          exact threads_plain threads

section Values

variable {convert : Ref → Converting Message} {ref : Ref}

theorem body_ready (ready : Ready origin before) (inside : ref.index < origin.size) :
    before.heap.body ref = origin.body ref :=
  ready.marked.body ref inside

theorem attributes_ready (ready : Ready origin before) (inside : ref.index < origin.size) :
    before.heap.attributes ref = origin.attributes ref :=
  ready.marked.attributes ref inside

theorem Admits.attributes
    (admitted : Admits origin admits before (origin.conveyed context.environments.global ref)) :
    Admits origin admits before ((attributeEntries (origin.attributes ref)).map Prod.snd) :=
  admitted.mono fun _ member => Heap.conveyed_attributes member

theorem Admits.body
    (admitted : Admits origin admits before (origin.conveyed context.environments.global ref)) :
    Admits origin admits before
      (((origin.body ref).edges context.environments.global).map Prod.snd) :=
  admitted.mono fun _ member => Heap.conveyed_body member

/-- A marked object whose parts were all handed over is shared in depth from then on. -/
theorem deep_of_parts {final : Heap} (marked : Heap.Marked origin.size origin final)
    (inside : ref.index < origin.size) (shared : final.isShared ref = true)
    (data : (origin.body ref).isData = true)
    (parts : ∀ child ∈ (origin.body ref).children, final.Deep child)
    (attached : ∀ child ∈ (attributeEntries (origin.attributes ref)).map Prod.snd,
      final.Deep child) : final.Deep ref := by
  refine Heap.Deep.intro shared ?_ ?_
  · rw [marked.body ref inside]
    exact data
  · intro child member
    rw [marked.children inside] at member
    rcases List.mem_append.mp member with part | value
    · exact parts child part
    · exact attached child value

theorem shared_makeShared (ready : Ready origin before) (inside : ref.index < origin.size)
    (shareable : (origin.body ref).isShareable = true) {final : Heap}
    (marked : Heap.Marked origin.size (before.heap.makeShared ref).2 final) :
    final.isShared ref = true := by
  have known : ref.index < before.heap.size := Nat.lt_of_lt_of_le inside ready.marked.size
  have allowed : (before.heap.body ref).isShareable = true := by
    rw [body_ready ready inside]
    exact shareable
  refine marked.shared ref ?_ ?_
  · rw [Heap.size_makeShared]
    exact known
  · unfold Heap.isShared
    rw [Heap.get_makeShared_same _ known allowed]

theorem copies_bareCopy {sending : Sending} (same : sending.origin = origin)
    (ready : Ready origin before) (inside : ref.index < origin.size)
    (marked : Heap.Marked origin.size (before.heap.bareCopy ref).2 sending.final) :
    sending.Copies before.stage ref (before.heap.bareCopy ref).1
      ({ before with heap := (before.heap.bareCopy ref).2 } : ConvertState).stage := by
  subst same
  have body := body_ready ready inside
  rw [Sending.Copies, ← body]
  cases itself : (before.heap.body ref).copiesToItself with
  | true =>
      left
      rw [Heap.bareCopy_itself _ itself]
      exact ⟨rfl, rfl, rfl⟩
  | false =>
      right
      rw [Heap.bareCopy_alloc _ itself] at marked ⊢
      have new := before.heap.inside_alloc (before.heap.body ref)
      refine ⟨Nat.le_refl _, new, rfl, ?_⟩
      have kept : sending.final.get (before.heap.alloc (before.heap.body ref)).1 = _ :=
        marked.get_new ready.marked.size new
      rw [kept]
      exact before.heap.get_alloc_new (before.heap.body ref)

theorem ends_convertList (converts : Converts context origin admits failed convert)
    (ready : Ready origin before) (inside : ref.index < origin.size) {items : List Ref}
    (body : origin.body ref = .list items)
    (admitted : Admits origin admits before (origin.conveyed context.environments.global ref)) :
    Ends (convertList convert ref items) before (Result context origin before ref) failed := by
  have elements : Admits origin admits before items := by
    have parts := admitted.body
    rw [body, Heap.targets_list] at parts
    exact parts
  unfold convertList
  refine Ends.bind ((ends_convertAll converts items before ready elements).mono ?_
    fun _ _ spoiled => spoiled)
  rintro messages filled ⟨first, described⟩
  refine Ends.bind (ends_heap ?_)
  have attributes := attributes_ready first.ready inside
  simp only [attributes]
  refine Ends.bind ((ends_convertAttributes converts _ filled first.ready
    (admitted.attributes.later first)).mono ?_ fun _ _ spoiled => spoiled)
  rintro converted done ⟨second, present, names, values⟩
  have both := first.trans second
  split
  · rename_i plain
    obtain ⟨plainItems, plainValues⟩ := (Bool.and_eq_true _ _).mp plain
    refine Ends.bind (ends_onHeap (Ends.pure ?_))
    have marks : Heap.Marked origin.size done.heap (done.heap.makeShared ref).2 :=
      Heap.Marked.makeShared inside done.heap
    refine ⟨both.trans (both.ready.withHeap marks), ?_⟩
    intro final known marked isPrefix
    have earlier := marks.trans marked
    have ofItems := described.later second final known earlier isPrefix
    have ofValues := values final known earlier isPrefix
    -- Handing everything over leaves the stage where it was.
    have same : messages = items.map .plain := (allPlain_iff ofItems.length).mp plainItems
    rw [same] at ofItems
    obtain ⟨still, deepItems⟩ := threads_plain ofItems
    have deepValues := deep_values present ofValues plainValues
    have stage : ({ done with heap := (done.heap.makeShared ref).2 } : ConvertState).stage =
        before.stage := by
      rw [← still, ← deepValues.1]
      simp [ConvertState.stage]
    rw [stage]
    refine .plain _ inside (deep_of_parts (both.ready.marked.trans earlier) inside
      (shared_makeShared both.ready inside (by rw [body]; rfl) marked) (by rw [body]; rfl) ?_
      deepValues.2)
    rw [body]
    exact deepItems
  · refine Ends.bind (ends_onHeap (Ends.pure ?_))
    have copied := Heap.Marked.bareCopy origin.size done.heap ref
    refine ⟨both.trans (both.ready.withHeap copied), ?_⟩
    intro final known marked isPrefix
    exact .list body (described.later second final known (copied.trans marked) isPrefix) present
      names (values final known (copied.trans marked) isPrefix)
      (copies_bareCopy rfl both.ready inside marked)

theorem ends_convertPlain (converts : Converts context origin admits failed convert)
    (ready : Ready origin before) (inside : ref.index < origin.size)
    (isPlain : (origin.body ref).isPlain = true)
    (admitted : Admits origin admits before (origin.conveyed context.environments.global ref)) :
    Ends (convertPlain convert ref) before (Result context origin before ref) failed := by
  have shareable := Body.isShareable_of_isPlain isPlain
  have data := Body.isData_of_isPlain isPlain
  have parts := Body.children_of_isPlain isPlain
  unfold convertPlain
  refine Ends.bind (ends_onHeap ?_)
  have marks : Heap.Marked origin.size before.heap (before.heap.makeShared ref).2 :=
    Heap.Marked.makeShared inside before.heap
  have first := ready.withHeap marks
  refine Ends.bind (ends_heap ?_)
  have attributes := attributes_ready first.ready inside
  simp only at attributes
  simp only [attributes]
  refine Ends.bind ((ends_convertAttributes converts _ _ first.ready
    (admitted.attributes.later first)).mono ?_ fun _ _ spoiled => spoiled)
  rintro converted done ⟨second, present, names, values⟩
  have both := first.trans second
  have stage : ({ before with heap := (before.heap.makeShared ref).2 } : ConvertState).stage =
      before.stage := by
    simp [ConvertState.stage]
  rw [stage] at values
  have handed {final : Heap} {known : List Ref}
      (marked : Heap.Marked origin.size done.heap final)
      (still : done.stage = before.stage)
      (deep : ∀ value ∈ (attributeEntries (origin.attributes ref)).map Prod.snd,
        final.Deep value) :
      ({ context, origin, final, known } : Sending).Describes before.stage (.plain ref) ref
        done.stage := by
    rw [still]
    refine .plain _ inside (deep_of_parts (both.ready.marked.trans marked) inside
      (shared_makeShared ready inside shareable (second.marked.trans marked)) data ?_ deep)
    rw [parts]
    exact fun _ member => nomatch member
  -- The value is handed over whole unless one of its attributes had to be converted; then a copy
  -- without attributes goes in its place.
  cases converted with
  | none =>
      refine Ends.pure ⟨both, ?_⟩
      intro final known marked isPrefix
      have deep := deep_values present (values final known marked isPrefix) rfl
      exact handed marked deep.1 deep.2
  | some converted =>
      simp only
      split
      · rename_i plain
        refine Ends.pure ⟨both, ?_⟩
        intro final known marked isPrefix
        have deep := deep_values present (values final known marked isPrefix) plain
        exact handed marked deep.1 deep.2
      · refine Ends.bind (ends_onHeap (Ends.pure ?_))
        have copied := Heap.Marked.bareCopy origin.size done.heap ref
        refine ⟨both.trans (both.ready.withHeap copied), ?_⟩
        intro final known marked isPrefix
        cases has : origin.attributes ref with
        | none =>
            rw [has] at present
            cases present
        | some mapping =>
            have described := values final known (copied.trans marked) isPrefix
            rw [has] at names described
            exact .attributed isPlain has names described
              (copies_bareCopy rfl both.ready inside marked)

/-- The state in which a local environment has just been entered. -/
def enteredState (before : ConvertState) (ref : Ref) : ConvertState :=
  { before with environments := before.environments ++ [ref] }

theorem continues_enter (ready : Ready origin before) (new : ref ∉ before.environments)
    (isLocal : (origin.body ref).isLocal = true) :
    Continues origin before (enteredState before ref) := by
  refine ⟨⟨ready.marked, ?_, ?_⟩, .refl _ _, List.prefix_append _ _⟩
  · show (before.environments ++ [ref]).Nodup
    rw [List.nodup_append]
    refine ⟨ready.distinct, by simp, ?_⟩
    intro known member other single same
    rw [List.mem_singleton.mp single] at same
    exact new (same ▸ member)
  · intro env member
    rcases List.mem_append.mp member with known | single
    · exact ready.locals env known
    · rw [List.mem_singleton.mp single]
      exact isLocal

theorem ends_convertEnvironment (converts : Converts context origin admits failed convert)
    (ready : Ready origin before) (inside : ref.index < origin.size) {frame : Frame}
    (body : origin.body ref = .environment frame) (isLocal : frame.kind.isLocal = true)
    (admitted : ref ∉ before.environments →
      Admits origin admits (enteredState before ref)
        (origin.conveyed context.environments.global ref)) :
    Ends (convertEnvironment convert ref frame) before (Result context origin before ref)
      failed := by
  have localBody : (origin.body ref).isLocal = true := by
    rw [body]
    exact isLocal
  unfold convertEnvironment
  refine Ends.bind (Ends.get ?_)
  simp only
  -- An environment met before is only referred to, so the recursion enters each of them once.
  cases known : before.environments.idxOf? ref with
  | some index =>
      refine Ends.pure ⟨.refl ready, ?_⟩
      intro final all marked isPrefix
      obtain ⟨bound, found, _⟩ := List.idxOf?_eq_some_iff.mp known
      refine .reference localBody ?_ bound
      rw [List.prefix_iff_getElem?.mp isPrefix index bound, found]
  | none =>
      have new : ref ∉ before.environments := List.idxOf?_eq_none_iff.mp known
      have entered := continues_enter ready new localBody
      have parts := (admitted new).body
      rw [body, Heap.targets_environment _ isLocal] at parts
      have ofBindings := parts.mono fun ref member => List.mem_append_left _ member
      have ofParent := parts.mono fun ref member => List.mem_append_right _ member
      refine Ends.bind (Ends.modifyGet ?_)
      refine Ends.bind ((ends_convertEntries converts frame.bindings.entries _ entered.ready
        ofBindings).mono ?_ fun _ _ spoiled => spoiled)
      rintro bindings bound ⟨first, bindingNames, bindingValues⟩
      refine Ends.bind ((ends_convertOptional converts frame.parent bound first.ready
        (ofParent.later first)).mono ?_ fun _ _ spoiled => spoiled)
      rintro parent enclosed ⟨second, enclosing⟩
      refine Ends.bind (ends_heap ?_)
      have attributes := attributes_ready second.ready inside
      simp only [attributes]
      refine Ends.bind ((ends_convertAttributes converts _ enclosed second.ready
        ((admitted new).attributes.later (first.trans second))).mono ?_
        fun _ _ spoiled => spoiled)
      rintro converted done ⟨third, present, names, values⟩
      refine Ends.pure ⟨((entered.trans first).trans second).trans third, ?_⟩
      intro final all marked isPrefix
      have whole : before.environments ++ [ref] <+: all :=
        ((first.trans second).trans third).known.trans isPrefix
      have met : all[before.environments.length]? = some ref := by
        rw [List.prefix_iff_getElem?.mp whole before.environments.length (by simp)]
        simp
      have described := bindingValues.later (second.trans third) final all marked isPrefix
      have stage : (enteredState before ref).stage =
          { before.stage with known := before.stage.known + 1 } := by
        simp [enteredState, ConvertState.stage]
      rw [stage] at described
      exact .environment body isLocal met bindingNames described
        (enclosing.later third final all marked isPrefix) present names
        (values final all marked isPrefix)

theorem ends_convertPromise (converts : Converts context origin admits failed convert)
    (ready : Ready origin before) {delayed : Promise} (body : origin.body ref = .promise delayed)
    (admitted : Admits origin admits before (origin.conveyed context.environments.global ref))
    (refused : ∀ reason, context.codec.serializeExpr delayed.expr = .error reason →
      failed (.serialization .promise reason) before) :
    Ends (convertPromise context convert delayed) before (Result context origin before ref)
      failed := by
  have parts := admitted.body
  rw [body, Heap.targets_promise] at parts
  have here := parts before (.refl ready) _ List.mem_cons_self
  unfold convertPromise
  cases written : context.codec.serializeExpr delayed.expr with
  | error reason => exact Ends.throw (refused reason written)
  | ok expr =>
      simp only
      cases has : delayed.value with
      | some value =>
          rw [has] at here
          refine Ends.bind ((converts before value ready here).mono ?_ fun _ _ spoiled => spoiled)
          rintro message after ⟨continues, described⟩
          refine Ends.pure ⟨continues, ?_⟩
          intro final all marked isPrefix
          exact .evaluated body written has (described final all marked isPrefix)
      | none =>
          rw [has] at here
          refine Ends.bind ((converts before _ ready here).mono ?_ fun _ _ spoiled => spoiled)
          rintro message after ⟨continues, described⟩
          refine Ends.pure ⟨continues, ?_⟩
          intro final all marked isPrefix
          exact .delayed body written has (described final all marked isPrefix)

theorem reattached_ready (sound : origin.Sound) (ready : Ready origin before)
    (inside : ref.index < origin.size) :
    (before.heap.replaceAttributes ref none).replaceAttributes ref (before.heap.attributes ref) =
      before.heap := by
  apply before.heap.reattached
  rw [attributes_ready ready inside]
  exact sound.normal inside

/-- What encoding a value does to the heap: nothing to the objects that were there, whatever the
outcome; and the blob is that of the value without its attributes. -/
theorem blobOf_spec (sound : origin.Sound) (ready : Ready origin before)
    (inside : ref.index < origin.size) (isEncoded : (origin.body ref).isEncoded = true)
    (codec : Codec) :
    Heap.Marked origin.size before.heap (blobOf codec before.heap ref).2 ∧
      ∃ heap bare, origin.Detached ref heap bare ∧
        (blobOf codec before.heap ref).1 = codec.serialize heap bare := by
  have known : ref.index < before.heap.size := Nat.lt_of_lt_of_le inside ready.marked.size
  have body := body_ready ready inside
  -- A shared object is read from a bare copy; another one has its attributes taken off for the
  -- reading and put back.
  cases shared : before.heap.isShared ref with
  | true =>
      have shareable : (origin.body ref).isShareable = true := by
        rcases ready.marked.added ref inside shared with early | shareable
        · exact (sound.object ref inside).shared early
        · exact shareable
      have copied : (before.heap.body ref).copiesToItself = false := by
        rw [body]
        cases content : origin.body ref <;> rw [content] at isEncoded shareable <;>
          first | rfl | cases isEncoded | cases shareable
      simp only [blobOf, shared, if_true]
      refine ⟨Heap.Marked.bareCopy _ _ ref, _, _, ?_, rfl⟩
      rw [Heap.bareCopy_alloc _ copied]
      have made := before.heap.get_alloc_new (before.heap.body ref)
      have old {other : Ref} (there : other.index < origin.size) :=
        before.heap.get_alloc_old (before.heap.body ref)
          (Nat.lt_of_lt_of_le there ready.marked.size)
      refine ⟨?_, ?_, ?_, ?_, ?_, ?_⟩
      · have content := congrArg Object.body made
        rw [← body]
        exact content
      · have content := congrArg Object.attributes made
        exact content
      · exact Nat.le_trans ready.marked.size (before.heap.size_le_alloc _)
      · intro other there
        exact (congrArg Object.body (old there)).trans (ready.marked.body other there)
      · intro other there _
        exact (congrArg Object.attributes (old there)).trans (ready.marked.attributes other there)
      · exact Or.inr ⟨ready.marked.size, shareable⟩
  | false =>
      simp only [blobOf, shared, Bool.false_eq_true, if_false]
      rw [reattached_ready sound ready inside]
      refine ⟨.refl _ _, _, _, ?_, rfl⟩
      have detached := before.heap.get_replaceAttributes_same none known
      refine ⟨?_, ?_, ?_, ?_, ?_, Or.inl rfl⟩
      · rw [Heap.body_replaceAttributes, body]
      · exact congrArg Object.attributes detached
      · rw [Heap.size_replaceAttributes]
        exact ready.marked.size
      · intro other there
        rw [Heap.body_replaceAttributes]
        exact ready.marked.body other there
      · intro other there different
        have kept := before.heap.get_replaceAttributes_other none different
        exact (congrArg Object.attributes kept).trans (ready.marked.attributes other there)

theorem ends_convertEncoded (sound : origin.Sound)
    (converts : Converts context origin admits failed convert) (ready : Ready origin before)
    (inside : ref.index < origin.size) (isEncoded : (origin.body ref).isEncoded = true)
    (admitted : Admits origin admits before (origin.conveyed context.environments.global ref))
    (refused : ∀ reason err after, (blobOf context.codec before.heap ref).1 = .error reason →
      Spoiled origin err after → failed err after) :
    Ends (convertEncoded context convert ref) before (Result context origin before ref)
      failed := by
  have body := body_ready ready inside
  have attributes := attributes_ready ready inside
  obtain ⟨marks, heap, bare, detached, same⟩ :=
    blobOf_spec sound ready inside isEncoded context.codec
  unfold convertEncoded
  refine Ends.bind (ends_heap (Ends.bind (ends_onHeap ?_)))
  have first := ready.withHeap marks
  cases written : (blobOf context.codec before.heap ref).1 with
  | error reason =>
      split
      · exact Ends.throw (refused reason _ _ written first.ready.marked)
      · exact Ends.throw (refused reason _ _ written first.ready.marked)
      · rename_i impossible
        cases impossible
  | ok blob =>
      have wrote := same.symm.trans written
      simp only [attributes]
      refine Ends.bind ((ends_convertAttributes converts _ _ first.ready
        (admitted.attributes.later first)).mono ?_ fun _ _ spoiled => spoiled)
      rintro converted done ⟨second, present, names, values⟩
      refine Ends.pure ⟨first.trans second, ?_⟩
      intro final all marked isPrefix
      have kind : before.heap.kind ref = origin.kind ref := congrArg Body.kind body
      have described := values final all marked isPrefix
      rw [kind]
      refine .encoded isEncoded detached wrote ?_ present names described
      exact ⟨marks.size, rfl⟩

end Values

/-- What is needed of the values that are admitted at a depth so that the conversion fails in
certain ways only: what travels along with an admitted value is admitted one step deeper, once the
value has been entered if it is a local environment. -/
structure Admission (context : Context) (origin : Heap) (admits : Nat → ConvertState → Ref → Prop)
    (failed : ChannelError → ConvertState → Prop) : Prop where
  inside : ∀ depth before ref, admits depth before ref → ref.index < origin.size
  bottom : ∀ before ref, Ready origin before → admits 0 before ref → failed .endless before
  parts : ∀ depth before after ref, Ready origin before → admits (depth + 1) before ref →
    Continues origin before after →
      ((origin.body ref).isLocal = true → before.environments.length < after.environments.length) →
        ∀ child ∈ origin.conveyed context.environments.global ref, admits depth after child
  exprs : ∀ depth before ref delayed reason, Ready origin before → admits (depth + 1) before ref →
    origin.body ref = .promise delayed → context.codec.serializeExpr delayed.expr = .error reason →
      failed (.serialization .promise reason) before
  blobs : ∀ depth before ref reason err after, Ready origin before →
    admits (depth + 1) before ref → (origin.body ref).isEncoded = true →
      (blobOf context.codec before.heap ref).1 = .error reason → Spoiled origin err after →
        failed err after

/-- The conversion describes the values it converts, at every depth at which they are admitted. -/
theorem converts_within (sound : origin.Sound) {admits : Nat → ConvertState → Ref → Prop}
    (admission : Admission context origin admits failed) (depth : Nat) :
    Converts context origin (admits depth) failed (convertWithin context depth) := by
  -- Every part is converted with a depth of one less, and admitted there.
  induction depth with
  | zero =>
      intro before ref ready admitted
      exact Ends.throw (admission.bottom before ref ready admitted)
  | succ depth ih =>
      intro before ref ready admitted
      have inside := admission.inside _ before ref admitted
      have body := body_ready ready inside
      have encoded (isEncoded : (origin.body ref).isEncoded = true) :
          Ends (convertEncoded context (convertWithin context depth) ref) before
            (Result context origin before ref) failed := by
        have isOther : (origin.body ref).isLocal = true → False := by
          intro isLocal
          cases content : origin.body ref <;> rw [content] at isEncoded isLocal
          case environment frame => simp_all [Body.isLocal, Body.isEncoded]
          all_goals cases isLocal
        refine ends_convertEncoded sound ih ready inside isEncoded ?_ ?_
        · intro after continues
          exact admission.parts depth before after ref ready admitted continues fun isLocal =>
            (isOther isLocal).elim
        · intro reason err after
          exact admission.blobs depth before ref reason err after ready admitted isEncoded
      have others (isOther : (origin.body ref).isLocal = false) :
          Admits origin (admits depth) before
            (origin.conveyed context.environments.global ref) := by
        intro after continues
        apply admission.parts depth before after ref ready admitted continues
        rw [isOther]
        intro isLocal
        cases isLocal
      unfold convertWithin
      refine Ends.bind (ends_heap ?_)
      rw [body]
      cases content : origin.body ref with
      | list items =>
          exact ends_convertList ih ready inside content (others (by rw [content]; rfl))
      | environment frame =>
          simp only
          split
          · rename_i isLocal
            refine ends_convertEnvironment ih ready inside content isLocal ?_
            intro new after continues
            have entered := continues_enter ready new (by rw [content]; exact isLocal)
            refine admission.parts depth before after ref ready admitted
              (entered.trans continues) fun _ => ?_
            have more := continues.known.length_le
            rw [enteredState, List.length_append, List.length_singleton] at more
            exact more
          · rename_i named
            refine encoded ?_
            rw [content]
            simp [Body.isEncoded, named]
      | promise delayed =>
          exact ends_convertPromise ih ready content (others (by rw [content]; rfl)) fun reason =>
            admission.exprs depth before ref delayed reason ready admitted content
      | closure function => exact encoded (by rw [content]; rfl)
      | language expr => exact encoded (by rw [content]; rfl)
      | connection connection => exact encoded (by rw [content]; rfl)
      | null =>
          exact ends_convertPlain ih ready inside (by rw [content]; rfl)
            (others (by rw [content]; rfl))
      | unbound =>
          exact ends_convertPlain ih ready inside (by rw [content]; rfl)
            (others (by rw [content]; rfl))
      | vector data =>
          exact ends_convertPlain ih ready inside (by rw [content]; rfl)
            (others (by rw [content]; rfl))

theorem admission_any (context : Context) (sound : origin.Sound)
    (global : context.environments.global.index < origin.size) :
    Admission context origin (fun _ _ ref => ref.index < origin.size) (Spoiled origin) := by
  constructor
  · exact fun _ _ _ inside => inside
  · exact fun _ _ ready _ => ready.marked
  · exact fun _ _ _ _ _ inside _ _ _ member => sound.conveyed_inside global inside member
  · exact fun _ _ _ _ _ ready _ _ _ => ready.marked
  · exact fun _ _ _ _ _ _ _ _ _ _ spoiled => spoiled

theorem ready_start (origin : Heap) : Ready origin { heap := origin, environments := [] } :=
  ⟨.refl _ _, List.nodup_nil, fun _ member => nomatch member⟩

/-! ### Values that end -/

/-- Nothing is converted along with the value but what these ways lead to, and they make no cycle that
does not pass through a local environment. -/
structure Guided (context : Context) (origin : Heap) (ways : Ref → List (Edge × Ref))
    (value : Ref) : Prop where
  walkable : origin.Walkable ways value
  conveyed : ∀ ref, Leads ways value ref →
    ∀ child ∈ origin.conveyed context.environments.global ref, child ∈ (ways ref).map Prod.snd
  grounded : origin.Grounded ways value

/-- How deep the conversion may be when it comes to an object on the way. -/
def Afforded (origin : Heap) (ways : Ref → List (Edge × Ref)) (value : Ref) (depth : Nat)
    (state : ConvertState) (ref : Ref) : Prop :=
  Leads ways value ref ∧ origin.budget ways state.environments.length ref ≤ depth

namespace Guided

variable {ways : Ref → List (Edge × Ref)} {value : Ref}

/-- Such a value is converted without an error if its expressions and its encoded parts are. -/
theorem admission (guided : Guided context origin ways value)
    (exprs : ∀ ref delayed reason, Leads ways value ref → origin.body ref = .promise delayed →
      context.codec.serializeExpr delayed.expr ≠ .error reason)
    (blobs : ∀ before ref reason, Ready origin before → Leads ways value ref →
      (origin.body ref).isEncoded = true →
        (blobOf context.codec before.heap ref).1 ≠ .error reason) :
    Admission context origin (Afforded origin ways value) (fun _ _ => False) := by
  constructor
  · exact fun _ _ ref admitted => guided.walkable.inside ref admitted.1
  · intro before ref _ admitted
    have some := Heap.budget_pos ways before.environments.length
      (guided.walkable.inside ref admitted.1)
    exact Nat.not_lt_of_le admitted.2 some
  · intro depth before after ref ready admitted continues entered child member
    have inside := guided.walkable.inside ref admitted.1
    have onward := guided.conveyed ref admitted.1 child member
    refine ⟨guided.walkable.step admitted.1 onward, ?_⟩
    have room := Heap.locals_le_size continues.ready.distinct continues.ready.locals
    have most := admitted.2
    -- Either one more local environment is known by now, or the rank goes down to the part.
    cases isLocal : (origin.body ref).isLocal with
    | true =>
        have more : before.environments.length + 1 ≤ after.environments.length := entered isLocal
        have less := Heap.budget_enter ways child (Nat.lt_of_lt_of_le more room) inside
        have least := origin.budget_later ways child more
        omega
    | false =>
        have less := Heap.budget_onward before.environments.length inside ⟨isLocal, onward⟩
          (guided.grounded ref admitted.1)
        have least := origin.budget_later ways child continues.known.length_le
        omega
  · intro depth before ref delayed reason _ admitted body refused
    exact exprs ref delayed reason admitted.1 body refused
  · intro depth before ref reason _ _ ready admitted isEncoded refused _
    exact blobs before ref reason ready admitted.1 isEncoded refused

theorem prepares (sound : origin.Sound) (guided : Guided context origin ways value)
    (exprs : ∀ ref delayed reason, Leads ways value ref → origin.body ref = .promise delayed →
      context.codec.serializeExpr delayed.expr ≠ .error reason)
    (blobs : ∀ before ref reason, Ready origin before → Leads ways value ref →
      (origin.body ref).isEncoded = true →
        (blobOf context.codec before.heap ref).1 ≠ .error reason) :
    ∃ message sent, ofValue context origin value = (.ok message, sent) := by
  have start : Afforded origin ways value (Node.depthBound origin)
      { heap := origin, environments := [] } value :=
    ⟨.refl _ _, origin.budget_start ways value⟩
  have ends := converts_within sound (guided.admission exprs blobs) (Node.depthBound origin)
    { heap := origin, environments := [] } value (ready_start origin) start
  unfold ofValue
  split
  · exact ⟨_, _, rfl⟩
  · rename_i ended
    exact (ends.error ended).elim

end Guided

/-- A whole conversion: the heap it leaves holds the objects that were there, and its message
describes the value. -/
structure Sent (context : Context) (origin : Heap) (ref : Ref) (message : Message) (final : Heap)
    (known : List Ref) : Prop where
  marked : Heap.Marked origin.size origin final
  distinct : known.Nodup
  locals : ∀ env ∈ known, (origin.body env).isLocal = true
  whole : ({ context, origin, final, known } : Sending).Whole message ref

theorem Sent.among {ref : Ref} {message : Message} {final : Heap} {known : List Ref}
    (converted : Sent context origin ref message final known) {among : Ref → Prop}
    (closed : ∀ ref, among ref →
      ∀ child ∈ (origin.converted context.environments.global ref).map Prod.snd, among child)
    (here : among ref) :
    ∀ env ∈ known, among env ∧ (origin.body env).isLocal = true := by
  intro env member
  obtain ⟨index, met⟩ := List.mem_iff_getElem?.mp member
  have early := (List.getElem?_eq_some_iff.mp met).1
  obtain ⟨other, met', within⟩ := converted.whole.met closed here (Nat.zero_le index) early
  rw [Option.some.inj (met.symm.trans met')]
  exact ⟨within, converted.locals other (List.mem_of_getElem? met')⟩

theorem sent_convertWithin {ref : Ref} {message : Message} (sound : origin.Sound)
    (global : context.environments.global.index < origin.size) (inside : ref.index < origin.size)
    (converted : convertWithin context (Node.depthBound origin) ref
      { heap := origin, environments := [] } = .ok message after) :
    Sent context origin ref message after.heap after.environments := by
  have ends := converts_within sound (admission_any context sound global) (Node.depthBound origin)
    { heap := origin, environments := [] } ref (ready_start origin) inside
  obtain ⟨continues, described⟩ := ends.ok converted
  refine ⟨continues.ready.marked, continues.ready.distinct, continues.ready.locals, ?_⟩
  exact described after.heap after.environments (.refl _ _) (List.prefix_refl _)

theorem convertWithin_of_ofValue {ref : Ref} {message : Message} {final : Heap}
    (converted : ofValue context origin ref = (.ok message, final)) :
    ∃ known, convertWithin context (Node.depthBound origin) ref
      { heap := origin, environments := [] } = .ok message { heap := final, environments := known } := by
  unfold ofValue at converted
  split at converted
  · rename_i result after ended
    cases converted
    exact ⟨after.environments, ended⟩
  · cases converted

theorem sent_ofValue {ref : Ref} {message : Message} {final : Heap} (sound : origin.Sound)
    (global : context.environments.global.index < origin.size) (inside : ref.index < origin.size)
    (converted : ofValue context origin ref = (.ok message, final)) :
    ∃ known, Sent context origin ref message final known := by
  obtain ⟨known, ended⟩ := convertWithin_of_ofValue converted
  exact ⟨known, sent_convertWithin sound global inside ended⟩

end ValueChannels.Message
