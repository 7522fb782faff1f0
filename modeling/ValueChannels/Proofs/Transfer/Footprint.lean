import ValueChannels.Proofs.Heap.Soundness
import ValueChannels.Proofs.Transfer.Conversion

/-!
What a conversion leaves behind in the heap of the sender, whether it ends with a message or with an
error: every object as it was, some of them marked as shared. Marks go to vectors, and to those
lists that the conversion handed over themselves. Main statements: `leaves_within` for every call
of the conversion, `leftAlone_ofValue` for a whole one.
-/

namespace ValueChannels

namespace Heap

/-- The objects are as they were. New marks are on vectors and on the given lists. -/
structure LeftAlone (lists : Ref → Prop) (before after : Heap) : Prop where
  sound : before.Sound → after.Sound
  size : before.size ≤ after.size
  body : ∀ ref, ref.index < before.size → after.body ref = before.body ref
  attributes : ∀ ref, ref.index < before.size → after.attributes ref = before.attributes ref
  kept : ∀ ref, ref.index < before.size → before.isShared ref = true → after.isShared ref = true
  marks : ∀ ref, ref.index < before.size → before.isShared ref = false →
    after.isShared ref = true →
      (∃ data, before.body ref = .vector data) ∨
        (∃ items, before.body ref = .list items) ∧ lists ref

variable {lists : Ref → Prop} {heap before middle after : Heap}

namespace LeftAlone

theorem refl (lists : Ref → Prop) (heap : Heap) : LeftAlone lists heap heap := by
  refine ⟨id, Nat.le_refl _, fun _ _ => rfl, fun _ _ => rfl, fun _ _ shared => shared, ?_⟩
  intro ref _ unshared shared
  rw [unshared] at shared
  cases shared

theorem trans (first : LeftAlone lists before middle) (second : LeftAlone lists middle after) :
    LeftAlone lists before after := by
  have later {ref : Ref} (inside : ref.index < before.size) : ref.index < middle.size :=
    Nat.lt_of_lt_of_le inside first.size
  constructor
  · exact second.sound ∘ first.sound
  · exact Nat.le_trans first.size second.size
  · intro ref inside
    exact (second.body ref (later inside)).trans (first.body ref inside)
  · intro ref inside
    exact (second.attributes ref (later inside)).trans (first.attributes ref inside)
  · intro ref inside shared
    exact second.kept ref (later inside) (first.kept ref inside shared)
  · intro ref inside unshared shared
    cases between : middle.isShared ref with
    | true => exact first.marks ref inside unshared between
    | false =>
        have marked := second.marks ref (later inside) between shared
        rw [first.body ref inside] at marked
        exact marked

theorem mono {others : Ref → Prop} (leftAlone : LeftAlone lists before after)
    (more : ∀ ref, lists ref → others ref) : LeftAlone others before after := by
  refine { leftAlone with marks := ?_ }
  intro ref inside unshared shared
  exact (leftAlone.marks ref inside unshared shared).imp_right fun marked =>
    ⟨marked.1, more ref marked.2⟩

theorem bareCopy (lists : Ref → Prop) (heap : Heap) (ref : Ref) :
    LeftAlone lists heap (heap.bareCopy ref).2 := by
  have old {other : Ref} (inside : other.index < heap.size) :
      (heap.bareCopy ref).2.get other = heap.get other := heap.get_bareCopy_old ref inside
  constructor
  · exact fun sound => sound.bareCopy ref
  · exact heap.size_le_bareCopy ref
  · exact fun other inside => congrArg Object.body (old inside)
  · exact fun other inside => congrArg Object.attributes (old inside)
  · intro other inside shared
    exact (congrArg Object.shared (old inside)).trans shared
  · intro other inside unshared shared
    have same : heap.isShared other = true := (congrArg Object.shared (old inside)).symm.trans shared
    rw [unshared] at same
    cases same

theorem makeShared {ref : Ref} (allowed : ref.index < heap.size → heap.isShared ref = false →
      (∃ data, heap.body ref = .vector data) ∨ (∃ items, heap.body ref = .list items) ∧ lists ref) :
    LeftAlone lists heap (heap.makeShared ref).2 := by
  -- For the contents the base that marks stay below does not matter.
  have marked : Marked (ref.index + 1) heap (heap.makeShared ref).2 :=
    .makeShared (Nat.lt_succ_self _) heap
  refine ⟨fun sound => sound.makeShared ref, marked.size, marked.body, marked.attributes,
    marked.shared, ?_⟩
  intro other inside unshared shared
  by_cases same : other = ref
  · rw [same] at inside unshared ⊢
    exact allowed inside unshared
  · have unchanged := congrArg Object.shared (heap.get_makeShared_other same)
    rw [isShared, unchanged] at shared
    rw [isShared, shared] at unshared
    cases unshared

end LeftAlone

theorem Sound.mark_plain (sound : heap.Sound) {ref : Ref} (isPlain : (heap.body ref).isPlain = true)
    (inside : ref.index < heap.size) (unshared : heap.isShared ref = false) :
    ∃ data, heap.body ref = .vector data := by
  cases content : heap.body ref with
  | vector data => exact ⟨data, rfl⟩
  | null =>
      rw [(sound.null ref inside).mp content, sound.singletons.1] at unshared
      cases unshared
  | unbound =>
      rw [(sound.unbound ref).mp content, sound.singletons.2] at unshared
      cases unshared
  | _ =>
      rw [content] at isPlain
      cases isPlain

theorem Sound.reattached (sound : heap.Sound) (ref : Ref) :
    (heap.replaceAttributes ref none).replaceAttributes ref (heap.attributes ref) = heap := by
  apply heap.reattached
  by_cases inside : ref.index < heap.size
  · exact sound.normal inside
  · rw [Heap.attributes, heap.get_outside (Nat.le_of_not_lt inside)]
    rfl

end Heap

namespace Message

/-- Encoding a value leaves everything alone, whatever comes of it. -/
theorem leftAlone_blobOf {heap : Heap} (sound : heap.Sound) (codec : Codec) (lists : Ref → Prop)
    (ref : Ref) : Heap.LeftAlone lists heap (blobOf codec heap ref).2 := by
  unfold blobOf
  split
  · exact .bareCopy lists heap ref
  · simp only [sound.reattached ref]
    exact .refl lists heap

/-! ### The calls of a conversion -/

/-- A call of the conversion: the depth it may go to, the value, and the state it starts in. -/
structure Call where
  depth : Nat
  value : Ref
  state : ConvertState

def Call.outcome (context : Context) (call : Call) :
    EStateM.Result ChannelError ConvertState Message :=
  convertWithin context call.depth call.value call.state

/-- The values that are converted in turn along with a value. -/
def along (context : Context) (heap : Heap) (ref : Ref) : List Ref :=
  let attached := (attributeEntries (heap.attributes ref)).map Prod.snd
  match heap.body ref with
  | .list items => items ++ attached
  | .environment frame =>
      if frame.kind.isLocal then
        frame.bindings.entries.map Prod.snd ++ (frame.parent.toList ++ attached)
      else attached
  | .promise delayed =>
      [delayed.value.getD (delayed.env.getD context.environments.global)]
  | _ => attached

/-- The state after the bytes of a value were written, if the codec does not refuse it. -/
def written? (context : Context) (before : ConvertState) (ref : Ref) : Option ConvertState :=
  match blobOf context.codec before.heap ref with
  | (.ok _, heap) => some { before with heap }
  | (.error _, _) => none

/-- The state in which the first of the values along with a value is converted, if it comes to that.
An environment that was met before is not entered again. -/
def opened? (context : Context) (before : ConvertState) (ref : Ref) : Option ConvertState :=
  match before.heap.body ref with
  | .list _ => some before
  | .environment frame =>
      if frame.kind.isLocal then
        if ref ∈ before.environments then none else some (enteredState before ref)
      else written? context before ref
  | .promise delayed =>
      match context.codec.serializeExpr delayed.expr with
      | .ok _ => some before
      | .error _ => none
  | .closure _ | .language _ | .connection _ => written? context before ref
  | .null | .unbound | .vector _ => some { before with heap := (before.heap.makeShared ref).2 }

/-- A call makes another one: itself, or one that is made for a value along with its own, once all
values before that one have been converted. -/
inductive Call.Makes (context : Context) : Call → Call → Prop where
  | self (call : Call) : Makes context call call
  | part {depth : Nat} {ref child : Ref} {before start middle : ConvertState}
      {earlier later : List Ref} {messages : List Message} {call : Call}
      (opened : opened? context before ref = some start)
      (turn : along context before.heap ref = earlier ++ child :: later)
      (converted : convertAll (convertWithin context depth) earlier start = .ok messages middle)
      (makes : Makes context { depth, value := child, state := middle } call) :
      Makes context { depth := depth + 1, value := ref, state := before } call

/-- Among the calls that a call makes, one for this value hands it over as it is. -/
def Call.HandsOver (context : Context) (call : Call) (ref : Ref) : Prop :=
  ∃ made : Call, call.Makes context made ∧ made.value = ref ∧
    ∃ after, made.outcome context = .ok (.plain ref) after

/-- Whatever the action ends with, it leaves the heap alone but for marks on vectors and on the
given lists. -/
def Leaves {α : Type} (lists : Ref → Prop) (action : Converting α) (before : ConvertState) : Prop :=
  Ends action before (fun _ after => Heap.LeftAlone lists before.heap after.heap)
    (fun _ after => Heap.LeftAlone lists before.heap after.heap)

/-! ### Values that are converted in turn -/

section Turns

variable {convert : Ref → Converting Message} {handed : Ref → ConvertState → Ref → Prop}
  {lists : Ref → Prop} {ref found : Ref} {refs more : List Ref}
  {before middle after : ConvertState} {message : Message} {messages : List Message}

/-- The action converts these values in turn, and does something with the messages. -/
def InOrder {β : Type} (convert : Ref → Converting Message) (refs : List Ref)
    (action : Converting β) : Prop :=
  ∃ pack : List Message → β, action = pack <$> convertAll convert refs

theorem inOrder_all (convert : Ref → Converting Message) (refs : List Ref) :
    InOrder convert refs (convertAll convert refs) :=
  ⟨id, (id_map _).symm⟩

theorem inOrder_entries (convert : Ref → Converting Message) (entries : List (String × Ref)) :
    InOrder convert (entries.map Prod.snd) (convertEntries convert entries) := by
  refine ⟨(entries.map Prod.fst).zip, ?_⟩
  induction entries with
  | nil => rfl
  | cons entry rest ih =>
      obtain ⟨name, ref⟩ := entry
      simp only [convertEntries, convertAll, ih, List.map_cons, map_bind, bind_pure_comp,
        Functor.map_map, List.zip_cons_cons]

theorem inOrder_optional (convert : Ref → Converting Message) (optional : Option Ref) :
    InOrder convert optional.toList (convertOptional convert optional) := by
  refine ⟨List.head?, ?_⟩
  cases optional with
  | none => rfl
  | some ref =>
      simp only [convertOptional, Option.toList, convertAll, map_pure, bind_pure_comp, Functor.map_map,
        List.head?_cons]

theorem inOrder_attributes (convert : Ref → Converting Message) (attributes : Option Attributes) :
    InOrder convert ((attributeEntries attributes).map Prod.snd)
      (convertAttributes convert attributes) := by
  cases attributes with
  | none => exact ⟨fun _ => none, rfl⟩
  | some mapping =>
      obtain ⟨pack, same⟩ := inOrder_entries convert mapping.entries
      refine ⟨fun messages => some (pack messages), ?_⟩
      simp only [convertAttributes, same, bind_pure_comp, Functor.map_map, attributeEntries_some]

/-- One of these values hands it over, when all values before that one have been converted. -/
def InTurn (convert : Ref → Converting Message) (handed : Ref → ConvertState → Ref → Prop)
    (refs : List Ref) (before : ConvertState) (found : Ref) : Prop :=
  ∃ earlier child later messages middle, refs = earlier ++ child :: later ∧
    convertAll convert earlier before = .ok messages middle ∧ handed child middle found

theorem convertAll_cons (first : convert ref before = .ok message middle)
    (rest : convertAll convert refs middle = .ok messages after) :
    convertAll convert (ref :: refs) before = .ok (message :: messages) after := by
  simp only [convertAll, bind, EStateM.bind, first, rest, pure, EStateM.pure]

theorem InTurn.head (here : handed ref before found) :
    InTurn convert handed (ref :: refs) before found :=
  ⟨[], ref, refs, [], before, rfl, rfl, here⟩

theorem InTurn.tail (first : convert ref before = .ok message middle)
    (rest : InTurn convert handed refs middle found) :
    InTurn convert handed (ref :: refs) before found := by
  obtain ⟨earlier, child, later, messages, state, split, converted, here⟩ := rest
  exact ⟨ref :: earlier, child, later, _, state, congrArg _ split, convertAll_cons first converted,
    here⟩

theorem InTurn.left (turn : InTurn convert handed refs before found) :
    InTurn convert handed (refs ++ more) before found := by
  obtain ⟨earlier, child, later, messages, state, split, converted, here⟩ := turn
  refine ⟨earlier, child, later ++ more, messages, state, ?_, converted, here⟩
  rw [split, List.append_assoc, List.cons_append]

theorem InTurn.right (converted : convertAll convert refs before = .ok messages middle)
    (turn : InTurn convert handed more middle found) :
    InTurn convert handed (refs ++ more) before found := by
  induction refs generalizing before messages with
  | nil =>
      cases converted
      exact turn
  | cons ref rest ih =>
      simp only [convertAll, bind, EStateM.bind] at converted
      split at converted
      · rename_i first ran
        split at converted
        · rename_i second ran'
          cases converted
          exact .tail ran (ih ran')
        · cases converted
      · cases converted

variable (converts : ∀ child state, state.heap.Sound →
  Leaves (handed child state) (convert child) state)

include converts

theorem leaves_all (refs : List Ref) (before : ConvertState) (sound : before.heap.Sound) :
    Ends (convertAll convert refs) before
      (fun messages after => convertAll convert refs before = .ok messages after ∧
        Heap.LeftAlone (InTurn convert handed refs before) before.heap after.heap)
      (fun _ after =>
        Heap.LeftAlone (InTurn convert handed refs before) before.heap after.heap) := by
  induction refs generalizing before with
  | nil => exact Ends.pure ⟨rfl, .refl _ _⟩
  | cons ref rest ih =>
      refine Ends.bind ((Ends.ran.and (converts ref before sound)).mono ?_ ?_)
      · rintro message middle ⟨ran, first⟩
        have here : Heap.LeftAlone (InTurn convert handed (ref :: rest) before) before.heap
            middle.heap := first.mono fun _ held => .head held
        refine Ends.bind ((ih middle (first.sound sound)).mono ?_ ?_)
        · rintro messages after ⟨ran', second⟩
          exact Ends.pure ⟨convertAll_cons ran ran',
            here.trans (second.mono fun _ held => held.tail ran)⟩
        · intro _ after second
          exact here.trans (second.mono fun _ held => held.tail ran)
      · intro _ after ended
        exact ended.2.mono fun _ held => InTurn.head held

/-- The values of an action are the next ones to be converted; others may follow. -/
theorem ends_turn {β γ : Type} {action : Converting β} {next : β → Converting γ}
    {done : γ → ConvertState → Prop} {failed : ChannelError → ConvertState → Prop}
    (inOrder : InOrder convert refs action) (sound : before.heap.Sound)
    (turn : ∀ found, InTurn convert handed (refs ++ more) before found → lists found)
    (rest : ∀ result middle, Heap.LeftAlone lists before.heap middle.heap →
      (∀ found, InTurn convert handed more middle found → lists found) →
        Ends (next result) middle done failed)
    (wrong : ∀ err after, Heap.LeftAlone lists before.heap after.heap → failed err after) :
    Ends (action >>= next) before done failed := by
  obtain ⟨pack, same⟩ := inOrder
  rw [same]
  refine Ends.bind (Ends.map ((leaves_all converts refs before sound).mono ?_ ?_))
  · rintro messages middle ⟨ran, leftAlone⟩
    exact rest _ middle (leftAlone.mono fun found held => turn found held.left)
      fun found held => turn found (held.right ran)
  · intro err after leftAlone
    exact wrong err after (leftAlone.mono fun found held => turn found held.left)

/-! ### One call for each kind of value -/

theorem leaves_convertList (sound : before.heap.Sound) {items : List Ref}
    (body : before.heap.body ref = .list items)
    (turn : ∀ found, InTurn convert handed
      (items ++ (attributeEntries (before.heap.attributes ref)).map Prod.snd) before found →
        lists found) :
    Ends (convertList convert ref items) before
      (fun message after => Heap.LeftAlone (fun found => lists found ∨ found = ref ∧
        message = .plain ref) before.heap after.heap)
      (fun _ after => Heap.LeftAlone lists before.heap after.heap) := by
  have inside : ref.index < before.heap.size := by
    apply before.heap.inside_of_body
    rw [body]
    exact fun impossible => nomatch impossible
  unfold convertList
  refine ends_turn converts (inOrder_all convert items) sound turn ?_ fun _ _ => id
  intro messages filled first turn
  refine Ends.bind (ends_heap ?_)
  simp only [first.attributes ref inside]
  rw [← List.append_nil (List.map _ _)] at turn
  refine ends_turn converts (inOrder_attributes convert _) (first.sound sound) turn ?_ ?_
  · intro converted done second _
    have both := first.trans second
    split
    · refine Ends.bind (ends_onHeap (Ends.pure ?_))
      refine (both.mono fun _ held => Or.inl held).trans (.makeShared fun _ _ => ?_)
      exact Or.inr ⟨⟨items, (both.body ref inside).trans body⟩, Or.inr ⟨rfl, rfl⟩⟩
    · refine Ends.bind (ends_onHeap (Ends.pure ?_))
      exact (both.mono fun _ held => Or.inl held).trans (.bareCopy _ _ ref)
  · exact fun _ _ second => first.trans second

theorem leaves_convertEnvironment (sound : before.heap.Sound) {frame : Frame}
    (body : before.heap.body ref = .environment frame)
    (turn : ref ∉ before.environments → ∀ found, InTurn convert handed
      (frame.bindings.entries.map Prod.snd ++ (frame.parent.toList ++
        (attributeEntries (before.heap.attributes ref)).map Prod.snd))
      (enteredState before ref) found → lists found) :
    Leaves lists (convertEnvironment convert ref frame) before := by
  have inside : ref.index < before.heap.size := by
    apply before.heap.inside_of_body
    rw [body]
    exact fun impossible => nomatch impossible
  unfold convertEnvironment
  refine Ends.bind (Ends.get ?_)
  simp only
  cases known : before.environments.idxOf? ref with
  | some index => exact Ends.pure (.refl _ _)
  | none =>
      have turn := turn (List.idxOf?_eq_none_iff.mp known)
      refine Ends.bind (Ends.modifyGet ?_)
      show Ends _ (enteredState before ref) _ _
      refine ends_turn converts (inOrder_entries convert _) sound turn ?_ fun _ _ => id
      intro bindings bound first turn
      refine ends_turn converts (inOrder_optional convert _) (first.sound sound) turn ?_
        fun _ _ second => first.trans second
      intro parent enclosed second turn
      have both := first.trans second
      refine Ends.bind (ends_heap ?_)
      simp only [both.attributes ref inside]
      rw [← List.append_nil (List.map _ _)] at turn
      refine ends_turn converts (inOrder_attributes convert _) (both.sound sound) turn ?_
        fun _ _ third => both.trans third
      intro converted done third _
      exact Ends.pure (both.trans third)

theorem leaves_convertPromise (context : Context) (sound : before.heap.Sound)
    {delayed : Promise}
    (turn : ∀ expr, context.codec.serializeExpr delayed.expr = .ok expr → ∀ found,
      InTurn convert handed [delayed.value.getD (delayed.env.getD context.environments.global)]
        before found → lists found) :
    Leaves lists (convertPromise context convert delayed) before := by
  unfold convertPromise
  cases written : context.codec.serializeExpr delayed.expr with
  | error reason => exact Ends.throw (.refl _ _)
  | ok expr =>
      have turn := turn expr written
      simp only
      cases has : delayed.value with
      | some value =>
          rw [has] at turn
          refine Ends.bind ((converts value before sound).mono ?_ ?_)
          · exact fun _ _ leftAlone =>
              Ends.pure (leftAlone.mono fun found held => turn found (.head held))
          · exact fun _ _ leftAlone => leftAlone.mono fun found held => turn found (.head held)
      | none =>
          rw [has] at turn
          refine Ends.bind ((converts _ before sound).mono ?_ ?_)
          · exact fun _ _ leftAlone =>
              Ends.pure (leftAlone.mono fun found held => turn found (.head held))
          · exact fun _ _ leftAlone => leftAlone.mono fun found held => turn found (.head held)

theorem leaves_convertEncoded (context : Context) (sound : before.heap.Sound)
    (turn : ∀ start, written? context before ref = some start → ∀ found,
      InTurn convert handed ((attributeEntries (before.heap.attributes ref)).map Prod.snd) start
        found → lists found) :
    Leaves lists (convertEncoded context convert ref) before := by
  have first := leftAlone_blobOf sound context.codec lists ref
  unfold convertEncoded
  refine Ends.bind (ends_heap (Ends.bind (ends_onHeap ?_)))
  split
  · exact Ends.throw first
  · exact Ends.throw first
  · rename_i blob written
    have turn := turn { before with heap := (blobOf context.codec before.heap ref).2 } (by
      simp only [written?]
      split
      · rename_i other
        rw [other]
      · rename_i other
        rw [other] at written
        cases written)
    rw [← List.append_nil (List.map _ _)] at turn
    refine ends_turn converts (inOrder_attributes convert _) (first.sound sound) turn ?_
      fun _ _ second => first.trans second
    intro converted done second _
    exact Ends.pure (first.trans second)

theorem leaves_convertPlain (sound : before.heap.Sound)
    (isPlain : (before.heap.body ref).isPlain = true)
    (turn : ∀ found, InTurn convert handed
      ((attributeEntries (before.heap.attributes ref)).map Prod.snd)
      { before with heap := (before.heap.makeShared ref).2 } found → lists found) :
    Leaves lists (convertPlain convert ref) before := by
  have first : Heap.LeftAlone lists before.heap (before.heap.makeShared ref).2 :=
    .makeShared fun inside unshared => Or.inl (sound.mark_plain isPlain inside unshared)
  unfold convertPlain
  refine Ends.bind (ends_onHeap (Ends.bind (ends_heap ?_)))
  simp only [Heap.attributes_makeShared]
  rw [← List.append_nil (List.map _ _)] at turn
  refine ends_turn converts (inOrder_attributes convert _) (first.sound sound) turn ?_
    fun _ _ second => first.trans second
  intro converted done second _
  have both := first.trans second
  cases converted with
  | none => exact Ends.pure both
  | some converted =>
      simp only
      split
      · exact Ends.pure both
      · exact Ends.bind (ends_onHeap (Ends.pure (both.trans (.bareCopy _ _ ref))))

end Turns

variable {context : Context}

theorem Call.handsOver_of_turn {depth : Nat} {ref found : Ref} {before start : ConvertState}
    (opened : opened? context before ref = some start)
    (turn : InTurn (convertWithin context depth)
      (fun child state => Call.HandsOver context { depth, value := child, state })
      (along context before.heap ref) start found) :
    Call.HandsOver context { depth := depth + 1, value := ref, state := before } found := by
  obtain ⟨earlier, child, later, messages, middle, split, converted, made, makes, isFound⟩ := turn
  exact ⟨made, .part opened split converted makes, isFound⟩

/-- Every call leaves the heap alone but for marks, with a message or with an error. -/
theorem leaves_within (context : Context) (depth : Nat) (ref : Ref) (before : ConvertState)
    (sound : before.heap.Sound) :
    Leaves (Call.HandsOver context { depth, value := ref, state := before })
      (convertWithin context depth ref) before := by
  -- Every value in turn is converted by a call of one depth less, which this call makes.
  induction depth generalizing ref before with
  | zero => exact Ends.throw (.refl _ _)
  | succ depth ih =>
      let call : Call := { depth := depth + 1, value := ref, state := before }
      have turns {start : ConvertState} (opened : opened? context before ref = some start) :
          ∀ found, InTurn (convertWithin context depth)
            (fun child state => Call.HandsOver context { depth, value := child, state })
            (along context before.heap ref) start found → call.HandsOver context found :=
        fun _ => Call.handsOver_of_turn opened
      simp only [along, opened?] at turns
      have leaves : Ends (convertWithin context (depth + 1) ref) before
          (fun message after => Heap.LeftAlone (fun found => call.HandsOver context found ∨
            found = ref ∧ message = .plain ref) before.heap after.heap)
          (fun _ after => Heap.LeftAlone (call.HandsOver context) before.heap after.heap) := by
        have others {action : Converting Message}
            (ends : Leaves (call.HandsOver context) action before) :
            Ends action before
              (fun message after => Heap.LeftAlone (fun found => call.HandsOver context found ∨
                found = ref ∧ message = .plain ref) before.heap after.heap)
              (fun _ after => Heap.LeftAlone (call.HandsOver context) before.heap after.heap) :=
          ends.mono (fun _ _ leftAlone => leftAlone.mono fun _ held => Or.inl held)
            fun _ _ leftAlone => leftAlone
        unfold convertWithin
        refine Ends.bind (ends_heap ?_)
        cases content : before.heap.body ref with
        | list items =>
            rw [content] at turns
            exact leaves_convertList ih sound content (turns rfl)
        | environment frame =>
            simp only [content] at turns
            simp only
            split
            · rename_i isLocal
              simp only [isLocal, if_true] at turns
              refine others (leaves_convertEnvironment ih sound content fun new => turns ?_)
              exact if_neg new
            · rename_i named
              simp only [named] at turns
              exact others (leaves_convertEncoded ih context sound fun _ => turns)
        | promise delayed =>
            simp only [content] at turns
            refine others (leaves_convertPromise ih context sound fun expr written => turns ?_)
            rw [written]
        | closure function =>
            rw [content] at turns
            exact others (leaves_convertEncoded ih context sound fun _ => turns)
        | language expr =>
            rw [content] at turns
            exact others (leaves_convertEncoded ih context sound fun _ => turns)
        | connection connection =>
            rw [content] at turns
            exact others (leaves_convertEncoded ih context sound fun _ => turns)
        | null =>
            rw [content] at turns
            exact others (leaves_convertPlain ih sound (by rw [content]; rfl) (turns rfl))
        | unbound =>
            rw [content] at turns
            exact others (leaves_convertPlain ih sound (by rw [content]; rfl) (turns rfl))
        | vector data =>
            rw [content] at turns
            exact others (leaves_convertPlain ih sound (by rw [content]; rfl) (turns rfl))
      refine (Ends.ran.and leaves).mono ?_ fun _ _ ended => ended.2
      rintro message after ⟨ran, leftAlone⟩
      refine leftAlone.mono ?_
      rintro found (held | ⟨same, plain⟩)
      · exact held
      · rw [same]
        rw [plain] at ran
        exact ⟨call, .self call, rfl, after, ran⟩

/-- The call that the conversion of a value as a whole consists of. -/
def wholeCall (heap : Heap) (value : Ref) : Call :=
  { depth := Node.depthBound heap, value, state := { heap, environments := [] } }

theorem leftAlone_ofValue (context : Context) {heap : Heap} (sound : heap.Sound) (value : Ref) :
    Heap.LeftAlone ((wholeCall heap value).HandsOver context) heap (ofValue context heap value).2 := by
  have leaves := leaves_within context (Node.depthBound heap) value { heap, environments := [] }
    sound
  unfold ofValue
  cases ended : convertWithin context (Node.depthBound heap) value { heap, environments := [] } with
  | ok message state => exact leaves.ok ended
  | error err state => exact leaves.error ended

/-- Sending leaves the objects of the sender as they were, also when it fails. Marks are never
taken back; new ones are on vectors, and on lists that were handed over themselves. -/
theorem sender_left_alone {heap after : Heap} {value : Ref} {outcome : Except ChannelError Message}
    (sound : heap.Sound) (inside : value.index < heap.size)
    (sent : ofValue context heap value = (outcome, after)) (found : Ref)
    (reached : heap.ReachesAll value found) :
    after.body found = heap.body found ∧ after.attributes found = heap.attributes found ∧
      (heap.isShared found = true → after.isShared found = true) ∧
      (heap.isShared found = false → after.isShared found = true →
        (∃ data, heap.body found = .vector data) ∨
          (∃ items, heap.body found = .list items) ∧
            (wholeCall heap value).HandsOver context found) := by
  have there := (reached.within (fun ref inside => sound.closed ref inside) (fun _ _ => rfl) inside).1
  have leftAlone := leftAlone_ofValue context sound value
  rw [sent] at leftAlone
  exact ⟨leftAlone.body found there, leftAlone.attributes found there, leftAlone.kept found there,
    leftAlone.marks found there⟩

/-- A context whose codec refuses every value, and a list of a row and of an annotated function. -/
def refusingSender : Context :=
  (Context.create Heap.initial "a"
    { Codec.packed with serialize := fun _ _ => .error .unwritable }).1

def annotatedHeap : Heap :=
  let heap := (Environments.create Heap.initial).2
  let (vector, heap) := heap.alloc (.vector (.integer [7]))
  let (row, heap) := heap.alloc (.list [vector])
  let (function, heap) := heap.alloc
    (.closure { formals := ["x"], body := .symbol "x", env := refusingSender.environments.global })
  let (_, heap) := heap.alloc (.list [row, function])
  heap.replaceAttributes function (some ⟨[("note", vector)]⟩)

theorem sound_annotatedHeap : annotatedHeap.Sound := by
  have context := Environments.heap_create Heap.sound_initial
  have vector := context.allocVector (.integer [7])
  have row : (Heap.alloc _ (.list [⟨6⟩])).2.Sound :=
    vector.alloc (fun impossible => nomatch impossible) (fun impossible => nomatch impossible)
      (fun _ impossible => nomatch impossible) (by decide)
  have function : (Heap.alloc _ (.closure
      { formals := ["x"], body := .symbol "x", env := ⟨4⟩ })).2.Sound :=
    row.alloc (fun impossible => nomatch impossible) (fun impossible => nomatch impossible)
      (fun _ impossible => nomatch impossible) (by decide)
  have both : (Heap.alloc _ (.list [⟨7⟩, ⟨8⟩])).2.Sound :=
    function.alloc (fun impossible => nomatch impossible) (fun impossible => nomatch impossible)
      (fun _ impossible => nomatch impossible) (by decide)
  refine both.replaceAttributes ⟨8⟩ ?_ (by decide)
  intro mapping same
  cases same
  decide

/-- The codec refuses the function after the row was handed over: the row is marked, the list is
not, and the function has its attributes. -/
theorem left_alone_refused : ∃ after,
    ofValue refusingSender annotatedHeap ⟨9⟩ =
        (.error (.serialization .closure .unwritable), after) ∧
      annotatedHeap.isShared ⟨7⟩ = false ∧ after.isShared ⟨7⟩ = true ∧
      (wholeCall annotatedHeap ⟨9⟩).HandsOver refusingSender ⟨7⟩ ∧ after.isShared ⟨9⟩ = false ∧
      after.attributes ⟨8⟩ = some ⟨[("note", ⟨6⟩)]⟩ := by
  have sent : ofValue refusingSender annotatedHeap ⟨9⟩ =
      (.error (.serialization .closure .unwritable),
        (ofValue refusingSender annotatedHeap ⟨9⟩).2) := rfl
  have row := sender_left_alone sound_annotatedHeap (by decide) sent ⟨7⟩
    (.step .start id (by decide))
  have function := sender_left_alone sound_annotatedHeap (by decide) sent ⟨8⟩
    (.step .start id (by decide))
  have marked : (ofValue refusingSender annotatedHeap ⟨9⟩).2.isShared ⟨7⟩ = true := rfl
  refine ⟨_, sent, rfl, marked, ?_, rfl, function.2.1⟩
  rcases row.2.2.2 rfl marked with ⟨data, vector⟩ | list
  · cases vector
  · exact list.2

end Message

end ValueChannels
