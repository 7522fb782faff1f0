import ValueChannels.Proofs.Heap.Frozen
import ValueChannels.Proofs.Transfer.Conversion

/-!
What is handed over whole, and what else is in a message. A value that is handed over as it is
consists of shared data to a height that the conversion went down, and any later conversion finds
it so. Everything that a message is going to write to was made for the message. Main statements:
`conveys_within` for all conversions, `ofValue_frozen` for a value that was handed over before.
-/

namespace ValueChannels

namespace Heap

variable {hidden : Ref → Prop} {heap before middle after : Heap} {height : Nat} {ref : Ref}

/-! ### What a conversion does to the heap -/

/-- What a conversion does to the heap. It leaves the contents of all objects alone, but for the
attributes of values that it encodes, and marks some of them as shared. -/
structure Surveyed (hidden : Ref → Prop) (before after : Heap) : Prop where
  upholds : Upholds hidden (fun _ => False) before after
  body : ∀ ref, ref.index < before.size → after.body ref = before.body ref
  attributes : ∀ ref, ref.index < before.size → (before.body ref).isData = true →
    after.attributes ref = before.attributes ref
  bare : before.Bare → after.Bare

namespace Surveyed

theorem refl (hidden : Ref → Prop) (heap : Heap) : Surveyed hidden heap heap :=
  ⟨.refl _ _ heap, fun _ _ => rfl, fun _ _ _ => rfl, id⟩

theorem trans (first : Surveyed hidden before middle) (second : Surveyed hidden middle after) :
    Surveyed hidden before after := by
  have later {ref : Ref} (inside : ref.index < before.size) : ref.index < middle.size :=
    Nat.lt_of_lt_of_le inside first.upholds.size
  refine ⟨first.upholds.trans second.upholds, ?_, ?_, second.bare ∘ first.bare⟩
  · intro ref inside
    exact (second.body ref (later inside)).trans (first.body ref inside)
  · intro ref inside data
    have data' : (middle.body ref).isData = true := by
      rw [first.body ref inside]
      exact data
    exact (second.attributes ref (later inside) data').trans (first.attributes ref inside data)

theorem of_same (upholds : Upholds hidden (fun _ => False) before after)
    (body : ∀ ref, after.body ref = before.body ref)
    (attributes : ∀ ref, (before.body ref).isData = true →
      after.attributes ref = before.attributes ref) : Surveyed hidden before after := by
  refine ⟨upholds, fun ref _ => body ref, fun ref _ => attributes ref, ?_⟩
  intro bare ref singleton
  rw [body ref] at singleton
  rw [attributes ref (Body.isData_of_isSingleton singleton)]
  exact bare ref singleton

theorem makeShared (hidden : Ref → Prop) (heap : Heap) (ref : Ref) :
    Surveyed hidden heap (heap.makeShared ref).2 := by
  have upholds : Upholds hidden (fun _ => False) heap (heap.makeShared ref).2 := by
    apply Upholds.write (heap.size_makeShared ref) (fun _ => heap.get_makeShared_other) _
      (fun _ => heap.body_makeShared ref ref)
    · intro _ frame content
      exact ⟨frame, (heap.body_makeShared ref ref).trans content, rfl⟩
    · intro closed child member
      rw [heap.children_makeShared] at member
      exact closed ref child member
    · intro shared _
      rw [makeShared_shared shared.1]
      exact ⟨rfl, shared.1, Or.inl rfl⟩
  exact of_same upholds (heap.body_makeShared ref)
    fun found _ => heap.attributes_makeShared ref found

theorem bareCopy (hidden : Ref → Prop) (heap : Heap) (ref : Ref) :
    Surveyed hidden heap (heap.bareCopy ref).2 := by
  cases itself : (heap.body ref).copiesToItself with
  | true =>
      rw [heap.bareCopy_itself itself]
      exact refl hidden heap
  | false =>
      rw [heap.bareCopy_alloc itself]
      have old {found : Ref} (inside : found.index < heap.size) :=
        heap.get_alloc_old (heap.body ref) inside
      refine ⟨.alloc fun closed _ member => closed.body ref member,
        fun _ inside => congrArg Object.body (old inside),
        fun _ inside _ => congrArg Object.attributes (old inside), fun bare => bare.alloc _⟩

theorem blobOf (hidden : Ref → Prop) (codec : Codec) (heap : Heap) {ref : Ref}
    (isEncoded : (heap.body ref).isEncoded = true) :
    Surveyed hidden heap (Message.blobOf codec heap ref).2 := by
  cases shared : heap.isShared ref with
  | true =>
      simp only [Message.blobOf, shared, if_true]
      exact bareCopy hidden heap ref
  | false =>
      have inside : ref.index < heap.size := by
        apply heap.inside_of_body
        intro impossible
        rw [impossible] at isEncoded
        cases isEncoded
      have data := Body.isData_of_isEncoded isEncoded
      have inside' : ref.index < (heap.replaceAttributes ref none).size := by
        rw [heap.size_replaceAttributes]
        exact inside
      simp only [Message.blobOf, shared]
      -- The attributes are taken off and put back, so every body and all other objects are as
      -- they were.
      generalize written : (heap.replaceAttributes ref none).replaceAttributes ref
        (heap.attributes ref) = after
      have size : after.size = heap.size := by
        rw [← written, size_replaceAttributes, size_replaceAttributes]
      have body (found : Ref) : after.body found = heap.body found := by
        rw [← written, body_replaceAttributes, body_replaceAttributes]
      have others {found : Ref} (different : found ≠ ref) : after.get found = heap.get found := by
        rw [← written, get_replaceAttributes_other _ _ different,
          get_replaceAttributes_other _ _ different]
      have upholds : Upholds hidden (fun _ => False) heap after := by
        apply Upholds.write size (fun _ => others) _ (fun _ => body ref)
        · intro _ frame content
          exact ⟨frame, (body ref).trans content, rfl⟩
        · intro closed child member
          rw [← written] at member
          rcases children_replaceAttributes inside' member with old | attached
          · rcases children_replaceAttributes inside old with old' | nothing
            · exact closed ref child old'
            · cases nothing
          · exact closed.attributes ref attached
        · intro isShared
          have impossible := isShared.1
          rw [shared] at impossible
          cases impossible
      apply of_same upholds body
      intro found isData
      apply congrArg Object.attributes
      apply others
      intro same
      rw [same, data] at isData
      cases isData

theorem frozen (surveyed : Surveyed hidden before after) (bare : before.Bare)
    (frozen : before.Frozen height ref) : after.Frozen height ref := by
  refine frozen.kept ?_
  intro found reached
  have shared := (frozen.reaches reached).self
  exact Stays.get_eq (surveyed.upholds.same found shared id) shared.1 bare (surveyed.bare bare)

end Surveyed

end Heap

namespace Message

/-! ### What stands in a message -/

/-- The reference in the message itself. -/
def own : Message → List Ref
  | .plain value => [value]
  | .list shell _ _ => [shell]
  | _ => []

/-- The private copy that parts of the message are entered into. -/
def copies : Message → List Ref
  | .list shell _ _ => [shell]
  | .attributed (.plain base) _ => [base]
  | _ => []

inductive Mentions : Message → Ref → Prop where
  | own {message : Message} {ref : Ref} (member : ref ∈ message.own) : Mentions message ref
  | part {message part : Message} {ref : Ref} (member : part ∈ message.parts)
      (inner : Mentions part ref) : Mentions message ref

inductive Writes : Message → Ref → Prop where
  | own {message : Message} {ref : Ref} (member : ref ∈ message.copies) : Writes message ref
  | part {message part : Message} {ref : Ref} (member : part ∈ message.parts)
      (inner : Writes part ref) : Writes message ref

theorem Mentions.of_copies {message : Message} {ref : Ref} (member : ref ∈ message.copies) :
    message.Mentions ref := by
  cases message with
  | list => exact .own member
  | attributed base attributes =>
      cases base with
      | plain value => exact .part List.mem_cons_self (.own member)
      | _ => cases member
  | _ => cases member

theorem Writes.mentions {message : Message} {ref : Ref} (writes : message.Writes ref) :
    message.Mentions ref := by
  induction writes with
  | own member => exact .of_copies member
  | part member _ ih => exact .part member ih

theorem mentions_plain {value ref : Ref} (mentions : Mentions (.plain value) ref) : ref = value := by
  cases mentions with
  | own member => exact List.mem_singleton.mp member
  | part member => cases member

theorem writes_plain {value ref : Ref} (writes : Writes (.plain value) ref) : False := by
  cases writes with
  | own member => cases member
  | part member => cases member

/-- Whatever the message mentions is in the heap, and public unless the message writes to it; that
was made for it, as a copy of a vector or a list. -/
structure Carries (hidden : Ref → Prop) (base : Nat) (heap : Heap) (message : Message) : Prop where
  mentions : ∀ ref, message.Mentions ref →
    ref.index < heap.size ∧ (message.Writes ref ∨ ¬hidden ref)
  writes : ∀ ref, message.Writes ref → base ≤ ref.index ∧ (heap.body ref).isData = true ∧
    (heap.body ref).copiesToItself = false

namespace Carries

variable {hidden : Ref → Prop} {base : Nat} {heap before after : Heap} {message : Message}

theorem later (carries : Carries hidden base before message)
    (surveyed : Heap.Surveyed hidden before after) : Carries hidden base after message := by
  constructor
  · intro ref mentions
    have known := carries.mentions ref mentions
    exact ⟨Nat.lt_of_lt_of_le known.1 surveyed.upholds.size, known.2⟩
  · intro ref writes
    have known := carries.mentions ref writes.mentions
    rw [surveyed.body ref known.1]
    exact carries.writes ref writes

theorem plain {ref : Ref} (isPublic : heap.Public hidden ref) :
    Carries hidden base heap (.plain ref) := by
  constructor
  · intro other mentions
    rw [mentions_plain mentions]
    exact ⟨isPublic.1, Or.inr isPublic.2⟩
  · intro other writes
    exact (writes_plain writes).elim

theorem of_parts (only : ∀ ref ∈ message.own, ref ∈ message.copies)
    (made : ∀ ref ∈ message.copies, (base ≤ ref.index ∧ ref.index < heap.size) ∧
      (heap.body ref).isData = true ∧ (heap.body ref).copiesToItself = false)
    (parts : ∀ part ∈ message.parts, Carries hidden base heap part ∨
      ∃ copy ∈ message.copies, part = .plain copy) : Carries hidden base heap message := by
  constructor
  · intro ref mentions
    cases mentions with
    | own member => exact ⟨(made ref (only ref member)).1.2, Or.inl (.own (only ref member))⟩
    | part member inner =>
        rcases parts _ member with carries | ⟨copy, isCopy, same⟩
        · have known := carries.mentions ref inner
          exact ⟨known.1, known.2.imp_left (.part member)⟩
        · rw [same] at inner
          rw [mentions_plain inner]
          exact ⟨(made copy isCopy).1.2, Or.inl (.own isCopy)⟩
  · intro ref writes
    cases writes with
    | own member => exact ⟨(made ref member).1.1, (made ref member).2⟩
    | part member inner =>
        rcases parts _ member with carries | ⟨copy, _, same⟩
        · exact carries.writes ref inner
        · rw [same] at inner
          exact (writes_plain inner).elim

end Carries

/-! ### Conversions -/

/-- A heap in which a conversion can begin or go on. Everything from the base on is hidden. -/
structure Guarded (hidden : Ref → Prop) (base : Nat) (heap : Heap) : Prop where
  closed : heap.Closed hidden
  bare : heap.Bare
  size : base ≤ heap.size

/-- The message that a value was converted to. If it is plain, the value is frozen. -/
structure Handed (hidden : Ref → Prop) (base height : Nat) (before : ConvertState) (ref : Ref)
    (message : Message) (after : ConvertState) : Prop where
  surveyed : Heap.Surveyed hidden before.heap after.heap
  carries : Carries hidden base after.heap message
  frozen : ∀ value, message = .plain value → value = ref ∧ after.heap.Frozen height ref

structure HandedAll (hidden : Ref → Prop) (base height : Nat) (before : ConvertState)
    (refs : List Ref) (messages : List Message) (after : ConvertState) : Prop where
  surveyed : Heap.Surveyed hidden before.heap after.heap
  carries : ∀ message ∈ messages, Carries hidden base after.heap message
  frozen : allPlain messages refs = true → ∀ ref ∈ refs, after.heap.Frozen height ref

/-- A function converts every public value, or fails and leaves the heap in order. -/
def Conveys (hidden : Ref → Prop) (base height : Nat) (convert : Ref → Converting Message) : Prop :=
  ∀ before ref, Guarded hidden base before.heap → before.heap.Public hidden ref →
    Ends (convert ref) before (Handed hidden base height before ref)
      (fun _ after => Heap.Surveyed hidden before.heap after.heap)

section Conversions

variable {hidden : Ref → Prop} {base height : Nat} {context : Context}
  {convert : Ref → Converting Message} {before middle after : ConvertState} {ref : Ref}

theorem Guarded.later {heap heap' : Heap} (guarded : Guarded hidden base heap)
    (surveyed : Heap.Surveyed hidden heap heap') : Guarded hidden base heap' :=
  ⟨surveyed.upholds.closed guarded.closed, surveyed.bare guarded.bare,
    Nat.le_trans guarded.size surveyed.upholds.size⟩

theorem HandedAll.nil (before : ConvertState) :
    HandedAll hidden base height before [] [] before := by
  constructor
  · exact .refl hidden before.heap
  · intro message impossible
    cases impossible
  · intro _ ref impossible
    cases impossible

theorem HandedAll.cons {refs : List Ref} {message : Message} {messages : List Message}
    (guarded : Guarded hidden base before.heap)
    (first : Handed hidden base height before ref message middle)
    (second : HandedAll hidden base height middle refs messages after) :
    HandedAll hidden base height before (ref :: refs) (message :: messages) after := by
  constructor
  · exact first.surveyed.trans second.surveyed
  · intro other member
    rcases List.mem_cons.mp member with same | rest
    · rw [same]
      exact first.carries.later second.surveyed
    · exact second.carries other rest
  · intro plain other member
    simp only [allPlain, List.zipWith_cons_cons, List.all_cons, id_eq, Bool.and_eq_true] at plain
    rcases List.mem_cons.mp member with same | rest
    · have isPlain := isPlain_iff.mp plain.1
      rw [same]
      exact second.surveyed.frozen (guarded.later first.surveyed).bare
        (first.frozen ref isPlain).2
    · exact second.frozen plain.2 other rest

section Lists

variable (conveys : Conveys hidden base height convert)

include conveys

theorem handed_convertAll (refs : List Ref) (before : ConvertState)
    (guarded : Guarded hidden base before.heap)
    (isPublic : ∀ ref ∈ refs, before.heap.Public hidden ref) :
    Ends (convertAll convert refs) before (HandedAll hidden base height before refs)
      (fun _ after => Heap.Surveyed hidden before.heap after.heap) := by
  induction refs generalizing before with
  | nil => exact Ends.pure (.nil before)
  | cons ref rest ih =>
      apply Ends.bind
      apply (conveys before ref guarded (isPublic ref List.mem_cons_self)).mono _
        fun _ _ surveyed => surveyed
      intro message middle first
      apply Ends.bind
      apply (ih middle (guarded.later first.surveyed) _).mono
      · intro messages after second
        exact Ends.pure (.cons guarded first second)
      · intro _ _ surveyed
        exact first.surveyed.trans surveyed
      · intro other member
        exact (isPublic other (List.mem_cons_of_mem _ member)).later first.surveyed.upholds.size

theorem handed_convertEntries (entries : List (String × Ref)) (before : ConvertState)
    (guarded : Guarded hidden base before.heap)
    (isPublic : ∀ ref ∈ entries.map Prod.snd, before.heap.Public hidden ref) :
    Ends (convertEntries convert entries) before
      (fun messages => HandedAll hidden base height before (entries.map Prod.snd)
        (messages.map Prod.snd))
      (fun _ after => Heap.Surveyed hidden before.heap after.heap) := by
  induction entries generalizing before with
  | nil => exact Ends.pure (.nil before)
  | cons entry rest ih =>
      obtain ⟨name, ref⟩ := entry
      apply Ends.bind
      apply (conveys before ref guarded (isPublic ref List.mem_cons_self)).mono _
        fun _ _ surveyed => surveyed
      intro message middle first
      apply Ends.bind
      apply (ih middle (guarded.later first.surveyed) _).mono
      · intro messages after second
        exact Ends.pure (.cons guarded first second)
      · intro _ _ surveyed
        exact first.surveyed.trans surveyed
      · intro other member
        exact (isPublic other (List.mem_cons_of_mem _ member)).later first.surveyed.upholds.size

theorem handed_convertAttributes (attributes : Option Attributes) (before : ConvertState)
    (guarded : Guarded hidden base before.heap)
    (isPublic : ∀ ref ∈ (attributeEntries attributes).map Prod.snd,
      before.heap.Public hidden ref) :
    Ends (convertAttributes convert attributes) before
      (fun messages after => messages.isSome = attributes.isSome ∧
        HandedAll hidden base height before ((attributeEntries attributes).map Prod.snd)
          ((messages.getD []).map Prod.snd) after)
      (fun _ after => Heap.Surveyed hidden before.heap after.heap) := by
  cases attributes with
  | none => exact Ends.pure ⟨rfl, .nil before⟩
  | some mapping =>
      apply Ends.bind
      apply (handed_convertEntries conveys mapping.entries before guarded isPublic).mono _
        fun _ _ surveyed => surveyed
      intro messages after handed
      exact Ends.pure ⟨rfl, handed⟩

theorem handed_convertOptional (optional : Option Ref) (before : ConvertState)
    (guarded : Guarded hidden base before.heap)
    (isPublic : ∀ ref ∈ optional.toList, before.heap.Public hidden ref) :
    Ends (convertOptional convert optional) before
      (fun message => HandedAll hidden base height before optional.toList message.toList)
      (fun _ after => Heap.Surveyed hidden before.heap after.heap) := by
  cases optional with
  | none => exact Ends.pure (.nil before)
  | some ref =>
      apply Ends.map
      apply (conveys before ref guarded (isPublic ref List.mem_cons_self)).mono _
        fun _ _ surveyed => surveyed
      intro message after first
      exact .cons guarded first (.nil after)

end Lists

theorem HandedAll.attributes {messages : Option MessageAttributes} {attributes : Option Attributes}
    (handed : HandedAll hidden base height before ((attributeEntries attributes).map Prod.snd)
      ((messages.getD []).map Prod.snd) after)
    (present : messages.isSome = attributes.isSome)
    (plain : attributesPlain messages attributes = true) :
    ∀ ref ∈ (attributeEntries attributes).map Prod.snd, after.heap.Frozen height ref := by
  apply handed.frozen
  cases messages with
  | none =>
      cases attributes with
      | none => rfl
      | some => cases present
  | some entries =>
      cases attributes with
      | none => cases present
      | some mapping => exact plain

/-- A shared object is frozen when its parts are, one step less high. -/
theorem frozen_of_parts {heap : Heap} {body : Body} {attributes : Option Attributes}
    (shared : heap.isShared ref = true) (content : heap.body ref = body)
    (data : body.isData = true) (attached : heap.attributes ref = attributes)
    (parts : ∀ child ∈ body.children, heap.Frozen height child)
    (values : ∀ child ∈ (attributeEntries attributes).map Prod.snd, heap.Frozen height child) :
    heap.Frozen (height + 1) ref := by
  subst content attached
  refine ⟨⟨shared, data⟩, ?_⟩
  intro child member
  rcases List.mem_append.mp member with part | value
  · exact parts child part
  · exact values child value

theorem isShared_makeShared {heap heap' : Heap} (inside : ref.index < heap.size)
    (shareable : (heap.body ref).isShareable = true) (data : (heap.body ref).isData = true)
    (surveyed : Heap.Surveyed hidden (heap.makeShared ref).2 heap') :
    heap'.isShared ref = true := by
  have marked := heap.get_makeShared_same inside shareable
  have sharedData : (heap.makeShared ref).2.SharedData ref := by
    unfold Heap.SharedData Heap.isShared Heap.body
    rw [marked]
    exact ⟨rfl, data⟩
  exact (surveyed.upholds.same ref sharedData id).shared

theorem made_bareCopy {heap : Heap} (size : base ≤ heap.size)
    (data : (heap.body ref).isData = true) (copies : (heap.body ref).copiesToItself = false) :
    (base ≤ (heap.bareCopy ref).1.index ∧
        (heap.bareCopy ref).1.index < (heap.bareCopy ref).2.size) ∧
      ((heap.bareCopy ref).2.body (heap.bareCopy ref).1).isData = true ∧
      ((heap.bareCopy ref).2.body (heap.bareCopy ref).1).copiesToItself = false := by
  have content := congrArg Object.body (heap.get_alloc_new (heap.body ref))
  have body : (heap.alloc (heap.body ref)).2.body (heap.alloc (heap.body ref)).1 =
      heap.body ref := content
  rw [heap.bareCopy_alloc copies, body]
  exact ⟨⟨size, heap.inside_alloc _⟩, data, copies⟩

theorem handed_parts {message : Message} (surveyed : Heap.Surveyed hidden before.heap after.heap)
    (own : message.own = []) (copies : message.copies = [])
    (parts : ∀ part ∈ message.parts, Carries hidden base after.heap part) :
    Handed hidden base height before ref message after := by
  refine ⟨surveyed, .of_parts ?_ ?_ fun part member => Or.inl (parts part member), ?_⟩
  · intro other member
    rw [own] at member
    cases member
  · intro other member
    rw [copies] at member
    cases member
  · intro value same
    rw [same] at own
    cases own

section Values

variable (conveys : Conveys hidden base height convert)
  (guarded : Guarded hidden base before.heap)

include conveys guarded

theorem handed_convertList (isPublic : before.heap.Public hidden ref) {items : List Ref}
    (body : before.heap.body ref = .list items) :
    Ends (convertList convert ref items) before (Handed hidden base (height + 1) before ref)
      (fun _ after => Heap.Surveyed hidden before.heap after.heap) := by
  unfold convertList
  apply Ends.bind
  apply (handed_convertAll conveys items before guarded _).mono _ fun _ _ surveyed => surveyed
  · intro child member
    apply guarded.closed.body ref
    rw [body]
    exact member
  intro messages filled first
  have here := isPublic.later first.surveyed.upholds.size
  have filledBody := (first.surveyed.body ref isPublic.1).trans body
  apply Ends.bind
  apply ends_heap
  apply Ends.bind
  apply (handed_convertAttributes conveys (filled.heap.attributes ref) filled
    (guarded.later first.surveyed) fun child member =>
      (guarded.later first.surveyed).closed.attributes ref member).mono _
    fun _ _ surveyed => first.surveyed.trans surveyed
  rintro converted done ⟨present, second⟩
  have both := first.surveyed.trans second.surveyed
  have later := guarded.later both
  have inside := (here.later second.surveyed.upholds.size).1
  have doneBody := (second.surveyed.body ref here.1).trans filledBody
  -- If no part was converted the list is marked and handed over whole; otherwise the message takes
  -- a copy that nobody else has.
  split
  · rename_i plain
    obtain ⟨plainItems, plainValues⟩ := (Bool.and_eq_true _ _).mp plain
    apply Ends.bind
    apply ends_onHeap
    apply Ends.pure
    have marked := Heap.Surveyed.makeShared hidden done.heap ref
    have whole := both.trans marked
    refine ⟨whole, .plain (isPublic.later whole.upholds.size), ?_⟩
    intro value same
    cases same
    have attributes := (marked.attributes ref inside (by rw [doneBody]; rfl)).trans
      (second.surveyed.attributes ref here.1 (by rw [filledBody]; rfl))
    refine ⟨rfl, frozen_of_parts ?_ ((marked.body ref inside).trans doneBody) rfl attributes ?_ ?_⟩
    · exact isShared_makeShared inside (by rw [doneBody]; rfl) (by rw [doneBody]; rfl)
        (.refl hidden _)
    · intro child member
      have early := first.frozen plainItems child member
      exact (second.surveyed.trans marked).frozen (guarded.later first.surveyed).bare early
    · intro child member
      exact marked.frozen later.bare (second.attributes present plainValues child member)
  · apply Ends.bind
    apply ends_onHeap
    apply Ends.pure
    have copied := Heap.Surveyed.bareCopy hidden done.heap ref
    have data : (done.heap.body ref).isData = true := by
      rw [doneBody]
      rfl
    have made := made_bareCopy later.size data (by rw [doneBody]; rfl)
    refine ⟨both.trans copied, .of_parts (fun _ => id) ?_ ?_, fun _ impossible => nomatch impossible⟩
    · intro shell member
      rw [List.mem_singleton.mp member]
      exact made
    · intro part member
      rcases List.mem_append.mp member with item | value
      · exact Or.inl ((first.carries part item).later (second.surveyed.trans copied))
      · exact Or.inl ((second.carries part value).later copied)

theorem handed_convertPlain (isPublic : before.heap.Public hidden ref)
    (isPlain : (before.heap.body ref).isPlain = true) :
    Ends (convertPlain convert ref) before (Handed hidden base (height + 1) before ref)
      (fun _ after => Heap.Surveyed hidden before.heap after.heap) := by
  have shareable := Body.isShareable_of_isPlain isPlain
  have data := Body.isData_of_isPlain isPlain
  have parts := Body.children_of_isPlain isPlain
  unfold convertPlain
  apply Ends.bind
  apply ends_onHeap
  have marked := Heap.Surveyed.makeShared hidden before.heap ref
  have there := isPublic.later marked.upholds.size
  have markedBody := marked.body ref isPublic.1
  apply Ends.bind
  apply ends_heap
  apply Ends.bind
  have guarded' := guarded.later marked
  apply (handed_convertAttributes conveys ((before.heap.makeShared ref).2.attributes ref) _
    guarded' fun child member => guarded'.closed.attributes ref member).mono _
    fun _ _ surveyed => marked.trans surveyed
  intro converted done second
  obtain ⟨present, second⟩ := second
  have both := marked.trans second.surveyed
  have doneBody := both.body ref isPublic.1
  have attributes := second.surveyed.attributes ref there.1 (by rw [markedBody]; exact data)
  have handed (plain : attributesPlain converted
      ((before.heap.makeShared ref).2.attributes ref) = true) :
      Handed hidden base (height + 1) before ref (.plain ref) done := by
    refine ⟨both, .plain (isPublic.later both.upholds.size), ?_⟩
    intro value same
    cases same
    refine ⟨rfl, frozen_of_parts ?_ doneBody data attributes ?_ ?_⟩
    · exact isShared_makeShared isPublic.1 shareable data second.surveyed
    · rw [parts]
      exact fun _ member => nomatch member
    · exact second.attributes present plain
  cases converted with
  | none => exact Ends.pure (handed rfl)
  | some converted =>
      dsimp only
      split
      · rename_i plain
        exact Ends.pure (handed plain)
      · apply Ends.bind
        apply ends_onHeap
        apply Ends.pure
        -- A singleton has no attributes that could have been converted.
        have copies : (before.heap.body ref).copiesToItself = false := by
          refine Bool.eq_false_iff.mpr ?_
          intro itself
          have none := guarded.bare ref (Body.isSingleton_of_isData data itself)
          rw [marked.attributes ref isPublic.1 data, none] at present
          cases present
        have copied := Heap.Surveyed.bareCopy hidden done.heap ref
        rw [← doneBody] at data copies
        have made := made_bareCopy (guarded.later both).size data copies
        refine ⟨both.trans copied, .of_parts (fun _ impossible => nomatch impossible) ?_ ?_, ?_⟩
        · intro base member
          rw [List.mem_singleton.mp member]
          exact made
        · intro part member
          rcases List.mem_cons.mp member with same | value
          · exact Or.inr ⟨_, List.mem_cons_self, same⟩
          · exact Or.inl ((second.carries part value).later copied)
        · intro value impossible
          cases impossible

theorem handed_convertEnvironment {frame : Frame}
    (body : before.heap.body ref = .environment frame) :
    Ends (convertEnvironment convert ref frame) before
      (Handed hidden base (height + 1) before ref)
      (fun _ after => Heap.Surveyed hidden before.heap after.heap) := by
  unfold convertEnvironment
  apply Ends.bind
  apply Ends.get
  dsimp only
  cases before.environments.idxOf? ref with
  | some index =>
      apply Ends.pure
      exact handed_parts (.refl _ _) rfl rfl
        fun _ member => nomatch member
  | none =>
      have inFrame {child : Ref} (member : child ∈ (Body.environment frame).children) :
          before.heap.Public hidden child := by
        rw [← body] at member
        exact guarded.closed.body ref member
      apply Ends.bind
      apply Ends.modifyGet
      apply Ends.bind
      apply (handed_convertEntries conveys frame.bindings.entries
        { before with environments := before.environments ++ [ref] } guarded
        fun child member => inFrame (List.mem_append_left _ member)).mono _
        fun _ _ surveyed => surveyed
      intro bindings bound first
      apply Ends.bind
      apply (handed_convertOptional conveys frame.parent bound (guarded.later first.surveyed)
        fun child member => (inFrame (List.mem_append_right _ member)).later
          first.surveyed.upholds.size).mono _ fun _ _ surveyed => first.surveyed.trans surveyed
      intro parent enclosed second
      have both := first.surveyed.trans second.surveyed
      apply Ends.bind
      apply ends_heap
      apply Ends.bind
      apply (handed_convertAttributes conveys (enclosed.heap.attributes ref) enclosed
        (guarded.later both) fun child member =>
          (guarded.later both).closed.attributes ref member).mono _
        fun _ _ surveyed => both.trans surveyed
      intro attributes done third
      apply Ends.pure
      have whole : Heap.Surveyed hidden before.heap done.heap := both.trans third.2.surveyed
      apply handed_parts whole rfl rfl
      intro part member
      rcases List.mem_append.mp member with binding | rest
      · exact (first.carries part binding).later (second.surveyed.trans third.2.surveyed)
      · rcases List.mem_append.mp rest with enclosing | value
        · exact (second.carries part enclosing).later third.2.surveyed
        · exact third.2.carries part value

theorem handed_convertPromise {delayed : Promise}
    (body : before.heap.body ref = .promise delayed)
    (global : before.heap.Public hidden context.environments.global) :
    Ends (convertPromise context convert delayed) before
      (Handed hidden base (height + 1) before ref)
      (fun _ after => Heap.Surveyed hidden before.heap after.heap) := by
  have inPromise {child : Ref} (member : child ∈ (Body.promise delayed).children) :
      before.heap.Public hidden child := by
    rw [← body] at member
    exact guarded.closed.body ref member
  unfold convertPromise
  split
  · exact Ends.throw (.refl _ _)
  · split
    · rename_i value has
      apply Ends.bind
      apply (conveys before value guarded (inPromise (by simp [Body.children, has]))).mono _
        fun _ _ surveyed => surveyed
      intro message after handed
      apply Ends.pure
      apply handed_parts handed.surveyed rfl rfl
      intro part member
      rw [List.mem_singleton.mp member]
      exact handed.carries
    · apply Ends.bind
      have around : before.heap.Public hidden
          (delayed.env.getD context.environments.global) := by
        cases env : delayed.env with
        | none => exact global
        | some env' => exact inPromise (by simp [Body.children, env])
      apply (conveys before _ guarded around).mono _ fun _ _ surveyed => surveyed
      intro message after handed
      apply Ends.pure
      apply handed_parts handed.surveyed rfl rfl
      intro part member
      rw [List.mem_singleton.mp member]
      exact handed.carries

theorem handed_convertEncoded (isEncoded : (before.heap.body ref).isEncoded = true) :
    Ends (convertEncoded context convert ref) before
      (Handed hidden base (height + 1) before ref)
      (fun _ after => Heap.Surveyed hidden before.heap after.heap) := by
  unfold convertEncoded
  apply Ends.bind
  apply ends_heap
  apply Ends.bind
  apply ends_onHeap
  have written := Heap.Surveyed.blobOf hidden context.codec before.heap isEncoded
  split
  · exact Ends.throw written
  · exact Ends.throw written
  · apply Ends.bind
    have guarded' := guarded.later written
    apply (handed_convertAttributes conveys (before.heap.attributes ref) _ guarded'
      fun child member => (guarded.closed.attributes ref member).later
        written.upholds.size).mono _ fun _ _ surveyed => written.trans surveyed
    intro attributes done handed
    apply Ends.pure
    exact handed_parts (written.trans handed.2.surveyed) rfl rfl
      handed.2.carries

end Values

/-- Every conversion hands over what is frozen, and mentions what is public or its own. -/
theorem conveys_within (context : Context) (global : context.environments.global.index < base)
    (shown : ¬hidden context.environments.global) (depth : Nat) :
    Conveys hidden base depth (convertWithin context depth) := by
  induction depth with
  | zero =>
      intro before ref _ _
      exact Ends.throw (.refl _ _)
  | succ depth ih =>
      intro before ref guarded isPublic
      unfold convertWithin
      apply Ends.bind
      apply ends_heap
      split
      · rename_i items body
        exact handed_convertList ih guarded isPublic body
      · rename_i frame body
        split
        · exact handed_convertEnvironment ih guarded body
        · rename_i named
          apply handed_convertEncoded ih guarded
          rw [body]
          simp [Body.isEncoded, named]
      · rename_i delayed body
        exact handed_convertPromise ih guarded body
          ⟨Nat.lt_of_lt_of_le global guarded.size, shown⟩
      · rename_i closure body
        exact handed_convertEncoded ih guarded (by rw [body]; rfl)
      · rename_i expr body
        exact handed_convertEncoded ih guarded (by rw [body]; rfl)
      · rename_i connection body
        exact handed_convertEncoded ih guarded (by rw [body]; rfl)
      · rename_i body
        exact handed_convertPlain ih guarded isPublic (by rw [body]; rfl)
      · rename_i body
        exact handed_convertPlain ih guarded isPublic (by rw [body]; rfl)
      · rename_i data body
        exact handed_convertPlain ih guarded isPublic (by rw [body]; rfl)

/-- What the conversion of a value as a whole comes to. -/
theorem handed_ofValue {heap sent : Heap} {outcome : Except ChannelError Message}
    (guarded : Guarded hidden base heap) (isPublic : heap.Public hidden ref)
    (global : context.environments.global.index < base)
    (shown : ¬hidden context.environments.global)
    (converted : ofValue context heap ref = (outcome, sent)) :
    Heap.Surveyed hidden heap sent ∧ ∀ message, outcome = .ok message →
      Carries hidden base sent message ∧
        ∀ value, message = .plain value → value = ref ∧ sent.Frozen (Node.depthBound heap) ref := by
  have conveys := conveys_within context global shown (Node.depthBound heap)
    { heap, environments := [] } ref guarded isPublic
  unfold ofValue at converted
  unfold Ends at conveys
  split at converted
  · rename_i message after ended
    rw [ended] at conveys
    cases converted
    refine ⟨conveys.surveyed, ?_⟩
    intro other same
    cases same
    exact ⟨conveys.carries, conveys.frozen⟩
  · rename_i reason after ended
    rw [ended] at conveys
    cases converted
    exact ⟨conveys, fun _ impossible => nomatch impossible⟩

end Conversions

/-! ### Conversions of frozen values -/

section Frozen

variable {state : ConvertState} {convert : Ref → Converting Message} {context : Context}

theorem convertAll_frozen {refs : List Ref}
    (each : ∀ ref ∈ refs, convert ref state = .ok (.plain ref) state) :
    convertAll convert refs state = .ok (refs.map .plain) state := by
  induction refs with
  | nil => rfl
  | cons ref rest ih =>
      have here := each ref List.mem_cons_self
      have later := ih fun other member => each other (List.mem_cons_of_mem _ member)
      simp only [convertAll, bind, EStateM.bind, here, later]
      rfl

theorem convertEntries_frozen {entries : List (String × Ref)}
    (each : ∀ ref ∈ entries.map Prod.snd, convert ref state = .ok (.plain ref) state) :
    convertEntries convert entries state =
      .ok (entries.map fun entry => (entry.1, .plain entry.2)) state := by
  induction entries with
  | nil => rfl
  | cons entry rest ih =>
      obtain ⟨name, ref⟩ := entry
      have here := each ref List.mem_cons_self
      have later := ih fun other member => each other (List.mem_cons_of_mem _ member)
      simp only [convertEntries, bind, EStateM.bind, here, later]
      rfl

theorem allPlain_frozen (refs : List Ref) : allPlain (refs.map .plain) refs = true :=
  (allPlain_iff (List.length_map ..)).mpr rfl

theorem mark_frozen {ref : Ref} (shared : state.heap.isShared ref = true) :
    Converting.onHeap (fun heap => heap.makeShared ref) state =
      .ok (state.heap.makeShared ref).1 state := by
  have marked : Converting.onHeap (fun heap => heap.makeShared ref) state =
      .ok (state.heap.makeShared ref).1 { state with heap := (state.heap.makeShared ref).2 } := rfl
  rw [marked, Heap.makeShared_shared shared]

theorem convertAttributes_frozen {attributes : Option Attributes}
    (each : ∀ ref ∈ (attributeEntries attributes).map Prod.snd,
      convert ref state = .ok (.plain ref) state) :
    ∃ messages, convertAttributes convert attributes state = .ok messages state ∧
      attributesPlain messages attributes = true := by
  cases attributes with
  | none => exact ⟨none, rfl, rfl⟩
  | some mapping =>
      refine ⟨some (mapping.entries.map fun entry => (entry.1, .plain entry.2)), ?_, ?_⟩
      · have entries : convertEntries convert mapping.entries state = _ :=
          convertEntries_frozen each
        simp only [convertAttributes, bind, EStateM.bind, entries]
        rfl
      · have same : (mapping.entries.map fun entry => (entry.1, Message.plain entry.2)).map
            Prod.snd = (mapping.entries.map Prod.snd).map .plain := by
          simp only [List.map_map]
          rfl
        rw [attributesPlain, same]
        exact allPlain_frozen _

theorem convertList_frozen {ref : Ref} {items : List Ref} (shared : state.heap.isShared ref = true)
    (elements : ∀ child ∈ items, convert child state = .ok (.plain child) state)
    (values : ∀ child ∈ (attributeEntries (state.heap.attributes ref)).map Prod.snd,
      convert child state = .ok (.plain child) state) :
    convertList convert ref items state = .ok (.plain ref) state := by
  obtain ⟨messages, converted, plain⟩ := convertAttributes_frozen values
  have heap : Converting.heap state = .ok state.heap state := rfl
  have mark := mark_frozen shared
  simp only [convertList, bind, EStateM.bind, convertAll_frozen elements, heap, converted, plain,
    allPlain_frozen, Bool.and_self, if_true, mark]
  rfl

theorem convertPlain_frozen {ref : Ref} (shared : state.heap.isShared ref = true)
    (values : ∀ child ∈ (attributeEntries (state.heap.attributes ref)).map Prod.snd,
      convert child state = .ok (.plain child) state) :
    convertPlain convert ref state = .ok (.plain ref) state := by
  obtain ⟨messages, converted, plain⟩ := convertAttributes_frozen values
  have heap : Converting.heap state = .ok state.heap state := rfl
  have mark := mark_frozen shared
  simp only [convertPlain, bind, EStateM.bind, heap, mark, converted]
  cases messages with
  | none => rfl
  | some entries =>
      simp only [plain, if_true]
      rfl

/-- A frozen value is handed over as it is, and nothing changes. -/
theorem convertWithin_frozen {depth : Nat} {ref : Ref} (frozen : state.heap.Frozen depth ref) :
    convertWithin context depth ref state = .ok (.plain ref) state := by
  induction depth generalizing ref with
  | zero => cases frozen
  | succ depth ih =>
      have shared := frozen.1.1
      have data := frozen.1.2
      have values : ∀ child ∈ (attributeEntries (state.heap.attributes ref)).map Prod.snd,
          convertWithin context depth child state = .ok (.plain child) state :=
        fun child member => ih (frozen.2 child (List.mem_append_right _ member))
      have heap : Converting.heap state = .ok state.heap state := rfl
      simp only [convertWithin, bind, EStateM.bind, heap]
      cases body : state.heap.body ref with
      | list items =>
          apply convertList_frozen shared _ values
          intro child member
          apply ih
          apply frozen.2 child
          apply List.mem_append_left
          have content : (state.heap.get ref).body = .list items := body
          rw [content]
          exact member
      | null => exact convertPlain_frozen shared values
      | unbound => exact convertPlain_frozen shared values
      | vector => exact convertPlain_frozen shared values
      | _ =>
          rw [body] at data
          cases data

theorem ofValue_frozen {heap : Heap} {height : Nat} {ref : Ref} (context : Context)
    (frozen : heap.Frozen height ref) (room : height ≤ Node.depthBound heap) :
    ofValue context heap ref = (.ok (.plain ref), heap) := by
  have deep : ({ heap, environments := [] } : ConvertState).heap.Frozen (Node.depthBound heap) ref :=
    frozen.mono room
  rw [ofValue, convertWithin_frozen deep]

end Frozen

end Message

end ValueChannels
