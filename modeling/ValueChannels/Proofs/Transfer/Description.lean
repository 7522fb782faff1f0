import ValueChannels.Message.OfValue
import ValueChannels.Proofs.Heap.Paths
import ValueChannels.Proofs.Transfer.Rebuilding

/-!
What a message says about a value. A description follows the order of the conversion: each part
of a message describes a part of the value, from the stage where the part before it ended, and
the private copies that belong to a part were made during it. Main statements: the induction
over messages, that stages only advance, and `Describes.comprises`, what the parts of a message
describe.
-/

namespace ValueChannels

/-! ### Induction over messages -/

namespace Message

/-- The messages that a message holds, in the order in which they are built. -/
def parts : Message → List Message
  | .plain _ => []
  | .list _ items attributes => items ++ (attributes.getD []).map Prod.snd
  | .environment _ bindings parent attributes =>
      bindings.map Prod.snd ++ (parent.toList ++ (attributes.getD []).map Prod.snd)
  | .environmentRef _ => []
  | .promise env value _ => env.toList ++ value.toList
  | .encoded _ _ attributes => (attributes.getD []).map Prod.snd
  | .attributed base attributes => base :: attributes.map Prod.snd

/-- The number that a message gives to the environment that it describes itself. -/
def number? : Message → Option UInt32
  | .environment id _ _ _ => some id
  | _ => none

/-- The number of the environment that a message refers to. -/
def refers? : Message → Option UInt32
  | .environmentRef id => some id
  | _ => none

section Induct

set_option linter.unusedSectionVars false

variable {motive : Message → Prop}
  (step : ∀ message : Message, (∀ part ∈ message.parts, motive part) → motive message)

include step

mutual

/-- What holds of a message when it holds of its parts holds of every message. -/
theorem induct : ∀ message : Message, motive message
  | .plain value => step (.plain value) fun _ member => nomatch member
  | .list shell items attributes => by
      refine step (.list shell items attributes) ?_
      intro part member
      rcases List.mem_append.mp member with item | value
      · exact inductAll items part item
      · exact inductAttributes attributes part value
  | .environment id bindings parent attributes => by
      refine step (.environment id bindings parent attributes) ?_
      intro part member
      rcases List.mem_append.mp member with bound | rest
      · exact inductEntries bindings part bound
      · rcases List.mem_append.mp rest with enclosing | value
        · exact inductOptional parent part enclosing
        · exact inductAttributes attributes part value
  | .environmentRef id => step (.environmentRef id) fun _ member => nomatch member
  | .promise env value expr => by
      refine step (.promise env value expr) ?_
      intro part member
      rcases List.mem_append.mp member with ofEnv | ofValue
      · exact inductOptional env part ofEnv
      · exact inductOptional value part ofValue
  | .encoded kind blob attributes =>
      step (.encoded kind blob attributes) (inductAttributes attributes)
  | .attributed base attributes => by
      refine step (.attributed base attributes) ?_
      intro part member
      rcases List.mem_cons.mp member with same | value
      · rw [same]
        exact induct base
      · exact inductEntries attributes part value

theorem inductAll : ∀ (items : List Message), ∀ part ∈ items, motive part
  | [] => fun _ member => nomatch member
  | first :: rest => by
      intro part member
      rcases List.mem_cons.mp member with same | later
      · rw [same]
        exact induct first
      · exact inductAll rest part later

theorem inductEntries : ∀ (entries : List (String × Message)),
    ∀ part ∈ entries.map Prod.snd, motive part
  | [] => fun _ member => nomatch member
  | (name, message) :: rest => by
      intro part member
      rcases List.mem_cons.mp member with same | later
      · rw [same]
        exact induct message
      · exact inductEntries rest part later

theorem inductOptional : ∀ (optional : Option Message), ∀ part ∈ optional.toList, motive part
  | none => fun _ member => nomatch member
  | some held => by
      intro part member
      rw [List.mem_singleton.mp member]
      exact induct held

theorem inductAttributes : ∀ (attributes : Option (List (String × Message))),
    ∀ part ∈ (attributes.getD []).map Prod.snd, motive part
  | none => fun _ member => nomatch member
  | some entries => inductEntries entries

end

end Induct

end Message

/-! ### Descriptions -/

/-- Whether values with this body are handed over, with their attributes apart from them. -/
def Body.isPlain : Body → Bool
  | .null | .unbound | .vector _ => true
  | _ => false

namespace Body

variable {body : Body}

theorem isData_of_isPlain (isPlain : body.isPlain = true) : body.isData = true := by
  cases body <;> first | rfl | cases isPlain

theorem isShareable_of_isPlain (isPlain : body.isPlain = true) : body.isShareable = true := by
  cases body <;> first | rfl | cases isPlain

theorem children_of_isPlain (isPlain : body.isPlain = true) : body.children = [] := by
  cases body <;> first | rfl | cases isPlain

theorem edges_of_isPlain (global : Ref) (isPlain : body.isPlain = true) :
    body.edges global = [] ∧ body.isPromise = false := by
  cases body <;> first | exact ⟨rfl, rfl⟩ | cases isPlain

theorem edges_of_isEncoded (global : Ref) (encoded : body.isEncoded = true) :
    body.edges global = [] ∧ body.isPromise = false := by
  cases body with
  | environment frame =>
      have named : ¬frame.kind.isLocal = true := by simpa [isEncoded] using encoded
      exact ⟨if_neg named, rfl⟩
  | closure | language | connection => exact ⟨rfl, rfl⟩
  | _ => cases encoded

end Body

/-- The later heap holds a value without its attributes: in place, or as a bare copy of an object
that can be shared. Everything else that the earlier heap holds is as it was. -/
structure Heap.Detached (before : Heap) (ref : Ref) (after : Heap) (bare : Ref) : Prop where
  body : after.body bare = before.body ref
  attributes : after.attributes bare = none
  size : before.size ≤ after.size
  bodies : ∀ other, other.index < before.size → after.body other = before.body other
  others : ∀ other, other.index < before.size → other ≠ bare →
    after.attributes other = before.attributes other
  place : bare = ref ∨ before.size ≤ bare.index ∧ (before.body ref).isShareable = true

/-- A conversion as a whole: the context that sends, the heap before and after, and the local
environments in the order in which they were met. -/
structure Sending where
  context : Context
  origin : Heap
  final : Heap
  known : List Ref

namespace Sending

/-- The copy that was made of a value between two stages, which nobody else has: a new object with
the body of the value alone. A value that copies to itself stands for its copy. -/
def Copies (sending : Sending) (start : Stage) (ref copy : Ref) (stop : Stage) : Prop :=
  ((sending.origin.body ref).copiesToItself = true ∧ copy = ref ∧ stop = start) ∨
    (start.size ≤ copy.index ∧ copy.index < stop.size ∧ stop.known = start.known ∧
      sending.final.get copy = Object.fresh (sending.origin.body ref))

/-- A message describes a value, from one stage of the conversion to another. -/
inductive Describes (sending : Sending) : Stage → Message → Ref → Stage → Prop where
  | plain (stage : Stage) {ref : Ref} (inside : ref.index < sending.origin.size)
      (deep : sending.final.Deep ref) : Describes sending stage (.plain ref) ref stage
  | list {start filled done stop : Stage} {ref shell : Ref} {refs : List Ref}
      {items : List Message} {attributes : Option (List (String × Message))}
      (body : sending.origin.body ref = .list refs)
      (elements : Threads (Describes sending) start items refs filled)
      (present : attributes.isSome = (sending.origin.attributes ref).isSome)
      (names : (attributes.getD []).map Prod.fst =
        (attributeEntries (sending.origin.attributes ref)).map Prod.fst)
      (values : Threads (Describes sending) filled ((attributes.getD []).map Prod.snd)
        ((attributeEntries (sending.origin.attributes ref)).map Prod.snd) done)
      (copy : sending.Copies done ref shell stop) :
      Describes sending start (.list shell items attributes) ref stop
  | environment {start bound enclosed stop : Stage} {ref : Ref} {frame : Frame}
      {bindings : List (String × Message)} {parent : Option Message}
      {attributes : Option (List (String × Message))}
      (body : sending.origin.body ref = .environment frame)
      (isLocal : frame.kind.isLocal = true)
      (met : sending.known[start.known]? = some ref)
      (bindingNames : bindings.map Prod.fst = frame.bindings.names)
      (bindingValues : Threads (Describes sending) { start with known := start.known + 1 }
        (bindings.map Prod.snd) (frame.bindings.entries.map Prod.snd) bound)
      (enclosing : Threads (Describes sending) bound parent.toList frame.parent.toList enclosed)
      (present : attributes.isSome = (sending.origin.attributes ref).isSome)
      (names : (attributes.getD []).map Prod.fst =
        (attributeEntries (sending.origin.attributes ref)).map Prod.fst)
      (values : Threads (Describes sending) enclosed ((attributes.getD []).map Prod.snd)
        ((attributeEntries (sending.origin.attributes ref)).map Prod.snd) stop) :
      Describes sending start
        (.environment (UInt32.ofNat start.known) bindings parent attributes) ref stop
  | reference {stage : Stage} {ref : Ref} {index : Nat}
      (isLocal : (sending.origin.body ref).isLocal = true)
      (met : sending.known[index]? = some ref) (earlier : index < stage.known) :
      Describes sending stage (.environmentRef (UInt32.ofNat index)) ref stage
  | evaluated {start stop : Stage} {ref value : Ref} {delayed : Promise} {message : Message}
      {expr : Bytes}
      (body : sending.origin.body ref = .promise delayed)
      (written : sending.context.codec.serializeExpr delayed.expr = .ok expr)
      (has : delayed.value = some value)
      (content : Describes sending start message value stop) :
      Describes sending start (.promise none (some message) expr) ref stop
  | delayed {start stop : Stage} {ref : Ref} {delayed : Promise} {message : Message}
      {expr : Bytes}
      (body : sending.origin.body ref = .promise delayed)
      (written : sending.context.codec.serializeExpr delayed.expr = .ok expr)
      (has : delayed.value = none)
      (content : Describes sending start message
        (delayed.env.getD sending.context.environments.global) stop) :
      Describes sending start (.promise (some message) none expr) ref stop
  | encoded {start before stop : Stage} {ref bare : Ref} {heap : Heap} {blob : Bytes}
      {attributes : Option (List (String × Message))}
      (encoded : (sending.origin.body ref).isEncoded = true)
      (detached : sending.origin.Detached ref heap bare)
      (written : sending.context.codec.serialize heap bare = .ok blob)
      (copies : start.size ≤ before.size ∧ before.known = start.known)
      (present : attributes.isSome = (sending.origin.attributes ref).isSome)
      (names : (attributes.getD []).map Prod.fst =
        (attributeEntries (sending.origin.attributes ref)).map Prod.fst)
      (values : Threads (Describes sending) before ((attributes.getD []).map Prod.snd)
        ((attributeEntries (sending.origin.attributes ref)).map Prod.snd) stop) :
      Describes sending start (.encoded (sending.origin.kind ref) blob attributes) ref stop
  | attributed {start done stop : Stage} {ref base : Ref} {mapping : Attributes}
      {attributes : List (String × Message)}
      (isPlain : (sending.origin.body ref).isPlain = true)
      (has : sending.origin.attributes ref = some mapping)
      (names : attributes.map Prod.fst = mapping.names)
      (values : Threads (Describes sending) start (attributes.map Prod.snd)
        (mapping.entries.map Prod.snd) done)
      (copy : sending.Copies done ref base stop) :
      Describes sending start (.attributed (.plain base) attributes) ref stop

/-- The message describes the value as a whole: from the first local environment that is met to
the last one, and with all copies. -/
def Whole (sending : Sending) (message : Message) (ref : Ref) : Prop :=
  sending.Describes { known := 0, size := sending.origin.size } message ref
    { known := sending.known.length, size := sending.final.size }

/-! ### Stages only advance -/

variable {sending : Sending}

theorem Copies.upTo {start stop : Stage} {ref copy : Ref}
    (copies : sending.Copies start ref copy stop) : start.UpTo stop := by
  rcases copies with ⟨_, _, same⟩ | ⟨above, below, known, _⟩
  · rw [same]
    exact .refl start
  · exact ⟨Nat.le_of_eq known.symm, by omega⟩

theorem upTo_threads {start stop : Stage} {messages : List Message} {refs : List Ref}
    (threads : Threads sending.Describes start messages refs stop)
    (each : ∀ message ∈ messages, ∀ first ref second,
      sending.Describes first message ref second → first.UpTo second) : start.UpTo stop := by
  induction threads with
  | nil state => exact .refl state
  | cons head tail ih =>
      refine (each _ List.mem_cons_self _ _ _ head).trans (ih ?_)
      intro message member
      exact each message (List.mem_cons_of_mem _ member)

theorem Describes.upTo {start stop : Stage} {message : Message} {ref : Ref}
    (describes : sending.Describes start message ref stop) : start.UpTo stop := by
  induction message using Message.induct generalizing start ref stop with
  | step message ofParts =>
      cases describes with
      | plain => exact .refl start
      | list body elements present names values copy =>
          have first := upTo_threads elements fun part member _ _ _ =>
            ofParts part (List.mem_append_left _ member)
          have second := upTo_threads values fun part member _ _ _ =>
            ofParts part (List.mem_append_right _ member)
          exact (first.trans second).trans copy.upTo
      | environment body isLocal met bindingNames bindingValues enclosing present names values =>
          have entered : start.UpTo { start with known := start.known + 1 } :=
            ⟨Nat.le_succ _, Nat.le_refl _⟩
          have first := upTo_threads bindingValues fun part member _ _ _ =>
            ofParts part (List.mem_append_left _ member)
          have second := upTo_threads enclosing fun part member _ _ _ =>
            ofParts part (List.mem_append_right _ (List.mem_append_left _ member))
          have third := upTo_threads values fun part member _ _ _ =>
            ofParts part (List.mem_append_right _ (List.mem_append_right _ member))
          exact ((entered.trans first).trans second).trans third
      | reference => exact .refl start
      | evaluated body written has content =>
          exact ofParts _ (List.mem_append_right _ List.mem_cons_self) content
      | delayed body written has content =>
          exact ofParts _ (List.mem_append_left _ List.mem_cons_self) content
      | encoded encoded detached written copies present names values =>
          have first : start.UpTo _ := ⟨Nat.le_of_eq copies.2.symm, copies.1⟩
          exact first.trans (upTo_threads values fun part member _ _ _ => ofParts part member)
      | attributed isPlain has names values copy =>
          have first := upTo_threads values fun part member _ _ _ =>
            ofParts part (List.mem_cons_of_mem _ member)
          exact first.trans copy.upTo

theorem upTo_describes {start stop : Stage} {messages : List Message} {refs : List Ref}
    (threads : Threads sending.Describes start messages refs stop) : start.UpTo stop :=
  upTo_threads threads fun _ _ _ _ _ => Describes.upTo

/-! ### Parts -/

/-- What is converted along with a value by the context that sends it. -/
def conveyed (sending : Sending) (ref : Ref) : List Ref :=
  sending.origin.conveyed sending.context.environments.global ref

/-- What the conversion of a value goes on to, in order. -/
def converted (sending : Sending) (ref : Ref) : List Ref :=
  (sending.origin.converted sending.context.environments.global ref).map Prod.snd

theorem conveyed_of_converted {ref child : Ref} (member : child ∈ sending.converted ref) :
    child ∈ sending.conveyed ref :=
  Heap.conveyed_of_converted member

theorem converted_eq {ref : Ref} (other : (sending.origin.body ref).isPromise = false) :
    sending.converted ref =
      ((sending.origin.body ref).edges sending.context.environments.global).map Prod.snd ++
        (attributeEntries (sending.origin.attributes ref)).map Prod.snd := by
  rw [converted, Heap.converted_other other, Heap.carried, List.map_append,
    Heap.targets_attributeLinks]

/-- A message without a description: the value is handed over, or the message refers to it. -/
inductive Settled (sending : Sending) (start : Stage) : Message → Ref → Prop where
  | plain {ref : Ref} (deep : sending.final.Deep ref) : Settled sending start (.plain ref) ref
  | reference {ref : Ref} {index : Nat} (met : sending.known[index]? = some ref)
      (earlier : index < start.known) :
      Settled sending start (.environmentRef (UInt32.ofNat index)) ref

/-- The parts of a message describe, one after the other, what the conversion of the value goes on
to. A private copy that attributes are set apart from is no description of anything. -/
structure Comprises (sending : Sending) (start : Stage) (message : Message) (ref : Ref)
    (parts : List Message) (children : List Ref) (first last stop : Stage) : Prop where
  threads : Threads (Describes sending) first parts children last
  arranged : message.parts = parts ∨ ∃ copy, message.parts = .plain copy :: parts
  whole : message.refers? = none ∧ children = sending.converted ref ∨
    parts = [] ∧ sending.Settled start message ref
  finish : last.known = stop.known
  /-- Only a local environment is met by the message itself. -/
  begin : message.number? = none ∧ first.known = start.known ∨
    message.number? = some (UInt32.ofNat start.known) ∧ first.known = start.known + 1 ∧
      sending.known[start.known]? = some ref

theorem Copies.known {start stop : Stage} {ref copy : Ref}
    (copies : sending.Copies start ref copy stop) : start.known = stop.known := by
  rcases copies with ⟨_, _, same⟩ | ⟨_, _, known, _⟩
  · rw [same]
  · exact known.symm

theorem Describes.comprises {start stop : Stage} {message : Message} {ref : Ref}
    (describes : sending.Describes start message ref stop) :
    ∃ parts children first last,
      sending.Comprises start message ref parts children first last stop := by
  cases describes with
  | plain _ inside deep =>
      exact ⟨[], [], start, start, .nil _, Or.inl rfl, Or.inr ⟨rfl, .plain deep⟩, rfl,
        Or.inl ⟨rfl, rfl⟩⟩
  | reference isLocal met earlier =>
      exact ⟨[], [], start, start, .nil _, Or.inl rfl, Or.inr ⟨rfl, .reference met earlier⟩, rfl,
        Or.inl ⟨rfl, rfl⟩⟩
  | list body elements present names values copy =>
      refine ⟨_, _, _, _, elements.append values, Or.inl rfl, Or.inl ⟨rfl, ?_⟩, copy.known,
        Or.inl ⟨rfl, rfl⟩⟩
      rw [converted_eq (by rw [body]; rfl), body, Heap.targets_list]
  | environment body isLocal met bindingNames bindingValues enclosing present names values =>
      refine ⟨_, _, _, _, bindingValues.append (enclosing.append values), Or.inl rfl,
        Or.inl ⟨rfl, ?_⟩, rfl, Or.inr ⟨rfl, rfl, met⟩⟩
      rw [converted_eq (by rw [body]; rfl), body, Heap.targets_environment _ isLocal,
        List.append_assoc]
  | evaluated body written has content | delayed body written has content =>
      refine ⟨_, _, _, _, .cons content (.nil _), Or.inl rfl, Or.inl ⟨rfl, ?_⟩, rfl,
        Or.inl ⟨rfl, rfl⟩⟩
      rw [converted, Heap.converted_promise body, Heap.targets_promise, has]
      rfl
  | encoded encoded detached written copies present names values =>
      have alone := Body.edges_of_isEncoded sending.context.environments.global encoded
      refine ⟨_, _, _, _, values, Or.inl rfl, Or.inl ⟨rfl, ?_⟩, rfl, Or.inl ⟨rfl, copies.2⟩⟩
      rw [converted_eq alone.2, alone.1]
      rfl
  | attributed isPlain has names values copy =>
      have alone := Body.edges_of_isPlain sending.context.environments.global isPlain
      refine ⟨_, _, _, _, values, Or.inr ⟨_, rfl⟩, Or.inl ⟨rfl, ?_⟩, copy.known,
        Or.inl ⟨rfl, rfl⟩⟩
      rw [converted_eq alone.2, alone.1, has]
      rfl

section Comprises

variable {start stop first last : Stage} {message piece : Message} {ref : Ref}
  {parts : List Message} {children : List Ref}

theorem Comprises.inside
    (comprises : sending.Comprises start message ref parts children first last stop) :
    ∀ part ∈ parts, part ∈ message.parts := by
  intro part member
  rcases comprises.arranged with same | ⟨copy, same⟩
  · rw [same]
    exact member
  · rw [same]
    exact List.mem_cons_of_mem _ member

theorem Comprises.all
    (comprises : sending.Comprises start message ref parts children first last stop) :
    ∀ part ∈ message.parts, part ∈ parts ∨ ∃ copy, part = .plain copy := by
  intro part member
  rcases comprises.arranged with same | ⟨copy, same⟩
  · rw [same] at member
    exact Or.inl member
  · rw [same] at member
    exact (List.mem_cons.mp member).symm.imp_right fun same => ⟨copy, same⟩

theorem Comprises.converted
    (comprises : sending.Comprises start message ref parts children first last stop) :
    ∀ child ∈ children, child ∈ sending.converted ref := by
  intro child member
  rcases comprises.whole with ⟨_, whole⟩ | ⟨nothing, _⟩
  · rw [← whole]
    exact member
  · have length := comprises.threads.length
    rw [nothing] at length
    rw [List.length_eq_zero_iff.mp length.symm] at member
    cases member

theorem Comprises.part
    (comprises : sending.Comprises start message ref parts children first last stop)
    (member : piece ∈ parts) :
    ∃ child ∈ sending.conveyed ref, ∃ begin finish, sending.Describes begin piece child finish := by
  obtain ⟨child, inside, begin, finish, describes⟩ := comprises.threads.member member
  exact ⟨child, conveyed_of_converted (comprises.converted child inside), begin, finish, describes⟩

end Comprises

/-- Every number that is given out during a part of the conversion stands for a local environment
among the values that the conversion goes on to. -/
theorem Describes.met {among : Ref → Prop}
    (closed : ∀ ref, among ref → ∀ child ∈ sending.converted ref, among child)
    {start stop : Stage} {message : Message} {ref : Ref} {index : Nat}
    (describes : sending.Describes start message ref stop) (here : among ref)
    (above : start.known ≤ index) (below : index < stop.known) :
    ∃ env, sending.known[index]? = some env ∧ among env := by
  induction message using Message.induct generalizing start ref stop with
  | step message ofParts =>
      obtain ⟨parts, children, first, last, comprises⟩ := describes.comprises
      by_cases own : index < first.known
      · rcases comprises.begin with ⟨_, same⟩ | ⟨_, next, met⟩
        · omega
        · have only : index = start.known := by omega
          rw [only]
          exact ⟨ref, met, here⟩
      · rw [← comprises.finish] at below
        obtain ⟨part, member, child, inside, begin, finish, inner, above', below'⟩ :=
          comprises.threads.passes (Nat.le_of_not_lt own) below
        exact ofParts part (comprises.inside part member) inner
          (closed ref here child (comprises.converted child inside)) above' below'

end Sending

end ValueChannels
