import ValueChannels.Proofs.Transfer.Sharing
import ValueChannels.Proofs.Transfer.Visiting

/-!
The numbers in a message. A receiver comes by the environments in the order of their numbers and by
no reference before the environment that it refers to; and the environments that have numbers are
just the local ones that the conversion of the value leads to. Main statement: `wellScoped_ofValue`.
-/

namespace ValueChannels

namespace Message

/-- Environments are captured under the numbers from `start` to `stop`, one after the other, and
references are to smaller numbers than the next one. -/
inductive Consecutive : Nat → List Message → Nat → Prop where
  | nil (start : Nat) : Consecutive start [] start
  | capture {start stop : Nat} {message : Message} {rest : List Message}
      (own : message.number? = some (UInt32.ofNat start))
      (others : Consecutive (start + 1) rest stop) : Consecutive start (message :: rest) stop
  | reference {start stop index : Nat} {rest : List Message} (earlier : index < start)
      (others : Consecutive start rest stop) :
      Consecutive start (.environmentRef (UInt32.ofNat index) :: rest) stop
  | other {start stop : Nat} {message : Message} {rest : List Message}
      (free : message.number? = none) (settled : message.refers? = none)
      (others : Consecutive start rest stop) : Consecutive start (message :: rest) stop

namespace Consecutive

variable {start middle stop : Nat} {first second nodes : List Message}

theorem append (left : Consecutive start first middle) (right : Consecutive middle second stop) :
    Consecutive start (first ++ second) stop := by
  induction left with
  | nil => exact right
  | capture own _ ih => exact .capture own (ih right)
  | reference earlier _ ih => exact .reference earlier (ih right)
  | other free settled _ ih => exact .other free settled (ih right)

theorem captures (consecutive : Consecutive start nodes stop) :
    (List.range start).map UInt32.ofNat ++ Message.captures nodes =
      (List.range stop).map UInt32.ofNat := by
  induction consecutive with
  | nil => exact List.append_nil _
  | capture own _ ih =>
      rw [captures_cons, own, ← ih, List.range_succ, List.map_append, List.append_assoc]
      rfl
  | reference _ _ ih => exact ih
  | other free _ _ ih =>
      rw [captures_cons, free]
      exact ih

theorem refers?_of_number? {message : Message} {id : UInt32} (own : message.number? = some id) :
    message.refers? = none := by
  cases message with
  | environment => rfl
  | _ => cases own

theorem wellScoped (consecutive : Consecutive start nodes stop) {known : List UInt32}
    (knows : ∀ index, index < start → UInt32.ofNat index ∈ known) : Scoped known nodes := by
  induction consecutive generalizing known with
  | nil => trivial
  | capture own _ ih =>
      constructor
      · rw [refers?_of_number? own]
        intro id impossible
        cases impossible
      · apply ih
        intro index below
        rw [own]
        rcases Nat.lt_succ_iff_lt_or_eq.mp below with old | new
        · exact List.mem_append_right _ (knows index old)
        · rw [new]
          exact List.mem_append_left _ List.mem_cons_self
  | reference earlier _ ih =>
      constructor
      · intro id same
        cases same
        exact knows _ earlier
      · exact ih knows
  | other free settled _ ih =>
      constructor
      · rw [settled]
        intro id impossible
        cases impossible
      · rw [free]
        exact ih knows

end Consecutive

end Message

namespace Sending

open Message

variable {sending : Sending} {start stop : Stage} {message : Message} {ref child : Ref}

/-! ### What the nodes of a message describe -/

theorem consecutive_threads {first last : Stage} {parts : List Message} {children : List Ref}
    (threads : Threads sending.Describes first parts children last)
    (each : ∀ part ∈ parts, ∀ begin child finish, sending.Describes begin part child finish →
      Consecutive begin.known part.visits finish.known) :
    Consecutive first.known (parts.flatMap visits) last.known := by
  induction threads with
  | nil => exact .nil _
  | cons head tail ih =>
      rw [List.flatMap_cons]
      apply (each _ List.mem_cons_self _ _ _ head).append
      apply ih
      intro part member
      exact each part (List.mem_cons_of_mem _ member)

theorem Describes.consecutive (describes : sending.Describes start message ref stop) :
    Consecutive start.known message.visits stop.known := by
  induction message using Message.induct generalizing start ref stop with
  | step message ofParts =>
      obtain ⟨parts, children, first, last, comprises⟩ := describes.comprises
      have inner : Consecutive first.known (message.parts.flatMap visits) stop.known := by
        have threaded := consecutive_threads comprises.threads fun part member _ _ _ =>
          ofParts part (comprises.inside part member)
        rw [comprises.finish] at threaded
        rcases comprises.arranged with same | ⟨copy, same⟩
        · rw [same]
          exact threaded
        · rw [same]
          exact .other rfl rfl threaded
      rw [visits_eq]
      rcases comprises.begin with ⟨free, same⟩ | ⟨own, next, _⟩
      · rw [same] at inner
        rcases comprises.whole with ⟨settled, _⟩ | ⟨_, settled⟩
        · exact .other free settled inner
        · cases settled with
          | plain => exact .other rfl rfl inner
          | reference _ earlier => exact .reference earlier inner
      · rw [next] at inner
        exact .capture own inner

/-- All that a receiver comes by describes something, but for copies that attributes are set apart
from. -/
theorem Describes.visited (describes : sending.Describes start message ref stop) {node : Message}
    (member : node ∈ message.visits) :
    (∃ first found last, sending.Describes first node found last) ∨ ∃ copy, node = .plain copy := by
  induction message using Message.induct generalizing start ref stop with
  | step message ofParts =>
      rw [visits_eq] at member
      rcases List.mem_cons.mp member with same | later
      · rw [same]
        exact Or.inl ⟨start, ref, stop, describes⟩
      · obtain ⟨part, inside, within⟩ := List.mem_flatMap.mp later
        obtain ⟨parts, children, first, last, comprises⟩ := describes.comprises
        rcases comprises.all part inside with described | ⟨copy, same⟩
        · obtain ⟨_, _, _, _, inner⟩ := comprises.part described
          exact ofParts part inside inner within
        · rw [same, visits] at within
          exact Or.inr ⟨copy, List.mem_singleton.mp within⟩

def Shown (sending : Sending) (root : Message) (ref : Ref) : Prop :=
  ∃ node ∈ root.visits, ∃ first last, sending.Describes first node ref last

theorem Describes.captured {index : Nat} (describes : sending.Describes start message ref stop)
    (above : start.known ≤ index) (below : index < stop.known) :
    ∃ node ∈ message.visits, ∃ env first last, sending.Describes first node env last ∧
      node.number? = some (UInt32.ofNat index) ∧ sending.known[index]? = some env := by
  induction message using Message.induct generalizing start ref stop with
  | step message ofParts =>
      obtain ⟨parts, children, first, last, comprises⟩ := describes.comprises
      by_cases own : index < first.known
      · rcases comprises.begin with ⟨_, same⟩ | ⟨number, next, met⟩
        · omega
        · have only : index = start.known := by omega
          rw [only]
          exact ⟨message, mem_visits_self message, ref, start, stop, describes, number, met⟩
      · rw [← comprises.finish] at below
        obtain ⟨part, member, child, _, begin, finish, inner, above', below'⟩ :=
          comprises.threads.passes (Nat.le_of_not_lt own) below
        have inside := comprises.inside part member
        obtain ⟨node, within, rest⟩ := ofParts part inside inner above' below'
        exact ⟨node, mem_visits_part inside within, rest⟩

theorem Comprises.shown {root node : Message} {parts : List Message} {children : List Ref}
    {first last : Stage} (member : node ∈ root.visits)
    (comprises : sending.Comprises start node ref parts children first last stop)
    (whole : children = sending.converted ref) (onward : child ∈ sending.converted ref) :
    sending.Shown root child := by
  rw [← whole] at onward
  have pairs := comprises.threads.forall₂ fun begin part _ child finish describes =>
    (⟨begin, finish, describes⟩ : ∃ begin finish, sending.Describes begin part child finish)
  obtain ⟨part, inside, begin, finish, describes⟩ := forall₂_right pairs onward
  have within := mem_visits_part (comprises.inside part inside) (mem_visits_self part)
  exact ⟨part, mem_visits_trans member within, begin, finish, describes⟩

theorem children_of_data (data : (sending.origin.body ref).isData = true)
    (member : child ∈ sending.conveyed ref) : child ∈ (sending.origin.get ref).children := by
  rw [conveyed, Heap.conveyed, Heap.carried, List.map_append, Heap.targets_attributeLinks] at member
  rw [Object.children]
  apply List.mem_append.mpr
  apply (List.mem_append.mp member).imp_left
  intro part
  show child ∈ (sending.origin.body ref).children
  cases body : sending.origin.body ref with
  | list items =>
      rw [body, Heap.targets_list] at part
      exact part
  | null | unbound | vector =>
      rw [body] at part
      cases part
  | _ =>
      rw [body] at data
      cases data

section Whole

variable {root : Message} {value : Ref}
  (marked : Heap.Marked sending.origin.size sending.origin sending.final)

include marked

/-- Where the conversion goes on to from a value that is shared in depth or shown, there is another
one. -/
theorem shown_step (whole : sending.Whole root value) (inside : ref.index < sending.origin.size)
    (here : sending.final.Deep ref ∨ sending.Shown root ref)
    (member : child ∈ sending.converted ref) :
    sending.final.Deep child ∨ sending.Shown root child := by
  have ofDeep (deep : sending.final.Deep ref) : sending.final.Deep child := by
    have data := marked.isData_of_deep inside deep
    have held := children_of_data data (conveyed_of_converted member)
    rw [← marked.children inside] at held
    exact deep.child held
  rcases here with deep | ⟨node, visited, first, last, describes⟩
  · exact Or.inl (ofDeep deep)
  · obtain ⟨parts, children, begin, finish, comprises⟩ := describes.comprises
    rcases comprises.whole with ⟨_, all⟩ | ⟨_, settled⟩
    · exact Or.inr (comprises.shown visited all member)
    · cases settled with
      | plain deep => exact Or.inl (ofDeep deep)
      | reference met earlier =>
          -- The environment has its description elsewhere, where its number was given out.
          rename_i index
          have early := (List.getElem?_eq_some_iff.mp met).1
          obtain ⟨node, visited, env, _, _, describes, own, met'⟩ :=
            whole.captured (Nat.zero_le index) early
          obtain ⟨_, _, _, _, comprises⟩ := describes.comprises
          rw [Option.some.inj (met.symm.trans met')] at member
          rcases comprises.whole with ⟨_, all⟩ | ⟨_, settled⟩
          · exact Or.inr (comprises.shown visited all member)
          · cases settled with
            | plain => cases own
            | reference => cases own

theorem Shown.met (shown : sending.Shown root ref)
    (isLocal : (sending.origin.body ref).isLocal = true) : ref ∈ sending.known := by
  obtain ⟨node, _, first, last, describes⟩ := shown
  cases describes with
  | plain _ inside deep =>
      have data := marked.isData_of_deep inside deep
      rw [Body.isData_of_isLocal isLocal] at data
      cases data
  | environment _ _ met => exact List.mem_of_getElem? met
  | reference _ met => exact List.mem_of_getElem? met
  | list body | evaluated body | delayed body =>
      rw [body] at isLocal
      cases isLocal
  | encoded isEncoded =>
      rw [Body.isLocal_of_isEncoded isEncoded] at isLocal
      cases isLocal
  | attributed isPlain =>
      have data := Body.isData_of_isPlain isPlain
      rw [Body.isData_of_isLocal isLocal] at data
      cases data

end Whole

end Sending

namespace Message

variable {context receiver : Context} {heap sent other : Heap} {value : Ref} {message : Message}
  {met : List Ref}

namespace Sent

variable (converted : Sent context heap value message sent met)

include converted

theorem mem_known (sound : heap.Sound) (global : context.environments.global.index < heap.size)
    (inside : value.index < heap.size) (env : Ref) :
    env ∈ met ↔ Leads (heap.converted context.environments.global) value env ∧
      (heap.body env).isLocal = true := by
  have within {ref : Ref} (leads : Leads (heap.converted context.environments.global) value ref) :
      ref.index < heap.size :=
    leads.induct inside fun _ there _ member =>
      sound.conveyed_inside global there (Heap.conveyed_of_converted member)
  constructor
  · apply converted.among
    · intro ref leads child onward
      exact leads.step (sound.nodup_converted _ (within leads)) onward
    · exact .refl _ _
  · rintro ⟨leads, isLocal⟩
    let sending : Sending := { context, origin := heap, final := sent, known := met }
    have reached : sending.final.Deep env ∨ sending.Shown message env := by
      refine (leads.induct (motive := fun ref => ref.index < heap.size ∧
        (sending.final.Deep ref ∨ sending.Shown message ref)) ?_ ?_).2
      · exact ⟨inside, Or.inr ⟨message, mem_visits_self message, _, _, converted.whole⟩⟩
      · rintro ref ⟨there, here⟩ child member
        constructor
        · exact sound.conveyed_inside global there (Heap.conveyed_of_converted member)
        · exact Sending.shown_step converted.marked converted.whole there here member
    rcases reached with deep | shown
    · have data := converted.marked.isData_of_deep (within leads) deep
      rw [Body.isData_of_isLocal isLocal] at data
      cases data
    · exact shown.met converted.marked isLocal

theorem captures_eq : captures message.visits = (List.range met.length).map UInt32.ofNat :=
  converted.whole.consecutive.captures

theorem scoped_visits : Scoped [] message.visits :=
  converted.whole.consecutive.wellScoped fun _ impossible => absurd impossible (Nat.not_lt_zero _)

theorem description {index : Nat} {env : Ref} (found : met[index]? = some env) :
    ∃ frame bindings parent attributes, heap.body env = .environment frame ∧
      .environment (UInt32.ofNat index) bindings parent attributes ∈ message.visits ∧
      bindings.map Prod.fst = frame.bindings.names := by
  have early := (List.getElem?_eq_some_iff.mp found).1
  obtain ⟨node, visited, env', first, last, describes, own, found'⟩ :=
    converted.whole.captured (Nat.zero_le index) early
  rw [Option.some.inj (found.symm.trans found')]
  cases describes with
  | environment body _ _ names =>
      rw [Option.some.inj own] at visited
      exact ⟨_, _, _, _, body, visited, names⟩
  | _ => cases own

theorem shell_fits {shell : Ref} {items : List Message}
    {attributes : Option (List (String × Message))}
    (member : .list shell items attributes ∈ message.visits) :
    ∃ elements, sent.body shell = .list elements ∧ elements.length = items.length := by
  rcases converted.whole.visited member with ⟨first, ref, last, describes⟩ | ⟨_, impossible⟩
  · cases describes with
    | list body elements present names values copy =>
        refine ⟨_, ?_, elements.length.symm⟩
        rcases copy with ⟨itself, _⟩ | ⟨_, _, _, fresh⟩
        · rw [body] at itself
          cases itself
        · show (sent.get shell).body = _
          rw [fresh]
          exact body
  · cases impossible

end Sent

/-- While a value is converted, no number is given out for what comes back as it was. -/
theorem unspent {depth : Nat} {ref handed : Ref} {before after : ConvertState} (sound : heap.Sound)
    (global : context.environments.global.index < heap.size) (inside : ref.index < heap.size)
    (ready : Ready heap before)
    (converted : convertWithin context depth ref before = .ok (.plain handed) after) :
    after.environments = before.environments := by
  have ends := converts_within sound (admission_any context sound global) depth before ref ready
    inside
  obtain ⟨continues, described⟩ := ends.ok converted
  have describes := described after.heap after.environments (.refl _ _) (List.prefix_refl _)
  have same : after.environments.length = before.environments.length := by
    generalize reached : after.stage = stage at describes
    generalize begun : before.stage = stage' at describes
    cases describes
    exact congrArg Stage.known (reached.trans begun.symm)
  exact (continues.known.eq_of_length same.symm).symm

/-- A message for a value, in the order of a receiver: `met` are the local environments that got
numbers, in the order of their numbers. -/
structure WellScoped (context : Context) (heap : Heap) (value : Ref) (message : Message)
    (sent : Heap) (met : List Ref) : Prop where
  table : convertWithin context (Node.depthBound heap) value { heap, environments := [] } =
    .ok message { heap := sent, environments := met }
  /-- All numbers that were given out are captured in their order. -/
  captured : captures message.visits = (List.range met.length).map UInt32.ofNat
  once : met.length ≤ UInt32.size → (captures message.visits).Nodup
  described : ∀ index env, met[index]? = some env →
    ∃ frame bindings parent attributes, heap.body env = .environment frame ∧
      .environment (UInt32.ofNat index) bindings parent attributes ∈ message.visits ∧
      bindings.map Prod.fst = frame.bindings.names
  bound : ∀ sooner id later, message.visits = sooner ++ .environmentRef id :: later →
    id ∈ captures sooner
  distinct : met.Nodup
  locals : ∀ env, env ∈ met ↔ Leads (heap.converted context.environments.global) value env ∧
    (heap.body env).isLocal = true
  shells : ∀ shell items attributes, .list shell items attributes ∈ message.visits →
    ∃ elements, sent.body shell = .list elements ∧ elements.length = items.length
  /-- What was handed over, at any time of the conversion, had used up no number. -/
  unspent : ∀ depth ref before after handed, ref.index < heap.size → Ready heap before →
    convertWithin context depth ref before = .ok (.plain handed) after →
      after.environments = before.environments

/-- A receiver enters the environments of a message as they are captured, and knows each number
that is referred to. -/
structure KeepsUp (receiver : Context) (heap : Heap) (message : Message) : Prop where
  entered : ∀ ref after, message.build receiver { heap, environments := [] } = .ok ref after →
    after.environments.map Prod.fst = (captures message.visits).reverse
  resolved : ∀ id, (toValue receiver heap message).1 ≠ .error (.transfer (.uncapturedEnvironment id))

theorem keepsUp_of_scoped (receiver : Context) (heap : Heap) (good : Scoped [] message.visits) :
    KeepsUp receiver heap message := by
  have walks := walks_build receiver message { heap, environments := [] }
  constructor
  · intro ref after built
    exact (walks.ok built).1.trans (List.append_nil _)
  · intro id ended
    unfold toValue at ended
    split at ended
    · cases ended
    · rename_i err after failed
      have reason := Except.error.inj ended
      exact walks.error failed id reason good

/-- Every message that is made for a value of a sound heap is well scoped, and whoever receives it
can keep up with it. -/
theorem wellScoped_ofValue (sound : heap.Sound)
    (global : context.environments.global.index < heap.size) (inside : value.index < heap.size)
    (prepared : ofValue context heap value = (.ok message, sent)) :
    ∃ met, WellScoped context heap value message sent met ∧
      ∀ receiver other, KeepsUp receiver other message := by
  obtain ⟨met, table⟩ := convertWithin_of_ofValue prepared
  have converted : Sent context heap value message sent met :=
    sent_convertWithin sound global inside table
  have good := converted.scoped_visits
  refine ⟨met, ?_, fun receiver other => keepsUp_of_scoped receiver other good⟩
  constructor
  · exact table
  · exact converted.captures_eq
  · intro few
    rw [converted.captures_eq]
    apply List.nodup_range.map_on
    intro index below other below' same
    rw [List.mem_range] at below below'
    exact number_inj (Nat.lt_of_lt_of_le below few) (Nat.lt_of_lt_of_le below' few) same
  · intro index env found
    exact converted.description found
  · intro sooner id later arranged
    rw [arranged] at good
    rcases good.captured with captured | impossible
    · exact captured
    · cases impossible
  · exact converted.distinct
  · exact converted.mem_known sound global inside
  · intro shell items attributes member
    exact converted.shell_fits member
  · intro depth ref before after handed there ready ended
    exact Message.unspent sound global there ready ended

/-- An environment that a list holds twice, and that is bound in itself, has one number. -/
theorem wellScoped_twice : ∃ sent,
    ofValue sampleSender twiceHeap ⟨12⟩ = (.ok twiceMessage, sent) ∧
      captures twiceMessage.visits = [0] ∧
      WellScoped sampleSender twiceHeap ⟨12⟩ twiceMessage sent [⟨10⟩] ∧
      ∀ receiver other, KeepsUp receiver other twiceMessage := by
  have prepared : ofValue sampleSender twiceHeap ⟨12⟩ =
      (.ok twiceMessage, (ofValue sampleSender twiceHeap ⟨12⟩).2) := rfl
  obtain ⟨met, wellScoped, keepsUp⟩ :=
    wellScoped_ofValue sound_twiceHeap (by decide) (by decide) prepared
  have one : met = [⟨10⟩] := by
    cases wellScoped.table
    rfl
  rw [one] at wellScoped
  exact ⟨_, prepared, rfl, wellScoped, keepsUp⟩

end Message

end ValueChannels
